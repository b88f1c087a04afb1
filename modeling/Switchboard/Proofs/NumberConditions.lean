import Switchboard.Proofs.EvaluationFaults

/-!
# Conditions on numbers

A condition on numbers brings both of its sides to doubles that are numbers, and each of these has a
place in the order of all doubles. So what the condition asks is asked of two places, and it does
not matter that equality and order are compared by different routines.
-/
namespace Switchboard

namespace Double

theorem exists_key? {x : Double} (h : x.isNaN = false) : ∃ a, x.key? = some a := by
  cases x with
  | nan => cases h
  | infinite s => exact ⟨_, rfl⟩
  | finite s r => exact ⟨_, rfl⟩

theorem compares_eq {x y : Double} {a b : Int} (hx : x.key? = some a) (hy : y.key? = some b)
    (relation : Int → Int → Bool) : compares relation x y = relation a b := by
  rw [compares, hx, hy]

end Double

namespace Value

/-- The number that is read for a condition is one: where there is none to read, it is zero. -/
theorem isNaN_leadingNumberOrZero {v : Value} {x : Double} (h : v.leadingNumberOrZero = .ok x) :
    x.isNaN = false := by
  obtain ⟨y, -, hx⟩ := bind_eq_ok_iff.mp h
  obtain rfl := Except.ok.inj hx
  cases hy : y.isNaN with
  | true => rfl
  | false =>
    rw [Bool.false_or]
    split
    · rfl
    · exact hy

/-- The place of the number that is read from the value, among all doubles. -/
def place (v : Value) : Int :=
  match v.leadingNumberOrZero with
  | .ok x => x.key?.getD 0
  | .error _ => 0

/-- As a number, a value is brought to the double at its place. -/
theorem coerce_number {v : Value} (h : ¬ v.LacksNumber) :
    ∃ x, coerce "number" v = .ok (.double x) ∧ x.key? = some v.place := by
  rw [← faults_leadingNumberOrZero] at h
  obtain ⟨x, hx⟩ := not_faults_iff.mp h
  obtain ⟨a, ha⟩ := Double.exists_key? (isNaN_leadingNumberOrZero hx)
  refine ⟨x, ?_, ?_⟩
  · rw [coerce, hx]
    rfl
  · simp [place, hx, ha]

end Value

namespace Operator

/-- What an operator says of two places in an order, if it asks for an order or for equality. -/
def ofPlaces? (o : Operator) (a b : Int) : Option Bool :=
  match o with
  | .equals => some (a == b)
  | .notEquals => some (!(a == b))
  | .greaterThan => some (b < a)
  | .greaterThanOrEqual => some (b ≤ a)
  | .lessThan => some (a < b)
  | .lessThanOrEqual => some (a ≤ b)
  | _ => none

/-- Of two doubles an operator says what it says of their places. -/
theorem holds_double {o : Operator} {x y : Double} {a b : Int} {answer : Bool}
    (hx : x.key? = some a) (hy : y.key? = some b) (h : o.ofPlaces? a b = some answer) :
    o.holds (.double x) (.double y) = .ok answer := by
  have hxy := Double.compares_eq hx hy
  have hyx := Double.compares_eq hy hx
  cases o <;> cases h
  case equals => exact congrArg Except.ok (hxy _)
  case notEquals => exact congrArg (fun b => Except.ok (!b)) (hxy _)
  case greaterThan => exact congrArg Except.ok (hyx _)
  case greaterThanOrEqual => exact congrArg Except.ok (hyx _)
  case lessThan => exact congrArg Except.ok (hxy _)
  case lessThanOrEqual => exact congrArg Except.ok (hxy _)

end Operator

namespace Condition

variable {c : Condition} {message found : Value}

/-- The condition with another operator. -/
def asking (c : Condition) (o : Operator) : Condition := { c with operator := o.name }

/-- A condition on numbers says what its operator says of the places of its two sides. -/
theorem holds_number {o : Operator} {answer : Bool} (number : c.dataType = "number")
    (read : Path.read message (Path.ofText c.field) = .ok found) (hfound : ¬ found.LacksNumber)
    (hvalue : ¬ c.value.LacksNumber) (h : o.ofPlaces? found.place c.value.place = some answer) :
    (c.asking o).holds message = .ok answer := by
  obtain ⟨x, hleft, hx⟩ := Value.coerce_number hfound
  obtain ⟨y, hright, hy⟩ := Value.coerce_number hvalue
  have hanswer := Operator.holds_double hx hy h
  simp only [holds, asking, Operator.ofName?_name, read, number, hleft, hright, hanswer, bind,
    Except.bind, pure, Except.pure]

/-- The condition that compares the other way round: its value is what was found, at a field of its
own. -/
def swapped (c : Condition) (field : String) (found : Value) : Condition :=
  { c with field, value := found }

/-- On numbers, exactly one of "less", "equal" and "greater" holds between the value that is found
at a field and the value of a condition, whatever the two are, unless one of them has no number: an
integer beyond the doubles, or a list that shows one past the digit limit or is nested too deep. The
other three operators are the negations of these, and "less" and "greater" change places with the
two sides. -/
theorem number_trichotomy (number : c.dataType = "number")
    (read : Path.read message (Path.ofText c.field) = .ok found) (hfound : ¬ found.LacksNumber)
    (hvalue : ¬ c.value.LacksNumber) :
    ∃ less equal greater : Bool,
      (c.asking .lessThan).holds message = .ok less ∧
      (c.asking .equals).holds message = .ok equal ∧
      (c.asking .greaterThan).holds message = .ok greater ∧
      [less, equal, greater].count true = 1 ∧
      (c.asking .notEquals).holds message = .ok (!equal) ∧
      (c.asking .greaterThanOrEqual).holds message = .ok (!less) ∧
      (c.asking .lessThanOrEqual).holds message = .ok (!greater) ∧
      ∀ field other, Path.read other (Path.ofText field) = .ok c.value →
        ((c.swapped field found).asking .lessThan).holds other = .ok greater ∧
        ((c.swapped field found).asking .equals).holds other = .ok equal ∧
        ((c.swapped field found).asking .greaterThan).holds other = .ok less := by
  have hanswers {o : Operator} {answer : Bool}
      (h : o.ofPlaces? found.place c.value.place = some answer) :
      (c.asking o).holds message = .ok answer := holds_number number read hfound hvalue h
  refine ⟨_, _, _, hanswers rfl, hanswers rfl, hanswers rfl, ?_, hanswers rfl, ?_, ?_, ?_⟩
  · rcases Int.lt_trichotomy found.place c.value.place with h | h | h
    · simp [h, Int.ne_of_lt h, Int.le_of_lt h]
    · simp [h]
    · simp [h, Int.ne_of_gt h, Int.le_of_lt h]
  · rw [← decide_not, decide_eq_decide.mpr Int.not_lt]
    exact hanswers rfl
  · rw [← decide_not, decide_eq_decide.mpr Int.not_lt]
    exact hanswers rfl
  · intro field other hother
    have hswapped {o : Operator} {answer : Bool}
        (h : o.ofPlaces? c.value.place found.place = some answer) :
        ((c.swapped field found).asking o).holds other = .ok answer :=
      holds_number number hother hvalue hfound h
    refine ⟨hswapped rfl, ?_, hswapped rfl⟩
    rw [BEq.comm]
    exact hswapped rfl

/-- A condition on a price, which is to be more than the number at the start of a text. -/
def overTwenty : Condition where
  field := "gift.price"
  value := .text " 2e1 or more"
  dataType := "number"

/-- A message whose price is in a list. -/
def pricedMessage : Value :=
  .record [("gift", .record [("price", .list [.text "25.5", .null])])]

theorem number_trichotomy_priced :
    Path.read pricedMessage (Path.ofText overTwenty.field) = .ok (.list [.text "25.5", .null]) ∧
      (overTwenty.asking .greaterThan).holds pricedMessage = .ok true ∧
      (overTwenty.asking .lessThan).holds pricedMessage = .ok false ∧
      (overTwenty.asking .equals).holds pricedMessage = .ok false ∧
      (overTwenty.asking .lessThanOrEqual).holds pricedMessage = .ok false := by
  have read : Path.read pricedMessage (Path.ofText overTwenty.field) =
      .ok (.list [.text "25.5", .null]) := by rfl
  have hfound : ¬ Value.LacksNumber (.list [.text "25.5", .null]) := by
    refine not_or.mpr ⟨?_, by decide⟩
    simp [@Value.IsPlainLeaf.not_showsOverlong (.text "25.5") trivial,
      @Value.IsPlainLeaf.not_showsOverlong .null trivial]
  have hvalue : ¬ overTwenty.value.LacksNumber :=
    @Value.IsPlainLeaf.not_lacksDisplay (.text " 2e1 or more") trivial
  obtain ⟨less, equal, greater, hless, hequal, hgreater, hone, -, -, hnot, -⟩ :=
    number_trichotomy (c := overTwenty) rfl read hfound hvalue
  have hover : (overTwenty.asking .greaterThan).holds pricedMessage = .ok true := by decide +kernel
  obtain rfl : greater = true := Except.ok.inj (hgreater.symm.trans hover)
  cases less <;> cases equal <;> simp at hone
  exact ⟨read, hover, hless, hequal, hnot⟩

/-- Between lists that are nested too deep and zero, none of the three has an answer. -/
theorem not_number_trichotomy_nested :
    let c : Condition := { field := "x", value := .int 0, dataType := "number" }
    let message := Value.record [("x", Value.nestedLists 400)]
    Path.read message (Path.ofText c.field) = .ok (Value.nestedLists 400) ∧
      ¬ ∃ less equal greater : Bool,
        (c.asking .lessThan).holds message = .ok less ∧
        (c.asking .equals).holds message = .ok equal ∧
        (c.asking .greaterThan).holds message = .ok greater ∧
        [less, equal, greater].count true = 1 := by
  have hdeep : (Value.nestedLists 400).ShowsTooDeep := by
    rw [Value.ShowsTooDeep, Value.shownLevels_nestedLists]
    decide
  obtain ⟨items, hitems⟩ := hdeep.exists_list
  rw [hitems] at hdeep ⊢
  have read : Path.read (.record [("x", .list items)]) (Path.ofText "x") = .ok (.list items) := by
    rfl
  intro c message
  refine ⟨read, ?_⟩
  rintro ⟨less, -, -, hless, -⟩
  have hfaults : Switchboard.Faults ((c.asking .lessThan).holds message) :=
    (faults_holds _ _).mpr ⟨rfl, Or.inr ⟨rfl, Or.inr ⟨.list items, read, Or.inr hdeep⟩⟩⟩
  rw [hless] at hfaults
  exact not_faults_ok _ hfaults

end Condition

end Switchboard
