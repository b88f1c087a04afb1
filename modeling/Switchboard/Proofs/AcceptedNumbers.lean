import Switchboard.Catalog.Basic
import Switchboard.Proofs.NumberTexts
import Switchboard.Rule.Comparison

/-!
# Texts that are accepted as numbers

A text that as a whole stands for a number has that number as its leading one: only blanks follow
its literal, and no literal goes on with a blank. So a comparison of its order, a condition on
numbers and the catalog of fields read one and the same number from it.
-/
namespace Switchboard

/-! ## Texts between blanks -/

namespace Text

variable {p : Char → Bool}

/-- Behind the trimmed text only characters of the class are left. -/
theorem exists_trim_append (p : Char → Bool) (cs : List Char) :
    ∃ blanks, trimLeft p cs = trim p cs ++ blanks ∧ ∀ c ∈ blanks, p c = true := by
  refine ⟨((trimLeft p cs).reverse.takeWhile p).reverse, ?_, ?_⟩
  · rw [trim, trimRight, ← List.reverse_append, List.takeWhile_append_dropWhile,
      List.reverse_reverse]
  · intro c hc
    exact List.all_eq_true.mp List.all_takeWhile c (List.mem_reverse.mp hc)

theorem forall_of_trim_eq_nil {cs : List Char} (h : trim p cs = []) : ∀ c ∈ cs, p c = true := by
  obtain ⟨blanks, hleft, hblanks⟩ := exists_trim_append p cs
  rw [h, List.nil_append, trimLeft] at hleft
  intro c hc
  rw [← List.takeWhile_append_dropWhile (p := p) (l := cs), List.mem_append, hleft] at hc
  rcases hc with hc | hc
  · exact List.all_eq_true.mp List.all_takeWhile c hc
  · exact hblanks c hc

end Text

/-! ## Literals before blanks -/

namespace Number

open Text

theorem Literal.isBlank_of_mem {l : Literal isDecimal} {c : Char} (h : c ∈ l.text) :
    isBlank c = false := by
  have hmarks : marks.all (fun d => !isBlank d) = true := by decide
  rcases l.mem_text h with hdecimal | hmark
  · exact isBlank_of_isDecimal hdecimal
  · simpa using List.all_eq_true.mp hmarks c hmark

/-- No literal goes on with a blank. -/
theorem Literal.isLongest_append (l : Literal isDecimal) {blanks : List Char}
    (h : ∀ c ∈ blanks, isBlank c = true) : IsLongest l (l.text ++ blanks) := by
  refine ⟨List.prefix_append _ _, ?_⟩
  rintro l' ⟨rest, hrest⟩
  rcases List.append_eq_append_iff.mp hrest with ⟨more, hl, -⟩ | ⟨more, hl', hblanks⟩
  · rw [hl, List.length_append]
    exact Nat.le_add_right _ _
  · cases more with
    | nil => simp [hl']
    | cons c more =>
      -- A longer literal would have the first of the blanks among its characters.
      have hblank : isBlank c = true := h c (hblanks ▸ List.mem_cons_self)
      have hplain : isBlank c = false := l'.isBlank_of_mem (hl' ▸ by simp)
      rw [hblank] at hplain
      cases hplain

end Number

/-! ## One number for both readings -/

namespace Value

open Number Text

variable {s : String} {x : Double}

/-- The number of a text is its leading number, unless the text is blank. -/
theorem leadingNumber_of_number (hs : ∃ c ∈ s.toList, isBlank c = false)
    (hnumber : (Value.text s).number = .ok x) (hx : x ≠ .nan) :
    (Value.text s).leadingNumber = .ok x := by
  rw [number_text_eq_ok_iff, ← standsFor_iff] at hnumber
  rcases hnumber with ⟨hblank, -⟩ | ⟨l, hl, rfl⟩ | ⟨-, hnan, -⟩
  · obtain ⟨c, hc, hplain⟩ := hs
    rw [forall_of_trim_eq_nil hblank c hc] at hplain
    cases hplain
  · obtain ⟨blanks, hleft, hblanks⟩ := exists_trim_append isBlank s.toList
    rw [leadingNumber_text_eq_ok_iff, ← readsAs_iff, hleft, ← hl]
    exact Or.inl ⟨l, l.isLongest_append hblanks, rfl⟩
  · exact absurd hnan hx

end Value

namespace Double

theorem key?_settled (x : Double) : (if x.isZero then zero else x).key? = x.key? := by
  cases hzero : x.isZero with
  | false => rfl
  | true =>
    cases x with
    | finite s r =>
      obtain rfl : r = 0 := by simpa [isZero] using hzero
      cases s <;> rfl
    | _ => cases hzero

theorem eqv_of_key? {x y : Double} (h : x.key? = y.key?) (hy : y ≠ .nan) : x.eqv y = true := by
  rw [eqv, compares, h]
  cases y with
  | nan => exact absurd rfl hy
  | infinite s => exact beq_self_eq_true _
  | finite s r => exact beq_self_eq_true _

end Double

namespace Operator

/-- The operator asks for the order of two values. -/
def AsksOrder (o : Operator) : Prop :=
  o ∈ [greaterThan, greaterThanOrEqual, lessThan, lessThanOrEqual]

variable {texts : String → String → Bool} {numbers : Double → Double → Bool} {a v : Value}
  {x : Double}

theorem inOrder_left (hv : v.text? = none) (ha : a.number = .ok x) :
    inOrder texts numbers a v = do
      let y ← v.number
      return numbers x y := by
  unfold inOrder
  split
  · cases hv
  · rw [ha]
    rfl

theorem inOrder_right (hv : v.text? = none) (ha : a.number = .ok x) :
    inOrder texts numbers v a = do
      let y ← v.number
      return numbers y x := by
  unfold inOrder
  split
  · cases hv
  · rw [ha]
    rfl

/-- Against a value that is no text, an order is asked of the place of a number only. -/
theorem holds_of_key? {o : Operator} (ho : o.AsksOrder) {b : Value} {y : Double}
    (ha : a.number = .ok x) (hb : b.number = .ok y) (hkey : x.key? = y.key?)
    (hv : v.text? = none) : o.holds a v = o.holds b v ∧ o.holds v a = o.holds v b := by
  have hleft (relation : Int → Int → Bool) (z : Double) :
      Double.compares relation x z = Double.compares relation y z := by
    rw [Double.compares, Double.compares, hkey]
  have hright (relation : Int → Int → Bool) (z : Double) :
      Double.compares relation z x = Double.compares relation z y := by
    rw [Double.compares, Double.compares, hkey]
  simp only [AsksOrder, List.mem_cons, List.not_mem_nil, or_false] at ho
  rcases ho with rfl | rfl | rfl | rfl <;>
    simp only [holds, inOrder_left hv ha, inOrder_left hv hb, inOrder_right hv ha,
      inOrder_right hv hb, Double.lt, Double.le, hleft, hright, and_self]

end Operator

namespace Value

open Text

/-- A text that is not blank and stands for a number has that number as its leading one. On numbers
it is brought to an equal double, which no operator that asks for an order tells from the text where
the other side is no text, and the catalog takes the text for every field of numbers. -/
theorem number_accepted {s : String} {x : Double} (hs : ∃ c ∈ s.toList, isBlank c = false)
    (hnumber : (Value.text s).number = .ok x) (hx : x ≠ .nan) :
    (Value.text s).leadingNumber = .ok x ∧
      (∃ y, coerce "number" (.text s) = .ok (.double y) ∧ y.eqv x = true ∧
        ∀ (o : Operator) (v : Value), o.AsksOrder → v.text? = none →
          o.holds (.text s) v = o.holds (.double y) v ∧
            o.holds v (.text s) = o.holds v (.double y)) ∧
      ∀ (source kind name operator : Value) (f : Catalog.Field),
        Catalog.field? source name kind = .ok (some f) → f.type = .number →
        f.operators.any (fun o => operator.isText o.name) = true →
        Catalog.complaint? source kind name operator (.text s) = .ok none := by
  have hleading := leadingNumber_of_number hs hnumber hx
  have hnan : x.isNaN = false := by
    cases x with
    | nan => exact absurd rfl hx
    | _ => rfl
  have hsettled : (Value.text s).leadingNumberOrZero =
      .ok (if x.isNaN || x.isZero then .zero else x) := by
    rw [leadingNumberOrZero, hleading]
    rfl
  rw [hnan, Bool.false_or] at hsettled
  have hkey := Double.key?_settled x
  refine ⟨hleading, ⟨if x.isZero then .zero else x, ?_, Double.eqv_of_key? hkey hx, ?_⟩, ?_⟩
  · rw [coerce, hsettled]
    rfl
  · intro o v ho hv
    exact Operator.holds_of_key? ho hnumber rfl hkey.symm hv
  · intro source kind name operator f hfield htype hoperator
    simp only [Catalog.complaint?, hfield, hleading, htype, hoperator, hnan, bind, Except.bind]
    rfl

/-- A price between blanks. -/
def paddedText : String := "\t-.5e01 \n"

theorem number_accepted_padded :
    (Value.text paddedText).leadingNumber = .ok (.ofDecimal true 5 0) ∧
      (∃ y, coerce "number" (.text paddedText) = .ok (.double y) ∧
        Operator.lessThan.holds (.text paddedText) (.int 0) =
          Operator.lessThan.holds (.double y) (.int 0)) ∧
      Catalog.complaint? (.text "youtube") (.text "superchat") (.text "price")
        (.text "greater_than") (.text paddedText) = .ok none := by
  have hnumber : (Value.text paddedText).number = .ok (.ofDecimal true 5 0) := by
    rw [number_text_eq_ok_iff]
    decide +kernel
  obtain ⟨hleading, ⟨y, hy, -, horder⟩, haccepted⟩ :=
    number_accepted (s := paddedText) ⟨'5', by decide, by decide⟩ hnumber
      (Double.ofDecimal_ne_nan _ _ _)
  refine ⟨hleading, ⟨y, hy, (horder .lessThan (.int 0) (by simp [Operator.AsksOrder]) rfl).1⟩, ?_⟩
  exact haccepted _ _ _ _ (Catalog.numberField "price" "SuperChat Amount") (by rfl) rfl (by decide)

end Value

end Switchboard
