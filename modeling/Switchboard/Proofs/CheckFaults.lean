import Switchboard.Proofs.Texts

/-!
# The fault that ends a check

A fault comes out of a check exactly where it comes out of one of its parts, and of the checks of
plain values only that for a plain text has one. So a check of a record is ended only by the check
of one of its fields, and one of a list by the check of one of its items.
-/
namespace Switchboard

namespace Value

/-- The fields of a record, or those of a table whose keys are texts. -/
def keyed? : Value → Option (Record Value)
  | .record r => some r
  | .table entries => some (Check.textFields entries)
  | _ => none

/-- The items of a list; no other value has any. -/
def listed : Value → List Value
  | .list items => items
  | _ => []

/-- The fault for which a value has no plain text, unless it lies in a value of the right kind. -/
def plainFault? (v : Value) : Option Fault :=
  match v.plain with
  | .ok _ => none
  | .error f => if f.family = .value then none else some f

/-- A value that has a literal has a plain text, so there is no such fault. -/
theorem plainFault?_eq_none {v : Value} (h : ¬ v.LacksLiteral) : v.plainFault? = none := by
  obtain ⟨s, hs⟩ := not_faults_iff.mp (mt (faults_plain v).mp h)
  simp [plainFault?, hs]

/-- What counts as not given has a plain text, whatever its kind. -/
theorem plainFault?_of_not_given {v : Value} (h : v.given = false) : v.plainFault? = none := by
  have hzero : ¬ IsOverlong 0 := Nat.not_le.mpr (Nat.pow_pos (show 0 < 10 by decide))
  apply plainFault?_eq_none
  cases v with
  | int n =>
    obtain rfl : n = 0 := by simpa [given] using h
    simp [LacksLiteral, levels, hzero]
  | list items =>
    obtain rfl : items = [] := by simpa [given] using h
    simp [LacksLiteral, levels, levelsOfItems]
  | record fields =>
    obtain rfl : fields = [] := by simpa [given] using h
    simp [LacksLiteral, levels, levelsOfFields]
  | table entries =>
    obtain rfl : entries = [] := by simpa [given] using h
    simp [LacksLiteral, levels, levelsOfEntries]
  | _ => exact IsPlainLeaf.not_lacksLiteral trivial

theorem eq_of_plainFault? {v : Value} {f : Fault} (h : v.plainFault? = some f) :
    f = .nestedTooDeep := by
  unfold plainFault? at h
  cases hv : v.plain with
  | ok s => simp [hv] at h
  | error g =>
    rw [hv] at h
    rcases faultsOnly_plain v g hv with rfl | ⟨rfl, -⟩
    · cases h
    · exact (Option.some.inj h).symm

end Value

namespace Check

variable {α β : Type}

/-- The fault that ends a check. -/
def fault? : Check α → Option Fault
  | .broken f => some f
  | _ => none

@[simp] theorem fault?_ok (a : α) : (Check.ok a).fault? = none := rfl

@[simp] theorem fault?_issues (found : List Issue) : (Check.issues found : Check α).fault? = none :=
  rfl

@[simp] theorem fault?_issue (reason : Reason) : (issue reason : Check α).fault? = none := rfl

@[simp] theorem fault?_map' (f : α → β) (x : Check α) : (x.map f).fault? = x.fault? := by
  cases x <;> rfl

@[simp] theorem fault?_under (s : Step) (x : Check α) : (x.under s).fault? = x.fault? := by
  cases x <;> rfl

/-- Of two checks side by side the first that is ended ends both. -/
@[simp] theorem fault?_both (x : Check α) (y : Check β) :
    (x.both y).fault? = x.fault?.or y.fault? := by
  cases x <;> cases y <;> rfl

@[simp] theorem fault?_seq (f : Check (α → β)) (x : Check α) :
    (f <*> x).fault? = f.fault?.or x.fault? := by
  change ((both f x).map _).fault? = _
  rw [fault?_map', fault?_both]

@[simp] theorem fault?_map (f : α → β) (x : Check α) : (f <$> x).fault? = x.fault? := by
  change (Check.ok f <*> x).fault? = _
  rw [fault?_seq, fault?_ok, Option.none_or]

/-- A second check that is never ended adds no fault. -/
theorem fault?_andThen {x : Check α} {f : α → Check β} (never : ∀ a, (f a).fault? = none) :
    (x.andThen f).fault? = x.fault? := by
  cases x with
  | ok a => exact never a
  | _ => rfl

@[simp] theorem fault?_items (item : Value → Check α) (n : Nat) (vs : List Value) :
    (items item n vs).fault? = vs.findSome? fun v => (item v).fault? := by
  induction vs generalizing n with
  | nil => rfl
  | cons v vs ih =>
    rw [items, fault?_map', fault?_both, fault?_under, ih, List.findSome?_cons]
    cases (item v).fault? <;> rfl

theorem run_of_fault? {form : String} {c : Check α} {f : Fault} (h : c.fault? = some f) :
    c.run form = .error f := by
  cases c <;> simp_all [fault?, run]

/-- A check that is not ended has a result or a rejection. -/
theorem run_cases {form : String} {c : Check α} (h : c.fault? = none) :
    (∃ a, c.run form = .ok a) ∨ ∃ j, c.run form = .error (.rejected j) := by
  cases c with
  | ok a => exact Or.inl ⟨a, rfl⟩
  | issues found => exact Or.inr ⟨_, rfl⟩
  | broken f => cases h

@[simp] theorem find?_self (r : Record Value) (key : String) :
    find? r key key = (Record.get? r key).map (key, ·) := by
  unfold find?
  cases Record.get? r key <;> rfl

@[simp] theorem fault?_required (r : Record Value) (wire plain : String) (read : Value → Check α) :
    (required r wire plain read).fault? = (find? r wire plain).bind fun p => (read p.2).fault? := by
  unfold required
  cases find? r wire plain <;> simp

@[simp] theorem fault?_optional (r : Record Value) (wire plain : String) (default : α)
    (read : Value → Check α) :
    (optional r wire plain default read).fault? =
      (find? r wire plain).bind fun p => (read p.2).fault? := by
  unfold optional
  cases find? r wire plain <;> simp

@[simp] theorem fault?_textOfOctets (reason : Reason) (bytes : List UInt8) :
    (textOfOctets reason bytes).fault? = none := by
  unfold textOfOctets
  split <;> rfl

@[simp] theorem fault?_text (v : Value) : (text v).fault? = none := by
  cases v <;> simp [text]

@[simp] theorem fault?_textOrNull (v : Value) : (textOrNull v).fault? = none := by
  cases v <;> simp [textOrNull]

@[simp] theorem fault?_plainText (v : Value) : (plainText v).fault? = v.plainFault? := by
  unfold plainText Value.plainFault?
  generalize v.plain = found
  cases found with
  | ok s => rfl
  | error f =>
    dsimp only
    split <;> rfl

@[simp] theorem fault?_flagOfText (s : String) : (flagOfText s).fault? = none := by
  unfold flagOfText
  split <;> rfl

@[simp] theorem fault?_flagOfInt (n : Int) : (flagOfInt n).fault? = none := by
  unfold flagOfInt
  repeat' split
  all_goals rfl

@[simp] theorem fault?_flag (v : Value) : (flag v).fault? = none := by
  cases v with
  | octets bytes => rw [flag, fault?_andThen fault?_flagOfText, fault?_textOfOctets]
  | double x =>
    unfold flag
    dsimp only
    split <;> simp
  | _ => simp [flag]

@[simp] theorem fault?_keysAreTexts (entries : List (Value × Value)) :
    (keysAreTexts entries).fault? = none := by
  unfold keysAreTexts
  split <;> rfl

@[simp] theorem fault?_onRecord (read : Record Value → Check α) (v : Value) :
    (onRecord read v).fault? = v.keyed?.bind fun r => (read r).fault? := by
  cases v <;> simp [onRecord, Value.keyed?]

@[simp] theorem fault?_listOf (item : Value → Check α) (v : Value) :
    (listOf item v).fault? = v.listed.findSome? fun w => (item w).fault? := by
  cases v <;> simp [listOf, Value.listed]

end Check

end Switchboard
