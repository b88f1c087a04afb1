import Switchboard.Proofs.NearestMagnitudes
import Switchboard.Value.Number

/-!
# Strict equality

Texts, booleans and numbers are equal by what they stand for. An integer and a double are both
numbers, and stand for one if they are the same rational number, however large they are. What is not
a number stands for nothing. So strict equality is the equality of what two values stand for.
-/
namespace Switchboard

namespace Value

/-- The kinds of values that are compared by what they stand for. -/
inductive Kind
  | absent
  | null
  | boolean
  | number
  | text
  deriving DecidableEq

/-- The kind of a value; lists, tables, octets and stamps have none. -/
def kind? : Value → Option Kind
  | .absent => some .absent
  | .null => some .null
  | .bool _ => some .boolean
  | .int _ | .double _ => some .number
  | .text _ => some .text
  | _ => none

/-- What values stand for. -/
inductive Meaning
  | absent
  | null
  | boolean (b : Bool)
  | number (q : ℚ)
  | infinity (negative : Bool)
  | text (s : String)

def Meaning.kind : Meaning → Kind
  | .absent => .absent
  | .null => .null
  | .boolean _ => .boolean
  | .number _ | .infinity _ => .number
  | .text _ => .text

end Value

namespace Double

open Value (Meaning)

variable {x y : Double} {n : Int} {s t : Bool} {r q : Magnitude}

/-- What a double stands for, if it is a number. -/
def meaning? : Double → Option Meaning
  | .nan => none
  | .infinite negative => some (.infinity negative)
  | .finite negative r => some (.number (value (.finite negative r)))

theorem kind_of_meaning? {m : Meaning} (h : x.meaning? = some m) : m.kind = .number := by
  cases x with
  | nan => cases h
  | infinite _ | finite _ _ =>
    cases h
    rfl

/-- Without rounding, an integer equals a finite double if the two are the same number. -/
theorem eqInt_finite_iff : (finite s r).eqInt n = true ↔ (n : ℚ) = (finite s r).value := by
  by_cases h : r.isIntegral = true
  · have hcast : (finite s r).value = ((if s then -(r.floor : Int) else r.floor : Int) : ℚ) := by
      rw [value, ← Magnitude.floor_eq_value h]
      cases s <;> simp
    simp only [hcast, Int.cast_inj, eqInt, h, Bool.true_and, beq_iff_eq]
    exact eq_comm
  · have hne : (n : ℚ) ≠ (finite s r).value := by
      intro heq
      have habs : (n.natAbs : ℚ) = r.value := by
        rw [Nat.cast_natAbs, Int.cast_abs, heq, value]
        cases s <;> simp [abs_of_nonneg r.value_nonneg]
      exact h (Magnitude.isIntegral_iff.mpr ⟨n.natAbs, habs.symm⟩)
    simp [eqInt, h, hne]

/-- Finite doubles are at one place in the order of doubles if they are the same number. -/
theorem eqv_finite_iff :
    (finite s r).eqv (finite t q) = true ↔ (finite s r).value = (finite t q).value := by
  have hsame : (r.val : Int) = q.val ↔ r.value = q.value := by
    rw [Magnitude.value_inj, Fin.ext_iff, Int.natCast_inj]
  have hopposite : (r.val : Int) = -q.val ↔ r.value = -q.value := by
    constructor
    · intro h
      rw [Magnitude.value_eq_zero_iff.mpr (by omega : r.val = 0),
        Magnitude.value_eq_zero_iff.mpr (by omega : q.val = 0), neg_zero]
    · intro h
      have hr := Magnitude.value_eq_zero_iff.mp
        (show r.value = 0 by linarith [r.value_nonneg, q.value_nonneg])
      have hq := Magnitude.value_eq_zero_iff.mp
        (show q.value = 0 by linarith [r.value_nonneg, q.value_nonneg])
      omega
  cases s <;> cases t
  case false.false => simpa [eqv, compares, key?, value] using hsame
  case false.true => simpa [eqv, compares, key?, value] using hopposite
  case true.false => simpa [eqv, compares, key?, value, neg_eq_iff_eq_neg] using hopposite
  case true.true => simpa [eqv, compares, key?, value] using hsame

theorem eqInt_iff : x.eqInt n = true ↔ x.meaning? = some (.number n) := by
  cases x with
  | nan => simp [eqInt, meaning?]
  | infinite s => simp [eqInt, meaning?]
  | finite s r => rw [eqInt_finite_iff, meaning?, Option.some.injEq, Meaning.number.injEq, eq_comm]

theorem eqv_comm (x y : Double) : x.eqv y = y.eqv x := by
  unfold eqv compares
  cases x.key? with
  | none => cases y.key? <;> rfl
  | some a =>
    cases y.key? with
    | none => rfl
    | some b => exact BEq.comm

/-- The infinities are beyond all magnitudes. -/
theorem eqv_infinite_finite : (infinite s).eqv (finite t q) = false := by
  have hq := q.isLt
  cases s <;> cases t <;> simp [eqv, compares, key?] <;> omega

theorem eqv_iff : x.eqv y = true ↔ ∃ m, x.meaning? = some m ∧ y.meaning? = some m := by
  cases x with
  | nan => simp [eqv, compares_nan_left, meaning?]
  | infinite s =>
    cases y with
    | nan => simp [eqv, compares, key?, meaning?]
    | infinite t => cases s <;> cases t <;> simp [eqv, compares, key?, meaning?]
    | finite t q => simp [eqv_infinite_finite, meaning?]
  | finite s r =>
    cases y with
    | nan => simp [eqv, compares, key?, meaning?]
    | infinite t =>
      rw [eqv_comm, eqv_infinite_finite]
      simp [meaning?]
    | finite t q =>
      rw [eqv_finite_iff]
      simp [meaning?, eq_comm]

end Double

namespace Value

/-- What a value stands for. -/
def meaning? : Value → Option Meaning
  | .absent => some .absent
  | .null => some .null
  | .bool b => some (.boolean b)
  | .int n => some (.number n)
  | .double x => x.meaning?
  | .text s => some (.text s)
  | _ => none

variable {a b : Value}

theorem kind?_of_meaning? {m : Meaning} (h : a.meaning? = some m) : a.kind? = some m.kind := by
  cases a with
  | absent | null | bool _ | int _ | text _ =>
    cases h
    rfl
  | double x => rw [Double.kind_of_meaning? h, kind?]
  | list _ | record _ | table _ | octets _ | stamp _ => cases h

/-- A value of some kind stands for something, unless it is not a number. -/
theorem exists_meaning?_iff {k : Kind} (h : a.kind? = some k) :
    (∃ m, a.meaning? = some m) ↔ a ≠ .double .nan := by
  cases a with
  | absent | null | bool _ | int _ | text _ => simp [meaning?]
  | double x => cases x <;> simp [meaning?, Double.meaning?]
  | list _ | record _ | table _ | octets _ | stamp _ => cases h

/-- No value is converted to another kind. -/
theorem kind?_eq_of_strictEq (h : strictEq a b = true) : a.kind? = b.kind? := by
  cases a <;> cases b <;> simp [strictEq] at h <;> rfl

/-- Values are equal if they stand for the same. -/
theorem strictEq_iff : strictEq a b = true ↔ ∃ m, a.meaning? = some m ∧ b.meaning? = some m := by
  by_cases hkind : a.kind? = b.kind?
  · cases a <;> cases b
    case int.double n y => simp [strictEq, meaning?, Double.eqInt_iff]
    case double.int x n => simp [strictEq, meaning?, Double.eqInt_iff]
    case double.double x y => exact Double.eqv_iff
    case bool.bool p q => simp [strictEq, meaning?, @eq_comm _ p q]
    case int.int m n => simp [strictEq, meaning?, @eq_comm _ m n]
    case text.text s t => simp [strictEq, meaning?, @eq_comm _ s t]
    all_goals simp [strictEq, meaning?, kind?] at hkind ⊢
  · refine iff_of_false (fun h => hkind (kind?_eq_of_strictEq h)) ?_
    rintro ⟨m, ha, hb⟩
    exact hkind ((kind?_of_meaning? ha).trans (kind?_of_meaning? hb).symm)

/-- Strict equality is symmetric and transitive, and of the values of some kind all but the one that
is not a number are equal to themselves. Values of two kinds are never equal, and an integer equals
a finite double exactly if the two are the same rational number. In general, two values are equal if
they stand for the same. -/
theorem strictEq_equivalence :
    (∀ a b : Value, strictEq a b = strictEq b a) ∧
    (∀ a b c : Value, strictEq a b = true → strictEq b c = true → strictEq a c = true) ∧
    (∀ (a : Value) (k : Kind), a.kind? = some k → (strictEq a a = true ↔ a ≠ .double .nan)) ∧
    (∀ a b : Value, strictEq a b = true → ∃ k, a.kind? = some k ∧ b.kind? = some k) ∧
    (∀ (n : Int) (negative : Bool) (r : Magnitude),
      strictEq (.int n) (.double (.finite negative r)) = true ↔
        (n : ℚ) = (Double.finite negative r).value) ∧
    ∀ a b : Value, strictEq a b = true ↔ ∃ m, a.meaning? = some m ∧ b.meaning? = some m := by
  refine ⟨?_, ?_, ?_, ?_, ?_, fun _ _ => strictEq_iff⟩
  · intro a b
    rw [Bool.eq_iff_iff, strictEq_iff, strictEq_iff]
    simp only [and_comm]
  · intro a b c hab hbc
    obtain ⟨m, ha, hb⟩ := strictEq_iff.mp hab
    obtain ⟨m', hb', hc⟩ := strictEq_iff.mp hbc
    obtain rfl := Option.some.inj (hb.symm.trans hb')
    exact strictEq_iff.mpr ⟨m, ha, hc⟩
  · intro a k hk
    rw [strictEq_iff, ← exists_meaning?_iff hk]
    simp only [and_self]
  · intro a b h
    obtain ⟨m, ha, hb⟩ := strictEq_iff.mp h
    exact ⟨m.kind, kind?_of_meaning? ha, kind?_of_meaning? hb⟩
  · intro n negative r
    exact Double.eqInt_finite_iff

/-- Both zeros are equal to the integer between them, so they are equal to each other. -/
theorem strictEq_equivalence_zeros :
    strictEq (.double (.finite true 0)) (.int 0) = true ∧
      strictEq (.int 0) (.double .zero) = true ∧
      strictEq (.double (.finite true 0)) (.double .zero) = true ∧
      kind? (.double .zero) = some .number ∧ strictEq (.double .zero) (.double .zero) = true ∧
      ∃ k, kind? (.int 0) = some k ∧ kind? (.double .zero) = some k := by
  obtain ⟨-, htrans, hrefl, hkind, -⟩ := strictEq_equivalence
  have hleft : strictEq (.double (.finite true 0)) (.int 0) = true := by decide +kernel
  have hright : strictEq (.int 0) (.double .zero) = true := by decide +kernel
  refine ⟨hleft, hright, htrans _ _ _ hleft hright, rfl, ?_, hkind _ _ hright⟩
  exact (hrefl _ .number rfl).mpr nofun

/-- An integer past `2 ^ 53` is not the double that is nearest to it. -/
example : Double.ofInt? (2 ^ 53 + 1) = some (.finite false ⟨1076 * 2 ^ 52, by decide⟩) ∧
    strictEq (.int (2 ^ 53)) (.double (.finite false ⟨1076 * 2 ^ 52, by decide⟩)) = true ∧
    strictEq (.int (2 ^ 53 + 1)) (.double (.finite false ⟨1076 * 2 ^ 52, by decide⟩)) = false := by
  decide +kernel

end Value

end Switchboard
