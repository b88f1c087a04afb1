import Switchboard.Value.Number
import Mathlib.Order.Basic
import Mathlib.Tactic.SplitIfs

/-!
# Values without a text or a number

The text of an integer ends at the digit limit, and doubles end below `2 ^ 1024`. Every other value
has a display, a literal and a leading number, so an operation on values faults exactly where one
of the two bounds is met. A double is never past the digit limit.
-/
namespace Switchboard

variable {α β γ : Type}

/-- Whether an operation gives no result. -/
def Faults (e : Except Fault α) : Prop := ∃ f, e = .error f

@[simp] theorem not_faults_ok (a : α) : ¬ Faults (.ok a) := by rintro ⟨f, h⟩; cases h

@[simp] theorem not_faults_pure (a : α) : ¬ Faults (pure a) := not_faults_ok a

@[simp] theorem faults_error (f : Fault) : Faults (.error f : Except Fault α) := ⟨f, rfl⟩

theorem faults_bind {e : Except Fault α} {next : α → Except Fault β} :
    Faults (e >>= next) ↔ Faults e ∨ ∃ a, e = .ok a ∧ Faults (next a) := by
  cases e with
  | error f => simp [Faults, bind, Except.bind]
  | ok a => simp [Faults, bind, Except.bind]

/-- A last step that cannot fault adds no fault. -/
theorem faults_bind_of_never {e : Except Fault α} {next : α → Except Fault β}
    (h : ∀ a, ¬ Faults (next a)) : Faults (e >>= next) ↔ Faults e := by
  rw [faults_bind]
  exact or_iff_left fun ⟨a, _, ha⟩ => h a ha

theorem faults_bind_pure {e : Except Fault α} {f : α → β} :
    Faults (e >>= fun a => pure (f a)) ↔ Faults e := by
  exact faults_bind_of_never fun a => not_faults_pure (f a)

/-- If it is settled when the second of two operations faults, be the result of the first what it
may, they fault where one of them does. -/
theorem faults_bind_of_ok {e : Except Fault α} {next : α → Except Fault β} {later : Prop}
    (h : ∀ a, e = .ok a → (Faults (next a) ↔ later)) :
    Faults (e >>= next) ↔ Faults e ∨ later := by
  cases e with
  | error f => exact iff_of_true (faults_error f) (Or.inl (faults_error f))
  | ok a => exact (h a rfl).trans (or_iff_right (not_faults_ok a)).symm

theorem faults_map {e : Except Fault α} {f : α → β} : Faults (f <$> e) ↔ Faults e := by
  cases e <;> simp

/-- Two operations whose results are joined fault where one of them does. -/
theorem faults_bind_bind_pure {e : Except Fault α} {d : Except Fault β} {f : α → β → γ} :
    Faults (e >>= fun a => d >>= fun b => pure (f a b)) ↔ Faults e ∨ Faults d := by
  simp only [faults_bind (e := e), faults_bind_pure]
  cases e <;> simp

theorem not_faults_iff {e : Except Fault α} : ¬ Faults e ↔ ∃ a, e = .ok a := by
  cases e <;> simp [Faults]

theorem bind_eq_ok_iff {e : Except Fault α} {next : α → Except Fault β} {b : β} :
    e >>= next = .ok b ↔ ∃ a, e = .ok a ∧ next a = .ok b := by
  cases e <;> simp [bind, Except.bind]

/-- Every fault that the operation may end in is one of these. -/
def FaultsOnly (P : Fault → Prop) (e : Except Fault α) : Prop := ∀ f, e = .error f → P f

namespace FaultsOnly

variable {P : Fault → Prop} {e : Except Fault α}

@[simp] theorem ok (a : α) : FaultsOnly P (.ok a) := nofun

@[simp] theorem pure (a : α) : FaultsOnly P (pure a) := nofun

@[simp] theorem error_iff {f : Fault} : FaultsOnly P (.error f : Except Fault α) ↔ P f := by
  simp [FaultsOnly]

theorem bind {next : α → Except Fault β} (he : FaultsOnly P e)
    (hnext : ∀ a, FaultsOnly P (next a)) :
    FaultsOnly P (e >>= next) := by
  cases e with
  | error f => exact fun g hg => he g (by simpa [Bind.bind, Except.bind] using hg)
  | ok a => exact hnext a

theorem bind_pure {f : α → β} (he : FaultsOnly P e) :
    FaultsOnly P (e >>= fun a => Pure.pure (f a)) :=
  he.bind fun _ => .pure _

theorem mono {Q : Fault → Prop} (he : FaultsOnly P e) (h : ∀ f, P f → Q f) : FaultsOnly Q e :=
  fun f hf => h f (he f hf)

end FaultsOnly

/-! ## The two bounds -/

/-- The decimal text of the integer is past the digit limit. -/
def IsOverlong (n : Int) : Prop := 10 ^ Number.digitLimit ≤ n.natAbs

/-- The integer lies beyond every double: it is at least the middle between the largest one, which
is `(2 ^ 53 - 1) * 2 ^ 971`, and the next power of two. -/
def IsPastDoubles (n : Int) : Prop := (2 ^ 54 - 1) * 2 ^ 970 ≤ n.natAbs

theorem faults_intText (n : Int) : Faults (intText n) ↔ IsOverlong n := by
  have hlen : (Nat.toDigits 10 n.natAbs).length ≤ Number.digitLimit ↔ ¬ IsOverlong n := by
    rw [Nat.length_toDigits_le_iff (by decide) (by decide), IsOverlong, Nat.not_le]
  unfold intText
  by_cases h : IsOverlong n
  · simp [hlen, h]
  · simp [hlen, h]

theorem faultsOnly_intText {P : Fault → Prop} (long : P .numeralTooLong) (n : Int) :
    FaultsOnly P (intText n) := by
  unfold intText
  dsimp only
  split
  · exact .ok _
  · exact FaultsOnly.error_iff.mpr long

theorem intText_ne_empty {n : Int} {s : String} (h : intText n = .ok s) : s ≠ "" := by
  unfold intText at h
  dsimp only at h
  split at h
  · simp only [Except.ok.injEq] at h
    subst h
    split <;> simp
  · cases h

namespace Magnitude

theorem significand_lt (r : Magnitude) : r.significand < 2 ^ 53 := by
  unfold significand
  split
  · assumption
  · have := Nat.mod_lt r.val (show 0 < 2 ^ 52 by decide)
    omega

theorem exponent_le (r : Magnitude) : r.exponent ≤ 971 := by
  have hr : r.val / 2 ^ 52 < 2047 := Nat.div_lt_of_lt_mul (by have := r.isLt; omega)
  unfold exponent
  split <;> omega

theorem floor_lt_of_exponent_le {r : Magnitude} {e : Nat} (h : r.exponent ≤ e) :
    r.floor < 2 ^ 53 * 2 ^ e := by
  have hs := r.significand_lt
  unfold floor ratio
  cases hk : -r.exponent with
  | ofNat k =>
    calc r.significand / (1 * 2 ^ k) ≤ r.significand := Nat.div_le_self ..
      _ < 2 ^ 53 := hs
      _ ≤ 2 ^ 53 * 2 ^ e := Nat.le_mul_of_pos_right _ (Nat.two_pow_pos _)
  | negSucc k =>
    have hle : k + 1 ≤ e := by omega
    calc r.significand * 2 ^ (k + 1) / 1 = r.significand * 2 ^ (k + 1) := Nat.div_one _
      _ < 2 ^ 53 * 2 ^ (k + 1) := Nat.mul_lt_mul_of_pos_right hs (Nat.two_pow_pos _)
      _ ≤ 2 ^ 53 * 2 ^ e := Nat.mul_le_mul_left _ (Nat.pow_le_pow_right Nat.two_pos hle)

theorem floor_lt (r : Magnitude) : r.floor < 2 ^ 53 * 2 ^ 971 :=
  @floor_lt_of_exponent_le r 971 r.exponent_le

theorem text_ne_empty (r : Magnitude) : r.text ≠ "" := by
  unfold text
  split
  · decide
  · dsimp only
    split_ifs <;> simp

end Magnitude

namespace Double

theorem not_isOverlong_of_truncate? {x : Double} {n : Int} (h : x.truncate? = some n) :
    ¬ IsOverlong n := by
  have hpow : 2 ^ 53 * 2 ^ 971 ≤ 10 ^ Number.digitLimit := by
    rw [← Nat.pow_add 2 53 971]
    calc 2 ^ (53 + 971) ≤ 10 ^ (53 + 971) := Nat.pow_le_pow_left (show 2 ≤ 10 by decide) _
      _ ≤ 10 ^ Number.digitLimit :=
        Nat.pow_le_pow_right (show 0 < 10 by decide) (show 53 + 971 ≤ 4300 by decide)
  cases x with
  | finite s r =>
    have hr := r.floor_lt
    simp only [truncate?, Option.some.injEq] at h
    rw [IsOverlong, Nat.not_le, ← h]
    split <;> simp only [Int.natAbs_neg, Int.natAbs_natCast] <;> exact Nat.lt_of_lt_of_le hr hpow
  | _ => cases h

theorem not_isOverlong_of_toInt? {x : Double} {n : Int} (h : x.toInt? = some n) :
    ¬ IsOverlong n := by
  unfold toInt? at h
  split at h
  · exact not_isOverlong_of_truncate? h
  · cases h

theorem text_ne_empty {a b : String} (ha : a ≠ "") (hb : b ≠ "") (x : Double) : x.text a b ≠ "" := by
  cases x with
  | nan => exact ha
  | infinite s => simp [text, hb]
  | finite s r => simp [text, r.text_ne_empty]

theorem binaryExponent_one {m : Nat} (h : m ≠ 0) : binaryExponent m 1 = m.log2 := by
  have hlog : (1 : Nat).log2 = 0 := by decide
  have hle : ¬ m < 2 ^ m.log2 := Nat.not_lt.mpr (Nat.log2_self_le h)
  simp [binaryExponent, hlog, divTwoPow, hle]

theorem divHalfEven_le (n d : Nat) : divHalfEven n d ≤ n / d + 1 := by
  unfold divHalfEven
  dsimp only
  split_ifs <;> omega

theorem le_divHalfEven (n d : Nat) : n / d ≤ divHalfEven n d := by
  unfold divHalfEven
  dsimp only
  split_ifs <;> omega

/-- Below an even number the quotient is rounded up to it from the middle on. -/
theorem le_divHalfEven_iff {n d q : Nat} (hd : 0 < d) (hq : q % 2 = 1) (hn : n / (2 * d) ≤ q) :
    q + 1 ≤ divHalfEven n (2 * d) ↔ (2 * d) * q + d ≤ n := by
  have hdiv : (2 * d) * (n / (2 * d)) + n % (2 * d) = n := Nat.div_add_mod n (2 * d)
  have hmod : n % (2 * d) < 2 * d := Nat.mod_lt _ (by omega)
  rcases Nat.lt_or_eq_of_le hn with hlt | heq
  · -- a quotient that is smaller still is not rounded up so far
    have hle := divHalfEven_le n (2 * d)
    have hmul : (2 * d) * (n / (2 * d) + 1) ≤ (2 * d) * q := Nat.mul_le_mul_left _ hlt
    rw [Nat.mul_add] at hmul
    constructor
    · intro h
      omega
    · intro h
      omega
  · rw [heq] at hdiv
    unfold divHalfEven
    dsimp only
    rw [heq]
    split_ifs <;> omega

/-- The rank that an integer of at least 53 binary digits is rounded to. -/
theorem ofRatio_one {negative : Bool} {m k : Nat} (h : m.log2 = k + 52) :
    ofRatio negative m 1 = ofRank negative ((k + 1074) * 2 ^ 52 + divHalfEven m (2 ^ k)) := by
  have hm : m ≠ 0 := by
    rintro rfl
    simp at h
  have hq : max (binaryExponent m 1 - 52) (-1074) = (k : Int) := by
    rw [binaryExponent_one hm, h]
    omega
  have hk : ((k : Int) + 1074).toNat = k + 1074 := by omega
  unfold ofRatio
  rw [if_neg hm]
  dsimp only
  rw [hq, hk]
  simp [divTwoPow]

theorem ofRank_eq_infinite_iff {negative : Bool} {rank : Nat} :
    (∃ s, ofRank negative rank = .infinite s) ↔ 2047 * 2 ^ 52 ≤ rank := by
  unfold ofRank
  split
  · simp only [reduceCtorEq, exists_false, false_iff]
    omega
  · simp only [infinite.injEq, exists_eq', true_iff]
    omega

/-- An integer of fewer than 53 binary digits is no infinity. -/
theorem ofRatio_one_of_lt {negative : Bool} {m : Nat} (h : m.log2 < 52) :
    ¬ ∃ s, ofRatio negative m 1 = .infinite s := by
  by_cases hm : m = 0
  · simp [ofRatio, hm]
  · obtain ⟨j, hj⟩ : ∃ j, 52 - m.log2 = j + 1 := ⟨51 - m.log2, by omega⟩
    have hq : max (binaryExponent m 1 - 52) (-1074) = Int.negSucc j := by
      rw [binaryExponent_one hm]
      omega
    have hlt : m * 2 ^ (j + 1) < 2 ^ 53 := by
      calc m * 2 ^ (j + 1) < 2 ^ (m.log2 + 1) * 2 ^ (j + 1) :=
            Nat.mul_lt_mul_of_pos_right Nat.lt_log2_self (Nat.two_pow_pos _)
        _ = 2 ^ (m.log2 + 1 + (j + 1)) := (Nat.pow_add ..).symm
        _ = 2 ^ 53 := by congr 1; omega
    have hrank := divHalfEven_le (m * 2 ^ (j + 1)) 1
    rw [Nat.div_one] at hrank
    have hk : (Int.negSucc j + 1074).toNat ≤ 1074 := by omega
    unfold ofRatio
    rw [if_neg hm]
    dsimp only
    rw [hq, ofRank_eq_infinite_iff]
    simp only [divTwoPow]
    omega

/-- The leading 53 binary digits of an integer. -/
theorem div_two_pow_bounds {m k : Nat} (hm : m ≠ 0) (h : m.log2 = k + 52) :
    2 ^ 52 ≤ m / 2 ^ k ∧ m / 2 ^ k < 2 ^ 53 := by
  have hlow : 2 ^ m.log2 ≤ m := Nat.log2_self_le hm
  have hhigh : m < 2 ^ (m.log2 + 1) := Nat.lt_log2_self
  rw [h] at hlow hhigh
  constructor
  · rw [Nat.le_div_iff_mul_le (Nat.two_pow_pos k), ← Nat.pow_add, Nat.add_comm]
    exact hlow
  · rw [Nat.div_lt_iff_lt_mul (Nat.two_pow_pos k), ← Nat.pow_add]
    exact hhigh.trans_eq (by congr 1; omega)

/-- At one exponent the leading digits are rounded up past 53 from the middle on. -/
theorem two_pow_le_divHalfEven_iff {m e : Nat} (h : m / 2 ^ (e + 1) < 2 ^ 53) :
    2 ^ 53 ≤ divHalfEven m (2 ^ (e + 1)) ↔ (2 ^ 54 - 1) * 2 ^ e ≤ m := by
  rw [show (2 : Nat) ^ (e + 1) = 2 * 2 ^ e from Nat.pow_succ'] at h ⊢
  have hq : m / (2 * 2 ^ e) ≤ 2 ^ 53 - 1 := Nat.le_of_lt_succ h
  have hiff := le_divHalfEven_iff (Nat.two_pow_pos e) (by decide) hq
  generalize (2 : Nat) ^ e = b at *
  omega

/-- Exactly the integers from the middle of the largest double and the next power of two on are
rounded to an infinity. -/
theorem ofRatio_one_eq_infinite_iff {negative : Bool} {m : Nat} :
    (∃ s, ofRatio negative m 1 = .infinite s) ↔ (2 ^ 54 - 1) * 2 ^ 970 ≤ m := by
  have hpos := Nat.two_pow_pos 970
  have hhigh : m < 2 ^ (m.log2 + 1) := Nat.lt_log2_self
  by_cases hsmall : m.log2 < 52
  · have hle : (2 : Nat) ^ (m.log2 + 1) ≤ 2 ^ 52 := Nat.pow_le_pow_right (by decide) (by omega)
    simp only [ofRatio_one_of_lt hsmall, false_iff]
    generalize (2 : Nat) ^ 970 = b at *
    omega
  · obtain ⟨k, hk⟩ : ∃ k, m.log2 = k + 52 := ⟨m.log2 - 52, by omega⟩
    have hm : m ≠ 0 := by
      rintro rfl
      simp at hk
    obtain ⟨hdlow, hdhigh⟩ := div_two_pow_bounds hm hk
    have hup := divHalfEven_le m (2 ^ k)
    have hdown := le_divHalfEven m (2 ^ k)
    rw [ofRatio_one hk, ofRank_eq_infinite_iff]
    rcases Nat.lt_trichotomy k (970 + 1) with hlt | rfl | hgt
    · have hle : (2 : Nat) ^ (m.log2 + 1) ≤ 2 ^ 53 * 2 ^ 970 := by
        calc 2 ^ (m.log2 + 1) ≤ 2 ^ (53 + 970) := Nat.pow_le_pow_right Nat.two_pos (by omega)
          _ = 2 ^ 53 * 2 ^ 970 := Nat.pow_add 2 53 970
      generalize (2 : Nat) ^ 970 = b at *
      omega
    · -- only here rounding up leads past the largest double
      rw [← two_pow_le_divHalfEven_iff hdhigh]
      omega
    · have hge : 2 ^ 54 * 2 ^ 970 ≤ m := by
        rw [← Nat.pow_add 2 54 970]
        calc 2 ^ (54 + 970) ≤ 2 ^ m.log2 := Nat.pow_le_pow_right Nat.two_pos (by omega)
          _ ≤ m := Nat.log2_self_le hm
      generalize (2 : Nat) ^ 970 = b at *
      omega

theorem faults_ofInt (n : Int) : Faults (Double.ofInt n) ↔ IsPastDoubles n := by
  rw [IsPastDoubles, ← @ofRatio_one_eq_infinite_iff (decide (n < 0))]
  unfold Double.ofInt ofInt?
  cases ofRatio (decide (n < 0)) n.natAbs 1 <;> simp

end Double

end Switchboard
