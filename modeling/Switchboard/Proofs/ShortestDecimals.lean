import Switchboard.Proofs.Rounding

/-!
# The shortest decimal

On a grid of seventeen digits the unit is less than the step of a magnitude, so one of the two
neighbours on it reads back. The shortest decimal is found on the first grid on which one does.
-/
namespace Switchboard

namespace Magnitude

/-- The decimal exponent says how many digits stand before the point. -/
theorem decimalExponent_spec {r : Magnitude} (h : r.val ≠ 0) :
    (10 : ℚ) ^ (r.decimalExponent - 1) ≤ r.value ∧ r.value < 10 ^ r.decimalExponent := by
  have hten : (10 : ℚ) ≠ 0 := by norm_num
  have hd := r.snd_ratio_pos
  have hn := fst_ratio_pos h
  rw [← r.ratio_eq]
  unfold decimalExponent
  generalize r.ratio = ratio at *
  obtain ⟨n, d⟩ := ratio
  dsimp only at *
  have hdq : (0 : ℚ) < d := by exact_mod_cast hd
  have hnq : (0 : ℚ) < n := by exact_mod_cast hn
  by_cases hle : d ≤ n
  · rw [if_pos hle]
    have hpos : 0 < n / d := Nat.div_pos hle hd
    have hlow := Double.ten_pow_le_of_lt_digitCount hpos
      (Nat.sub_lt (Double.digitCount_pos (n / d)) Nat.one_pos)
    have hhigh := Double.lt_ten_pow_digitCount (n / d)
    have hcount := Double.digitCount_pos (n / d)
    generalize Double.digitCount (n / d) = c at *
    rw [Nat.le_div_iff_mul_le hd] at hlow
    rw [Nat.div_lt_iff_lt_mul hd] at hhigh
    constructor
    · rw [le_div_iff₀ hdq, show (c : Int) - 1 = ((c - 1 : Nat) : Int) by omega, zpow_natCast]
      exact_mod_cast hlow
    · rw [div_lt_iff₀ hdq, zpow_natCast]
      exact_mod_cast hhigh
  · rw [if_neg hle]
    have hpos : 0 < (d - 1) / n := Nat.div_pos (by omega) hn
    have hlow := Double.ten_pow_le_of_lt_digitCount hpos
      (Nat.sub_lt (Double.digitCount_pos ((d - 1) / n)) Nat.one_pos)
    have hhigh := Double.lt_ten_pow_digitCount ((d - 1) / n)
    have hcount := Double.digitCount_pos ((d - 1) / n)
    generalize Double.digitCount ((d - 1) / n) = c at *
    rw [Nat.le_div_iff_mul_le hn] at hlow
    rw [Nat.div_lt_iff_lt_mul hn] at hhigh
    have hlow' : 10 ^ (c - 1) * n < d := by omega
    have hhigh' : d ≤ 10 ^ c * n := by omega
    constructor
    · rw [le_div_iff₀ hdq, show (1 : Int) - c - 1 = -(c : Int) by ring, zpow_neg, zpow_natCast,
        inv_mul_le_iff₀ (by positivity)]
      exact_mod_cast hhigh'
    · rw [div_lt_iff₀ hdq, show (1 : Int) - c = -((c - 1 : Nat) : Int) by omega, zpow_neg,
        zpow_natCast, lt_inv_mul_iff₀ (by positivity)]
      exact_mod_cast hlow'

theorem inUnits_eq (r : Magnitude) (e : Int) :
    ((r.inUnits e).1 : ℚ) / (r.inUnits e).2 = r.value / 10 ^ e := by
  rw [← r.ratio_eq]
  cases e with
  | ofNat k => simp [inUnits, div_div]
  | negSucc k =>
    simp only [inUnits, zpow_negSucc, Nat.cast_mul, Nat.cast_pow, Nat.cast_ofNat]
    rw [div_inv_eq_mul, div_mul_eq_mul_div]

theorem snd_inUnits_pos (r : Magnitude) (e : Int) : 0 < (r.inUnits e).2 := by
  cases e with
  | ofNat k => exact Nat.mul_pos r.snd_ratio_pos (Nat.pow_pos (by decide))
  | negSucc k => exact r.snd_ratio_pos

/-- A decimal found on a grid reads back. -/
theorem isReadFrom_of_onGrid? {r : Magnitude} {e : Int} {d : Decimal} (h : r.onGrid? e = some d) :
    r.isReadFrom d = true := by
  unfold onGrid? at h
  rcases hu : r.inUnits e with ⟨n, m⟩
  simp only [hu] at h
  have hlow := Double.le_divHalfEven n m
  have hhigh := Double.divHalfEven_le n m
  cases hbelow : r.isReadFrom ⟨n / m, e⟩ <;> cases habove : r.isReadFrom ⟨n / m + 1, e⟩ <;>
    simp only [hbelow, habove, reduceCtorEq, Option.some.injEq] at h
  · exact h ▸ habove
  · exact h ▸ hbelow
  · subst h
    rcases Nat.lt_or_eq_of_le hhigh with hlt | heq
    · rwa [show divHalfEven n m = n / m by omega]
    · rwa [heq]

/-- The unit of the last of seventeen digits is less than a step, and less than half of one where
the steps below are half as long. -/
theorem unit_lt_step {r : Magnitude} (h : r.val ≠ 0) :
    (10 : ℚ) ^ (r.decimalExponent - 17) < 2 ^ r.exponent ∧
      (r.significand = 2 ^ 52 → (10 : ℚ) ^ (r.decimalExponent - 17) < 2 ^ r.exponent / 2) := by
  have hstep : (0 : ℚ) < 2 ^ r.exponent := zpow_pos (by norm_num) _
  have hunits : (10 : ℚ) ^ (r.decimalExponent - 17) * 10 ^ 16 ≤ r.significand * 2 ^ r.exponent := by
    have hsplit : (10 : ℚ) ^ (r.decimalExponent - 17) * 10 ^ 16 = 10 ^ (r.decimalExponent - 1) := by
      rw [← zpow_natCast (10 : ℚ) 16, ← zpow_add₀ (by norm_num)]
      congr 1
      push_cast
      ring
    rw [hsplit]
    exact (decimalExponent_spec h).1
  have hsig := r.significand_le
  constructor
  · nlinarith
  · intro hleast
    have hleast' : (r.significand : ℚ) = 2 ^ 52 := by exact_mod_cast hleast
    rw [hleast'] at hunits
    nlinarith

/-- On a grid whose unit is less than a step, the nearest decimal reads back. -/
theorem isReadFrom_divHalfEven {r : Magnitude} (h : r.val ≠ 0) {e : Int} {n m : Nat} (hm : 0 < m)
    (hvalue : (n : ℚ) / m = r.value / 10 ^ e) (hnear : (10 : ℚ) ^ e < 2 ^ r.exponent)
    (hedge : r.significand = 2 ^ 52 → (10 : ℚ) ^ e < 2 ^ r.exponent / 2) :
    r.isReadFrom ⟨divHalfEven n m, e⟩ = true := by
  have hunit : (0 : ℚ) < 10 ^ e := zpow_pos (by norm_num) _
  have hround := @abs_divHalfEven_sub_le n m hm
  have hdist : |(divHalfEven n m : ℚ) * 10 ^ e - r.value| ≤ 10 ^ e / 2 := by
    have hscale : (divHalfEven n m : ℚ) * 10 ^ e - r.value =
        (divHalfEven n m - n / m) * 10 ^ e := by
      rw [hvalue, sub_mul, div_mul_cancel₀ _ hunit.ne']
    rw [hscale, abs_mul, abs_of_pos hunit]
    nlinarith
  obtain ⟨hlow, hhigh⟩ := abs_le.mp hdist
  have hsig : (1 : ℚ) ≤ r.significand := by exact_mod_cast significand_pos h
  have hcount : 0 < divHalfEven n m := by
    by_contra hzero
    rw [Nat.eq_zero_of_not_pos hzero, Nat.cast_zero, zero_mul] at hlow
    unfold value at hlow
    nlinarith
  have hfinite : Double.ofDecimal false (divHalfEven n m) e = .finite false r := by
    apply Double.ofDecimal_eq_finite hcount h
    · linarith
    · intro hleast
      have hhalf := hedge hleast
      linarith
  simp [isReadFrom, hfinite]

/-- Seventeen digits are enough: one of the two neighbours on that grid reads back. -/
theorem onGrid?_seventeen {r : Magnitude} (h : r.val ≠ 0) :
    r.onGrid? (r.decimalExponent - 17) ≠ none := by
  obtain ⟨hnear, hedge⟩ := unit_lt_step h
  have hvalue := r.inUnits_eq (r.decimalExponent - 17)
  have hsnd := r.snd_inUnits_pos (r.decimalExponent - 17)
  generalize r.decimalExponent - 17 = e at *
  unfold onGrid?
  rcases hu : r.inUnits e with ⟨n, m⟩
  rw [hu] at hvalue hsnd
  dsimp only at *
  have hread := isReadFrom_divHalfEven h hsnd hvalue hnear hedge
  have hneighbours : divHalfEven n m = n / m ∨ divHalfEven n m = n / m + 1 := by
    have hbelow := Double.le_divHalfEven n m
    have habove := Double.divHalfEven_le n m
    omega
  rcases hneighbours with hc | hc <;> rw [hc] at hread
  · cases r.isReadFrom ⟨n / m + 1, e⟩ <;> simp [hread]
  · cases r.isReadFrom ⟨n / m, e⟩ <;> simp [hread]

theorem isReadFrom_trimZeros (r : Magnitude) (n : Nat) (d : Decimal) :
    r.isReadFrom (d.trimZeros n) = r.isReadFrom d := by
  induction n generalizing d with
  | zero => rfl
  | succ n ih =>
    unfold Decimal.trimZeros
    split
    · rename_i hzero
      rw [ih]
      have hdigits : d.digits / 10 * 10 = d.digits := by omega
      have hten := Double.ofDecimal_mul_ten false (d.digits / 10) (d.exponent + 1)
      rw [hdigits, Int.add_sub_cancel] at hten
      unfold isReadFrom
      rw [hten]
    · rfl

/-- The shortest decimal of a magnitude reads back. -/
theorem isReadFrom_shortest {r : Magnitude} (h : r.val ≠ 0) : r.isReadFrom r.shortest = true := by
  unfold shortest
  dsimp only
  split
  · rename_i d hd
    obtain ⟨n, -, hn⟩ := List.exists_of_findSome?_eq_some hd
    rw [isReadFrom_trimZeros]
    exact isReadFrom_of_onGrid? hn
  · rename_i hnone
    rw [List.findSome?_eq_none_iff] at hnone
    exact absurd (hnone 16 (by decide)) (onGrid?_seventeen h)

end Magnitude

end Switchboard
