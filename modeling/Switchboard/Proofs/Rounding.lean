import Mathlib.Algebra.Order.Field.Power
import Mathlib.Algebra.Order.Ring.Rat
import Mathlib.Tactic.GCongr
import Mathlib.Tactic.Linarith
import Mathlib.Tactic.NormNum
import Mathlib.Tactic.Positivity
import Mathlib.Tactic.Ring
import Switchboard.Number.Shortest
import Switchboard.Proofs.Numerals

/-!
# Rounding to the nearest double

What a ratio of naturals is rounded to depends on its quotient alone. A quotient that is nearer to
a magnitude than half a step is rounded to it. A decimal is a quotient of this kind, so a zero may
be added to its digits.
-/
namespace Switchboard

/-! ## Quotients -/

theorem snd_divTwoPow_pos {d : Nat} (n : Nat) (hd : 0 < d) (k : Int) : 0 < (divTwoPow n d k).2 := by
  cases k with
  | ofNat k => exact Nat.mul_pos hd (Nat.two_pow_pos k)
  | negSucc k => exact hd

theorem divTwoPow_eq (n d : Nat) (k : Int) :
    ((divTwoPow n d k).1 : ℚ) / (divTwoPow n d k).2 = n / d / 2 ^ k := by
  cases k with
  | ofNat k => simp [divTwoPow, div_div]
  | negSucc k =>
    simp only [divTwoPow, zpow_negSucc, Nat.cast_mul, Nat.cast_pow, Nat.cast_ofNat]
    rw [div_inv_eq_mul, div_mul_eq_mul_div]

/-- The rounded quotient is one of the two neighbours, and the nearer one. -/
theorem divHalfEven_bounds {n d : Nat} (hd : 0 < d) :
    2 * (divHalfEven n d * d) ≤ 2 * n + d ∧ 2 * n ≤ 2 * (divHalfEven n d * d) + d := by
  have hdiv : n / d * d + n % d = n := by rw [Nat.mul_comm, Nat.div_add_mod]
  have hmod : n % d < d := Nat.mod_lt n hd
  have hnext : (n / d + 1) * d = n / d * d + d := Nat.succ_mul ..
  unfold divHalfEven
  dsimp only
  by_cases hlow : 2 * (n % d) < d
  · rw [if_pos hlow]
    omega
  · by_cases hhigh : d < 2 * (n % d)
    · rw [if_neg hlow, if_pos hhigh]
      omega
    · rw [if_neg hlow, if_neg hhigh]
      rcases Nat.mod_two_eq_zero_or_one (n / d) with he | he <;> rw [he]
      · rw [Nat.add_zero]
        omega
      · omega

theorem abs_divHalfEven_sub_le {n d : Nat} (hd : 0 < d) :
    |(divHalfEven n d : ℚ) - n / d| ≤ 1 / 2 := by
  have hpos : (0 : ℚ) < d := by exact_mod_cast hd
  obtain ⟨hlow, hhigh⟩ := @divHalfEven_bounds n d hd
  have hlow' : (2 * (divHalfEven n d * d) : ℚ) ≤ 2 * n + d := by exact_mod_cast hlow
  have hhigh' : (2 * n : ℚ) ≤ 2 * (divHalfEven n d * d) + d := by exact_mod_cast hhigh
  rw [abs_le]
  constructor
  · have : (n : ℚ) / d ≤ divHalfEven n d + 1 / 2 := by
      rw [div_le_iff₀ hpos]
      linarith
    linarith
  · have : (divHalfEven n d : ℚ) - 1 / 2 ≤ n / d := by
      rw [le_div_iff₀ hpos]
      linarith
    linarith

/-- A natural that is nearer than a half is what the quotient is rounded to. -/
theorem divHalfEven_eq {n d m : Nat} (hd : 0 < d) (h : |(n : ℚ) / d - m| < 1 / 2) :
    divHalfEven n d = m := by
  have hround := @abs_divHalfEven_sub_le n d hd
  have hdist : |(divHalfEven n d : ℚ) - m| < 1 := by
    calc |(divHalfEven n d : ℚ) - m|
        ≤ |(divHalfEven n d : ℚ) - n / d| + |(n : ℚ) / d - m| := abs_sub_le ..
      _ < 1 := by linarith
  have hint : |(divHalfEven n d : Int) - m| < 1 := by exact_mod_cast hdist
  rw [Int.abs_lt_one_iff] at hint
  omega

theorem divHalfEven_mul_right {c : Nat} (n d : Nat) (hc : 0 < c) :
    divHalfEven (n * c) (d * c) = divHalfEven n d := by
  have hlow : 2 * (n % d * c) < d * c ↔ 2 * (n % d) < d := by
    rw [← Nat.mul_assoc, Nat.mul_lt_mul_right hc]
  have hhigh : d * c < 2 * (n % d * c) ↔ d < 2 * (n % d) := by
    rw [← Nat.mul_assoc, Nat.mul_lt_mul_right hc]
  simp only [divHalfEven, Nat.mul_div_mul_right n d hc, Nat.mul_mod_mul_right, hlow, hhigh]

/-- Equal quotients are rounded alike. -/
theorem divHalfEven_congr {n d n' d' : Nat} (hd : 0 < d) (hd' : 0 < d') (h : n * d' = n' * d) :
    divHalfEven n d = divHalfEven n' d' := by
  rw [← divHalfEven_mul_right n d hd', h, Nat.mul_comm d d', divHalfEven_mul_right n' d' hd]

/-! ## The exponent of two -/

/-- A natural lies between two powers of two. -/
theorem two_zpow_log2 {n : Nat} (hn : 0 < n) :
    (2 : ℚ) ^ (n.log2 : Int) ≤ n ∧ (n : ℚ) < 2 ^ ((n.log2 : Int) + 1) := by
  have hsucc : (n.log2 : Int) + 1 = ((n.log2 + 1 : Nat) : Int) := by
    push_cast
    ring
  rw [hsucc, zpow_natCast, zpow_natCast]
  constructor
  · exact_mod_cast Nat.log2_self_le hn.ne'
  · exact_mod_cast @Nat.lt_log2_self n

theorem binaryExponent_spec {n d : Nat} (hn : 0 < n) (hd : 0 < d) :
    (2 : ℚ) ^ Double.binaryExponent n d ≤ n / d ∧
      (n : ℚ) / d < 2 ^ (Double.binaryExponent n d + 1) := by
  have hpos : (0 : ℚ) < d := by exact_mod_cast hd
  have htwo : (2 : ℚ) ≠ 0 := by norm_num
  obtain ⟨hnlow, hnhigh⟩ := two_zpow_log2 hn
  obtain ⟨hdlow, hdhigh⟩ := two_zpow_log2 hd
  -- the exponents of the two naturals leave two candidates, between which the quotient decides
  have hlow : (2 : ℚ) ^ ((n.log2 : Int) - d.log2 - 1) ≤ n / d := by
    rw [le_div_iff₀ hpos]
    calc (2 : ℚ) ^ ((n.log2 : Int) - d.log2 - 1) * d
        ≤ 2 ^ ((n.log2 : Int) - d.log2 - 1) * 2 ^ ((d.log2 : Int) + 1) := by gcongr
      _ = 2 ^ (n.log2 : Int) := by
        rw [← zpow_add₀ htwo]
        congr 1
        ring
      _ ≤ n := hnlow
  have hhigh : (n : ℚ) / d < 2 ^ ((n.log2 : Int) - d.log2 + 1) := by
    rw [div_lt_iff₀ hpos]
    calc (n : ℚ) < 2 ^ ((n.log2 : Int) + 1) := hnhigh
      _ = 2 ^ ((n.log2 : Int) - d.log2 + 1) * 2 ^ (d.log2 : Int) := by
        rw [← zpow_add₀ htwo]
        congr 1
        ring
      _ ≤ 2 ^ ((n.log2 : Int) - d.log2 + 1) * d := by gcongr
  have hscaled := divTwoPow_eq n d ((n.log2 : Int) - d.log2)
  have hscaledpos := snd_divTwoPow_pos n hd ((n.log2 : Int) - d.log2)
  unfold Double.binaryExponent
  dsimp only
  generalize divTwoPow n d ((n.log2 : Int) - d.log2) = scaled at *
  have hsnd : (0 : ℚ) < scaled.2 := by exact_mod_cast hscaledpos
  by_cases hlt : scaled.1 < scaled.2
  · rw [if_pos hlt]
    refine ⟨hlow, ?_⟩
    have hone : (scaled.1 : ℚ) / scaled.2 < 1 := by
      rw [div_lt_one hsnd]
      exact_mod_cast hlt
    rw [hscaled, div_lt_one (zpow_pos (by norm_num) _)] at hone
    simpa using hone
  · rw [if_neg hlt]
    refine ⟨?_, hhigh⟩
    have hone : 1 ≤ (scaled.1 : ℚ) / scaled.2 := by
      rw [one_le_div hsnd]
      exact_mod_cast Nat.le_of_not_lt hlt
    rwa [hscaled, one_le_div (zpow_pos (by norm_num) _)] at hone

/-- The exponent of two is the only one that the quotient lies at. -/
theorem binaryExponent_eq {n d : Nat} (hn : 0 < n) (hd : 0 < d) {e : Int}
    (hlow : (2 : ℚ) ^ e ≤ n / d) (hhigh : (n : ℚ) / d < 2 ^ (e + 1)) :
    Double.binaryExponent n d = e := by
  obtain ⟨hlow', hhigh'⟩ := binaryExponent_spec hn hd
  have h1 : Double.binaryExponent n d < e + 1 :=
    (zpow_lt_zpow_iff_right₀ (by norm_num : (1 : ℚ) < 2)).mp (hlow'.trans_lt hhigh)
  have h2 : e < Double.binaryExponent n d + 1 :=
    (zpow_lt_zpow_iff_right₀ (by norm_num : (1 : ℚ) < 2)).mp (hlow.trans_lt hhigh')
  omega

namespace Double

/-- Equal quotients are rounded to the same double. -/
theorem ofRatio_congr {negative : Bool} {n d n' d' : Nat} (hd : 0 < d) (hd' : 0 < d')
    (h : n * d' = n' * d) : ofRatio negative n d = ofRatio negative n' d' := by
  have hpos : (0 : ℚ) < d := by exact_mod_cast hd
  have hpos' : (0 : ℚ) < d' := by exact_mod_cast hd'
  have hquotient : (n : ℚ) / d = n' / d' := by
    rw [div_eq_div_iff hpos.ne' hpos'.ne']
    exact_mod_cast h
  by_cases hn : n = 0
  · have hn' : n' = 0 := by
      rw [hn, Nat.zero_mul] at h
      exact (Nat.mul_eq_zero.mp h.symm).resolve_right hd.ne'
    simp [ofRatio, hn, hn']
  · have hn' : n' ≠ 0 := by
      rintro rfl
      rw [Nat.zero_mul] at h
      exact hn ((Nat.mul_eq_zero.mp h).resolve_right hd'.ne')
    obtain ⟨hlow, hhigh⟩ := binaryExponent_spec (Nat.pos_of_ne_zero hn') hd'
    have he : binaryExponent n d = binaryExponent n' d' := by
      apply binaryExponent_eq (Nat.pos_of_ne_zero hn) hd
      · rwa [hquotient]
      · rwa [hquotient]
    unfold ofRatio
    rw [if_neg hn, if_neg hn', he]
    dsimp only
    generalize max (binaryExponent n' d' - 52) (-1074) = q
    have hround : divHalfEven (divTwoPow n d q).1 (divTwoPow n d q).2 =
        divHalfEven (divTwoPow n' d' q).1 (divTwoPow n' d' q).2 := by
      have hsnd := snd_divTwoPow_pos n hd q
      have hsnd' := snd_divTwoPow_pos n' hd' q
      apply divHalfEven_congr hsnd hsnd'
      have hscaled : ((divTwoPow n d q).1 : ℚ) / (divTwoPow n d q).2 =
          (divTwoPow n' d' q).1 / (divTwoPow n' d' q).2 := by
        rw [divTwoPow_eq, divTwoPow_eq, hquotient]
      rw [div_eq_div_iff (by exact_mod_cast hsnd.ne') (by exact_mod_cast hsnd'.ne')] at hscaled
      exact_mod_cast hscaled
    rw [hround]

end Double

namespace Magnitude

/-- The exact value. -/
def value (r : Magnitude) : ℚ := r.significand * 2 ^ r.exponent

/-- Between the steps of a magnitude and its significand there is room for no other: the exponent
is the least one, or the significand has 53 binary digits. -/
theorem exponent_cases (r : Magnitude) :
    r.exponent = -1074 ∨ -1074 < r.exponent ∧ 2 ^ 52 ≤ r.significand := by
  unfold exponent significand
  by_cases h : r.val < 2 ^ 53
  · exact Or.inl (if_pos h)
  · have hquotient : 2 ≤ r.val / 2 ^ 52 := by omega
    rw [if_neg h, if_neg h]
    exact Or.inr ⟨by omega, Nat.le_add_right _ _⟩

/-- The rank counts the steps of the magnitudes below. -/
theorem val_eq (r : Magnitude) :
    r.val = (r.exponent + 1074).toNat * 2 ^ 52 + r.significand := by
  unfold exponent significand
  by_cases h : r.val < 2 ^ 53
  · rw [if_pos h, if_pos h]
    simp
  · have hdiv := Nat.div_add_mod r.val (2 ^ 52)
    have hquotient : 2 ≤ r.val / 2 ^ 52 := by omega
    have hnat : ((r.val / 2 ^ 52 : Nat) - 1075 + 1074 : Int).toNat = r.val / 2 ^ 52 - 1 := by omega
    rw [if_neg h, if_neg h, hnat]
    omega

theorem snd_ratio_pos (r : Magnitude) : 0 < r.ratio.2 := snd_divTwoPow_pos _ Nat.one_pos _

theorem ratio_eq (r : Magnitude) : (r.ratio.1 : ℚ) / r.ratio.2 = r.value := by
  unfold ratio value
  rw [divTwoPow_eq, zpow_neg, div_inv_eq_mul, Nat.cast_one, div_one]

theorem le_exponent (r : Magnitude) : -1074 ≤ r.exponent := by
  rcases r.exponent_cases with h | h
  · exact h.ge
  · exact h.1.le

theorem significand_le (r : Magnitude) : (r.significand : ℚ) ≤ 2 ^ 53 - 1 := by
  have h : r.significand + 1 ≤ 2 ^ 53 := r.significand_lt
  have h' : (r.significand : ℚ) + 1 ≤ 2 ^ 53 := by exact_mod_cast h
  linarith

theorem significand_pos {r : Magnitude} (h : r.val ≠ 0) : 0 < r.significand := by
  unfold significand
  split
  · omega
  · exact Nat.lt_of_lt_of_le (by decide) (Nat.le_add_right _ _)

theorem value_pos {r : Magnitude} (h : r.val ≠ 0) : 0 < r.value := by
  have hsq : (0 : ℚ) < r.significand := by exact_mod_cast significand_pos h
  exact mul_pos hsq (zpow_pos (by norm_num) _)

theorem value_eq_zero_iff {r : Magnitude} : r.value = 0 ↔ r.val = 0 := by
  constructor
  · intro hvalue
    by_contra hr
    exact (value_pos hr).ne' hvalue
  · intro hr
    have hsignificand : r.significand = 0 := by simp [significand, hr]
    rw [value, hsignificand, Nat.cast_zero, zero_mul]

theorem value_nonneg (r : Magnitude) : 0 ≤ r.value := by
  by_cases hr : r.val = 0
  · rw [value_eq_zero_iff.mpr hr]
  · exact (value_pos hr).le

theorem fst_ratio_pos {r : Magnitude} (h : r.val ≠ 0) : 0 < r.ratio.1 := by
  have hvalue := value_pos h
  rw [← r.ratio_eq] at hvalue
  by_contra hzero
  rw [Nat.eq_zero_of_not_pos hzero] at hvalue
  simp at hvalue

theorem isIntegral_iff {r : Magnitude} : r.isIntegral = true ↔ ∃ n : Nat, r.value = n := by
  have hd : (0 : ℚ) < r.ratio.2 := by exact_mod_cast r.snd_ratio_pos
  rw [isIntegral, decide_eq_true_iff, ← Nat.dvd_iff_mod_eq_zero, ← r.ratio_eq]
  constructor
  · rintro ⟨n, hn⟩
    refine ⟨n, ?_⟩
    rw [hn, Nat.cast_mul, mul_div_cancel_left₀ _ hd.ne']
  · rintro ⟨n, hn⟩
    refine ⟨n, ?_⟩
    rw [div_eq_iff hd.ne', mul_comm] at hn
    exact_mod_cast hn

theorem floor_eq_value {r : Magnitude} (h : r.isIntegral = true) : (r.floor : ℚ) = r.value := by
  have hd : (r.ratio.2 : ℚ) ≠ 0 := by exact_mod_cast r.snd_ratio_pos.ne'
  rw [isIntegral, decide_eq_true_iff, ← Nat.dvd_iff_mod_eq_zero] at h
  rw [floor, ← r.ratio_eq, eq_div_iff hd]
  exact_mod_cast Nat.div_mul_cancel h

end Magnitude

namespace Double

/-- The number that a finite double stands for. -/
def value : Double → ℚ
  | .finite negative r => if negative then -r.value else r.value
  | _ => 0

variable {n d : Nat}

theorem lt_binaryExponent_of_le (hn : 0 < n) (hd : 0 < d) {e : Int} (h : (n : ℚ) / d < 2 ^ e) :
    binaryExponent n d < e :=
  (zpow_lt_zpow_iff_right₀ (by norm_num : (1 : ℚ) < 2)).mp ((binaryExponent_spec hn hd).1.trans_lt h)

/-- In units of the last place that is kept, the quotient is rounded to the nearest natural. -/
theorem ofRatio_eq_ofRank {negative : Bool} (hn : 0 < n) (hd : 0 < d) {q : Int} {m : Nat}
    (hq : max (binaryExponent n d - 52) (-1074) = q) (near : |(n : ℚ) / d / 2 ^ q - m| < 1 / 2) :
    ofRatio negative n d = ofRank negative ((q + 1074).toNat * 2 ^ 52 + m) := by
  have hround : divHalfEven (divTwoPow n d q).1 (divTwoPow n d q).2 = m := by
    apply divHalfEven_eq (snd_divTwoPow_pos n hd q)
    rwa [divTwoPow_eq]
  unfold ofRatio
  rw [if_neg hn.ne']
  dsimp only
  rw [hq, hround]

theorem ofRank_val (negative : Bool) (r : Magnitude) :
    ofRank negative r.val = .finite negative r := by
  unfold ofRank
  rw [dif_pos r.isLt]

/-- A distance in units of a step. -/
theorem abs_div_sub_lt {x step c : ℚ} (hstep : 0 < step) (m : Nat) (h : |x - m * step| < c * step) :
    |x / step - m| < c := by
  have hscale : x / step - m = (x - m * step) / step := by
    rw [sub_div, mul_div_assoc, div_self hstep.ne', mul_one]
  rw [hscale, abs_div, abs_of_pos hstep, div_lt_iff₀ hstep]
  exact h

/-- Below the least significand of 53 digits the exponent of two is smaller by one, and the steps
are half as long. -/
theorem ofRatio_eq_finite_below {negative : Bool} (hn : 0 < n) (hd : 0 < d) (r : Magnitude)
    (hleast : r.significand = 2 ^ 52) (hexponent : -1074 < r.exponent)
    (below : (n : ℚ) / d < 2 ^ 52 * 2 ^ r.exponent)
    (edge : 2 ^ 52 * 2 ^ r.exponent - (2 : ℚ) ^ r.exponent / 4 < (n : ℚ) / d) :
    ofRatio negative n d = .finite negative r := by
  have htwo : (2 : ℚ) ≠ 0 := by norm_num
  have hstep : (0 : ℚ) < 2 ^ (r.exponent - 1) := zpow_pos (by norm_num) _
  have hhalf : (2 : ℚ) ^ r.exponent = 2 * 2 ^ (r.exponent - 1) := by
    rw [zpow_sub_one₀ htwo]
    ring
  rw [hhalf] at below edge
  have he : binaryExponent n d = r.exponent + 51 := by
    apply binaryExponent_eq hn hd
    · rw [show r.exponent + 51 = r.exponent - 1 + 52 by ring, zpow_add₀ htwo,
        show (2 : ℚ) ^ (52 : Int) = 2 ^ 52 by norm_cast]
      linarith
    · rw [show r.exponent + 51 + 1 = r.exponent - 1 + 53 by ring, zpow_add₀ htwo,
        show (2 : ℚ) ^ (53 : Int) = 2 ^ 53 by norm_cast]
      linarith
  have hq : max (binaryExponent n d - 52) (-1074) = r.exponent - 1 := by omega
  have hunits : |(n : ℚ) / d / 2 ^ (r.exponent - 1) - (2 ^ 53 : Nat)| < 1 / 2 := by
    apply abs_div_sub_lt hstep
    push_cast
    rw [abs_lt]
    constructor <;> linarith
  have hrank : (r.exponent - 1 + 1074).toNat * 2 ^ 52 + 2 ^ 53 = r.val := by
    rw [r.val_eq, hleast]
    omega
  rw [ofRatio_eq_ofRank hn hd hq hunits, hrank, ofRank_val]

/-- A quotient is rounded to a magnitude that it is nearer to than half a step. -/
theorem ofRatio_eq_finite {negative : Bool} (hn : 0 < n) (hd : 0 < d) (r : Magnitude)
    (near : |(n : ℚ) / d - r.value| < 2 ^ r.exponent / 2)
    (edge : r.significand = 2 ^ 52 → r.value - 2 ^ r.exponent / 4 < (n : ℚ) / d) :
    ofRatio negative n d = .finite negative r := by
  have htwo : (2 : ℚ) ≠ 0 := by norm_num
  have hstep : (0 : ℚ) < 2 ^ r.exponent := zpow_pos (by norm_num) _
  have hs := r.significand_le
  unfold Magnitude.value at near edge
  have hunits : |(n : ℚ) / d / 2 ^ r.exponent - r.significand| < 1 / 2 := by
    apply abs_div_sub_lt hstep
    linarith
  rw [abs_lt] at near
  have hhigh : (n : ℚ) / d < 2 ^ (r.exponent + 53) := by
    rw [zpow_add₀ htwo]
    calc (n : ℚ) / d < r.significand * 2 ^ r.exponent + 2 ^ r.exponent / 2 := by linarith
      _ ≤ 2 ^ r.exponent * 2 ^ (53 : Int) := by
        have h53 : (2 : ℚ) ^ (53 : Int) = 2 ^ 53 := by norm_cast
        rw [h53]
        nlinarith
  have hkept : max (binaryExponent n d - 52) (-1074) = r.exponent →
      ofRatio negative n d = .finite negative r := by
    intro hq
    rw [ofRatio_eq_ofRank hn hd hq hunits, ← r.val_eq, ofRank_val]
  have hbelow := lt_binaryExponent_of_le hn hd hhigh
  rcases r.exponent_cases with hleast | ⟨hleast, hdigits⟩
  · apply hkept
    omega
  · by_cases hx : (2 : ℚ) ^ (r.exponent + 52) ≤ n / d
    · apply hkept
      have he : binaryExponent n d = r.exponent + 52 := by
        apply binaryExponent_eq hn hd hx
        rwa [show r.exponent + 52 + 1 = r.exponent + 53 by ring]
      omega
    · rw [not_le, zpow_add₀ htwo, show (2 : ℚ) ^ (52 : Int) = 2 ^ 52 by norm_cast] at hx
      have hleast' : r.significand = 2 ^ 52 := by
        have h : (r.significand : ℚ) * 2 ^ r.exponent < (2 ^ 52 + 1) * 2 ^ r.exponent := by linarith
        have h' : (r.significand : ℚ) < 2 ^ 52 + 1 := lt_of_mul_lt_mul_right h hstep.le
        have h'' : r.significand < 2 ^ 52 + 1 := by exact_mod_cast h'
        omega
      have hs' : (r.significand : ℚ) = 2 ^ 52 := by exact_mod_cast hleast'
      have hedge := edge hleast'
      rw [hs'] at hedge
      exact ofRatio_eq_finite_below hn hd r hleast' (by omega) (by linarith) hedge

/-! ## Signs -/

theorem ofRank_sign {rank : Nat} {r : Magnitude} (h : ofRank false rank = .finite false r)
    (negative : Bool) : ofRank negative rank = .finite negative r := by
  unfold ofRank at h ⊢
  split at h
  · rename_i hrank
    simp only [finite.injEq, true_and] at h
    rw [dif_pos hrank, h]
  · cases h

theorem ofRatio_sign {r : Magnitude} (h : ofRatio false n d = .finite false r) (negative : Bool) :
    ofRatio negative n d = .finite negative r := by
  unfold ofRatio at h ⊢
  split at h
  · rename_i hn
    simp only [finite.injEq, true_and] at h
    rw [if_pos hn, h]
  · rename_i hn
    rw [if_neg hn]
    exact ofRank_sign h negative

/-- A decimal that is read as a magnitude is read so with any sign. -/
theorem ofDecimal_sign {digits : Nat} {e : Int} {r : Magnitude}
    (h : ofDecimal false digits e = .finite false r) (negative : Bool) :
    ofDecimal negative digits e = .finite negative r := by
  unfold ofDecimal at h ⊢
  by_cases hdigits : digits = 0
  · rw [if_pos hdigits] at h ⊢
    simp only [finite.injEq, true_and] at h
    rw [h]
  · rw [if_neg hdigits] at h ⊢
    dsimp only at h ⊢
    by_cases hlarge : 310 < e + digitCount digits
    · rw [if_pos hlarge] at h
      cases h
    · rw [if_neg hlarge] at h ⊢
      by_cases hsmall : e + digitCount digits < -330
      · rw [if_pos hsmall] at h ⊢
        simp only [finite.injEq, true_and] at h
        rw [h]
      · rw [if_neg hsmall] at h ⊢
        cases e with
        | ofNat k => exact ofRatio_sign h negative
        | negSucc k => exact ofRatio_sign h negative

/-! ## Decimals -/

theorem digitCount_pos (m : Nat) : 0 < digitCount m := Nat.length_toDigits_pos

theorem lt_ten_pow_digitCount (m : Nat) : m < 10 ^ digitCount m :=
  (Nat.length_toDigits_le_iff (by decide) (digitCount_pos m)).mp le_rfl

theorem ten_pow_le_of_lt_digitCount {m c : Nat} (hm : 0 < m) (hc : c < digitCount m) :
    10 ^ c ≤ m := by
  rcases Nat.eq_zero_or_pos c with rfl | hpos
  · exact hm
  · by_contra hlt
    have hle : digitCount m ≤ c :=
      (Nat.length_toDigits_le_iff (by decide) hpos).mpr (Nat.not_le.mp hlt)
    omega

theorem digitCount_mul_ten {m : Nat} (hm : 0 < m) : digitCount (m * 10) = digitCount m + 1 := by
  have hpos := digitCount_pos m
  have hhigh : digitCount (m * 10) ≤ digitCount m + 1 := by
    apply (Nat.length_toDigits_le_iff (by decide) (Nat.succ_pos _)).mpr
    rw [Nat.pow_succ]
    exact Nat.mul_lt_mul_of_pos_right (lt_ten_pow_digitCount m) (by decide)
  have hlow : ¬ digitCount (m * 10) ≤ digitCount m := by
    intro hle
    have hlt : m * 10 < 10 ^ digitCount m :=
      (Nat.length_toDigits_le_iff (by decide) hpos).mp hle
    have hten := ten_pow_le_of_lt_digitCount hm (Nat.sub_lt hpos Nat.one_pos)
    have hpow : 10 ^ digitCount m = 10 ^ (digitCount m - 1) * 10 := by
      rw [← Nat.pow_succ]
      congr 1
      omega
    omega
  omega

/-- A decimal as a ratio of naturals. -/
def decimalRatio (digits : Nat) : Int → Nat × Nat
  | .ofNat k => (digits * 10 ^ k, 1)
  | .negSucc k => (digits, 10 ^ (k + 1))

theorem decimalRatio_pos {digits : Nat} (h : 0 < digits) (e : Int) :
    0 < (decimalRatio digits e).1 ∧ 0 < (decimalRatio digits e).2 := by
  cases e with
  | ofNat k => exact ⟨Nat.mul_pos h (Nat.pow_pos (by decide)), Nat.one_pos⟩
  | negSucc k => exact ⟨h, Nat.pow_pos (by decide)⟩

theorem decimalRatio_eq (digits : Nat) (e : Int) :
    ((decimalRatio digits e).1 : ℚ) / (decimalRatio digits e).2 = digits * 10 ^ e := by
  cases e with
  | ofNat k => simp [decimalRatio]
  | negSucc k => simp [decimalRatio, zpow_negSucc, div_eq_mul_inv]

/-- A decimal that is neither too large nor too small by its digits is rounded as a ratio. -/
theorem ofDecimal_eq_ofRatio {negative : Bool} {digits : Nat} {e : Int} (h : 0 < digits)
    (large : e + digitCount digits ≤ 310) (small : -330 ≤ e + digitCount digits) :
    ofDecimal negative digits e =
      ofRatio negative (decimalRatio digits e).1 (decimalRatio digits e).2 := by
  unfold ofDecimal
  dsimp only
  rw [if_neg h.ne', if_neg (by omega), if_neg (by omega)]
  cases e <;> rfl

/-- A zero may be added to the digits. -/
theorem ofDecimal_mul_ten (negative : Bool) (digits : Nat) (e : Int) :
    ofDecimal negative (digits * 10) (e - 1) = ofDecimal negative digits e := by
  rcases Nat.eq_zero_or_pos digits with rfl | hpos
  · simp [ofDecimal]
  · have hplaces : e - 1 + digitCount (digits * 10) = e + digitCount digits := by
      rw [digitCount_mul_ten hpos]
      push_cast
      ring
    have hpos' : 0 < digits * 10 := Nat.mul_pos hpos (by decide)
    by_cases hrange : e + digitCount digits ≤ 310 ∧ -330 ≤ e + digitCount digits
    · obtain ⟨hlarge, hsmall⟩ := hrange
      rw [ofDecimal_eq_ofRatio hpos hlarge hsmall,
        ofDecimal_eq_ofRatio hpos' (hplaces ▸ hlarge) (hplaces ▸ hsmall)]
      obtain ⟨-, hd⟩ := decimalRatio_pos hpos e
      obtain ⟨-, hd'⟩ := decimalRatio_pos hpos' (e - 1)
      apply ofRatio_congr hd' hd
      have hquotient : ((decimalRatio (digits * 10) (e - 1)).1 : ℚ) /
          (decimalRatio (digits * 10) (e - 1)).2 =
          (decimalRatio digits e).1 / (decimalRatio digits e).2 := by
        rw [decimalRatio_eq, decimalRatio_eq, zpow_sub_one₀ (by norm_num)]
        push_cast
        ring
      rw [div_eq_div_iff (by exact_mod_cast hd'.ne') (by exact_mod_cast hd.ne')] at hquotient
      exact_mod_cast hquotient
    · unfold ofDecimal
      dsimp only
      rw [if_neg hpos.ne', if_neg hpos'.ne', hplaces]
      by_cases hlarge : 310 < e + digitCount digits
      · rw [if_pos hlarge, if_pos hlarge]
      · rw [if_neg hlarge, if_neg hlarge, if_pos (by omega), if_pos (by omega)]

theorem ofDecimal_mul_pow_ten (negative : Bool) (digits : Nat) (e : Int) (k : Nat) :
    ofDecimal negative (digits * 10 ^ k) (e - k) = ofDecimal negative digits e := by
  induction k with
  | zero => simp
  | succ k ih =>
    rw [← ih, ← ofDecimal_mul_ten negative (digits * 10 ^ k) (e - k), Nat.pow_succ, Nat.mul_assoc]
    congr 1
    push_cast
    ring

theorem zpow_lt_zpow_of_pow {a b c : Nat} (h : 2 ^ a * 2 ^ b < 10 ^ c) :
    (2 : ℚ) ^ a * 2 ^ (b : Int) < 10 ^ (c : Int) := by
  rw [zpow_natCast, zpow_natCast]
  exact_mod_cast h

/-- No magnitude has more than 309 digits before its point. -/
theorem two_zpow_lt_ten_zpow : (2 : ℚ) ^ 53 * 2 ^ (971 : Int) < 10 ^ (309 : Int) :=
  zpow_lt_zpow_of_pow (by decide +kernel)

/-- No magnitude but zero has 330 zeros behind its point. -/
theorem ten_zpow_lt_two_zpow : (10 : ℚ) ^ (-330 : Int) < 2 ^ (-1074 : Int) / 2 := by
  have h : (2 : ℚ) ^ 1 * 2 ^ (1074 : Int) < 10 ^ (330 : Int) :=
    zpow_lt_zpow_of_pow (by decide +kernel)
  rw [zpow_neg, zpow_neg, div_eq_mul_inv, ← mul_inv]
  apply inv_strictAnti₀
  · positivity
  · rwa [pow_one, mul_comm] at h

/-- A decimal that is near to a magnitude is neither settled as too large nor as too small. -/
theorem places_le {digits : Nat} {e : Int} (h : 0 < digits) {r : Magnitude}
    (hhigh : (digits : ℚ) * 10 ^ e ≤ r.value + 2 ^ r.exponent / 2) :
    e + digitCount digits ≤ 310 := by
  have hten : (10 : ℚ) ≠ 0 := by norm_num
  have hstep : (0 : ℚ) < 2 ^ r.exponent := zpow_pos (by norm_num) _
  have hcount := digitCount_pos digits
  have hdigits := ten_pow_le_of_lt_digitCount h (Nat.sub_lt hcount Nat.one_pos)
  have hsig : (r.significand : ℚ) ≤ 2 ^ 53 - 1 := r.significand_le
  have hplaces : (10 : ℚ) ^ (e + digitCount digits - 1) < 10 ^ (309 : Int) := by
    calc (10 : ℚ) ^ (e + digitCount digits - 1)
        = ((10 ^ (digitCount digits - 1) : Nat) : ℚ) * 10 ^ e := by
          rw [Nat.cast_pow, ← zpow_natCast, Nat.cast_ofNat, ← zpow_add₀ hten]
          congr 1
          omega
      _ ≤ digits * 10 ^ e := by gcongr
      _ < 2 ^ 53 * 2 ^ r.exponent := by
          unfold Magnitude.value at hhigh
          nlinarith
      _ ≤ 2 ^ 53 * 2 ^ (971 : Int) := by
          gcongr
          · norm_num
          · exact r.exponent_le
      _ < 10 ^ (309 : Int) := two_zpow_lt_ten_zpow
  have hexponents := (zpow_lt_zpow_iff_right₀ (by norm_num : (1 : ℚ) < 10)).mp hplaces
  omega

theorem le_places {digits : Nat} {e : Int} {r : Magnitude} (hr : r.val ≠ 0)
    (hlow : r.value - 2 ^ r.exponent / 2 ≤ (digits : ℚ) * 10 ^ e) :
    -330 ≤ e + digitCount digits := by
  have hten : (10 : ℚ) ≠ 0 := by norm_num
  have hstep : (0 : ℚ) < 2 ^ r.exponent := zpow_pos (by norm_num) _
  have hdigits := lt_ten_pow_digitCount digits
  have hsig : (1 : ℚ) ≤ r.significand := by exact_mod_cast Magnitude.significand_pos hr
  have hmin : -1074 ≤ r.exponent := r.le_exponent
  have hplaces : (10 : ℚ) ^ (-330 : Int) < 10 ^ (e + digitCount digits) := by
    calc (10 : ℚ) ^ (-330 : Int) < 2 ^ (-1074 : Int) / 2 := ten_zpow_lt_two_zpow
      _ ≤ 2 ^ r.exponent / 2 := by
          gcongr
          norm_num
      _ ≤ digits * 10 ^ e := by
          unfold Magnitude.value at hlow
          nlinarith
      _ ≤ ((10 ^ digitCount digits : Nat) : ℚ) * 10 ^ e := by gcongr
      _ = 10 ^ (e + digitCount digits) := by
          rw [Nat.cast_pow, ← zpow_natCast, Nat.cast_ofNat, ← zpow_add₀ hten, add_comm]
  have hexponents := (zpow_lt_zpow_iff_right₀ (by norm_num : (1 : ℚ) < 10)).mp hplaces
  omega

/-- A decimal is rounded to a magnitude that it is near to. -/
theorem ofDecimal_eq_finite {negative : Bool} {digits : Nat} {e : Int} (h : 0 < digits)
    {r : Magnitude} (hr : r.val ≠ 0) (near : |(digits : ℚ) * 10 ^ e - r.value| < 2 ^ r.exponent / 2)
    (edge : r.significand = 2 ^ 52 → r.value - 2 ^ r.exponent / 4 < (digits : ℚ) * 10 ^ e) :
    ofDecimal negative digits e = .finite negative r := by
  obtain ⟨hlow, hhigh⟩ := abs_lt.mp near
  have hlarge : e + digitCount digits ≤ 310 := by
    apply places_le h (r := r)
    linarith
  have hsmall : -330 ≤ e + digitCount digits := by
    apply le_places hr
    linarith
  obtain ⟨hn, hd⟩ := decimalRatio_pos h e
  rw [ofDecimal_eq_ofRatio h hlarge hsmall]
  apply ofRatio_eq_finite hn hd
  · rwa [decimalRatio_eq]
  · rwa [decimalRatio_eq]

end Double

end Switchboard
