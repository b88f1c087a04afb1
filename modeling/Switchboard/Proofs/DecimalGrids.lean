import Switchboard.Proofs.NearestMagnitudes

/-!
# Decimal grids

The decimals whose last digit stands in one place are a grid. Of the points of a grid that are
rounded to a magnitude, one of the two neighbours of the magnitude is nearest to it. A decimal of
`k` digits that is rounded to a magnitude lies on the grid of the `k`-th place of the magnitude, or
a point of that grid which is nearer is rounded to it too.
-/
namespace Switchboard

/-! ## Halves and digits -/

/-- A half is only rounded to an even natural. -/
theorem divHalfEven_even {n d : Nat} (hd : 0 < d) (h : |(divHalfEven n d : ℚ) - n / d| = 1 / 2) :
    divHalfEven n d % 2 = 0 := by
  have hpos : (0 : ℚ) < d := by exact_mod_cast hd
  have hmod : ((n % d : Nat) : ℚ) < d := by exact_mod_cast Nat.mod_lt n hd
  have hdiv : (n : ℚ) / d = (n / d : Nat) + (n % d : Nat) / d := by
    rw [div_eq_iff hpos.ne', add_mul, div_mul_cancel₀ _ hpos.ne']
    exact_mod_cast (Nat.div_add_mod' n d).symm
  have hrest : ((n % d : Nat) : ℚ) / d = 1 / 2 := by
    have hlow : 0 ≤ ((n % d : Nat) : ℚ) / d := by positivity
    have hhigh : ((n % d : Nat) : ℚ) / d < 1 := (div_lt_one hpos).mpr hmod
    rw [hdiv] at h
    rcases Nat.lt_or_eq_of_le (Double.le_divHalfEven n d) with hup | hdown
    · rw [show divHalfEven n d = n / d + 1 by have := Double.divHalfEven_le n d; omega,
        Nat.cast_succ, add_sub_add_left_eq_sub, abs_of_nonneg (by linarith)] at h
      linarith
    · rw [← hdown, sub_add_cancel_left, abs_neg, abs_of_nonneg hlow] at h
      exact h
  rw [div_eq_iff hpos.ne'] at hrest
  have hhalf : 2 * (n % d) = d := by
    have : 2 * ((n % d : Nat) : ℚ) = d := by linarith
    exact_mod_cast this
  unfold divHalfEven
  dsimp only
  rw [if_neg (by omega), if_neg (by omega)]
  omega

namespace Double

theorem digitCount_eq {m k : Nat} (hk : 0 < k) (hlow : 10 ^ (k - 1) ≤ m) (hhigh : m < 10 ^ k) :
    digitCount m = k := by
  apply Nat.le_antisymm
  · exact (Nat.length_toDigits_le_iff (by decide) hk).mpr hhigh
  · have hlt := lt_ten_pow_digitCount m
    have := (Nat.pow_lt_pow_iff_right (by decide : 1 < 10)).mp (hlow.trans_lt hlt)
    omega

/-- An odd number is no power of ten, so it has as many digits as the even number before it. -/
theorem digitCount_succ {m : Nat} (hm : 0 < m) (heven : m % 2 = 0) :
    digitCount (m + 1) = digitCount m := by
  have hpos := digitCount_pos m
  apply digitCount_eq hpos
  · have := ten_pow_le_of_lt_digitCount hm (Nat.sub_lt hpos Nat.one_pos)
    omega
  · have hten : 10 ^ digitCount m % 2 = 0 :=
      Nat.mod_eq_zero_of_dvd ((by decide : 2 ∣ 10).trans (dvd_pow_self 10 hpos.ne'))
    have := lt_ten_pow_digitCount m
    omega

end Double

namespace Decimal

variable {d d' : Decimal}

/-- The number of digits in front of the point; it is negative if zeros follow the point. -/
def point (d : Decimal) : Int := Double.digitCount d.digits + d.exponent

theorem value_lt (d : Decimal) : d.value < 10 ^ d.point := by
  have hunit : (0 : ℚ) < 10 ^ d.exponent := zpow_pos (by norm_num) _
  have hdigits : (d.digits : ℚ) < 10 ^ (Double.digitCount d.digits : Int) := by
    rw [zpow_natCast]
    exact_mod_cast Double.lt_ten_pow_digitCount d.digits
  rw [point, zpow_add₀ (by norm_num), value]
  gcongr

theorem le_value (hd : 0 < d.digits) : 10 ^ (d.point - 1) ≤ d.value := by
  have hcount := Double.digitCount_pos d.digits
  have hunit : (0 : ℚ) < 10 ^ d.exponent := zpow_pos (by norm_num) _
  have hdigits : (10 : ℚ) ^ (Double.digitCount d.digits - 1) ≤ d.digits := by
    exact_mod_cast Double.ten_pow_le_of_lt_digitCount hd (Nat.sub_lt hcount Nat.one_pos)
  have hplaces : d.point - 1 = ((Double.digitCount d.digits - 1 : Nat) : Int) + d.exponent := by
    unfold point
    omega
  rw [hplaces, zpow_add₀ (by norm_num), zpow_natCast, value]
  gcongr

/-- A larger decimal has its point no further to the left. -/
theorem point_le (hd : 0 < d.digits) (h : d.value ≤ d'.value) : d.point ≤ d'.point := by
  have hpow : (10 : ℚ) ^ (d.point - 1) < 10 ^ d'.point :=
    (le_value hd).trans_lt (h.trans_lt d'.value_lt)
  have := (zpow_lt_zpow_iff_right₀ (by norm_num : (1 : ℚ) < 10)).mp hpow
  omega

/-- With equally many digits, decimals of one value are equal. -/
theorem eq_of_value_eq (hd : 0 < d.digits) (hd' : 0 < d'.digits)
    (hcount : Double.digitCount d.digits = Double.digitCount d'.digits) (h : d.value = d'.value) :
    d = d' := by
  have hle := point_le hd h.le
  have hge := point_le hd' h.ge
  have hexponent : d.exponent = d'.exponent := by
    unfold point at hle hge
    omega
  have hdigits : d.digits = d'.digits := by
    unfold value at h
    rw [hexponent] at h
    exact_mod_cast mul_right_cancel₀ (zpow_pos (by norm_num : (0 : ℚ) < 10) _).ne' h
  cases d
  cases d'
  simp_all

/-- The decimal with the next greater digits in the same place. -/
def next (d : Decimal) : Decimal := ⟨d.digits + 1, d.exponent⟩

theorem value_next (d : Decimal) : d.next.value = d.value + 10 ^ d.exponent := by
  simp only [value, next]
  push_cast
  ring

/-- The next decimal lies between two decimals with equally many digits, if these are even. -/
theorem value_next_lt (hd : 0 < d.digits) (hd' : 0 < d'.digits) (hlt : d.value < d'.value)
    (hcount : Double.digitCount d'.digits = Double.digitCount d.digits)
    (heven : d.digits % 2 = 0) (heven' : d'.digits % 2 = 0) : d.next.value < d'.value := by
  have hunit : (0 : ℚ) < 10 ^ d.exponent := zpow_pos (by norm_num) _
  have hpoint := point_le hd hlt.le
  unfold point at hpoint
  rcases eq_or_ne d.exponent d'.exponent with hsame | hne
  · have hdigits : d.digits < d'.digits := by
      unfold value at hlt
      rw [← hsame] at hlt
      exact_mod_cast lt_of_mul_lt_mul_right hlt hunit.le
    unfold value
    rw [← hsame]
    simp only [next]
    gcongr
    omega
  · calc d.next.value < 10 ^ d.next.point := d.next.value_lt
      _ ≤ 10 ^ (d'.point - 1) := by
        apply zpow_le_zpow_right₀ (by norm_num)
        simp only [point, next, Double.digitCount_succ hd heven]
        omega
      _ ≤ d'.value := le_value hd'

theorem trimZeros_of_mod_ne {n : Nat} (h : d.digits % 10 ≠ 0) : d.trimZeros n = d := by
  cases n <;> simp [trimZeros, h]

end Decimal

namespace Magnitude

variable {r : Magnitude} {e : Int} {d d' : Decimal}

/-! ## The nearest point -/

/-- Of the points of a grid that are rounded to the magnitude, the one that is nearest to it, and
the even one of two. -/
structure IsNearestOnGrid (r : Magnitude) (e : Int) (m : Nat) : Prop where
  covers : r.Covers (m * 10 ^ e)
  neighbour : (m : ℚ) * 10 ^ e - 10 ^ e ≤ r.value ∧ r.value < m * 10 ^ e + 10 ^ e
  nearest : ∀ m' : Nat, r.Covers (m' * 10 ^ e) →
    |(m : ℚ) * 10 ^ e - r.value| ≤ |(m' : ℚ) * 10 ^ e - r.value|
  even : ∀ m' : Nat, r.Covers (m' * 10 ^ e) →
    |(m' : ℚ) * 10 ^ e - r.value| = |(m : ℚ) * 10 ^ e - r.value| → m' ≠ m → m % 2 = 0

/-- A grid has a point on either side of the magnitude. -/
theorem inUnits_neighbours (r : Magnitude) (e : Int) :
    ((r.inUnits e).1 / (r.inUnits e).2 : Nat) * (10 : ℚ) ^ e ≤ r.value ∧
      r.value < ((r.inUnits e).1 / (r.inUnits e).2 : Nat) * (10 : ℚ) ^ e + 10 ^ e := by
  have hunit : (0 : ℚ) < 10 ^ e := zpow_pos (by norm_num) _
  have hpos : (0 : ℚ) < (r.inUnits e).2 := by exact_mod_cast r.snd_inUnits_pos e
  have hvalue : r.value = (r.inUnits e).1 / (r.inUnits e).2 * (10 : ℚ) ^ e := by
    rw [inUnits_eq, div_mul_cancel₀ _ hunit.ne']
  rw [hvalue]
  constructor
  · gcongr
    rw [le_div_iff₀ hpos]
    exact_mod_cast Nat.div_mul_le_self _ _
  · rw [← add_one_mul]
    gcongr
    rw [div_lt_iff₀ hpos, mul_comm]
    exact_mod_cast Nat.lt_mul_div_succ _ (r.snd_inUnits_pos e)

/-- A point that is nearer than all others leaves no choice. -/
theorem isNearestOnGrid_of_lt {m : Nat} (covers : r.Covers (m * 10 ^ e))
    (neighbour : (m : ℚ) * 10 ^ e - 10 ^ e ≤ r.value ∧ r.value < m * 10 ^ e + 10 ^ e)
    (nearer : ∀ m' : Nat, r.Covers (m' * 10 ^ e) → m' ≠ m →
      |(m : ℚ) * 10 ^ e - r.value| < |(m' : ℚ) * 10 ^ e - r.value|) :
    r.IsNearestOnGrid e m := by
  refine ⟨covers, neighbour, ?_, ?_⟩
  · intro m' hm'
    rcases eq_or_ne m' m with rfl | hne
    · exact le_rfl
    · exact (nearer m' hm' hne).le
  · intro m' hm' htie hne
    exact absurd htie (nearer m' hm' hne).ne'

/-- Where only the neighbour below is rounded to the magnitude, no point above is. -/
theorem isNearestOnGrid_below {f : Nat} (hr : r.val ≠ 0) (hlow : (f : ℚ) * 10 ^ e ≤ r.value)
    (hhigh : r.value < f * (10 : ℚ) ^ e + 10 ^ e) (below : r.Covers (f * 10 ^ e))
    (above : ¬ r.Covers ((f + 1 : Nat) * 10 ^ e)) : r.IsNearestOnGrid e f := by
  have hunit : (0 : ℚ) < 10 ^ e := zpow_pos (by norm_num) _
  apply isNearestOnGrid_of_lt below ⟨by linarith, hhigh⟩
  intro m' hm' hne
  have hle : m' ≤ f := by
    by_contra hlt
    have hnext : ((f + 1 : Nat) : ℚ) * 10 ^ e ≤ m' * 10 ^ e := by
      gcongr
      omega
    apply above
    apply (covers_value hr).between hm' _ hnext
    push_cast
    linarith
  have hlt : (m' : ℚ) * 10 ^ e < f * 10 ^ e := by
    gcongr
    omega
  rw [abs_of_nonpos (by linarith), abs_of_nonpos (by linarith)]
  linarith

theorem isNearestOnGrid_above {f : Nat} (hr : r.val ≠ 0) (hlow : (f : ℚ) * 10 ^ e ≤ r.value)
    (hhigh : r.value < f * (10 : ℚ) ^ e + 10 ^ e) (below : ¬ r.Covers (f * 10 ^ e))
    (above : r.Covers ((f + 1 : Nat) * 10 ^ e)) : r.IsNearestOnGrid e (f + 1) := by
  have hunit : (0 : ℚ) < 10 ^ e := zpow_pos (by norm_num) _
  have hpoint : ((f + 1 : Nat) : ℚ) * 10 ^ e = f * 10 ^ e + 10 ^ e := by
    push_cast
    ring
  apply isNearestOnGrid_of_lt above ⟨by linarith, by linarith⟩
  intro m' hm' hne
  have hle : f < m' := by
    by_contra hge
    have hprevious : (m' : ℚ) * 10 ^ e ≤ f * 10 ^ e := by
      gcongr
      omega
    exact below (hm'.between (covers_value hr) hprevious hlow)
  have hlt : ((f + 1 : Nat) : ℚ) * 10 ^ e < m' * 10 ^ e := by
    gcongr
    omega
  rw [abs_of_nonneg (by linarith), abs_of_nonneg (by linarith)]
  linarith

/-- What the magnitude is rounded to on the grid is nearest of all its points. -/
theorem isNearestOnGrid_rounded {n m : Nat} (hm : 0 < m)
    (hvalue : (n : ℚ) / m = r.value / 10 ^ e) (h : r.Covers (divHalfEven n m * 10 ^ e)) :
    r.IsNearestOnGrid e (divHalfEven n m) := by
  have hunit : (0 : ℚ) < 10 ^ e := zpow_pos (by norm_num) _
  have hscale : ∀ c : Nat, |(c : ℚ) * 10 ^ e - r.value| = |(c : ℚ) - n / m| * 10 ^ e := by
    intro c
    rw [hvalue, ← abs_of_pos hunit, ← abs_mul, abs_of_pos hunit, sub_mul,
      div_mul_cancel₀ _ hunit.ne']
  have hround := @abs_divHalfEven_sub_le n m hm
  have hapart : ∀ m' : Nat, m' ≠ divHalfEven n m → 1 / 2 ≤ |(m' : ℚ) - n / m| := by
    intro m' hne
    have hone : (1 : ℚ) ≤ |(m' : ℚ) - divHalfEven n m| := by
      have : 1 ≤ |(m' : Int) - divHalfEven n m| := Int.one_le_abs (by omega)
      exact_mod_cast this
    have htriangle := abs_sub_le (m' : ℚ) (n / m) (divHalfEven n m)
    rw [abs_sub_comm (n / m : ℚ)] at htriangle
    linarith
  refine ⟨h, ?_, ?_, ?_⟩
  · have hdist : |(divHalfEven n m : ℚ) * 10 ^ e - r.value| ≤ 1 / 2 * 10 ^ e := by
      rw [hscale]
      exact mul_le_mul_of_nonneg_right hround hunit.le
    obtain ⟨hlow, hhigh⟩ := abs_le.mp hdist
    constructor <;> linarith
  · intro m' hm'
    rcases eq_or_ne m' (divHalfEven n m) with rfl | hne
    · exact le_rfl
    · rw [hscale, hscale]
      exact mul_le_mul_of_nonneg_right (hround.trans (hapart m' hne)) hunit.le
  · intro m' hm' htie hne
    apply divHalfEven_even hm
    rw [hscale, hscale] at htie
    have hsame := mul_right_cancel₀ hunit.ne' htie
    have := hapart m' hne
    linarith

/-- The point that is found on a grid is the nearest. -/
theorem isNearestOnGrid_of_onGrid? (hr : r.val ≠ 0) (h : r.onGrid? e = some d) :
    d.exponent = e ∧ r.IsNearestOnGrid e d.digits := by
  obtain ⟨hlow, hhigh⟩ := r.inUnits_neighbours e
  have hvalue := r.inUnits_eq e
  have hpos := r.snd_inUnits_pos e
  have hread := (isReadFrom_iff hr).mp (isReadFrom_of_onGrid? h)
  have hnot : ∀ m, r.isReadFrom ⟨m, e⟩ = false → ¬ r.Covers (m * 10 ^ e) := by
    intro m hm hcovers
    have hread' := (isReadFrom_iff (d := ⟨m, e⟩) hr).mpr hcovers
    rw [hm] at hread'
    cases hread'
  unfold onGrid? at h
  rcases hu : r.inUnits e with ⟨n, m⟩
  simp only [hu] at h hlow hhigh hvalue hpos
  cases hbelow : r.isReadFrom ⟨n / m, e⟩ <;> cases habove : r.isReadFrom ⟨n / m + 1, e⟩ <;>
    simp only [hbelow, habove, reduceCtorEq, Option.some.injEq] at h <;> subst h <;>
    refine ⟨rfl, ?_⟩
  · exact isNearestOnGrid_above hr hlow hhigh (hnot _ hbelow) hread
  · exact isNearestOnGrid_below hr hlow hhigh hread (hnot _ habove)
  · exact isNearestOnGrid_rounded hpos hvalue hread

/-- A grid on which a point is rounded to the magnitude is not passed over. -/
theorem onGrid?_ne_none {m : Nat} (hr : r.val ≠ 0) (h : r.Covers (m * 10 ^ e)) :
    r.onGrid? e ≠ none := by
  obtain ⟨hlow, hhigh⟩ := r.inUnits_neighbours e
  have hunit : (0 : ℚ) < 10 ^ e := zpow_pos (by norm_num) _
  have hvalue := covers_value hr
  unfold onGrid?
  rcases hu : r.inUnits e with ⟨n, q⟩
  simp only [hu] at hlow hhigh
  dsimp only
  -- the point lies on one side of the magnitude, and so does a neighbour between the two
  rcases Nat.lt_or_ge (n / q) m with hlt | hge
  · have habove : r.isReadFrom ⟨n / q + 1, e⟩ = true := by
      rw [isReadFrom_iff hr]
      apply hvalue.between h
      · simp only [Decimal.value]
        push_cast
        linarith
      · simp only [Decimal.value]
        gcongr
        omega
    cases r.isReadFrom ⟨n / q, e⟩ <;> simp [habove]
  · have hbelow : r.isReadFrom ⟨n / q, e⟩ = true := by
      rw [isReadFrom_iff hr]
      apply h.between hvalue
      · simp only [Decimal.value]
        gcongr
      · exact hlow
    cases r.isReadFrom ⟨n / q + 1, e⟩ <;> simp [hbelow]

/-- A decimal that is rounded to the magnitude lies on the grid of as many digits, or a point of
that grid which is nearer is rounded to it too. -/
theorem Covers.exists_onGrid {k : Nat} (hr : r.val ≠ 0) (hk : Double.digitCount d.digits = k)
    (h : r.Covers d.value) :
    ∃ m : Nat, r.Covers (m * 10 ^ (r.decimalExponent - k)) ∧
      ((m : ℚ) * 10 ^ (r.decimalExponent - k) = d.value ∨
        |(m : ℚ) * 10 ^ (r.decimalExponent - k) - r.value| < |d.value - r.value|) := by
  have hten : (10 : ℚ) ≠ 0 := by norm_num
  have hcount : 0 < k := hk ▸ Double.digitCount_pos d.digits
  obtain ⟨hlow, -⟩ := decimalExponent_spec hr
  rcases le_or_gt (r.decimalExponent - k) d.exponent with hle | hlt
  · -- the last place is a multiple of the unit
    have hpoint : ((d.digits * 10 ^ (d.exponent - (r.decimalExponent - k)).toNat : Nat) : ℚ) *
        10 ^ (r.decimalExponent - k) = d.value := by
      rw [Nat.cast_mul, Nat.cast_pow, ← zpow_natCast, Int.toNat_of_nonneg (by omega), mul_assoc,
        Nat.cast_ofNat, ← zpow_add₀ hten, sub_add_cancel]
      rfl
    exact ⟨_, by rwa [hpoint], Or.inl hpoint⟩
  · -- the decimal is less than the least number of as many places
    have hpoint : ((10 ^ (k - 1) : Nat) : ℚ) * 10 ^ (r.decimalExponent - k) =
        10 ^ (r.decimalExponent - 1) := by
      rw [Nat.cast_pow, ← zpow_natCast, Nat.cast_ofNat, ← zpow_add₀ hten]
      congr 1
      omega
    have hless : d.value < 10 ^ (r.decimalExponent - 1) := by
      apply d.value_lt.trans_le
      apply zpow_le_zpow_right₀ (by norm_num)
      unfold Decimal.point
      omega
    refine ⟨10 ^ (k - 1), ?_, Or.inr ?_⟩
    · rw [hpoint]
      exact h.between (covers_value hr) hless.le hlow
    · rw [hpoint, abs_of_nonpos (by linarith), abs_of_nonpos (by linarith)]
      linarith

end Magnitude

end Switchboard
