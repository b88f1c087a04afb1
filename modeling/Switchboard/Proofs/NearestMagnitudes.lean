import Switchboard.Proofs.ShortestDecimals

/-!
# What is rounded to a magnitude

A larger quotient is not rounded to a smaller magnitude, so the quotients that are rounded to one
magnitude lie together, and the magnitude itself is among them. None of them is farther from it than
half a step. A decimal reads back as the magnitude exactly if its value is one of them.
-/
namespace Switchboard

theorem divHalfEven_mono {n d n' d' : Nat} (hd : 0 < d) (hd' : 0 < d')
    (h : (n : ℚ) / d ≤ n' / d') : divHalfEven n d ≤ divHalfEven n' d' := by
  have hround := abs_le.mp (@abs_divHalfEven_sub_le n d hd)
  have hround' := abs_le.mp (@abs_divHalfEven_sub_le n' d' hd')
  by_contra hlt
  have hstep : (divHalfEven n' d' : ℚ) + 1 ≤ divHalfEven n d := by exact_mod_cast not_le.mp hlt
  -- two roundings can be that far apart only in the middle, where the quotients are equal
  have hequal : (n : ℚ) / d = n' / d' := by linarith [hround.2, hround'.1]
  have hcross : n * d' = n' * d := by
    rw [div_eq_div_iff (by exact_mod_cast hd.ne') (by exact_mod_cast hd'.ne')] at hequal
    exact_mod_cast hequal
  exact hlt (divHalfEven_congr hd hd' hcross).le

theorem divHalfEven_one (m : Nat) : divHalfEven m 1 = m := by
  simp [divHalfEven, Nat.mod_one]

namespace Double

variable {n d n' d' : Nat}

/-- The exponent of the last place that is kept of a quotient. -/
def lastPlace (n d : Nat) : Int := max (binaryExponent n d - 52) (-1074)

/-- The digits of the quotient that are kept. -/
def keptDigits (n d : Nat) : Nat :=
  divHalfEven (divTwoPow n d (lastPlace n d)).1 (divTwoPow n d (lastPlace n d)).2

/-- The rank that a quotient is rounded to. -/
def rankOf (n d : Nat) : Nat := (lastPlace n d + 1074).toNat * 2 ^ 52 + keptDigits n d

theorem ofRatio_eq (negative : Bool) (hn : 0 < n) :
    ofRatio negative n d = ofRank negative (rankOf n d) := by
  unfold ofRatio
  rw [if_neg hn.ne']
  rfl

theorem ofRank_eq_finite_iff {rank : Nat} {r : Magnitude} :
    ofRank false rank = .finite false r ↔ rank = r.val := by
  unfold ofRank
  split
  · rw [finite.injEq, Fin.ext_iff]
    simp
  · have hr := r.isLt
    simp only [reduceCtorEq, false_iff]
    omega

theorem ofRatio_eq_finite_iff {r : Magnitude} (hn : 0 < n) :
    ofRatio false n d = .finite false r ↔ rankOf n d = r.val := by
  rw [ofRatio_eq false hn, ofRank_eq_finite_iff]

/-- What is kept of a quotient has at most 53 digits, up to the next power of two, and fewer only in
the last place of all. -/
theorem keptDigits_bounds (hn : 0 < n) (hd : 0 < d) :
    keptDigits n d ≤ 2 ^ 53 ∧ (lastPlace n d = -1074 ∨ 2 ^ 52 ≤ keptDigits n d) := by
  have htwo : (2 : ℚ) ≠ 0 := by norm_num
  have hpos := snd_divTwoPow_pos n hd (lastPlace n d)
  have hunit : (0 : ℚ) < 2 ^ lastPlace n d := zpow_pos (by norm_num) _
  have hscaled := divTwoPow_eq n d (lastPlace n d)
  obtain ⟨hlow, hhigh⟩ := binaryExponent_spec hn hd
  constructor
  · rw [← divHalfEven_one (2 ^ 53)]
    apply divHalfEven_mono hpos Nat.one_pos
    have hexponent : binaryExponent n d + 1 ≤ lastPlace n d + 53 := by
      unfold lastPlace
      omega
    rw [hscaled, div_le_iff₀ hunit]
    push_cast
    calc (n : ℚ) / d ≤ 2 ^ (binaryExponent n d + 1) := hhigh.le
      _ ≤ 2 ^ (lastPlace n d + 53) := zpow_le_zpow_right₀ (by norm_num) hexponent
      _ = 2 ^ 53 / 1 * 2 ^ lastPlace n d := by
        rw [zpow_add₀ htwo, mul_comm]
        norm_cast
        simp
  · by_cases hleast : lastPlace n d = -1074
    · exact Or.inl hleast
    · right
      rw [← divHalfEven_one (2 ^ 52)]
      apply divHalfEven_mono Nat.one_pos hpos
      have hexponent : binaryExponent n d = lastPlace n d + 52 := by
        unfold lastPlace at hleast ⊢
        omega
      rw [hscaled, le_div_iff₀ hunit]
      push_cast
      calc (2 : ℚ) ^ 52 / 1 * 2 ^ lastPlace n d = 2 ^ (lastPlace n d + 52) := by
            rw [zpow_add₀ htwo, mul_comm]
            norm_cast
            simp
        _ ≤ n / d := by rwa [← hexponent]

/-- The digits that are kept are within half a unit of the last place. -/
theorem abs_sub_keptDigits_le (n : Nat) (hd : 0 < d) :
    |(n : ℚ) / d - keptDigits n d * 2 ^ lastPlace n d| ≤ 2 ^ lastPlace n d / 2 := by
  have hunit : (0 : ℚ) < 2 ^ lastPlace n d := zpow_pos (by norm_num) _
  have hdist : |(keptDigits n d : ℚ) - n / d / 2 ^ lastPlace n d| ≤ 1 / 2 := by
    rw [← divTwoPow_eq]
    exact abs_divHalfEven_sub_le (snd_divTwoPow_pos n hd _)
  calc |(n : ℚ) / d - keptDigits n d * 2 ^ lastPlace n d|
      = |(keptDigits n d : ℚ) - n / d / 2 ^ lastPlace n d| * 2 ^ lastPlace n d := by
        rw [abs_sub_comm, ← abs_of_pos hunit, ← abs_mul, abs_of_pos hunit, sub_mul,
          div_mul_cancel₀ _ hunit.ne']
    _ ≤ 1 / 2 * 2 ^ lastPlace n d := by gcongr
    _ = 2 ^ lastPlace n d / 2 := by ring

/-- A larger quotient is not rounded to a smaller magnitude. -/
theorem rankOf_mono (hn : 0 < n) (hd : 0 < d) (hn' : 0 < n') (hd' : 0 < d')
    (h : (n : ℚ) / d ≤ n' / d') : rankOf n d ≤ rankOf n' d' := by
  have hunit : (0 : ℚ) < 2 ^ lastPlace n d := zpow_pos (by norm_num) _
  have hexponents : binaryExponent n d ≤ binaryExponent n' d' := by
    obtain ⟨hlow, -⟩ := binaryExponent_spec hn hd
    have hlt := lt_binaryExponent_of_le hn hd (h.trans_lt (binaryExponent_spec hn' hd').2)
    omega
  have hplaces : lastPlace n d ≤ lastPlace n' d' := by
    unfold lastPlace
    omega
  have hleast : -1074 ≤ lastPlace n d := le_max_right _ _
  obtain ⟨hkept, -⟩ := keptDigits_bounds hn hd
  obtain ⟨-, hkept'⟩ := keptDigits_bounds hn' hd'
  unfold rankOf
  rcases hplaces.eq_or_lt with hsame | hlt
  · have hdigits : keptDigits n d ≤ keptDigits n' d' := by
      apply divHalfEven_mono (snd_divTwoPow_pos n hd _) (snd_divTwoPow_pos n' hd' _)
      rw [divTwoPow_eq, divTwoPow_eq, ← hsame]
      gcongr
    rw [hsame]
    omega
  · have hdigits : 2 ^ 52 ≤ keptDigits n' d' := hkept'.resolve_left (by omega)
    omega

end Double

/-- The number that a decimal stands for. -/
def Decimal.value (d : Decimal) : ℚ := d.digits * 10 ^ d.exponent

namespace Magnitude

variable {r : Magnitude} {n d : Nat} {x y z : ℚ}

/-- The number, as a ratio of positive naturals, is rounded to the magnitude. -/
def Covers (r : Magnitude) (x : ℚ) : Prop :=
  ∃ n d : Nat, 0 < n ∧ 0 < d ∧ (n : ℚ) / d = x ∧ Double.rankOf n d = r.val

theorem Covers.pos (h : r.Covers x) : 0 < x := by
  obtain ⟨n, d, hn, hd, rfl, -⟩ := h
  positivity

/-- It does not matter as which ratio the number is given. -/
theorem covers_div_iff (hn : 0 < n) (hd : 0 < d) :
    r.Covers (n / d) ↔ Double.rankOf n d = r.val := by
  constructor
  · rintro ⟨n', d', hn', hd', hsame, hrank⟩
    have hle := Double.rankOf_mono hn hd hn' hd' hsame.ge
    have hge := Double.rankOf_mono hn' hd' hn hd hsame.le
    omega
  · intro hrank
    exact ⟨n, d, hn, hd, rfl, hrank⟩

/-- The numbers that are rounded to one magnitude lie together. -/
theorem Covers.between (hx : r.Covers x) (hz : r.Covers z) (hxy : x ≤ y) (hyz : y ≤ z) :
    r.Covers y := by
  have hy : 0 < y := hx.pos.trans_le hxy
  obtain ⟨n, d, hn, hd, rfl, hrank⟩ := hx
  obtain ⟨n', d', hn', hd', rfl, hrank'⟩ := hz
  have hnum : 0 < y.num.toNat := by
    have := Rat.num_pos.mpr hy
    omega
  have hratio : ((y.num.toNat : Nat) : ℚ) / y.den = y := by
    have hcast : ((y.num.toNat : Int) : ℚ) = y.num := by
      rw [Int.toNat_of_nonneg (Rat.num_nonneg.mpr hy.le)]
    rw [← Int.cast_natCast, hcast, Rat.num_div_den]
  have hlow := Double.rankOf_mono hn hd hnum y.den_pos (hxy.trans_eq hratio.symm)
  have hhigh := Double.rankOf_mono hnum y.den_pos hn' hd' (hratio.trans_le hyz)
  exact ⟨_, _, hnum, y.den_pos, hratio, by omega⟩

/-- A number is rounded to one magnitude. -/
theorem Covers.val_eq {r' : Magnitude} (h : r.Covers x) (h' : r'.Covers x) : r.val = r'.val := by
  obtain ⟨n, d, hn, hd, rfl, hrank⟩ := h
  rw [← hrank, (covers_div_iff hn hd).mp h']

/-- A magnitude is rounded to itself. -/
theorem covers_value (h : r.val ≠ 0) : r.Covers r.value := by
  have hd := r.snd_ratio_pos
  have hn := fst_ratio_pos h
  have hstep : (0 : ℚ) < 2 ^ r.exponent := zpow_pos (by norm_num) _
  rw [← r.ratio_eq, covers_div_iff hn hd, ← Double.ofRatio_eq_finite_iff hn]
  apply Double.ofRatio_eq_finite hn hd
  · rw [r.ratio_eq, sub_self, abs_zero]
    positivity
  · intro _
    rw [r.ratio_eq]
    linarith

/-- Different magnitudes have different values. -/
theorem value_inj {r' : Magnitude} : r.value = r'.value ↔ r = r' := by
  refine ⟨fun h => ?_, congrArg value⟩
  by_cases hr : r.val = 0
  · have hr' : r'.val = 0 := by rw [← value_eq_zero_iff, ← h, value_eq_zero_iff, hr]
    exact Fin.ext (hr.trans hr'.symm)
  · have hr' : r'.val ≠ 0 := by rwa [Ne, ← value_eq_zero_iff, ← h, value_eq_zero_iff]
    have hcovers := covers_value hr
    rw [h] at hcovers
    exact Fin.ext (hcovers.val_eq (covers_value hr'))

/-- A rank gives the value by its last place and the digits that are kept, whose places are no finer
than those of the significand. -/
theorem value_eq_of_val_eq {q : Int} {m : Nat} (h : r.val = (q + 1074).toNat * 2 ^ 52 + m)
    (hq : -1074 ≤ q) (hm : m ≤ 2 ^ 53) (hdigits : q = -1074 ∨ 2 ^ 52 ≤ m) :
    r.value = m * 2 ^ q ∧ q ≤ r.exponent := by
  have hval := r.val_eq
  have hsig := r.significand_lt
  have hcases := r.exponent_cases
  unfold value
  -- only digits that reach the next power of two are not the significand
  have hsame : q = r.exponent ∧ m = r.significand ∨
      r.exponent = q + 1 ∧ m = 2 ^ 53 ∧ r.significand = 2 ^ 52 := by
    omega
  rcases hsame with ⟨rfl, rfl⟩ | ⟨hexp, rfl, hleast⟩
  · exact ⟨rfl, le_rfl⟩
  · rw [hexp, hleast, zpow_add_one₀ (by norm_num)]
    constructor
    · push_cast
      ring
    · omega

/-- No number is rounded over more than half a step. -/
theorem Covers.abs_sub_le (h : r.Covers x) : |x - r.value| ≤ 2 ^ r.exponent / 2 := by
  obtain ⟨n, d, hn, hd, rfl, hrank⟩ := h
  obtain ⟨hkept, hdigits⟩ := Double.keptDigits_bounds hn hd
  obtain ⟨hvalue, hplace⟩ := value_eq_of_val_eq hrank.symm (le_max_right _ _) hkept hdigits
  calc |(n : ℚ) / d - r.value| ≤ 2 ^ Double.lastPlace n d / 2 := by
        rw [hvalue]
        exact Double.abs_sub_keptDigits_le n hd
    _ ≤ 2 ^ r.exponent / 2 := by
        gcongr
        norm_num

/-- By its digits, a decimal that is rounded to a magnitude is neither too large nor too small. -/
theorem Covers.places {d : Decimal} (hr : r.val ≠ 0) (hd : 0 < d.digits) (h : r.Covers d.value) :
    d.exponent + Double.digitCount d.digits ≤ 310 ∧
      -330 ≤ d.exponent + Double.digitCount d.digits := by
  obtain ⟨hlow, hhigh⟩ := abs_le.mp h.abs_sub_le
  unfold Decimal.value at hlow hhigh
  constructor
  · apply Double.places_le hd (r := r)
    linarith
  · apply Double.le_places hr
    linarith

theorem places_of_isReadFrom {d : Decimal} (hr : r.val ≠ 0) (hd : 0 < d.digits)
    (h : r.isReadFrom d = true) :
    d.exponent + Double.digitCount d.digits ≤ 310 ∧
      -330 ≤ d.exponent + Double.digitCount d.digits := by
  simp only [isReadFrom, decide_eq_true_eq, Double.ofDecimal, if_neg hd.ne'] at h
  by_cases hlarge : 310 < d.exponent + Double.digitCount d.digits
  · rw [if_pos hlarge] at h
    cases h
  · by_cases hsmall : d.exponent + Double.digitCount d.digits < -330
    · rw [if_neg hlarge, if_pos hsmall, Double.finite.injEq] at h
      exact absurd (congrArg Fin.val h.2).symm hr
    · omega

/-- A decimal reads back as a magnitude other than zero if it is rounded to it. -/
theorem isReadFrom_iff (hr : r.val ≠ 0) {d : Decimal} :
    r.isReadFrom d = true ↔ r.Covers d.value := by
  rcases Nat.eq_zero_or_pos d.digits with hzero | hd
  · have hread : r.isReadFrom d = false := by
      have hne : (0 : Magnitude) ≠ r := fun h => hr (congrArg Fin.val h).symm
      simpa [isReadFrom, Double.ofDecimal, hzero] using hne
    have hcovers : ¬ r.Covers d.value := by
      intro h
      have hpos := h.pos
      simp [Decimal.value, hzero] at hpos
    simp [hread, hcovers]
  · have hrange : d.exponent + Double.digitCount d.digits ≤ 310 →
        -330 ≤ d.exponent + Double.digitCount d.digits →
        (r.isReadFrom d = true ↔ r.Covers d.value) := by
      intro hlarge hsmall
      obtain ⟨hn, hm⟩ := Double.decimalRatio_pos hd d.exponent
      rw [isReadFrom, decide_eq_true_iff, Double.ofDecimal_eq_ofRatio hd hlarge hsmall,
        Double.ofRatio_eq_finite_iff hn, ← covers_div_iff hn hm, Double.decimalRatio_eq]
      rfl
    constructor
    · intro h
      obtain ⟨hlarge, hsmall⟩ := places_of_isReadFrom hr hd h
      exact (hrange hlarge hsmall).mp h
    · intro h
      obtain ⟨hlarge, hsmall⟩ := h.places hr hd
      exact (hrange hlarge hsmall).mpr h

end Magnitude

end Switchboard
