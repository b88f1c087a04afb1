import Switchboard.Proofs.DecimalGrids

/-!
# The fewest digits

The first grid with a point that is rounded to a magnitude gives the fewest digits, and the nearest
of its points is the nearest of all decimals with as few. The shortest decimal is determined by this
alone.
-/
namespace Switchboard

namespace Magnitude

variable {r : Magnitude} {e : Int} {d d' : Decimal} {k m : Nat}

/-! ## The search -/

theorem findSome?_range {α : Type} {f : Nat → Option α} {n : Nat} {a : α}
    (h : (List.range n).findSome? f = some a) : ∃ i < n, f i = some a ∧ ∀ j < i, f j = none := by
  obtain ⟨front, i, back, hrange, hi, hfront⟩ := List.findSome?_eq_some_iff.mp h
  have hlength : front.length < n := by
    have := congrArg List.length hrange
    simp at this
    omega
  have hget : ∀ j (hj : j < n), (front ++ i :: back)[j]? = some j := by
    intro j hj
    rw [← hrange, List.getElem?_range hj]
  have hplace : i = front.length := by
    have := hget front.length hlength
    simpa using this
  refine ⟨i, hplace ▸ hlength, hi, ?_⟩
  intro j hj
  rw [hplace] at hj
  apply hfront
  have := hget j (hj.trans hlength)
  rw [List.getElem?_append_left hj] at this
  exact List.mem_of_getElem? this

/-- The coarsest grid on which a point is rounded to the magnitude, and the nearest such point. -/
structure IsFirstGrid (r : Magnitude) (k m : Nat) : Prop where
  pos : 0 < k
  nearest : r.IsNearestOnGrid (r.decimalExponent - k) m
  first : ∀ j m' : Nat, 0 < j → r.Covers (m' * 10 ^ (r.decimalExponent - j)) → k ≤ j

theorem exists_isFirstGrid (hr : r.val ≠ 0) :
    ∃ k m, r.IsFirstGrid k m ∧
      r.shortest = (⟨m, r.decimalExponent - k⟩ : Decimal).trimZeros 17 := by
  unfold shortest
  dsimp only
  split
  · rename_i d hd
    obtain ⟨i, hi, hfound, hbefore⟩ := findSome?_range hd
    obtain ⟨hexponent, hnearest⟩ := isNearestOnGrid_of_onGrid? hr hfound
    refine ⟨i + 1, d.digits, ⟨i.succ_pos, hnearest, ?_⟩, ?_⟩
    · intro j m' hj hcovers
      by_contra hlt
      have hnone := hbefore (j - 1) (by omega)
      rw [Nat.sub_add_cancel hj] at hnone
      exact onGrid?_ne_none hr hcovers hnone
    · rw [← hexponent]
  · rename_i hnone
    rw [List.findSome?_eq_none_iff] at hnone
    exact absurd (hnone 16 (by decide)) (onGrid?_seventeen hr)

theorem IsFirstGrid.bounds (hr : r.val ≠ 0) (h : r.IsFirstGrid k m) :
    10 ^ (k - 1) ≤ m ∧ m ≤ 10 ^ k := by
  have hten : (10 : ℚ) ≠ 0 := by norm_num
  have hunit : (0 : ℚ) < 10 ^ (r.decimalExponent - k) := zpow_pos (by norm_num) _
  have hpos := h.pos
  obtain ⟨hlow, hhigh⟩ := decimalExponent_spec hr
  obtain ⟨hbelow, habove⟩ := h.nearest.neighbour
  have hpower : ∀ j : Nat, (10 : ℚ) ^ (r.decimalExponent - k + j) =
      (10 ^ j : Nat) * 10 ^ (r.decimalExponent - k) := by
    intro j
    rw [zpow_add₀ hten, mul_comm, Nat.cast_pow, zpow_natCast, Nat.cast_ofNat]
  constructor
  · have hlt : ((10 ^ (k - 1) : Nat) : ℚ) * 10 ^ (r.decimalExponent - k) <
        (m + 1 : Nat) * 10 ^ (r.decimalExponent - k) := by
      rw [← hpower, show r.decimalExponent - k + (k - 1 : Nat) = r.decimalExponent - 1 by omega]
      push_cast
      linarith
    have := lt_of_mul_lt_mul_right hlt hunit.le
    have : 10 ^ (k - 1) < m + 1 := by exact_mod_cast this
    omega
  · have hlt : (m : ℚ) * 10 ^ (r.decimalExponent - k) <
        (10 ^ k + 1 : Nat) * 10 ^ (r.decimalExponent - k) := by
      rw [Nat.cast_succ, add_one_mul, ← hpower, sub_add_cancel]
      linarith
    have := lt_of_mul_lt_mul_right hlt hunit.le
    have : m < 10 ^ k + 1 := by exact_mod_cast this
    omega

/-- A point that ends in zero lies on a coarser grid, unless there is none. -/
theorem IsFirstGrid.eq_one (hr : r.val ≠ 0) (h : r.IsFirstGrid k m) (hzero : m % 10 = 0) :
    k = 1 ∧ m = 10 := by
  have hpos := h.pos
  have hone : k = 1 := by
    by_contra hne
    have hcoarser : ((m / 10 : Nat) : ℚ) * 10 ^ (r.decimalExponent - (k - 1 : Nat)) =
        m * 10 ^ (r.decimalExponent - k) := by
      have hexponent : r.decimalExponent - (k - 1 : Nat) = r.decimalExponent - k + 1 := by omega
      have hm : (m : ℚ) = (m / 10 : Nat) * 10 := by
        exact_mod_cast (Nat.div_mul_cancel (Nat.dvd_of_mod_eq_zero hzero)).symm
      rw [hexponent, zpow_add_one₀ (by norm_num), hm]
      ring
    have := h.first (k - 1) (m / 10) (by omega) (hcoarser ▸ h.nearest.covers)
    omega
  obtain ⟨hlow, hhigh⟩ := h.bounds hr
  subst hone
  omega

theorem IsFirstGrid.shortest_eq (hr : r.val ≠ 0) (h : r.IsFirstGrid k m)
    (hs : r.shortest = (⟨m, r.decimalExponent - k⟩ : Decimal).trimZeros 17) :
    Double.digitCount r.shortest.digits = k ∧
      r.shortest.value = m * 10 ^ (r.decimalExponent - k) ∧
      (r.shortest.digits = m ∨ k = 1 ∧ m = 10) := by
  obtain ⟨hlow, hhigh⟩ := h.bounds hr
  by_cases hzero : m % 10 = 0
  · obtain ⟨rfl, rfl⟩ := h.eq_one hr hzero
    have hone : r.shortest = ⟨1, r.decimalExponent⟩ := by
      rw [hs]
      simp [Decimal.trimZeros]
    have hcount : Double.digitCount 1 = 1 := by decide
    rw [hone]
    refine ⟨hcount, ?_, Or.inr ⟨rfl, rfl⟩⟩
    rw [Decimal.value, Nat.cast_one, Nat.cast_one, zpow_sub_one₀ (by norm_num)]
    push_cast
    ring
  · rw [Decimal.trimZeros_of_mod_ne hzero] at hs
    have hlt : m < 10 ^ k := by
      apply lt_of_le_of_ne hhigh
      rintro rfl
      exact hzero (Nat.mod_eq_zero_of_dvd (dvd_pow_self 10 h.pos.ne'))
    rw [hs]
    exact ⟨Double.digitCount_eq h.pos hlow hlt, rfl, Or.inl rfl⟩

/-! ## Ties -/

/-- Nineteen parts of a power of ten are no half of a power of two. -/
theorem two_mul_zpow_ne (s a : Nat) {j : Nat} (hj : 0 < j) :
    2 * ((s : ℚ) * 2 ^ (-(a : Int))) ≠ 19 * 10 ^ (-(j : Int)) := by
  intro h
  rw [zpow_neg, zpow_neg, zpow_natCast, zpow_natCast, ← mul_assoc, ← div_eq_mul_inv,
    ← div_eq_mul_inv, div_eq_div_iff (by positivity) (by positivity)] at h
  have hwhole : 2 * s * 10 ^ j = 19 * 2 ^ a := by exact_mod_cast h
  have hfive : 5 ∣ 19 * 2 ^ a := by
    rw [← hwhole]
    exact (dvd_pow (by decide : 5 ∣ 10) hj.ne').mul_left _
  have hcoprime : Nat.Coprime 5 (2 ^ a) := Nat.Coprime.pow_right a (by decide)
  have := hcoprime.dvd_of_dvd_mul_right hfive
  omega

/-- No magnitude lies midway between nine and ten units that are not more than a step: only the
least steps are so long, and they are no decimal fractions. -/
theorem two_mul_value_ne (h : (10 : ℚ) ^ e ≤ 2 ^ r.exponent) : 2 * r.value ≠ 19 * 10 ^ e := by
  intro hmidway
  have hunit : (0 : ℚ) < 10 ^ e := zpow_pos (by norm_num) _
  unfold value at hmidway
  have hsmall : r.significand ≤ 9 := by
    have hle : (2 * r.significand : ℚ) * 10 ^ e ≤ 19 * 10 ^ e := by
      rw [← hmidway, ← mul_assoc]
      gcongr
    have hle' : (2 * r.significand : ℚ) ≤ 19 := le_of_mul_le_mul_right hle hunit
    have : 2 * r.significand ≤ 19 := by exact_mod_cast hle'
    omega
  have hleast : r.exponent = -1074 := by
    rcases r.exponent_cases with hleast | ⟨-, hdigits⟩
    · exact hleast
    · omega
  rw [hleast] at h hmidway
  have hneg : e < 0 := by
    have hlt : (10 : ℚ) ^ e < 10 ^ (0 : Int) := by
      refine h.trans_lt ?_
      rw [zpow_zero]
      exact zpow_lt_one_of_neg₀ (by norm_num) (by norm_num)
    exact (zpow_lt_zpow_iff_right₀ (by norm_num)).mp hlt
  obtain ⟨j, rfl⟩ : ∃ j : Nat, e = -(j : Int) := ⟨(-e).toNat, by omega⟩
  exact two_mul_zpow_ne r.significand 1074 (by omega) hmidway

/-- Ten units are not as near as any other number of them. -/
theorem IsNearestOnGrid.no_tie {m' : Nat} (h : r.IsNearestOnGrid e 10)
    (hhigh : r.value < 10 ^ (e + 1)) (hcovers : r.Covers (m' * 10 ^ e))
    (htie : |(m' : ℚ) * 10 ^ e - r.value| = |((10 : Nat) : ℚ) * 10 ^ e - r.value|) : m' = 10 := by
  have hunit : (0 : ℚ) < 10 ^ e := zpow_pos (by norm_num) _
  have hself := h.covers
  have hreach := h.covers.abs_sub_le
  have hnine := h.nearest 9
  rw [zpow_add_one₀ (by norm_num), mul_comm] at hhigh
  simp only [Nat.cast_ofNat] at htie hself hreach hnine
  rw [abs_of_pos (sub_pos.mpr hhigh)] at htie hreach hnine
  rcases (abs_eq (by linarith)).mp htie with hsame | hbelow
  · have hpoints : (m' : ℚ) * 10 ^ e = 10 * 10 ^ e := by linarith
    exact_mod_cast mul_right_cancel₀ hunit.ne' hpoints
  · -- the other point is at nine units or less, so nine of them are as near as ten
    exfalso
    have hlt : (m' : ℚ) * 10 ^ e < (10 : Nat) * 10 ^ e := by
      push_cast
      linarith
    have hm' : m' ≤ 9 := by
      have : (m' : ℚ) < (10 : Nat) := lt_of_mul_lt_mul_right hlt hunit.le
      have : m' < 10 := by exact_mod_cast this
      omega
    have hle : (m' : ℚ) * 10 ^ e ≤ 9 * 10 ^ e := by
      gcongr
      exact_mod_cast hm'
    have hfar := hnine (hcovers.between hself hle (by linarith))
    have habove : 9 * 10 ^ e < r.value := by
      by_contra hge
      rw [abs_of_nonneg (by linarith)] at hfar
      linarith
    rw [abs_of_neg (by linarith)] at hfar
    apply @two_mul_value_ne r e <;> linarith

/-! ## The shortest decimal -/

/-- The decimal reads back with the fewest digits. Of as few it is the nearest, and of two that are
equally near the even one. -/
structure IsShortest (r : Magnitude) (d : Decimal) : Prop where
  reads : r.isReadFrom d = true
  fewest : ∀ d', r.isReadFrom d' = true → Double.digitCount d.digits ≤ Double.digitCount d'.digits
  nearest : ∀ d', r.isReadFrom d' = true →
    Double.digitCount d'.digits = Double.digitCount d.digits →
    |d.value - r.value| ≤ |d'.value - r.value|
  even : ∀ d', r.isReadFrom d' = true →
    Double.digitCount d'.digits = Double.digitCount d.digits →
    |d'.value - r.value| = |d.value - r.value| → d' ≠ d → d.digits % 2 = 0

theorem digits_pos_of_isReadFrom (hr : r.val ≠ 0) (h : r.isReadFrom d = true) : 0 < d.digits := by
  have hpos := ((isReadFrom_iff hr).mp h).pos
  by_contra hzero
  simp [Decimal.value, Nat.eq_zero_of_not_pos hzero] at hpos

/-- The search finds the shortest decimal. -/
theorem isShortest_shortest (hr : r.val ≠ 0) : r.IsShortest r.shortest := by
  obtain ⟨k, m, hfirst, hs⟩ := exists_isFirstGrid hr
  obtain ⟨hcount, hvalue, hdigits⟩ := hfirst.shortest_eq hr hs
  obtain ⟨-, hhigh⟩ := decimalExponent_spec hr
  refine ⟨isReadFrom_shortest hr, ?_, ?_, ?_⟩
  · intro d' hread
    obtain ⟨m', hcovers, -⟩ := ((isReadFrom_iff hr).mp hread).exists_onGrid hr rfl
    rw [hcount]
    exact hfirst.first _ m' (Double.digitCount_pos _) hcovers
  · intro d' hread hsame
    rw [hcount] at hsame
    obtain ⟨m', hcovers, hnear⟩ := ((isReadFrom_iff hr).mp hread).exists_onGrid hr hsame
    have hle := hfirst.nearest.nearest m' hcovers
    rw [hvalue]
    rcases hnear with heq | hlt
    · rwa [heq] at hle
    · exact hle.trans hlt.le
  · intro d' hread hsame htie hne
    rw [hcount] at hsame
    obtain ⟨m', hcovers, hnear⟩ := ((isReadFrom_iff hr).mp hread).exists_onGrid hr hsame
    rw [hvalue] at htie
    have hle := hfirst.nearest.nearest m' hcovers
    have hpoint : (m' : ℚ) * 10 ^ (r.decimalExponent - k) = d'.value :=
      hnear.resolve_right (by linarith)
    have hother : m' ≠ m := by
      rintro rfl
      apply hne
      apply Decimal.eq_of_value_eq (digits_pos_of_isReadFrom hr hread)
        (digits_pos_of_isReadFrom hr (isReadFrom_shortest hr))
      · rw [hsame, hcount]
      · rw [hvalue, hpoint]
    rw [← hpoint] at htie
    rcases hdigits with hdigits | ⟨rfl, rfl⟩
    · rw [hdigits]
      exact hfirst.nearest.even m' hcovers htie hother
    · refine absurd (hfirst.nearest.no_tie ?_ hcovers htie) hother
      simpa using hhigh

/-- Of two shortest decimals none is larger: a greater number of as many digits would lie between.
-/
theorem IsShortest.not_value_lt (hr : r.val ≠ 0) (h : r.IsShortest d) (h' : r.IsShortest d') :
    ¬ d.value < d'.value := by
  intro hlt
  have hd := digits_pos_of_isReadFrom hr h.reads
  have hd' := digits_pos_of_isReadFrom hr h'.reads
  have hcount : Double.digitCount d'.digits = Double.digitCount d.digits :=
    (h'.fewest d h.reads).antisymm (h.fewest d' h'.reads)
  have hdist : |d'.value - r.value| = |d.value - r.value| :=
    (h'.nearest d h.reads hcount.symm).antisymm (h.nearest d' h'.reads hcount)
  have hne : d' ≠ d := by
    rintro rfl
    exact lt_irrefl _ hlt
  have heven := h.even d' h'.reads hcount hdist hne
  have heven' := h'.even d h.reads hcount.symm hdist.symm hne.symm
  have hbelow := Decimal.value_next_lt hd hd' hlt hcount heven heven'
  have habove : d.value < d.next.value := by
    rw [Decimal.value_next]
    exact lt_add_of_pos_right _ (zpow_pos (by norm_num) _)
  have hread : r.isReadFrom d.next = true := by
    have hcovers := (isReadFrom_iff hr).mp h.reads
    have hcovers' := (isReadFrom_iff hr).mp h'.reads
    exact (isReadFrom_iff hr).mpr (hcovers.between hcovers' habove.le hbelow.le)
  have hnear := h.nearest d.next hread (Double.digitCount_succ hd heven)
  rcases abs_eq_abs.mp hdist with hsame | hopposite
  · linarith
  · have hnearer : |d.next.value - r.value| < r.value - d.value := by
      rw [abs_lt]
      constructor <;> linarith
    rw [abs_of_neg (by linarith : d.value - r.value < 0)] at hnear
    linarith

/-- There is one shortest decimal only. -/
theorem IsShortest.eq (hr : r.val ≠ 0) (h : r.IsShortest d) (h' : r.IsShortest d') : d = d' := by
  have hvalue : d.value = d'.value :=
    (le_of_not_gt (h'.not_value_lt hr h)).antisymm (le_of_not_gt (h.not_value_lt hr h'))
  have hcount := (h.fewest d' h'.reads).antisymm (h'.fewest d h.reads)
  exact Decimal.eq_of_value_eq (digits_pos_of_isReadFrom hr h.reads)
    (digits_pos_of_isReadFrom hr h'.reads) hcount hvalue

theorem isShortest_iff (hr : r.val ≠ 0) : r.IsShortest d ↔ d = r.shortest := by
  constructor
  · intro h
    exact h.eq hr (isShortest_shortest hr)
  · rintro rfl
    exact isShortest_shortest hr

end Magnitude

end Switchboard
