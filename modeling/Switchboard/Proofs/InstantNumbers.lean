import Mathlib.Tactic.Positivity
import Switchboard.Proofs.InstantTexts
import Switchboard.Proofs.NearestMagnitudes

/-!
# Instants of numbers

A time in milliseconds is divided into seconds as a double, and the seconds are brought to
microseconds again. The double may fall short of the time. Where it does so by half a microsecond,
the time is read as the microsecond before, and thereby as the millisecond before; no double does so
near the present. The other roundings on the way are too small to change on which side of half a
microsecond a shortfall is.
-/
namespace Switchboard

namespace Magnitude

variable {r : Magnitude} {x : ℚ} {q : Int}

/-- A magnitude that a number is rounded to in units of a power of two. -/
structure RoundsAt (r : Magnitude) (q : Int) (x : ℚ) : Prop where
  multiple : ∃ k : Nat, r.value = k * 2 ^ q
  near : |r.value - x| ≤ 2 ^ q / 2

theorem RoundsAt.near_of_le (h : r.RoundsAt q x) {p : Int} (hq : q ≤ p) {c : ℚ}
    (hc : (2 : ℚ) ^ p / 2 ≤ c) : |r.value - x| ≤ c :=
  calc |r.value - x| ≤ 2 ^ q / 2 := h.near
    _ ≤ 2 ^ p / 2 := by
      gcongr
      norm_num
    _ ≤ c := hc

/-- A multiple of the unit is not changed. -/
theorem RoundsAt.eq_of_multiple (h : r.RoundsAt q x) {m : Nat} (hx : x = m * 2 ^ q) :
    r.value = x := by
  obtain ⟨⟨k, hk⟩, hnear⟩ := h
  have hunit : (0 : ℚ) < 2 ^ q := zpow_pos (by norm_num) _
  have hhalf : |(k : ℚ) - m| * 2 ^ q ≤ 1 / 2 * 2 ^ q := by
    rw [hk, hx, ← sub_mul, abs_mul, abs_of_pos hunit] at hnear
    linarith
  have hdist : |(k : ℚ) - m| < 1 := by
    have hle := le_of_mul_le_mul_right hhalf hunit
    linarith
  have hint : |(k : Int) - m| < 1 := by exact_mod_cast hdist
  rw [Int.abs_lt_one_iff] at hint
  have hsame : k = m := by omega
  rw [hk, hx, hsame]

/-- A natural is not changed where the unit is at most one. -/
theorem RoundsAt.eq_natCast {m : Nat} (h : r.RoundsAt q m) (hq : q ≤ 0) : r.value = m := by
  obtain ⟨j, rfl⟩ := Int.exists_eq_neg_ofNat hq
  apply h.eq_of_multiple (m := m * 2 ^ j)
  push_cast
  rw [zpow_neg, zpow_natCast, mul_assoc, mul_inv_cancel₀ (by positivity), mul_one]

end Magnitude

namespace Double

variable {n d : Nat}

/-- A quotient that is no larger than the magnitudes is rounded at a unit that its size bounds. -/
theorem exists_ofRatio (negative : Bool) (hd : 0 < d) {e : Int} (hlt : (n : ℚ) / d < 2 ^ (e + 1))
    (hlow : -1022 ≤ e) (hhigh : e ≤ 1000) : ∃ r q, ofRatio negative n d = .finite negative r ∧
      r.RoundsAt q (n / d) ∧ q ≤ e - 52 ∧ ∀ e', (2 : ℚ) ^ e' ≤ n / d → e' - 52 ≤ q := by
  rcases Nat.eq_zero_or_pos n with rfl | hn
  · have hzero : ((0 : Nat) : ℚ) / d = 0 := by simp
    have hvalue : (0 : Magnitude).value = 0 := by simp [Magnitude.value, Magnitude.significand]
    refine ⟨0, e - 52, by simp [ofRatio], ?_, le_rfl, ?_⟩
    · refine ⟨⟨0, by simp [hvalue]⟩, ?_⟩
      rw [hzero, hvalue, sub_zero, abs_zero]
      positivity
    · intro e' he'
      rw [hzero] at he'
      exact absurd he' (not_le.mpr (zpow_pos (by norm_num) _))
  · obtain ⟨hkept, hdigits⟩ := keptDigits_bounds hn hd
    have hbinary := lt_binaryExponent_of_le hn hd hlt
    have hplace : lastPlace n d ≤ e - 52 := by
      unfold lastPlace
      omega
    have hleast : -1074 ≤ lastPlace n d := le_max_right _ _
    have hrank : rankOf n d < 2047 * 2 ^ 52 := by
      unfold rankOf
      omega
    have hvalue := (Magnitude.value_eq_of_val_eq (r := ⟨rankOf n d, hrank⟩) rfl hleast hkept
      hdigits).1
    refine ⟨⟨rankOf n d, hrank⟩, lastPlace n d, ?_, ⟨⟨_, hvalue⟩, ?_⟩, hplace, ?_⟩
    · rw [ofRatio_eq negative hn, ofRank, dif_pos hrank]
    · rw [hvalue, abs_sub_comm]
      exact abs_sub_keptDigits_le n hd
    · intro e' he'
      have hexponent := (zpow_lt_zpow_iff_right₀ (by norm_num : (1 : ℚ) < 2)).mp
        (he'.trans_lt (binaryExponent_spec hn hd).2)
      unfold lastPlace
      omega

end Double

namespace Timestamp

open Calendar

theorem exists_million : ∃ r : Magnitude, Double.ofNat 1000000 = .finite false r ∧
    r.value = 1000000 := by
  obtain ⟨r, q, hr, hrounds, hq, -⟩ := Double.exists_ofRatio (n := 1000000) (d := 1) (e := 19) false
    Nat.one_pos (by norm_num) (by decide) (by decide)
  refine ⟨r, hr, ?_⟩
  have hvalue := Magnitude.RoundsAt.eq_natCast (m := 1000000) (by simpa using hrounds) (by omega)
  exact_mod_cast hvalue

/-- The fraction of a second is rounded as a double, and so are its microseconds; both are far below
half a microsecond. -/
theorem exists_fraction (negative : Bool) (r : Magnitude) : ∃ m : Nat,
    ((Double.finite negative r).fraction.mul (.ofNat 1000000)).nearestInt? =
      some (if negative then -(m : Int) else m) ∧
    |(m : ℚ) - 1000000 * ((r.ratio.1 % r.ratio.2 : Nat) / r.ratio.2)| ≤ 1 / 2 + 1 / 2 ^ 33 := by
  obtain ⟨million, hmillion, hvalue⟩ := exists_million
  have hpos := r.snd_ratio_pos
  have hpos' : (0 : ℚ) < r.ratio.2 := by exact_mod_cast hpos
  generalize hx : ((r.ratio.1 % r.ratio.2 : Nat) : ℚ) / r.ratio.2 = x
  have hone : x < 1 := by
    rw [← hx, div_lt_one hpos']
    exact_mod_cast Nat.mod_lt _ hpos
  -- the fraction
  obtain ⟨f, p, hf, hfrounds, hp, -⟩ := Double.exists_ofRatio (n := r.ratio.1 % r.ratio.2) (e := -1)
    negative hpos (by simpa [hx] using hone) (by decide) (by decide)
  have hfnear : |f.value - x| ≤ 1 / 2 ^ 54 := by
    rw [← hx]
    exact hfrounds.near_of_le hp (by norm_num)
  -- its microseconds
  have hproduct : ((f.ratio.1 * million.ratio.1 : Nat) : ℚ) / (f.ratio.2 * million.ratio.2 : Nat) =
      f.value * 1000000 := by
    push_cast
    rw [mul_div_mul_comm, f.ratio_eq, million.ratio_eq, hvalue]
  have hlt : ((f.ratio.1 * million.ratio.1 : Nat) : ℚ) / (f.ratio.2 * million.ratio.2 : Nat) <
      2 ^ ((19 : Int) + 1) := by
    have hle := (abs_le.mp hfnear).2
    rw [hproduct]
    norm_num at hle ⊢
    linarith
  obtain ⟨g, q, hg, hgrounds, hq, -⟩ := Double.exists_ofRatio (negative != false)
    (Nat.mul_pos f.snd_ratio_pos million.snd_ratio_pos) hlt (by decide) (by decide)
  have hgnear : |g.value - f.value * 1000000| ≤ 1 / 2 ^ 34 := by
    rw [← hproduct]
    exact hgrounds.near_of_le hq (by norm_num)
  have hround := @abs_divHalfEven_sub_le g.ratio.1 g.ratio.2 g.snd_ratio_pos
  rw [g.ratio_eq] at hround
  refine ⟨divHalfEven g.ratio.1 g.ratio.2, ?_, ?_⟩
  · simp only [Double.fraction, hf, hmillion, Double.mul, hg, Double.nearestInt?]
    simp
  · rw [abs_le] at hround hgnear hfnear ⊢
    norm_num at hround hgnear hfnear ⊢
    constructor <;> linarith

/-- A finite number of seconds is brought to the microseconds that are nearest to it, but for what
the roundings before take away. -/
theorem exists_ofSeconds (negative : Bool) (r : Magnitude) : ∃ micros : Int,
    |(micros : ℚ) - 1000000 * (Double.finite negative r).value| ≤ 1 / 2 + 1 / 2 ^ 33 ∧
    ofSeconds? (.finite negative r) =
      if isYear (ofMicros micros).date.year then some (ofMicros micros) else none := by
  obtain ⟨m, hm, hnear⟩ := exists_fraction negative r
  refine ⟨if negative then -((r.floor : Int) * 1000000 + m) else r.floor * 1000000 + m, ?_, ?_⟩
  · have hpos : (0 : ℚ) < r.ratio.2 := by exact_mod_cast r.snd_ratio_pos
    have hwhole : r.value = r.floor + ((r.ratio.1 % r.ratio.2 : Nat) : ℚ) / r.ratio.2 := by
      have hdiv : ((r.ratio.2 * (r.ratio.1 / r.ratio.2) + r.ratio.1 % r.ratio.2 : Nat) : ℚ) =
          r.ratio.1 := by rw [Nat.div_add_mod]
      rw [← r.ratio_eq, ← hdiv, Magnitude.floor]
      push_cast
      rw [add_div, mul_div_cancel_left₀ _ hpos.ne']
    have hdist : ((r.floor * 1000000 + m : Nat) : ℚ) - 1000000 * r.value =
        m - 1000000 * (((r.ratio.1 % r.ratio.2 : Nat) : ℚ) / r.ratio.2) := by
      rw [hwhole]
      push_cast
      ring
    rw [← hdist] at hnear
    cases negative with
    | false => simpa [Double.value] using hnear
    | true =>
      have hflip : ((-((r.floor : Int) * 1000000 + m) : Int) : ℚ) - 1000000 * -r.value =
          -(((r.floor * 1000000 + m : Nat) : ℚ) - 1000000 * r.value) := by
        push_cast
        ring
      simp only [Double.value, if_true]
      rwa [hflip, abs_neg]
  · simp only [ofSeconds?, Double.truncate?, hm, Option.bind_eq_bind, Option.bind_some]
    cases negative with
    | false => rfl
    | true =>
      have hflip : -(r.floor : Int) * 1000000 + -(m : Int) = -((r.floor : Int) * 1000000 + m) := by
        ring
      simp only [if_true, hflip]
      rfl

/-! ## Milliseconds -/

/-- The double nearest to the seconds of a time in milliseconds. -/
def seconds (ms : Int) : Double := .ofRatio (ms < 0) ms.natAbs 1000

/-- How far the nearest double falls short of the time, in microseconds. -/
def shortfall (ms : Int) : ℚ := 1000 * ms - 1000000 * (seconds ms).value

variable {ms : Int}

theorem exists_seconds (h : InCalendar ms) : ∃ r q, seconds ms = .finite (ms < 0) r ∧
    r.RoundsAt q (ms.natAbs / 1000) ∧ q ≤ -15 ∧ (ms.natAbs < 2 ^ 33 * 1000 → q ≤ -20) ∧
    (2 ^ 33 * 1000 ≤ ms.natAbs → -19 ≤ q) := by
  have hsize : ms.natAbs < 2 ^ 38 * 1000 := by
    rw [inCalendar_iff] at h
    omega
  by_cases hnear : ms.natAbs < 2 ^ 33 * 1000
  · have hlt : ((ms.natAbs : Nat) : ℚ) / (1000 : Nat) < 2 ^ ((32 : Int) + 1) := by
      rw [div_lt_iff₀ (by norm_num)]
      exact_mod_cast hnear
    obtain ⟨r, q, hr, hrounds, hq, -⟩ := Double.exists_ofRatio (ms < 0) (by decide) hlt
      (by decide) (by decide)
    exact ⟨r, q, hr, hrounds, by omega, fun _ => by omega, fun hfar => by omega⟩
  · have hlt : ((ms.natAbs : Nat) : ℚ) / (1000 : Nat) < 2 ^ ((37 : Int) + 1) := by
      rw [div_lt_iff₀ (by norm_num)]
      exact_mod_cast hsize
    have hle : (2 : ℚ) ^ (33 : Int) ≤ ((ms.natAbs : Nat) : ℚ) / (1000 : Nat) := by
      rw [le_div_iff₀ (by norm_num)]
      exact_mod_cast not_lt.mp hnear
    obtain ⟨r, q, hr, hrounds, hq, hplace⟩ := Double.exists_ofRatio (ms < 0) (by decide) hlt
      (by decide) (by decide)
    have hunit := hplace 33 hle
    exact ⟨r, q, hr, hrounds, by omega, fun hnear' => absurd hnear' hnear, fun _ => by omega⟩

/-- The shortfall is that of the magnitudes, with the sign of the time. -/
theorem shortfall_eq {r : Magnitude} (h : seconds ms = .finite (ms < 0) r) :
    shortfall ms = (if ms < 0 then -1 else 1) * (1000 * ms.natAbs - 1000000 * r.value) := by
  have hcast : (ms.natAbs : ℚ) = |(ms : ℚ)| := by
    rw [← Int.cast_abs, Int.abs_eq_natAbs, Int.cast_natCast]
  rw [shortfall, h, hcast]
  by_cases hms : ms < 0
  · have hneg : (ms : ℚ) < 0 := by exact_mod_cast hms
    simp only [Double.value, hms, decide_true, if_true, abs_of_neg hneg]
    ring
  · have hnonneg : (0 : ℚ) ≤ ms := by exact_mod_cast not_lt.mp hms
    simp only [Double.value, hms, decide_false, Bool.false_eq_true, if_false, abs_of_nonneg hnonneg]
    ring

theorem abs_shortfall {r : Magnitude} (h : seconds ms = .finite (ms < 0) r) :
    |shortfall ms| = 1000000 * |r.value - ms.natAbs / 1000| := by
  have hscale : (1000 : ℚ) * ms.natAbs - 1000000 * r.value =
      -(1000000 * (r.value - ms.natAbs / 1000)) := by ring
  have hsign : |(if ms < 0 then -1 else 1 : ℚ)| = 1 := by split <;> simp
  rw [shortfall_eq h, abs_mul, hsign, one_mul, hscale, abs_neg, abs_mul, abs_of_pos (by norm_num)]

theorem abs_shortfall_le (h : InCalendar ms) : |shortfall ms| ≤ 16 := by
  obtain ⟨r, q, hr, hrounds, hq, -, -⟩ := exists_seconds h
  have hnear := hrounds.near_of_le hq (c := 1 / 2 ^ 16) (by norm_num)
  rw [abs_shortfall hr]
  norm_num at hnear ⊢
  linarith

/-- For a time that is not far away the shortfall is less than half a microsecond. -/
theorem abs_shortfall_le_of_lt (h : InCalendar ms) (hnear : ms.natAbs < 2 ^ 33 * 1000) :
    |shortfall ms| ≤ 12 / 25 := by
  obtain ⟨r, q, hr, hrounds, -, hq, -⟩ := exists_seconds h
  have hnear := hrounds.near_of_le (hq hnear) (c := 1 / 2 ^ 21) (by norm_num)
  rw [abs_shortfall hr]
  norm_num at hnear ⊢
  linarith

/-- Whole seconds are doubles. -/
theorem shortfall_eq_zero (h : InCalendar ms) (hwhole : 1000 ∣ ms) : shortfall ms = 0 := by
  obtain ⟨r, q, hr, hrounds, hq, -⟩ := exists_seconds h
  obtain ⟨k, hk⟩ : 1000 ∣ ms.natAbs := Int.natAbs_dvd_natAbs.mpr hwhole
  have hquotient : (ms.natAbs : ℚ) / 1000 = k := by
    rw [hk]
    push_cast
    ring
  rw [hquotient] at hrounds
  rw [← abs_eq_zero, abs_shortfall hr, hquotient, hrounds.eq_natCast (by omega), sub_self, abs_zero,
    mul_zero]

/-- For a time that is far away the shortfall is a multiple of five in small units. -/
theorem exists_shortfall_mul (h : InCalendar ms) (hfar : 2 ^ 33 * 1000 ≤ ms.natAbs) :
    ∃ j : Int, shortfall ms * 2 ^ 13 = 5 * j := by
  obtain ⟨r, q, hr, hrounds, -, -, hq⟩ := exists_seconds h
  obtain ⟨k, hk⟩ := hrounds.multiple
  have hunit := hq hfar
  obtain ⟨p, hp⟩ := Int.eq_ofNat_of_zero_le (a := q + 19) (by omega)
  have hvalue : r.value * 2 ^ 19 = k * 2 ^ p := by
    have hpower : (2 : ℚ) ^ q * 2 ^ 19 = 2 ^ p := by
      rw [← zpow_natCast (2 : ℚ) p, ← hp, zpow_add₀ (by norm_num)]
      norm_cast
    rw [hk, mul_assoc, hpower]
  refine ⟨(if ms < 0 then -1 else 1) * (200 * ms.natAbs * 2 ^ 13 - 3125 * (k * 2 ^ p)), ?_⟩
  rw [shortfall_eq hr]
  generalize ms.natAbs = n
  push_cast
  rw [← hvalue]
  split <;> ring

/-- The shortfall is never so near to half a microsecond that the roundings could hide on which side
it is. -/
theorem shortfall_apart (h : InCalendar ms) :
    shortfall ms ≤ 1 / 2 - 1 / 2 ^ 13 ∨ 1 / 2 + 1 / 2 ^ 13 ≤ shortfall ms := by
  by_cases hnear : ms.natAbs < 2 ^ 33 * 1000
  · left
    have hle := (abs_le.mp (abs_shortfall_le_of_lt h hnear)).2
    norm_num
    linarith
  · obtain ⟨j, hj⟩ := exists_shortfall_mul h (not_lt.mp hnear)
    -- half a microsecond would be a power of two in these units, and no multiple of five
    have hcases : 5 * j ≤ 2 ^ 12 - 1 ∨ 2 ^ 12 + 1 ≤ 5 * j := by omega
    rcases hcases with hle | hle
    · left
      have hle : (5 * j : ℚ) ≤ 2 ^ 12 - 1 := by exact_mod_cast hle
      rw [← hj] at hle
      norm_num at hle ⊢
      linarith
    · right
      have hle : (2 ^ 12 + 1 : ℚ) ≤ 5 * j := by exact_mod_cast hle
      rw [← hj] at hle
      norm_num at hle ⊢
      linarith

/-- The milliseconds that a number of milliseconds is read as. -/
theorem div_micros (h : InCalendar ms) {micros : Int}
    (hnear : |(micros : ℚ) - 1000000 * (seconds ms).value| ≤ 1 / 2 + 1 / 2 ^ 33) :
    micros / 1000 = if shortfall ms < 1 / 2 then ms else ms - 1 := by
  have hsize := abs_le.mp (abs_shortfall_le h)
  have hvalue : 1000000 * (seconds ms).value = 1000 * ms - shortfall ms := by
    rw [shortfall]
    ring
  rw [hvalue, abs_le] at hnear
  norm_num at hnear
  rcases shortfall_apart h with hless | hmore
  · norm_num at hless
    have hlow : ((1000 * ms - 1 : Int) : ℚ) < micros := by
      push_cast
      linarith
    have hhigh : (micros : ℚ) < ((1000 * ms + 17 : Int) : ℚ) := by
      push_cast
      linarith
    have hlow : 1000 * ms - 1 < micros := by exact_mod_cast hlow
    have hhigh : micros < 1000 * ms + 17 := by exact_mod_cast hhigh
    rw [if_pos (by linarith)]
    omega
  · norm_num at hmore
    have hlow : ((1000 * ms - 17 : Int) : ℚ) < micros := by
      push_cast
      linarith
    have hhigh : (micros : ℚ) < ((1000 * ms : Int) : ℚ) := by
      push_cast
      linarith
    have hlow : 1000 * ms - 17 < micros := by exact_mod_cast hlow
    have hhigh : micros < 1000 * ms := by exact_mod_cast hhigh
    rw [if_neg (by linarith)]
    omega

/-- A number of milliseconds is read as its instant, or as the one a millisecond before. -/
theorem read_int (h : InCalendar ms) :
    read (.int ms) = .record (parts (instant (if shortfall ms < 1 / 2 then ms else ms - 1))) := by
  obtain ⟨r, -, hr, -⟩ := exists_seconds h
  obtain ⟨micros, hnear, hread⟩ := exists_ofSeconds (ms < 0) r
  rw [← hr] at hnear hread
  have hdiv := div_micros h hnear
  have hcalendar : InCalendar (if shortfall ms < 1 / 2 then ms else ms - 1) := by
    split
    · exact h
    · rename_i hshort
      have hwhole : ¬ 1000 ∣ ms := by
        intro hdvd
        rw [shortfall_eq_zero h hdvd] at hshort
        exact hshort (by norm_num)
      rw [inCalendar_iff] at h ⊢
      omega
  have hyear : isYear (ofMicros micros).date.year = true := by
    rwa [date_ofMicros, hdiv, isYear_instant]
  rw [if_pos hyear] at hread
  have hvalue : ofValue? (.int ms) = some (ofMicros micros) := by
    have hdouble : Double.ofRatio (ms < 0) ms.natAbs 1000 = .finite (ms < 0) r := hr
    rw [← hread, hr]
    simp only [ofValue?, hdouble]
  have hparts := parts_ofMicros micros
  rw [hdiv] at hparts
  rw [read, hvalue, ← hparts]

/-- Moments of different milliseconds have different parts. -/
theorem parts_instant_ne (ms : Int) : parts (instant ms) ≠ parts (instant (ms - 1)) := by
  intro h
  simp only [parts, List.cons.injEq, Prod.mk.injEq, Value.int.injEq, true_and, and_true] at h
  obtain ⟨-, -, -, -, -, -, h⟩ := h
  simp only [instant, ofMicros, microsPerDay] at h
  omega

/-- A time of the calendar has the parts that its day and its milliseconds give, and all its texts
are read as them, on the clocks of whatever zone they are written. As a number it is read as them
unless the nearest double falls short of it by half a microsecond, which no double does near the
present or at a whole second, and then it is read as the instant a millisecond before. -/
theorem read_both_notations (h : InCalendar ms) :
    (instant ms).isValid = true ∧
    (instant ms).date.number * 86400 +
        (((instant ms).hour * 60 + (instant ms).minute) * 60 + (instant ms).second : Nat) =
      ms / 1000 ∧
    ((instant ms).microsecond / 1000 : Nat) = ms % 1000 ∧
    read (.text (universalText ms)) = .record (parts (instant ms)) ∧
    (∀ offset : Int, offset.natAbs < 1440 → InCalendar (ms + offset * 60000) →
      read (.text (localText ms offset)) = .record (parts (instant ms))) ∧
    (read (.int ms) = .record (parts (instant ms)) ↔ shortfall ms < 1 / 2) ∧
    (¬ shortfall ms < 1 / 2 → read (.int ms) = .record (parts (instant (ms - 1)))) ∧
    (ms.natAbs ≤ 2 ^ 33 * 1000 ∨ 1000 ∣ ms → shortfall ms < 1 / 2) := by
  obtain ⟨hvalid, hseconds, hms⟩ := instant_spec h
  have hread := read_int h
  refine ⟨hvalid, hseconds, hms, read_universalText h,
    fun offset hoffset hlocal => read_localText h hlocal hoffset, ⟨?_, ?_⟩, ?_, ?_⟩
  · intro hsame
    by_contra hshort
    rw [hread, if_neg hshort, Value.record.injEq] at hsame
    exact parts_instant_ne ms hsame.symm
  · intro hclose
    rw [hread, if_pos hclose]
  · intro hshort
    rw [hread, if_neg hshort]
  · have hwhole : 1000 ∣ ms → shortfall ms < 1 / 2 := by
      intro hdvd
      rw [shortfall_eq_zero h hdvd]
      norm_num
    rintro (hnear | hdvd)
    · rcases hnear.lt_or_eq with hlt | heq
      · have hle := (abs_le.mp (abs_shortfall_le_of_lt h hlt)).2
        linarith
      · exact hwhole (by omega)
    · exact hwhole hdvd

/-- An instant of a day in June, written nine hours ahead. -/
theorem read_both_notations_ahead :
    read (.int 1718456308990) = read (.text "2024-06-15T21:58:28.990+09:00") ∧
      read (.text "2024-06-15T12:58:28.990Z") = read (.text "2024-06-15T21:58:28.990+09:00") := by
  have hcalendar : InCalendar 1718456308990 := by decide +kernel
  have hlocal : InCalendar (1718456308990 + 540 * 60000) := by decide +kernel
  have htext : localText 1718456308990 540 = "2024-06-15T21:58:28.990+09:00" := by decide +kernel
  have huniversal : universalText 1718456308990 = "2024-06-15T12:58:28.990Z" := by decide +kernel
  obtain ⟨-, -, -, hzulu, hzone, hnumber, -, hnear⟩ := read_both_notations hcalendar
  have hahead := hzone 540 (by decide) hlocal
  rw [htext] at hahead
  rw [huniversal] at hzulu
  rw [hahead]
  exact ⟨hnumber.mpr (hnear (Or.inl (by decide))), hzulu⟩

/-- A millisecond past a power of two of seconds, far ahead, is read as the second itself. -/
theorem not_read_both_notations_far :
    ¬ ∀ ms : Int, InCalendar ms → read (.int ms) = read (.text (universalText ms)) := by
  intro h
  have hcalendar : InCalendar 8589934592001 := by decide +kernel
  have hnumber : ofValue? (.int 8589934592001) = some ⟨⟨2242, 3, 16⟩, 12, 56, 32, 999⟩ := by
    decide +kernel
  have htext : instant 8589934592001 = ⟨⟨2242, 3, 16⟩, 12, 56, 32, 1000⟩ := by decide +kernel
  have hsame := h _ hcalendar
  rw [read_universalText hcalendar, htext, read, hnumber, Value.record.injEq] at hsame
  simp [parts] at hsame

end Timestamp

end Switchboard
