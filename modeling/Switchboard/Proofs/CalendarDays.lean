import Mathlib.Tactic.Ring
import Switchboard.Timestamp

/-!
# Days and instants

The date of a day has the number of the day, and it is a day of its month. So a moment is found
again from its place in time, and the years that the calendar covers are an interval of days. A time
is given in milliseconds, and the parts of a moment do not look below them.
-/
namespace Switchboard.Calendar

/-! ## Months -/

theorem daysBeforeMonth_succ (year : Int) {month : Nat} (h : 1 ≤ month) :
    daysBeforeMonth year (month + 1) = daysBeforeMonth year month + daysInMonth year month := by
  obtain ⟨m, rfl⟩ := Nat.exists_eq_add_of_le' h
  simp [daysBeforeMonth, List.range'_concat, Nat.add_comm 1 m]

theorem daysInMonth_le (year : Int) (month : Nat) : daysInMonth year month ≤ 31 := by
  unfold daysInMonth
  repeat' split
  all_goals decide

def daysInYear (year : Int) : Nat := if isLeap year then 366 else 365

theorem daysBeforeMonth_end (year : Int) : daysBeforeMonth year 13 = daysInYear year := by
  cases h : isLeap year <;> simp [daysBeforeMonth, daysInYear, daysInMonth, List.range', h]

/-- A day that is passed on to the last month at the latest is found in its month. -/
theorem monthAndDay_spec (year : Int) {n month : Nat} (hmonth : 1 ≤ month) (hn : month + n = 12)
    (day : Nat) (hday : daysBeforeMonth year month + day < daysInYear year) :
    let (m, d) := monthAndDay year n month day
    daysBeforeMonth year m + d = daysBeforeMonth year month + day + 1 ∧
      1 ≤ m ∧ m ≤ 12 ∧ 1 ≤ d ∧ d ≤ daysInMonth year m := by
  induction n generalizing month day with
  | zero =>
    obtain rfl : month = 12 := hn
    have hlast := daysBeforeMonth_succ year hmonth
    rw [daysBeforeMonth_end] at hlast
    refine ⟨rfl, hmonth, le_rfl, Nat.succ_pos day, ?_⟩
    omega
  | succ n ih =>
    unfold monthAndDay
    dsimp only
    by_cases hin : day < daysInMonth year month
    · rw [if_pos hin]
      exact ⟨rfl, hmonth, by omega, Nat.succ_pos day, hin⟩
    · rw [if_neg hin]
      have hnext := daysBeforeMonth_succ year hmonth
      have hspec := @ih (month + 1) (by omega) (by omega) (day - daysInMonth year month)
        (by omega)
      dsimp only at hspec ⊢
      exact ⟨by omega, hspec.2⟩

/-! ## Years -/

/-- The days before a year, by the cycles of 400, 100, 4 and 1 years before it. -/
theorem daysBeforeYear_cycles {c b f a : Int} (hb : 0 ≤ b ∧ b ≤ 3) (hf : 0 ≤ f ∧ f ≤ 24)
    (ha : 0 ≤ a ∧ a ≤ 3) :
    daysBeforeYear (c * 400 + b * 100 + f * 4 + a + 1) =
      c * 146097 + b * 36524 + f * 1461 + a * 365 := by
  have hfours : (c * 400 + b * 100 + f * 4 + a) / 4 = c * 100 + b * 25 + f := by omega
  have hcenturies : (c * 400 + b * 100 + f * 4 + a) / 100 = c * 4 + b := by omega
  have hcycles : (c * 400 + b * 100 + f * 4 + a) / 400 = c := by omega
  unfold daysBeforeYear
  dsimp only
  rw [Int.add_sub_cancel, hfours, hcenturies, hcycles]
  ring

/-- The last year of a cycle is a leap year, where that cycle is not cut short by a longer one. -/
theorem isLeap_cycles {c b f a : Int} (hb : 0 ≤ b ∧ b ≤ 3) (hf : 0 ≤ f ∧ f ≤ 24)
    (ha : 0 ≤ a ∧ a ≤ 3) :
    isLeap (c * 400 + b * 100 + f * 4 + a + 1) = true ↔ a = 3 ∧ (f = 24 → b = 3) := by
  simp only [isLeap, Bool.and_eq_true, Bool.or_eq_true, decide_eq_true_eq, bne_iff_ne]
  omega

theorem daysBeforeYear_succ (year : Int) :
    daysBeforeYear (year + 1) = daysBeforeYear year + daysInYear year := by
  unfold daysBeforeYear daysInYear
  dsimp only
  split
  · rename_i h
    simp only [isLeap, Bool.and_eq_true, Bool.or_eq_true, decide_eq_true_eq, bne_iff_ne] at h
    omega
  · rename_i h
    simp only [isLeap, Bool.and_eq_true, Bool.or_eq_true, decide_eq_true_eq, bne_iff_ne] at h
    omega

theorem daysBeforeYear_mono {year later : Int} (h : year ≤ later) :
    daysBeforeYear year ≤ daysBeforeYear later := by
  unfold daysBeforeYear
  dsimp only
  omega

/-- The year of a day, with the place of the day in it. -/
theorem ofNumber_year (number : Int) : ∃ inYear : Nat,
    (ofNumber number).month = (monthAndDay (ofNumber number).year 11 1 inYear).1 ∧
    (ofNumber number).day = (monthAndDay (ofNumber number).year 11 1 inYear).2 ∧
    daysBeforeYear (ofNumber number).year + inYear = number + epochDay ∧
    inYear < daysInYear (ofNumber number).year := by
  refine ⟨_, rfl, rfl, ?_⟩
  simp only [ofNumber]
  generalize number + epochDay = n
  generalize hr : n % 146097 = r
  generalize hb : min (r / 36524) 3 = b
  generalize hi : r - b * 36524 = i
  generalize ha : min (i % 1461 / 365) 3 = a
  have hrange : 0 ≤ r ∧ r < 146097 := by omega
  have hcentury : 0 ≤ b ∧ b ≤ 3 := by omega
  have hin : 0 ≤ i ∧ i ≤ 36524 ∧ (i = 36524 → b = 3) := by omega
  have hfour : 0 ≤ i / 1461 ∧ i / 1461 ≤ 24 := by omega
  have hyear : 0 ≤ a ∧ a ≤ 3 := by omega
  have hday : 0 ≤ i % 1461 - a * 365 ∧
      (i % 1461 - a * 365 < 365 ∨ i % 1461 - a * 365 = 365 ∧ a = 3 ∧ i % 1461 = 1460) := by omega
  constructor
  · rw [daysBeforeYear_cycles hcentury hfour hyear]
    omega
  · unfold daysInYear
    split
    · omega
    · rename_i hleap
      rw [isLeap_cycles hcentury hfour hyear] at hleap
      omega

theorem ofNumber_spec (number : Int) :
    (ofNumber number).number = number ∧ 1 ≤ (ofNumber number).month ∧
      (ofNumber number).month ≤ 12 ∧ 1 ≤ (ofNumber number).day ∧
      (ofNumber number).day ≤ daysInMonth (ofNumber number).year (ofNumber number).month := by
  obtain ⟨inYear, hmonth, hday, hyear, hlt⟩ := ofNumber_year number
  have hspec := monthAndDay_spec (ofNumber number).year (n := 11) le_rfl rfl inYear (by
    simpa [daysBeforeMonth] using hlt)
  dsimp only at hspec
  rw [← hmonth, ← hday] at hspec
  have hfirst : daysBeforeMonth (ofNumber number).year 1 = 0 := rfl
  refine ⟨?_, hspec.2⟩
  unfold Date.number
  omega

theorem number_ofNumber (number : Int) : (ofNumber number).number = number :=
  (ofNumber_spec number).1

theorem isValid_ofNumber (number : Int) :
    (ofNumber number).isValid = isYear (ofNumber number).year := by
  obtain ⟨-, hmonth, hmonth', hday, hday'⟩ := ofNumber_spec number
  simp [Date.isValid, hmonth, hmonth', hday, hday']

/-- The days of the years that the calendar covers. -/
theorem isYear_ofNumber (number : Int) : isYear (ofNumber number).year = true ↔
    (⟨1, 1, 1⟩ : Date).number ≤ number ∧ number ≤ (⟨9999, 12, 31⟩ : Date).number := by
  have hfirst : (⟨1, 1, 1⟩ : Date).number = daysBeforeYear 1 - epochDay := by decide +kernel
  have hlast : (⟨9999, 12, 31⟩ : Date).number = daysBeforeYear 10000 - 1 - epochDay := by
    decide +kernel
  obtain ⟨inYear, -, -, hyear, hlt⟩ := ofNumber_year number
  have hnext := daysBeforeYear_succ (ofNumber number).year
  rw [hfirst, hlast, isYear, Bool.and_eq_true, decide_eq_true_eq, decide_eq_true_eq]
  constructor
  · rintro ⟨hlow, hhigh⟩
    have hstart : daysBeforeYear 1 ≤ daysBeforeYear (ofNumber number).year :=
      daysBeforeYear_mono hlow
    have hend : daysBeforeYear ((ofNumber number).year + 1) ≤ daysBeforeYear 10000 :=
      daysBeforeYear_mono (by omega)
    omega
  · rintro ⟨hlow, hhigh⟩
    constructor
    · by_contra hyear
      have hend : daysBeforeYear ((ofNumber number).year + 1) ≤ daysBeforeYear 1 :=
        daysBeforeYear_mono (by omega)
      omega
    · by_contra hyear
      have hstart : daysBeforeYear 10000 ≤ daysBeforeYear (ofNumber number).year :=
        daysBeforeYear_mono (by omega)
      omega

/-! ## Moments -/

theorem micros_ofMicros (t : Int) : (ofMicros t).micros = t := by
  simp only [Moment.micros, ofMicros, number_ofNumber, microsPerDay]
  omega

theorem isValid_ofMicros (t : Int) : (ofMicros t).isValid = isYear (ofMicros t).date.year := by
  have hdate : (ofMicros t).date.isValid = isYear (ofMicros t).date.year := isValid_ofNumber _
  have hhour : (ofMicros t).hour < 24 := by
    simp only [ofMicros, microsPerDay]
    omega
  have hminute : (ofMicros t).minute < 60 := Nat.mod_lt _ (by decide)
  have hsecond : (ofMicros t).second < 60 := Nat.mod_lt _ (by decide)
  have hmicrosecond : (ofMicros t).microsecond < 1000000 := Nat.mod_lt _ (by decide)
  simp [Moment.isValid, hdate, hhour, hminute, hsecond, hmicrosecond]

/-- The moment of a time in milliseconds. -/
def instant (ms : Int) : Moment := ofMicros (ms * 1000)

/-- The time lies in the years that the calendar covers. -/
def InCalendar (ms : Int) : Prop :=
  (⟨1, 1, 1⟩ : Date).number * 86400000 ≤ ms ∧ ms < ((⟨9999, 12, 31⟩ : Date).number + 1) * 86400000

instance : DecidablePred InCalendar := fun _ => inferInstanceAs (Decidable (_ ∧ _))

theorem isYear_instant (ms : Int) : isYear (instant ms).date.year = true ↔ InCalendar ms := by
  rw [instant, ofMicros, isYear_ofNumber, InCalendar, microsPerDay]
  omega

theorem inCalendar_iff {ms : Int} :
    InCalendar ms ↔ -719162 * 86400000 ≤ ms ∧ ms < 2932897 * 86400000 := by
  have hfirst : (⟨1, 1, 1⟩ : Date).number = -719162 := by decide +kernel
  have hlast : (⟨9999, 12, 31⟩ : Date).number = 2932896 := by decide +kernel
  rw [InCalendar, hfirst, hlast]
  rfl

/-- The time of day and the day of a time in milliseconds. -/
theorem instant_spec {ms : Int} (h : InCalendar ms) :
    (instant ms).isValid = true ∧
    (instant ms).date.number * 86400 +
        (((instant ms).hour * 60 + (instant ms).minute) * 60 + (instant ms).second : Nat) =
      ms / 1000 ∧
    ((instant ms).microsecond / 1000 : Nat) = ms % 1000 := by
  refine ⟨(isValid_ofMicros _).trans ((isYear_instant ms).mpr h), ?_, ?_⟩
  · simp only [instant, ofMicros, number_ofNumber, microsPerDay]
    omega
  · simp only [instant, ofMicros, microsPerDay]
    omega

theorem date_ofMicros (t : Int) : (ofMicros t).date = (instant (t / 1000)).date := by
  simp only [instant, ofMicros, microsPerDay]
  congr 1
  omega

/-- The parts of a moment are those of the last whole millisecond. -/
theorem parts_ofMicros (t : Int) :
    Timestamp.parts (ofMicros t) = Timestamp.parts (instant (t / 1000)) := by
  have hhour : (ofMicros t).hour = (instant (t / 1000)).hour := by
    simp only [instant, ofMicros, microsPerDay]
    omega
  have hminute : (ofMicros t).minute = (instant (t / 1000)).minute := by
    simp only [instant, ofMicros, microsPerDay]
    omega
  have hsecond : (ofMicros t).second = (instant (t / 1000)).second := by
    simp only [instant, ofMicros, microsPerDay]
    omega
  have hms : (ofMicros t).microsecond / 1000 = (instant (t / 1000)).microsecond / 1000 := by
    simp only [instant, ofMicros, microsPerDay]
    omega
  simp only [Timestamp.parts, date_ofMicros, hhour, hminute, hsecond, hms]

end Switchboard.Calendar
