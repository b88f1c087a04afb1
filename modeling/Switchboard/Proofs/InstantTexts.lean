import Switchboard.Proofs.CalendarDays
import Switchboard.Proofs.WrittenNumbers
import Switchboard.Yaml.Stamp

/-!
# Texts of instants

A time is written as a date and a time of day on the clocks of a zone, down to the milliseconds and
with the zone. Whatever the zone is, the text is read back as the same instant, as long as the date
on these clocks is one that the calendar covers.
-/
namespace Switchboard

open Calendar Yaml.Stamp

namespace Calendar

/-- The time of day, down to the milliseconds. -/
def Moment.milliText (m : Moment) : String :=
  padded 2 m.hour ++ ":" ++ padded 2 m.minute ++ ":" ++ padded 2 m.second ++ "." ++
    padded 3 (m.microsecond / 1000)

/-- The text of a moment without a zone. -/
def Moment.text (m : Moment) : String := m.date.text ++ "T" ++ m.milliText

/-- The text of a time in milliseconds, on clocks that are some minutes ahead. -/
def localText (ms offset : Int) : String :=
  (instant (ms + offset * 60000)).text ++ offsetText offset

/-- The text of a time in milliseconds, in Universal Time. -/
def universalText (ms : Int) : String := (instant ms).text ++ "Z"

end Calendar

namespace Timestamp

/-! ## Digits -/

/-- Exactly so many digits, and the natural that they stand for. -/
structure Spells (width n : Nat) (cs : List Char) : Prop where
  length : cs.length = width
  digits : ∀ c ∈ cs, isDigitChar c = true
  value : Number.digitsValue cs = n

theorem isDigitChar_of_mem_padded {width n : Nat} {c : Char} (h : c ∈ (padded width n).toList) :
    isDigitChar c = true := by
  rw [padded, String.toList_ofList] at h
  exact (Json.areDigits_zeros _).append (Json.areDigits_toDigits n) c h

theorem spells_padded {width n : Nat} (hwidth : 0 < width) (h : n < 10 ^ width) :
    Spells width n (padded width n).toList where
  length := by
    have hlength := (Nat.length_toDigits_le_iff (b := 10) (by decide) hwidth).mpr h
    rw [padded, String.toList_ofList, List.length_append, List.length_replicate]
    omega
  digits _ := isDigitChar_of_mem_padded
  value := by
    rw [padded, String.toList_ofList, Json.digitsValue_append, Json.digitsValue_zeros,
      Json.digitsValue_toDigits, Nat.zero_mul, Nat.zero_add]

variable {width n : Nat} {cs : List Char}

theorem Spells.digits?_append (h : Spells width n cs) (rest : List Char) :
    digits? width (cs ++ rest) = some (n, rest) := by
  obtain ⟨rfl, hdigits, rfl⟩ := h
  simpa [digits?] using hdigits

theorem Spells.digits?_self (h : Spells width n cs) : digits? width cs = some (n, []) := by
  simpa using h.digits?_append []

@[simp] theorem charAt_nil (i : Nat) : charAt [] i = terminator := rfl

@[simp] theorem charAt_cons_zero (c : Char) (cs : List Char) : charAt (c :: cs) 0 = c := rfl

theorem charAt_append (cs rest : List Char) (i : Nat) :
    charAt (cs ++ rest) (cs.length + i) = charAt rest i := by
  simp only [charAt, List.getD_eq_getElem?_getD]
  rw [List.getElem?_append_right (Nat.le_add_right _ _), Nat.add_sub_cancel_left]

theorem ne_of_isDigitChar {c d : Char} (hc : isDigitChar c = true) (hd : isDigitChar d = false) :
    c ≠ d := by
  rintro rfl
  rw [hc] at hd
  cases hd

/-- What stands at the start of digits is none of the marks that a text is parted at. -/
theorem Spells.charAt_ne {mark : Char} (h : Spells (width + 1) n cs) (rest : List Char)
    (hmark : isDigitChar mark = false) : charAt (cs ++ rest) 0 ≠ mark := by
  obtain ⟨c, ds, rfl⟩ := List.exists_cons_of_length_eq_add_one h.length
  exact ne_of_isDigitChar (h.digits c List.mem_cons_self) hmark

/-! ## The parts of a text -/

variable {year month day hour minute second millisecond : Nat}
  {ys ms ds hs ns ss fs rest : List Char}

/-- The digits of a date with the dashes between them. -/
theorem date?_dashes (hy : Spells 4 year ys) (hm : Spells 2 month ms) (hd : Spells 2 day ds) :
    date? (ys ++ '-' :: (ms ++ '-' :: ds)) = some ⟨year, month, day⟩ := by
  have hweek : charAt (ms ++ '-' :: ds) 0 ≠ 'W' := hm.charAt_ne _ (by decide)
  simp [date?, dash?, hy.digits?_append, hm.digits?_append, hd.digits?_self, hweek]

theorem dateLength_dashes (hy : Spells 4 year ys) (hm : Spells 2 month ms) :
    dateLength (ys ++ '-' :: (ms ++ '-' :: rest)) = 10 := by
  have hdash : charAt (ys ++ '-' :: (ms ++ '-' :: rest)) 4 = '-' := by
    have h := charAt_append ys ('-' :: (ms ++ '-' :: rest)) 0
    rwa [hy.length] at h
  have hweek : charAt (ys ++ '-' :: (ms ++ '-' :: rest)) 5 ≠ 'W' := by
    have h := charAt_append ys ('-' :: (ms ++ '-' :: rest)) 1
    rw [hy.length] at h
    rw [h]
    exact hm.charAt_ne ('-' :: rest) (by decide)
  have hlength : (ys ++ '-' :: (ms ++ '-' :: rest)).length ≠ 7 := by
    simp only [List.length_append, List.length_cons, hy.length, hm.length]
    omega
  simp only [dateLength, hdash, hweek, hlength, if_true, if_false]

theorem readClock?_zone (hh : Spells 2 hour hs) (hn : Spells 2 minute ns) :
    readClock? (hs ++ ':' :: ns) 5 = some ({ hour, minute }, false) := by
  simp [readClock?, clock?, hh.digits?_append, hn.digits?_self]

theorem readClock?_millis (hh : Spells 2 hour hs) (hn : Spells 2 minute ns)
    (hs' : Spells 2 second ss) (hf : Spells 3 millisecond fs) {mark : Char}
    (hmark : isDigitChar mark = false) (rest : List Char) :
    readClock? (hs ++ ':' :: (ns ++ ':' :: (ss ++ '.' :: (fs ++ mark :: rest)))) 12 =
      some (⟨hour, minute, second, millisecond * 1000⟩, mark != terminator) := by
  simp [readClock?, clock?, fraction?, hh.digits?_append, hn.digits?_append, hs'.digits?_append,
    hf.digits?_append, hmark]

theorem startsZone_of_isDigitChar {c : Char} (h : isDigitChar c = true) : startsZone c = false := by
  have hplus := ne_of_isDigitChar h (d := '+') (by decide)
  have hminus := ne_of_isDigitChar h (d := '-') (by decide)
  have hzulu := ne_of_isDigitChar h (d := 'Z') (by decide)
  simp [startsZone, hplus, hminus, hzulu]

/-- A time of day ends where a zone of hours and minutes starts. -/
theorem timeAndZone?_zone {time zone : List Char} {sign : Char} {c : Clock} {more : Bool}
    (hstarts : ∀ c ∈ time, startsZone c = false)
    (hsign : sign = '-' ∨ sign = '+')
    (hclock : readClock? (time ++ sign :: zone) time.length = some (c, more))
    (hzone : readClock? zone zone.length = some ({ hour, minute }, false))
    (hlt : hour * 60 + minute < 1440) :
    timeAndZone? (time ++ sign :: zone) =
      some (c, (if sign = '-' then -1 else 1) * ((hour * 60 + minute : Nat) * 60000000 : Int)) := by
  have hsize : ((time ++ sign :: zone).takeWhile fun c => !startsZone c) = time := by
    rw [List.takeWhile_append_of_pos (by simpa using hstarts)]
    rcases hsign with rfl | rfl <;> simp [startsZone]
  have hnonempty : (time ++ sign :: zone).isEmpty = false := by simp
  have hmicros : (if hour * 3600 + minute * 60 + 0 = 0 then (0 : Int)
      else (hour * 3600 + minute * 60 + 0 : Nat) * 1000000 + (0 : Nat)) =
        (hour * 60 + minute : Nat) * 60000000 := by
    split <;> omega
  have hday : ¬ microsPerDay ≤ ((hour * 60 + minute : Nat) * 60000000 : Int) := by
    unfold microsPerDay
    omega
  unfold timeAndZone?
  simp only [hnonempty, hsize, hclock, List.drop_left, Option.bind_eq_bind, Option.bind_some,
    Bool.false_eq_true, if_false]
  rcases hsign with rfl | rfl
  · change (readClock? zone zone.length).bind _ = _
    rw [hzone, Option.bind_some]
    dsimp only
    rw [hmicros, if_neg hday]
    simp
  · change (readClock? zone zone.length).bind _ = _
    rw [hzone, Option.bind_some]
    dsimp only
    rw [hmicros, if_neg hday]
    simp

/-- The sign of a zone. -/
def signChar (offset : Int) : Char := if offset < 0 then '-' else '+'

theorem timeAndZone?_millis {offset : Int} (hoffset : offset.natAbs < 1440) {zhs zns : List Char}
    (hh : Spells 2 hour hs) (hn : Spells 2 minute ns) (hs' : Spells 2 second ss)
    (hf : Spells 3 millisecond fs) (hzh : Spells 2 (offset.natAbs / 60) zhs)
    (hzn : Spells 2 (offset.natAbs % 60) zns) :
    timeAndZone? (hs ++ ':' :: (ns ++ ':' :: (ss ++ '.' ::
        (fs ++ signChar offset :: (zhs ++ ':' :: zns))))) =
      some (⟨hour, minute, second, millisecond * 1000⟩, offset * 60000000) := by
  have hsign : (signChar offset = '-' ∨ signChar offset = '+') ∧
      (if signChar offset = '-' then -1 else 1) * (offset.natAbs : Int) = offset := by
    unfold signChar
    by_cases h : offset < 0
    · rw [if_pos h, if_pos rfl]
      exact ⟨Or.inl rfl, by omega⟩
    · rw [if_neg h, if_neg (by decide)]
      exact ⟨Or.inr rfl, by omega⟩
  have hmark : isDigitChar (signChar offset) = false := by
    rcases hsign.1 with h | h <;> rw [h] <;> decide
  have hstarts : ∀ c ∈ hs ++ ':' :: (ns ++ ':' :: (ss ++ '.' :: fs)), startsZone c = false := by
    have hcolon : startsZone ':' = false := by decide
    have hpoint : startsZone '.' = false := by decide
    intro c hc
    simp only [List.mem_append, List.mem_cons] at hc
    rcases hc with hc | rfl | hc | rfl | hc | rfl | hc
    · exact startsZone_of_isDigitChar (hh.digits c hc)
    · exact hcolon
    · exact startsZone_of_isDigitChar (hn.digits c hc)
    · exact hcolon
    · exact startsZone_of_isDigitChar (hs'.digits c hc)
    · exact hpoint
    · exact startsZone_of_isDigitChar (hf.digits c hc)
  have hsplit (rest : List Char) : hs ++ ':' :: (ns ++ ':' :: (ss ++ '.' :: (fs ++ rest))) =
      (hs ++ ':' :: (ns ++ ':' :: (ss ++ '.' :: fs))) ++ rest := by simp
  have htime : (hs ++ ':' :: (ns ++ ':' :: (ss ++ '.' :: fs))).length = 12 := by
    simp [hh.length, hn.length, hs'.length, hf.length]
  have hzone : (zhs ++ ':' :: zns).length = 5 := by simp [hzh.length, hzn.length]
  have hclock := readClock?_millis hh hn hs' hf hmark (zhs ++ ':' :: zns)
  have hzoneClock := readClock?_zone hzh hzn
  rw [hsplit, ← htime] at hclock
  rw [← hzone] at hzoneClock
  rw [hsplit, timeAndZone?_zone hstarts hsign.1 hclock hzoneClock (by omega),
    Nat.div_add_mod' offset.natAbs 60, ← Int.mul_assoc, hsign.2]

theorem toList_dateText (d : Date) : d.text.toList = (padded 4 d.year.toNat).toList ++ '-' ::
    ((padded 2 d.month).toList ++ '-' :: (padded 2 d.day).toList) := by
  simp [Date.text]

theorem toList_milliText (m : Moment) : m.milliText.toList = (padded 2 m.hour).toList ++ ':' ::
    ((padded 2 m.minute).toList ++ ':' :: ((padded 2 m.second).toList ++ '.' ::
      (padded 3 (m.microsecond / 1000)).toList)) := by
  simp [Moment.milliText]

theorem toList_offsetText (offset : Int) : (offsetText offset).toList = signChar offset ::
    ((padded 2 (offset.natAbs / 60)).toList ++ ':' :: (padded 2 (offset.natAbs % 60)).toList) := by
  unfold offsetText signChar
  split <;> simp

/-- The text of a date has ten characters and is read back. -/
theorem read_dateText {d : Date} (h : d.isValid = true) (rest : List Char) :
    d.text.toList.length = 10 ∧ dateLength (d.text.toList ++ rest) = 10 ∧
      date? d.text.toList = some d := by
  simp only [Date.isValid, isYear, Bool.and_eq_true, decide_eq_true_eq] at h
  have hlast := daysInMonth_le d.year d.month
  have hy : Spells 4 d.year.toNat (padded 4 d.year.toNat).toList :=
    spells_padded (by decide) (by omega)
  have hm : Spells 2 d.month (padded 2 d.month).toList := spells_padded (by decide) (by omega)
  have hd : Spells 2 d.day (padded 2 d.day).toList := spells_padded (by decide) (by omega)
  have hyear : (d.year.toNat : Int) = d.year := by omega
  rw [toList_dateText]
  refine ⟨?_, ?_, ?_⟩
  · simp [hy.length, hm.length, hd.length]
  · rw [List.append_assoc, List.cons_append, List.append_assoc, List.cons_append]
    exact dateLength_dashes hy hm
  · rw [date?_dashes hy hm hd, hyear]

theorem read_milliText {m : Moment} {offset : Int} (h : m.isValid = true)
    (hmicros : 1000 ∣ m.microsecond) (hoffset : offset.natAbs < 1440) :
    timeAndZone? (m.milliText.toList ++ (offsetText offset).toList) =
      some (⟨m.hour, m.minute, m.second, m.microsecond⟩, offset * 60000000) := by
  simp only [Moment.isValid, Bool.and_eq_true, decide_eq_true_eq] at h
  obtain ⟨k, hk⟩ := hmicros
  have hfraction : m.microsecond / 1000 * 1000 = m.microsecond := by omega
  rw [toList_milliText, toList_offsetText]
  simp only [List.append_assoc, List.cons_append]
  rw [timeAndZone?_millis hoffset (spells_padded (by decide) (by omega))
    (spells_padded (by decide) (by omega)) (spells_padded (by decide) (by omega))
    (spells_padded (by decide) (by omega)) (spells_padded (by decide) (by omega))
    (spells_padded (by decide) (by omega)), hfraction]

/-- A date and a time of day with a zone stand for the instant that is so far away from them. -/
theorem ofText?_millis {m : Moment} {offset : Int} (hvalid : m.isValid = true)
    (hmicros : 1000 ∣ m.microsecond) (hoffset : offset.natAbs < 1440)
    (hyear : isYear (ofMicros (m.micros - offset * 60000000)).date.year = true) :
    ofText? (m.text ++ offsetText offset) = some (ofMicros (m.micros - offset * 60000000)) := by
  have hdate : m.date.isValid = true := by
    simp only [Moment.isValid, Bool.and_eq_true] at hvalid
    exact hvalid.1.1.1.1
  have htext : (m.text ++ offsetText offset).toList =
      m.date.text.toList ++ 'T' :: (m.milliText.toList ++ (offsetText offset).toList) := by
    simp [Moment.text]
  obtain ⟨hlength, hdateLength, hread⟩ := read_dateText hdate
    ('T' :: (m.milliText.toList ++ (offsetText offset).toList))
  have htime := read_milliText hvalid hmicros hoffset
  have htake : (m.text ++ offsetText offset).toList.take 10 = m.date.text.toList := by
    rw [htext, ← hlength, List.take_left]
  have hdrop : (m.text ++ offsetText offset).toList.drop 11 =
      m.milliText.toList ++ (offsetText offset).toList := by
    have hdate : m.date.text.toList.drop 11 = [] := List.drop_eq_nil_of_le (by omega)
    rw [htext, List.drop_append, hdate, hlength]
    simp
  have hlong : 10 < (m.text ++ offsetText offset).toList.length := by
    rw [htext, List.length_append, hlength]
    simp
  rw [← htext] at hdateLength
  have hwhole : (⟨m.date, m.hour, m.minute, m.second, m.microsecond⟩ : Moment) = m := rfl
  have hseven : ¬ (m.text ++ offsetText offset).toList.length < 7 := by omega
  unfold ofText?
  simp only [hdateLength, hseven, htake, hdrop, hread, htime, not_le.mpr hlong, if_false,
    Option.bind_eq_bind, Option.bind_some, hwhole, hvalid, hyear, Bool.not_true, Bool.false_eq_true,
    if_true]
  rfl

/-! ## Zones -/

theorem spellZones_append (s t : String) : spellZones (s ++ t) = spellZones s ++ spellZones t := by
  simp [spellZones]

/-- A text without a `Z` names its zone by its distance already. -/
theorem spellZones_eq_self {s : String} (h : 'Z' ∉ s.toList) : spellZones s = s := by
  have hone : ∀ c ∈ s.toList, (if c = 'Z' then "+00:00".toList else [c]) = [c] := by
    intro c hc
    have hne : c ≠ 'Z' := fun he => h (he ▸ hc)
    exact if_neg hne
  rw [spellZones, List.flatMap_congr hone, List.flatMap_singleton', String.ofList_toList]

theorem notMem_padded (width n : Nat) : 'Z' ∉ (padded width n).toList := by
  intro h
  cases isDigitChar_of_mem_padded h

theorem notMem_text (m : Moment) : 'Z' ∉ m.text.toList := by
  simp [Moment.text, toList_dateText, toList_milliText, notMem_padded]

theorem notMem_offsetText (offset : Int) : 'Z' ∉ (offsetText offset).toList := by
  have hsign : 'Z' ≠ signChar offset := by
    unfold signChar
    split <;> decide
  simp [toList_offsetText, notMem_padded, hsign]

theorem spellZones_localText (ms offset : Int) :
    spellZones (localText ms offset) = localText ms offset := by
  apply spellZones_eq_self
  simp [localText, notMem_text, notMem_offsetText]

theorem spellZones_universalText (ms : Int) : spellZones (universalText ms) = localText ms 0 := by
  have hzone : spellZones "Z" = offsetText 0 := by decide +kernel
  rw [universalText, spellZones_append, hzone, spellZones_eq_self (notMem_text _), localText]
  simp

/-- On the clocks of any zone, the text of a time stands for that time. -/
theorem ofText?_localText {ms offset : Int} (hms : InCalendar ms)
    (hlocal : InCalendar (ms + offset * 60000)) (hoffset : offset.natAbs < 1440) :
    ofText? (localText ms offset) = some (instant ms) := by
  have hmicros : (instant (ms + offset * 60000)).micros - offset * 60000000 = ms * 1000 := by
    rw [instant, micros_ofMicros]
    ring
  have hthousand : 1000 ∣ (instant (ms + offset * 60000)).microsecond := by
    simp only [instant, ofMicros, microsPerDay]
    omega
  have hyear := (isYear_instant ms).mpr hms
  rw [localText, ofText?_millis (instant_spec hlocal).1 hthousand hoffset]
  · rw [hmicros, instant]
  · rwa [hmicros]

theorem localText_ne_empty (ms offset : Int) : localText ms offset ≠ "" := by
  intro h
  have hlist := congrArg String.toList h
  simp [localText, toList_offsetText] at hlist

theorem read_localText {ms offset : Int} (hms : InCalendar ms)
    (hlocal : InCalendar (ms + offset * 60000)) (hoffset : offset.natAbs < 1440) :
    read (.text (localText ms offset)) = .record (parts (instant ms)) := by
  rw [read, ofValue?, if_neg (localText_ne_empty ms offset), spellZones_localText,
    ofText?_localText hms hlocal hoffset]

theorem read_universalText {ms : Int} (hms : InCalendar ms) :
    read (.text (universalText ms)) = .record (parts (instant ms)) := by
  have hne : universalText ms ≠ "" := by
    intro h
    have hlist := congrArg String.toList h
    simp [universalText] at hlist
  rw [read, ofValue?, if_neg hne, spellZones_universalText,
    ofText?_localText hms (by simpa using hms) (by decide)]

end Timestamp

end Switchboard
