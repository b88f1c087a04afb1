import Switchboard.Proofs.Forms
import Switchboard.Proofs.JsonTexts
import Switchboard.Settings

/-!
# Settings in range

Settings that are read have ports and a capacity within their bounds, and what is done with the
settings and their file keeps them so. Settings in range can be written unless the capacity, which
has no upper bound, is past the digit limit.
-/
namespace Switchboard

namespace Check

theorem integerWithin_bounds {least n : Int} {most : Option Int} {v : Value}
    (h : integerWithin least most v = .ok n) : least ≤ n ∧ ∀ m ∈ most, n ≤ m := by
  obtain ⟨k, -, hk⟩ := andThen_eq_ok.mp h
  split at hk
  · cases hk
  · split at hk
    · cases hk
    · rename_i hleast hmost
      simp only [Check.ok.injEq] at hk
      subst hk
      refine ⟨by omega, ?_⟩
      rintro m hm
      rw [hm] at hmost
      simpa using hmost

/-- An integer within bounds is read as itself. -/
theorem integerWithin_int {least n : Int} {most : Option Int} (hleast : least ≤ n)
    (hmost : ∀ m ∈ most, n ≤ m) : integerWithin least most (.int n) = .ok n := by
  have hwithin : most.any (· < n) = false := by
    cases most with
    | none => rfl
    | some m => simpa using hmost m rfl
  simp [integerWithin, integer, andThen, hwithin, Int.not_lt.mpr hleast]

end Check

namespace Yaml

/-- The fields of a record can be written unless one of the values cannot. -/
theorem faults_readBackFields {room : Nat} {fields : List (String × Value)} :
    Faults (readBackFields room fields) ↔ ∃ f ∈ fields, Faults (readBackWithin room f.2) := by
  induction fields with
  | nil => simp [readBackFields]
  | cons f fields ih =>
    rw [readBackFields, faults_bind_bind_pure, ih]
    simp

end Yaml

namespace Settings

/-- The ports and the capacity are within their bounds. -/
structure InRange (s : Settings) : Prop where
  oscPort : 1024 ≤ s.oscPort ∧ s.oscPort ≤ 65535
  webPort : 1 ≤ s.webPort ∧ s.webPort ≤ 65535
  maxLogMessages : 1 ≤ s.maxLogMessages

theorem inRange_default : InRange {} := by constructor <;> decide

theorem inRange_of_read {r : Record Value} {s : Settings} (h : read r = .ok s) : s.InRange := by
  simp only [read, Check.seq_eq_ok, Check.map_eq_ok] at h
  obtain ⟨_, ⟨_, ⟨_, ⟨_, ⟨_, ⟨_, ⟨_, ⟨_, ⟨host, -, rfl⟩, port, hport, rfl⟩, enabled, -, rfl⟩,
    format, -, rfl⟩, webHost, -, rfl⟩, webPort, hweb, rfl⟩, capacity, hcapacity, rfl⟩,
    version, -, rfl⟩, updated, -, rfl⟩ := h
  have hrange : ∀ {wire plain : String} {least default n : Int} {most : Option Int},
      Check.optional r wire plain default (Check.integerWithin least most) = .ok n →
        (least ≤ default ∧ ∀ m ∈ most, default ≤ m) → least ≤ n ∧ ∀ m ∈ most, n ≤ m := by
    intro wire plain least default n most hn hdefault
    rcases Check.optional_eq_ok hn with rfl | ⟨v, hv⟩
    · exact hdefault
    · exact Check.integerWithin_bounds hv
  have hport := hrange hport (by simp)
  have hweb := hrange hweb (by simp)
  have hcapacity := hrange hcapacity (by simp)
  exact ⟨⟨hport.1, hport.2 _ rfl⟩, ⟨hweb.1, hweb.2 _ rfl⟩, hcapacity.1⟩

theorem inRange_of_ofRecord {r : Record Value} {s : Settings} (h : ofRecord r = .ok s) :
    s.InRange := inRange_of_read (Check.run_eq_ok.mp h)

theorem inRange_of_ofValue {v : Value} {s : Settings} (h : ofValue v = .ok s) : s.InRange := by
  unfold ofValue at h
  split at h
  · exact inRange_of_ofRecord h
  · split at h
    · exact inRange_of_ofRecord h
    · exact inRange_of_ofRecord h
    · cases h

theorem inRange_of_ofFile {f : File} {s : Settings} (h : ofFile f = .ok s) : s.InRange := by
  unfold ofFile at h
  split at h
  · rename_i s' hs
    obtain rfl := Except.ok.inj h
    cases hv : f.value with
    | error e => simp [hv, Except.bind] at hs
    | ok v => exact inRange_of_ofValue (by simpa [hv, Except.bind] using hs)
  · split at h
    · obtain rfl := Except.ok.inj h
      exact inRange_default
    · cases h

theorem inRange_of_update {s after : Settings} {changes : Record Value}
    (h : s.update changes = .ok after) : after.InRange := by
  unfold update at h
  split at h
  · cases h
  · exact inRange_of_ofRecord h

/-- A number within the bounds of a machine word has a text. -/
theorem not_isOverlong_of_lt {n : Int} (h : n.natAbs < 2 ^ 64) : ¬ IsOverlong n := by
  have hpow : 2 ^ 64 ≤ 10 ^ Number.digitLimit := by
    calc 2 ^ 64 ≤ 10 ^ 64 := Nat.pow_le_pow_left (by decide) _
      _ ≤ 10 ^ Number.digitLimit := Nat.pow_le_pow_right (by decide) (by decide)
  rw [IsOverlong]
  omega

namespace InRange

variable {s : Settings}

theorem not_isOverlong_oscPort (h : s.InRange) : ¬ IsOverlong s.oscPort := by
  obtain ⟨hleast, hmost⟩ := h.oscPort
  exact not_isOverlong_of_lt (by omega)

theorem not_isOverlong_webPort (h : s.InRange) : ¬ IsOverlong s.webPort := by
  obtain ⟨hleast, hmost⟩ := h.webPort
  exact not_isOverlong_of_lt (by omega)

theorem not_isOverlong_maxLogMessages (h : s.InRange) (hc : s.maxLogMessages < 2 ^ 63) :
    ¬ IsOverlong s.maxLogMessages := by
  have hleast := h.maxLogMessages
  exact not_isOverlong_of_lt (by omega)

/-- Settings in range can be written unless their capacity is past the digit limit. -/
theorem faults_readBack (h : s.InRange) :
    Faults (Yaml.readBack (.record s.toRecord)) ↔ IsOverlong s.maxLogMessages := by
  rw [Yaml.readBack, Yaml.nestingLimit, Value.levelLimit_three, Yaml.readBackWithin,
    faults_bind_pure, Yaml.faults_readBackFields]
  cases hu : s.lastUpdated <;>
    simp [toRecord, fields, Yaml.readBackWithin, faults_map, faults_intText,
      h.not_isOverlong_oscPort, h.not_isOverlong_webPort, hu]

/-- The same of their JSON, which has two levels. -/
theorem faults_writeWithin (h : s.InRange) (room : Nat) :
    Faults (Json.writeWithin (room + 2) (.record s.toRecord)) ↔ IsOverlong s.maxLogMessages := by
  cases hu : s.lastUpdated <;>
    simp [toRecord, fields, h.not_isOverlong_oscPort, h.not_isOverlong_webPort, hu]

theorem stamped (h : s.InRange) (updated : Option String) :
    InRange { s with lastUpdated := updated } := ⟨h.oscPort, h.webPort, h.maxLogMessages⟩

end InRange

end Settings

namespace SettingsFile

variable {s after : SettingsFile}

/-- The settings in use and their file, as they come to be: the settings start as the defaults and
are loaded, changed and saved, and the file may be written by others. -/
inductive Managed : SettingsFile → Prop
  | new (file : File) : Managed { file }
  | load {s after : SettingsFile} (before : Managed s) (loaded : s.load = .ok after) : Managed after
  | update {s after : SettingsFile} {changes : Record Value} (before : Managed s)
    (updated : s.update changes = .ok after) : Managed after
  | save {s : SettingsFile} (now : Int) (before : Managed s) : Managed (s.save now).1
  | file {s : SettingsFile} (file : File) (before : Managed s) : Managed { s with file }

theorem inRange_of_load (h : s.load = .ok after) : after.current.InRange := by
  unfold load at h
  cases hf : Settings.ofFile s.file with
  | error f => simp [hf, bind, Except.bind] at h
  | ok current =>
    simp only [hf, bind, Except.bind, pure, Except.pure, Except.ok.injEq] at h
    exact h ▸ Settings.inRange_of_ofFile hf

theorem inRange_of_update {changes : Record Value} (h : s.update changes = .ok after) :
    after.current.InRange := by
  unfold update at h
  cases hu : s.current.update changes with
  | error f => simp [hu, bind, Except.bind] at h
  | ok current =>
    simp only [hu, bind, Except.bind, pure, Except.pure, Except.ok.injEq] at h
    exact h ▸ Settings.inRange_of_update hu

/-- Saving changes nothing of the settings but the time of the last change. -/
theorem save_current (s : SettingsFile) (now : Int) :
    ∃ updated, (s.save now).1.current = { s.current with lastUpdated := updated } := by
  fun_cases save s now with
  | case1 => exact ⟨s.current.lastUpdated, rfl⟩
  | case2 | case3 => exact ⟨_, rfl⟩

theorem inRange_save (h : s.current.InRange) (now : Int) : (s.save now).1.current.InRange := by
  obtain ⟨updated, he⟩ := s.save_current now
  rw [he]
  exact h.stamped updated

theorem Managed.inRange (h : s.Managed) : s.current.InRange := by
  induction h with
  | new file => exact Settings.inRange_default
  | load _ loaded => exact inRange_of_load loaded
  | update _ updated => exact inRange_of_update updated
  | save now _ ih => exact inRange_save ih now
  | file file _ ih => exact ih

/-- Settings in range whose capacity fits a machine word are saved, or left unsaved without a
fault. -/
theorem not_faults_save (h : s.current.InRange) (hc : s.current.maxLogMessages < 2 ^ 63)
    (now : Int) : ¬ Faults (s.save now).2 := by
  unfold save
  split
  · exact not_faults_ok false
  · have hstamped := h.stamped (some (Calendar.instantText now))
    have hwritten := mt hstamped.faults_readBack.mp (hstamped.not_isOverlong_maxLogMessages hc)
    obtain ⟨document, hd⟩ := not_faults_iff.mp hwritten
    simp only [hd]
    exact not_faults_ok true

/-- They also have a JSON text. -/
theorem not_faults_writeWithin_save (h : s.current.InRange)
    (hc : s.current.maxLogMessages < 2 ^ 63) (now : Int) (room : Nat) :
    ¬ Faults (Json.writeWithin (room + 2) (.record (s.save now).1.current.toRecord)) := by
  obtain ⟨updated, he⟩ := s.save_current now
  have hstamped := h.stamped updated
  rw [he, hstamped.faults_writeWithin]
  exact hstamped.not_isOverlong_maxLogMessages hc

end SettingsFile

end Switchboard
