import Mathlib.Data.List.Induction
import Switchboard.Proofs.SettingsRange

/-!
# Changes of settings

The settings are nine. Each is read by its own check from what is given under either of its names,
and a setting in range is read from its own text as it is. So an update sets each setting that is
named to what the last of its changes is read as, and leaves the others, and what a save wrote is
read again as the settings in use.
-/
namespace Switchboard

/-- One of the settings: its names, how it is read and written, and where it stands. -/
structure Setting where
  Carrier : Type
  wire : String
  plain : String
  read : Value → Check Carrier
  write : Carrier → Value
  get : Settings → Carrier

namespace Setting

def text (wire plain : String) (get : Settings → String) : Setting :=
  ⟨String, wire, plain, Check.text, .text, get⟩

def integer (wire plain : String) (least : Int) (most : Option Int) (get : Settings → Int) :
    Setting :=
  ⟨Int, wire, plain, Check.integerWithin least most, .int, get⟩

def all : List Setting :=
  [text "oscHost" "osc_host" Settings.oscHost,
   integer "oscPort" "osc_port" 1024 (some 65535) Settings.oscPort,
   ⟨Bool, "enableDefaultEndpoints", "enable_default_endpoints", Check.flag, .bool,
    Settings.enableDefaultEndpoints⟩,
   ⟨Osc.Format, "oscMessageFormat", "osc_message_format", Settings.readFormat,
    fun f => .text f.name, Settings.oscMessageFormat⟩,
   text "webHost" "web_host" Settings.webHost,
   integer "webPort" "web_port" 1 (some 65535) Settings.webPort,
   integer "maxLogMessages" "max_log_messages" 1 none Settings.maxLogMessages,
   text "version" "version" Settings.version,
   ⟨Option String, "lastUpdated", "last_updated", Check.textOrNull,
    fun u => (u.map Value.text).getD .null, Settings.lastUpdated⟩]

/-- Whether a key is one of the two names of the setting. -/
def named (f : Setting) (key : String) : Bool := f.wire = key || f.plain = key

/-- What the last of the changes that name the setting gives it. -/
def given (f : Setting) (changes : Record Value) : Option Value :=
  (changes.filter fun c => f.named c.1).getLast?.map Prod.snd

/-- The setting after some changes: what is given to it is read as it, and without that it is as it
was. -/
def Settles (f : Setting) (changes : Record Value) (before after : Settings) : Prop :=
  match f.given changes with
  | some v => f.read v = .ok (f.get after)
  | none => f.get after = f.get before

/-- Reads the setting of a record; what is not given has its default. -/
def ofRecord (f : Setting) (r : Record Value) : Check f.Carrier :=
  Check.optional r f.wire f.plain (f.get {}) f.read

variable {f g : Setting} {s t : Settings} {changes : Record Value}

theorem given_append (f : Setting) (changes : Record Value) (c : String × Value) :
    f.given (changes ++ [c]) = if f.named c.1 then some c.2 else f.given changes := by
  unfold given
  rw [List.filter_append]
  cases h : f.named c.1 <;> simp [h]

theorem named_wire (f : Setting) : f.named f.wire := by simp [named]

theorem named_plain (f : Setting) : f.named f.plain := by simp [named]

/-- No name is that of two settings. -/
theorem names_eq_of_named (hf : f ∈ all) (hg : g ∈ all) {key : String} (hfkey : f.named key)
    (hgkey : g.named key) : f.wire = g.wire ∧ f.plain = g.plain := by
  have hnames : ∀ m ∈ all.map fun f => (f.wire, f.plain), ∀ n ∈ all.map fun f => (f.wire, f.plain),
      m.1 = n.1 ∨ m.1 = n.2 ∨ m.2 = n.1 ∨ m.2 = n.2 → m = n := by decide +kernel
  apply Prod.mk.inj
  apply hnames _ (List.mem_map_of_mem hf) _ (List.mem_map_of_mem hg)
  simp only [named, Bool.or_eq_true, decide_eq_true_eq] at hfkey hgkey
  rcases hfkey with rfl | rfl <;> rcases hgkey with h | h <;> simp [h]

/-- A setting in range is read from its own text as it is. -/
theorem read_write (hf : f ∈ all) (h : s.InRange) : f.read (f.write (f.get s)) = .ok (f.get s) := by
  have hformat : Settings.readFormat (.text s.oscMessageFormat.name) = .ok s.oscMessageFormat := by
    simp [Settings.readFormat, Value.text?]
  have hupdated : Check.textOrNull ((s.lastUpdated.map Value.text).getD .null) =
      .ok s.lastUpdated := by
    cases s.lastUpdated <;> rfl
  have hport : Check.integerWithin 1024 (some 65535) (.int s.oscPort) = .ok s.oscPort :=
    Check.integerWithin_int h.oscPort.1 (by simpa using h.oscPort.2)
  have hweb : Check.integerWithin 1 (some 65535) (.int s.webPort) = .ok s.webPort :=
    Check.integerWithin_int h.webPort.1 (by simpa using h.webPort.2)
  have hcapacity : Check.integerWithin 1 none (.int s.maxLogMessages) = .ok s.maxLogMessages :=
    Check.integerWithin_int h.maxLogMessages (by simp)
  have hevery : ∀ f ∈ all, f.read (f.write (f.get s)) = .ok (f.get s) := by
    simp only [all, List.forall_mem_cons]
    exact ⟨rfl, hport, rfl, hformat, rfl, hweb, hcapacity, rfl, hupdated,
      List.forall_mem_nil _⟩
  exact hevery f hf

end Setting

namespace Settings

variable {s t : Settings} {f : Setting} {changes : Record Value}

theorem fields_eq (s : Settings) :
    s.fields = Setting.all.map fun f => (f.wire, f.plain, f.write (f.get s)) := rfl

/-- Settings are read one by one. -/
theorem read_eq_ok_iff {r : Record Value} :
    read r = .ok t ↔ ∀ f ∈ Setting.all, f.ofRecord r = .ok (f.get t) := by
  simp only [read, Check.seq_eq_ok, Check.map_eq_ok, Setting.all, List.forall_mem_cons]
  constructor
  · rintro ⟨_, ⟨_, ⟨_, ⟨_, ⟨_, ⟨_, ⟨_, ⟨_, ⟨_, h1, rfl⟩, _, h2, rfl⟩, _, h3, rfl⟩, _, h4, rfl⟩,
      _, h5, rfl⟩, _, h6, rfl⟩, _, h7, rfl⟩, _, h8, rfl⟩, _, h9, rfl⟩
    exact ⟨h1, h2, h3, h4, h5, h6, h7, h8, h9, List.forall_mem_nil _⟩
  · rintro ⟨h1, h2, h3, h4, h5, h6, h7, h8, h9, -⟩
    exact ⟨_, ⟨_, ⟨_, ⟨_, ⟨_, ⟨_, ⟨_, ⟨_, ⟨_, h1, rfl⟩, _, h2, rfl⟩, _, h3, rfl⟩, _, h4, rfl⟩,
      _, h5, rfl⟩, _, h6, rfl⟩, _, h7, rfl⟩, _, h8, rfl⟩, _, h9, rfl⟩

theorem ofRecord_eq_ok_iff {r : Record Value} :
    ofRecord r = .ok t ↔ ∀ f ∈ Setting.all, f.ofRecord r = .ok (f.get t) :=
  Check.run_eq_ok.trans read_eq_ok_iff

theorem plainName?_eq (s : Settings) (key : String) :
    s.plainName? key = (Setting.all.find? (·.named key)).map Setting.plain := by
  unfold plainName?
  rw [fields_eq, List.find?_map, Option.map_map]
  rfl

theorem plainName?_of_named (hf : f ∈ Setting.all) {key : String} (h : f.named key) :
    s.plainName? key = some f.plain := by
  rw [plainName?_eq]
  cases hg : Setting.all.find? (·.named key) with
  | none => exact absurd h (List.find?_eq_none.mp hg f hf)
  | some g =>
    obtain ⟨-, hplain⟩ := Setting.names_eq_of_named hf (List.mem_of_find?_eq_some hg) h
      (List.find?_some (p := fun g : Setting => g.named key) hg)
    rw [Option.map_some, hplain]

theorem named_of_plainName? {key name : String} (h : s.plainName? key = some name) :
    ∃ f ∈ Setting.all, f.named key ∧ f.plain = name := by
  rw [plainName?_eq] at h
  obtain ⟨f, hf, rfl⟩ := Option.map_eq_some_iff.mp h
  exact ⟨f, List.mem_of_find?_eq_some hf,
    List.find?_some (p := fun g : Setting => g.named key) hf, rfl⟩

theorem changed_append (s : Settings) (changes : Record Value) (c : String × Value) :
    s.changed (changes ++ [c]) = match s.plainName? c.1 with
      | some key => Record.put key c.2 (s.changed changes)
      | none => s.changed changes := by
  unfold changed
  rw [List.foldl_append]
  rfl

theorem get?_toPlainRecord (hf : f ∈ Setting.all) :
    Record.get? s.toPlainRecord f.plain = some (f.write (f.get s)) := by
  have hkeys : Record.keys s.toPlainRecord = Setting.all.map Setting.plain := rfl
  have hdistinct : (Setting.all.map Setting.plain).Nodup := by decide +kernel
  have hmem : (f.plain, f.write (f.get s)) ∈ s.toPlainRecord :=
    List.mem_map_of_mem (List.mem_map_of_mem (f := fun f => (f.wire, f.plain, f.write (f.get s))) hf)
  exact Record.get?_of_mem (hkeys ▸ hdistinct) hmem

/-- What stands under the plain name of a setting after some changes. -/
theorem get?_changed (hf : f ∈ Setting.all) (changes : Record Value) :
    Record.get? (s.changed changes) f.plain =
      some ((f.given changes).getD (f.write (f.get s))) := by
  -- the last change counts, so the changes are gone through from their end
  induction changes using List.reverseRecOn with
  | nil => exact get?_toPlainRecord hf
  | append_singleton changes c ih =>
    rw [changed_append, f.given_append]
    cases hnamed : f.named c.1 with
    | true =>
      rw [plainName?_of_named hf hnamed]
      exact Record.get?_put_self ..
    | false =>
      cases hname : s.plainName? c.1 with
      | none => exact ih
      | some name =>
        obtain ⟨g, hg, hgnamed, rfl⟩ := named_of_plainName? hname
        have hne : f.plain ≠ g.plain := by
          intro hplain
          obtain ⟨hwire, -⟩ := Setting.names_eq_of_named hf hg f.named_plain (hplain ▸ g.named_plain)
          have hsame : f.named c.1 = g.named c.1 := by
            rw [Setting.named, Setting.named, hwire, hplain]
          rw [hsame, hgnamed] at hnamed
          cases hnamed
        exact (Record.get?_put_of_ne hne _ _).trans ih

/-- No other keys come to stand there. -/
theorem plain_of_changed {p : String × Value} (h : p ∈ s.changed changes) :
    ∃ f ∈ Setting.all, f.plain = p.1 := by
  induction changes using List.reverseRecOn with
  | nil =>
    obtain ⟨q, hq, rfl⟩ := List.mem_map.mp h
    obtain ⟨f, hf, rfl⟩ := List.mem_map.mp (s.fields_eq ▸ hq)
    exact ⟨f, hf, rfl⟩
  | append_singleton changes c ih =>
    rw [changed_append] at h
    cases hname : s.plainName? c.1 with
    | none => exact ih (by simpa [hname] using h)
    | some name =>
      obtain ⟨g, hg, -, rfl⟩ := named_of_plainName? hname
      rw [hname] at h
      rcases Record.mem_put h with rfl | h
      · exact ⟨g, hg, rfl⟩
      · exact ih h

theorem find?_changed (hf : f ∈ Setting.all) (changes : Record Value) :
    Check.find? (s.changed changes) f.wire f.plain =
      some (f.plain, (f.given changes).getD (f.write (f.get s))) := by
  have hplain := get?_changed (s := s) hf changes
  unfold Check.find?
  cases hwire : Record.get? (s.changed changes) f.wire with
  | none => simp [hplain]
  | some v =>
    -- a wire name is a key only where it is the plain name as well
    obtain ⟨g, hg, hgplain⟩ := plain_of_changed (Record.mem_of_get?_eq_some hwire)
    replace hgplain : g.plain = f.wire := hgplain
    obtain ⟨-, hsame⟩ := Setting.names_eq_of_named hf hg f.named_wire (hgplain ▸ g.named_plain)
    rw [hgplain] at hsame
    rw [hsame, hwire] at hplain
    rw [hsame, Option.some.inj hplain]

/-- A setting of settings in range is read after some changes as it settles. -/
theorem ofRecord_changed (hf : f ∈ Setting.all) (h : s.InRange) :
    f.ofRecord (s.changed changes) = .ok (f.get t) ↔ f.Settles changes s t := by
  unfold Setting.ofRecord Check.optional Setting.Settles
  rw [find?_changed hf changes]
  simp only [Check.under_eq_ok]
  cases f.given changes with
  | some v => rfl
  | none =>
    rw [Option.getD_none, Setting.read_write hf h, Check.ok.injEq]
    exact eq_comm

theorem update_eq_ok_iff (h : s.InRange) :
    s.update changes = .ok t ↔ Record.has changes reservedKey = false ∧
      ∀ f ∈ Setting.all, f.Settles changes s t := by
  unfold update
  cases hself : Record.has changes reservedKey with
  | true => simp
  | false =>
    simp only [Bool.false_eq_true, if_false, true_and]
    rw [ofRecord_eq_ok_iff]
    exact forall₂_congr fun f hf => ofRecord_changed hf h

/-- Settings in range are read from their own record as they are. -/
theorem ofRecord_toRecord (h : s.InRange) : ofRecord s.toRecord = .ok s := by
  rw [ofRecord_eq_ok_iff]
  intro f hf
  have hkeys : Record.keys s.toRecord = Setting.all.map Setting.wire := rfl
  have hdistinct : (Setting.all.map Setting.wire).Nodup := by decide +kernel
  have hmem : (f.wire, f.write (f.get s)) ∈ s.toRecord :=
    List.mem_map_of_mem (List.mem_map_of_mem (f := fun f => (f.wire, f.plain, f.write (f.get s))) hf)
  have hget := Record.get?_of_mem (hkeys ▸ hdistinct) hmem
  unfold Setting.ofRecord Check.optional Check.find?
  simp only [hget, Setting.read_write hf h, Check.under_ok]

end Settings

namespace SettingsFile

/-- What happens to the settings in use and their file; others may write the file. -/
inductive Event
  | write (file : File)
  | load
  | update (changes : Record Value)
  | save (now : Int)

/-- The settings and their file after an event. A load or an update that gives no result leaves
them as they are. -/
def after (s : SettingsFile) : Event → SettingsFile
  | .write file => { s with file }
  | .load => s.load.toOption.getD s
  | .update changes => (s.update changes).toOption.getD s
  | .save now => (s.save now).1

def run (s : SettingsFile) (events : List Event) : SettingsFile := events.foldl after s

variable {s t : SettingsFile}

theorem inRange_after (h : s.current.InRange) (e : Event) : (s.after e).current.InRange := by
  cases e with
  | write file => exact h
  | load =>
    cases hl : s.load with
    | error f => simpa [after, hl, Except.toOption] using h
    | ok t => simpa [after, hl, Except.toOption] using inRange_of_load hl
  | update changes =>
    cases hu : s.update changes with
    | error f => simpa [after, hu, Except.toOption] using h
    | ok t => simpa [after, hu, Except.toOption] using inRange_of_update hu
  | save now => exact inRange_save h now

theorem inRange_run (h : s.current.InRange) (events : List Event) :
    (s.run events).current.InRange := by
  induction events generalizing s with
  | nil => exact h
  | cons e events ih => exact ih (inRange_after h e)

theorem update_eq_ok_iff (h : s.current.InRange) {changes : Record Value} :
    s.update changes = .ok t ↔ t.file = s.file ∧
      Record.has changes Settings.reservedKey = false ∧
      ∀ f ∈ Setting.all, f.Settles changes s.current t.current := by
  rw [← Settings.update_eq_ok_iff h]
  unfold update
  obtain ⟨current, file⟩ := t
  cases s.current.update changes <;>
    simp [bind, Except.bind, pure, Except.pure, eq_comm, and_comm]

/-- What a save has written is read again as the settings in use. -/
theorem load_save (h : s.current.InRange) {now : Int} (saved : (s.save now).2 = .ok true) :
    (s.save now).1.load = .ok (s.save now).1 := by
  revert saved
  fun_cases save s now with
  | case1 =>
    intro saved
    cases saved
  | case2 hw current document v hv =>
    intro _
    have hstamped : current.InRange := h.stamped _
    have hfile : (s.file.put (.document document)).value = .ok document := by
      rw [File.value, File.put_content (by simpa using hw)]
      rfl
    have hread : Settings.ofFile (s.file.put (.document document)) = .ok current := by
      have hvalue : Settings.ofValue document = .ok current := Settings.ofRecord_toRecord hstamped
      simp [Settings.ofFile, hfile, Except.bind, hvalue]
    simp [load, hread, bind, Except.bind, pure, Except.pure]
  | case3 hw current document e he =>
    intro saved
    cases hdoc : e.isOfDocument <;> simp [hdoc] at saved

/-- The last of several changes of a setting counts, under either of its names. -/
example :
    let changes := [("web_port", .int 80), ("webPort", .text "8080"), ("colour", .int 1)]
    (run {} [.update changes, .update [("webPort", .int 0)]]).current.webPort = 8080 := by
  decide +kernel

end SettingsFile

end Switchboard
