import Switchboard.Calendar
import Switchboard.Check
import Switchboard.Osc.Argument
import Switchboard.Storage

/-!
# Settings

The settings of the router, with the file that they are kept in. Reading settings never fails for
want of a good file: one that is missing or unsound stands for the defaults. A change that is
refused leaves the settings as they were.
-/
namespace Switchboard

def documentVersion : String := "1.0.0"

structure Settings where
  oscHost : String := "127.0.0.1"
  oscPort : Int := 19100
  enableDefaultEndpoints : Bool := true
  oscMessageFormat : Osc.Format := .binary
  webHost : String := "127.0.0.1"
  webPort : Int := 19101
  maxLogMessages : Int := 100
  version : String := documentVersion
  lastUpdated : Option String := none

namespace Settings

def readFormat (v : Value) : Check Osc.Format :=
  match v.text?.bind Osc.Format.ofName? with
  | some f => .ok f
  | none => .issue .notAChoice

/-- Reads settings; what is not given has its default. -/
def read (r : Record Value) : Check Settings :=
  Settings.mk
    <$> Check.optional r "oscHost" "osc_host" "127.0.0.1" Check.text
    <*> Check.optional r "oscPort" "osc_port" 19100 (Check.integerWithin 1024 (some 65535))
    <*> Check.optional r "enableDefaultEndpoints" "enable_default_endpoints" true Check.flag
    <*> Check.optional r "oscMessageFormat" "osc_message_format" .binary readFormat
    <*> Check.optional r "webHost" "web_host" "127.0.0.1" Check.text
    <*> Check.optional r "webPort" "web_port" 19101 (Check.integerWithin 1 (some 65535))
    <*> Check.optional r "maxLogMessages" "max_log_messages" 100 (Check.integerWithin 1 none)
    <*> Check.optional r "version" "version" documentVersion Check.text
    <*> Check.optional r "lastUpdated" "last_updated" none Check.textOrNull

def form : String := "RouterConfig"

def ofRecord (r : Record Value) : Except Fault Settings := (read r).run form

/-- The fields of settings, each with its wire name, its plain name and its value. -/
def fields (s : Settings) : List (String × String × Value) :=
  [("oscHost", "osc_host", .text s.oscHost),
   ("oscPort", "osc_port", .int s.oscPort),
   ("enableDefaultEndpoints", "enable_default_endpoints", .bool s.enableDefaultEndpoints),
   ("oscMessageFormat", "osc_message_format", .text s.oscMessageFormat.name),
   ("webHost", "web_host", .text s.webHost),
   ("webPort", "web_port", .int s.webPort),
   ("maxLogMessages", "max_log_messages", .int s.maxLogMessages),
   ("version", "version", .text s.version),
   ("lastUpdated", "last_updated", (s.lastUpdated.map Value.text).getD .null)]

def toRecord (s : Settings) : Record Value := s.fields.map fun f => (f.1, f.2.2)

def toPlainRecord (s : Settings) : Record Value := s.fields.map fun f => (f.2.1, f.2.2)

/-- The plain name of a field that is given by either of its names. -/
def plainName? (s : Settings) (key : String) : Option String :=
  (s.fields.find? fun f => f.1 = key || f.2.1 = key).map fun f => f.2.1

/-- The plain record after some changes, each in its turn; unknown keys are passed over. -/
def changed (s : Settings) (changes : Record Value) : Record Value :=
  changes.foldl
    (fun r c => match s.plainName? c.1 with
      | some key => Record.put key c.2 r
      | none => r)
    s.toPlainRecord

/-- The one key that no change may have. -/
def reservedKey : String := "self"

def update (s : Settings) (changes : Record Value) : Except Fault Settings :=
  if Record.has changes reservedKey then .error .reservedName else ofRecord (s.changed changes)

/-- The settings of the value of a file. A value that counts as not given stands for no settings,
and of a table the keys that are texts count. -/
def ofValue (v : Value) : Except Fault Settings :=
  if !v.given then ofRecord []
  else
    match v with
    | .record r => ofRecord r
    | .table entries => ofRecord (Check.textFields entries)
    | _ => .error (.rejected ⟨form, [⟨[], .notRecord⟩]⟩)

/-- The settings of a file. Faults of the document and of its values stand for the defaults. -/
def ofFile (f : File) : Except Fault Settings :=
  match f.value.bind ofValue with
  | .ok s => .ok s
  | .error e => if e.isOfDocument || e.family = .value then .ok {} else .error e

end Settings

structure SettingsFile where
  current : Settings := {}
  file : File := {}

namespace SettingsFile

def load (s : SettingsFile) : Except Fault SettingsFile := do
  return { s with current := ← Settings.ofFile s.file }

def update (s : SettingsFile) (changes : Record Value) : Except Fault SettingsFile := do
  return { s with current := ← s.current.update changes }

/-- Writes the settings with the time of writing, and says whether that could be done. The file is
opened, and so emptied, before it turns out that the settings cannot be written. -/
def save (s : SettingsFile) (now : Int) : SettingsFile × Except Fault Bool :=
  if !s.file.writable then (s, .ok false)
  else
    let current := { s.current with lastUpdated := some (Calendar.instantText now) }
    let document := Value.record current.toRecord
    match Yaml.readBack document with
    | .ok _ => (⟨current, s.file.put (.document document)⟩, .ok true)
    | .error e =>
      (⟨current, s.file.put (.text "")⟩, if e.isOfDocument then .ok false else .error e)

end SettingsFile

end Switchboard
