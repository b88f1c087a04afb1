import Switchboard.Number.Double
import Switchboard.Record

/-!
# Values

The data that messages, rules and settings are made of. Integers and doubles are kept apart, and
the absent value, which a path gives when it leads nowhere, differs from null. Tables, octets and
calendar stamps come out of stored documents only.
-/
namespace Switchboard

inductive Value
  | absent
  | null
  | bool (b : Bool)
  | int (n : Int)
  | double (x : Double)
  | text (s : String)
  | list (items : List Value)
  | record (fields : List (String × Value))
  /-- A table in which some key is no text. -/
  | table (entries : List (Value × Value))
  | octets (bytes : List UInt8)
  /-- A date, or a date with a time of day, as written. -/
  | stamp (written : String)

namespace Value

instance : Inhabited Value := ⟨.null⟩

def fields? : Value → Option (Record Value)
  | .record fs => some fs
  | _ => none

def text? : Value → Option String
  | .text s => some s
  | _ => none

def isAbsent : Value → Bool
  | .absent => true
  | _ => false

def isNull : Value → Bool
  | .null => true
  | _ => false

def isTable : Value → Bool
  | .record _ | .table _ => true
  | _ => false

def isText (s : String) : Value → Bool
  | .text t => t == s
  | _ => false

/-- The value of a key, and null when it is not there. -/
def lookup (r : Record Value) (key : String) : Value := (Record.get? r key).getD .null

/-- The value of a key, and the absent value when it is not there. -/
def lookupOrAbsent (r : Record Value) (key : String) : Value := (Record.get? r key).getD .absent

def kindName : Value → String
  | .absent => "_Missing"
  | .null => "NoneType"
  | .bool _ => "bool"
  | .int _ => "int"
  | .double _ => "float"
  | .text _ => "str"
  | .list _ => "list"
  | .record _ | .table _ => "dict"
  | .octets _ => "bytes"
  | .stamp _ => "datetime"

/-- A boolean as the number that it counts as, and any other value as it is. -/
def asNumber : Value → Value
  | .bool b => .int b.toNat
  | v => v

/-- Whether the value counts as given: neither absent, null, false, zero nor empty. -/
def given : Value → Bool
  | .absent | .null => false
  | .bool b => b
  | .int n => n != 0
  | .double x => !x.isZero
  | .text s => s != ""
  | .list items => !items.isEmpty
  | .record fields => !fields.isEmpty
  | .table entries => !entries.isEmpty
  | .octets bytes => !bytes.isEmpty
  | .stamp written => written != ""

/-- Whether the value counts as true in a condition: every list and record does, and of the
numbers all but zero and the one that is no number. -/
def truthy : Value → Bool
  | .absent | .null => false
  | .bool b => b
  | .int n => n != 0
  | .double x => !(x.isZero || x.isNaN)
  | .text s => s != ""
  | _ => true

@[simp] theorem truthy_bool (b : Bool) : truthy (.bool b) = b := rfl

@[simp] theorem given_bool (b : Bool) : given (.bool b) = b := rfl

end Value

end Switchboard
