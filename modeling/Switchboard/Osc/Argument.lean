import Switchboard.Json.Writer

/-!
# The argument of a datagram

A payload travels as the one argument of a datagram: its JSON text, either as a blob of octets or
as a string. A payload that is a text already is sent as it is.
-/
namespace Switchboard.Osc

inductive Format
  | binary
  | string
  deriving DecidableEq

namespace Format

def name : Format → String
  | .binary => "binary"
  | .string => "string"

def ofName? (s : String) : Option Format :=
  if s = "binary" then some .binary else if s = "string" then some .string else none

/-- The format that a value names; any other value is refused with its literal. -/
def ofValue (v : Value) : Except Fault Format :=
  match v.text?.bind ofName? with
  | some f => .ok f
  | none => do throw (.unknownFormat (← v.literal))

@[simp] theorem ofName?_name (f : Format) : ofName? f.name = some f := by cases f <;> rfl

end Format

inductive Argument
  | blob (octets : List UInt8)
  | string (s : String)
  deriving DecidableEq

def utf8 (s : String) : List UInt8 := s.toUTF8.toList

namespace Argument

def ofText : Format → String → Argument
  | .binary, s => .blob (utf8 s)
  | .string, s => .string s

end Argument

/-- The text that stands for a payload. -/
def payloadText : Value → Except Fault String
  | .text s => .ok s
  | v => Json.write v

/-- The argument that carries a payload in the format that a value names. -/
def argument (payload format : Value) : Except Fault Argument := do
  let f ← Format.ofValue format
  return Argument.ofText f (← payloadText payload)

@[simp] theorem payloadText_text (s : String) : payloadText (.text s) = .ok s := rfl

end Switchboard.Osc
