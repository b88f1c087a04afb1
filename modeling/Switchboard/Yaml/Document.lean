import Switchboard.Value.Key
import Switchboard.Yaml.Lexer
import Switchboard.Yaml.Tree

/-!
# The value of a document

Each node stands for a value of its type. In a mapping the last value of a key counts, and merged
entries come before its own ones. A key is a value without parts.
-/
namespace Switchboard.Yaml

def contentFault : Fault := .document .content

def sixBits? (c : Char) : Option Nat :=
  if 'A' ≤ c ∧ c ≤ 'Z' then some (c.toNat - 'A'.toNat)
  else if 'a' ≤ c ∧ c ≤ 'z' then some (c.toNat - 'a'.toNat + 26)
  else if '0' ≤ c ∧ c ≤ '9' then some (c.toNat - '0'.toNat + 52)
  else if c = '+' then some 62
  else if c = '/' then some 63
  else none

/-- Reads on after `count` characters of a group of four, of which the last bits are still to be
put out, and after `pads` equals signs. Other characters are skipped. -/
def octetsFrom (count bits pads : Nat) : List Char → Except Fault (List UInt8)
  | [] => if count = 0 then .ok [] else .error contentFault
  | c :: r =>
    if c = '=' then
      if 2 ≤ count && 4 ≤ count + pads + 1 then .ok []
      else octetsFrom count bits (if 2 ≤ count then pads + 1 else pads) r
    else
      match sixBits? c with
      | none => octetsFrom count bits pads r
      | some d =>
        if count = 0 then octetsFrom 1 d 0 r
        else
          let left := 6 - 2 * count
          do
            let os ← octetsFrom ((count + 1) % 4) (d % 2 ^ left) 0 r
            return UInt8.ofNat (bits * 2 ^ (2 * count) + d / 2 ^ left) :: os

def octets (cs : List Char) : Except Fault (List UInt8) :=
  if cs.all fun c => c.toNat < 0x80 then octetsFrom 0 0 0 cs else .error contentFault

def boolOf (s : String) : Except Fault Bool :=
  let w := s.toLower
  if (Kind.trueWords.map String.toLower).contains w then .ok true
  else if (Kind.falseWords.map String.toLower).contains w then .ok false
  else .error .unknownWord

def stampOf (s : String) : Except Fault String :=
  match Stamp.read? s.toList with
  | some t => t.text
  | none => .error .notADate

def scalarValue (k : Kind) (s : String) : Except Fault Value :=
  match k with
  | .null => .ok .null
  | .bool => (boolOf s).map .bool
  | .int => (readInt s.toList).map .int
  | .double => (readDouble s.toList).map .double
  | .octets => (octets s.toList).map .octets
  | .stamp => (stampOf s).map .stamp
  | .text => .ok (.text s)
  | _ => .error contentFault

mutual

/-- The text of a node as a scalar: a mapping has that of its value key. -/
def scalarText? : Node → Option String
  | .scalar _ s => some s
  | .sequence _ _ => none
  | .mapping _ entries => valueText? entries

def valueText? : List (Node × Node) → Option String
  | [] => none
  | (key, value) :: entries => if key.kind = .value then scalarText? value else valueText? entries

end

/-- A collection whose type is that of a scalar. -/
def asScalar (k : Kind) (text : Option String) : Except Fault Value :=
  match text with
  | some s => scalarValue k s
  | none => .error contentFault

/-- The entries of a mapping, each value in the place of those before it under its key. -/
def reduce (entries : List (Value × Value)) : List (Value × Value) :=
  entries.foldl (fun es e => Value.putEntry e.1 e.2 es) []

def pair (entry : Value × Value) : Value := .list [entry.1, entry.2]

mutual

def valueOf : Node → Except Fault Value
  | .scalar k s => scalarValue k s
  | .sequence k items =>
    match k with
    | .sequence => do return .list (← valuesOf items)
    | .pairs => do return .list (← pairsOf items)
    | _ => .error contentFault
  | .mapping k entries =>
    match k with
    | .mapping => do
      let (merged, own) ← entriesOf entries
      return .ofEntries (reduce (merged ++ own))
    | .set => do
      let (merged, own) ← entriesOf entries
      return .ofEntries (reduce (merged ++ own))
    | _ => asScalar k (valueText? entries)

def valuesOf : List Node → Except Fault (List Value)
  | [] => .ok []
  | item :: items => do
    let v ← valueOf item
    return v :: (← valuesOf items)

/-- The entries that are merged into a mapping, and its own ones. -/
def entriesOf : List (Node × Node) → Except Fault (List (Value × Value) × List (Value × Value))
  | [] => .ok ([], [])
  | (key, value) :: entries => do
    if key.kind = .merge then
      let here ← mergedOf value
      let (merged, own) ← entriesOf entries
      return (here ++ merged, own)
    else
      let k ← if key.kind = .value then asScalar .text (scalarText? key) else valueOf key
      if !k.isKey then throw contentFault
      let v ← valueOf value
      let (merged, own) ← entriesOf entries
      return (merged, (k, v) :: own)

/-- The entries of a mapping that is merged, or of a list of them, where the first one counts. -/
def mergedOf : Node → Except Fault (List (Value × Value))
  | .mapping _ entries => do
    let (merged, own) ← entriesOf entries
    return merged ++ own
  | .sequence _ items => mergedItems items
  | .scalar _ _ => .error contentFault

def mergedItems : List Node → Except Fault (List (Value × Value))
  | [] => .ok []
  | .mapping _ entries :: items => do
    let (merged, own) ← entriesOf entries
    return (← mergedItems items) ++ merged ++ own
  | _ :: _ => .error contentFault

def pairsOf : List Node → Except Fault (List Value)
  | [] => .ok []
  | .mapping _ [(key, value)] :: items => do
    let k ← valueOf key
    let v ← valueOf value
    return pair (k, v) :: (← pairsOf items)
  | _ :: _ => .error contentFault

end

/-- The value of the document that a text holds; null for a text without one. -/
def read (s : String) : Except Fault Value := do
  let cs := unifyLines s.toList
  if !cs.all isAllowed then throw (.document .character)
  let (ts, fault) := tokens cs
  match ← Tree.ofTokens ts fault with
  | none => return .null
  | some found => valueOf found

end Switchboard.Yaml
