import Switchboard.Number.Literal
import Switchboard.Yaml.Cursor

/-!
# Tokens

The tokens of a document: its marks, the starts and ends of collections, the indicators of
entries, keys and values, and the properties and texts of nodes.
-/
namespace Switchboard.Yaml

inductive Directive
  | version (major : Nat)
  /-- A handle stands for the start of a tag. -/
  | handle (name start : String)
  | other
  deriving DecidableEq

inductive Token
  | directive (d : Directive)
  | documentStart
  | documentEnd
  | streamEnd
  | blockSequenceStart
  | blockMappingStart
  | blockEnd
  | flowSequenceStart
  | flowSequenceEnd
  | flowMappingStart
  | flowMappingEnd
  | blockEntry
  | flowEntry
  | key
  | value
  | alias (name : String)
  | anchor (name : String)
  /-- A tag, split into a handle, if it has one, and the rest. -/
  | tag (handle : Option String) (rest : String)
  | scalar (plain : Bool) (text : String)
  deriving DecidableEq

def isNameChar (c : Char) : Bool := c.isAlphanum || c = '-' || c = '_'

def name (cs : List Char) : Except Fault (String × List Char) :=
  let n := cs.takeWhile isNameChar
  if n.isEmpty then .error tokenFault
  else .ok (String.ofList n, cs.dropWhile isNameChar)

/-- The name of an anchor, which ends at a gap or at some indicators. -/
def anchorName (cs : List Char) : Except Fault (String × List Char) := do
  let (n, r) ← name cs
  if atGap r || r.head?.any ("?:,]\x7d%@\x60".toList.contains) then return (n, r)
  else throw tokenFault

def isTagChar (c : Char) : Bool :=
  c.isAlphanum || "-;/?:@&=+$,_.!~*'()[]%".toList.contains c

def tagOctets : List Char → Except Fault (List UInt8 × List Char)
  | '%' :: a :: b :: r =>
    match Text.hexValue? a, Text.hexValue? b with
    | some x, some y => do
      let (os, r) ← tagOctets r
      return (UInt8.ofNat (x * 16 + y) :: os, r)
    | _, _ => .error tokenFault
  | '%' :: _ => .error tokenFault
  | r => .ok ([], r)

def charsOfOctets (os : List UInt8) : Except Fault (List Char) :=
  match String.fromUTF8? ⟨os.toArray⟩ with
  | some s => .ok s.toList
  | none => .error tokenFault

/-- The text of a tag, with its octets decoded; `left` bounds its length. -/
def tagChars : Nat → List Char → Except Fault (List Char × List Char)
  | 0, cs => .ok ([], cs)
  | _ + 1, [] => .ok ([], [])
  | left + 1, c :: r =>
    if c = '%' then do
      let (os, r) ← tagOctets (c :: r)
      let here ← charsOfOctets os
      let (more, r) ← tagChars left r
      return (here ++ more, r)
    else if isTagChar c then do
      let (more, r) ← tagChars left r
      return (c :: more, r)
    else .ok ([], c :: r)

def tagText (cs : List Char) : Except Fault (String × List Char) :=
  if cs.head?.any isTagChar then do
    let (s, r) ← tagChars cs.length cs
    return (String.ofList s, r)
  else .error tokenFault

/-- A handle: one exclamation mark, or two with a name between them. -/
def tagHandle : List Char → Except Fault (String × List Char)
  | '!' :: ' ' :: r => .ok ("!", ' ' :: r)
  | '!' :: r =>
    match r.dropWhile isNameChar with
    | '!' :: rest => .ok (String.ofList ('!' :: (r.takeWhile isNameChar ++ ['!'])), rest)
    | _ => .error tokenFault
  | _ => .error tokenFault

/-- Whether a second exclamation mark follows before the next space. -/
def hasHandle (cs : List Char) : Bool :=
  (cs.takeWhile fun c => !(c = ' ' || isBreak c)).contains '!'

/-- A tag from its exclamation mark on. A space or an end of line follows it. -/
def tagToken (cs : List Char) : Except Fault (Token × List Char) := do
  let (t, r) ← match cs.tail with
    | '<' :: r => do
      let (s, r) ← tagText r
      match r with
      | '>' :: r => pure (Token.tag none s, r)
      | _ => throw tokenFault
    | r =>
      if atGap r then pure (Token.tag none "!", r)
      else do
        let (h, r) ← if hasHandle r then tagHandle cs else pure ("!", r)
        let (s, r) ← tagText r
        pure (Token.tag (some h) s, r)
  if atSpace r then return (t, r) else throw tokenFault

def digits (cs : List Char) : Except Fault (Nat × List Char) :=
  let ds := cs.takeWhile Char.isDigit
  if ds.isEmpty then .error tokenFault
  else if Number.digitLimit < ds.length then .error .numeralTooLong
  else .ok (Number.digitsValue ds, cs.dropWhile Char.isDigit)

def skipSpaces (cs : List Char) : List Char := cs.dropWhile (· = ' ')

/-- A version, of which the first number counts. -/
def versionDirective (cs : List Char) : Except Fault (Directive × List Char) := do
  let (major, r) ← digits (skipSpaces cs)
  match r with
  | '.' :: r => do
    let (_, r) ← digits r
    if atSpace r then return (.version major, r) else throw tokenFault
  | _ => throw tokenFault

def handleDirective (cs : List Char) : Except Fault (Directive × List Char) := do
  let (h, r) ← tagHandle (skipSpaces cs)
  if r.head? != some ' ' then throw tokenFault
  let (s, r) ← tagText (skipSpaces r)
  if atSpace r then return (.handle h s, r) else throw tokenFault

def directive (cs : List Char) : Except Fault (Directive × List Char) := do
  let (n, r) ← name cs
  if !atSpace r then throw tokenFault
  if n = "YAML" then versionDirective r
  else if n = "TAG" then handleDirective r
  else return (.other, r.dropWhile (!isBreak ·))

end Switchboard.Yaml
