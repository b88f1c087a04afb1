import Switchboard.Yaml.Scalar
import Switchboard.Yaml.Token

/-!
# From characters to tokens

The lexer keeps the indentations of the open block collections. A node may turn out to be a key
only when a colon follows it on its line, so the places where a key may have started are
remembered, one for each depth of flow collections, and the tokens of a key are put in there
later. A key is required where the indentation is that of the open collection.
-/
namespace Switchboard.Yaml

structure KeyPlace where
  tokens : Nat
  required : Bool
  cursor : Cursor

structure Lexer where
  cursor : Cursor
  tokens : Array Token := #[]
  done : Bool := false
  depth : Int := 0
  indent : Int := -1
  outer : List Int := []
  keyAllowed : Bool := true
  keys : List (Int × KeyPlace) := []

namespace Lexer

def ofChars (cs : List Char) : Lexer := { cursor := { rest := cs } }

def inFlow (l : Lexer) : Bool := l.depth != 0

def push (l : Lexer) (t : Token) : Lexer := { l with tokens := l.tokens.push t }

/-- The lexer at the start of what is left then. -/
def moveTo (l : Lexer) (rest : List Char) : Lexer := { l with cursor := l.cursor.skipTo rest }

def pushOver (l : Lexer) (t : Token) (n : Nat) : Lexer :=
  { l.push t with cursor := l.cursor.skip n }

/-- Skips spaces, comments and line breaks, and says whether there was a line break. -/
def skipBlanks (inComment : Bool) : List Char → Bool × List Char
  | [] => (false, [])
  | c :: r =>
    if isBreak c then (true, (skipBlanks false r).2)
    else if inComment then skipBlanks true r
    else if c = ' ' then skipBlanks false r
    else if c = '#' then skipBlanks true r
    else (false, c :: r)

/-- Moves to the next token. A new line allows a key outside of flow collections. -/
def toNext (l : Lexer) : Lexer :=
  let start := match l.cursor.rest with
    | '\ufeff' :: r => if l.cursor.index = 0 then r else l.cursor.rest
    | cs => cs
  let (broke, rest) := skipBlanks false start
  let l := l.moveTo rest
  if broke && !l.inFlow then { l with keyAllowed := true } else l

/-- A key ends on its line, and within a number of characters. -/
def isStale (l : Lexer) (k : KeyPlace) : Bool :=
  k.cursor.line != l.cursor.line || 1024 < l.cursor.index - k.cursor.index

/-- Forgets the keys that cannot end any more; a required one has to. -/
def dropStale (l : Lexer) : Except Fault Lexer :=
  if l.keys.any fun k => l.isStale k.2 && k.2.required then .error tokenFault
  else .ok { l with keys := l.keys.filter fun k => !l.isStale k.2 }

/-- Forgets the key of this depth; a required one has to end. -/
def dropKey (l : Lexer) : Except Fault Lexer :=
  match l.keys.lookup l.depth with
  | some k =>
    if k.required then .error tokenFault
    else .ok { l with keys := l.keys.filter fun k => k.1 != l.depth }
  | none => .ok l

/-- Remembers that a key may start here. -/
def saveKey (l : Lexer) : Except Fault Lexer :=
  if l.keyAllowed then do
    let required := !l.inFlow && l.indent = l.cursor.column
    let l ← l.dropKey
    return { l with keys := (l.depth, ⟨l.tokens.size, required, l.cursor⟩) :: l.keys }
  else .ok l

/-- Ends the block collections that are indented more than a column. -/
def unwindFrom (column : Int) : List Int → Lexer → Lexer
  | [], l => l
  | i :: outer, l =>
    if column < l.indent then
      unwindFrom column outer { l.push .blockEnd with indent := i, outer := outer }
    else l

def unwind (l : Lexer) (column : Int) : Lexer :=
  if l.inFlow then l else unwindFrom column l.outer l

/-- Opens a block collection at a column if that is indented more, and says whether it is. -/
def indentTo (l : Lexer) (column : Int) : Bool × Lexer :=
  if l.indent < column then (true, { l with outer := l.indent :: l.outer, indent := column })
  else (false, l)

/-- Opens a block collection here if that is indented more. A key must be allowed. -/
def openBlock (l : Lexer) (t : Token) : Except Fault Lexer :=
  if l.inFlow then .ok l
  else if !l.keyAllowed then .error tokenFault
  else
    match l.indentTo l.cursor.column with
    | (true, l) => .ok (l.push t)
    | (false, l) => .ok l

/-- Before what stands at the margin of a document. -/
def atMargin (l : Lexer) : Except Fault Lexer := do
  return { ← (l.unwind (-1)).dropKey with keyAllowed := false }

def streamEnd (l : Lexer) : Except Fault Lexer := do
  return { (← l.atMargin).push .streamEnd with keys := [], done := true }

def directiveLine (l : Lexer) (cs : List Char) : Except Fault Lexer := do
  let l ← l.atMargin
  let (d, r) ← directive cs
  return (l.push (.directive d)).moveTo (← restOfLine r)

def mark (l : Lexer) (t : Token) : Except Fault Lexer := do
  return (← l.atMargin).pushOver t 3

def flowStart (l : Lexer) (t : Token) : Except Fault Lexer := do
  return { (← l.saveKey).pushOver t 1 with depth := l.depth + 1, keyAllowed := true }

def flowEnd (l : Lexer) (t : Token) : Except Fault Lexer := do
  return { (← l.dropKey).pushOver t 1 with depth := l.depth - 1, keyAllowed := false }

def flowEntry (l : Lexer) : Except Fault Lexer := do
  return { (← l.dropKey).pushOver .flowEntry 1 with keyAllowed := true }

def blockEntry (l : Lexer) : Except Fault Lexer := do
  let l ← (← l.openBlock .blockSequenceStart).dropKey
  return { l.pushOver .blockEntry 1 with keyAllowed := true }

def explicitKey (l : Lexer) : Except Fault Lexer := do
  let l ← (← l.openBlock .blockMappingStart).dropKey
  return { l.pushOver .key 1 with keyAllowed := !l.inFlow }

/-- Puts the tokens of a key in at the place where it started. -/
def closeKey (l : Lexer) (k : KeyPlace) : Lexer :=
  let l := { l with
    tokens := l.tokens.insertIdxIfInBounds k.tokens .key
    keys := l.keys.filter fun k => k.1 != l.depth
    keyAllowed := false }
  if l.inFlow then l
  else
    match l.indentTo k.cursor.column with
    | (true, l) => { l with tokens := l.tokens.insertIdxIfInBounds k.tokens .blockMappingStart }
    | (false, l) => l

def valueSign (l : Lexer) : Except Fault Lexer :=
  match l.keys.lookup l.depth with
  | some k => .ok ((l.closeKey k).pushOver .value 1)
  | none => do
    let l ← l.openBlock .blockMappingStart
    return { (← l.dropKey).pushOver .value 1 with keyAllowed := !l.inFlow }

/-- Pushes a token that may start a key and ends where the rest begins. -/
def pushNode (l : Lexer) (t : Token) (rest : List Char) : Except Fault Lexer := do
  return { ((← l.saveKey).push t).moveTo rest with keyAllowed := false }

def quoted (l : Lexer) (double : Bool) (cs : List Char) : Except Fault Lexer := do
  let l ← l.saveKey
  let (s, rest) ← quotedFrom double .start cs
  return { (l.push (.scalar false (String.ofList s))).moveTo rest with keyAllowed := false }

def plain (l : Lexer) : Except Fault Lexer := do
  let l ← l.saveKey
  let p := plainFrom l.inFlow (l.indent + 1) (.blanks []) l.cursor.column l.cursor.rest
  return { (l.push (.scalar true (String.ofList p.text))).moveTo p.rest with
    keyAllowed := p.endsLine }

def blockScalar (l : Lexer) (folded : Bool) (cs : List Char) : Except Fault Lexer := do
  let l ← l.dropKey
  let (s, rest) ← block folded l.indent cs
  return { (l.push (.scalar false (String.ofList s))).moveTo rest with keyAllowed := true }

def startsPlain (l : Lexer) (c : Char) (r : List Char) : Bool :=
  !(isBlank c || isBreak c || "-?:,[]\x7b\x7d#&*!|>'\"%@\x60".toList.contains c) ||
    (!atGap r && (c = '-' || (!l.inFlow && (c = '?' || c = ':'))))

def tokenAt (l : Lexer) (c : Char) (r : List Char) : Except Fault Lexer :=
  let atStart := l.cursor.column = 0
  if c = '%' && atStart then l.directiveLine r
  else if atStart && atStartMark (c :: r) then l.mark .documentStart
  else if atStart && atEndMark (c :: r) then l.mark .documentEnd
  else if c = '[' then l.flowStart .flowSequenceStart
  else if c = '\x7b' then l.flowStart .flowMappingStart
  else if c = ']' then l.flowEnd .flowSequenceEnd
  else if c = '\x7d' then l.flowEnd .flowMappingEnd
  else if c = ',' then l.flowEntry
  else if c = '-' && atGap r then l.blockEntry
  else if c = '?' && (l.inFlow || atGap r) then l.explicitKey
  else if c = ':' && (l.inFlow || atGap r) then l.valueSign
  else if c = '*' then do
    let (n, r) ← anchorName r
    l.pushNode (.alias n) r
  else if c = '&' then do
    let (n, r) ← anchorName r
    l.pushNode (.anchor n) r
  else if c = '!' then do
    let (t, r) ← tagToken (c :: r)
    l.pushNode t r
  else if c = '|' && !l.inFlow then l.blockScalar false r
  else if c = '>' && !l.inFlow then l.blockScalar true r
  else if c = '\'' then l.quoted false r
  else if c = '"' then l.quoted true r
  else if l.startsPlain c r then l.plain
  else .error tokenFault

def step (l : Lexer) : Except Fault Lexer := do
  let l ← l.toNext.dropStale
  let l := l.unwind l.cursor.column
  match l.cursor.rest with
  | [] => l.streamEnd
  | c :: r => l.tokenAt c r

/-- The tokens that no later key can come between. -/
def settled (l : Lexer) : List Token :=
  let waiting := (l.keys.filter fun k => !l.isStale k.2).map (·.2.tokens)
  l.tokens.toList.take (waiting.foldl min l.tokens.size)

/-- Reads on to the end of the document, for a number of steps that is enough. -/
def run : Nat → Lexer → List Token × Option Fault
  | 0, l => (l.settled, some tokenFault)
  | n + 1, l =>
    if l.done then (l.tokens.toList, none)
    else
      match l.step with
      | .ok next => run n next
      | .error f => (l.settled, some f)

end Lexer

/-- The tokens of a text, as far as they can be read, and the fault at which that ends. Each step
takes at least one character. -/
def tokens (cs : List Char) : List Token × Option Fault :=
  Lexer.run (cs.length + 2) (.ofChars cs)

end Switchboard.Yaml
