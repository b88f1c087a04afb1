import Switchboard.Text.Digit
import Switchboard.Yaml.Cursor

/-!
# Scalars

A scalar is quoted, plain or a block of lines. White space inside a quoted or a plain scalar may
span lines: then the blanks around the line breaks are dropped, a single line break stands for a
space, and of several the first is dropped. A block keeps its line breaks, or folds them in the
same way where no line is indented further.
-/
namespace Switchboard.Yaml

inductive Gap
  | blanks (cs : List Char)
  /-- Line breaks; the first one is missing when it has been escaped. -/
  | lines (first : Option Char) (more : List Char)

namespace Gap

def text : Gap → List Char
  | .blanks cs => cs
  | .lines none more => more
  | .lines (some '\n') [] => [' ']
  | .lines (some '\n') more => more
  | .lines (some c) more => c :: more

def addBlank (c : Char) : Gap → Gap
  | .blanks cs => .blanks (cs ++ [c])
  | g => g

def addBreak (c : Char) : Gap → Gap
  | .blanks _ => .lines (some (lineBreak c)) []
  | .lines first more => .lines first (more ++ [lineBreak c])

def isLines : Gap → Bool
  | .blanks _ => false
  | .lines _ _ => true

def isEmpty : Gap → Bool
  | .blanks [] => true
  | _ => false

end Gap

def escaped? : Char → Option Char
  | '0' => some '\x00'
  | 'a' => some '\x07'
  | 'b' => some '\x08'
  | 't' => some '\t'
  | '\t' => some '\t'
  | 'n' => some '\n'
  | 'v' => some '\x0b'
  | 'f' => some '\x0c'
  | 'r' => some '\r'
  | 'e' => some '\x1b'
  | ' ' => some ' '
  | '"' => some '"'
  | '\\' => some '\\'
  | '/' => some '/'
  | 'N' => some '\x85'
  | '_' => some '\xa0'
  | 'L' => some '\u2028'
  | 'P' => some '\u2029'
  | _ => none

def codeLength? : Char → Option Nat
  | 'x' => some 2
  | 'u' => some 4
  | 'U' => some 8
  | _ => none

/-- Half of a pair of code units stands for the replacement character. -/
def charOfCode (n : Nat) : Except Fault Char :=
  if 0x10ffff < n then .error .noSuchCharacter
  else if 0xd800 ≤ n ∧ n < 0xe000 then .ok '\ufffd'
  else .ok (Char.ofNat n)

inductive Quoting
  /-- After white space; `fresh` at the very start of a line. -/
  | text (gap : Gap) (fresh : Bool)
  | escape
  /-- Within an escape by code, with the number of digits to come. -/
  | code (left : Nat) (value : Nat)

namespace Quoting

def start : Quoting := .text (.blanks []) false

end Quoting

def quotedFrom (double : Bool) : Quoting → List Char → Except Fault (List Char × List Char)
  | _, [] => .error tokenFault
  | .escape, c :: r =>
    match escaped? c, codeLength? c with
    | some e, _ => do
      let (s, r) ← quotedFrom double .start r
      return (e :: s, r)
    | none, some n => quotedFrom double (.code n 0) r
    | none, none =>
      if isBreak c then quotedFrom double (.text (.lines none []) true) r else .error tokenFault
  | .code left value, c :: r =>
    match Text.hexValue? c with
    | none => .error tokenFault
    | some d =>
      if left ≤ 1 then do
        let e ← charOfCode (value * 16 + d)
        let (s, r) ← quotedFrom double .start r
        return (e :: s, r)
      else quotedFrom double (.code (left - 1) (value * 16 + d)) r
  | .text gap fresh, c :: r =>
    if fresh && atMark (c :: r) then .error tokenFault
    else if isBlank c then quotedFrom double (.text (gap.addBlank c) false) r
    else if isBreak c then quotedFrom double (.text (gap.addBreak c) true) r
    else if double then
      if c = '"' then .ok (gap.text, r)
      else if c = '\\' then do
        let (s, r) ← quotedFrom double .escape r
        return (gap.text ++ s, r)
      else do
        let (s, r) ← quotedFrom double .start r
        return (gap.text ++ c :: s, r)
    else if c = '\'' then
      match r with
      | '\'' :: r => do
        let (s, r) ← quotedFrom double .start r
        return (gap.text ++ '\'' :: s, r)
      | _ => .ok (gap.text, r)
    else do
      let (s, r) ← quotedFrom double .start r
      return (gap.text ++ c :: s, r)

/-- The indicators of a flow collection that end a plain scalar after a colon. -/
def flowIndicators : List Char := [',', '[', ']', '\x7b', '\x7d']

def endsPlain (inFlow : Bool) (c : Char) (r : List Char) : Bool :=
  isBlank c || isBreak c ||
    (c = ':' && (atGap r || (inFlow && r.head?.any flowIndicators.contains))) ||
    (inFlow && (c = '?' || flowIndicators.contains c))

/-- A plain scalar that has been read, with what is left after the white space behind it. -/
structure Plain where
  text : List Char
  endsLine : Bool
  rest : List Char

/-- Reads on after white space. A scalar outside of a flow collection goes on only on lines that
are indented deeply enough, and none goes on with a comment. -/
def plainFrom (inFlow : Bool) (indent : Int) (gap : Gap) (column : Nat) : List Char → Plain
  | [] => ⟨[], gap.isLines, []⟩
  | c :: r =>
    let stop : Plain := ⟨[], gap.isLines, c :: r⟩
    if gap.isLines && column = 0 && atMark (c :: r) then stop
    else if c = ' ' then plainFrom inFlow indent (gap.addBlank c) (column + 1) r
    else if isBreak c then plainFrom inFlow indent (gap.addBreak c) 0 r
    else if endsPlain inFlow c r || (c = '#' && !gap.isEmpty) ||
        (gap.isLines && !inFlow && (column : Int) < indent) then stop
    else
      let p := plainFrom inFlow indent (.blanks []) (column + 1) r
      ⟨gap.text ++ c :: p.text, p.endsLine, p.rest⟩

inductive Chomp
  | clip
  | strip
  | keep

/-- The end of a block, from the break of its last line and the blank lines after it. -/
def Chomp.text (last breaks : List Char) : Chomp → List Char
  | .strip => []
  | .clip => last
  | .keep => last ++ breaks

structure BlockHeader where
  chomp : Chomp := .clip
  /-- The indentation beyond that of the parent, where it is given. -/
  indent : Option Nat := none

def blockDigit? : List Char → Except Fault (Option (Nat × List Char))
  | c :: r =>
    if '0' ≤ c ∧ c ≤ '9' then
      if c = '0' then .error tokenFault else .ok (some (c.toNat - '0'.toNat, r))
    else .ok none
  | [] => .ok none

def chomp? : List Char → Option (Chomp × List Char)
  | '+' :: r => some (.keep, r)
  | '-' :: r => some (.strip, r)
  | _ => none

def blockHeader (cs : List Char) : Except Fault (BlockHeader × List Char) :=
  match chomp? cs with
  | some (chomp, r) => do
    match ← blockDigit? r with
    | some (n, r) => return (⟨chomp, some n⟩, r)
    | none => return (⟨chomp, none⟩, r)
  | none => do
    match ← blockDigit? cs with
    | some (n, r) =>
      match chomp? r with
      | some (chomp, r) => return (⟨chomp, some n⟩, r)
      | none => return (⟨.clip, some n⟩, r)
    | none => return ({}, cs)

/-- What follows the end of a line on which nothing but a comment may stand. -/
def restOfLine (cs : List Char) : Except Fault (List Char) :=
  let cs := cs.dropWhile (· = ' ')
  let cs := if cs.head? = some '#' then cs.dropWhile (!isBreak ·) else cs
  if atLineEnd cs then .ok cs.tail else .error tokenFault

/-- Where the reading of a block stands: the breaks of blank lines, the column and what is left. -/
structure Margin where
  breaks : List Char
  column : Nat
  rest : List Char

def firstMargin (column widest : Nat) : List Char → Margin × Nat
  | [] => (⟨[], column, []⟩, widest)
  | c :: r =>
    if c = ' ' then firstMargin (column + 1) (max widest (column + 1)) r
    else if isBreak c then
      let (m, widest) := firstMargin 0 widest r
      ({ m with breaks := lineBreak c :: m.breaks }, widest)
    else (⟨[], column, c :: r⟩, widest)

inductive Lining
  /-- In a margin, after the break of a line that may start with a blank. -/
  | margin (last : Option (List Char × Bool)) (breaks : List Char) (column : Nat)
  /-- In a line; `deeper` when that starts with a blank. -/
  | line (deeper : Bool)

/-- What stands between two lines of a block: `last` is the break of the first one. -/
def junction (folded : Bool) (last : Option (List Char × Bool)) (breaks : List Char)
    (next : Char) : List Char :=
  match last with
  | none => breaks
  | some (ending, deeper) =>
    if folded && ending = ['\n'] && !deeper && !isBlank next then
      if breaks.isEmpty then [' '] else breaks
    else ending ++ breaks

def blockFrom (folded : Bool) (chomp : Chomp) (indent : Nat) :
    Lining → List Char → List Char × List Char
  | .margin last breaks column, cs =>
    let stop := chomp.text ((last.map Prod.fst).getD []) breaks
    match cs with
    | [] => (stop, [])
    | c :: r =>
      if c = ' ' && column < indent then
        blockFrom folded chomp indent (.margin last breaks (column + 1)) r
      else if isBreak c then
        blockFrom folded chomp indent (.margin last (breaks ++ [lineBreak c]) 0) r
      else if column = indent then
        let (s, rest) := blockFrom folded chomp indent (.line (isBlank c)) r
        (junction folded last breaks c ++ c :: s, rest)
      else (stop, c :: r)
  | .line deeper, cs =>
    match cs with
    | [] => (chomp.text [] [], [])
    | c :: r =>
      if isBreak c then
        blockFrom folded chomp indent (.margin (some ([lineBreak c], deeper)) [] 0) r
      else
        let (s, rest) := blockFrom folded chomp indent (.line deeper) r
        (c :: s, rest)

/-- The text of a block after its sign, inside a collection of some indentation. -/
def block (folded : Bool) (parent : Int) (cs : List Char) : Except Fault (List Char × List Char) := do
  let (header, r) ← blockHeader cs
  if !atSpace r then throw tokenFault
  let r ← restOfLine r
  let least := (max (parent + 1) 1).toNat
  match header.indent with
  | some n =>
    return blockFrom folded header.chomp (least + n - 1) (.margin none [] 0) r
  | none =>
    let (m, widest) := firstMargin 0 0 r
    return blockFrom folded header.chomp (max least widest) (.margin none m.breaks m.column) m.rest

end Switchboard.Yaml
