import Switchboard.Json.Reader
import Switchboard.Number.Literal
import Switchboard.Pattern.Item
import Switchboard.Text.Identifier

/-!
# Reading patterns

The text of a pattern is cut into tokens, a backslash and the character after it being one, and
then read item by item. A text that breaks a rule is no pattern, and neither is one whose groups are
nested too deep to be read. Recursion is bounded by the number of tokens, since every item and every
opening of a group takes one.
-/
namespace Switchboard.Pattern

inductive Token
  | plain (c : Char)
  | escaped (c : Char)
  deriving DecidableEq

/-- The tokens of a text; none if a backslash ends it. -/
def tokens? : List Char → Option (List Token)
  | [] => some []
  | ['\\'] => none
  | '\\' :: c :: cs => (tokens? cs).map (.escaped c :: ·)
  | c :: cs => (tokens? cs).map (.plain c :: ·)

def Token.chars : Token → List Char
  | .plain c => [c]
  | .escaped c => ['\\', c]

structure Progress where
  rest : List Token
  flags : Flags
  /-- The widths of the groups opened so far, those still open without one. -/
  widths : List (Option Width) := []
  names : List (String × Nat) := []
  /-- The number of groups at the opening of the outermost look behind. -/
  behindFrom : Option Nat := none
  /-- The greatest group that a condition asks for by its number. -/
  asked : Nat := 0
  /-- How many calls may still be opened. -/
  room : Nat := Value.callLimit

abbrev Reading := StateT Progress Option

namespace Reading

def fail {α : Type} : Reading α := StateT.lift none

/-- Reads what stands deeper by some calls. -/
def deeper {α : Type} (calls : Nat) (read : Reading α) : Reading α := do
  let room := (← get).room
  if room < calls then fail
  else
    modify fun p => { p with room := room - calls }
    let a ← read
    modify fun p => { p with room := room }
    return a

/-- One more than the number of groups opened so far. -/
def groupCount : Reading Nat := do return (← get).widths.length + 1

def next? : Reading (Option Token) := do return (← get).rest.head?

def advance : Reading Unit := modify fun p => { p with rest := p.rest.drop 1 }

/-- Takes the next token; there has to be one. -/
def take : Reading Token := do
  match ← next? with
  | some t => advance; return t
  | none => fail

def accept (c : Char) : Reading Bool := do
  if (← next?) = some (.plain c) then
    advance
    return true
  else return false

def expect (c : Char) : Reading Unit := do
  if !(← accept c) then fail

def takeUpTo (p : Char → Bool) : Nat → Reading (List Char)
  | 0 => return []
  | n + 1 => do
    match ← next? with
    | some (.plain c) =>
      if p c then
        advance
        return c :: (← takeUpTo p n)
      else return []
    | _ => return []

def takeAll (p : Char → Bool) : Reading (List Char) := do takeUpTo p (← get).rest.length

def takeUntil (c : Char) : Reading (List Token) := do
  let rest := (← get).rest
  let before := rest.takeWhile (· != .plain c)
  match rest.dropWhile (· != .plain c) with
  | [] => fail
  | _ :: after =>
    modify fun p => { p with rest := after }
    return before

/-- A name of a group, which a character ends. -/
def takeName (c : Char) : Reading (List Char) := do
  let name := (← takeUntil c).flatMap Token.chars
  if name.isEmpty then fail else return name

def isClosed (group : Nat) : Reading Bool := do
  return group != 0 && ((← get).widths[group - 1]?.join).isSome

/-- A look behind may refer only to groups that were closed before it. -/
def checkBehind (group : Nat) : Reading Unit := do
  match (← get).behindFrom with
  | none => return
  | some count =>
    if !(← isClosed group) then fail
    if count ≤ group then fail

def openGroup (name : Option (List Char)) : Reading Nat := do
  let index ← groupCount
  modify fun p => { p with widths := p.widths ++ [none] }
  match name with
  | none => return index
  | some cs =>
    let name := String.ofList cs
    if ((← get).names.lookup name).isSome then fail
    modify fun p => { p with names := (name, index) :: p.names }
    return index

def widthOf (body : List Item) : Reading Width := do
  let widths := (← get).widths
  return itemsWidth (fun g => (widths[g - 1]?.join).getD .zero) body

def closeGroup (index : Nat) (body : List Item) : Reading Unit := do
  let width ← widthOf body
  modify fun p => { p with widths := p.widths.set (index - 1) (some width) }

end Reading

open Reading

def isHex (c : Char) : Bool := (Text.hexValue? c).isSome

def isOctal (c : Char) : Bool := '0' ≤ c && c ≤ '7'

def isAsciiDigit (c : Char) : Bool := '0' ≤ c && c ≤ '9'

def valueIn (base : Nat) (cs : List Char) : Nat :=
  cs.foldl (fun n c => base * n + (Text.hexValue? c).getD 0) 0

def readHex (n : Nat) : Reading Nat := do
  let ds ← takeUpTo isHex n
  if ds.length = n then return valueIn 16 ds else fail

def controlCode? : Char → Option Nat
  | 'a' => some 7
  | 'b' => some 8
  | 'f' => some 12
  | 'n' => some 10
  | 'r' => some 13
  | 't' => some 9
  | 'v' => some 11
  | '\\' => some 92
  | _ => none

def kind? : Char → Option (CharKind × Bool)
  | 'd' => some (.digit, false)
  | 'D' => some (.digit, true)
  | 's' => some (.blank, false)
  | 'S' => some (.blank, true)
  | 'w' => some (.word, false)
  | 'W' => some (.word, true)
  | _ => none

def anchor? : Char → Option Anchor
  | 'A' => some .textStart
  | 'Z' => some .textEnd
  | 'b' => some .boundary
  | 'B' => some .noBoundary
  | _ => none

/-- An escape that stands for a code point, in a set as well as outside. -/
def readCode (c : Char) : Reading Nat := do
  match c with
  | 'x' => readHex 2
  | 'u' => readHex 4
  | 'U' =>
    let n ← readHex 8
    if n ≤ 0x10ffff then return n else fail
  | c => if c.isAlphanum then fail else return c.toNat

def octalCode (ds : List Char) : Reading Nat := do
  let n := valueIn 8 ds
  if n ≤ 0o377 then return n else fail

def readBackref (ds : List Char) : Reading Item := do
  let group := valueIn 10 ds
  if group < (← groupCount) then
    if !(← isClosed group) then fail
    checkBehind group
    return .backref group
  else fail

def readEscape (c : Char) : Reading Item := do
  if let some a := anchor? c then return .anchor a
  if let some (k, negated) := kind? c then return .set false [.kind k negated]
  if let some n := controlCode? c then return .literal n
  if c = '0' then return .literal (valueIn 8 (← takeUpTo isOctal 2))
  if isAsciiDigit c then
    match ← takeUpTo isAsciiDigit 1 with
    | [] => readBackref [c]
    | d :: _ =>
      if isOctal c && isOctal d then
        match ← takeUpTo isOctal 1 with
        | [] => readBackref [c, d]
        | e :: _ => return .literal (← octalCode [c, d, e])
      else readBackref [c, d]
  else return .literal (← readCode c)

def readMemberEscape (c : Char) : Reading Member := do
  if let some n := controlCode? c then return .point n
  if let some (k, negated) := kind? c then return .kind k negated
  if isOctal c then return .point (← octalCode (c :: (← takeUpTo isOctal 2)))
  else return .point (← readCode c)

def readMember : Token → Reading Member
  | .escaped c => readMemberEscape c
  | .plain c => return .point c.toNat

/-- The members of a set up to its closing bracket, last first. A closing bracket that comes first
stands for itself. -/
def readMembers : Nat → List Member → Reading (List Member)
  | 0, _ => fail
  | n + 1, acc => do
    let t ← take
    if t = .plain ']' && !acc.isEmpty then return acc
    let low ← readMember t
    if ← accept '-' then
      let u ← take
      if u = .plain ']' then return .point '-'.toNat :: low :: acc
      match low, ← readMember u with
      | .point a, .point b => if a ≤ b then readMembers n (.range a b :: acc) else fail
      | _, _ => fail
    else readMembers n (low :: acc)

/-- The set after an opening bracket. A single code point is a literal. -/
def readSet : Reading Item := do
  let negated ← accept '^'
  let members := (← readMembers ((← get).rest.length + 1) []).reverse.eraseDups
  match members with
  | [.point n] => return if negated then .notLiteral n else .literal n
  | _ => return .set negated members

/-- One more than the greatest number of repetitions that can be asked for. -/
def repeatLimit : Nat := 4294967295

def readBounds? : Reading (Option (Nat × Option Nat)) := do
  let start := (← get).rest
  if start.head? = some (.plain '\x7d') then return none
  let low ← takeAll isAsciiDigit
  let high ← if ← accept ',' then takeAll isAsciiDigit else pure low
  if ← accept '\x7d' then
    let least := valueIn 10 low
    if repeatLimit ≤ least then fail
    if high.isEmpty then return some (least, none)
    let most := valueIn 10 high
    if repeatLimit ≤ most then fail
    if most < least then fail
    return some (least, some most)
  else
    modify fun p => { p with rest := start }
    return none

/-- The bounds that a quantifier stands for; none if it stands for itself. -/
def readQuantifier? : Char → Reading (Option (Nat × Option Nat))
  | '?' => return some (0, some 1)
  | '*' => return some (0, none)
  | '+' => return some (1, none)
  | _ => readBounds?

def repeated : Item → Reading (List Item)
  | .anchor _ => fail
  | .loop _ _ _ _ => fail
  | i => return i.splice

def readGreed : Reading Greed := do
  if ← accept '?' then return .lazy
  if ← accept '+' then return .possessive
  return .greedy

def applyQuantifier (bounds : Nat × Option Nat) : List Item → Reading (List Item)
  | [] => fail
  | i :: acc => do
    let body ← repeated i
    let greed ← readGreed
    if (← get).flags.template then fail
    return .loop greed bounds.1 bounds.2 body :: acc

def flag? : Char → Option Flags
  | 'i' => some { ignoreCase := true }
  | 'm' => some { multiline := true }
  | 's' => some { dotAll := true }
  | 'x' => some { verbose := true }
  | 'a' => some { ascii := true }
  | 'u' => some { unicode := true }
  | 't' => some { template := true }
  | _ => none

/-- The flags from this letter on, and the character that ends them. -/
def readFlags (ends : List Char) : Nat → Flags → Char → Reading (Flags × Char)
  | 0, _, _ => fail
  | n + 1, acc, c => do
    match flag? c with
    | none => fail
    | some f =>
      let acc := acc.union f
      match ← take with
      | .plain d => if ends.contains d then return (acc, d) else readFlags ends n acc d
      | .escaped _ => fail

/-- The flags of a group, or none for flags of the whole pattern, which are set at once. -/
def readFlagChange? (c : Char) : Reading (Option FlagChange) := do
  let fuel := (← get).rest.length + 1
  let (added, mark) ← if c = '-' then pure ({}, '-') else readFlags [')', '-', ':'] fuel {} c
  if added.ascii && added.unicode then fail
  if mark = ')' then
    modify fun p => { p with flags := p.flags.union added }
    return none
  if added.template then fail
  if mark = ':' then return some ⟨added, {}⟩
  match ← take with
  | .plain d =>
    let (removed, _) ← readFlags [':'] fuel {} d
    if removed.choosesRepertoire || removed.template || added.overlaps removed then fail
    return some ⟨added, removed⟩
  | .escaped _ => fail

/-- The leaf that all alternatives start with. -/
def commonLeaf? : List (List Item) → Option Item
  | (i :: _) :: rest =>
    if i.sameLeaf i && rest.all (fun is => is.head?.any i.sameLeaf) then some i else none
  | _ => none

/-- The leaves that all alternatives start with, and the alternatives without them. -/
def factor : Nat → List (List Item) → List Item × List (List Item)
  | 0, alternatives => ([], alternatives)
  | n + 1, alternatives =>
    match commonLeaf? alternatives with
    | some i =>
      let (leaves, rest) := factor n (alternatives.map (·.drop 1))
      (i :: leaves, rest)
    | none => ([], alternatives)

def members? : List Item → Option (List Member)
  | [.literal n] => some [.point n]
  | [.set false ms] => some ms
  | _ => none

/-- Alternatives of one character each are a set, and leaves that all of them start with are put
in front. -/
def joinAlternatives : List (List Item) → List Item
  | [is] => is
  | alternatives =>
    let (leaves, rest) := factor ((alternatives.headD []).length) alternatives
    leaves ++ [match rest.mapM members? with
      | some ms => .set false ms.flatten.eraseDups
      | none => .branch rest]

inductive Piece
  | item (i : Item)
  | comment
  | flags

def readCondition : Reading Nat := do
  let name ← takeName ')'
  let group ← if Text.isIdentifier name then
      match (← get).names.lookup (String.ofList name) with
      | some g => pure g
      | none => fail
    else
      match Number.readInt? name with
      | some (.ofNat (g + 1)) =>
        modify fun p => { p with asked := max p.asked (g + 1) }
        pure (g + 1)
      | _ => fail
  checkBehind group
  return group

def readNamedBackref : Reading Item := do
  let name ← takeName ')'
  match (← get).names.lookup (String.ofList name) with
  | some group =>
    if !(← isClosed group) then fail
    checkBehind group
    return .backref group
  | none => fail

def isPatternSpace (c : Char) : Bool :=
  c = ' ' || c = '\t' || c = '\n' || c = '\r' || c = '\x0b' || c = '\x0c'

def skipLine : Reading Unit :=
  modify fun p => { p with rest := (p.rest.dropWhile (· != .plain '\n')).drop 1 }

/-- The most characters that a look behind may pass over. -/
def behindLimit : Nat := 2 ^ 32 - 1

mutual

/-- The items up to the end of an alternative; `acc` holds those read, last first. -/
def readItems : Nat → Bool → Bool → List Item → Reading (List Item)
  | 0, _, _, _ => fail
  | n + 1, verbose, first, acc => do
    match ← next? with
    | none => return acc.reverse.flatMap Item.splice
    | some (.plain '|') => return acc.reverse.flatMap Item.splice
    | some (.plain ')') => return acc.reverse.flatMap Item.splice
    | some t =>
      advance
      match t with
      | .escaped c => readItems n verbose first ((← readEscape c) :: acc)
      | .plain c =>
        if verbose && isPatternSpace c then readItems n verbose first acc
        else if verbose && c = '#' then
          skipLine
          readItems n verbose first acc
        else if c = '[' then readItems n verbose first ((← readSet) :: acc)
        else if c = '.' then readItems n verbose first (.anyChar :: acc)
        else if c = '^' then readItems n verbose first (.anchor .start :: acc)
        else if c = '$' then readItems n verbose first (.anchor .finish :: acc)
        else if c = '?' || c = '*' || c = '+' || c = '\x7b' then
          let bounds ← readQuantifier? c
          match bounds with
          | some bounds => readItems n verbose first (← applyQuantifier bounds acc)
          | none => readItems n verbose first (.literal c.toNat :: acc)
        else if c = '(' then
          let piece ← readParenthesis n verbose
          match piece with
          | .item i => readItems n verbose first (i :: acc)
          | .comment => readItems n verbose first acc
          | .flags =>
            if first && acc.isEmpty then
              let p ← get
              readItems n p.flags.verbose first acc
            else fail
        else readItems n verbose first (.literal c.toNat :: acc)

/-- The alternatives up to the end of a group, or of the whole pattern for `top`. -/
def readAlternatives : Nat → Bool → Bool → Bool → Reading (List (List Item))
  | 0, _, _, _ => fail
  | n + 1, top, verbose, first => do
    let items ← readItems n verbose (top && first) []
    if ← accept '|' then
      let p ← get
      let verbose := if top then p.flags.verbose else verbose
      return items :: (← readAlternatives n top verbose false)
    else return [items]

def readBody : Nat → Bool → Reading (List Item)
  | 0, _ => fail
  | n + 1, verbose => do
    let body := joinAlternatives (← deeper 2 (readAlternatives n false verbose false))
    expect ')'
    return body

def readParenthesis : Nat → Bool → Reading Piece
  | 0, _ => fail
  | n + 1, verbose => do
    if !(← accept '?') then readGroup n verbose none
    else
      match ← take with
      | .escaped _ => fail
      | .plain 'P' =>
        if ← accept '<' then
          let name ← takeName '>'
          if Text.isIdentifier name then readGroup n verbose (some name) else fail
        else if ← accept '=' then return .item (← readNamedBackref)
        else fail
      | .plain ':' => return .item (.group none {} (← readBody n verbose))
      | .plain '>' => return .item (.atomic (← readBody n verbose))
      | .plain '#' =>
        let _ ← takeUntil ')'
        return .comment
      | .plain '=' => return .item (.look none false (← readBody n verbose))
      | .plain '!' => return .item (.look none true (← readBody n verbose))
      | .plain '<' =>
        match ← take with
        | .plain '=' => readBehind n verbose false
        | .plain '!' => readBehind n verbose true
        | _ => fail
      | .plain '(' => readConditional n verbose
      | .plain c =>
        match ← readFlagChange? c with
        | none => return .flags
        | some change =>
          let inner := (verbose || change.added.verbose) && !change.removed.verbose
          return .item (.group none change (← readBody n inner))

def readGroup : Nat → Bool → Option (List Char) → Reading Piece
  | 0, _, _ => fail
  | n + 1, verbose, name => do
    let index ← openGroup name
    let body ← readBody n verbose
    closeGroup index body
    return .item (.group (some index) {} body)

/-- A look at the characters before, whose number has to be fixed. -/
def readBehind : Nat → Bool → Bool → Reading Piece
  | 0, _, _ => fail
  | n + 1, verbose, negated => do
    let outer := (← get).behindFrom
    let count ← groupCount
    modify fun p => { p with behindFrom := some (outer.getD count) }
    let body ← readBody n verbose
    modify fun p => { p with behindFrom := outer }
    let width ← widthOf body
    if width.least = width.most && width.least ≤ behindLimit then
      return .item (.look (some width.least) negated body)
    else fail

/-- Items that depend on whether a group took part. -/
def readConditional : Nat → Bool → Reading Piece
  | 0, _ => fail
  | n + 1, verbose => do
    let group ← readCondition
    let yes ← deeper 1 (readItems n verbose false [])
    let more ← accept '|'
    let no ← if more then deeper 1 (readItems n verbose false []) else pure []
    expect ')'
    return .item (.conditional group yes no)

end

/-- The items of a pattern and the flags that it sets for the whole of itself. -/
def read? (source : String) (flags : Flags) : Option (List Item × Flags) := do
  let tokens ← tokens? source.toList
  let (alternatives, p) ←
    (readAlternatives (5 * tokens.length + 5) true flags.verbose true).run
      { rest := tokens, flags := flags }
  if !p.rest.isEmpty then none
  if p.widths.length < p.asked then none
  if p.flags.ascii && p.flags.unicode then none
  return (joinAlternatives alternatives, p.flags)

end Switchboard.Pattern
