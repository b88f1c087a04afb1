import Switchboard.Value.Nesting
import Switchboard.Yaml.Node
import Switchboard.Yaml.Token

/-!
# From tokens to nodes

A document is read by recursive descent. An anchor names a node for the aliases after it; an alias
within the collection that it names stands for an empty one. The text holds one document, which may
not be nested too deep; what stands for an alias has been read before, so it may be.
-/
namespace Switchboard.Yaml

def arrangementFault : Fault := .document .arrangement

def referenceFault : Fault := .document .reference

namespace Tree

structure State where
  tokens : List Token
  /-- The fault at which the tokens end, if they do not end with the text. -/
  atEnd : Fault
  /-- How many levels are left. -/
  room : Nat
  handles : List (String × String) := []
  anchors : List (String × Node) := []

abbrev Reader := StateT State (Except Fault)

def peek : Reader Token := do
  let s ← get
  match s.tokens with
  | t :: _ => return t
  | [] => throw s.atEnd

def advance : Reader Unit := modify fun s => { s with tokens := s.tokens.tail }

/-- The tags by their handles that every document knows. -/
def commonHandles : List (String × String) := [("!", "!"), ("!!", kindStart)]

def fullTag (handle : Option String) (rest : String) : Reader String := do
  match handle with
  | none => return rest
  | some h =>
    match (← get).handles.lookup h with
    | some start => return start ++ rest
    | none => throw arrangementFault

def anchor? : Reader (Option String) := do
  match ← peek with
  | .anchor n => do
    advance
    return some n
  | _ => return none

def tag? : Reader (Option String) := do
  match ← peek with
  | .tag h rest => do
    advance
    return some (← fullTag h rest)
  | _ => return none

/-- The anchor and the tag of a node, in either order. -/
def properties : Reader (Option String × Option String) := do
  match ← anchor? with
  | some n => return (some n, ← tag?)
  | none =>
    match ← tag? with
    | some t => return (← anchor?, some t)
    | none => return (none, none)

/-- Names a node. No anchor is given twice. -/
def declare (anchor : Option String) (node : Node) : Reader Unit := do
  match anchor with
  | none => return
  | some n =>
    if ((← get).anchors.lookup n).isSome then throw referenceFault
    modify fun s => { s with anchors := (n, node) :: s.anchors }

/-- Puts the finished node in the place of the one first named. -/
def settle (anchor : Option String) (node : Node) : Reader Node := do
  match anchor with
  | none => return node
  | some n =>
    modify fun s => { s with anchors := (n, node) :: s.anchors }
    return node

/-- The type of a tag; the tag of one exclamation mark leaves it open. -/
def kindOf (tag : Option String) (default : Kind) : Kind :=
  match tag with
  | none => default
  | some t => if t = "!" then default else .ofTag t

def scalarNode (tag : Option String) (plain : Bool) (text : String) : Node :=
  let looksLike := Kind.ofPlain text
  match tag with
  | none => .scalar (if plain then looksLike else .text) text
  | some _ => .scalar (kindOf tag looksLike) text

def follows (test : Token → Bool) : Reader Bool := do return test (← peek)

def endsBlockItem : Token → Bool
  | .blockEntry | .blockEnd => true
  | _ => false

def endsIndentless : Token → Bool
  | .blockEntry | .key | .value | .blockEnd => true
  | _ => false

def endsBlockPart : Token → Bool
  | .key | .value | .blockEnd => true
  | _ => false

def endsSequenceKey : Token → Bool
  | .value | .flowEntry | .flowSequenceEnd => true
  | _ => false

def endsSequenceValue : Token → Bool
  | .flowEntry | .flowSequenceEnd => true
  | _ => false

def endsMappingKey : Token → Bool
  | .value | .flowEntry | .flowMappingEnd => true
  | _ => false

def endsMappingValue : Token → Bool
  | .flowEntry | .flowMappingEnd => true
  | _ => false

/-- Reads what stands one level deeper. -/
def within (read : Reader Node) : Reader Node := do
  match (← get).room with
  | 0 => throw .nestedTooDeep
  | room + 1 => do
    modify fun s => { s with room }
    let found ← read
    modify fun s => { s with room := room + 1 }
    return found

/-- Goes past the comma before an entry that is not the first one. -/
def comma (first : Bool) : Reader Unit := do
  if first then return
  match ← peek with
  | .flowEntry => advance
  | _ => throw arrangementFault

mutual

/-- A node. In a block mapping a sequence need not be indented. The bound is more than the depth
and the number of the nodes. -/
def node : Nat → Bool → Bool → Reader Node
  | 0, _, _ => throw arrangementFault
  | n + 1, inBlock, indentless => do
    match ← peek with
    | .alias name => do
      advance
      match (← get).anchors.lookup name with
      | some found => return found
      | none => throw referenceFault
    | _ =>
      within do
        let (anchor, tag) ← properties
        body n inBlock indentless anchor tag (← peek)

/-- A node after its properties, from its first token on. -/
def body : Nat → Bool → Bool → Option String → Option String → Token → Reader Node
  | 0, _, _, _, _, _ => throw arrangementFault
  | n + 1, inBlock, indentless, anchor, tag, t => do
    let sequenceKind := kindOf tag .sequence
    let mappingKind := kindOf tag .mapping
    let enter (start : Node) : Reader Unit := do
      declare anchor start
      advance
    match t with
    | .scalar plain text => do
      let made := scalarNode tag plain text
      enter made
      return made
    | .flowSequenceStart => do
      enter (.sequence sequenceKind [])
      settle anchor (.sequence sequenceKind (← flowItems n true))
    | .flowMappingStart => do
      enter (.mapping mappingKind [])
      settle anchor (.mapping mappingKind (← flowFields n true))
    | .blockEntry =>
      if indentless then do
        declare anchor (.sequence sequenceKind [])
        settle anchor (.sequence sequenceKind (← indentlessItems n))
      else emptyNode anchor tag
    | .blockSequenceStart =>
      if inBlock then do
        enter (.sequence sequenceKind [])
        settle anchor (.sequence sequenceKind (← blockItems n))
      else emptyNode anchor tag
    | .blockMappingStart =>
      if inBlock then do
        enter (.mapping mappingKind [])
        settle anchor (.mapping mappingKind (← blockFields n))
      else emptyNode anchor tag
    | _ => emptyNode anchor tag

def emptyNode (anchor tag : Option String) : Reader Node := do
  if anchor.isNone && tag.isNone then throw arrangementFault
  let made := scalarNode tag true ""
  declare anchor made
  return made

/-- A node, or nothing where one of the ending tokens follows. -/
def nodeUnless : Nat → (Token → Bool) → Bool → Bool → Reader Node
  | 0, _, _, _ => throw arrangementFault
  | n + 1, ends, inBlock, indentless => do
    if ← follows ends then return .nothing else node n inBlock indentless

def blockItems : Nat → Reader (List Node)
  | 0 => throw arrangementFault
  | n + 1 => do
    match ← peek with
    | .blockEntry => do
      advance
      let item ← nodeUnless n endsBlockItem true false
      return item :: (← blockItems n)
    | .blockEnd => do
      advance
      return []
    | _ => throw arrangementFault

def indentlessItems : Nat → Reader (List Node)
  | 0 => throw arrangementFault
  | n + 1 => do
    match ← peek with
    | .blockEntry => do
      advance
      let item ← nodeUnless n endsIndentless true false
      return item :: (← indentlessItems n)
    | _ => return []

def blockFields : Nat → Reader (List (Node × Node))
  | 0 => throw arrangementFault
  | n + 1 => do
    match ← peek with
    | .key => do
      advance
      let key ← nodeUnless n endsBlockPart true true
      let value ← blockValue n
      return (key, value) :: (← blockFields n)
    | .blockEnd => do
      advance
      return []
    | _ => throw arrangementFault

def blockValue : Nat → Reader Node
  | 0 => throw arrangementFault
  | n + 1 => do
    match ← peek with
    | .value => do
      advance
      nodeUnless n endsBlockPart true true
    | _ => return .nothing

def flowItems : Nat → Bool → Reader (List Node)
  | 0, _ => throw arrangementFault
  | n + 1, first => do
    match ← peek with
    | .flowSequenceEnd => do
      advance
      return []
    | _ => do
      comma first
      match ← peek with
      | .key => do
        advance
        let pair ← within do
          let key ← nodeUnless n endsSequenceKey false false
          let value ← flowValue n endsSequenceValue
          return .mapping .mapping [(key, value)]
        return pair :: (← flowItems n false)
      | .flowSequenceEnd => do
        advance
        return []
      | _ => do
        let item ← node n false false
        return item :: (← flowItems n false)

def flowValue : Nat → (Token → Bool) → Reader Node
  | 0, _ => throw arrangementFault
  | n + 1, ends => do
    match ← peek with
    | .value => do
      advance
      nodeUnless n ends false false
    | _ => return .nothing

def flowFields : Nat → Bool → Reader (List (Node × Node))
  | 0, _ => throw arrangementFault
  | n + 1, first => do
    match ← peek with
    | .flowMappingEnd => do
      advance
      return []
    | _ => do
      comma first
      match ← peek with
      | .key => do
        advance
        let key ← nodeUnless n endsMappingKey false false
        let value ← flowValue n endsMappingValue
        return (key, value) :: (← flowFields n false)
      | .flowMappingEnd => do
        advance
        return []
      | _ => do
        let key ← node n false false
        return (key, .nothing) :: (← flowFields n false)

end

/-- Takes note of a directive. Versions and handles are given once. -/
def noteDirective (versioned : Bool) (d : Directive) : Reader Bool := do
  match d with
  | .version major =>
    if versioned || major != 1 then throw arrangementFault
    return true
  | .handle h start =>
    if ((← get).handles.lookup h).isSome then throw arrangementFault
    modify fun s => { s with handles := (h, start) :: s.handles }
    return versioned
  | .other => return versioned

def directives : List Token → Bool → Reader Unit
  | .directive d :: ts, versioned => do
    let versioned ← noteDirective versioned d
    advance
    directives ts versioned
  | _, _ => modify fun s => { s with handles := s.handles ++ commonHandles }

def skipEnds : List Token → Reader Unit
  | .documentEnd :: ts => do
    advance
    skipEnds ts
  | _ => return

/-- Goes past the start of a document that is marked. -/
def markedStart : Reader Unit := do
  directives (← get).tokens false
  match ← peek with
  | .documentStart => advance
  | _ => throw arrangementFault

def endsDocument : Token → Bool
  | .directive _ | .documentStart | .documentEnd | .streamEnd => true
  | _ => false

/-- The root of the first document, if there is one. -/
def root (bound : Nat) : Reader (Option Node) := do
  match ← peek with
  | .streamEnd => return none
  | .directive _ | .documentStart => do
    markedStart
    return some (← nodeUnless bound endsDocument true false)
  | _ => do
    modify fun s => { s with handles := commonHandles }
    return some (← node bound true false)

/-- Nothing but marks may follow the document. -/
def finish : Reader Unit := do
  skipEnds (← get).tokens
  match ← peek with
  | .streamEnd => return
  | _ => do
    modify fun s => { s with handles := [] }
    markedStart
    throw referenceFault

def document (bound : Nat) : Reader (Option Node) := do
  match ← root bound with
  | none => return none
  | some found => do
    finish
    return some found

/-- The root of the document that some tokens make up. It is put together by two calls for each
level. -/
def ofTokens (ts : List Token) (fault : Option Fault) : Except Fault (Option Node) :=
  (document (4 * ts.length + 8)).run'
    { tokens := ts, atEnd := fault.getD arrangementFault, room := Value.levelLimit 2 }

end Tree

end Switchboard.Yaml
