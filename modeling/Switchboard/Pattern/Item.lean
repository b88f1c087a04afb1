/-!
# Patterns

A pattern is a list of items that match one after the other. Items that stand for one character
are kept as code points, so that a pattern may name code points that no text holds.
-/
namespace Switchboard

namespace Pattern

structure Flags where
  ignoreCase : Bool := false
  multiline : Bool := false
  dotAll : Bool := false
  verbose : Bool := false
  ascii : Bool := false
  unicode : Bool := false
  template : Bool := false
  deriving DecidableEq

namespace Flags

def union (a b : Flags) : Flags where
  ignoreCase := a.ignoreCase || b.ignoreCase
  multiline := a.multiline || b.multiline
  dotAll := a.dotAll || b.dotAll
  verbose := a.verbose || b.verbose
  ascii := a.ascii || b.ascii
  unicode := a.unicode || b.unicode
  template := a.template || b.template

def minus (a b : Flags) : Flags where
  ignoreCase := a.ignoreCase && !b.ignoreCase
  multiline := a.multiline && !b.multiline
  dotAll := a.dotAll && !b.dotAll
  verbose := a.verbose && !b.verbose
  ascii := a.ascii && !b.ascii
  unicode := a.unicode && !b.unicode
  template := a.template && !b.template

def overlaps (a b : Flags) : Bool :=
  a.ignoreCase && b.ignoreCase || a.multiline && b.multiline || a.dotAll && b.dotAll ||
    a.verbose && b.verbose || a.ascii && b.ascii || a.unicode && b.unicode ||
    a.template && b.template

def choosesRepertoire (a : Flags) : Bool := a.ascii || a.unicode

end Flags

structure FlagChange where
  added : Flags := {}
  removed : Flags := {}
  deriving DecidableEq

/-- The flags inside a group. A repertoire that is turned on replaces the one outside. -/
def FlagChange.apply (c : FlagChange) (flags : Flags) : Flags :=
  let outer := if c.added.choosesRepertoire then { flags with ascii := false, unicode := false }
    else flags
  (outer.union c.added).minus c.removed

inductive CharKind
  | digit
  | blank
  | word
  deriving DecidableEq

inductive Member
  | point (code : Nat)
  | range (first last : Nat)
  | kind (k : CharKind) (negated : Bool)
  deriving DecidableEq

inductive Anchor
  | start
  | finish
  | textStart
  | textEnd
  | boundary
  | noBoundary
  deriving DecidableEq

/-- How many repetitions a loop tries first, and whether it gives any back. -/
inductive Greed
  | greedy
  | lazy
  | possessive
  deriving DecidableEq

inductive Item
  | literal (code : Nat)
  | notLiteral (code : Nat)
  | anyChar
  | set (negated : Bool) (members : List Member)
  | anchor (a : Anchor)
  | backref (group : Nat)
  | group (index : Option Nat) (change : FlagChange) (body : List Item)
  | atomic (body : List Item)
  /-- A look at the text ahead, or at the given number of characters behind. -/
  | look (behind : Option Nat) (negated : Bool) (body : List Item)
  | conditional (group : Nat) (yes no : List Item)
  | branch (alternatives : List (List Item))
  | loop (greed : Greed) (least : Nat) (most : Option Nat) (body : List Item)

namespace Item

def sameLeaf : Item → Item → Bool
  | .literal a, .literal b => a == b
  | .notLiteral a, .notLiteral b => a == b
  | .anyChar, .anyChar => true
  | .set a m, .set b n => a == b && m == n
  | .anchor a, .anchor b => a == b
  | .backref a, .backref b => a == b
  | _, _ => false

/-- A group without an index and flags of its own is replaced by its body. -/
def splice : Item → List Item
  | .group none change body =>
    if change = {} then body else [.group none change body]
  | i => [i]

end Item

/-- No width is counted beyond this one. -/
def widthLimit : Nat := 2 ^ 64

/-- The least and the greatest number of characters. -/
structure Width where
  least : Nat
  most : Nat
  deriving DecidableEq

namespace Width

def zero : Width := ⟨0, 0⟩

def add (a b : Width) : Width :=
  ⟨min (a.least + b.least) widthLimit, min (a.most + b.most) widthLimit⟩

def either (a b : Width) : Width := ⟨min a.least b.least, max a.most b.most⟩

def times (w : Width) (least : Nat) (most : Option Nat) : Width :=
  ⟨min (w.least * least) widthLimit,
    match most with
    | some m => min (w.most * m) widthLimit
    | none => if w.most = 0 then 0 else widthLimit⟩

end Width

mutual

/-- The width of an item, given the widths of the groups read so far. -/
def itemWidth (groups : Nat → Width) : Item → Width
  | .literal _ => ⟨1, 1⟩
  | .notLiteral _ => ⟨1, 1⟩
  | .anyChar => ⟨1, 1⟩
  | .set _ _ => ⟨1, 1⟩
  | .anchor _ => .zero
  | .backref g => groups g
  | .group _ _ body => itemsWidth groups body
  | .atomic body => itemsWidth groups body
  | .look _ _ _ => .zero
  | .conditional _ yes no => (itemsWidth groups yes).either (itemsWidth groups no)
  | .branch alternatives => alternativesWidth groups alternatives
  | .loop _ least most body => (itemsWidth groups body).times least most

def itemsWidth (groups : Nat → Width) : List Item → Width
  | [] => .zero
  | i :: is => (itemWidth groups i).add (itemsWidth groups is)

def alternativesWidth (groups : Nat → Width) : List (List Item) → Width
  | [] => ⟨widthLimit, 0⟩
  | is :: alternatives => (itemsWidth groups is).either (alternativesWidth groups alternatives)

end

end Pattern

end Switchboard
