import Switchboard.Pattern.Reader
import Switchboard.Text.Blank
import Switchboard.Text.Digit
import Switchboard.Text.Fold
import Switchboard.Text.Word

/-!
# Searching with patterns

An item matches at a spot of the text and hands the spot after it to what follows; where that
fails, the item tries its other ways to match. A loop ends where a repetition would start at the
spot at which the one before it started, so a body that takes no character is not repeated for
ever.
-/
namespace Switchboard.Pattern

/-- A position in the text, and the positions between which groups matched last. -/
structure Spot where
  pos : Nat
  marks : List (Nat × Nat × Nat) := []

namespace Spot

def mark? (s : Spot) (group : Nat) : Option (Nat × Nat) := s.marks.lookup group

end Spot

/-- What remains to be matched after a spot. -/
abbrev Rest := Spot → Option Spot

def CharKind.contains (ascii : Bool) : CharKind → Char → Bool
  | .digit, c => if ascii then isAsciiDigit c else Text.isDecimal c
  | .blank, c => if ascii then isPatternSpace c else Text.isBlank c
  | .word, c => if ascii then Text.isAsciiWord c else Text.isWord c

def matchesCode (flags : Flags) (code : Nat) (c : Char) : Bool :=
  if !flags.ignoreCase then c.toNat == code
  else if flags.ascii then Text.asciiLowerCode c.toNat == Text.asciiLowerCode code
  else Text.letterOf c.toNat == Text.letterOf code

def anyWithin (first last : Nat) (codes : List Nat) : Bool :=
  codes.any fun n => first ≤ n && n ≤ last

/-- Whether a character belongs to a set. Beyond the first plane letter case is looked at less
closely: a point is met by the lower-case partner only. -/
def Member.contains (flags : Flags) (c : Char) : Member → Bool
  | .kind k negated => k.contains flags.ascii c != negated
  | .point n =>
    if flags.ignoreCase && 0xffff < n then
      (if flags.ascii then Text.asciiLowerCode c.toNat else Text.lowerCode c.toNat) == n
    else matchesCode flags n c
  | .range a b =>
    let n := c.toNat
    if !flags.ignoreCase then a ≤ n && n ≤ b
    else
      let low := if flags.ascii then Text.asciiLowerCode n else Text.lowerCode n
      let same := if flags.ascii then
          low :: (if 0x61 ≤ low && low ≤ 0x7a then [low - 0x20] else [])
        else Text.sameLetters n
      anyWithin a (min b 0xffff) same ||
        (0xffff < b && anyWithin a b (low :: Text.codesWithLower low))

/-- The class of characters that an item stands for, if it takes exactly one. -/
def Item.class? (flags : Flags) : Item → Option (Char → Bool)
  | .literal n => some (matchesCode flags n)
  | .notLiteral n => some fun c => !matchesCode flags n c
  | .anyChar => some fun c => flags.dotAll || c != '\n'
  | .set negated ms => some fun c => (ms.any (Member.contains flags c)) != negated
  | _ => none

def wordAt (text : Array Char) (ascii : Bool) (pos : Nat) : Bool :=
  match text[pos]? with
  | some c => CharKind.word.contains ascii c
  | none => false

/-- One of the two sides of a position is a word character and the other is not. -/
def isBoundary (text : Array Char) (ascii : Bool) (pos : Nat) : Bool :=
  (pos != 0 && wordAt text ascii (pos - 1)) != wordAt text ascii pos

def Anchor.holds (text : Array Char) (flags : Flags) (pos : Nat) : Anchor → Bool
  | .start => pos == 0 || flags.multiline && text[pos - 1]? == some '\n'
  | .finish =>
    pos == text.size || (text[pos]? == some '\n' && (flags.multiline || pos + 1 == text.size))
  | .textStart => pos == 0
  | .textEnd => pos == text.size
  | .boundary => text.size != 0 && isBoundary text flags.ascii pos
  | .noBoundary => text.size != 0 && !isBoundary text flags.ascii pos

def sameChar (flags : Flags) (c d : Char) : Bool :=
  if !flags.ignoreCase then c == d
  else if flags.ascii then Text.asciiLowerCode c.toNat == Text.asciiLowerCode d.toNat
  else Text.lowerCode c.toNat == Text.lowerCode d.toNat

def repeatsAt (text : Array Char) (flags : Flags) (first last pos : Nat) : Bool :=
  (List.range (last - first)).all fun i =>
    match text[first + i]?, text[pos + i]? with
    | some c, some d => sameChar flags c d
    | _, _ => false

def countClass (text : Array Char) (p : Char → Bool) (pos : Nat) : Nat → Nat
  | 0 => 0
  | n + 1 =>
    match text[pos]? with
    | some c => if p c then countClass text p (pos + 1) n + 1 else 0
    | none => 0

/-- Tries the counts from the given one down to `least`. -/
def tryDown (least : Nat) (k : Nat → Option Spot) : Nat → Option Spot
  | 0 => if least = 0 then k 0 else none
  | n + 1 =>
    if n + 1 < least then none
    else match k (n + 1) with
      | some s => some s
      | none => tryDown least k n

def classLoop (text : Array Char) (p : Char → Bool) (greed : Greed) (least : Nat)
    (most : Option Nat) (s : Spot) (k : Rest) : Option Spot :=
  let room := text.size - s.pos
  let count := countClass text p s.pos (match most with | some m => min m room | none => room)
  let after (n : Nat) : Option Spot := k { s with pos := s.pos + n }
  if count < least then none
  else match greed with
    | .greedy => tryDown least after count
    | .lazy => (List.range' least (count - least + 1)).findSome? after
    | .possessive => after count

/-- A loop that tries to repeat its body before it goes on. `last` is where the last repetition
that could have been left out started. -/
def greedyLoop (body : Spot → Rest → Option Spot) (least : Nat) (most : Option Nat) (k : Rest) :
    Nat → Nat → Option Nat → Spot → Option Spot
  | 0, _, _, _ => none
  | n + 1, count, last, s =>
    if count < least then body s (greedyLoop body least most k n (count + 1) last)
    else
      let another := if most.all (count < ·) && last != some s.pos then
          body s (greedyLoop body least most k n (count + 1) (some s.pos))
        else none
      match another with
      | some t => some t
      | none => k s

/-- A loop that tries to go on before it repeats its body. -/
def lazyLoop (body : Spot → Rest → Option Spot) (least : Nat) (most : Option Nat) (k : Rest) :
    Nat → Nat → Option Nat → Spot → Option Spot
  | 0, _, _, _ => none
  | n + 1, count, last, s =>
    if count < least then body s (lazyLoop body least most k n (count + 1) last)
    else
      match k s with
      | some t => some t
      | none =>
        if most.all (count < ·) && last != some s.pos then
          body s (lazyLoop body least most k n (count + 1) (some s.pos))
        else none

/-- A loop that gives no repetition back. -/
def possessiveLoop (body : Spot → Rest → Option Spot) (least : Nat) (most : Option Nat) :
    Nat → Nat → Option Nat → Spot → Option Spot
  | 0, _, _, _ => none
  | n + 1, count, last, s =>
    if count < least then
      (body s some).bind (possessiveLoop body least most n (count + 1) last)
    else if most.all (count < ·) && last != some s.pos then
      match body s some with
      | some t => possessiveLoop body least most n (count + 1) (some s.pos) t
      | none => some s
    else some s

/-- A bound on the repetitions of a loop: beyond the least number every one but the last starts
further on. -/
def loopBound (text : Array Char) (least : Nat) : Nat := least + text.size + 3

def loopWith (text : Array Char) (body : Spot → Rest → Option Spot) (greed : Greed) (least : Nat)
    (most : Option Nat) (s : Spot) (k : Rest) : Option Spot :=
  match greed with
  | .greedy => greedyLoop body least most k (loopBound text least) 0 none s
  | .lazy => lazyLoop body least most k (loopBound text least) 0 none s
  | .possessive =>
    (possessiveLoop body least most (loopBound text least) 0 none s).bind k

def bodyClass? (flags : Flags) : List Item → Option (Char → Bool)
  | [i] => i.class? flags
  | _ => none

mutual

def matchItem (text : Array Char) : Item → Flags → Spot → Rest → Option Spot
  | .literal n, flags, s, k =>
    match text[s.pos]? with
    | some c => if matchesCode flags n c then k { s with pos := s.pos + 1 } else none
    | none => none
  | .notLiteral n, flags, s, k =>
    match text[s.pos]? with
    | some c => if matchesCode flags n c then none else k { s with pos := s.pos + 1 }
    | none => none
  | .anyChar, flags, s, k =>
    match text[s.pos]? with
    | some c => if flags.dotAll || c != '\n' then k { s with pos := s.pos + 1 } else none
    | none => none
  | .set negated ms, flags, s, k =>
    match text[s.pos]? with
    | some c =>
      if (ms.any (Member.contains flags c)) != negated then k { s with pos := s.pos + 1 } else none
    | none => none
  | .anchor a, flags, s, k => if a.holds text flags s.pos then k s else none
  | .backref g, flags, s, k =>
    match s.mark? g with
    | some (first, last) =>
      if repeatsAt text flags first last s.pos then k { s with pos := s.pos + (last - first) }
      else none
    | none => none
  | .group index change body, flags, s, k =>
    matchItems text body (change.apply flags) s fun t =>
      match index with
      | some g => k { t with marks := (g, s.pos, t.pos) :: t.marks.filter (·.1 != g) }
      | none => k t
  | .atomic body, flags, s, k => (matchItems text body flags s some).bind k
  | .look behind negated body, flags, s, k =>
    let back := behind.getD 0
    let found := if s.pos < back then none
      else matchItems text body flags { s with pos := s.pos - back } some
    match found, negated with
    | some t, false => k { s with marks := t.marks }
    | none, true => k s
    | _, _ => none
  | .conditional g yes no, flags, s, k =>
    if (s.mark? g).isSome then matchItems text yes flags s k else matchItems text no flags s k
  | .branch alternatives, flags, s, k => matchAny text alternatives flags s k
  | .loop greed least most body, flags, s, k =>
    match bodyClass? flags body with
    | some p => classLoop text p greed least most s k
    | none => loopWith text (fun t r => matchItems text body flags t r) greed least most s k

def matchItems (text : Array Char) : List Item → Flags → Spot → Rest → Option Spot
  | [], _, s, k => k s
  | i :: is, flags, s, k => matchItem text i flags s fun t => matchItems text is flags t k

def matchAny (text : Array Char) : List (List Item) → Flags → Spot → Rest → Option Spot
  | [], _, _, _ => none
  | is :: alternatives, flags, s, k =>
    match matchItems text is flags s k with
    | some t => some t
    | none => matchAny text alternatives flags s k

end

def found (items : List Item) (flags : Flags) (text : Array Char) : Bool :=
  (List.range (text.size + 1)).any fun pos => (matchItems text items flags ⟨pos, []⟩ some).isSome

/-- Whether a pattern as a browser spells it is found in a text, letter case aside. A text that is
no pattern is found nowhere. -/
def search (pattern : String) (text : String) : Bool :=
  match read? pattern { ignoreCase := true } with
  | some (items, flags) => found items flags text.toList.toArray
  | none => false

@[simp] theorem matchItems_nil (text : Array Char) (flags : Flags) (s : Spot) (k : Rest) :
    matchItems text [] flags s k = k s := by simp [matchItems]

end Switchboard.Pattern
