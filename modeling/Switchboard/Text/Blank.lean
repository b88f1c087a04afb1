import Switchboard.Text.CharSet

/-!
# Blank characters

Two classes of blanks are in use. `Char.isBlank` is the wider one: Unicode white space together
with the four information separators U+001C to U+001F. `Char.isWhite` is the Unicode property
itself, which leaves the separators out.
-/
namespace Switchboard

/-- The runs of the Unicode property White_Space. -/
def CharSet.white : CharSet where
  runs := [(0x9, 0xd), (0x20, 0x20), (0x85, 0x85), (0xa0, 0xa0), (0x1680, 0x1680),
    (0x2000, 0x200a), (0x2028, 0x2029), (0x202f, 0x202f), (0x205f, 0x205f), (0x3000, 0x3000)]

namespace Text

def isWhite (c : Char) : Bool := CharSet.white.contains c

/-- White space or an information separator. -/
def isBlank (c : Char) : Bool :=
  isWhite c || (0x1c ≤ c.toNat && c.toNat ≤ 0x1f)

theorem isBlank_of_isWhite {c : Char} (h : isWhite c = true) : isBlank c = true := by
  simp [isBlank, h]

def trimLeft (p : Char → Bool) (cs : List Char) : List Char := cs.dropWhile p

def trimRight (p : Char → Bool) (cs : List Char) : List Char := (cs.reverse.dropWhile p).reverse

def trim (p : Char → Bool) (cs : List Char) : List Char := trimRight p (trimLeft p cs)

@[simp] theorem trim_nil (p : Char → Bool) : trim p [] = [] := rfl

end Text

end Switchboard
