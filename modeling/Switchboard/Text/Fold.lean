import Switchboard.Text.Lower

/-!
# Letters that differ in case only

Two characters are the same letter when their lower-case partners are equal or belong to one
family of lower-case characters that share their capital.
-/
namespace Switchboard.Text

/-- The families of lower-case characters that share a capital, by code point. -/
def letterFamilies : List (List Nat) :=
  [[0x69, 0x131], [0x73, 0x17f], [0xb5, 0x3bc], [0x345, 0x3b9, 0x1fbe], [0x390, 0x1fd3],
   [0x3b0, 0x1fe3], [0x3b2, 0x3d0], [0x3b5, 0x3f5], [0x3b8, 0x3d1], [0x3ba, 0x3f0],
   [0x3c0, 0x3d6], [0x3c1, 0x3f1], [0x3c2, 0x3c3], [0x3c6, 0x3d5], [0x432, 0x1c80],
   [0x434, 0x1c81], [0x43e, 0x1c82], [0x441, 0x1c83], [0x442, 0x1c84, 0x1c85],
   [0x44a, 0x1c86], [0x463, 0x1c87], [0xa64b, 0x1c88], [0x1e61, 0x1e9b], [0xfb05, 0xfb06]]

def letterFamily (n : Nat) : List Nat := (letterFamilies.find? (·.contains n)).getD [n]

/-- The letter of a code point: the first member of its lower-case partner's family. -/
def letterOf (n : Nat) : Nat := (letterFamily (lowerCode n)).headD n

def sameLetters (n : Nat) : List Nat := (letterFamily (lowerCode n)).flatMap codesWithLower

def asciiLowerCode (n : Nat) : Nat := if 0x41 ≤ n ∧ n ≤ 0x5a then n + 32 else n

end Switchboard.Text
