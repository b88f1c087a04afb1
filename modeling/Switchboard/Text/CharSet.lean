/-!
# Sets of characters

A class of characters is the list of its runs, each given by its first and last code point.
-/
namespace Switchboard

/-- A set of characters, as the first and last code points of its runs. -/
structure CharSet where
  runs : List (Nat × Nat)

namespace CharSet

def contains (s : CharSet) (c : Char) : Bool :=
  s.runs.any fun r => r.1 ≤ c.toNat && c.toNat ≤ r.2

theorem contains_iff {s : CharSet} {c : Char} :
    s.contains c = true ↔ ∃ r ∈ s.runs, r.1 ≤ c.toNat ∧ c.toNat ≤ r.2 := by
  simp [contains]

end CharSet

end Switchboard
