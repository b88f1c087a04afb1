import Switchboard.Value.Basic

/-!
# Nesting

A walk through a value calls itself for the values in it, and only so many calls may be open at a
time. So a value with too many levels cannot be gone through, and the walk ends in a fault. A walk
that takes several calls for each level comes to its end sooner.
-/
namespace Switchboard.Value

/-- How many calls of a walk may be open at a time: a thousand, less the few that lead to it. -/
def callLimit : Nat := 985

/-- How many levels a walk can go through that takes some calls for each of them. -/
def levelLimit (calls : Nat) : Nat := callLimit / calls

@[simp] theorem levelLimit_one : levelLimit 1 = 985 := rfl

@[simp] theorem levelLimit_three : levelLimit 3 = 328 := rfl

end Switchboard.Value
