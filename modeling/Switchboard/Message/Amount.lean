import Switchboard.Message.Markup
import Switchboard.Value.Number

/-!
# Amounts

How many bits, viewers and months a message speaks of, and what follows from them. A value that
cannot be read as a number counts as zero.
-/
namespace Switchboard.Amount

def ofValue : Value → Except Fault Double
  | .bool b => .ok (if b then .ofNat 1 else .zero)
  | .int n => Double.ofInt n
  | .double x => .ok x
  | v =>
    match Markup.textOf v with
    | .ok s => .ok ((Number.readDouble? s.toList).getD .zero)
    | .error f => if f.family = .value then .ok .zero else .error f

def reached? {α : Type} (thresholds : List (Nat × α)) (x : Double) : Option α :=
  (thresholds.find? fun t => (Double.ofNat t.1).le x).map Prod.snd

def cheerTiers : List (Nat × String) :=
  [(10000, "10000+"), (5000, "5000+"), (1000, "1000+"), (500, "500+"), (100, "100+"), (10, "10+")]

def cheerTier (bits : Value) : Except Fault String := do
  return (reached? cheerTiers (← ofValue bits)).getD "1+"

def raidSizes : List (Nat × String) :=
  [(1000, "massive"), (500, "huge"), (100, "large"), (50, "medium"), (10, "small")]

def raidSize (viewers : Value) : Except Fault String := do
  return (reached? raidSizes (← ofValue viewers)).getD "tiny"

/-- A tier of subscriptions: its number and its monthly price in hundredths. -/
structure Tier where
  number : Nat
  cents : Nat

def tiers : List (String × Tier) :=
  [("1000", ⟨1, 499⟩), ("2000", ⟨2, 999⟩), ("3000", ⟨3, 2499⟩), ("Prime", ⟨1, 0⟩)]

/-- The tier that a value names; what names none is the first one. -/
def tierOf (v : Value) : Except Fault Tier := do
  return (tiers.lookup (← Markup.textOf v)).getD ⟨1, 499⟩

def tierNumber (tier : Value) : Except Fault Nat := do return (← tierOf tier).number

/-- The value of a subscription over a number of months, to two places. -/
def subscriptionValue (tier months : Value) : Except Fault Double := do
  let t ← tierOf tier
  let x ← ofValue (if months.truthy then months else .int 1)
  return ((Double.ofRatio false t.cents 100).mul x).roundToHundredths

/-- The streamer's share of cheered bits, in dollars to two places. -/
def bitsInDollars (bits : Value) : Except Fault Double := do
  return ((← ofValue bits).mul (.ofRatio false 14 1000)).roundToHundredths

/-- The product of two numbers; anything else gives zero. -/
def product (a b : Value) : Except Fault Value :=
  match a, b with
  | .int m, .int n => .ok (.int (m * n))
  | .int m, .double y => do return .double ((← Double.ofInt m).mul y)
  | .double x, .int n => do return .double (x.mul (← Double.ofInt n))
  | .double x, .double y => .ok (.double (x.mul y))
  | _, _ => .ok (.int 0)

end Switchboard.Amount
