/-!
# Doubles

A double is not a number, an infinity, or a signed magnitude. The magnitudes are counted upwards
from zero, so the rank of a magnitude decides every comparison, and an even rank is an even
significand. Arithmetic is exact on ratios of naturals and rounds once, a half going to the even
neighbour.
-/
namespace Switchboard

-- powers of integers are those of the core library, with or without an algebra of monoids around
attribute [instance (2000), default_instance (20000)] instPowNat

/-- The quotient of two naturals to the nearest integer, a half going to the even neighbour. -/
def divHalfEven (n d : Nat) : Nat :=
  let q := n / d
  if 2 * (n % d) < d then q
  else if d < 2 * (n % d) then q + 1
  else q + q % 2

/-- The ratio of naturals that equals `n / d` divided by a power of two. -/
def divTwoPow (n d : Nat) : Int → Nat × Nat
  | .ofNat k => (n, d * 2 ^ k)
  | .negSucc k => (n * 2 ^ (k + 1), d)

/-- The magnitudes, counted upwards from zero. -/
abbrev Magnitude := Fin (2047 * 2 ^ 52)

inductive Double
  | nan
  | infinite (negative : Bool)
  | finite (negative : Bool) (rank : Magnitude)
  deriving DecidableEq

namespace Magnitude

/-- The significand: below `2 ^ 53`, and the rank itself for the smallest magnitudes. -/
def significand (r : Magnitude) : Nat :=
  if r.val < 2 ^ 53 then r.val else 2 ^ 52 + r.val % 2 ^ 52

/-- The exponent of two that goes with the significand. -/
def exponent (r : Magnitude) : Int :=
  if r.val < 2 ^ 53 then -1074 else (r.val / 2 ^ 52 : Nat) - 1075

def ratio (r : Magnitude) : Nat × Nat := divTwoPow r.significand 1 (-r.exponent)

def floor (r : Magnitude) : Nat := r.ratio.1 / r.ratio.2

def isIntegral (r : Magnitude) : Bool := r.ratio.1 % r.ratio.2 = 0

end Magnitude

namespace Double

def zero : Double := .finite false 0

/-- The double of a rank; ranks past the last magnitude are infinite. -/
def ofRank (negative : Bool) (rank : Nat) : Double :=
  if h : rank < 2047 * 2 ^ 52 then .finite negative ⟨rank, h⟩ else .infinite negative

/-- The largest power of two that is at most the ratio of two positive naturals. -/
def binaryExponent (n d : Nat) : Int :=
  let guess : Int := (n.log2 : Int) - (d.log2 : Int)
  let scaled := divTwoPow n d guess
  if scaled.1 < scaled.2 then guess - 1 else guess

/-- The double nearest to a signed ratio, a half going to the even neighbour. -/
def ofRatio (negative : Bool) (n d : Nat) : Double :=
  if n = 0 then .finite negative 0
  else
    let q := max (binaryExponent n d - 52) (-1074)
    let scaled := divTwoPow n d q
    ofRank negative ((q + 1074).toNat * 2 ^ 52 + divHalfEven scaled.1 scaled.2)

def ofNat (n : Nat) : Double := ofRatio false n 1

/-- The nearest double of an integer, unless that is an infinity. -/
def ofInt? (n : Int) : Option Double :=
  match ofRatio (n < 0) n.natAbs 1 with
  | .infinite _ => none
  | x => some x

def digitCount (n : Nat) : Nat := (Nat.toDigits 10 n).length

/-- The double nearest to `digits * 10 ^ exponent`. Exponents so large that the value is past every
magnitude, or so small that it is under half of the least one, are settled by counting digits. -/
def ofDecimal (negative : Bool) (digits : Nat) (exponent : Int) : Double :=
  if digits = 0 then .finite negative 0
  else
    let places := exponent + digitCount digits
    if 310 < places then .infinite negative
    else if places < -330 then .finite negative 0
    else
      match exponent with
      | .ofNat k => ofRatio negative (digits * 10 ^ k) 1
      | .negSucc k => ofRatio negative digits (10 ^ (k + 1))

def isNaN : Double → Bool
  | .nan => true
  | _ => false

def isNegative : Double → Bool
  | .nan => false
  | .infinite s => s
  | .finite s _ => s

def isZero : Double → Bool
  | .finite _ r => r = 0
  | _ => false

/-- The place of a double in the order of all doubles that are numbers. -/
def key? : Double → Option Int
  | .nan => none
  | .infinite s => some (if s then -(2047 * 2 ^ 52) else 2047 * 2 ^ 52)
  | .finite s r => some (if s then -(r.val : Int) else r.val)

/-- Holds when both are numbers and the relation holds of their places in the order. -/
def compares (relation : Int → Int → Bool) (x y : Double) : Bool :=
  match x.key?, y.key? with
  | some a, some b => relation a b
  | _, _ => false

/-- Numeric equality: the two zeros are equal, and nothing equals what is not a number. -/
def eqv (x y : Double) : Bool := compares (fun a b => a == b) x y

def lt (x y : Double) : Bool := compares (fun a b => a < b) x y

def le (x y : Double) : Bool := compares (fun a b => a ≤ b) x y

/-- Equality with an integer, without rounding. -/
def eqInt (x : Double) (n : Int) : Bool :=
  match x with
  | .finite s r => r.isIntegral && (if s then -(r.floor : Int) else r.floor) == n
  | _ => false

/-- The integer towards zero, for finite doubles. -/
def truncate? : Double → Option Int
  | .finite s r => some (if s then -(r.floor : Int) else r.floor)
  | _ => none

def isIntegral : Double → Bool
  | .finite _ r => r.isIntegral
  | _ => false

def toInt? (x : Double) : Option Int := if x.isIntegral then x.truncate? else none

def mul : Double → Double → Double
  | .nan, _ => .nan
  | _, .nan => .nan
  | .infinite s, y => if y.isZero then .nan else .infinite (s != y.isNegative)
  | x, .infinite s => if x.isZero then .nan else .infinite (s != x.isNegative)
  | .finite s a, .finite t b =>
    ofRatio (s != t) (a.ratio.1 * b.ratio.1) (a.ratio.2 * b.ratio.2)

def neg : Double → Double
  | .nan => .nan
  | .infinite s => .infinite !s
  | .finite s r => .finite (!s) r

def add : Double → Double → Double
  | .nan, _ => .nan
  | _, .nan => .nan
  | .infinite s, .infinite t => if s = t then .infinite s else .nan
  | .infinite s, _ => .infinite s
  | _, .infinite t => .infinite t
  | .finite s a, .finite t b =>
    let signed (s : Bool) (n : Nat) : Int := if s then -(n : Int) else n
    let n := signed s (a.ratio.1 * b.ratio.2) + signed t (b.ratio.1 * a.ratio.2)
    ofRatio (if n = 0 then s && t else n < 0) n.natAbs (a.ratio.2 * b.ratio.2)

def divNat (x : Double) (d : Nat) : Double :=
  match x with
  | .finite s r => ofRatio s r.ratio.1 (r.ratio.2 * d)
  | x => x

/-- The double nearest to the value rounded to two decimal places. -/
def roundToHundredths : Double → Double
  | .finite s r => ofRatio s (divHalfEven (r.ratio.1 * 100) r.ratio.2) 100
  | x => x

/-- The part after the point, with the sign of the whole. -/
def fraction : Double → Double
  | .finite s r => ofRatio s (r.ratio.1 % r.ratio.2) r.ratio.2
  | .infinite s => .finite s 0
  | .nan => .nan

/-- The nearest integer of a finite double, a half going to the even neighbour. -/
def nearestInt? : Double → Option Int
  | .finite s r =>
    let n := divHalfEven r.ratio.1 r.ratio.2
    some (if s then -(n : Int) else n)
  | _ => none

@[simp] theorem key?_zero : zero.key? = some 0 := rfl

theorem compares_nan_left (f : Int → Int → Bool) (y : Double) : compares f .nan y = false := rfl

end Double

end Switchboard
