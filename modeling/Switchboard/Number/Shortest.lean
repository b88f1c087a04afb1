import Switchboard.Number.Double

/-!
# Shortest decimal text

A magnitude is written with the fewest decimal digits that read back as the same double. Of two
such decimals of equal length the nearer one is taken, and of two equally near ones the even one.
-/
namespace Switchboard

/-- The number `digits * 10 ^ exponent`. -/
structure Decimal where
  digits : Nat
  exponent : Int
  deriving DecidableEq

namespace Decimal

def trimZeros : Nat → Decimal → Decimal
  | 0, d => d
  | n + 1, d =>
    if d.digits % 10 = 0 then trimZeros n ⟨d.digits / 10, d.exponent + 1⟩ else d

end Decimal

namespace Magnitude

/-- The exponent `k` with `10 ^ (k - 1) ≤ r < 10 ^ k`, for positive magnitudes. -/
def decimalExponent (r : Magnitude) : Int :=
  let (n, d) := r.ratio
  if d ≤ n then Double.digitCount (n / d) else 1 - (Double.digitCount ((d - 1) / n) : Int)

def isReadFrom (r : Magnitude) (d : Decimal) : Bool :=
  Double.ofDecimal false d.digits d.exponent = .finite false r

def inUnits (r : Magnitude) : Int → Nat × Nat
  | .ofNat k => (r.ratio.1, r.ratio.2 * 10 ^ k)
  | .negSucc k => (r.ratio.1 * 10 ^ (k + 1), r.ratio.2)

/-- The decimal in units of `10 ^ e` that reads back, if one of the two neighbours does. -/
def onGrid? (r : Magnitude) (e : Int) : Option Decimal :=
  let (n, d) := r.inUnits e
  let below : Decimal := ⟨n / d, e⟩
  let above : Decimal := ⟨n / d + 1, e⟩
  match r.isReadFrom below, r.isReadFrom above with
  | true, true => some ⟨divHalfEven n d, e⟩
  | true, false => some below
  | false, true => some above
  | false, false => none

/-- The shortest decimal that reads back. Seventeen digits always do. -/
def shortest (r : Magnitude) : Decimal :=
  let k := r.decimalExponent
  match (List.range 17).findSome? fun n => r.onGrid? (k - (n + 1 : Nat)) with
  | some d => d.trimZeros 17
  | none => ⟨0, 0⟩

/-- The text of a magnitude: positional from `10 ^ -4` up to `10 ^ 16` with at least one digit on
either side of the point, and otherwise with an exponent of a sign and at least two digits. -/
def text (r : Magnitude) : String :=
  if r.val = 0 then "0.0"
  else
    let d := r.shortest
    let ds := Nat.toDigits 10 d.digits
    let point : Int := ds.length + d.exponent
    let zeros (n : Int) : List Char := List.replicate n.toNat '0'
    String.ofList <|
      if -4 < point ∧ point ≤ 16 then
        if point ≤ 0 then '0' :: '.' :: (zeros (-point) ++ ds)
        else if 0 ≤ d.exponent then ds ++ zeros d.exponent ++ ['.', '0']
        else ds.take point.toNat ++ '.' :: ds.drop point.toNat
      else
        let e := point - 1
        let es := Nat.toDigits 10 e.natAbs
        let mark := if e < 0 then '-' else '+'
        ds.take 1 ++ (if ds.length = 1 then [] else '.' :: ds.drop 1) ++
          'e' :: mark :: (zeros (2 - es.length) ++ es)

end Magnitude

namespace Double

def signText (negative : Bool) : String := if negative then "-" else ""

def text (notNumber infinity : String) : Double → String
  | .nan => notNumber
  | .infinite s => signText s ++ infinity
  | .finite s r => signText s ++ r.text

@[simp] theorem text_nan (a b : String) : text a b .nan = a := rfl

end Double

end Switchboard
