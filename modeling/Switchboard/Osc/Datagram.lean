import Switchboard.Osc.Argument

/-!
# Datagrams

A datagram holds an address, the type of its one argument and the argument, each filled up with
zeros to a multiple of four octets. A string ends with at least one zero, and a blob is led by
its size.
-/
namespace Switchboard.Osc

/-- Fills octets up with zeros to a multiple of four. -/
def padded (octets : List UInt8) : List UInt8 :=
  octets ++ List.replicate ((4 - octets.length % 4) % 4) 0

def stringOctets (s : String) : List UInt8 := padded (utf8 s ++ [0])

/-- A size in four octets, the most significant one first. -/
def sizeOctets (n : Nat) : List UInt8 :=
  [n / 2 ^ 24, n / 2 ^ 16, n / 2 ^ 8, n].map UInt8.ofNat

def Argument.tag : Argument → String
  | .blob _ => ",b"
  | .string _ => ",s"

def Argument.octets : Argument → List UInt8
  | .blob data => sizeOctets data.length ++ padded data
  | .string s => stringOctets s

/-- An address and a blob may not be empty. -/
def isSendable (address : String) (a : Argument) : Bool := address != "" && a != .blob []

def datagram (address : String) (a : Argument) : List UInt8 :=
  stringOctets address ++ stringOctets a.tag ++ a.octets

end Switchboard.Osc
