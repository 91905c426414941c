import ManyTier.Lib.Text
import Mathlib.Algebra.Order.Field.Rat

/-! JSON values, as far as a reader of requests looks into them. -/
namespace ManyTier

/-- A number: unsigned, negative, or one that is no integer. -/
inductive JsonNumber where
  | posInt (n : UInt64)
  | negInt (n : Int)
  | float (bits : UInt64)
  deriving DecidableEq

inductive Json where
  | null
  | bool (b : Bool)
  | number (n : JsonNumber)
  | string (s : Text)
  | array (items : List Json)
  | object (entries : List (Text × Json))

/-- The value of a double: a sign, eleven bits of exponent and 52 of mantissa. -/
def floatValue (bits : UInt64) : ℚ :=
  let exponent : Nat := bits.toNat / 2 ^ 52 % 2 ^ 11
  let fraction : Nat := bits.toNat % 2 ^ 52
  let magnitude : ℚ :=
    if exponent = 0 then fraction / 2 ^ 1074 else ((2 ^ 52 + fraction : Nat) : ℚ) * 2 ^ exponent / 2 ^ 1075
  if bits.toNat < 2 ^ 63 then magnitude else -magnitude

def JsonNumber.value : JsonNumber → ℚ
  | posInt n => n.toNat
  | negInt n => n
  | float bits => floatValue bits

namespace Json

/-- The value under a key of an object. -/
def get (json : Json) (key : Bytes) : Option Json :=
  match json with
  | object entries => (entries.find? fun e => e.1.bytes = key).map Prod.snd
  | _ => none

def asU64 : Json → Option UInt64
  | number (.posInt n) => some n
  | _ => none

def asStr : Json → Option Text
  | string s => some s
  | _ => none

def asBool : Json → Option Bool
  | bool b => some b
  | _ => none

end Json

end ManyTier
