/-! # Dynamic values

The values of a configuration file or of a record given from outside: scalars, lists, and tables
whose fields keep their order.
-/
namespace CodeAtlas

inductive Value where
  | null
  | bool (b : Bool)
  | int (n : Int)
  | float (x : Float)
  | string (s : String)
  | array (items : List Value)
  | table (fields : List (String × Value))
  /-- A date, a time of day or both. -/
  | moment
  deriving Inhabited

namespace Value

/-- What a finite float is worth: `mantissa * 2 ^ exponent`. -/
structure Binary where
  mantissa : Int
  exponent : Int
  deriving DecidableEq, Repr

def binary? (x : Float) : Option Binary :=
  let bits := x.toBits.toNat
  let fraction : Nat := bits % Nat.pow 2 52
  let biased : Nat := bits / Nat.pow 2 52 % Nat.pow 2 11
  let sign : Int := if bits / Nat.pow 2 63 = 1 then -1 else 1
  if biased = 2047 then none
  else if biased = 0 then some ⟨sign * fraction, -1074⟩
  else some ⟨sign * ((fraction + Nat.pow 2 52 : Nat) : Int), (biased : Int) - 1075⟩

def Binary.toInt? (b : Binary) : Option Int :=
  if 0 ≤ b.exponent then some (b.mantissa * Int.pow 2 b.exponent.toNat)
  else
    let scale : Int := Int.pow 2 (-b.exponent).toNat
    if b.mantissa % scale = 0 then some (b.mantissa / scale) else none

/-- The float nearest to `digits * 10 ^ exponent`. Exponents far outside of the range of floats are
not worked out. -/
def decimal (digits : Nat) (exponent : Int) : Float :=
  let size : Int := (Nat.toDigits 10 digits).length + exponent
  if digits = 0 || size < -400 then 0.0
  else if 400 < size then 1.0 / 0.0
  else if exponent < 0 then Float.ofScientific digits true (-exponent).toNat
  else Float.ofScientific digits false exponent.toNat

end Value

end CodeAtlas
