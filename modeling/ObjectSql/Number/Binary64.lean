/-!
# Binary floating point

A double is NaN, an infinity or `± significand · 2 ^ exponent`. Rounding works on exact quotients
of natural numbers: the nearest value of the format is taken, and of two nearest values the one
with the even significand.
-/
namespace ObjectSql

/-- Values are kept canonical: the significand has 53 bits, or fewer at the least exponent. -/
inductive Binary64 where
  | nan
  | infinite (negative : Bool)
  | finite (negative : Bool) (significand : Nat) (exponent : Int)
deriving Repr, DecidableEq, Inhabited

/-- A binary interchange format: bits of the significand and the range of exponents. -/
structure BinaryFormat where
  precision : Nat
  minExponent : Int
  maxExponent : Int

namespace BinaryFormat

def double : BinaryFormat := ⟨53, -1074, 971⟩

def single : BinaryFormat := ⟨24, -149, 104⟩

/-- Numerator and denominator of `num / den / 2 ^ e`. -/
def scaled (num den : Nat) : Int → Nat × Nat
  | .ofNat e => (num, den * Nat.pow 2 e)
  | .negSucc e => (num * Nat.pow 2 (e + 1), den)

/-- Quotient to the nearest natural number, a half to the even one. -/
def divNearestEven (num den : Nat) : Nat :=
  let q := num / den
  let r := num % den
  if 2 * r < den then q
  else if 2 * r = den then q + q % 2
  else q + 1

/-- The exponent at which the integral part of `num / den` has `precision` bits, or the least. -/
def exponentOf (f : BinaryFormat) (num den : Nat) : Int :=
  let low := max f.minExponent (Int.ofNat num.log2 - Int.ofNat den.log2 - Int.ofNat f.precision)
  let (n, d) := scaled num den low
  if n / d < Nat.pow 2 f.precision then low else low + 1

/-- The value of the format nearest to `num / den`, for a positive `den`. -/
def nearest (f : BinaryFormat) (negative : Bool) (num den : Nat) : Binary64 :=
  if num = 0 then .finite negative 0 f.minExponent
  else
    let e := f.exponentOf num den
    let (n, d) := scaled num den e
    let m := divNearestEven n d
    let (m, e) := if m < Nat.pow 2 f.precision then (m, e) else (m / 2, e + 1)
    if e ≤ f.maxExponent then .finite negative m e else .infinite negative

end BinaryFormat

namespace Binary64

/-- The same number as a double, for a value of a narrower format. -/
def widen : Binary64 → Binary64
  | .finite negative m (.ofNat e) => BinaryFormat.double.nearest negative (m * Nat.pow 2 e) 1
  | .finite negative m (.negSucc e) => BinaryFormat.double.nearest negative m (Nat.pow 2 (e + 1))
  | x => x

/-- Numerical equality: NaN differs from itself, and the two zeros are equal. -/
def numericEq : Binary64 → Binary64 → Bool
  | .infinite s, .infinite t => s == t
  | .finite s m e, .finite t n f => (m == 0 && n == 0) || (s == t && m == n && e == f)
  | _, _ => false

end Binary64

end ObjectSql
