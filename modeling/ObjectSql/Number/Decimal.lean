import ObjectSql.Number.Binary64
import ObjectSql.Text.Casing
import ObjectSql.Text.Digits

/-!
# Decimal text of doubles

Reading accepts an optional sign, digits with an optional point and an optional exponent, and the
words for NaN and the infinities in any case. Writing takes the fewest digits that read back as
the same double, nearest to it and the larger of two equally near ones, always in positional form.
-/
namespace ObjectSql

open Text

/-- A decimal number: the digits of an integer and the power of ten it is scaled by. -/
structure DecimalText where
  digits : List Char
  scale : Int

namespace DecimalText

/-- An exponent part or nothing, up to the end of the text. -/
def readExponent? : List Char → Option Int
  | [] => some 0
  | c :: cs =>
    if c = 'e' || c = 'E' then
      let (negative, ds) :=
        match cs with
        | '-' :: ds => (true, ds)
        | '+' :: ds => (false, ds)
        | ds => (false, ds)
      if ds.isEmpty || !ds.all isDigit then none
      else
        let n := Int.ofNat (digitsValue ds)
        some (if negative then -n else n)
    else none

/-- Unsigned decimal text with at least one digit. -/
def read? (cs : List Char) : Option DecimalText :=
  let whole := cs.takeWhile isDigit
  let rest := cs.dropWhile isDigit
  let (fraction, rest) :=
    match rest with
    | '.' :: rest => (rest.takeWhile isDigit, rest.dropWhile isDigit)
    | _ => ([], rest)
  if whole.isEmpty && fraction.isEmpty then none
  else
    (readExponent? rest).map fun e => ⟨whole ++ fraction, e - Int.ofNat fraction.length⟩

/-- The value of a format nearest to the number; far out of range no power of ten is computed. -/
def nearest (f : BinaryFormat) (negative : Bool) (t : DecimalText) : Binary64 :=
  let ds := t.digits.dropWhile (· == '0')
  let magnitude := Int.ofNat ds.length + t.scale
  if ds.isEmpty || magnitude < -400 then .finite negative 0 f.minExponent
  else if magnitude > 400 then .infinite negative
  else
    match t.scale with
    | .ofNat e => f.nearest negative (digitsValue ds * Nat.pow 10 e) 1
    | .negSucc e => f.nearest negative (digitsValue ds) (Nat.pow 10 (e + 1))

end DecimalText

namespace Binary64

/-- Reads decimal text into the nearest value of a format. -/
def readAs? (f : BinaryFormat) (s : String) : Option Binary64 :=
  let (negative, cs) :=
    match s.toList with
    | '-' :: cs => (true, cs)
    | '+' :: cs => (false, cs)
    | cs => (false, cs)
  let word := cs.map asciiLowerChar
  if word = "nan".toList then some .nan
  else if word = "inf".toList || word = "infinity".toList then some (.infinite negative)
  else (DecimalText.read? cs).map (DecimalText.nearest f negative)

def read? (s : String) : Option Binary64 := readAs? BinaryFormat.double s

/-- Reads a number at single precision and keeps its value as a double. -/
def readSingle? (s : String) : Option Binary64 := (readAs? BinaryFormat.single s).map widen

/-- The numbers that round to a given double, as fractions over one denominator. -/
structure RoundingInterval where
  low : Nat
  value : Nat
  high : Nat
  den : Nat
  closed : Bool

/-- Half a unit to each side; below a power of two the neighbours are twice as dense. -/
def RoundingInterval.around (m : Nat) (e : Int) : RoundingInterval :=
  let below := if m = 0x10000000000000 then 1 else 2
  let (unit, den) := BinaryFormat.scaled 1 1 (2 - e)
  ⟨(4 * m - below) * unit, 4 * m * unit, (4 * m + 2) * unit, den, m % 2 == 0⟩

def RoundingInterval.holds (r : RoundingInterval) (num den : Nat) : Bool :=
  if r.closed then r.low * den ≤ num * r.den && num * r.den ≤ r.high * den
  else r.low * den < num * r.den && num * r.den < r.high * den

/-- The power of ten at or below `num / den`, searched downwards from `from`. -/
def decimalExponent (num den : Nat) : (fuel : Nat) → Int → Int
  | 0, x => x
  | fuel + 1, x =>
    let (n, d) :=
      match x with
      | .ofNat k => (num, den * Nat.pow 10 k)
      | .negSucc k => (num * Nat.pow 10 (k + 1), den)
    if d ≤ n then x else decimalExponent num den fuel (x - 1)

/-- A multiple of `10 ^ scale` in the interval next to its value, if there is one. -/
def gridPoint? (r : RoundingInterval) (scale : Int) : Option Nat :=
  let (up, down) :=
    match scale with
    | .ofNat k => (Nat.pow 10 k, 1)
    | .negSucc k => (1, Nat.pow 10 (k + 1))
  let num := r.value * down
  let den := r.den * up
  let lower := num / den
  let fits (n : Nat) := r.holds (n * up) down
  if fits lower then
    if fits (lower + 1) && den ≤ 2 * (num % den) then some (lower + 1) else some lower
  else if fits (lower + 1) then some (lower + 1)
  else none

/-- The first grid with a point in the interval, from the coarsest on. -/
def shortestFrom (r : RoundingInterval) : (fuel : Nat) → Int → Nat × Int
  | 0, scale => ((gridPoint? r scale).getD 0, scale)
  | fuel + 1, scale =>
    match gridPoint? r scale with
    | some n => (n, scale)
    | none => shortestFrom r fuel (scale - 1)

/-- Shortest digits `n` and scale `x` with `n · 10 ^ x` rounding to the double. The first grid is
that of the next higher power of ten, to which a run of nines may round. -/
def shortest (m : Nat) (e : Int) : Nat × Int :=
  let r := RoundingInterval.around m e
  shortestFrom r 17 (decimalExponent r.value r.den 640 310 + 1)

/-- Positional text of `n · 10 ^ scale`. -/
def positional : Nat × Int → String
  | (n, .ofNat k) => toString n ++ String.ofList (List.replicate k '0')
  | (n, .negSucc k) =>
    let digits := (toString n).toList
    let places := k + 1
    let padded := List.replicate (places + 1 - digits.length) '0' ++ digits
    let split := padded.length - places
    String.ofList (padded.take split ++ '.' :: padded.drop split)

/-- A minus sign in front of the text of a negative number. -/
def signed (negative : Bool) (text : String) : String := if negative then "-" ++ text else text

def toText : Binary64 → String
  | .nan => "NaN"
  | .infinite negative => signed negative "inf"
  | .finite negative m e => signed negative (if m = 0 then "0" else positional (shortest m e))

end Binary64

end ObjectSql
