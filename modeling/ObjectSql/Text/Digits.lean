/-!
# Digits

Decimal and hexadecimal digits, numbers read from plain digit strings and numbers written with a
least width.
-/
namespace ObjectSql.Text

def isDigit (c : Char) : Bool := '0' ≤ c && c ≤ '9'

def digitValue (c : Char) : Nat := c.toNat - '0'.toNat

/-- The number that a string of decimal digits denotes. -/
def digitsValue (cs : List Char) : Nat := cs.foldl (fun n c => 10 * n + digitValue c) 0

/-- A non-empty string of digits below `limit`. -/
def readBelow (limit : Nat) (cs : List Char) : Option Nat :=
  if cs.isEmpty || !cs.all isDigit then none
  else
    let n := digitsValue cs
    if n < limit then some n else none

/-- A decimal number of 64 bits, which may follow a plus sign. -/
def readIndex (cs : List Char) : Option Nat :=
  match cs with
  | '+' :: rest => readBelow 0x10000000000000000 rest
  | _ => readBelow 0x10000000000000000 cs

/-- A decimal number of 64 bits with a sign, which may be left out. -/
def readInt64 (cs : List Char) : Option Int :=
  match cs with
  | '-' :: rest => (readBelow 0x8000000000000001 rest).map fun n => -Int.ofNat n
  | '+' :: rest => (readBelow 0x8000000000000000 rest).map Int.ofNat
  | _ => (readBelow 0x8000000000000000 cs).map Int.ofNat

/-- Decimal text with zeros in front up to `width`. -/
def zeroPadded (width n : Nat) : String :=
  let digits := (toString n).toList
  String.ofList (List.replicate (width - digits.length) '0' ++ digits)

def hexValue (c : Char) : Option Nat :=
  if '0' ≤ c && c ≤ '9' then some (c.toNat - '0'.toNat)
  else if 'a' ≤ c && c ≤ 'f' then some (c.toNat - 'a'.toNat + 10)
  else if 'A' ≤ c && c ≤ 'F' then some (c.toNat - 'A'.toNat + 10)
  else none

def upperHexDigit (n : Nat) : Char :=
  if n < 10 then Char.ofNat ('0'.toNat + n) else Char.ofNat ('A'.toNat + (n - 10))

def lowerHexDigit (n : Nat) : Char :=
  if n < 10 then Char.ofNat ('0'.toNat + n) else Char.ofNat ('a'.toNat + (n - 10))

/-- The last `width` hexadecimal digits of a number. -/
def hexDigits (digit : Nat → Char) : (width : Nat) → Nat → List Char
  | 0, _ => []
  | width + 1, n => hexDigits digit width (n / 16) ++ [digit (n % 16)]

end ObjectSql.Text
