import ObjectSql.Json.Basic
import ObjectSql.Text.Digits

/-!
# Reading JSON

A recursive reader over characters. Every call of `value`, `items` and `members` spends one unit of
fuel and between two of them a character is read, so twice the length of the text is enough.
-/
namespace ObjectSql.Json.Parser

open Text

def isSpace (c : Char) : Bool := c == ' ' || c == '\t' || c == '\n' || c == '\r'

def skipSpace (cs : List Char) : List Char := cs.dropWhile isSpace

def hex4 : List Char → Option (Nat × List Char)
  | a :: b :: c :: d :: rest => do
    let w ← hexValue a
    let x ← hexValue b
    let y ← hexValue c
    let z ← hexValue d
    pure (((w * 16 + x) * 16 + y) * 16 + z, rest)
  | _ => none

def simpleEscape (c : Char) : Option Nat :=
  match c with
  | '"' => some 0x22
  | '\\' => some 0x5C
  | '/' => some 0x2F
  | 'b' => some 0x8
  | 'f' => some 0xC
  | 'n' => some 0xA
  | 'r' => some 0xD
  | 't' => some 0x9
  | _ => none

/-- Code points of a string literal up to its closing quote; escapes may give lone surrogates. -/
def codes : (fuel : Nat) → List Char → Option (List Nat × List Char)
  | 0, _ => none
  | _ + 1, [] => none
  | fuel + 1, c :: cs =>
    if c = '"' then some ([], cs)
    else if c = '\\' then
      match cs with
      | 'u' :: cs => do
        let (n, cs) ← hex4 cs
        let (ns, cs) ← codes fuel cs
        pure (n :: ns, cs)
      | e :: cs => do
        let n ← simpleEscape e
        let (ns, cs) ← codes fuel cs
        pure (n :: ns, cs)
      | [] => none
    else if c.toNat < 0x20 then none
    else do
      let (ns, cs) ← codes fuel cs
      pure (c.toNat :: ns, cs)

def isHighSurrogate (n : Nat) : Bool := 0xD800 ≤ n && n < 0xDC00

def isLowSurrogate (n : Nat) : Bool := 0xDC00 ≤ n && n < 0xE000

/-- Joins surrogate pairs into characters; an unpaired surrogate has no character. -/
def characters : List Nat → Option (List Char)
  | [] => some []
  | [n] => if isHighSurrogate n || isLowSurrogate n then none else some [Char.ofNat n]
  | m :: n :: ns =>
    if isHighSurrogate m then
      if isLowSurrogate n then
        (characters ns).map (Char.ofNat (0x10000 + (m - 0xD800) * 0x400 + (n - 0xDC00)) :: ·)
      else none
    else if isLowSurrogate m then none
    else (characters (n :: ns)).map (Char.ofNat m :: ·)

/-- A string literal after its opening quote. -/
def literal (cs : List Char) : Option (Option String × List Char) :=
  (codes (cs.length + 1) cs).map fun (ns, cs) => ((characters ns).map String.ofList, cs)

/-- Digits, of which a leading zero must be the only one. -/
def wholeDigits (cs : List Char) : Option (List Char × List Char) :=
  match cs with
  | '0' :: rest =>
    match rest with
    | c :: _ => if isDigit c then none else some (['0'], rest)
    | [] => some (['0'], rest)
  | _ =>
    let ds := cs.takeWhile isDigit
    if ds.isEmpty then none else some (ds, cs.dropWhile isDigit)

/-- A point and the digits that must follow it, or nothing. -/
def fractionDigits (cs : List Char) : Option (List Char × List Char) :=
  match cs with
  | '.' :: rest =>
    let ds := rest.takeWhile isDigit
    if ds.isEmpty then none else some ('.' :: ds, rest.dropWhile isDigit)
  | _ => some ([], cs)

/-- An exponent mark, a sign and the digits that must follow, or nothing. -/
def exponentDigits (cs : List Char) : Option (List Char × List Char) :=
  match cs with
  | c :: rest =>
    if c = 'e' || c = 'E' then
      let (sign, rest) :=
        match rest with
        | '+' :: rest => (['+'], rest)
        | '-' :: rest => (['-'], rest)
        | _ => ([], rest)
      let ds := rest.takeWhile isDigit
      if ds.isEmpty then none else some (c :: sign ++ ds, rest.dropWhile isDigit)
    else some ([], cs)
  | [] => some ([], cs)

def number (cs : List Char) : Option (Json × List Char) := do
  let (negative, cs) :=
    match cs with
    | '-' :: rest => (true, rest)
    | _ => (false, cs)
  let (whole, cs) ← wholeDigits cs
  let (fraction, cs) ← fractionDigits cs
  let (exponent, cs) ← exponentDigits cs
  if fraction.isEmpty && exponent.isEmpty && !(negative && whole == ['0']) then
    let n := Int.ofNat (digitsValue whole)
    pure (.int (if negative then -n else n), cs)
  else
    let sign := if negative then ['-'] else []
    pure (.decimal (String.ofList (sign ++ whole ++ fraction ++ exponent)), cs)

/-- The rest of the text behind a fixed word. -/
def word (w : List Char) (cs : List Char) : Option (List Char) :=
  match w, cs with
  | [], cs => some cs
  | _, [] => none
  | a :: w, c :: cs => if a = c then word w cs else none

mutual

def value : (fuel : Nat) → List Char → Option (Json × List Char)
  | 0, _ => none
  | fuel + 1, cs =>
    match skipSpace cs with
    | '"' :: cs => (literal cs).map fun (s, cs) => (.text s, cs)
    | '[' :: cs =>
      match skipSpace cs with
      | ']' :: cs => some (.array [], cs)
      | cs => (items fuel cs).map fun (js, cs) => (.array js, cs)
    | '\x7b' :: cs =>
      match skipSpace cs with
      | '\x7d' :: cs => some (.object [], cs)
      | cs => (members fuel cs).map fun (ms, cs) => (.object ms, cs)
    | 'n' :: cs => (word "ull".toList cs).map fun cs => (.null, cs)
    | 't' :: cs => (word "rue".toList cs).map fun cs => (.bool true, cs)
    | 'f' :: cs => (word "alse".toList cs).map fun cs => (.bool false, cs)
    | cs => number cs

/-- One or more items up to the closing bracket. -/
def items : (fuel : Nat) → List Char → Option (List Json × List Char)
  | 0, _ => none
  | fuel + 1, cs =>
    match value fuel cs with
    | none => none
    | some (j, cs) =>
      match skipSpace cs with
      | ',' :: cs => (items fuel cs).map fun (js, cs) => (j :: js, cs)
      | ']' :: cs => some ([j], cs)
      | _ => none

/-- One or more members up to the closing brace. -/
def members : (fuel : Nat) → List Char → Option (List (Option String × Json) × List Char)
  | 0, _ => none
  | fuel + 1, cs =>
    match skipSpace cs with
    | '"' :: cs =>
      match literal cs with
      | none => none
      | some (name, cs) =>
        match skipSpace cs with
        | ':' :: cs =>
          match value fuel cs with
          | none => none
          | some (j, cs) =>
            match skipSpace cs with
            | ',' :: cs => (members fuel cs).map fun (ms, cs) => ((name, j) :: ms, cs)
            | '\x7d' :: cs => some ([(name, j)], cs)
            | _ => none
        | _ => none
    | _ => none

end

end ObjectSql.Json.Parser

namespace ObjectSql.Json

/-- Reads a text that holds one value and nothing else but white space. -/
def parse? (s : String) : Option Json :=
  let cs := s.toList
  match Parser.value (2 * cs.length + 2) cs with
  | some (j, rest) => if (Parser.skipSpace rest).isEmpty then some j else none
  | none => none

end ObjectSql.Json
