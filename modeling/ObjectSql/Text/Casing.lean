import ObjectSql.Text.CaseTables

/-!
# Letter case

`upper` and `lower` are the full Unicode mappings: a letter may become several letters, and a
capital sigma at the end of a word becomes a final sigma. The `ascii…` functions change the
26 letters of ASCII only.
-/
namespace ObjectSql.Text

def asciiLowerChar (c : Char) : Char :=
  if 'A' ≤ c && c ≤ 'Z' then Char.ofNat (c.toNat + 32) else c

def asciiUpperChar (c : Char) : Char :=
  if 'a' ≤ c && c ≤ 'z' then Char.ofNat (c.toNat - 32) else c

def asciiLower (s : String) : String := String.ofList (s.toList.map asciiLowerChar)

def asciiUpper (s : String) : String := String.ofList (s.toList.map asciiUpperChar)

/-- Equality up to the case of ASCII letters. -/
def sameIgnoringCase (s t : String) : Bool := asciiLower s == asciiLower t

/-- The upper case of one character, which may be longer than one character. -/
def upperChar (c : Char) : List Char :=
  if c.toNat < 0x80 then [asciiUpperChar c]
  else
    match upperSequences.lookup c.toNat with
    | some ns => ns.map Char.ofNat
    | none => [((CaseRun.find? upperRuns c.toNat).map Char.ofNat).getD c]

def upper (s : String) : String := String.ofList (s.toList.flatMap upperChar)

/-- The lower case of one character on its own. -/
def lowerChar (c : Char) : List Char :=
  if c.toNat < 0x80 then [asciiLowerChar c]
  else
    match lowerSequences.lookup c.toNat with
    | some ns => ns.map Char.ofNat
    | none => [((CaseRun.find? lowerRuns c.toNat).map Char.ofNat).getD c]

/-- Whether the first character that is not skipped has case. -/
def startsCased (cs : List Char) : Bool :=
  match cs.dropWhile fun c => CodeRange.covers ignorableRanges c.toNat with
  | [] => false
  | c :: _ => CodeRange.covers casedRanges c.toNat

/-- Lower case of a text whose reversed left context is `before`. -/
def lowerFrom (before : List Char) : List Char → List Char
  | [] => []
  | c :: rest =>
    (if c = 'Σ' then [if startsCased before && !startsCased rest then 'ς' else 'σ']
      else lowerChar c) ++ lowerFrom (c :: before) rest

def lower (s : String) : String := String.ofList (lowerFrom [] s.toList)

end ObjectSql.Text
