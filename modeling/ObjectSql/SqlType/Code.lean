/-!
# Type codes

The numeric codes under which drivers report types. A code that is not listed counts as `other`.
-/
namespace ObjectSql

inductive TypeCode where
  | bit
  | boolean
  | tinyInt
  | smallInt
  | integer
  | bigInt
  | real
  | float
  | double
  | numeric
  | decimal
  | char
  | varChar
  | longVarChar
  | clob
  | nChar
  | nVarChar
  | longNVarChar
  | nClob
  | binary
  | varBinary
  | longVarBinary
  | blob
  | date
  | time
  | timestamp
  | timeWithTimezone
  | timestampWithTimezone
  | array
  | other
deriving Repr, DecidableEq, Inhabited

namespace TypeCode

def all : List TypeCode :=
  [bit, boolean, tinyInt, smallInt, integer, bigInt, real, float, double, numeric, decimal, char,
   varChar, longVarChar, clob, nChar, nVarChar, longNVarChar, nClob, binary, varBinary,
   longVarBinary, blob, date, time, timestamp, timeWithTimezone, timestampWithTimezone, array,
   other]

def code : TypeCode → Int
  | bit => -7
  | boolean => 16
  | tinyInt => -6
  | smallInt => 5
  | integer => 4
  | bigInt => -5
  | real => 7
  | float => 6
  | double => 8
  | numeric => 2
  | decimal => 3
  | char => 1
  | varChar => 12
  | longVarChar => -1
  | clob => 2005
  | nChar => -15
  | nVarChar => -9
  | longNVarChar => -16
  | nClob => 2011
  | binary => -2
  | varBinary => -3
  | longVarBinary => -4
  | blob => 2004
  | date => 91
  | time => 92
  | timestamp => 93
  | timeWithTimezone => 2013
  | timestampWithTimezone => 2014
  | array => 2003
  | other => 1111

def ofCode (n : Int) : TypeCode := (all.find? fun c => c.code == n).getD other

def isCharacter : TypeCode → Bool
  | char | varChar | longVarChar | clob | nChar | nVarChar | longNVarChar | nClob => true
  | _ => false

end TypeCode

end ObjectSql
