import ObjectSql.Dialect.Vendor
import ObjectSql.SqlType.Basic

/-!
# Registered types

The SQL types in which each logical type can be stored, the default first. A product replaces the
common candidates of some logical types.
-/
namespace ObjectSql.Registration

open SqlType

/-- Candidates that hold unless a product replaces them, in the order of the logical types. -/
def common : List (String × List SqlType) :=
  [("bool", [fixed "BOOLEAN" .boolean, fixed "SMALLINT" .smallInt]),
   ("bytes", [fixed "BLOB" .blob, sized "VARBINARY" .varBinary 255]),
   ("char", [sized "CHAR" .char 1]),
   ("date", [fixed "DATE" .date]),
   ("decimal", [scaled "DECIMAL" .decimal 38, scaled "NUMERIC" .numeric 38]),
   ("f32", [fixed "REAL" .real, fixed "FLOAT" .float]),
   ("f64", [fixed "DOUBLE PRECISION" .double, fixed "FLOAT" .float]),
   ("i16", [fixed "SMALLINT" .smallInt]),
   ("i32", [fixed "INTEGER" .integer]),
   ("i64", [fixed "BIGINT" .bigInt, scaled "NUMERIC" .numeric 38]),
   ("i8", [fixed "SMALLINT" .smallInt]),
   ("json", [fixed "CLOB" .clob]),
   ("string", [sized "VARCHAR" .varChar 255, sized "CHAR" .char 255, fixed "CLOB" .clob]),
   ("text", [fixed "CLOB" .clob, sized "VARCHAR" .varChar 4000]),
   ("time", [fixed "TIME" .time]),
   ("timestamp", [fixed "TIMESTAMP" .timestamp]),
   ("uuid", [sized "CHAR" .char 36])]

/-- Candidates that a product at a version puts in place of the common ones. -/
def replacements (v : Vendor) (version : Version) : List (String × List SqlType) :=
  match v with
  | .generic => []
  | .postgresql =>
    [("string", [sized "VARCHAR" .varChar 255, fixed "TEXT" .longVarChar]),
     ("text", [fixed "TEXT" .longVarChar, sized "VARCHAR" .varChar 4000]),
     ("bytes", [fixed "BYTEA" .longVarBinary]),
     ("timestamp", [fixed "TIMESTAMP" .timestamp, fixed "TIMESTAMPTZ" .timestampWithTimezone]),
     ("uuid", [fixed "UUID" .other, sized "CHAR" .char 36]),
     ("json", [fixed "JSONB" .other, fixed "JSON" .other, fixed "TEXT" .longVarChar])]
  | .mysql =>
    [("bool", [fixed "BIT" .bit, fixed "TINYINT" .tinyInt]),
     ("i8", [fixed "TINYINT" .tinyInt, fixed "SMALLINT" .smallInt]),
     ("i32", [fixed "INT" .integer, fixed "INTEGER" .integer]),
     ("f64", [fixed "DOUBLE" .double, fixed "FLOAT" .float]),
     ("text",
        [fixed "LONGTEXT" .longVarChar, fixed "MEDIUMTEXT" .longVarChar,
         fixed "TEXT" .longVarChar]),
     ("bytes", [fixed "LONGBLOB" .longVarBinary, fixed "BLOB" .longVarBinary]),
     ("timestamp", [fixed "DATETIME" .timestamp, fixed "TIMESTAMP" .timestamp]),
     ("json", [fixed "JSON" .longVarChar, fixed "LONGTEXT" .longVarChar])]
  | .sqlite =>
    [("bool", [fixed "INTEGER" .integer, fixed "BOOLEAN" .boolean]),
     ("i8", [fixed "INTEGER" .integer]),
     ("i16", [fixed "INTEGER" .integer]),
     ("i64", [fixed "INTEGER" .integer, fixed "BIGINT" .bigInt]),
     ("f32", [fixed "REAL" .real]),
     ("f64", [fixed "REAL" .real, fixed "DOUBLE" .double]),
     ("decimal", [fixed "NUMERIC" .numeric]),
     ("string", [fixed "TEXT" .varChar, sized "VARCHAR" .varChar 255]),
     ("text", [fixed "TEXT" .varChar]),
     ("bytes", [fixed "BLOB" .blob]),
     ("timestamp", [fixed "DATETIME" .timestamp, fixed "TIMESTAMP" .timestamp]),
     ("uuid", [fixed "TEXT" .varChar]),
     ("json", [fixed "TEXT" .varChar])]
  | .sqlserver =>
    [("bool", [fixed "BIT" .bit]),
     ("f64", [fixed "FLOAT" .double, fixed "REAL" .real]),
     ("string", [sized "NVARCHAR" .nVarChar 255, sized "VARCHAR" .varChar 255]),
     ("char", [sized "NCHAR" .nChar 1, sized "CHAR" .char 1]),
     ("text", [fixed "NVARCHAR(MAX)" .longNVarChar, fixed "TEXT" .longVarChar]),
     ("bytes", [fixed "VARBINARY(MAX)" .longVarBinary, fixed "IMAGE" .longVarBinary]),
     ("timestamp",
        [fixed "DATETIME2" .timestamp, fixed "DATETIME" .timestamp,
         fixed "DATETIMEOFFSET" .timestampWithTimezone]),
     ("uuid", [fixed "UNIQUEIDENTIFIER" .char]),
     ("json", [fixed "NVARCHAR(MAX)" .longNVarChar])]
  | .oracle =>
    [("bool", [fixed "NUMBER(1)" .numeric, sized "CHAR" .char 1]),
     ("i8", [fixed "NUMBER(3)" .numeric]),
     ("i16", [fixed "NUMBER(5)" .numeric]),
     ("i32", [fixed "NUMBER(10)" .numeric]),
     ("i64", [fixed "NUMBER(19)" .numeric]),
     ("f32", [fixed "BINARY_FLOAT" .real]),
     ("f64", [fixed "BINARY_DOUBLE" .double, fixed "FLOAT" .float]),
     ("decimal", [scaled "NUMBER" .numeric 38]),
     ("string",
        [sized "VARCHAR2" .varChar 255, sized "NVARCHAR2" .nVarChar 255, fixed "CLOB" .clob]),
     ("char", [sized "CHAR" .char 1, sized "NCHAR" .nChar 1]),
     ("text", [fixed "CLOB" .clob, fixed "NCLOB" .nClob]),
     ("bytes", [fixed "BLOB" .blob, sized "RAW" .varBinary 2000]),
     ("time", [fixed "TIMESTAMP" .timestamp]),
     ("timestamp",
        [fixed "TIMESTAMP" .timestamp, fixed "TIMESTAMP WITH TIME ZONE" .timestampWithTimezone]),
     ("uuid", [sized "VARCHAR2" .varChar 36])]
  | .derby =>
    [("bool",
       if version.atLeast 10 7 then [fixed "BOOLEAN" .boolean, fixed "SMALLINT" .smallInt]
       else [fixed "SMALLINT" .smallInt]),
     ("f64", [fixed "DOUBLE" .double]),
     ("decimal", [scaled "DECIMAL" .decimal 31])]
  | .h2 =>
    [("i8", [fixed "TINYINT" .tinyInt]),
     ("text", [fixed "CLOB" .clob, sized "VARCHAR" .varChar 4000]),
     ("bytes", [fixed "BLOB" .blob, sized "VARBINARY" .varBinary 255]),
     ("uuid", [fixed "UUID" .binary, sized "CHAR" .char 36]),
     ("json", [fixed "JSON" .other, fixed "CLOB" .clob])]
  | .db2 =>
    [("bool", [fixed "SMALLINT" .smallInt, fixed "BOOLEAN" .boolean]),
     ("f64", [fixed "DOUBLE" .double]),
     ("decimal", [scaled "DECIMAL" .decimal 31, fixed "DECFLOAT" .decimal])]

/-- The candidates of every logical type for a product at a version. -/
def candidates (v : Vendor) (version : Version) : List (String × List SqlType) :=
  common.map fun entry => (entry.1, ((replacements v version).lookup entry.1).getD entry.2)

end ObjectSql.Registration
