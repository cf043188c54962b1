import ObjectSql.Dialect.Vendor

/-!
# Reserved words

The reserved words of SQL-92 and the words that each product reserves besides, in upper case.
-/
namespace ObjectSql.Keywords

open Text

def sql92 : List String :=
  ["ABSOLUTE", "ACTION", "ADD", "ALL", "ALLOCATE", "ALTER", "AND", "ANY", "ARE", "AS", "ASC",
   "ASSERTION", "AT", "AUTHORIZATION", "AVG", "BEGIN", "BETWEEN", "BIT", "BIT_LENGTH", "BOTH",
   "BY", "CASCADE", "CASCADED", "CASE", "CAST", "CATALOG", "CHAR", "CHARACTER", "CHAR_LENGTH",
   "CHARACTER_LENGTH", "CHECK", "CLOSE", "COALESCE", "COLLATE", "COLLATION", "COLUMN", "COMMIT",
   "CONNECT", "CONNECTION", "CONSTRAINT", "CONSTRAINTS", "CONTINUE", "CONVERT", "CORRESPONDING",
   "COUNT", "CREATE", "CROSS", "CURRENT", "CURRENT_DATE", "CURRENT_TIME", "CURRENT_TIMESTAMP",
   "CURRENT_USER", "CURSOR", "DATE", "DAY", "DEALLOCATE", "DEC", "DECIMAL", "DECLARE", "DEFAULT",
   "DEFERRABLE", "DEFERRED", "DELETE", "DESC", "DESCRIBE", "DESCRIPTOR", "DIAGNOSTICS",
   "DISCONNECT", "DISTINCT", "DOMAIN", "DOUBLE", "DROP", "ELSE", "END", "END-EXEC", "ESCAPE",
   "EXCEPT", "EXCEPTION", "EXEC", "EXECUTE", "EXISTS", "EXTERNAL", "EXTRACT", "FALSE", "FETCH",
   "FIRST", "FLOAT", "FOR", "FOREIGN", "FOUND", "FROM", "FULL", "GET", "GLOBAL", "GO", "GOTO",
   "GRANT", "GROUP", "HAVING", "HOUR", "IDENTITY", "IMMEDIATE", "IN", "INDICATOR", "INITIALLY",
   "INNER", "INPUT", "INSENSITIVE", "INSERT", "INT", "INTEGER", "INTERSECT", "INTERVAL", "INTO",
   "IS", "ISOLATION", "JOIN", "KEY", "LANGUAGE", "LAST", "LEADING", "LEFT", "LEVEL", "LIKE",
   "LOCAL", "LOWER", "MATCH", "MAX", "MIN", "MINUTE", "MODULE", "MONTH", "NAMES", "NATIONAL",
   "NATURAL", "NCHAR", "NEXT", "NO", "NOT", "NULL", "NULLIF", "NUMERIC", "OCTET_LENGTH", "OF",
   "ON", "ONLY", "OPEN", "OPTION", "OR", "ORDER", "OUTER", "OUTPUT", "OVERLAPS", "PAD", "PARTIAL",
   "POSITION", "PRECISION", "PREPARE", "PRESERVE", "PRIMARY", "PRIOR", "PRIVILEGES", "PROCEDURE",
   "PUBLIC", "READ", "REAL", "REFERENCES", "RELATIVE", "RESTRICT", "REVOKE", "RIGHT", "ROLLBACK",
   "ROWS", "SCHEMA", "SCROLL", "SECOND", "SECTION", "SELECT", "SESSION", "SESSION_USER", "SET",
   "SIZE", "SMALLINT", "SOME", "SPACE", "SQL", "SQLCODE", "SQLERROR", "SQLSTATE", "SUBSTRING",
   "SUM", "SYSTEM_USER", "TABLE", "TEMPORARY", "THEN", "TIME", "TIMESTAMP", "TIMEZONE_HOUR",
   "TIMEZONE_MINUTE", "TO", "TRAILING", "TRANSACTION", "TRANSLATE", "TRANSLATION", "TRIM", "TRUE",
   "UNION", "UNIQUE", "UNKNOWN", "UPDATE", "UPPER", "USAGE", "USER", "USING", "VALUE", "VALUES",
   "VARCHAR", "VARYING", "VIEW", "WHEN", "WHENEVER", "WHERE", "WITH", "WORK", "WRITE", "YEAR",
   "ZONE"]

/-- The words that a product reserves besides. -/
def additions : Vendor → List String
  | .generic => []
  | .postgresql =>
    ["ANALYSE", "ANALYZE", "ARRAY", "ASYMMETRIC", "CONCURRENTLY", "CURRENT_ROLE", "DO", "FREEZE",
     "ILIKE", "ISNULL", "LATERAL", "LIMIT", "LOCALTIME", "LOCALTIMESTAMP", "NOTNULL", "OFFSET",
     "PLACING", "RETURNING", "SIMILAR", "SYMMETRIC", "TABLESAMPLE", "VARIADIC", "VERBOSE", "WINDOW"]
  | .mysql =>
    ["ACCESSIBLE", "BIGINT", "BINARY", "BLOB", "CHANGE", "DATABASE", "DATABASES", "DAY_HOUR",
     "DELAYED", "DIV", "DUAL", "ENCLOSED", "ESCAPED", "EXPLAIN", "FORCE", "FULLTEXT", "GROUPS",
     "HIGH_PRIORITY", "IF", "IGNORE", "INDEX", "INFILE", "KEYS", "KILL", "LIMIT", "LINES", "LOAD",
     "LOCK", "LONG", "LONGBLOB", "LONGTEXT", "LOOP", "MEDIUMINT", "MOD", "OPTIMIZE", "OPTIONALLY",
     "OUTFILE", "PURGE", "RANGE", "RANK", "REGEXP", "RENAME", "REPLACE", "REQUIRE", "RLIKE", "ROW",
     "SCHEMAS", "SEPARATOR", "SHOW", "SPATIAL", "STARTING", "STRAIGHT_JOIN", "TERMINATED",
     "TINYINT", "UNLOCK", "UNSIGNED", "USE", "ZEROFILL"]
  | .sqlite =>
    ["ABORT", "AUTOINCREMENT", "CONFLICT", "FAIL", "GLOB", "IF", "INDEX", "INDEXED", "ISNULL",
     "LIMIT", "NOTNULL", "OFFSET", "PLAN", "PRAGMA", "QUERY", "RAISE", "RECURSIVE", "REGEXP",
     "REINDEX", "RENAME", "REPLACE", "ROWID", "VACUUM", "VIRTUAL"]
  | .sqlserver =>
    ["BACKUP", "BREAK", "BROWSE", "BULK", "CHECKPOINT", "CLUSTERED", "COMPUTE", "CONTAINS",
     "CONTAINSTABLE", "DATABASE", "DBCC", "DENY", "DISK", "DISTRIBUTED", "DUMP", "ERRLVL", "EXIT",
     "FILE", "FILLFACTOR", "FREETEXT", "HOLDLOCK", "IDENTITY_INSERT", "IDENTITYCOL", "IF", "INDEX",
     "KILL", "LINENO", "LOAD", "MERGE", "NOCHECK", "NONCLUSTERED", "OFF", "OFFSETS",
     "OPENDATASOURCE", "OPENQUERY", "OPENROWSET", "OPENXML", "OVER", "PERCENT", "PIVOT", "PLAN",
     "PRINT", "PROC", "RAISERROR", "READTEXT", "RECONFIGURE", "REPLICATION", "RETURN", "ROWCOUNT",
     "ROWGUIDCOL", "RULE", "SAVE", "SETUSER", "SHUTDOWN", "STATISTICS", "TEXTSIZE", "TOP", "TRAN",
     "TRIGGER", "TRUNCATE", "TSEQUAL", "UNPIVOT", "UPDATETEXT", "WAITFOR", "WHILE", "WRITETEXT"]
  | .oracle =>
    ["ACCESS", "AUDIT", "CLUSTER", "COMMENT", "COMPRESS", "EXCLUSIVE", "FILE", "IDENTIFIED",
     "INCREMENT", "INDEX", "INITIAL", "LOCK", "LONG", "MAXEXTENTS", "MINUS", "MLSLABEL", "MODE",
     "MODIFY", "NOAUDIT", "NOCOMPRESS", "NOWAIT", "NUMBER", "OFFLINE", "ONLINE", "PCTFREE", "RAW",
     "RENAME", "RESOURCE", "ROW", "ROWID", "ROWNUM", "SHARE", "START", "SUCCESSFUL", "SYNONYM",
     "SYSDATE", "TRIGGER", "UID", "VALIDATE", "VARCHAR2"]
  | .derby =>
    ["BIGINT", "BLOB", "BOOLEAN", "CALL", "CLOB", "CURRENT_ROLE", "EXPLAIN", "GROUPS", "LTRIM",
     "NONE", "OFFSET", "OVER", "RTRIM", "XML", "XMLEXISTS", "XMLPARSE", "XMLQUERY", "XMLSERIALIZE"]
  | .h2 =>
    ["ARRAY", "CURRENT_CATALOG", "CURRENT_SCHEMA", "GROUPS", "IF", "ILIKE", "LIMIT", "LOCALTIME",
     "LOCALTIMESTAMP", "MINUS", "OFFSET", "QUALIFY", "REGEXP", "ROW", "ROWNUM", "SYSDATE",
     "SYSTIME", "SYSTIMESTAMP", "TODAY", "TOP", "_ROWID_"]
  | .db2 =>
    ["AFTER", "ALIAS", "BUFFERPOOL", "CALL", "CAPTURE", "CCSID", "CLUSTER", "COLLECTION", "COLLID",
     "CONCAT", "DATABASE", "DAYS", "DB2SQL", "EDITPROC", "ERASE", "EXPLAIN", "FENCED", "FIELDPROC",
     "HOURS", "IMPLICITLY", "INHERIT", "LOCKSIZE", "MICROSECONDS", "MINUTES", "MONTHS", "NUMPARTS",
     "OBID", "OPTIMIZATION", "PACKAGE", "PART", "PIECESIZE", "PLAN", "PRIQTY", "PROGRAM", "PSID",
     "QUERYNO", "SECONDS", "SECQTY", "STOGROUP", "SUBPAGES", "VALIDPROC", "VOLUMES", "WLM", "YEARS"]

/-- All reserved words of a product, sorted and without repetition. -/
def reserved (v : Vendor) : List String :=
  ((sql92 ++ additions v).mergeSort fun a b => !(b < a)).eraseReps

/-- Whether a word is reserved, whatever its case. -/
def isReserved (v : Vendor) (word : String) : Bool :=
  let u := upper word
  sql92.contains u || (additions v).contains u

end ObjectSql.Keywords
