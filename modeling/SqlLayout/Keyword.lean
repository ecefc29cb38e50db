/-!
# Keyword tables

The keywords of the Spark SQL dialect in their canonical upper-case spelling, the ones that
start a line or introduce an operand, and the phrases that make one compound keyword.
-/

namespace SqlLayout.Keyword

/-- Keywords of statements and clauses. -/
def statementKeywords : List String := [
  "SELECT", "FROM", "WHERE", "GROUP", "ORDER", "BY", "HAVING", "QUALIFY", "LIMIT", "WINDOW",
  "WITH", "AS", "ON", "USING", "JOIN", "INNER", "LEFT", "RIGHT", "FULL", "OUTER", "CROSS", "SEMI",
  "ANTI", "NATURAL", "LATERAL", "UNION", "INTERSECT", "EXCEPT", "ALL", "DISTINCT", "INSERT",
  "INTO", "OVERWRITE", "VALUES", "UPDATE", "SET", "DELETE", "MERGE", "MATCHED", "CASE", "WHEN",
  "THEN", "ELSE", "END", "CREATE", "OR", "REPLACE", "ALTER", "DROP", "TRUNCATE", "TABLE", "VIEW",
  "FUNCTION", "SCHEMA", "DATABASE", "CATALOG", "TEMPORARY", "TEMP", "IF", "EXISTS", "USE", "SHOW",
  "DESCRIBE", "EXPLAIN", "OPTIMIZE", "ZORDER", "VACUUM", "ANALYZE", "COMPUTE", "STATISTICS",
  "REFRESH", "CACHE", "UNCACHE", "MSCK", "REPAIR", "RESTORE", "CLONE", "SHALLOW", "DEEP",
  "PARTITION", "PARTITIONED", "PARTITIONS", "CLUSTER", "CLUSTERED", "DISTRIBUTE", "SORT",
  "BUCKETS", "TBLPROPERTIES", "COMMENT", "OPTIONS", "RETURNS", "RETURN", "LANGUAGE", "METRICS",
  "DETERMINISTIC", "CONSTRAINT", "PRIMARY", "FOREIGN", "REFERENCES", "CHECK", "DEFAULT",
  "GENERATED", "ALWAYS", "IDENTITY", "ADD", "COLUMN", "COLUMNS", "RENAME", "TO", "CHANGE",
  "OWNER", "GRANT", "REVOKE", "PRIVILEGES", "ASC", "DESC", "NULLS", "FIRST", "LAST", "ROWS",
  "RANGE", "UNBOUNDED", "PRECEDING", "FOLLOWING", "CURRENT", "ROW", "OVER", "PIVOT", "UNPIVOT",
  "FOR", "TABLESAMPLE", "STREAM", "LIVE", "STREAMING", "MATERIALIZED", "EXTERNAL", "MANAGED",
  "DELTA"]

/-- Keywords of operators and literals. -/
def operatorKeywords : List String := [
  "AND", "OR", "NOT", "IN", "IS", "NULL", "LIKE", "ILIKE", "RLIKE", "REGEXP", "BETWEEN", "ANY",
  "SOME", "TRUE", "FALSE", "DIV", "INTERVAL", "ESCAPE"]

/-- Keywords of types and interval units. -/
def typeKeywords : List String := [
  "INT", "INTEGER", "BIGINT", "SMALLINT", "TINYINT", "DOUBLE", "FLOAT", "REAL", "DECIMAL",
  "NUMERIC", "STRING", "VARCHAR", "CHAR", "BOOLEAN", "BINARY", "DATE", "TIMESTAMP",
  "TIMESTAMP_NTZ", "TIMESTAMP_LTZ", "ARRAY", "MAP", "STRUCT", "VOID", "VARIANT", "YEAR", "MONTH",
  "DAY", "HOUR", "MINUTE", "SECOND"]

/-- Names of built-in functions. -/
def functionKeywords : List String := [
  "COUNT", "SUM", "AVG", "MIN", "MAX", "COUNT_IF", "ANY_VALUE", "APPROX_COUNT_DISTINCT",
  "PERCENTILE_APPROX", "STDDEV", "VARIANCE", "COLLECT_LIST", "COLLECT_SET", "COALESCE", "NULLIF",
  "IFNULL", "NVL", "NVL2", "CAST", "TRY_CAST", "GREATEST", "LEAST", "IDENTIFIER", "CONCAT",
  "CONCAT_WS", "SUBSTRING", "SUBSTR", "TRIM", "LTRIM", "RTRIM", "UPPER", "LOWER", "INITCAP",
  "LENGTH", "REPLACE", "SPLIT", "LPAD", "RPAD", "INSTR", "LOCATE", "REGEXP_REPLACE",
  "REGEXP_EXTRACT", "FORMAT_NUMBER", "ROUND", "FLOOR", "CEIL", "CEILING", "ABS", "MD5", "SHA1",
  "SHA2", "UUID", "ROW_NUMBER", "RANK", "DENSE_RANK", "NTILE", "LEAD", "LAG", "FIRST_VALUE",
  "LAST_VALUE", "ARRAY_CONTAINS", "EXPLODE", "EXPLODE_OUTER", "POSEXPLODE", "NAMED_STRUCT",
  "SEQUENCE", "FILTER", "TRANSFORM", "TO_DATE", "TO_TIMESTAMP", "DATE_FORMAT", "DATE_ADD",
  "DATE_SUB", "DATEDIFF", "DATE_TRUNC", "CURRENT_DATE", "CURRENT_TIMESTAMP", "NOW",
  "FROM_UNIXTIME", "UNIX_TIMESTAMP", "FROM_JSON", "TO_JSON", "GET_JSON_OBJECT"]

/-- All keywords. -/
def all : List String :=
  statementKeywords ++ operatorKeywords ++ typeKeywords ++ functionKeywords

/-- Keywords, compounds included, that always start a line. -/
def clauses : List String := [
  "SELECT", "FROM", "WHERE", "HAVING", "QUALIFY", "LIMIT", "WINDOW", "WITH", "VALUES", "SET",
  "ON", "USING", "WHEN", "UNION", "UNION ALL", "INTERSECT", "EXCEPT", "JOIN", "INNER JOIN",
  "CROSS JOIN", "LEFT JOIN", "LEFT OUTER JOIN", "LEFT SEMI JOIN", "LEFT ANTI JOIN", "RIGHT JOIN",
  "RIGHT OUTER JOIN", "FULL JOIN", "FULL OUTER JOIN", "GROUP BY", "ORDER BY", "PARTITION BY",
  "PARTITIONED BY", "CLUSTER BY", "DISTRIBUTE BY", "SORT BY", "ZORDER BY", "INSERT INTO",
  "INSERT OVERWRITE", "MERGE INTO", "LATERAL VIEW", "TBLPROPERTIES", "RETURNS", "RETURN",
  "LANGUAGE"]

/-- Functions whose longer argument lists are spread over lines. -/
def concats : List String := [
  "CONCAT", "CONCAT_WS"]

/-- Keywords before a parenthesised operand, from which a space keeps the parenthesis apart. After
any other keyword that starts no line a parenthesis opens an argument list. -/
def operandIntroducers : List String := [
  "IN", "NOT IN", "AND", "OR", "NOT", "EXISTS", "AS", "THEN", "ELSE", "OVER", "BETWEEN", "IS",
  "LIKE", "ILIKE", "RLIKE", "ALL", "ANY", "SOME"]

/-- Keywords that start a definition of a table, a view or a function. -/
def definers : List String := [
  "CREATE", "ALTER", "DROP"]

/-- The word sequences that a keyword joins with to make one compound, in the order in which they
are tried. -/
def compounds : List (String × List (List String)) := [
  ("GROUP", [["BY"]]),
  ("ORDER", [["BY"]]),
  ("DISTRIBUTE", [["BY"]]),
  ("SORT", [["BY"]]),
  ("CLUSTER", [["BY"]]),
  ("PARTITION", [["BY"]]),
  ("PARTITIONED", [["BY"]]),
  ("ZORDER", [["BY"]]),
  ("INSERT", [["INTO"], ["OVERWRITE"]]),
  ("MERGE", [["INTO"]]),
  ("LEFT", [["JOIN"], ["OUTER", "JOIN"], ["SEMI", "JOIN"], ["ANTI", "JOIN"]]),
  ("RIGHT", [["JOIN"], ["OUTER", "JOIN"]]),
  ("FULL", [["JOIN"], ["OUTER", "JOIN"]]),
  ("INNER", [["JOIN"]]),
  ("CROSS", [["JOIN"]]),
  ("NOT", [["IN"]]),
  ("UNION", [["ALL"]]),
  ("LATERAL", [["VIEW"]])]

/-- The word sequences that a given keyword joins with. -/
def continuations (word : String) : List (List String) :=
  (compounds.lookup word).getD []

end SqlLayout.Keyword
