import TableQuery.Text.Blank

/-! # Quoted names and strings

Names are written bare when they consist of letters, digits and underscores, do not begin with a
digit and are not reserved; otherwise they are quoted. Inside quotes the quote character is
doubled. A quote that follows a backslash is taken as escaped already and stands alone; a pair of
quotes is taken as one that is doubled already.

Assumed is what is documented for writing the names and strings of a syntax tree of SQL: the
doubling of quotes with its two exceptions, and the words that cannot be new names of columns or
tables. -/

namespace TableQuery.Sql

/-- Words with a meaning of their own where a column or table is named. -/
def reservedWords : List String :=
  ["WITH", "EXPLAIN", "ANALYZE", "SELECT", "WHERE", "GROUP", "SORT", "HAVING", "ORDER", "PIVOT",
    "UNPIVOT", "TOP", "LATERAL", "VIEW", "LIMIT", "OFFSET", "FETCH", "UNION", "EXCEPT", "INTERSECT",
    "ON", "JOIN", "INNER", "CROSS", "FULL", "LEFT", "RIGHT", "NATURAL", "USING", "CLUSTER",
    "DISTRIBUTE", "GLOBAL", "OUTER", "SET", "QUALIFY", "WINDOW", "END", "FOR", "PARTITION",
    "PREWHERE", "SETTINGS", "FORMAT", "START", "CONNECT", "MATCH_RECOGNIZE", "RETURNING", "FROM",
    "INTO"]

/-- Whether a word is reserved, in any case. -/
def isReserved (word : String) : Bool := reservedWords.contains (word.map Char.toUpper)

/-- The characters that a bare name begins with. -/
def isBareStart (c : Char) : Bool := c.isAlpha || c == '_'

/-- The characters that a bare name goes on with. -/
def isBareChar (c : Char) : Bool := c.isAlphanum || c == '_'

/-- Whether a name can be written without quotes. -/
def isBareName (name : String) : Bool :=
  (match name.toList with
  | [] => false
  | c :: r => isBareStart c && r.all isBareChar) && !isReserved name

/-- The content of a quoted text behind the character `prev`. -/
def escapeFrom (q prev : Char) : List Char → List Char
  | [] => []
  | [c] => if c = q ∧ prev ≠ '\\' then [q, q] else [c]
  | c :: d :: r =>
    if c ≠ q then c :: escapeFrom q c (d :: r)
    else if prev = '\\' then q :: escapeFrom q prev (d :: r)
    else if d = q then q :: q :: escapeFrom q q r
    else q :: q :: escapeFrom q q (d :: r)

/-- A text between quote characters. -/
def quoted (q : Char) (s : String) : String :=
  q.toString ++ String.ofList (escapeFrom q '\x00' s.toList) ++ q.toString

/-- A string literal. -/
def stringLiteral (s : String) : String := quoted '\'' s

/-- The character that quotes names. -/
inductive NameQuote where
  | double
  | backtick
  deriving DecidableEq

namespace NameQuote

def char : NameQuote → Char
  | double => '"'
  | backtick => '\x60'

end NameQuote

/-- How names are written for a backend. -/
structure Dialect where
  quote : NameQuote
  /-- Whether every name is quoted, not only those that need it. -/
  alwaysQuote : Bool
  deriving DecidableEq

namespace Dialect

/-- Double quotes where they are needed. -/
def ansi : Dialect := ⟨.double, false⟩

/-- A name as it is written in SQL. -/
def name (d : Dialect) (n : String) : String :=
  if !d.alwaysQuote && isBareName n then n else quoted d.quote.char n

end Dialect

end TableQuery.Sql
