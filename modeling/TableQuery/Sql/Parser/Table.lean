import TableQuery.Sql.Parser.Change

/-! # Parsing new tables

The statements that create tables: the columns with their constraints, and the clauses that say how
the rows are stored. -/

namespace TableQuery.Sql

namespace Parser

/-! ### Columns -/

/-- The columns and the constraints of a table up to the closing parenthesis, which is taken; the
fuel bounds their number. -/
def tableElementsFrom (g : Grammar) : Nat → Parser (List String × List String)
  | 0 => reject
  | fuel + 1 => do
    let constraint ← tableConstraint g
    let column ←
      if constraint.isSome then pure none
      else
        match ← peek with
        | some (.word _ _) => do pure (some (← columnDefinition g))
        | _ => reject
    let (columns, constraints) ←
      if ← symbol "," then tableElementsFrom g fuel
      else do
        expect ")"
        pure ([], [])
    return (column.toList ++ columns, constraint.toList ++ constraints)

/-- The columns of a table and behind them its constraints, if there are any. -/
def tableElements (g : Grammar) : Parser (Option String) := do
  if ← symbol "(" then
    if ← symbol ")" then return none
    else
      let (columns, constraints) ← sized (tableElementsFrom g)
      return some ("(" ++ commaList (columns ++ constraints) ++ ")")
  else return none

/-! ### Storage -/

/-- The columns that a table is divided by, with a blank before them. -/
def partitionColumns (g : Grammar) : Parser String :=
  clause "PARTITIONED BY" (parens (items (columnDefinition g)))

/-- How rows are spread over buckets, with a blank before it. -/
def bucketClause (g : Grammar) : Parser String := do
  if ← keywords "CLUSTERED BY" then
    let columns ← nameList
    let order ← clause "SORTED BY" (parens (orderKeys g))
    expectKeywords "INTO"
    let n ← numberText
    expectKeywords "BUCKETS"
    return " CLUSTERED BY " ++ columns ++ order ++ " INTO " ++ n ++ " BUCKETS"
  else return ""

/-- What ends the parts of a row, with the parts that it ends. -/
def rowDelimiter : Parser (Option String) := do
  let ended (phrase : String) : Parser (Option String) := do
    return some (phrase ++ " " ++ (← nameText))
  firstOf (return none)
    [("FIELDS TERMINATED BY", do
        let fields ← nameText
        return some ("FIELDS TERMINATED BY " ++ fields ++ (← clause "ESCAPED BY" nameText))),
      ("COLLECTION ITEMS TERMINATED BY", ended "COLLECTION ITEMS TERMINATED BY"),
      ("MAP KEYS TERMINATED BY", ended "MAP KEYS TERMINATED BY"),
      ("LINES TERMINATED BY", ended "LINES TERMINATED BY"),
      ("NULL DEFINED AS", ended "NULL DEFINED AS")]

/-- Words that begin an end of a part of a row. One of them alone is taken too. -/
def delimiterStarts : List String := ["FIELDS", "COLLECTION", "MAP", "LINES", "NULL"]

/-- How a row is written. -/
def rowFormat : Parser String := do
  expectKeywords "FORMAT"
  if ← keywords "SERDE" then return " ROW FORMAT SERDE '" ++ (← literalString) ++ "'"
  else
    let _ ← keywords "DELIMITED"
    let delimiters ← suffixes rowDelimiter
    let _ ← oneOf delimiterStarts
    return " ROW FORMAT DELIMITED" ++ delimiters

/-- How a table is stored, as far as it is said. -/
structure Storage where
  rowFormat : Option String
  /-- The terms that read and write rows. -/
  programs : Option String
  fileFormat : Option String
  properties : Option String
  location : Option String

namespace Storage

def empty : Storage := ⟨none, none, none, none, none⟩

/-- The storage of a table whose rows are kept by the system. -/
def text (s : Storage) : String :=
  s.rowFormat.getD "" ++ s.programs.getD "" ++ s.fileFormat.getD "" ++ s.properties.getD "" ++
    s.location.getD ""

/-- The storage of a table whose rows are kept elsewhere. -/
def externalText (s : Storage) : String :=
  s.rowFormat.getD "" ++ s.programs.getD "" ++ s.properties.getD "" ++ s.fileFormat.getD "" ++
    s.location.getD ""

end Storage

/-- How a table is stored, with what was found so far, as long as clauses come. -/
def storageFrom (g : Grammar) : Nat → Storage → Parser Storage
  | 0, _ => reject
  | fuel + 1, s => do
    if ← keywords "ROW" then storageFrom g fuel { s with rowFormat := some (← rowFormat) }
    else if ← keywords "STORED" then
      expectKeywords "AS"
      if ← keywords "INPUTFORMAT" then
        let input ← g.termText
        expectKeywords "OUTPUTFORMAT"
        let output ← g.termText
        let programs := " STORED AS INPUTFORMAT " ++ input ++ " OUTPUTFORMAT " ++ output
        storageFrom g fuel { s with programs := some programs, fileFormat := none }
      else
        let format ← expectOneOf fileFormats
        storageFrom g fuel { s with programs := none, fileFormat := some (" STORED AS " ++ format) }
    else if ← keywords "LOCATION" then
      let location := " LOCATION '" ++ (← literalString) ++ "'"
      storageFrom g fuel { s with location := some location }
    else
      match ← optionsBehind g "WITH SERDEPROPERTIES" with
      | "" => return s
      | properties => storageFrom g fuel { s with properties := some properties }

/-- How a table is stored. -/
def storage (g : Grammar) : Parser Storage := sized fun fuel => storageFrom g fuel Storage.empty

/-! ### Clauses of a table -/

/-- A word that is written behind its clause without blanks and quotes. -/
def wordSetting (ws written : String) : Parser String := do
  if ← keywords ws then
    expect "="
    match ← next with
    | .word n _ => return " " ++ written ++ "=" ++ n.value
    | _ => reject
  else return ""

/-- The engine of a table, with a blank before it. -/
def engineClause : Parser String := do
  let engine ← wordSetting "ENGINE" "ENGINE"
  if !engine.isEmpty then return engine ++ (← optionalNameList).getD "" else return ""

/-- A remark on a table, with a blank before it. -/
def commentClause : Parser String := do
  if ← keywords "COMMENT" then
    let equals ← symbol "="
    return " COMMENT " ++ (if equals then "= " else "") ++ "'" ++ (← comment) ++ "'"
  else return ""

/-- The key that rows are ordered by, with a blank before it. -/
def tableOrder (g : Grammar) : Parser String :=
  clause "ORDER BY" do
    if ← symbol "(" then
      let keys ← itemsBefore ")" g.termText
      expect ")"
      return "(" ++ keys ++ ")"
    else g.termText

/-- The options of a table, with a blank before them. -/
def tableOptions (g : Grammar) : Parser String := do
  match ← optionsBehind? g "OPTIONS" with
  | some options => return " OPTIONS(" ++ options ++ ")"
  | none => return ""

/-- A number that rows are counted from, with a blank before it. -/
def counterClause : Parser String := do
  if ← keywords "AUTO_INCREMENT" then
    let _ ← symbol "="
    return " AUTO_INCREMENT " ++ (← shortCount)
  else return ""

/-- What becomes of the rows at the end of a transaction, with a blank before it. -/
def commitClause : Parser String :=
  clause "ON COMMIT" (expectOneOf ["DELETE ROWS", "PRESERVE ROWS", "DROP"])

/-- The name of another table behind a word, with a blank before it. What stands in the place of the
name is taken in any case. -/
def tableBehind (ws : String) : Parser String := do
  return optionalPart ((← lenientNames).map ((ws ++ " ") ++ ·))

/-- A new table behind its keyword. What stands before the keyword is given. -/
def newTable (g : Grammar) (start : String) : Parser String := do
  let guard ← newGuard
  let n ← dottedText
  let cluster ← clause "ON CLUSTER" nameText
  let like ← if (← oneOf ["LIKE", "ILIKE"]).isSome then tableBehind "LIKE" else pure ""
  let clone ← if ← keywords "CLONE" then tableBehind "CLONE" else pure ""
  let elements ← tableElements g
  let rowid ← suffix "WITHOUT ROWID"
  let partitions ← partitionColumns g
  let buckets ← bucketClause g
  let stored ← storage g
  let withOptions ← optionsBehind g "WITH"
  let properties ← optionsBehind g "TBLPROPERTIES"
  let engine ← engineClause
  let counter ← counterClause
  let key ← clause "PRIMARY KEY" g.termText
  let order ← tableOrder g
  let division ← clause "PARTITION BY" g.termText
  let grouping ← clause "CLUSTER BY" (items nameText)
  let options ← tableOptions g
  let charset ← wordSetting "DEFAULT CHARSET" "DEFAULT CHARSET"
  let collation ← wordSetting "COLLATE" "COLLATE"
  let commit ← commitClause
  let strict ← suffix "STRICT"
  let remark ← commentClause
  let source ← clause "AS" g.queryText
  let columns :=
    match elements with
    | some s => " " ++ s
    | none => if source.isEmpty && like.isEmpty && clone.isEmpty then " ()" else ""
  return start ++ "TABLE" ++ guard ++ " " ++ n ++ cluster ++ columns ++ rowid ++ like ++ clone ++
    partitions ++ buckets ++ stored.text ++ properties ++ withOptions ++ engine ++ remark ++
    counter ++ key ++ order ++ division ++ grouping ++ options ++ charset ++ collation ++ commit ++
    strict ++ source

/-- A new table whose rows are kept elsewhere, behind EXTERNAL. -/
def externalTable (g : Grammar) (start : String) : Parser String := do
  expectKeywords "TABLE"
  let guard ← newGuard
  let n ← dottedText
  let elements ← tableElements g
  let partitions ← partitionColumns g
  let stored ← storage g
  let properties ← optionsBehind g "TBLPROPERTIES"
  return start ++ "EXTERNAL TABLE" ++ guard ++ " " ++ n ++ " " ++ elements.getD "()" ++
    partitions ++ stored.externalText ++ properties

/-- A new table that a module makes up, behind VIRTUAL. -/
def virtualTable (start : String) : Parser String := do
  expectKeywords "TABLE"
  let guard ← newGuard
  let n ← dottedText
  expectKeywords "USING"
  let provider ← nameText
  return start ++ "VIRTUAL TABLE" ++ guard ++ " " ++ n ++ " USING " ++ provider ++
    optionalPart (← optionalNameList)

end Parser

end TableQuery.Sql
