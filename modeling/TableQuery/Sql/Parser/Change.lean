import TableQuery.Sql.Parser.Relation

/-! # Parsing changes of rows

Statements that insert, update, delete and merge rows, behind their keywords. -/

namespace TableQuery.Sql

namespace Parser

/-! ### Parts of changes -/

/-- An assignment to a column, or to several in parentheses. -/
def assignment (g : Grammar) : Parser String := do
  let target ← if (← peek) = some (.symbol "(") then parens (items dottedText) else dottedText
  expect "="
  return target ++ " = " ++ (← g.termText)

/-- One or more assignments. -/
def assignments (g : Grammar) : Parser String := items (assignment g)

/-- A WHERE, with a blank before it. -/
def whereClause (g : Grammar) : Parser String := clause "WHERE" g.termText

/-- A LIMIT, with a blank before it; ALL stands for none. -/
def limitClause (g : Grammar) : Parser String := do
  if ← keywords "LIMIT ALL" then return "" else clause "LIMIT" g.termText

/-- The formats of files of rows. -/
def fileFormats : List String :=
  ["AVRO", "JSONFILE", "ORC", "PARQUET", "RCFILE", "SEQUENCEFILE", "TEXTFILE"]

/-! ### Insertions -/

/-- What happens to a row whose key is there already, with a blank before it. -/
def conflictClause (g : Grammar) : Parser String := do
  if ← keywords "ON CONFLICT" then
    let target ←
      if ← keywords "ON CONSTRAINT" then do pure (" ON CONSTRAINT " ++ (← dottedText))
      else do pure ((← optionalNameList).getD "")
    expectKeywords "DO"
    if ← keywords "NOTHING" then return " ON CONFLICT" ++ target ++ " DO NOTHING"
    else
      expectKeywords "UPDATE SET"
      let changes ← assignments g
      return " ON CONFLICT" ++ target ++ " DO UPDATE SET " ++ changes ++ (← whereClause g)
  else if ← keywords "ON" then
    expectKeywords "DUPLICATE KEY UPDATE"
    return " ON DUPLICATE KEY UPDATE " ++ (← assignments g)
  else return ""

/-- The columns and the partition in front of the rows to insert, each with a blank behind it. A
query in parentheses is no list of columns. -/
def insertColumns (g : Grammar) : Parser String := do
  if (← peek) = some (.symbol "(") && keywordOf (← peekSecond) = "SELECT" then return ""
  else
    let columns ← match ← optionalNameList with
      | some columns => pure (columns ++ " ")
      | none => pure ""
    let partition ← leading "PARTITION" g.termList
    return columns ++ partition

/-- Rows that are written to a directory. -/
def insertDirectory (g : Grammar) (overwrite localWord : String) : Parser String := do
  let path ← literalString
  let format ← clause "STORED AS" (expectOneOf fileFormats)
  return "INSERT" ++ overwrite ++ localWord ++ " DIRECTORY '" ++ path ++ "'" ++ format ++ " " ++
    (← g.queryText)

/-- An insertion behind its keyword, which is given: INSERT or REPLACE. -/
def insertion (g : Grammar) (keyword : String) : Parser String := do
  let priority ← suffixOf ["LOW_PRIORITY", "DELAYED", "HIGH_PRIORITY"]
  let ignore ← suffix "IGNORE"
  let overwrite ← suffix "OVERWRITE"
  let into ← suffix "INTO"
  let localWord ← suffix "LOCAL"
  if ← keywords "DIRECTORY" then insertDirectory g overwrite localWord
  else
    let table ← suffix "TABLE"
    let n ← dottedText
    let rows ← if ← keywords "DEFAULT VALUES" then pure "DEFAULT VALUES"
      else do
        let columns ← insertColumns g
        pure (columns ++ (← g.queryText))
    let newName ←
      if ← keywords "AS" then do
        let n ← dottedText
        pure (" AS " ++ n ++ optionalPart (← optionalNameList))
      else pure ""
    let conflict ← conflictClause g
    return keyword ++ priority ++ ignore ++ overwrite ++ into ++ table ++ " " ++ n ++ " " ++ rows ++
      newName ++ conflict ++ (← returningClause g)

/-! ### Updates and deletions -/

/-- An update behind its keyword. -/
def update (g : Grammar) : Parser String := do
  let table ← fromText g
  expectKeywords "SET"
  let changes ← assignments g
  let source ← clause "FROM" (fromText g)
  let condition ← whereClause g
  return "UPDATE " ++ table ++ " SET " ++ changes ++ source ++ condition ++ (← returningClause g)

/-- A deletion behind its keyword. -/
def deletion (g : Grammar) : Parser String := do
  let keyword ← suffix "FROM"
  let sources ← items (fromText g)
  let others ← clause "USING" (items (fromText g))
  let condition ← whereClause g
  let results ← returningClause g
  let order ← clause "ORDER BY" (orderKeys g)
  return "DELETE" ++ keyword ++ " " ++ sources ++ others ++ condition ++ results ++ order ++
    (← limitClause g)

/-! ### Merges -/

/-- The rows that a clause of a merge is about. -/
def mergeKinds : List String :=
  ["MATCHED", "NOT MATCHED BY SOURCE", "NOT MATCHED BY TARGET", "NOT MATCHED"]

/-- An insertion in a merge. -/
def mergeInsertion (g : Grammar) : Parser String := do
  let columns ← optionalNameList
  let row ← if ← keywords "ROW" then pure "ROW"
    else do
      expectKeywords "VALUES"
      valuesRows g
  return "INSERT" ++ optionalPart columns ++ " " ++ row

/-- What is done with rows of a kind: rows of the target are changed, other rows inserted. -/
def mergeAction (g : Grammar) (kind : String) : Parser String := do
  if kind = "NOT MATCHED" || kind = "NOT MATCHED BY TARGET" then
    expectKeywords "INSERT"
    mergeInsertion g
  else if ← keywords "DELETE" then return "DELETE"
  else
    expectKeywords "UPDATE SET"
    return "UPDATE SET " ++ (← assignments g)

/-- A clause of a merge, if the statement goes on here. -/
def mergeClause (g : Grammar) : Parser (Option String) := do
  let t ← peek
  if t.isNone || t = some (.symbol ";") then return none
  else
    expectKeywords "WHEN"
    let kind ← expectOneOf mergeKinds
    let condition ← clause "AND" g.termText
    expectKeywords "THEN"
    return some ("WHEN " ++ kind ++ condition ++ " THEN " ++ (← mergeAction g kind))

/-- A merge behind its keyword. Behind the condition there is a blank even if there are no
clauses. -/
def merge (g : Grammar) : Parser String := do
  let into ← suffix "INTO"
  let target ← relation g
  expectKeywords "USING"
  let source ← relation g
  expectKeywords "ON"
  let condition ← g.termText
  let clauses ← repeated (mergeClause g)
  return "MERGE" ++ into ++ " " ++ target.text ++ " USING " ++ source.text ++ " ON " ++ condition ++
    " " ++ " ".intercalate clauses

end Parser

end TableQuery.Sql
