import TableQuery.Sql.Parser.Table

/-! # Parsing statements about the system

Statements that look after tables, files, privileges and the system itself, each behind its
keyword. -/

namespace TableQuery.Sql

namespace Parser

/-! ### Processes and caches -/

/-- The end of a process behind KILL. -/
def killing : Parser String := do
  let kind ← suffixOf ["CONNECTION", "QUERY", "MUTATION"]
  return "KILL" ++ kind ++ " " ++ (← count)

/-- What can be flushed by a word or two. -/
def flushable : List String :=
  ["BINARY LOGS", "ENGINE LOGS", "ERROR LOGS", "GENERAL LOGS", "HOSTS", "PRIVILEGES",
    "OPTIMIZER_COSTS", "SLOW LOGS", "STATUS", "USER_RESOURCES", "LOGS"]

/-- Which tables are flushed and what for, with what was found so far. Words that mean nothing here
are dropped, and the token that ends them as well. -/
def flushedTablesFrom : Nat → String → Bool → Bool → Parser String
  | 0, _, _, _ => reject
  | fuel + 1, tables, locked, exported => do
    match ← peek with
    | some (.word n keyword) =>
      if ← keywords "WITH" then flushedTablesFrom fuel tables (← keywords "READ LOCK") exported
      else if ← keywords "FOR" then flushedTablesFrom fuel tables locked (← keywords "EXPORT")
      else if isPlainWord (.word n keyword) then
        flushedTablesFrom fuel (" " ++ (← items dottedText)) locked exported
      else
        skip 1
        flushedTablesFrom fuel tables locked exported
    | _ =>
      skip 1
      return tables ++ (if locked then " WITH READ LOCK" else "") ++
        if exported then " FOR EXPORT" else ""

/-- A flush behind its keyword. -/
def flushing : Parser String := do
  let place ← suffixOf ["NO_WRITE_TO_BINLOG", "LOCAL"]
  let what ← firstOf (expectOneOf flushable)
    [("RELAY LOGS", do return "RELAY LOGS" ++ (← clause "FOR CHANNEL" dottedText)),
      ("TABLES", do
        return "TABLES" ++ (← sized fun fuel => flushedTablesFrom fuel "" false false))]
  return "FLUSH" ++ place ++ " " ++ what

/-- What a session forgets, behind DISCARD. -/
def discarding : Parser String := do
  match ← expectOneOf ["ALL", "PLANS", "SEQUENCES", "TEMPORARY", "TEMP"] with
  | "TEMPORARY" => return "DISCARD TEMP"
  | what => return "DISCARD " ++ what

/-- A table that is kept in memory, behind CACHE. -/
def caching (g : Grammar) : Parser String := do
  let flag ←
    if ← keywords "TABLE" then pure ""
    else do
      let flag ← dottedText
      expectKeywords "TABLE"
      pure (" " ++ flag)
  let n ← dottedText
  let options ← match ← optionsBehind? g "OPTIONS" with
    | none | some "" => pure ""
    | some options => pure (" OPTIONS(" ++ options ++ ")")
  let source ←
    if (← peek).isNone then pure ""
    else do
      let word ← suffix "AS"
      match ← peek with
      | some (.word _ _) => pure (word ++ " " ++ (← g.queryText))
      | _ => if word.isEmpty then reject else pure (word ++ " " ++ (← g.queryText))
  return "CACHE" ++ flag ++ " TABLE " ++ n ++ options ++ source

/-- A table that is no longer kept in memory, behind UNCACHE. -/
def uncaching : Parser String := do
  expectKeywords "TABLE"
  let guard ← oldGuard
  return "UNCACHE TABLE" ++ guard ++ " " ++ (← dottedText)

/-! ### Databases and extensions -/

/-- A file that is attached as a database, behind ATTACH. -/
def attaching (g : Grammar) : Parser String := do
  let word ← suffix "DATABASE"
  let file ← g.termText
  expectKeywords "AS"
  return "ATTACH" ++ word ++ " " ++ file ++ " AS " ++ (← nameText)

/-- A database that is detached, behind DETACH. -/
def detaching : Parser String := do
  let word ← suffix "DATABASE"
  let guard ← oldGuard
  return "DETACH" ++ word ++ guard ++ " " ++ (← nameText)

/-- A parameter of a database, behind PRAGMA. -/
def pragma : Parser String := do
  let n ← dottedText
  let value : Parser String := do
    match ← literal with
    | .string .plain s => return stringLiteral s
    | .quotedWord n => return n.text
    | .number digits long => return (Literal.number digits long).text
    | .place text => return text
    | _ => reject
  if ← symbol "(" then
    let v ← value
    expect ")"
    return "PRAGMA " ++ n ++ "(" ++ v ++ ")"
  else if ← symbol "=" then return "PRAGMA " ++ n ++ " = " ++ (← value)
  else return "PRAGMA " ++ n

/-! ### Care of tables -/

/-- An analysis of a table: which partitions and columns, and how. -/
structure Analysis where
  partitions : String
  compute : Bool
  noScan : Bool
  metadata : Bool
  /-- The columns with a blank before them, if they are analysed. -/
  columns : Option String

namespace Analysis

def text (a : Analysis) : String :=
  a.partitions ++ (if a.compute then " COMPUTE STATISTICS" else "") ++
    (if a.noScan then " NOSCAN" else "") ++ (if a.metadata then " CACHE METADATA" else "") ++
    match a.columns with
    | some columns => " FOR COLUMNS" ++ columns
    | none => ""

end Analysis

/-- The parts of an analysis, with what was found so far, as long as they come. -/
def analysisFrom (g : Grammar) : Nat → Analysis → Parser Analysis
  | 0, _ => reject
  | fuel + 1, a =>
    firstOf (return a)
      [("PARTITION", do
          let partitions := " PARTITION " ++ (← g.termList)
          analysisFrom g fuel { a with partitions }),
        ("NOSCAN", analysisFrom g fuel { a with noScan := true }),
        ("FOR", do
          expectKeywords "COLUMNS"
          let columns ← attempt (items nameText)
          analysisFrom g fuel { a with columns := some (optionalPart columns) }),
        ("CACHE", do
          expectKeywords "METADATA"
          analysisFrom g fuel { a with metadata := true }),
        ("COMPUTE", do
          expectKeywords "STATISTICS"
          analysisFrom g fuel { a with compute := true })]

/-- An analysis behind ANALYZE. -/
def analyzing (g : Grammar) : Parser String := do
  expectKeywords "TABLE"
  let n ← dottedText
  let a ← sized fun fuel => analysisFrom g fuel ⟨"", false, false, false, none⟩
  return "ANALYZE TABLE " ++ n ++ a.text

/-- Tables that lose their rows, behind TRUNCATE. -/
def truncation (g : Grammar) : Parser String := do
  let word ← suffix "TABLE"
  let only ← suffix "ONLY"
  let names ← items dottedText
  let partitions ← clause "PARTITION" g.termList
  let identity ← suffixOf ["RESTART IDENTITY", "CONTINUE IDENTITY"]
  let dependents ← suffixOf ["CASCADE", "RESTRICT"]
  return "TRUNCATE" ++ word ++ only ++ " " ++ names ++ identity ++ dependents ++ partitions ++
    (← clause "ON CLUSTER" nameText)

/-- A table whose partitions are looked for, behind MSCK. -/
def partitionRepair : Parser String := do
  let repair ← suffix "REPAIR"
  expectKeywords "TABLE"
  let n ← dottedText
  let action ← match ← oneOf ["ADD PARTITIONS", "DROP PARTITIONS", "SYNC PARTITIONS"] with
    | some action => pure (" " ++ action)
    | none => do
      let _ ← keywords "PARTITIONS"
      pure ""
  return "MSCK" ++ repair ++ " TABLE " ++ n ++ action

/-- A table whose parts are merged, behind OPTIMIZE. -/
def optimizing (g : Grammar) : Parser String := do
  expectKeywords "TABLE"
  let n ← dottedText
  let cluster ← clause "ON CLUSTER" nameText
  let partition ← if ← keywords "PARTITION ID" then do pure (" PARTITION ID " ++ (← nameText))
    else clause "PARTITION" g.termText
  let final ← suffix "FINAL"
  let distinct ←
    if ← keywords "DEDUPLICATE" then do pure (" DEDUPLICATE" ++ (← clause "BY" g.termText))
    else pure ""
  return "OPTIMIZE TABLE " ++ n ++ cluster ++ partition ++ final ++ distinct

/-- A condition that has to hold, behind ASSERT. -/
def assertion (g : Grammar) : Parser String := do
  let condition ← g.termText
  return "ASSERT " ++ condition ++ (← clause "AS" g.termText)

/-! ### Privileges -/

/-- What a privilege allows. -/
def privilegeKinds : List String :=
  ["CONNECT", "CREATE", "DELETE", "EXECUTE", "INSERT", "REFERENCES", "SELECT", "TEMPORARY",
    "TRIGGER", "TRUNCATE", "UPDATE", "USAGE"]

/-- A privilege, for some columns if its kind allows that. -/
def privilege : Parser String := do
  let kind ← expectOneOf privilegeKinds
  if ["INSERT", "REFERENCES", "SELECT", "UPDATE"].contains kind then
    return kind ++ optionalPart (← optionalNameList)
  else return kind

/-- Kinds of what privileges are for, by their keywords. -/
def privilegedKinds : List String :=
  ["ALL TABLES IN SCHEMA", "ALL SEQUENCES IN SCHEMA", "SEQUENCE", "SCHEMA"]

/-- Privileges and what they are for. -/
def privileges : Parser String := do
  let list ←
    if ← keywords "ALL" then do pure ("ALL" ++ (← suffix "PRIVILEGES")) else items privilege
  expectKeywords "ON"
  let objects ← match ← oneOf privilegedKinds with
    | some kind => do pure (kind ++ " " ++ (← items dottedText))
    | none => do
      let _ ← keywords "TABLE"
      items dottedText
  return list ++ " ON " ++ objects

/-- Privileges that are given, behind GRANT. -/
def granting : Parser String := do
  let list ← privileges
  expectKeywords "TO"
  let grantees ← items nameText
  let option ← suffix "WITH GRANT OPTION"
  return "GRANT " ++ list ++ " TO " ++ grantees ++ option ++ (← clause "GRANTED BY" nameText)

/-- Privileges that are taken back, behind REVOKE. -/
def revoking : Parser String := do
  let list ← privileges
  expectKeywords "FROM"
  let grantees ← items nameText
  let grantor ← clause "GRANTED BY" nameText
  let cascade ← keywords "CASCADE"
  let restrict ← keywords "RESTRICT"
  if cascade && restrict then reject
  else
    return "REVOKE " ++ list ++ " FROM " ++ grantees ++ grantor ++
      if cascade then " CASCADE" else " RESTRICT"

/-! ### Files -/

/-- A character between single quotes, which is not escaped. -/
def quotedChar : Parser String := do return "'" ++ (← literalChar) ++ "'"

/-- A string between single quotes, in which they are escaped. -/
def quotedString : Parser String := do return stringLiteral (← literalString)

/-- Whether an option of a copy holds: TRUE need not be written. -/
def copyFlag : Parser String := do
  match ← oneOf ["TRUE", "FALSE"] with
  | some "FALSE" => return " FALSE"
  | _ => return ""

/-- An option of a copy in parentheses. -/
def copyOption : Parser String :=
  let behind (keyword : String) (p : Parser String) : String × Parser String :=
    (keyword, do return keyword ++ " " ++ (← p))
  firstOf reject
    [behind "FORMAT" nameText, ("FREEZE", do return "FREEZE" ++ (← copyFlag)),
      behind "DELIMITER" quotedChar, behind "NULL" quotedString,
      ("HEADER", do return "HEADER" ++ (← copyFlag)), behind "QUOTE" quotedChar,
      behind "ESCAPE" quotedChar, behind "FORCE_QUOTE" nameList, behind "FORCE_NOT_NULL" nameList,
      behind "FORCE_NULL" nameList, behind "ENCODING" quotedString]

/-- Something behind a word, between which AS may stand. -/
def behindAs (keyword : String) (p : Parser String) : Parser String := do
  let _ ← keywords "AS"
  return keyword ++ " " ++ (← p)

/-- An option of a copy of separated values without parentheses. -/
def separatedOption : Parser String :=
  firstOf reject
    [("HEADER", return "HEADER"), ("QUOTE", behindAs "QUOTE" quotedChar),
      ("ESCAPE", behindAs "ESCAPE" quotedChar),
      ("FORCE NOT NULL", do return "FORCE NOT NULL " ++ (← items nameText)),
      ("FORCE QUOTE", do return "FORCE QUOTE " ++ (← items nameText))]

/-- An option of a copy without parentheses. -/
def bareCopyOption : Parser String :=
  firstOf reject
    [("BINARY", return "BINARY"), ("DELIMITER", behindAs "DELIMITER" quotedChar),
      ("NULL", behindAs "NULL" quotedString),
      ("CSV", do return "CSV " ++ " ".intercalate (← repeated (attempt separatedOption)))]

/-- A file, a program or a stream that rows are copied to or from. -/
def copyTarget : Parser String :=
  firstOf quotedString
    [("STDIN", return "STDIN"), ("STDOUT", return "STDOUT"),
      ("PROGRAM", do return "PROGRAM " ++ (← quotedString))]

/-- Drops tokens, and the blanks in front of them. -/
def dropTokens : Nat → List Token → List Token
  | 0, ts => ts
  | _ + 1, [] => []
  | n + 1, t :: ts => if t.isBlank then dropTokens (n + 1) ts else dropTokens n ts

/-- The values in the text itself, of which tabs and line breaks are the ends, and the tokens behind
them; `content` is the value so far. A backslash ends the values with a point and stands for a
missing one with an N. The number of tokens is enough fuel. -/
def copiedFrom : Nat → String → List Token → List (Option String) × List Token
  | 0, _, ts => ([], ts)
  | _ + 1, _, [] => ([], [])
  | fuel + 1, content, t :: ts =>
    if t = .blank "\t" || t = .blank "\n" then
      let (values, rest) := copiedFrom fuel "" ts
      (some content :: values, rest)
    else if t = .symbol "\\" then
      match ts.dropWhile Token.isBlank with
      | .symbol "." :: rest => ([], rest)
      | .word n _ :: rest =>
        let (values, rest) := copiedFrom fuel content rest
        (if n.value = "N" then none :: values else values, rest)
      | _ :: rest => copiedFrom fuel content rest
      | [] => ([], [])
    else copiedFrom fuel (content ++ t.text) ts

/-- The values that are copied from the text itself, behind their semicolon. -/
def copiedValues : Parser String := do
  let i ← get
  let taken := (i.written.filter fun t => !t.isBlank).length - i.tokens.length
  let ts := dropTokens taken i.written
  let (values, rest) := copiedFrom ts.length "" ts
  set { i with tokens := rest.filter fun t => !t.isBlank }
  if values.isEmpty then return ""
  else return ";\n" ++ "\t".intercalate (values.map fun v => v.getD "\\N") ++ "\n\\."

/-- A copy of rows behind its keyword. -/
def copying (g : Grammar) : Parser String := do
  let isQuery := (← peek) = some (.symbol "(")
  let source ←
    if isQuery then parens g.queryText
    else do
      let n ← dottedText
      pure (n ++ optionalPart (← optionalNameList))
  let direction ← expectOneOf ["FROM", "TO"]
  if isQuery && direction = "FROM" then reject
  else
    let target ← copyTarget
    let _ ← keywords "WITH"
    let options ←
      if (← peek) = some (.symbol "(") then do pure (" " ++ (← parens (items copyOption)))
      else pure ""
    let others ← suffixes (attempt bareCopyOption)
    let values ←
      if target = "STDIN" then do
        expect ";"
        copiedValues
      else pure ""
    return "COPY " ++ source ++ " " ++ direction ++ " " ++ target ++ options ++ others ++ values

/-- The rows of a query that are written to a file, behind UNLOAD. -/
def unloading (g : Grammar) : Parser String := do
  let source ← parens g.queryText
  expectKeywords "TO"
  let target ← nameText
  return "UNLOAD" ++ source ++ " TO " ++ target ++ (← optionsBehind g "WITH")

end Parser

end TableQuery.Sql
