import TableQuery.Sql.Parser.Query

/-! # Parsing statements about a session

Variables, what is shown, transactions, cursors and prepared statements, each behind its keyword. -/

namespace TableQuery.Sql

namespace Parser

/-! ### Transactions -/

/-- How far transactions are kept apart. -/
def isolationLevels : List String :=
  ["READ UNCOMMITTED", "READ COMMITTED", "REPEATABLE READ", "SERIALIZABLE"]

/-- The modes of a transaction, with or without commas between them, as many as there is fuel for;
behind a comma one has to stand. -/
def transactionModesFrom : Nat → Bool → Parser (List String)
  | 0, _ => reject
  | fuel + 1, required => do
    let mode ← firstOf (return none)
      [("ISOLATION LEVEL", do return some ("ISOLATION LEVEL " ++ (← expectOneOf isolationLevels))),
        ("READ ONLY", return some "READ ONLY"), ("READ WRITE", return some "READ WRITE")]
    match mode with
    | some mode =>
      let comma ← symbol ","
      return mode :: (← transactionModesFrom fuel comma)
    | none => if required then reject else return []

/-- The modes of a transaction, with a blank before them. -/
def transactionModes : Parser String := do
  let modes ← sized fun fuel => transactionModesFrom fuel false
  return if modes.isEmpty then "" else " " ++ commaList modes

/-- The beginning of a transaction behind BEGIN. -/
def transactionBegin : Parser String := do
  let modifier ← suffixOf ["DEFERRED", "IMMEDIATE", "EXCLUSIVE"]
  let _ ← oneOf ["TRANSACTION", "WORK"]
  return "BEGIN" ++ modifier ++ " TRANSACTION" ++ (← transactionModes)

/-- The beginning of a transaction behind START. -/
def transactionStart : Parser String := do
  expectKeywords "TRANSACTION"
  return "START TRANSACTION" ++ (← transactionModes)

/-- Whether another transaction follows the end of one, with a blank before it. -/
def transactionChain : Parser String := do
  let _ ← oneOf ["TRANSACTION", "WORK"]
  if ← keywords "AND" then
    let no ← keywords "NO"
    expectKeywords "CHAIN"
    return if no then "" else " AND CHAIN"
  else return ""

/-- The end of a transaction whose changes are kept. -/
def commit : Parser String := do return "COMMIT" ++ (← transactionChain)

/-- The end of a transaction whose changes are dropped, or a way back in one. -/
def rollback : Parser String := do
  let chain ← transactionChain
  let point ←
    if ← keywords "TO" then do
      let _ ← keywords "SAVEPOINT"
      pure (" TO SAVEPOINT " ++ (← nameText))
    else pure ""
  return "ROLLBACK" ++ chain ++ point

/-! ### Variables -/

/-- A role for the session or the transaction, whose keyword was read. -/
def roleSetting (modifier : Option String) : Parser String := do
  expectKeywords "ROLE"
  let role ← if ← keywords "NONE" then pure "NONE" else nameText
  return "SET" ++ optionalPart modifier ++ " ROLE " ++ role

/-- A value of a variable. A query needs no parentheses. -/
def variableValue (g : Grammar) : Parser String := do
  let keyword ← peekKeyword
  if keyword = "SELECT" || keyword = "WITH" then return "(" ++ (← g.queryText) ++ ")"
  else g.termText

/-- The character set of a session behind NAMES. -/
def namesSetting : Parser String := do
  if ← keywords "DEFAULT" then return "SET NAMES DEFAULT"
  else
    let charset ← literalString
    return "SET NAMES " ++ charset ++ (← clause "COLLATE" literalString)

/-- A variable that was read, without a value behind an equals sign. -/
def specialSetting (g : Grammar) (modifier : Option String) (key : String) : Parser String := do
  let localWord := if modifier = some "LOCAL" then "LOCAL " else ""
  if key.map Char.toUpper = "TIMEZONE" then
    return "SET " ++ localWord ++ "TIME ZONE " ++ (← g.termText)
  else if key = "CHARACTERISTICS" then
    expectKeywords "AS TRANSACTION"
    return "SET SESSION CHARACTERISTICS AS TRANSACTION" ++ (← transactionModes)
  else if key = "TRANSACTION" && modifier.isNone then
    if ← keywords "SNAPSHOT" then return "SET TRANSACTION SNAPSHOT " ++ (← literalText)
    else return "SET TRANSACTION" ++ (← transactionModes)
  else reject

/-- A setting of a variable behind its modifier. -/
def variableSetting (g : Grammar) (modifier : Option String) : Parser String := do
  let start := "SET " ++ match modifier with
    | some "LOCAL" => "LOCAL "
    | some "HIVEVAR" => "HIVEVAR:"
    | _ => ""
  if (← peek) = some (.symbol "(") then
    let names ← nameList
    if ← symbol "=" then pure () else expectKeywords "TO"
    return start ++ names ++ " = " ++ (← parens (items (variableValue g)))
  else
    let key ← if ← keywords "TIME ZONE" then pure "TIMEZONE" else dottedText
    if key.map Char.toUpper = "NAMES" then namesSetting
    else if (← symbol "=") || (← keywords "TO") then
      return start ++ key ++ " = " ++ (← items (variableValue g))
    else specialSetting g modifier key

/-- A setting behind its keyword. -/
def setting (g : Grammar) : Parser String := do
  let modifier ← oneOf ["SESSION", "LOCAL", "HIVEVAR"]
  if modifier = some "HIVEVAR" then
    expect ":"
    variableSetting g modifier
  else
    match ← attempt (roleSetting modifier) with
    | some text => return text
    | none => variableSetting g modifier

/-! ### What is shown -/

/-- A filter of what is shown, with a blank before it. A pattern in any case of letters is not
quoted. -/
def showFilter (g : Grammar) : Parser String :=
  firstOf
    (do
      match ← attempt literalString with
      | some s => return " " ++ stringLiteral s
      | none => return "")
    [("LIKE", do return " LIKE " ++ stringLiteral (← literalString)),
      ("ILIKE", do
        let s ← literalString
        return " ILIKE " ++ String.ofList (escapeFrom '\'' '\x00' s.toList)),
      ("WHERE", do return " WHERE " ++ (← g.termText))]

/-- The database that something is shown from, with a blank before it, and a filter. -/
def showSource (g : Grammar) : Parser String := do
  let source ← match ← oneOf ["FROM", "IN"] with
    | some word => do pure (" " ++ word ++ " " ++ (← nameText))
    | none => pure ""
  return source ++ (← showFilter g)

/-- The columns of a table, which may be named in front of its database. -/
def showColumns (g : Grammar) : Parser String := do
  let _ ← expectOneOf ["FROM", "IN"]
  let table ← dottedText
  let database ← match ← oneOf ["FROM", "IN"] with
    | some _ => do pure ((← nameText) ++ ".")
    | none => pure ""
  return "COLUMNS FROM " ++ database ++ table ++ (← showFilter g)

/-- Kinds of things whose definitions are shown. -/
def definedKinds : List String := ["TABLE", "TRIGGER", "FUNCTION", "PROCEDURE", "EVENT", "VIEW"]

/-- The words up to an equals sign or the end of the text; other tokens are dropped. -/
def wordsFrom : Nat → Parser (List String)
  | 0 => reject
  | fuel + 1 => do
    match ← peek with
    | none | some (.symbol "=") => return []
    | some (.word n _) =>
      skip 1
      return n.text :: (← wordsFrom fuel)
    | some _ =>
      skip 1
      wordsFrom fuel

/-- What is shown, behind its keyword. -/
def showing (g : Grammar) : Parser String := do
  let extended ← suffix "EXTENDED"
  let full ← suffix "FULL"
  let session ← suffix "SESSION"
  let global ← suffix "GLOBAL"
  let filtered (keyword start : String) : String × Parser String :=
    (keyword, do return start ++ " " ++ keyword ++ (← showFilter g))
  let start := "SHOW" ++ extended ++ full
  let columns : Parser String := do return start ++ " " ++ (← showColumns g)
  firstOf
    (if start ≠ "SHOW" then reject
    else firstOf
      (do
        let words ← sized wordsFrom
        return "SHOW" ++ String.join (words.map (" " ++ ·)))
      [("CREATE", do
          let kind ← expectOneOf definedKinds
          return "SHOW CREATE " ++ kind ++ " " ++ (← dottedText)),
        filtered "COLLATION" "SHOW", filtered "VARIABLES" ("SHOW" ++ global ++ session),
        filtered "STATUS" ("SHOW" ++ global ++ session), filtered "DATABASES" "SHOW",
        filtered "SCHEMAS" "SHOW"])
    [("COLUMNS", columns), ("FIELDS", columns),
      ("TABLES", do return start ++ " TABLES" ++ (← showSource g)),
      ("MATERIALIZED VIEWS", do return "SHOW MATERIALIZED VIEWS" ++ (← showSource g)),
      ("VIEWS", do return "SHOW VIEWS" ++ (← showSource g)), filtered "FUNCTIONS" "SHOW"]

/-! ### Cursors -/

/-- A new cursor behind DECLARE. -/
def cursor (g : Grammar) : Parser String := do
  let n ← nameText
  let binary ← suffix "BINARY"
  let sensitive ← suffixOf ["INSENSITIVE", "ASENSITIVE"]
  let scroll ← suffixOf ["SCROLL", "NO SCROLL"]
  expectKeywords "CURSOR"
  let hold ← match ← oneOf ["WITH", "WITHOUT"] with
    | some word => do
      expectKeywords "HOLD"
      pure (" " ++ word ++ " HOLD")
    | none => pure ""
  expectKeywords "FOR"
  return "DECLARE " ++ n ++ binary ++ sensitive ++ scroll ++ " CURSOR" ++ hold ++ " FOR " ++
    (← g.queryText)

/-- The rows that are fetched from a cursor. -/
def direction : Parser String := do
  let counted (keyword : String) : Parser String := do return keyword ++ " " ++ (← numberText)
  firstOf numberText
    [("NEXT", return "NEXT"), ("PRIOR", return "PRIOR"), ("FIRST", return "FIRST"),
      ("LAST", return "LAST"), ("ABSOLUTE", counted "ABSOLUTE"), ("RELATIVE", counted "RELATIVE"),
      ("FORWARD ALL", return "FORWARD ALL"), ("FORWARD", counted "FORWARD"),
      ("BACKWARD ALL", return "BACKWARD ALL"), ("BACKWARD", counted "BACKWARD"),
      ("ALL", return "ALL")]

/-- Rows that are fetched from a cursor, behind FETCH. -/
def fetching : Parser String := do
  let rows ← direction
  let _ ← expectOneOf ["FROM", "IN"]
  let n ← nameText
  return "FETCH " ++ rows ++ " IN " ++ n ++ (← clause "INTO" dottedText)

/-! ### Prepared statements -/

/-- The arguments of a prepared statement or a procedure. They need no parentheses. -/
def executionArguments (g : Grammar) : Parser String := do
  if (← peek) = some (.symbol "(") then parens (itemsBefore ")" g.termText)
  else
    match ← peek with
    | none | some (.symbol ";") => return ""
    | some t => if keywordOf (some t) = "USING" then return "" else return " " ++ (← g.terms)

/-- A call of a prepared statement or a procedure behind EXECUTE. -/
def execution (g : Grammar) : Parser String := do
  let n ← dottedText
  let list ← executionArguments g
  return "EXECUTE " ++ n ++ list ++ (← clause "USING" g.terms)

/-- A prepared statement behind its keyword. -/
def preparation (g : Grammar) : Parser String := do
  let n ← nameText
  let types ←
    if (← peek) = some (.symbol "(") then do pure ((← parens (items (typeText g))) ++ " ")
    else pure ""
  expectKeywords "AS"
  return "PREPARE " ++ n ++ " " ++ types ++ "AS " ++ (← g.statement).text

/-- The end of a prepared statement behind its keyword. -/
def deallocation : Parser String := do
  let word ← suffix "PREPARE"
  return "DEALLOCATE" ++ word ++ " " ++ (← nameText)

/-- A call of a routine behind its keyword. -/
def callStatement (g : Grammar) : Parser String := do
  let n ← dottedText
  if (← peek) = some (.symbol "(") then return "CALL " ++ (← callOf g n) else return "CALL " ++ n

end Parser

end TableQuery.Sql
