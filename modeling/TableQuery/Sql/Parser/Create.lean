import TableQuery.Sql.Parser.Routine
import TableQuery.Sql.Parser.Table

/-! # Parsing creations

The statements that create views, indexes, schemas and everything else that has a name. What stands
before the keyword of a statement is given. -/

namespace TableQuery.Sql

namespace Parser

/-! ### Views -/

/-- A column of a view, with its options or a remark. -/
def viewColumn (g : Grammar) : Parser String := do
  let n ← nameText
  let keyword ← peekKeyword
  if keyword = "OPTIONS" || keyword = "COMMENT" then return n ++ optionalPart (← columnOption g)
  else return n

/-- A new view; MATERIALIZED or VIEW comes next. `start` stands before either, `temporary` between
them. -/
def newView (g : Grammar) (start temporary : String) : Parser String := do
  let materialized ← if ← keywords "MATERIALIZED" then pure "MATERIALIZED " else pure ""
  expectKeywords "VIEW"
  let guard ← newGuard
  let n ← dottedText
  let columns ←
    if (← peek) = some (.symbol "(") then do
      match ← parens (itemsBefore ")" (viewColumn g)) with
      | "()" => pure ""
      | columns => pure (" " ++ columns)
    else pure ""
  let withOptions ← optionsBehind g "WITH"
  let cluster ←
    if ← keywords "CLUSTER" then do
      expectKeywords "BY"
      pure (optionalPart ((← optionalNameList).map ("CLUSTER BY " ++ ·)))
    else pure ""
  let options ← match ← optionsBehind? g "OPTIONS" with
    | none | some "" => pure ""
    | some options => pure (" OPTIONS(" ++ options ++ ")")
  let target ← clause "TO" dottedText
  let remark ←
    if ← keywords "COMMENT" then do
      expect "="
      pure (" COMMENT = " ++ stringLiteral (← comment))
    else pure ""
  expectKeywords "AS"
  let q ← g.queryText
  let unbound ← suffix "WITH NO SCHEMA BINDING"
  return start ++ materialized ++ temporary ++ "VIEW" ++ guard ++ " " ++ n ++ target ++ columns ++
    (if options.isEmpty then withOptions else "") ++ remark ++ cluster ++ options ++ " AS " ++ q ++
    unbound

/-! ### Indexes -/

/-- A new index behind its keyword. Its keys stand without blanks between them. -/
def newIndex (g : Grammar) (start : String) : Parser String := do
  let concurrently ← suffix "CONCURRENTLY"
  let guard ← newGuard
  let n ←
    if guard.isEmpty && (← keywords "ON") then pure ""
    else do
      let n ← dottedText
      expectKeywords "ON"
      pure (" " ++ n)
  let table ← dottedText
  let method ← if ← keywords "USING" then do pure (" USING " ++ (← nameText) ++ " ") else pure ""
  let list (p : Parser String) : Parser String := parens do
    return ",".intercalate (← commaSeparated p)
  let keys ← list (orderKey g)
  let included ← clause "INCLUDE" (list nameText)
  let nulls ←
    if ← keywords "NULLS" then do
      pure (" NULLS " ++ (← expectOneOf ["NOT DISTINCT", "DISTINCT"]))
    else pure ""
  let options ← clause "WITH" g.termList
  let condition ← whereClause g
  return start ++ "INDEX" ++ concurrently ++ guard ++ n ++ " ON " ++ table ++ method ++ keys ++
    included ++ nulls ++ options ++ condition

/-! ### Schemas and databases -/

/-- A new schema behind its keyword: a name, an owner or both. -/
def newSchema : Parser String := do
  let guard ← newGuard
  if ← keywords "AUTHORIZATION" then
    return "CREATE SCHEMA" ++ guard ++ " AUTHORIZATION " ++ (← nameText)
  else
    let n ← dottedText
    return "CREATE SCHEMA" ++ guard ++ " " ++ n ++ (← clause "AUTHORIZATION" nameText)

/-- Where a database is kept, with what was found so far, as long as clauses come. -/
def locationsFrom : Nat → Option String → Option String → Parser String
  | 0, _, _ => reject
  | fuel + 1, location, managed => do
    match ← oneOf ["LOCATION", "MANAGEDLOCATION"] with
    | some "LOCATION" => locationsFrom fuel (some (← literalString)) managed
    | some _ => locationsFrom fuel location (some (← literalString))
    | none =>
      return optionalPart (location.map fun s => "LOCATION '" ++ s ++ "'") ++
        optionalPart (managed.map fun s => "MANAGEDLOCATION '" ++ s ++ "'")

/-- A new database behind its keyword. -/
def newDatabase : Parser String := do
  let guard ← newGuard
  let n ← dottedText
  let locations ← sized fun fuel => locationsFrom fuel none none
  return "CREATE DATABASE" ++ guard ++ " " ++ n ++ locations

/-- New roles behind their keyword. -/
def newRoles : Parser String := do
  let guard ← newGuard
  let names ← items dottedText
  let _ ← keywords "WITH"
  return "CREATE ROLE" ++ guard ++ " " ++ names

/-! ### Sequences and types -/

/-- A new sequence behind its keyword. -/
def newSequence (g : Grammar) (start : String) : Parser String := do
  let guard ← newGuard
  let n ← dottedText
  let t ← clause "AS" (typeText g)
  let options ← sequenceOptions
  let owned ← clause "OWNED BY" do if ← keywords "NONE" then return "NONE" else dottedText
  return start ++ "SEQUENCE" ++ guard ++ " " ++ n ++ t ++ options ++ owned

/-- The fields of a type up to the closing parenthesis, which is taken; the fuel bounds their
number. A comma may stand before the parenthesis. -/
def fieldsFrom (g : Grammar) : Nat → Parser (List String)
  | 0 => reject
  | fuel + 1 => do
    let n ← nameText
    let t ← typeText g
    let field := n ++ " " ++ t ++ (← clause "COLLATE" dottedText)
    let comma ← symbol ","
    if ← symbol ")" then return [field]
    else if comma then return field :: (← fieldsFrom g fuel)
    else reject

/-- A new type behind its keyword. -/
def newType (g : Grammar) : Parser String := do
  let n ← dottedText
  expectKeywords "AS"
  if ← keywords "ENUM" then
    return "CREATE TYPE " ++ n ++ " AS ENUM " ++ (← parens (itemsBefore ")" nameText))
  else
    let fields ←
      if ← symbol "(" then do
        if ← symbol ")" then pure [] else sized (fieldsFrom g)
      else pure []
    return "CREATE TYPE " ++ n ++ " AS (" ++ commaList fields ++ ")"

/-! ### Policies, extensions and secrets -/

/-- Someone who owns or may do something. -/
def owner : Parser String := do
  match ← oneOf ["CURRENT_USER", "CURRENT_ROLE", "SESSION_USER"] with
  | some ws => return ws
  | none => nameText

/-- Whom a policy is about and which rows they see and write, each with a blank before it. -/
def policyRules (g : Grammar) : Parser String := do
  let owners ← clause "TO" (items owner)
  let seen ← clause "USING" (parens g.termText)
  return owners ++ seen ++ (← clause "WITH CHECK" (parens g.termText))

/-- A new policy behind its keyword. -/
def newPolicy (g : Grammar) : Parser String := do
  let n ← nameText
  expectKeywords "ON"
  let table ← dottedText
  let kind ← clause "AS" (expectOneOf ["PERMISSIVE", "RESTRICTIVE"])
  let command ← clause "FOR" (expectOneOf ["ALL", "SELECT", "INSERT", "UPDATE", "DELETE"])
  return "CREATE POLICY " ++ n ++ " ON " ++ table ++ kind ++ command ++ (← policyRules g)

/-- A new extension behind its keyword. -/
def newExtension : Parser String := do
  let guard ← newGuard
  let n ← nameText
  let options ←
    if ← keywords "WITH" then do
      let schema ← clause "SCHEMA" nameText
      let version ← clause "VERSION" nameText
      let cascade ← suffix "CASCADE"
      let options := schema ++ version ++ cascade
      pure (if options.isEmpty then "" else " WITH" ++ options)
    else pure ""
  return "CREATE EXTENSION" ++ guard ++ " " ++ n ++ options

/-- A name that is taken in any case, and written only if it is one. -/
def lenientName : Parser (Option String) := do
  match ← attempt nameText with
  | some n => return some n
  | none => skip 1; return none

/-- A new secret behind its keyword. -/
def newSecret (start : String) : Parser String := do
  let guard ← newGuard
  let opens : Parser Bool := do return (← peek) = some (.symbol "(")
  let placed ← keywords "IN"
  let place ← if placed then lenientName else pure none
  let n ← if !placed && !(← opens) then lenientName else pure none
  let later ← if place.isNone && !(← opens) && (← keywords "IN") then lenientName else pure none
  expect "("
  expectKeywords "TYPE"
  let kind ← nameText
  let entry : Parser String := do
    let key ← nameText
    return key ++ " " ++ (← nameText)
  let entries ← if ← symbol "," then do pure (", " ++ (← items entry)) else pure ""
  expect ")"
  let guardText := if guard.isEmpty then " " else guard ++ " "
  return start ++ "SECRET" ++ guardText ++ (match n with
    | some n => n ++ " "
    | none => "") ++ (match place <|> later with
    | some s => "IN " ++ s ++ " "
    | none => "") ++ "( TYPE " ++ kind ++ entries ++ " )"

/-! ### Creations -/

/-- A creation behind its keyword. Some of the words before the kind of what is created are dropped
where they have no meaning. -/
def creation (g : Grammar) : Parser String := do
  let replace ← keywords "OR REPLACE"
  let alter ← keywords "OR ALTER"
  let localWord ← keywords "LOCAL"
  let global ← keywords "GLOBAL"
  let transient ← keywords "TRANSIENT"
  let temporary := (← oneOf ["TEMP", "TEMPORARY"]).isSome
  let when (b : Bool) (word : String) : String := if b then word ++ " " else ""
  let start := "CREATE " ++ when replace "OR REPLACE"
  let brief := when temporary "TEMPORARY"
  let scope := if global then "GLOBAL " else when localWord "LOCAL"
  let upcoming ← peekKeyword
  if upcoming = "MATERIALIZED" || upcoming = "VIEW" then newView g start brief
  else
    firstOf
      (if replace then reject
      else firstOf reject
        [("EXTENSION", newExtension), ("INDEX", newIndex g start),
          ("UNIQUE INDEX", newIndex g (start ++ "UNIQUE ")), ("VIRTUAL", virtualTable start),
          ("SCHEMA", newSchema), ("DATABASE", newDatabase), ("ROLE", newRoles),
          ("SEQUENCE", newSequence g (start ++ brief)), ("TYPE", newType g),
          ("PROCEDURE", newProcedure g (start ++ when alter "OR ALTER"))])
      [("TABLE", newTable g (start ++ scope ++ brief ++ when transient "TRANSIENT")),
        ("POLICY", newPolicy g), ("EXTERNAL", externalTable g start),
        ("FUNCTION", newFunction g (start ++ brief)), ("TRIGGER", newTrigger g start),
        ("CONSTRAINT TRIGGER", newTrigger g (start ++ "CONSTRAINT ")),
        ("MACRO", newNamedTerm g (start ++ brief)), ("SECRET", newSecret (start ++ brief))]

end Parser

end TableQuery.Sql
