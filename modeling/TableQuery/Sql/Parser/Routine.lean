import TableQuery.Sql.Parser.ColumnType
import TableQuery.Sql.Parser.Relation

/-! # Parsing new routines

The statements that create functions, procedures, triggers and named terms. What stands before the
keyword of a statement is given. -/

namespace TableQuery.Sql

namespace Parser

/-! ### Functions -/

/-- A parameter of a function: a mode, a name if the type is a known one or follows, a type and a
value if none is given. -/
def parameter (g : Grammar) : Parser String := do
  let mode ← match ← oneOf ["IN", "OUT", "INOUT"] with
    | some mode => pure (mode ++ " ")
    | none => pure ""
  let t ← columnType g
  let typed ←
    match t.form with
    | .custom first => do pure (first.text ++ " " ++ (← typeText g))
    | _ => pure t.text
  let fallback ←
    if (← keywords "DEFAULT") || (← symbol "=") then do pure (" = " ++ (← g.termText))
    else pure ""
  return mode ++ typed ++ fallback

/-- The parameters of a function in parentheses. -/
def parameterList (g : Grammar) : Parser String := parens (itemsBefore ")" (parameter g))

/-- A function with its parameters, if they are given. -/
def functionName (g : Grammar) : Parser String := do
  let n ← dottedText
  if (← peek) = some (.symbol "(") then return n ++ (← parameterList g) else return n

/-- A property of a function. Each is given at most once. -/
inductive FunctionPart where
  | language
  | behavior
  | nulls
  | parallel
  | body
  deriving DecidableEq

/-- The order in which the properties of a function are written. -/
def functionParts : List FunctionPart := [.language, .behavior, .nulls, .parallel, .body]

/-- The text of a function's body. -/
def bodyText : Parser String := do
  match ← peek with
  | some (.string (.dollar tag) s) => skip 1; return (StringForm.dollar tag).literal s
  | _ => return stringLiteral (← literalString)

/-- A property of a function, if one stands here. -/
def functionPart (g : Grammar) : Parser (Option (FunctionPart × String)) :=
  let plain (part : FunctionPart) (ws : String) :
      String × Parser (Option (FunctionPart × String)) :=
    (ws, return some (part, ws))
  firstOf (return none)
    [("AS", do return some (.body, "AS " ++ (← bodyText))),
      ("LANGUAGE", do return some (.language, "LANGUAGE " ++ (← nameText))),
      plain .behavior "IMMUTABLE", plain .behavior "STABLE", plain .behavior "VOLATILE",
      plain .nulls "CALLED ON NULL INPUT", plain .nulls "RETURNS NULL ON NULL INPUT",
      plain .nulls "STRICT",
      ("PARALLEL", do
        return some (.parallel, "PARALLEL " ++ (← expectOneOf ["UNSAFE", "RESTRICTED", "SAFE"]))),
      ("RETURN", do return some (.body, "RETURN " ++ (← g.termText)))]

/-- No two properties are of one kind. -/
def distinctParts (found : List (FunctionPart × String)) : Bool :=
  functionParts.all fun part => (found.filter fun (p, _) => p = part).length ≤ 1

/-- A new function behind its keyword. -/
def newFunction (g : Grammar) (start : String) : Parser String := do
  let n ← dottedText
  let list ← parameterList g
  let result ← clause "RETURNS" (typeText g)
  let found ← repeated (functionPart g)
  if distinctParts found then
    return start ++ "FUNCTION " ++ n ++ list ++ result ++
      String.join (functionParts.map fun part => optionalPart (found.lookup part))
  else reject

/-! ### Procedures -/

/-- The parameters of a procedure up to the closing parenthesis, which is taken; the fuel bounds
their number. A comma may stand before the parenthesis. -/
def procedureParametersFrom (g : Grammar) : Nat → Parser (List String)
  | 0 => reject
  | fuel + 1 => do
    let found ←
      match ← peek with
      | some (.word _ _) => do
        let n ← nameText
        pure [n ++ " " ++ (← typeText g)]
      | _ => pure []
    let comma ← symbol ","
    if ← symbol ")" then return found
    else if comma then return found ++ (← procedureParametersFrom g fuel)
    else reject

/-- Statements with semicolons between them; `separated` says whether one may stand here. An END
behind a statement ends them. -/
def statementsFrom (statement : Parser Statement) : Nat → Bool → Parser (List Statement)
  | 0, _ => reject
  | fuel + 1, separated => do
    if ← symbol ";" then statementsFrom statement fuel true
    else if (← peek).isNone then return []
    else if separated then
      let s ← statement
      return s :: (← statementsFrom statement fuel false)
    else if (← peekKeyword) = "END" then return []
    else reject

/-- Statements with semicolons between them. -/
def statements (statement : Parser Statement) : Parser (List Statement) := do
  (statementsFrom statement (2 * (← get).tokens.length + 2) true)

/-- A new procedure behind its keyword. -/
def newProcedure (g : Grammar) (start : String) : Parser String := do
  let n ← dottedText
  let list ←
    if ← symbol "(" then do
      if ← symbol ")" then pure [] else sized (procedureParametersFrom g)
    else pure []
  expectKeywords "AS BEGIN"
  let body ← statements g.statement
  expectKeywords "END"
  let parameters := if list.isEmpty then "" else " (" ++ commaList list ++ ")"
  return start ++ "PROCEDURE " ++ n ++ parameters ++ " AS BEGIN " ++
    "; ".intercalate (body.map Statement.text) ++ " END"

/-! ### Triggers -/

/-- A change that fires a trigger. -/
def triggerEvent : Parser String := do
  match ← expectOneOf ["INSERT", "UPDATE", "DELETE", "TRUNCATE"] with
  | "UPDATE" => return "UPDATE" ++ (← clause "OF" (items nameText))
  | event => return event

/-- Changes with OR between them, as many as there is fuel for. -/
def triggerEventsFrom : Nat → Parser String
  | 0 => reject
  | fuel + 1 => do
    let event ← triggerEvent
    if ← keywords "OR" then return event ++ " OR " ++ (← triggerEventsFrom fuel) else return event

/-- A name for the rows before or after a change, if one stands here. -/
def transitionTable : Parser (Option String) := do
  match ← oneOf ["OLD TABLE", "NEW TABLE"] with
  | some ws =>
    let word ← suffix "AS"
    return some (ws ++ word ++ " " ++ (← dottedText))
  | none => if (← oneOf ["OLD", "NEW"]).isSome then return none else return none

/-- A new trigger behind its keyword. -/
def newTrigger (g : Grammar) (start : String) : Parser String := do
  let n ← dottedText
  let period ← expectOneOf ["BEFORE", "AFTER", "INSTEAD OF"]
  let events ← sized triggerEventsFrom
  expectKeywords "ON"
  let table ← dottedText
  let referred ← if ← keywords "FROM" then do
      pure (optionalPart ((← lenientNames).map ("FROM " ++ ·)))
    else pure ""
  let time ← checkTime
  let transitions ←
    if ← keywords "REFERENCING" then do
      let found ← suffixes transitionTable
      pure (if found.isEmpty then "" else " REFERENCING" ++ found)
    else pure ""
  expectKeywords "FOR"
  let each ← suffix "EACH"
  let object ← expectOneOf ["ROW", "STATEMENT"]
  let condition ← clause "WHEN" g.termText
  expectKeywords "EXECUTE"
  let kind ← expectOneOf ["FUNCTION", "PROCEDURE"]
  let routine ← functionName g
  let fired := period ++ " " ++ events ++ " ON " ++ table ++ referred ++ time ++ transitions
  return start ++ "TRIGGER " ++ n ++ " " ++ fired ++ " FOR" ++ each ++ " " ++ object ++ condition ++
    " EXECUTE " ++ kind ++ " " ++ routine

/-! ### Named terms -/

/-- A parameter of a named term, with its value if none is given. -/
def termParameter (g : Grammar) : Parser String := do
  let n ← nameText
  if (← symbol ":=") || (← symbol "=>") then return n ++ " := " ++ (← g.termText) else return n

/-- A new name for a term or a query, behind MACRO. Empty parentheses are dropped. -/
def newNamedTerm (g : Grammar) (start : String) : Parser String := do
  let n ← dottedText
  expect "("
  let list ← itemsBefore ")" (termParameter g)
  expect ")"
  expectKeywords "AS"
  let content ← if ← keywords "TABLE" then do pure ("TABLE " ++ (← g.queryText)) else g.termText
  return start ++ "MACRO " ++ n ++ (if list.isEmpty then "" else "(" ++ list ++ ")") ++ " AS " ++
    content

end Parser

end TableQuery.Sql
