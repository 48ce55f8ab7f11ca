import TableQuery.Sql.Parser.Alter
import TableQuery.Sql.Parser.Service
import TableQuery.Sql.Parser.Session
import TableQuery.Sql.Parser.Term
import TableQuery.Sql.Token.Lexer

/-! # Parsing statements

The statements by their keywords, and the parsers of all that nests: a term, a query or a statement
at some depth is made of what is one level deeper. `parseStatements` reads whole texts.

Assumed of the grammar is that the first keyword of a statement decides what it is, that statements
are kept apart by semicolons, and that at most fifty levels are nested. -/

namespace TableQuery.Sql

namespace Parser

/-! ### Explanations -/

/-- An option of an explanation. -/
def explainOption (g : Grammar) : Parser String := do
  let n ← nameText
  let t ← peek
  if t = some (.symbol ",") || t = some (.symbol ")") then return n
  else return n ++ " " ++ (← g.termText)

/-- How a plan is written. -/
def planFormats : List String := ["TEXT", "GRAPHVIZ", "JSON"]

/-- What is said about an explanation before the statement, with a blank before it. -/
def explainModifiers (g : Grammar) (keyword : String) : Parser String := do
  if keyword = "EXPLAIN" && (← peek) = some (.symbol "(") then
    return " " ++ (← parens (items (explainOption g)))
  else if ← keywords "QUERY PLAN" then return " QUERY PLAN"
  else
    let analyze ← suffix "ANALYZE"
    let verbose ← suffix "VERBOSE"
    return analyze ++ verbose ++ (← clause "FORMAT" (expectOneOf planFormats))

/-- The plan of a statement, or what a table looks like, behind a keyword. No explanation is
explained. -/
def explanation (g : Grammar) (keyword : String) : Parser String := do
  let modifiers ← explainModifiers g keyword
  match ← attempt g.statement with
  | some (.explanation _) => reject
  | some s => return keyword ++ modifiers ++ " " ++ s.text
  | none =>
    let format ← suffixOf ["EXTENDED", "FORMATTED"]
    return keyword ++ format ++ " " ++ (← dottedText)

/-! ### Statements -/

/-- The statements that are no queries by their keywords, with the parsers of what stands behind
them. -/
def statementForms (g : Grammar) : List (String × Parser String) :=
  [("KILL", killing), ("FLUSH", flushing), ("ANALYZE", analyzing g), ("TRUNCATE", truncation g),
    ("ATTACH", attaching g), ("DETACH", detaching), ("MSCK", partitionRepair),
    ("CREATE", creation g), ("CACHE", caching g), ("DROP", removal g), ("DISCARD", discarding),
    ("DECLARE", cursor g), ("FETCH", fetching), ("DELETE", deletion g),
    ("INSERT", insertion g "INSERT"), ("REPLACE", insertion g "REPLACE"), ("UNCACHE", uncaching),
    ("UPDATE", update g), ("ALTER", alteration g), ("CALL", callStatement g), ("COPY", copying g),
    ("CLOSE", do return "CLOSE " ++ (← if ← keywords "ALL" then pure "ALL" else nameText)),
    ("SET", setting g), ("SHOW", showing g), ("USE", do return "USE " ++ (← dottedText)),
    ("GRANT", granting), ("REVOKE", revoking), ("START", transactionStart),
    ("BEGIN", transactionBegin), ("END", commit),
    ("SAVEPOINT", do return "SAVEPOINT " ++ (← nameText)),
    ("RELEASE", do
      let _ ← keywords "SAVEPOINT"
      return "RELEASE SAVEPOINT " ++ (← nameText)),
    ("COMMIT", commit), ("ROLLBACK", rollback), ("ASSERT", assertion g),
    ("DEALLOCATE", deallocation), ("EXECUTE", execution g), ("EXEC", execution g),
    ("PREPARE", preparation g), ("MERGE", merge g), ("PRAGMA", pragma), ("UNLOAD", unloading g),
    ("INSTALL", do return "INSTALL " ++ (← nameText)), ("LOAD", do return "LOAD " ++ (← nameText)),
    ("OPTIMIZE", optimizing g)]

/-- A statement; what nests in it is parsed by the given parsers. -/
def statementIn (g : Grammar) : Parser Statement := do
  let keyword ← peekKeyword
  if ["SELECT", "WITH", "VALUES"].contains keyword || (← peek) = some (.symbol "(") then
    return .query (← g.query)
  else if ["EXPLAIN", "DESCRIBE", "DESC"].contains keyword then
    skip 1
    return .explanation (← explanation g keyword)
  else firstOf reject ((statementForms g).map fun (ws, p) => (ws, do return .other (← p)))

/-! ### Nesting -/

/-- The parsers of what nests, to a depth. Anything deeper ends the text. -/
def grammar : Nat → Grammar
  | 0 => ⟨fun _ => throw .tooDeep, throw .tooDeep, throw .tooDeep⟩
  | depth + 1 =>
    let inner := grammar depth
    ⟨termIn inner, queryIn inner, statementIn inner⟩

/-- How deep terms, queries and statements nest at most. -/
def depthLimit : Nat := 50

end Parser

/-- The statements of a text, unless it is malformed. -/
def parseStatements (sql : String) : Option (List Statement) := do
  let written ← tokens sql
  let input : Input := ⟨written.filter fun t => !t.isBlank, written, false⟩
  match (Parser.statements (Parser.grammar Parser.depthLimit).statement).run input with
  | .ok (found, _) => some found
  | .error _ => none

end TableQuery.Sql
