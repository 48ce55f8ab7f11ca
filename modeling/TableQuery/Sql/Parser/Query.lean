import TableQuery.Sql.Parser.Change

/-! # Parsing queries

A query defines names, computes rows with SELECT, VALUES and set operators, and orders and cuts
them. Assumed of the grammar is that INTERSECT binds stronger than UNION and EXCEPT, that orders and
limits belong to the whole query, and that a limit and an offset come in either order. -/

namespace TableQuery.Sql

namespace Parser

/-! ### Clauses of a SELECT -/

/-- Some keys in parentheses, or none. -/
def keySet (g : Grammar) : Parser String := parens (itemsBefore ")" g.termText)

/-- Some keys in parentheses, or a key without them. A single key loses its parentheses. -/
def looseKeySet (g : Grammar) : Parser String := do
  if ← symbol "(" then
    if ← symbol ")" then return "()"
    else
      let keys ← commaSeparated g.termText
      expect ")"
      match keys with
      | [key] => return key
      | keys => return "(" ++ commaList keys ++ ")"
  else g.termText

/-- A key of a GROUP BY: a term, nothing in parentheses, or sets of keys. -/
def groupKey (g : Grammar) : Parser String :=
  let sets (keyword : String) (set : Parser String) : String × Parser String :=
    (keyword, do return keyword ++ " " ++ (← parens (items set)))
  firstOf
    (do
      if (← peek) = some (.symbol "(") && (← peekSecond) = some (.symbol ")") then
        skip 2
        return "()"
      else g.termText)
    [sets "GROUPING SETS" (keySet g), sets "CUBE" (looseKeySet g), sets "ROLLUP" (looseKeySet g)]

/-- What may follow the keys of a GROUP BY, if it stands here. -/
def groupModifier : Parser (Option String) := do
  if ← keywords "WITH" then
    return some ("WITH " ++ (← expectOneOf ["ROLLUP", "CUBE", "TOTALS"]))
  else return none

/-- The keys of a GROUP BY and what follows them. -/
def groupKeys (g : Grammar) : Parser String := do
  let keys ← if ← keywords "ALL" then pure "ALL" else items (groupKey g)
  return keys ++ (← suffixes groupModifier)

/-- A window with its name. -/
def namedWindow (g : Grammar) : Parser String := do
  let n ← nameText
  expectKeywords "AS"
  return n ++ " AS " ++ (← window g)

/-- Links between rows, where PRIOR is an operator. -/
def hierarchyLinks (g : Grammar) : Parser String := do
  let outside := (← get).inHierarchy
  modify fun i => { i with inHierarchy := true }
  let links ← g.terms
  modify fun i => { i with inHierarchy := outside }
  return links

/-- The first rows of a hierarchy and the links to the others, in either order. -/
def hierarchy (g : Grammar) : Parser (List SelectClause) := do
  let clauses (start links : String) : List SelectClause :=
    [⟨"START WITH", start⟩, ⟨"CONNECT BY", links⟩]
  firstOf
    (do
      if ["START", "CONNECT"].contains (← peekKeyword) then reject else return [])
    [("CONNECT BY", do
        let links ← hierarchyLinks g
        expectKeywords "START WITH"
        return clauses (← g.termText) links),
      ("START WITH", do
        let start ← g.termText
        expectKeywords "CONNECT BY"
        return clauses start (← hierarchyLinks g))]

/-- The clauses that are there, of those that may follow in this order. -/
def clausesOf : List (String × Parser String) → Parser (List SelectClause)
  | [] => return []
  | (keyword, p) :: r => do
    if ← keywords keyword then
      let content ← p
      return ⟨keyword, content⟩ :: (← clausesOf r)
    else clausesOf r

/-- Words that end the names of the columns of a lateral view. -/
def viewAliasEnds : List String := ["WHERE", "GROUP", "CLUSTER", "HAVING", "LATERAL"]

/-- A lateral view behind a FROM, if one stands here. -/
def lateralView (g : Grammar) : Parser (Option SelectClause) := do
  if ← keywords "LATERAL VIEW" then
    let outer ← suffix "OUTER"
    let source ← g.termText
    let n ← dottedText
    let columns := (← commaSeparated (alias? viewAliasEnds)).reduceOption.map Name.text
    let naming := if columns.isEmpty then "" else " AS " ++ commaList columns
    return some ⟨"LATERAL VIEW" ++ outer, source ++ " " ++ n ++ naming⟩
  else return none

/-- Clauses behind a FROM in their order. -/
def clauseForms (g : Grammar) : List (String × Parser String) :=
  [("PREWHERE", g.termText), ("WHERE", g.termText), ("GROUP BY", groupKeys g),
    ("CLUSTER BY", g.terms), ("DISTRIBUTE BY", g.terms), ("SORT BY", g.terms),
    ("HAVING", g.termText)]

/-- The clauses behind those, which come in either order. -/
def windowForms (g : Grammar) : List (String × Parser String) :=
  [("WINDOW", items (namedWindow g)), ("QUALIFY", g.termText)]

/-! ### SELECT -/

/-- DISTINCT with what it is over. ALL stands for its absence. -/
def distinctClause (g : Grammar) : Parser (Option String) := do
  let all ← keywords "ALL"
  if ← keywords "DISTINCT" then
    if all then reject
    else if ← keywords "ON" then return some ("DISTINCT ON " ++ (← keySet g))
    else return some "DISTINCT"
  else return none

/-- How many of the rows are wanted. -/
def topClause (g : Grammar) : Parser (Option String) := do
  if ← keywords "TOP" then
    let quantity ← if (← peek) = some (.symbol "(") then parens g.termText else count
    let percent ← suffix "PERCENT"
    return some ("TOP " ++ quantity ++ percent ++ (← suffix "WITH TIES"))
  else return none

/-- The new table that the rows are put into. -/
def intoClause : Parser (Option String) := do
  if ← keywords "INTO" then
    let temporary := (← oneOf ["TEMP", "TEMPORARY"]).map fun _ => "TEMPORARY"
    let unlogged ← suffix "UNLOGGED"
    let table ← suffix "TABLE"
    return some ("INTO" ++ optionalPart temporary ++ unlogged ++ table ++ " " ++ (← dottedText))
  else return none

/-- A SELECT behind its keyword. -/
def select (g : Grammar) : Parser Select := do
  let distinct ← distinctClause g
  let top ← topClause g
  let list ← commaSeparated (selectItem g)
  let into ← intoClause
  let sources ← if ← keywords "FROM" then commaSeparated (fromItem g) else pure []
  let views ← repeated (lateralView g)
  let parts ← clausesOf (clauseForms g)
  let ending ← clausesOf
    (if (← peekKeyword) = "QUALIFY" then (windowForms g).reverse else windowForms g)
  let links ← hierarchy g
  return ⟨distinct, top, list, into, sources, views ++ parts ++ ending ++ links⟩

/-! ### Bodies of queries -/

/-- A table as a query. Three tokens are taken whatever they are; if the second one is a point, the
table is qualified. -/
def wholeTable : Parser String := do
  let ts := (← get).tokens
  skip 3
  match ts with
  | .word schema _ :: .symbol "." :: .word table _ :: _ =>
    return "TABLE " ++ schema.value ++ "." ++ table.value
  | _ :: .symbol "." :: _ => reject
  | .word table _ :: _ => return "TABLE " ++ table.value
  | _ => reject

/-- The strength of a set operator. -/
def setStrength (keyword : String) : Option Nat :=
  match keyword with
  | "UNION" | "EXCEPT" => some 10
  | "INTERSECT" => some 20
  | _ => none

/-- What a set operator does with equal rows and how it matches columns. -/
def setQuantifiers : List String :=
  ["DISTINCT BY NAME", "BY NAME", "ALL BY NAME", "ALL", "DISTINCT"]

/-- The body of a query without set operators. -/
def simpleBody (g : Grammar) : Parser QueryBody := do
  if ← keywords "SELECT" then return .select (← select g)
  else if ← symbol "(" then
    let q ← g.queryText
    expect ")"
    return .other ("(" ++ q ++ ")")
  else if ← keywords "VALUES" then return .other (← valuesRows g)
  else if ← keywords "TABLE" then return .other (← wholeTable)
  else reject

/-- The set operators behind a body that bind stronger than a strength, with what is on their right
sides; the fuel bounds their number. -/
def setOperationsFrom (g : Grammar) : Nat → Nat → QueryBody → Parser QueryBody
  | 0, _, _ => reject
  | fuel + 1, strength, left => do
    let keyword ← peekKeyword
    match setStrength keyword with
    | none => return left
    | some found =>
      if found ≤ strength then return left
      else
        skip 1
        let quantifier ← suffixOf setQuantifiers
        let right ← setOperationsFrom g fuel found (← simpleBody g)
        setOperationsFrom g fuel strength
          (.other (left.text ++ " " ++ keyword ++ quantifier ++ " " ++ right.text))

/-- The body of a query. -/
def queryBody (g : Grammar) : Parser QueryBody := do
  let first ← simpleBody g
  sized fun fuel => setOperationsFrom g fuel 0 first

/-! ### Queries -/

/-- A named query in front of another one. -/
def definition (g : Grammar) : Parser String := do
  let n ← nameText
  let columns ← if (← peekKeyword) = "AS" then pure none else optionalNameList
  expectKeywords "AS"
  let q ← parens g.queryText
  return n ++ optionalPart columns ++ " AS " ++ q ++ (← clause "FROM" nameText)

/-- The names that are defined in front of a query. -/
def definitions (g : Grammar) : Parser (Option String) := do
  if ← keywords "WITH" then
    let recursive ← suffix "RECURSIVE"
    return some ("WITH" ++ recursive ++ " " ++ (← items (definition g)))
  else return none

/-- A value that fills a gap in an order. -/
def interpolation (g : Grammar) : Parser String := do
  let column ← nameText
  return column ++ (← clause "AS" g.termText)

/-- An ORDER BY with the values in its gaps. -/
def orderClause (g : Grammar) : Parser (Option String) := do
  if ← keywords "ORDER BY" then
    let keys ← orderKeys g
    let gaps ←
      if ← keywords "INTERPOLATE" then do
        pure (" INTERPOLATE" ++ (← if (← peek) = some (.symbol "(") then do
          pure (" " ++ (← parens (itemsBefore ")" (interpolation g))))
          else pure ""))
      else pure ""
    return some ("ORDER BY " ++ keys ++ gaps)
  else return none

/-- The limit of a query, and its offset with the word behind it. -/
structure Bounds where
  limit : Option Term
  offset : Option (Term × String)

/-- The limit and the offset of a query, in either order and with a comma between them, looked for
as often as there is fuel for. -/
def boundsFrom (g : Grammar) : Nat → Bounds → Parser Bounds
  | 0, b => return b
  | fuel + 1, b => do
    let limit ←
      if b.limit.isNone && (← keywords "LIMIT") then do
        if ← keywords "ALL" then pure none else do pure (some (← g.term 0))
      else pure b.limit
    let offset ←
      if b.offset.isNone && (← keywords "OFFSET") then do
        let value ← g.term 0
        pure (some (value, ← suffixOf ["ROWS", "ROW"]))
      else pure b.offset
    if limit.isSome && offset.isNone && (← symbol ",") then
      boundsFrom g fuel ⟨some (← g.term 0), limit.map (·, "")⟩
    else boundsFrom g fuel ⟨limit, offset⟩

/-- A FETCH, with a blank before it. -/
def fetchClause : Parser String := do
  if ← keywords "FETCH" then
    let _ ← expectOneOf ["FIRST", "NEXT"]
    let quantity ←
      match ← oneOf ["ROWS", "ROW"] with
      | some _ => pure ""
      | none => do
        let n ← literalText
        let percent ← suffix "PERCENT"
        let _ ← expectOneOf ["ROWS", "ROW"]
        pure (" " ++ n ++ percent)
    return " FETCH FIRST" ++ quantity ++ " ROWS " ++ (← expectOneOf ["ONLY", "WITH TIES"])
  else return ""

/-- A string in parentheses that is written as it is, if one stands here. -/
def optionalRawString : Parser String := optionalParens do return "'" ++ (← literalString) ++ "'"

/-- The options of an output format behind commas, those that are there in the given order. ROOT is
followed by a string in parentheses. A comma may have nothing behind it. -/
def formatOptions (known : List String) : Parser String := do
  let found ← repeated do
    if ← symbol "," then
      match ← oneOf known with
      | some "ROOT" =>
        expect "("
        let s ← literalString
        expect ")"
        return some ("ROOT", "('" ++ s ++ "')")
      | some option => return some (option, "")
      | none => return some ("", "")
    else return none
  return String.join (known.map fun option =>
    match found.reverse.lookup option with
    | some content => ", " ++ option ++ content
    | none => "")

/-- The output format of the rows, if one is named here. -/
def outputFormat : Parser (Option String) :=
  firstOf (return none)
    [("XML", do
        let form ← expectOneOf ["RAW", "AUTO", "EXPLICIT", "PATH"]
        let element ← if form = "RAW" || form = "PATH" then optionalRawString else pure ""
        return some ("FOR XML " ++ form ++ element ++
          (← formatOptions ["BINARY BASE64", "TYPE", "ROOT", "ELEMENTS"]))),
      ("JSON", do
        let form ← expectOneOf ["AUTO", "PATH"]
        return some ("FOR JSON " ++ form ++
          (← formatOptions ["ROOT", "INCLUDE_NULL_VALUES", "WITHOUT_ARRAY_WRAPPER"]))),
      ("BROWSE", return some "FOR BROWSE")]

/-- A lock of the rows behind FOR. -/
def lock : Parser String := do
  let kind ← expectOneOf ["UPDATE", "SHARE"]
  let tables ← clause "OF" dottedText
  return "FOR " ++ kind ++ tables ++ (← suffixOf ["NOWAIT", "SKIP LOCKED"])

/-- Locks and an output format that ends them, each with a blank before it, as many as there is
fuel for. -/
def forClausesFrom : Nat → Parser String
  | 0 => reject
  | fuel + 1 => do
    if ← keywords "FOR" then
      match ← outputFormat with
      | some format => return " " ++ format
      | none =>
        let text ← lock
        return " " ++ text ++ (← forClausesFrom fuel)
    else return ""

/-- What stands at the end of a query, with a blank before each part. -/
def queryRest (g : Grammar) : Parser String := do
  let grouped ← clause "BY" g.terms
  let set ← clause "SETTINGS" settings
  let fetch ← fetchClause
  let locks ← sized forClausesFrom
  let format ← if ← keywords "FORMAT NULL" then pure " FORMAT NULL" else clause "FORMAT" nameText
  return grouped ++ set ++ fetch ++ locks ++ format

/-- A query; what nests in it is parsed by the given parsers. Rows that an insertion or an update
gives back are a query as well. -/
def queryIn (g : Grammar) : Parser SelectQuery := do
  let names ← definitions g
  let changed (p : Parser String) : Parser SelectQuery := do
    return ⟨names, .other (← p), none, none, none, "", ""⟩
  firstOf
    (do
      let body ← queryBody g
      let order ← orderClause g
      let b ← boundsFrom g 2 ⟨none, none⟩
      let rest ← queryRest g
      return ⟨names, body, order, b.limit, b.offset.map Prod.fst, (b.offset.map Prod.snd).getD "",
        rest⟩)
    [("INSERT", changed (insertion g "INSERT")), ("UPDATE", changed (update g))]

end Parser

end TableQuery.Sql
