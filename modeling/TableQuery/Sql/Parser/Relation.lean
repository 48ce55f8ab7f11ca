import TableQuery.Sql.Parser.ColumnType
import TableQuery.Sql.Parser.Item
import TableQuery.Sql.Parser.RowPattern

/-! # Parsing relations

What a FROM names: tables, queries, results of functions and joins in parentheses, with what they
are turned into and their joins with other relations. Assumed of the grammar is that joins are taken
from the left unless parentheses say otherwise. -/

namespace TableQuery.Sql

namespace Parser

/-! ### Results of functions -/

/-- A value with its new name, if it has one. -/
def renamable (p : Parser String) : Parser String := do
  let value ← p
  return value ++ (← clause "AS" nameText)

/-- Settings by name. -/
def settings : Parser String := items do
  let key ← nameText
  expect "="
  return key ++ " = " ++ (← literalText)

/-- The arguments of a function that gives a relation, up to the closing parenthesis, as many as
there is fuel for. Settings can only stand at their end. -/
def tableArgumentsFrom (g : Grammar) : Nat → Parser (List String)
  | 0 => reject
  | fuel + 1 => do
    if ← keywords "SETTINGS" then return ["SETTINGS " ++ (← settings)]
    else
      let a ← argument g
      if ← symbol "," then return a :: (← tableArgumentsFrom g fuel) else return [a]

/-- The arguments of a function that gives a relation, behind the opening parenthesis with the
closing one. -/
def tableArguments (g : Grammar) : Parser String := do
  if ← symbol ")" then return "()"
  else
    let list ← sized (tableArgumentsFrom g)
    expect ")"
    return "(" ++ commaList list ++ ")"

/-- What stands in place of a value that is missing or wrong. -/
def jsonFallback : Parser (Option String) :=
  firstOf (return none)
    [("NULL", do expectKeywords "ON"; return some "NULL"),
      ("ERROR", do expectKeywords "ON"; return some "ERROR"),
      ("DEFAULT", do
        let value ← literalText
        expectKeywords "ON"
        return some ("DEFAULT " ++ value))]

/-- What stands in place of values that are missing and of values that are wrong, the last of each
being the one that counts, as many as there is fuel for. -/
def jsonFallbacksFrom : Nat → Option String → Option String → Parser String
  | 0, _, _ => reject
  | fuel + 1, missing, wrong => do
    match ← jsonFallback with
    | none =>
      return optionalPart (missing.map (· ++ " ON EMPTY")) ++
        optionalPart (wrong.map (· ++ " ON ERROR"))
    | some value =>
      if (← expectOneOf ["EMPTY", "ERROR"]) = "EMPTY" then jsonFallbacksFrom fuel (some value) wrong
      else jsonFallbacksFrom fuel missing (some value)

/-- A column that is read from a document, with columns inside it as deep as there is fuel for. -/
def jsonColumnFrom (g : Grammar) : Nat → Parser String
  | 0 => reject
  | fuel + 1 => do
    if ← keywords "NESTED" then
      let _ ← keywords "PATH"
      let path ← literalText
      expectKeywords "COLUMNS"
      return "NESTED PATH " ++ path ++ " COLUMNS " ++ (← parens (items (jsonColumnFrom g fuel)))
    else
      let n ← nameText
      if ← keywords "FOR" then
        expectKeywords "ORDINALITY"
        return n ++ " FOR ORDINALITY"
      else
        let t ← typeText g
        let tested ← suffix "EXISTS"
        expectKeywords "PATH"
        let path ← literalText
        return n ++ " " ++ t ++ tested ++ " PATH " ++ path ++
          (← sized fun fuel => jsonFallbacksFrom fuel none none)

/-- A relation that is read from a document. -/
def jsonTable (g : Grammar) : Parser String := do
  let content ← parens do
    let document ← g.termText
    expect ","
    let path ← literalText
    expectKeywords "COLUMNS"
    return document ++ ", " ++ path ++ " COLUMNS" ++ (← parens (items (sized (jsonColumnFrom g))))
  return "JSON_TABLE" ++ content

/-! ### Rotations -/

/-- A call with its new name, if it has one. The name of its function loses its quotes. -/
def pivotCall (g : Grammar) : Parser String := do
  match ← next with
  | .word n _ => renamable (callOf g n.value)
  | _ => reject

/-- The values that become columns. -/
def pivotValues (g : Grammar) : Parser String := do
  let keyword ← peekKeyword
  if ← keywords "ANY" then return "ANY" ++ (← clause "ORDER BY" (orderKeys g))
  else if keyword = "SELECT" || keyword = "WITH" then g.queryText
  else items (renamable g.termText)

/-- Values of a column as columns of their own. -/
def pivot (g : Grammar) : Parser String := parens do
  let calls ← items (pivotCall g)
  expectKeywords "FOR"
  let column ← dottedText
  expectKeywords "IN"
  let values ← parens (pivotValues g)
  let fallback ← clause "DEFAULT ON NULL" (parens g.termText)
  return calls ++ " FOR " ++ column ++ " IN " ++ values ++ fallback

/-- Columns as values of one column. -/
def unpivot : Parser String := parens do
  let value ← nameText
  expectKeywords "FOR"
  let n ← nameText
  expectKeywords "IN"
  return value ++ " FOR " ++ n ++ " IN " ++ (← nameList)

/-- The rotations behind a relation, as many as there is fuel for. -/
def rotationsFrom (g : Grammar) : Nat → Relation → Parser Relation
  | 0, _ => reject
  | fuel + 1, r => do
    if ← keywords "PIVOT" then
      let content ← pivot g
      let text := r.text ++ " PIVOT" ++ content
      rotationsFrom g fuel ⟨.other text, ← tableAlias, ""⟩
    else if ← keywords "UNPIVOT" then
      let content ← unpivot
      let text := r.text ++ " UNPIVOT" ++ content
      rotationsFrom g fuel ⟨.other text, ← tableAlias, ""⟩
    else return r

/-- The rotations behind a relation. -/
def rotations (g : Grammar) (r : Relation) : Parser Relation :=
  sized fun fuel => rotationsFrom g fuel r

/-! ### Single relations -/

/-- A row of values in parentheses, and whether ROW stands before it. -/
def valuesRow (g : Grammar) : Parser (Bool × String) := do
  let explicit ← keywords "ROW"
  return (explicit, ← g.termList)

/-- Rows of values. If ROW stands before one of them it is written before all. -/
def valuesRows (g : Grammar) : Parser String := do
  let rows ← commaSeparated (valuesRow g)
  let start := if rows.any Prod.fst then "ROW" else ""
  return "VALUES " ++ commaList (rows.map fun (_, row) => start ++ row)

/-- A query behind the opening parenthesis, with the closing one and its new name. -/
def derived (g : Grammar) : Parser Relation := do
  let q ← g.queryText
  expect ")"
  return ⟨.other ("(" ++ q ++ ")"), ← tableAlias, ""⟩

/-- A LATERAL behind its keyword: a query or a call. -/
def lateral (g : Grammar) : Parser Relation := do
  if ← symbol "(" then
    let r ← derived g
    return { r with kind := .other ("LATERAL " ++ r.kind.text) }
  else
    let n ← dottedText
    expect "("
    let list ← itemsBefore ")" (argument g)
    expect ")"
    return ⟨.other ("LATERAL " ++ n ++ "(" ++ list ++ ")"), ← tableAlias, ""⟩

/-- The rows of arrays, behind UNNEST. A WITH behind them is taken in any case. -/
def unnest (g : Grammar) : Parser Relation := do
  let arrays ← g.termList
  let numbered ← suffix "WITH ORDINALITY"
  let newName ← tableAlias
  let offset ←
    if ← keywords "WITH OFFSET" then do
      let n ← alias? notColumnAliases
      pure (" WITH OFFSET" ++ match n with
        | some n => " AS " ++ n.text
        | none => "")
    else do
      let _ ← keywords "WITH"
      pure ""
  return ⟨.other ("UNNEST" ++ arrays ++ numbered), newName, offset⟩

/-- Hints for the reading of a table, with a blank before them. -/
def hints (g : Grammar) : Parser String := do
  if (← peekKeyword) = "WITH" && (← peekSecond) = some (.symbol "(") then
    clause "WITH" g.termList
  else return ""

/-- A table, or the result of a function. -/
def tableRelation (g : Grammar) : Parser Relation := do
  let n ← dottedNames
  let partitions ←
    if ← keywords "PARTITION" then do pure ("PARTITION " ++ (← nameList)) else pure ""
  let list ← if ← symbol "(" then tableArguments g else pure ""
  let numbered ← suffix "WITH ORDINALITY"
  let newName ← tableAlias
  let rest ← hints g
  let r ← rotations g ⟨.table n (partitions ++ list ++ numbered), newName, rest⟩
  if ← keywords "MATCH_RECOGNIZE" then
    let content ← parens (rowSearch g)
    return ⟨.other (r.text ++ " MATCH_RECOGNIZE" ++ content), ← tableAlias, ""⟩
  else return r

/-- What stands in parentheses in a FROM and is no query, given what is inside, with the closing
parenthesis. Parentheses around a single relation are dropped, and it may have its new name inside
or behind them. -/
def inParentheses (inner : FromItem) : Parser Relation := do
  expect ")"
  let newName ← tableAlias
  match inner with
  | ⟨⟨.nested text, innerName, rest⟩, []⟩ =>
    return ⟨.nested ("(" ++ (Relation.mk (.nested text) innerName rest).text ++ ")"), newName, ""⟩
  | ⟨r, []⟩ =>
    if newName.isNone then return r
    else if r.newName.isNone then return { r with newName }
    else reject
  | i => return ⟨.nested ("(" ++ i.text ++ ")"), newName, ""⟩

/-! ### Joins -/

/-- The kinds of join with their normal forms. -/
def joinKeywords : List (String × String) :=
  [("INNER JOIN", "JOIN"), ("JOIN", "JOIN"), ("LEFT OUTER JOIN", "LEFT JOIN"),
    ("LEFT SEMI JOIN", "LEFT SEMI JOIN"), ("LEFT ANTI JOIN", "LEFT ANTI JOIN"),
    ("LEFT JOIN", "LEFT JOIN"), ("RIGHT OUTER JOIN", "RIGHT JOIN"),
    ("RIGHT SEMI JOIN", "RIGHT SEMI JOIN"), ("RIGHT ANTI JOIN", "RIGHT ANTI JOIN"),
    ("RIGHT JOIN", "RIGHT JOIN"), ("FULL OUTER JOIN", "FULL JOIN"), ("FULL JOIN", "FULL JOIN")]

/-- Words that have to begin a kind of join. -/
def joinStarts : List String := ["INNER", "JOIN", "LEFT", "RIGHT", "FULL", "OUTER"]

/-- The condition of a join, with a blank before it. -/
def joinCondition (g : Grammar) (natural : Bool) : Parser String := do
  if natural then return ""
  else if ← keywords "ON" then return " ON " ++ (← g.termText)
  else if ← keywords "USING" then return " USING" ++ (← nameList)
  else return ""

/-- A join with a condition, if one stands here. -/
def conditionalJoin (g : Grammar) (relation : Parser Relation) : Parser (Option String) := do
  let natural ← keywords "NATURAL"
  match ← oneOf (joinKeywords.map Prod.fst) with
  | some keyword =>
    let r ← relation
    let how := (joinKeywords.lookup keyword).getD keyword
    let condition ← joinCondition g natural
    return some ((if natural then "NATURAL " else "") ++ how ++ " " ++ r.text ++ condition)
  | none =>
    if natural || joinStarts.contains (← peekKeyword) then reject else return none

/-- A join that looks for the nearest rows, behind its keywords. -/
def nearestJoin (g : Grammar) (relation : Parser Relation) : Parser String := do
  let r ← relation
  expectKeywords "MATCH_CONDITION"
  let condition ← parens g.termText
  return "ASOF JOIN " ++ r.text ++ " MATCH_CONDITION " ++ condition ++ (← joinCondition g false)

/-- A join, if one stands here. The word GLOBAL is taken in any case. -/
def join (g : Grammar) (relation : Parser Relation) : Parser (Option String) := do
  let start ← if ← keywords "GLOBAL" then pure "GLOBAL " else pure ""
  let crossed (keyword : String) : String × Parser (Option String) :=
    (keyword, do return some (keyword ++ " " ++ (← relation).text))
  let found ← firstOf
    (do
      if ["CROSS", "OUTER", "ASOF"].contains (← peekKeyword) then reject
      else conditionalJoin g relation)
    [crossed "CROSS JOIN", crossed "CROSS APPLY", crossed "OUTER APPLY",
      ("ASOF JOIN", do return some (← nearestJoin g relation))]
  return found.map (start ++ ·)

/-- A relation, read by a given parser, with its joins. -/
def fromItemOf (g : Grammar) (relation : Parser Relation) : Parser FromItem := do
  let r ← relation
  return ⟨r, ← repeated (join g relation)⟩

/-- A relation, with as many parentheses around it as there is fuel for. -/
def relationFrom (g : Grammar) : Nat → Parser Relation
  | 0 => reject
  | fuel + 1 => do
    if ← keywords "LATERAL" then lateral g
    else if ← keywords "TABLE" then
      let source ← parens g.termText
      return ⟨.other ("TABLE" ++ source), ← tableAlias, ""⟩
    else if ← symbol "(" then
      match ← attempt (derived g) with
      | some r => rotations g r
      | none => inParentheses (← fromItemOf g (relationFrom g fuel))
    else
      let keyword ← peekKeyword
      let opens := (← peekSecond) = some (.symbol "(")
      if keyword = "VALUES" && opens then
        skip 1
        let rows ← valuesRows g
        return ⟨.other ("(" ++ rows ++ ")"), ← tableAlias, ""⟩
      else if ← keywords "UNNEST" then unnest g
      else if keyword = "JSON_TABLE" && opens then
        skip 1
        let content ← jsonTable g
        return ⟨.other content, ← tableAlias, ""⟩
      else tableRelation g

/-- A relation. -/
def relation (g : Grammar) : Parser Relation := sized (relationFrom g)

/-- A relation with its joins. -/
def fromItem (g : Grammar) : Parser FromItem := fromItemOf g (relation g)

/-- A relation with its joins, as text. -/
def fromText (g : Grammar) : Parser String := do return (← fromItem g).text

end Parser

end TableQuery.Sql
