import TableQuery.Sql.Parser.Call

/-! # Parsing the items of a SELECT

Terms with their new names, and wildcards with what is picked from them or changed in them. -/

namespace TableQuery.Sql

namespace Parser

/-- A name, or several in parentheses. -/
def namesOrOne : Parser String := do
  if (← peek) = some (.symbol "(") then nameList else nameText

/-- A new name for a column. -/
def renamed : Parser String := do
  let old ← nameText
  expectKeywords "AS"
  return old ++ " AS " ++ (← nameText)

/-- A term in the place of a column. -/
def replacement (g : Grammar) : Parser String := do
  let value ← g.termText
  let word ← suffix "AS"
  return value ++ word ++ " " ++ (← nameText)

/-- What is picked from a wildcard or changed in it, with a blank before each part. -/
def wildcardOptions (g : Grammar) : Parser String := do
  let like ←
    if ← keywords "ILIKE" then do
      match ← next with
      | .string .plain s => pure (" ILIKE " ++ stringLiteral s)
      | _ => reject
    else pure ""
  let excluded ← if like.isEmpty then clause "EXCLUDE" namesOrOne else pure ""
  let excepted ←
    if ← keywords "EXCEPT" then do
      if (← peek) = some (.symbol "(") then pure (" EXCEPT " ++ (← nameList))
      else pure (" EXCEPT (" ++ (← nameText) ++ ")")
    else pure ""
  let replaced ← clause "REPLACE" (parens (items (replacement g)))
  let names ← clause "RENAME" do
    if (← peek) = some (.symbol "(") then parens (items renamed) else renamed
  return like ++ excluded ++ excepted ++ replaced ++ names

/-- An item of a SELECT. A bare FROM is no column. -/
def selectItem (g : Grammar) : Parser SelectItem := do
  match ← wildcardOrTerm g with
  | .wildcard _ => return .wildcard (← wildcardOptions g)
  | .qualifiedWildcard parts _ => return .qualifiedWildcard parts (← wildcardOptions g)
  | .term (.name [⟨w, none⟩]) _ =>
    if w.map Char.toUpper = "FROM" then reject
    else return .term (.name [⟨w, none⟩]) (← alias? notColumnAliases)
  | .term t _ => return .term t (← alias? notColumnAliases)

/-- The items that a statement gives back, with a blank before them. -/
def returningClause (g : Grammar) : Parser String :=
  clause "RETURNING" (items do return (← selectItem g).text)

end Parser

end TableQuery.Sql
