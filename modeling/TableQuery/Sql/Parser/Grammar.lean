import TableQuery.Sql.Parser.Literal

/-! # What nests

Terms, queries and statements stand inside each other. Their parsers are given as a record to the
parsers of everything else, which are then built without recursion through it. The documented
grammar is assumed to bound the depth of this nesting, not the length of a text. -/

namespace TableQuery.Sql

namespace Parser

/-- The parsers of what nests without bound, each to the depth that is left. -/
structure Grammar where
  /-- A term whose operators bind stronger than a strength. -/
  term : Nat → Parser Term
  query : Parser SelectQuery
  statement : Parser Statement

namespace Grammar

/-- A term of any strength, as text. -/
def termText (g : Grammar) : Parser String := do return (← g.term 0).text

/-- One or more terms with commas between them. -/
def terms (g : Grammar) : Parser String := items g.termText

/-- One or more terms in parentheses. -/
def termList (g : Grammar) : Parser String := parens g.terms

/-- A query, as text. -/
def queryText (g : Grammar) : Parser String := do return (← g.query).text

end Grammar

/-- An ORDER BY key: a term, a direction, the place of nulls and how gaps are filled. -/
def orderKey (g : Grammar) : Parser String := do
  let key ← g.termText
  let direction ← suffixOf ["ASC", "DESC"]
  let nulls ← suffixOf ["NULLS FIRST", "NULLS LAST"]
  let fill ←
    if ← keywords "WITH FILL" then
      let start ← clause "FROM" g.termText
      let stop ← clause "TO" g.termText
      let step ← clause "STEP" g.termText
      pure (" WITH FILL" ++ start ++ stop ++ step)
    else pure ""
  return key ++ direction ++ nulls ++ fill

/-- One or more ORDER BY keys. -/
def orderKeys (g : Grammar) : Parser String := items (orderKey g)

end Parser

end TableQuery.Sql
