import TableQuery.Sql.Parser.Grammar

/-! # Parsing patterns of rows

The patterns that MATCH_RECOGNIZE looks for in a relation: symbols one after another, alternatives,
repetitions and groups. -/

namespace TableQuery.Sql

namespace Parser

/-- How often a part of a pattern is repeated, behind an opening brace, with the closing one. -/
def repetitionRange : Parser String := do
  let range ←
    if ← symbol "," then do pure ("," ++ (← shortCount))
    else do
      let low ← shortCount
      if ← symbol "," then
        if (← peek) = some (.symbol "\x7d") then pure (low ++ ",")
        else do pure (low ++ "," ++ (← shortCount))
      else pure low
  expect "\x7d"
  return "\x7b" ++ range ++ "\x7d"

/-- How often a part of a pattern is repeated, if it is said here. -/
def repetition : Parser (Option String) := do
  match ← peek with
  | some (.placeholder "?") => skip 1; return some "?"
  | _ =>
    if ← symbol "*" then return some "*"
    else if ← symbol "+" then return some "+"
    else if ← symbol "\x7b" then return some (← repetitionRange)
    else return none

/-- A part of a pattern without repetition; groups are read by the given parser. -/
def patternPart (group : Parser String) : Parser String := do
  match ← peek with
  | some (.placeholder "$") => skip 1; return "$"
  | some (.word ⟨"PERMUTE", none⟩ _) => skip 1; return "PERMUTE" ++ (← nameList)
  | _ =>
    if ← symbol "^" then return "^"
    else if ← symbol "\x7b" then
      expect "-"
      let n ← nameText
      expect "-"
      expect "\x7d"
      return "\x7b- " ++ n ++ " -\x7d"
    else if ← symbol "(" then
      let inner ← group
      expect ")"
      return "( " ++ inner ++ " )"
    else nameText

/-- The rest of a sequence of parts, as long as neither an alternative nor a closing parenthesis
comes, as many as there is fuel for. -/
def patternPartsFrom (group : Parser String) : Nat → Parser (List String)
  | 0 => reject
  | fuel + 1 => do
    let part ← patternPart group
    let times ← repeated repetition
    let text := part ++ String.join times
    let t ← peek
    if t = some (.symbol ")") || t = some (.symbol "|") then return [text]
    else return text :: (← patternPartsFrom group fuel)

/-- Alternatives of sequences of parts, nested as deep as there is fuel for. -/
def rowPatternFrom : Nat → Parser String
  | 0 => reject
  | fuel + 1 => do
    let parts ← sized (patternPartsFrom (rowPatternFrom fuel))
    let first := " ".intercalate parts
    if ← symbol "|" then return first ++ " | " ++ (← rowPatternFrom fuel) else return first

/-- A pattern of rows. -/
def rowPattern : Parser String := sized rowPatternFrom

/-- What rows come out of a match. -/
def matchedRows : List String :=
  ["ONE ROW PER MATCH", "ALL ROWS PER MATCH SHOW EMPTY MATCHES",
    "ALL ROWS PER MATCH OMIT EMPTY MATCHES", "ALL ROWS PER MATCH WITH UNMATCHED ROWS",
    "ALL ROWS PER MATCH"]

/-- Where the search goes on behind a match, with a blank at the end. The next row has one blank
more before it. -/
def nextSearch : Parser String :=
  firstOf (do if ← keywords "AFTER MATCH SKIP" then reject else return "")
    [("AFTER MATCH SKIP PAST LAST ROW", return "AFTER MATCH SKIP PAST LAST ROW "),
      ("AFTER MATCH SKIP TO NEXT ROW", return "AFTER MATCH SKIP  TO NEXT ROW "),
      ("AFTER MATCH SKIP TO FIRST", do return "AFTER MATCH SKIP TO FIRST " ++ (← nameText) ++ " "),
      ("AFTER MATCH SKIP TO LAST", do return "AFTER MATCH SKIP TO LAST " ++ (← nameText) ++ " ")]

/-- A value that is computed from a match. -/
def measure (g : Grammar) : Parser String := do
  let value ← g.termText
  let _ ← keywords "AS"
  return value ++ " AS " ++ (← nameText)

/-- A symbol with the condition that its rows meet. -/
def patternSymbol (g : Grammar) : Parser String := do
  let n ← nameText
  expectKeywords "AS"
  return n ++ " AS " ++ (← g.termText)

/-- A part that begins with words, with a blank behind it, if it stands here. -/
def leading (ws : String) (p : Parser String) : Parser String := do
  if ← keywords ws then return ws ++ " " ++ (← p) ++ " " else return ""

/-- What stands in the parentheses behind MATCH_RECOGNIZE. -/
def rowSearch (g : Grammar) : Parser String := do
  let partitions ← leading "PARTITION BY" g.terms
  let order ← leading "ORDER BY" (orderKeys g)
  let measures ← leading "MEASURES" (items (measure g))
  let rows ← match ← oneOf matchedRows with
    | some rows => pure (rows ++ " ")
    | none => pure ""
  let skipping ← nextSearch
  expectKeywords "PATTERN"
  let pattern ← parens rowPattern
  expectKeywords "DEFINE"
  let symbols ← items (patternSymbol g)
  return partitions ++ order ++ measures ++ rows ++ skipping ++ "PATTERN " ++ pattern ++
    " DEFINE " ++ symbols

end Parser

end TableQuery.Sql
