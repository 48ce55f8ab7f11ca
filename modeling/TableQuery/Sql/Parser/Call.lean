import TableQuery.Sql.Parser.Interval

/-! # Parsing calls of functions

The arguments of a call with the clauses that can stand behind them, and the window over which a
call is made. -/

namespace TableQuery.Sql

namespace Parser

/-! ### Arguments -/

/-- The names behind a first one, each behind a point, and whether a star ends them, as many as
there is fuel for. -/
def pointedNamesFrom : Nat → Parser (List Name × Bool)
  | 0 => reject
  | fuel + 1 => do
    if ← symbol "." then
      if ← symbol "*" then return ([], true)
      else
        let n ← name
        let (r, starred) ← pointedNamesFrom fuel
        return (n :: r, starred)
    else return ([], false)

/-- A wildcard, a wildcard behind names, or a term. -/
def wildcardOrTerm (g : Grammar) : Parser SelectItem := do
  let start ← get
  let term : Parser SelectItem := do
    set start
    return .term (← g.term 0) none
  if ← symbol "*" then return .wildcard ""
  else
    match ← attempt name, ← peek with
    | some n, some (.symbol ".") =>
      match ← sized pointedNamesFrom with
      | (r, true) => return .qualifiedWildcard (n :: r) ""
      | (_, false) => term
    | _, _ => term

/-- An argument of a call, with or without its name. -/
def argument (g : Grammar) : Parser String := do
  match ← peekSecond with
  | some (.symbol "=>") =>
    let n ← nameText
    expect "=>"
    return n ++ " => " ++ (← wildcardOrTerm g).text
  | some (.symbol ":=") =>
    let n ← nameText
    expect ":="
    return n ++ " := " ++ (← g.termText)
  | _ => return (← wildcardOrTerm g).text

/-- What becomes of nulls among the values. -/
def nullTreatment : Parser String := suffixOf ["IGNORE NULLS", "RESPECT NULLS"]

/-- What happens when a concatenation gets too long. -/
def overflow (g : Grammar) : Parser String := do
  if ← keywords "ON OVERFLOW" then
    if ← keywords "ERROR" then return " ON OVERFLOW ERROR"
    else
      expectKeywords "TRUNCATE"
      let filler ←
        match ← peek with
        | some (.string (.bytes _) _) => reject
        | some (.string (.raw _ _) _) => reject
        | some (.string (.dollar _) _) => reject
        | some (.string _ _) => do pure (" " ++ (← g.termText))
        | _ => pure ""
      let counted ← expectOneOf ["WITH", "WITHOUT"]
      expectKeywords "COUNT"
      return " ON OVERFLOW TRUNCATE" ++ filler ++ " " ++ counted ++ " COUNT"
  else return ""

/-- The arguments of a call behind the opening parenthesis with the closing one, and whether they
say what becomes of nulls. -/
def arguments (g : Grammar) : Parser (String × Bool) := do
  if ← symbol ")" then return ("()", false)
  else
    let all ← keywords "ALL"
    let distinct ← keywords "DISTINCT"
    if all && distinct then reject
    else
      let quantifier := if all then "ALL " else if distinct then "DISTINCT " else ""
      let list ← items (argument g)
      let nulls ← nullTreatment
      let order ← clause "ORDER BY" (orderKeys g)
      let limit ← clause "LIMIT" g.termText
      let having ←
        if ← keywords "HAVING" then do
          let bound ← expectOneOf ["MIN", "MAX"]
          pure (" HAVING " ++ bound ++ " " ++ (← g.termText))
        else pure ""
      let separator ← clause "SEPARATOR" literalText
      let long ← overflow g
      expect ")"
      return ("(" ++ quantifier ++ list ++ nulls ++ order ++ limit ++ having ++ separator ++ long ++
        ")", !nulls.isEmpty)

/-! ### Windows -/

/-- A term with a collation, if one stands behind it. -/
def collated (t : Term) : Parser Term := do
  if ← keywords "COLLATE" then return .other (t.text ++ " COLLATE " ++ (← dottedText))
  else return t

/-- A bound of a window frame. A string is an interval of that length. -/
def frameBound (g : Grammar) : Parser String := do
  if ← keywords "CURRENT ROW" then return "CURRENT ROW"
  else
    let distance ←
      if ← keywords "UNBOUNDED" then pure "UNBOUNDED"
      else
        match ← peek with
        | some (.string .plain s) => do
          skip 1
          intervalBehind (← collated (.other (stringLiteral s))).text
        | _ => g.termText
    return distance ++ " " ++ (← expectOneOf ["PRECEDING", "FOLLOWING"])

/-- The frame of a window. -/
def windowFrame (g : Grammar) : Parser String := do
  let unit ← expectOneOf ["ROWS", "RANGE", "GROUPS"]
  if ← keywords "BETWEEN" then
    let start ← frameBound g
    expectKeywords "AND"
    return unit ++ " BETWEEN " ++ start ++ " AND " ++ (← frameBound g)
  else return unit ++ " " ++ (← frameBound g)

/-- A window behind the opening parenthesis with the closing one. -/
def windowContent (g : Grammar) : Parser String := do
  let base ←
    match ← peek with
    | some t => if isPlainWord t then do pure [← nameText] else pure []
    | none => pure []
  let partitions ← if ← keywords "PARTITION BY" then do pure ["PARTITION BY " ++ (← g.terms)]
    else pure []
  let order ← if ← keywords "ORDER BY" then do pure ["ORDER BY " ++ (← orderKeys g)] else pure []
  let frame ←
    if ← symbol ")" then pure []
    else do
      let frame ← windowFrame g
      expect ")"
      pure [frame]
  return "(" ++ " ".intercalate (base ++ partitions ++ order ++ frame) ++ ")"

/-- A window: what it consists of in parentheses, or its name. -/
def window (g : Grammar) : Parser String := do
  if ← symbol "(" then windowContent g else nameText

/-! ### Calls -/

/-- A call of a function whose name was read. Arguments in a second pair of parentheses are those
that the values are taken from. -/
def callOf (g : Grammar) (function : String) : Parser String := do
  expect "("
  let (first, firstNulls) ← arguments g
  let (list, nulls) ←
    if ← symbol "(" then do
      let (second, secondNulls) ← arguments g
      pure (first ++ second, secondNulls)
    else pure (first, firstNulls)
  let group ←
    if ← keywords "WITHIN GROUP" then do
      let order ← parens do
        expectKeywords "ORDER BY"
        return "ORDER BY " ++ (← orderKeys g)
      pure (" WITHIN GROUP " ++ order)
    else pure ""
  let treatment ← if nulls then pure "" else nullTreatment
  return function ++ list ++ group ++ treatment ++ (← clause "OVER" (window g))

end Parser

end TableQuery.Sql
