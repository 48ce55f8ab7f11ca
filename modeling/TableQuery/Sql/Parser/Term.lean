import TableQuery.Sql.Parser.Operand

/-! # Parsing terms

Operators bind by their strength, which decides where a term ends, not how it is written: a chain
of operators is a chain of words in the normal form too. An operator that a strength is known for
can still be one that terms do not have.

Assumed are the documented strengths of the operators, from OR as the weakest to casts and
subscripts, operators of one strength being taken from the left. -/

namespace TableQuery.Sql

namespace Parser

/-! ### Strengths of operators -/

/-- The strength of LIKE and of the other patterns. -/
def patternStrength : Nat := 19

/-- The strengths of operators that are symbols. -/
def symbolStrengths : List (Nat × List String) :=
  [(50, ["::", "!", "[", "&&", "^@"]),
    (productStrength, ["*", "/", "%", "//", "||"]),
    (sumStrength, ["+", "-"]),
    (23, ["&"]),
    (22, ["^", "#", "<<", ">>"]),
    (21, ["|"]),
    (comparisonStrength,
      ["=", "==", "<>", "!=", "<", "<=", ">", ">=", "<=>", "~", "~*", "!~", "!~*", "~~", "~~*",
        "!~~", "!~~*"]),
    (16, ["->", "->>", "#>", "#>>", "@>", "<@", "#-", "@?", "@@"])]

/-- The strengths of operators that are words. -/
def wordStrengths : List (Nat × List String) :=
  [(41, ["AT TIME ZONE"]),
    (productStrength, ["DIV"]),
    (24, ["XOR"]),
    (comparisonStrength, ["IN", "BETWEEN", "NOT IN", "NOT BETWEEN", "OPERATOR"]),
    (patternStrength,
      ["LIKE", "ILIKE", "SIMILAR", "RLIKE", "REGEXP", "NOT LIKE", "NOT ILIKE", "NOT SIMILAR",
        "NOT RLIKE", "NOT REGEXP"]),
    (17, ["IS"]),
    (10, ["AND"]),
    (5, ["OR"])]

/-- The strength of the operator that stands here, zero if there is none. -/
def operatorStrength (ts : List Token) : Nat :=
  match ts with
  | [] => 0
  | .symbol s :: _ =>
    match symbolStrengths.find? fun (_, ss) => ss.contains s with
    | some (strength, _) => strength
    | none => 0
  | ts =>
    let stands (ws : String) : Bool := startsWith (phrase ws) ts
    match wordStrengths.find? fun (_, phrases) => phrases.any stands with
    | some (strength, _) => strength
    | none => 0

/-! ### Operators between two terms -/

/-- The operators between two terms that are symbols. Not every operator with a strength is one. -/
def binarySymbols : List String :=
  ["^@", "*", "/", "%", "//", "||", "+", "-", "&", "^", "<<", ">>", "|", "=", "==", "<>", "!=", "<",
    "<=", ">", ">=", "<=>", "~", "~*", "!~", "!~*", "~~", "~~*", "!~~", "!~~*", "->", "->>", "#>",
    "#>>", "@>", "<@", "#-", "@?", "@@"]

/-- The normal form of an operator. -/
def normalOperator (s : String) : String :=
  if s = "==" then "=" else if s = "!=" then "<>" else s

/-- The operators that can compare with all or some of several values, in their normal form. -/
def quantifiedOperators : List String := ["=", "<>", "<", "<=", ">", ">="]

/-- The tokens of a qualified operator, with points between them, as many as there is fuel for. -/
def operatorPartsFrom : Nat → Parser String
  | 0 => reject
  | fuel + 1 => do
    let t ← next
    if ← symbol "." then return t.text ++ "." ++ (← operatorPartsFrom fuel) else return t.text

/-- An operator between two terms in its normal form, if one stands here. -/
def binaryOperator : Parser (Option String) := do
  match ← peek with
  | some (.symbol s) =>
    if binarySymbols.contains s then
      skip 1
      return some (normalOperator s)
    else return none
  | _ =>
    firstOf (return none)
      [("AND", return some "AND"), ("OR", return some "OR"), ("XOR", return some "XOR"),
        ("OPERATOR", do return some ("OPERATOR" ++ (← parens (sized operatorPartsFrom))))]

/-- The right side of an operator with ANY, ALL or SOME, whose parenthesis comes next. A query
stands in one pair of parentheses. -/
def quantifiedRight (g : Grammar) (strength : Nat) : Parser String := do
  let i ← get
  expect "("
  let keyword ← peekKeyword
  if keyword = "SELECT" || keyword = "WITH" then
    set i
    match ← g.term strength with
    | .subquery query => return "(" ++ query ++ ")"
    | t => return "(" ++ t.text ++ ")"
  else
    let t ← g.term strength
    expect ")"
    match t with
    | .subquery query => return "(" ++ query ++ ")"
    | t => return "(" ++ t.text ++ ")"

/-- The operator and the right side of a term, the operator having been read. -/
def binaryRight (g : Grammar) (strength : Nat) (operator : String) : Parser String := do
  match ← oneOf ["ANY", "ALL", "SOME"] with
  | some quantifier =>
    let right ← quantifiedRight g strength
    if quantifiedOperators.contains operator then
      return " " ++ operator ++ " " ++ quantifier ++ right
    else reject
  | none => return " " ++ operator ++ " " ++ (← g.term strength).text

/-! ### Tests -/

/-- What may follow IS and ends there. -/
def isTests : List String :=
  ["NULL", "NOT NULL", "TRUE", "NOT TRUE", "FALSE", "NOT FALSE", "UNKNOWN", "NOT UNKNOWN"]

/-- A test behind IS. -/
def isTest (g : Grammar) : Parser String := do
  match ← oneOf isTests with
  | some test => return " IS " ++ test
  | none =>
    let test ← expectOneOf ["DISTINCT FROM", "NOT DISTINCT FROM"]
    return " IS " ++ test ++ " " ++ (← g.termText)

/-- What a value is looked for in, behind IN. -/
def membership (g : Grammar) : Parser String := do
  if ← keywords "UNNEST" then return " IN UNNEST" ++ (← parens g.termText)
  else
    return " IN " ++ (← parens do
      let keyword ← peekKeyword
      if keyword = "SELECT" || keyword = "WITH" then g.queryText else g.terms)

/-- A pattern with its escape character, which is not escaped itself. -/
def patternText (g : Grammar) : Parser String := do
  let pattern ← g.term patternStrength
  if ← keywords "ESCAPE" then return pattern.text ++ " ESCAPE '" ++ (← literalString) ++ "'"
  else return pattern.text

/-- A test that NOT can stand before. -/
def negatableTest (g : Grammar) : Parser String := do
  let negated ← suffix "NOT"
  let like (keyword : String) : Parser String := do
    let some ← suffix "ANY"
    return negated ++ " " ++ keyword ++ some ++ " " ++ (← patternText g)
  let matching (keyword : String) : Parser String := do
    return negated ++ " " ++ keyword ++ " " ++ (← g.term patternStrength).text
  firstOf reject
    [("REGEXP RLIKE", matching "REGEXP"), ("REGEXP", matching "REGEXP"),
      ("RLIKE", matching "RLIKE"), ("IN", do return negated ++ (← membership g)),
      ("BETWEEN", do
        let low ← g.term comparisonStrength
        expectKeywords "AND"
        let high ← g.term comparisonStrength
        return negated ++ " BETWEEN " ++ low.text ++ " AND " ++ high.text),
      ("LIKE", like "LIKE"), ("ILIKE", like "ILIKE"),
      ("SIMILAR TO", do return negated ++ " SIMILAR TO " ++ (← patternText g))]

/-! ### Elements -/

/-- A bound of a range of elements, if the bracket does not close here. -/
def optionalBound (g : Grammar) : Parser (Option String) := do
  if (← peek) = some (.symbol "]") then return none else return some (← g.termText)

/-- A range of elements behind its first colon with the closing bracket. -/
def elementRange (g : Grammar) : Parser String := do
  let high ← optionalBound g
  let step ←
    if high.isSome && (← symbol ":") then do pure ((← optionalBound g).map (":" ++ ·))
    else pure none
  expect "]"
  return ":" ++ high.getD "" ++ step.getD "" ++ "]"

/-- The elements of an array that are picked, behind the opening bracket, with the closing one: one
element, or a range with an optional step. -/
def elements (g : Grammar) : Parser String := do
  if ← symbol ":" then return "[" ++ (← elementRange g)
  else
    let low ← g.termText
    if ← symbol "]" then return "[" ++ low ++ "]"
    else
      expect ":"
      return "[" ++ low ++ (← elementRange g)

/-! ### Terms -/

/-- An operator of the given strength behind a term, with its right side. -/
def operation (g : Grammar) (strength : Nat) : Parser String := do
  match ← binaryOperator with
  | some operator => binaryRight g strength operator
  | none =>
    if ← symbol "::" then return "::" ++ (← typeText g)
    else if ← symbol "!" then return "!"
    else if ← symbol "[" then elements g
    else if ← keywords "IS" then isTest g
    else if ← keywords "AT TIME ZONE" then return " AT TIME ZONE " ++ (← g.term strength).text
    else negatableTest g

/-- The operators behind a term that bind stronger than a strength, as many as there is fuel
for. -/
def operationsFrom (g : Grammar) (strength : Nat) : Nat → Term → Parser Term
  | 0, _ => reject
  | fuel + 1, left => do
    let found := operatorStrength (← get).tokens
    if found ≤ strength then return left
    else operationsFrom g strength fuel (.other (left.text ++ (← operation g found)))

/-- A term whose operators bind stronger than a strength; what nests in it is parsed by the given
parsers. -/
def termIn (g : Grammar) (strength : Nat) : Parser Term := do
  let left ← operand g
  sized fun fuel => operationsFrom g strength fuel left

end Parser

end TableQuery.Sql
