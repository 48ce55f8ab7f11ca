import TableQuery.Sql.Parser.Call
import TableQuery.Sql.Parser.ColumnType

/-! # Parsing operands

Terms without operators behind them: values, names, calls, and the forms that begin with a keyword
or a symbol of their own. A word that begins such a form is never a name. -/

namespace TableQuery.Sql

namespace Parser

/-! ### Strengths -/

/-- The strength of NOT before its operand. -/
def notStrength : Nat := 15

/-- The strength of a comparison. -/
def comparisonStrength : Nat := 20

/-- The strength of a sum. -/
def sumStrength : Nat := 30

/-- The strength of a product. -/
def productStrength : Nat := 40

/-! ### Forms with keywords -/

/-- The branches of a CASE behind their first WHEN, as many as there is fuel for. -/
def whenBranchesFrom (g : Grammar) : Nat → Parser String
  | 0 => reject
  | fuel + 1 => do
    let condition ← g.termText
    expectKeywords "THEN"
    let result ← g.termText
    let rest ← if ← keywords "WHEN" then whenBranchesFrom g fuel else pure ""
    return " WHEN " ++ condition ++ " THEN " ++ result ++ rest

/-- A CASE behind its keyword. -/
def caseForm (g : Grammar) : Parser String := do
  let subject ←
    if ← keywords "WHEN" then pure ""
    else do
      let t ← g.termText
      expectKeywords "WHEN"
      pure (" " ++ t)
  let branches ← sized (whenBranchesFrom g)
  let otherwise ← clause "ELSE" g.termText
  expectKeywords "END"
  return "CASE" ++ subject ++ branches ++ otherwise ++ " END"

/-- The argument of a CONVERT: a term and its type, or a term and its character set. -/
def conversion (g : Grammar) : Parser String := do
  let value ← g.termText
  if ← keywords "USING" then return value ++ " USING " ++ (← dottedText)
  else
    expect ","
    let t ← typeText g
    return value ++ ", " ++ t ++ (← clause "CHARACTER SET" dottedText)

/-- The argument of a CAST. -/
def castContent (g : Grammar) : Parser String := do
  let value ← g.termText
  expectKeywords "AS"
  let t ← typeText g
  let format ←
    if ← keywords "FORMAT" then do
      let format ← literalText
      pure (" FORMAT " ++ format ++ (← clause "AT TIME ZONE" literalText))
    else pure ""
  return value ++ " AS " ++ t ++ format

/-- The argument of an EXTRACT. -/
def extractContent (g : Grammar) : Parser String := do
  let field ← timeField
  if ← keywords "FROM" then return field ++ " FROM " ++ (← g.termText)
  else
    expect ","
    return field ++ ", " ++ (← g.termText)

/-- The argument of a CEIL or FLOOR, with the field or the scale to round to. -/
def roundingContent (g : Grammar) : Parser String := do
  let value ← g.termText
  if ← keywords "TO" then return value ++ " TO " ++ (← timeField)
  else if ← symbol "," then
    match ← literal with
    | .number digits long => return value ++ ", " ++ (Literal.number digits long).text
    | _ => reject
  else return value

/-- The arguments of a POSITION with IN. -/
def positionContent (g : Grammar) : Parser String := do
  let value ← g.term comparisonStrength
  expectKeywords "IN"
  return value.text ++ " IN " ++ (← g.termText)

/-- The arguments of a SUBSTRING. What stands before the first number decides how all are
written. -/
def substringContent (g : Grammar) : Parser String := do
  let value ← g.termText
  let commas ← symbol ","
  let start ←
    if commas then do pure (", " ++ (← g.termText))
    else clause "FROM" g.termText
  let length ←
    if (← keywords "FOR") || (← symbol ",") then do
      pure ((if commas then ", " else " FOR ") ++ (← g.termText))
    else pure ""
  return value ++ start ++ length

/-- The arguments of an OVERLAY. -/
def overlayContent (g : Grammar) : Parser String := do
  let value ← g.termText
  expectKeywords "PLACING"
  let what ← g.termText
  expectKeywords "FROM"
  let start ← g.termText
  return value ++ " PLACING " ++ what ++ " FROM " ++ start ++ (← clause "FOR" g.termText)

/-- The arguments of a TRIM. Characters behind a comma leave no place for a side. -/
def trimContent (g : Grammar) : Parser String := do
  let side ← match ← oneOf ["BOTH", "LEADING", "TRAILING"] with
    | some side => pure (side ++ " ")
    | none => pure ""
  let first ← g.termText
  if ← keywords "FROM" then return side ++ first ++ " FROM " ++ (← g.termText)
  else if ← symbol "," then return first ++ ", " ++ (← g.terms)
  else return side ++ first

/-- How a text is searched. -/
def searchModes : List String :=
  ["IN NATURAL LANGUAGE MODE WITH QUERY EXPANSION", "IN NATURAL LANGUAGE MODE", "IN BOOLEAN MODE",
    "WITH QUERY EXPANSION"]

/-- A MATCH behind its keyword. -/
def searchForm : Parser String := do
  let columns ← nameList
  expectKeywords "AGAINST"
  let value ← parens do
    let value ← literalText
    return value ++ (← suffixOf searchModes)
  return "MATCH " ++ columns ++ " AGAINST " ++ value

/-- A STRUCT behind its keyword. Fields with types have no names behind their values. -/
def recordForm (g : Grammar) : Parser String := do
  let (fields, taken) ← recordFields (sized (typeFrom g))
  if taken then reject
  else
    let value : Parser String := do
      let t ← g.termText
      if ← keywords "AS" then
        if fields.isSome then reject else return t ++ " AS " ++ (← nameText)
      else return t
    let values ← parens (items value)
    return "STRUCT" ++ (match fields with
      | some s => "<" ++ s ++ ">"
      | none => "") ++ values

/-- The entries of a map behind the opening brace, with the closing one. -/
def mapEntries (g : Grammar) : Parser String := do
  let entry : Parser String := do
    let key ← g.termText
    expect ":"
    return key ++ ": " ++ (← g.termText)
  let entries ← itemsBefore "\x7d" entry
  expect "\x7d"
  return "\x7b" ++ entries ++ "\x7d"

/-- The fields of a dictionary behind the opening brace, with the closing one. -/
def dictionaryFields (g : Grammar) : Parser String := do
  let field : Parser String := do
    let key ← nameText
    expect ":"
    return key ++ ": " ++ (← g.termText)
  let fields ← items field
  expect "\x7d"
  return "\x7b" ++ fields ++ "\x7d"

/-- The elements of an array behind the opening bracket, with the closing one. -/
def arrayElements (g : Grammar) : Parser String := do
  let elements ← itemsBefore "]" g.termText
  expect "]"
  return "[" ++ elements ++ "]"

/-! ### Names and calls -/

/-- A column, a call of a function, or a string behind its character set. The first word was
read. -/
def nameForm (g : Grammar) (first : Name) : Parser Term := do
  match ← peek with
  | some (.symbol ".") =>
    match ← sized pointedNamesFrom with
    | (_, true) => reject
    | (r, false) =>
      if (← peek) = some (.symbol "(") then return .other (← callOf g (dotted (first :: r)))
      else return .name (first :: r)
  | some (.symbol "(") => return .other (← callOf g first.text)
  | some (.string form content) =>
    if first.value.startsWith "_" && (form == .plain || form == .hexadecimal) then
      skip 1
      return .other (first.value ++ " " ++ form.literal content)
    else return .name [first]
  | _ => return .name [first]

/-- The forms that begin with a keyword, with the parsers of what stands behind it, apart from those
that depend on the tokens behind the keyword. -/
def keywordForms (g : Grammar) : List (String × Parser String) :=
  let call (keyword : String) (content : Parser String) : String × Parser String :=
    (keyword, do return keyword ++ (← parens content))
  [("TRUE", return "true"), ("FALSE", return "false"), ("NULL", return "NULL"),
    ("CASE", caseForm g), call "CONVERT" (conversion g), call "TRY_CONVERT" (conversion g),
    call "CAST" (castContent g), call "TRY_CAST" (castContent g), call "SAFE_CAST" (castContent g),
    ("EXISTS", do return "EXISTS " ++ (← parens g.queryText)),
    call "EXTRACT" (extractContent g), call "CEIL" (roundingContent g),
    call "FLOOR" (roundingContent g), call "SUBSTRING" (substringContent g),
    call "OVERLAY" (overlayContent g), call "TRIM" (trimContent g),
    ("NOT EXISTS", do return "NOT EXISTS " ++ (← parens g.queryText)),
    ("NOT", do return "NOT " ++ (← g.term notStrength).text),
    ("MATCH", searchForm), ("STRUCT", recordForm g)]

/-- Words that are values by themselves. -/
def valueWords : List String := ["CURRENT_CATALOG", "CURRENT_USER", "SESSION_USER", "USER"]

/-- Words that are values by themselves or calls. -/
def timeWords : List String :=
  ["CURRENT_TIMESTAMP", "CURRENT_TIME", "CURRENT_DATE", "LOCALTIME", "LOCALTIMESTAMP"]

/-- A form whose keyword makes it one only before certain tokens, if it stands here behind the
keyword. -/
def followedForm (g : Grammar) (word : Name) (keyword : String) : Parser (Option String) := do
  let follower ← peek
  match keyword with
  | "POSITION" =>
    if follower = some (.symbol "(") then
      match ← attempt (parens (positionContent g)) with
      | some content => return some ("POSITION" ++ content)
      | none => return some (← callOf g word.text)
    else return none
  | "ARRAY" =>
    if ← symbol "[" then return some ("ARRAY" ++ (← arrayElements g))
    else if follower = some (.symbol "(") then return some (word.text ++ (← parens g.queryText))
    else return none
  | "MAP" => if ← symbol "\x7b" then return some ("MAP " ++ (← mapEntries g)) else return none
  | "PRIOR" =>
    if (← get).inHierarchy then return some ("PRIOR " ++ (← g.term sumStrength).text)
    else return none
  | _ =>
    if valueWords.contains keyword then return some word.text
    else if timeWords.contains keyword then
      if ← symbol "(" then return some (word.text ++ (← arguments g).1) else return some word.text
    else return none

/-- A form that begins with a word. -/
def wordForm (g : Grammar) : Parser Term :=
  firstOf
    (do
      match ← next with
      | .word n keyword =>
        match ← followedForm g n keyword with
        | some text => return .other text
        | none => nameForm g n
      | _ => reject)
    ((keywordForms g).map fun (keyword, p) => (keyword, do return .other (← p)))

/-! ### Forms with symbols -/

/-- What stands in parentheses behind the opening one, with the closing one and the name of a field
that is picked from it. -/
def parenthesesForm (g : Grammar) : Parser Term := do
  let keyword ← peekKeyword
  let inner ←
    if keyword = "SELECT" || keyword = "WITH" then do pure (Term.subquery (← g.queryText))
    else do pure (.other ("(" ++ (← g.terms) ++ ")"))
  expect ")"
  if ← symbol "." then
    match ← next with
    | .word n _ => return .other (inner.text ++ "." ++ n.text)
    | _ => reject
  else return inner

/-- A form that begins with no word. -/
def symbolForm (g : Grammar) : Parser Term := do
  if ← symbol "[" then return .other (← arrayElements g)
  else if ← symbol "-" then return .other ("-" ++ (← g.term productStrength).text)
  else if ← symbol "+" then return .other ("+" ++ (← g.term productStrength).text)
  else if ← symbol "(" then parenthesesForm g
  else if ← symbol "\x7b" then return .other (← dictionaryFields g)
  else return (← literal).term

/-- A string behind the name of its type, or an interval, whose value is read by the given
parser. -/
def typedForm (g : Grammar) (value : Parser Term) : Parser Term := do
  let t ← columnType g
  match t.form with
  | .interval => return .other (← intervalBehind (← value).text)
  | .known => return .other (t.text ++ " " ++ stringLiteral (← literalString))
  | .custom _ => reject

/-- An operand, with as many intervals inside each other as there is fuel for. -/
def operandFrom (g : Grammar) : Nat → Parser Term
  | 0 => reject
  | fuel + 1 => do
    match ← attempt (typedForm g (operandFrom g fuel)) with
    | some t => return t
    | none =>
      let t ←
        match ← peek with
        | some (.word _ _) =>
          if ← keywords "INTERVAL" then do
            pure (.other (← intervalBehind (← operandFrom g fuel).text))
          else wordForm g
        | _ => symbolForm g
      collated t

/-- An operand. -/
def operand (g : Grammar) : Parser Term := sized (operandFrom g)

end Parser

end TableQuery.Sql
