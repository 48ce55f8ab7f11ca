import TableQuery.Sql.Parser.Grammar

/-! # Parsing parts of times

The fields of dates and times, and what stands behind the value of an INTERVAL: assumed are the
units that the grammar documents, with the precisions that some of them take. -/

namespace TableQuery.Sql

namespace Parser

/-- The units that can stand behind the value of an interval. -/
def intervalUnits : List String :=
  ["YEAR", "MONTH", "WEEK", "DAY", "HOUR", "MINUTE", "SECOND", "CENTURY", "DECADE", "DOW", "DOY",
    "EPOCH", "ISODOW", "ISOYEAR", "JULIAN", "MICROSECOND", "MICROSECONDS", "MILLENIUM",
    "MILLENNIUM", "MILLISECOND", "MILLISECONDS", "NANOSECOND", "NANOSECONDS", "QUARTER", "TIMEZONE",
    "TIMEZONE_HOUR", "TIMEZONE_MINUTE"]

/-- The fields of dates and times that are known by name. -/
def timeFields : List String :=
  intervalUnits ++ ["DAYOFWEEK", "DAYOFYEAR", "DATE", "DATETIME", "ISOWEEK", "TIME",
    "TIMEZONE_ABBR", "TIMEZONE_REGION"]

/-- A field of a date or time: a known one, a week that begins on a given day, or any name. -/
def timeField : Parser String := do
  match ← oneOf timeFields with
  | some "WEEK" =>
    if (← peek) = some (.symbol "(") then return "WEEK" ++ (← parens nameText) else return "WEEK"
  | some field => return field
  | none => nameText

/-- A count in parentheses with a blank before it, if there is one. -/
def precision : Parser String := do
  if (← peek) = some (.symbol "(") then return " " ++ (← parens count) else return ""

/-- The precision of seconds with that of their fractions. -/
def secondsPrecision : Parser String := do
  if (← peek) = some (.symbol "(") then
    return " " ++ (← parens do
      let n ← count
      if ← symbol "," then return n ++ ", " ++ (← count) else return n)
  else return ""

/-- An interval whose value was read: its unit with a precision, and the last unit. -/
def intervalBehind (value : String) : Parser String := do
  let unit ← if intervalUnits.contains (← peekKeyword) then do pure (some (← timeField))
    else pure none
  let start := "INTERVAL " ++ value ++ optionalPart unit
  if unit = some "SECOND" then return start ++ (← secondsPrecision)
  else
    let first ← precision
    if ← keywords "TO" then
      let last ← timeField
      let fraction ← if last = "SECOND" then precision else pure ""
      return start ++ first ++ " TO " ++ last ++ fraction
    else return start ++ first

end Parser

end TableQuery.Sql
