import TableQuery.Sql.Parser.ColumnOption

/-! # Parsing column types

The types of casts, of typed strings and of the columns of a new table. Known names are written in
their normal form; any other name is the name of a type as well. Types in angle brackets may close
two levels at once, since two closing brackets are one token. Assumed are the names of types that
the grammar documents, many for one type, and the form that each of them keeps. -/

namespace TableQuery.Sql

/-- What kind of type a text names. -/
inductive TypeForm where
  | known
  | interval
  /-- A type by a name that is not known, of which the first part is given. -/
  | custom (first : Name)

/-- A column type as it is written. -/
structure ColumnType where
  text : String
  form : TypeForm

/-- What may stand behind the name of a type. -/
inductive TypeParameters where
  | none
  /-- A count in parentheses. -/
  | length
  /-- A count in parentheses and UNSIGNED. -/
  | width
  /-- A number of characters or bytes in parentheses. -/
  | characters
  /-- A precision and a scale in parentheses. -/
  | exact
  /-- A count in parentheses and whether there is a time zone. -/
  | zone
  /-- Strings in parentheses, which have to stand there. -/
  | strings
  /-- A count in parentheses, which has to stand there. -/
  | size
  /-- A count and a time zone in parentheses, which have to stand there. -/
  | sizeAndZone

namespace Parser

/-- The types that have names of their own and no types inside, with their normal forms. Longer
names come before those that begin them. -/
def plainTypes : List (String × String × TypeParameters) :=
  [("BOOLEAN", "BOOLEAN", .none), ("BOOL", "BOOL", .none), ("FLOAT", "FLOAT", .length),
    ("REAL", "REAL", .none), ("FLOAT4", "FLOAT4", .none), ("FLOAT32", "Float32", .none),
    ("FLOAT64", "FLOAT64", .none), ("FLOAT8", "FLOAT8", .none),
    ("DOUBLE PRECISION", "DOUBLE PRECISION", .none), ("DOUBLE", "DOUBLE", .none),
    ("TINYINT", "TINYINT", .width), ("INT2", "INT2", .width), ("SMALLINT", "SMALLINT", .width),
    ("MEDIUMINT", "MEDIUMINT", .width), ("INT", "INT", .width), ("INT4", "INT4", .width),
    ("INT8", "INT8", .width), ("INTEGER", "INTEGER", .width), ("BIGINT", "BIGINT", .width),
    ("INT16", "Int16", .none), ("INT32", "Int32", .none), ("INT64", "INT64", .none),
    ("INT128", "Int128", .none), ("INT256", "Int256", .none), ("UINT8", "UInt8", .none),
    ("UINT16", "UInt16", .none), ("UINT32", "UInt32", .none), ("UINT64", "UInt64", .none),
    ("UINT128", "UInt128", .none), ("UINT256", "UInt256", .none),
    ("VARCHAR", "VARCHAR", .characters), ("NVARCHAR", "NVARCHAR", .characters),
    ("CHARACTER VARYING", "CHARACTER VARYING", .characters),
    ("CHARACTER LARGE OBJECT", "CHARACTER LARGE OBJECT", .length),
    ("CHARACTER", "CHARACTER", .characters), ("CHAR VARYING", "CHAR VARYING", .characters),
    ("CHAR LARGE OBJECT", "CHAR LARGE OBJECT", .length), ("CHAR", "CHAR", .characters),
    ("CLOB", "CLOB", .length), ("BINARY", "BINARY", .length), ("VARBINARY", "VARBINARY", .length),
    ("BLOB", "BLOB", .length), ("BYTES", "BYTES", .length), ("UUID", "UUID", .none),
    ("DATE", "DATE", .none), ("DATE32", "Date32", .none), ("DATETIME", "DATETIME", .length),
    ("DATETIME64", "DateTime64", .sizeAndZone), ("TIMESTAMP", "TIMESTAMP", .zone),
    ("TIMESTAMPTZ", "TIMESTAMPTZ", .length), ("TIME", "TIME", .zone), ("TIMETZ", "TIMETZ", .length),
    ("JSON", "JSON", .none), ("JSONB", "JSONB", .none), ("REGCLASS", "REGCLASS", .none),
    ("STRING", "STRING", .length), ("FIXEDSTRING", "FixedString", .size), ("TEXT", "TEXT", .none),
    ("BYTEA", "BYTEA", .none), ("NUMERIC", "NUMERIC", .exact), ("DECIMAL", "DECIMAL", .exact),
    ("DEC", "DEC", .exact), ("BIGNUMERIC", "BIGNUMERIC", .exact),
    ("BIGDECIMAL", "BIGDECIMAL", .exact), ("ENUM", "ENUM", .strings), ("SET", "SET", .strings),
    ("TRIGGER", "TRIGGER", .none)]

/-- A precision with an optional scale, the comma without a blank. -/
def exactSize : Parser String := do
  let precision ← count
  if ← symbol "," then return precision ++ "," ++ (← count) else return precision

/-- A number of characters or bytes. -/
def characterCount : Parser String := do
  if ← keywords "MAX" then return "MAX"
  else
    let n ← count
    return n ++ (← suffixOf ["CHARACTERS", "OCTETS"])

/-- Something in parentheses, if a parenthesis opens here. -/
def optionalParens (p : Parser String) : Parser String := do
  if (← peek) = some (.symbol "(") then parens p else return ""

/-- A plain string, as it is written. -/
def plainString : Parser String := do
  match ← next with
  | .string .plain s => return stringLiteral s
  | _ => reject

/-- What stands behind the name of a type. -/
def typeParameters : TypeParameters → Parser String
  | .none => return ""
  | .length => optionalParens count
  | .width => do
    let n ← optionalParens count
    return n ++ (← suffix "UNSIGNED")
  | .characters => optionalParens characterCount
  | .exact => optionalParens exactSize
  | .zone => do
    let n ← optionalParens count
    if ← keywords "WITH" then
      expectKeywords "TIME ZONE"
      return n ++ " WITH TIME ZONE"
    else if ← keywords "WITHOUT" then
      expectKeywords "TIME ZONE"
      return n ++ " WITHOUT TIME ZONE"
    else return n
  | .strings => parens (items plainString)
  | .size => parens count
  | .sizeAndZone => parens do
    let n ← count
    if ← symbol "," then return n ++ ", '" ++ (← literalString) ++ "'" else return n

/-- The pairs of brackets behind a type, one for each level of lists, with optional sizes. -/
def bracketsFrom : Nat → Parser String
  | 0 => reject
  | fuel + 1 => do
    if ← symbol "[" then
      let size ← attempt count
      expect "]"
      return "[" ++ size.getD "" ++ "]" ++ (← bracketsFrom fuel)
    else return ""

/-- The parameters of a type by an unknown name, up to the closing parenthesis. Commas between them
may be left out. -/
def modifiersFrom : Nat → Parser (List String)
  | 0 => reject
  | fuel + 1 => do
    match ← next with
    | .word n k => return (Token.word n k).text :: (← modifiersFrom fuel)
    | .number digits _ => return digits :: (← modifiersFrom fuel)
    | .string .plain s => return s :: (← modifiersFrom fuel)
    | .symbol s =>
      if s = "," then modifiersFrom fuel
      else if s = ")" then return []
      else reject
    | _ => reject

/-- A type by an unknown name. -/
def customType : Parser ColumnType := do
  let parts ← dottedNames
  let modifiers ← if ← symbol "(" then sized modifiersFrom else pure []
  let text := dotted parts ++ if modifiers.isEmpty then "" else "(" ++ commaList modifiers ++ ")"
  match parts with
  | first :: _ => return ⟨text, .custom first⟩
  | [] => reject

/-- Takes a closing angle bracket unless the inner type has taken it, and says whether a bracket of
the outer type was taken with it. -/
def closeAngle (taken : Bool) : Parser Bool := do
  if taken then return false
  else if ← symbol ">" then return false
  else
    expect ">>"
    return true

/-- A type that has to be closed by itself. -/
def closed (p : Parser (ColumnType × Bool)) : Parser ColumnType := do
  let (t, taken) ← p
  if taken then reject else return t

/-- A field of a record, whose name may be left out, and whether it took an outer bracket. -/
def recordField (p : Parser (ColumnType × Bool)) : Parser (String × Bool) := do
  match ← peek, ← peekSecond with
  | some (.word _ _), some (.word _ _) =>
    let n ← nameText
    let (t, taken) ← p
    return (n ++ " " ++ t.text, taken)
  | _, _ =>
    let (t, taken) ← p
    return (t.text, taken)

/-- The fields of a record, and whether the last one took an outer bracket. No other one may. -/
def recordFieldsFrom (p : Parser (ColumnType × Bool)) : Nat → Parser (List String × Bool)
  | 0 => reject
  | fuel + 1 => do
    let (field, taken) ← recordField p
    if ← symbol "," then
      if taken then reject
      else
        let (fields, last) ← recordFieldsFrom p fuel
        return (field :: fields, last)
    else return ([field], taken)

/-- The fields of a record in angle brackets, if there are any, and whether an outer bracket was
taken with them. -/
def recordFields (p : Parser (ColumnType × Bool)) : Parser (Option String × Bool) := do
  if ← symbol "<" then
    let (fields, taken) ← sized (recordFieldsFrom p)
    return (some (commaList fields), ← closeAngle taken)
  else return (none, false)

/-- The types that have types inside, with the parsers of what stands behind their names. -/
def nestedTypes (g : Grammar) (p : Parser (ColumnType × Bool)) :
    List (String × Parser (String × Bool)) :=
  let inner : Parser String := do return (← closed p).text
  let named (keyword : String) (content : Parser String) : String × Parser (String × Bool) :=
    (keyword.map Char.toUpper, do return (keyword ++ (← parens content), false))
  [("ARRAY", do
      expect "<"
      let (t, taken) ← p
      return ("ARRAY<" ++ t.text ++ ">", ← closeAngle taken)),
    ("STRUCT", do
      let (fields, taken) ← recordFields p
      return ("STRUCT" ++ (match fields with
        | some s => "<" ++ s ++ ">"
        | none => ""), taken)),
    named "UNION" (items do return (← nameText) ++ " " ++ (← inner)),
    named "Nullable" inner,
    named "LowCardinality" inner,
    named "Map" (do
      let key ← inner
      expect ","
      return key ++ ", " ++ (← inner)),
    named "Nested" (items do
      let n ← nameText
      let t ← inner
      return n ++ " " ++ t ++ (← columnOptions g)),
    named "Tuple" (items do return (← recordField p).1)]

/-- A type without the brackets behind it, and whether it took an outer angle bracket. -/
def bareType (g : Grammar) (p : Parser (ColumnType × Bool)) : Parser (ColumnType × Bool) := do
  match ← peek with
  | some (.word _ _) =>
    firstOf (do return (← customType, false))
      (("INTERVAL", return (⟨"INTERVAL", .interval⟩, false)) ::
        (plainTypes.map fun (keyword, text, parameters) =>
          (keyword, do return (⟨text ++ (← typeParameters parameters), .known⟩, false))) ++
        (nestedTypes g p).map fun (keyword, content) =>
          (keyword, do
            let (text, taken) ← content
            return (⟨text, .known⟩, taken)))
  | _ => reject

/-- A type with the brackets behind it, and whether it took an outer angle bracket. -/
def typeFrom (g : Grammar) : Nat → Parser (ColumnType × Bool)
  | 0 => reject
  | fuel + 1 => do
    let (t, taken) ← bareType g (typeFrom g fuel)
    let brackets ← sized bracketsFrom
    return (if brackets.isEmpty then t else ⟨t.text ++ brackets, .known⟩, taken)

/-- A type. -/
def columnType (g : Grammar) : Parser ColumnType := closed (sized (typeFrom g))

/-- A type, as text. -/
def typeText (g : Grammar) : Parser String := do return (← columnType g).text

/-- A column with its type and its options. -/
def columnDefinition (g : Grammar) : Parser String := do
  let n ← nameText
  let t ← typeText g
  return n ++ " " ++ t ++ (← columnOptions g)

end Parser

end TableQuery.Sql
