import TableQuery.Sql.Parser.Grammar

/-! # Parsing the options of columns and tables

What stands behind the type of a column, the constraints of a table, and the options of a sequence
that numbers rows. -/

namespace TableQuery.Sql

namespace Parser

/-! ### Parts of options -/

/-- What happens to a row when the row that it refers to is gone. -/
def referentialAction : Parser String :=
  expectOneOf ["RESTRICT", "CASCADE", "SET NULL", "NO ACTION", "SET DEFAULT"]

/-- The actions of a reference, in either order, with `delete` and `update` found so far. -/
def referentialActionsFrom : Nat → Option String → Option String → Parser String
  | 0, _, _ => reject
  | fuel + 1, delete, update => do
    if delete.isNone then
      if ← keywords "ON DELETE" then
        return ← referentialActionsFrom fuel (some (← referentialAction)) update
    if update.isNone then
      if ← keywords "ON UPDATE" then
        return ← referentialActionsFrom fuel delete (some (← referentialAction))
    return optionalPart (delete.map ("ON DELETE " ++ ·)) ++
      optionalPart (update.map ("ON UPDATE " ++ ·))

/-- The actions of a reference. -/
def referentialActions : Parser String := referentialActionsFrom 3 none none

/-- When a constraint is checked, as far as it is said. -/
structure CheckTime where
  deferrable : Option String
  initially : Option String
  enforced : Option String

namespace CheckTime

def text (c : CheckTime) : String :=
  optionalPart c.deferrable ++ optionalPart c.initially ++ optionalPart c.enforced

end CheckTime

/-- When a constraint is checked, in any order, with what was found so far. -/
def checkTimeFrom : Nat → CheckTime → Parser CheckTime
  | 0, _ => reject
  | fuel + 1, c => do
    if c.deferrable.isNone then
      if let some ws ← oneOf ["NOT DEFERRABLE", "DEFERRABLE"] then
        return ← checkTimeFrom fuel { c with deferrable := some ws }
    if c.initially.isNone then
      if ← keywords "INITIALLY" then
        let ws ← expectOneOf ["DEFERRED", "IMMEDIATE"]
        return ← checkTimeFrom fuel { c with initially := some ("INITIALLY " ++ ws) }
    if c.enforced.isNone then
      if let some ws ← oneOf ["ENFORCED", "NOT ENFORCED"] then
        return ← checkTimeFrom fuel { c with enforced := some ws }
    return c

/-- When a constraint is checked. -/
def checkTime : Parser String := do return (← checkTimeFrom 4 ⟨none, none, none⟩).text

/-! ### Sequences -/

/-- The options of a sequence, each with a blank before it. -/
def sequenceOptions : Parser String := do
  let step ←
    if ← keywords "INCREMENT" then do
      let word ← suffix "BY"
      pure (" INCREMENT" ++ word ++ " " ++ (← signedText))
    else pure ""
  let least ← if ← keywords "NO MINVALUE" then pure " NO MINVALUE" else clause "MINVALUE" signedText
  let most ← if ← keywords "NO MAXVALUE" then pure " NO MAXVALUE" else clause "MAXVALUE" signedText
  let start ←
    if ← keywords "START" then do
      let word ← suffix "WITH"
      pure (" START" ++ word ++ " " ++ (← signedText))
    else pure ""
  let cache ← clause "CACHE" signedText
  let cycle ← suffixOf ["NO CYCLE", "CYCLE"]
  return step ++ least ++ most ++ start ++ cache ++ cycle

/-- The options of a sequence in parentheses; empty ones are left out. -/
def sequenceOptionList : Parser String := do
  if ← symbol "(" then
    let options ← sequenceOptions
    expect ")"
    return if options.isEmpty then "" else " (" ++ options ++ " )"
  else return ""

/-! ### Options by name -/

/-- The columns that a table is clustered by, each with its direction. -/
def clusteredColumns : Parser String :=
  parens (items do return (← nameText) ++ (← suffixOf ["ASC", "DESC"]))

/-- The ranges of a column by which a table is divided. -/
def rangePartition (g : Grammar) : Parser String := do
  expect "("
  let column ← nameText
  expectKeywords "RANGE"
  let direction ← suffixOf ["LEFT", "RIGHT"]
  expectKeywords "FOR VALUES"
  let values ← g.termList
  expect ")"
  return "PARTITION (" ++ column ++ " RANGE" ++ direction ++ " FOR VALUES " ++ values ++ ")"

/-- An option of a table: mostly a name and a term. -/
def namedOption (g : Grammar) : Parser String := do
  match ← peekKeyword with
  | "HEAP" => nameText
  | "PARTITION" => skip 1; rangePartition g
  | "CLUSTERED" =>
    firstOf reject
      [("CLUSTERED COLUMNSTORE INDEX ORDER",
          do return "CLUSTERED COLUMNSTORE INDEX ORDER " ++ (← nameList)),
        ("CLUSTERED COLUMNSTORE INDEX", pure "CLUSTERED COLUMNSTORE INDEX"),
        ("CLUSTERED INDEX", do return "CLUSTERED INDEX " ++ (← clusteredColumns))]
  | _ =>
    let n ← nameText
    expect "="
    return n ++ " = " ++ (← g.termText)

/-- Options in parentheses behind some words, if these stand here. -/
def optionsBehind? (g : Grammar) (ws : String) : Parser (Option String) := do
  if ← keywords ws then
    expect "("
    let options ← itemsBefore ")" (namedOption g)
    expect ")"
    return some options
  else return none

/-- Options in parentheses behind some words, with a blank before them; empty ones are left out. -/
def optionsBehind (g : Grammar) (ws : String) : Parser String := do
  match ← optionsBehind? g ws with
  | none | some "" => return ""
  | some options => return " " ++ ws ++ " (" ++ options ++ ")"

/-! ### Columns -/

/-- A term in parentheses that computes a column, and whether its values are kept. -/
def generatedTerm (g : Grammar) : Parser String := do
  let content ← parens g.termText
  return "AS " ++ content ++ (← suffixOf ["STORED", "VIRTUAL"])

/-- How the values of a column are generated. -/
def generation (g : Grammar) : Parser (Option String) :=
  firstOf (return none)
    [("ALWAYS AS IDENTITY",
        do return some ("GENERATED ALWAYS AS IDENTITY" ++ (← sequenceOptionList))),
      ("BY DEFAULT AS IDENTITY",
        do return some ("GENERATED BY DEFAULT AS IDENTITY" ++ (← sequenceOptionList))),
      ("ALWAYS AS", do
        if (← peek) = some (.symbol "(") then
          return some ("GENERATED ALWAYS " ++ (← generatedTerm g))
        else return none)]

/-- The row that a column refers to. -/
def reference : Parser String := do
  let table ← dottedText
  let columns ← optionalNameList
  let actions ← referentialActions
  return "REFERENCES " ++ table ++ optionalPart columns ++ actions ++ (← checkTime)

/-- Where the values of a column begin and how they go on. -/
def identity : Parser String := do
  if ← symbol "(" then
    let seed ← signedText
    expect ","
    let step ← signedText
    expect ")"
    return "IDENTITY(" ++ seed ++ ", " ++ step ++ ")"
  else return "IDENTITY"

/-- A remark as a plain string. -/
def comment : Parser String := do
  match ← next with
  | .string .plain s => return s
  | _ => reject

/-- An option of a column, if one stands here. -/
def columnOption (g : Grammar) : Parser (Option String) :=
  firstOf (return none)
    [("CHARACTER SET", do return some ("CHARACTER SET " ++ (← dottedText))),
      ("NOT NULL", return some "NOT NULL"),
      ("COMMENT", do return some ("COMMENT " ++ stringLiteral (← comment))),
      ("NULL", return some "NULL"),
      ("DEFAULT", do return some ("DEFAULT " ++ (← g.termText))),
      ("MATERIALIZED", do return some ("MATERIALIZED " ++ (← g.termText))),
      ("ALIAS", do return some ("ALIAS " ++ (← g.termText))),
      ("EPHEMERAL", do
        let t ← peek
        if t = some (.symbol ",") || t = some (.symbol ")") then return some "EPHEMERAL"
        else return some ("EPHEMERAL " ++ (← g.termText))),
      ("PRIMARY KEY", do return some ("PRIMARY KEY" ++ (← checkTime))),
      ("UNIQUE", do return some ("UNIQUE" ++ (← checkTime))),
      ("REFERENCES", do return some (← reference)),
      ("CHECK", do return some ("CHECK " ++ (← parens g.termText))),
      ("AUTO_INCREMENT", return some "AUTO_INCREMENT"),
      ("AUTOINCREMENT", return some "AUTOINCREMENT"),
      ("ASC", return some "ASC"),
      ("DESC", return some "DESC"),
      ("ON UPDATE", do return some ("ON UPDATE " ++ (← g.termText))),
      ("GENERATED", generation g),
      ("OPTIONS", do
        expect "("
        let options ← itemsBefore ")" (namedOption g)
        expect ")"
        return some ("OPTIONS(" ++ options ++ ")")),
      ("AS", do return some (← generatedTerm g)),
      ("IDENTITY", do return some (← identity)),
      ("ON CONFLICT", do
        return some ("ON CONFLICT " ++
          (← expectOneOf ["ROLLBACK", "ABORT", "FAIL", "IGNORE", "REPLACE"])))]

/-- The options of a column behind its type, of which a collation comes first, as many as there is
fuel for. -/
def columnOptionsFrom (g : Grammar) : Nat → Parser (Option String × String)
  | 0 => reject
  | fuel + 1 => do
    let named ← if ← keywords "CONSTRAINT" then do pure (some (← nameText)) else pure none
    match named, ← columnOption g with
    | none, some option =>
      let (collation, rest) ← columnOptionsFrom g fuel
      return (collation, " " ++ option ++ rest)
    | some n, some option =>
      let (collation, rest) ← columnOptionsFrom g fuel
      return (collation, " CONSTRAINT " ++ n ++ " " ++ option ++ rest)
    | some _, none => reject
    | none, none =>
      if ← keywords "COLLATE" then
        let found ← dottedText
        let (collation, rest) ← columnOptionsFrom g fuel
        return (collation <|> some found, rest)
      else return (none, "")

/-- The options of a column behind its type. Of several collations the last one counts. -/
def columnOptions (g : Grammar) : Parser String := do
  let first ← if ← keywords "COLLATE" then do pure (some (← dottedText)) else pure none
  let (last, options) ← sized (columnOptionsFrom g)
  return optionalPart ((last <|> first).map ("COLLATE " ++ ·)) ++ options

/-! ### Tables -/

/-- The kind of an index, behind USING. -/
def indexKind : Parser String := do
  if ← keywords "USING" then return " USING " ++ (← expectOneOf ["BTREE", "HASH"]) else return ""

/-- An option of an index, if one stands here. -/
def indexOption : Parser (Option String) :=
  firstOf (return none)
    [("USING", do return some ("USING " ++ (← expectOneOf ["BTREE", "HASH"]))),
      ("COMMENT", do return some ("COMMENT '" ++ (← literalString) ++ "'"))]

/-- A name with a blank before it, if one stands here. -/
def optionalName : Parser String := do return optionalPart (← attempt nameText)

/-- The columns of a key with its name, its kind and its options. -/
def keyColumns : Parser String := do
  let n ← optionalName
  let kind ← indexKind
  let columns ← nameList
  let options ← suffixes indexOption
  return n ++ kind ++ " " ++ columns ++ options ++ (← checkTime)

/-- A key of another table. -/
def foreignKey : Parser String := do
  let columns ← nameList
  expectKeywords "REFERENCES"
  let table ← dottedText
  let referred ← nameList
  let actions ← referentialActions
  let time ← checkTime
  return "FOREIGN KEY " ++ columns ++ " REFERENCES " ++ table ++ referred ++ actions ++ time

/-- An index that is part of a table. -/
def innerIndex : Parser String := do
  let n ← if (← peekKeyword) = "USING" then pure "" else optionalName
  let kind ← indexKind
  return n ++ kind ++ " " ++ (← nameList)

/-- An index of texts or of places. -/
def searchIndex : Parser String := do
  let word ← suffixOf ["KEY", "INDEX"]
  let n ← optionalName
  return word ++ n ++ " " ++ (← nameList)

/-- A constraint of a table, if one stands here. -/
def tableConstraint (g : Grammar) : Parser (Option String) := do
  let named ← if ← keywords "CONSTRAINT" then do pure (some (← nameText)) else pure none
  let start := match named with
    | some n => "CONSTRAINT " ++ n ++ " "
    | none => ""
  let unnamed (p : Parser String) : Parser (Option String) := do
    if named.isSome then reject else return some (← p)
  firstOf (if named.isSome then reject else return none)
    [("UNIQUE", do
        let word ← suffixOf ["KEY", "INDEX"]
        return some (start ++ "UNIQUE" ++ word ++ (← keyColumns))),
      ("PRIMARY", do
        expectKeywords "KEY"
        return some (start ++ "PRIMARY KEY" ++ (← keyColumns))),
      ("FOREIGN", do
        expectKeywords "KEY"
        return some (start ++ (← foreignKey))),
      ("CHECK", do return some (start ++ "CHECK " ++ (← parens g.termText))),
      ("INDEX", unnamed do return "INDEX" ++ (← innerIndex)),
      ("KEY", unnamed do return "KEY" ++ (← innerIndex)),
      ("FULLTEXT", unnamed do return "FULLTEXT" ++ (← searchIndex)),
      ("SPATIAL", unnamed do return "SPATIAL" ++ (← searchIndex))]

end Parser

end TableQuery.Sql
