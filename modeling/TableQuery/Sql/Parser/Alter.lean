import TableQuery.Sql.Parser.Create
import TableQuery.Sql.Parser.Query

/-! # Parsing alterations and removals

The statements that change and remove what has a name, behind their keywords. -/

namespace TableQuery.Sql

namespace Parser

/-! ### Columns -/

/-- Where a column is put, with a blank before it. -/
def columnPosition : Parser String := do
  if ← keywords "FIRST" then return " FIRST" else clause "AFTER" nameText

/-- A column with a new type and options behind COLUMN, which may be left out. -/
def columnChange (g : Grammar) (names : Parser String) (keyword : String) : Parser String := do
  let _ ← keywords "COLUMN"
  let n ← names
  let t ← typeText g
  let options ← suffixes (columnOption g)
  return keyword ++ " COLUMN " ++ n ++ " " ++ t ++ options ++ (← columnPosition)

/-- A change of the values of a column. -/
def columnAlteration (g : Grammar) : Parser String := do
  let _ ← keywords "COLUMN"
  let n ← nameText
  let change ← firstOf reject
    [("SET NOT NULL", return "SET NOT NULL"), ("DROP NOT NULL", return "DROP NOT NULL"),
      ("SET DEFAULT", do return "SET DEFAULT " ++ (← g.termText)),
      ("DROP DEFAULT", return "DROP DEFAULT"),
      ("SET DATA TYPE", do return "SET DATA TYPE " ++ (← typeText g)),
      ("ADD GENERATED", do
        let how ← suffixOf ["ALWAYS", "BY DEFAULT"]
        expectKeywords "AS IDENTITY"
        let options ← if ← symbol "(" then do
            let options ← sequenceOptions
            expect ")"
            pure (" (" ++ options ++ " )")
          else pure ""
        return "ADD GENERATED" ++ how ++ " AS IDENTITY" ++ options)]
  return "ALTER COLUMN " ++ n ++ " " ++ change

/-! ### Parts of tables -/

/-- A part of a table, or a division of its rows. -/
def partOrPartition (g : Grammar) : Parser String := do
  let kind ← expectOneOf ["PART", "PARTITION"]
  return kind ++ " " ++ (← g.termText)

/-- A part of a table that is kept under a name. -/
def frozenPart (g : Grammar) : Parser String := do
  let part ← partOrPartition g
  return part ++ (← clause "WITH" do
    expectKeywords "NAME"
    return "NAME " ++ (← nameText))

/-- A projection of a table and the partition it is made for. -/
def projectionPart : Parser String := do
  let guard ← oldGuard
  let n ← nameText
  return guard ++ " " ++ n ++ (← clause "IN PARTITION" nameText)

/-- A new projection of a table behind its keyword. -/
def newProjection (g : Grammar) : Parser String := do
  let guard ← newGuard
  let n ← nameText
  let content ← parens do
    expectKeywords "SELECT"
    let list ← items do return (← selectItem g).text
    let keys ← clause "GROUP BY" (groupKeys g)
    return "SELECT " ++ list ++ keys ++ optionalPart (← orderClause g)
  return "ADD PROJECTION" ++ guard ++ " " ++ n ++ " " ++ content

/-- A new partition or a new column of a table. -/
def newPart (g : Grammar) : Parser String := do
  let guard ← newGuard
  let partitions ← repeated do
    if ← keywords "PARTITION" then return some ("PARTITION " ++ (← g.termList)) else return none
  if !partitions.isEmpty then return "ADD" ++ guard ++ " " ++ " ".intercalate partitions
  else
    let word ← suffix "COLUMN"
    let inner ← newGuard
    let column ← columnDefinition g
    return "ADD" ++ word ++ (if inner.isEmpty then guard else inner) ++ " " ++ column ++
      (← columnPosition)

/-- Something that is added to a table. -/
def addition (g : Grammar) : Parser String := do
  match ← tableConstraint g with
  | some constraint => return "ADD " ++ constraint
  | none => if ← keywords "PROJECTION" then newProjection g else newPart g

/-- Something that is removed from a table. -/
def subtraction (g : Grammar) : Parser String := do
  let named (keyword : String) : Parser String := do
    let guard ← oldGuard
    let n ← nameText
    return "DROP " ++ keyword ++ guard ++ " " ++ n ++ (← suffix "CASCADE")
  firstOf
    (do
      let _ ← keywords "COLUMN"
      named "COLUMN")
    [("IF EXISTS PARTITION", do return "DROP IF EXISTS PARTITION " ++ (← g.termList)),
      ("PARTITION", do return "DROP PARTITION " ++ (← g.termList)),
      ("CONSTRAINT", named "CONSTRAINT"), ("PRIMARY KEY", return "DROP PRIMARY KEY"),
      ("PROJECTION", do
        let guard ← oldGuard
        return "DROP PROJECTION" ++ guard ++ " " ++ (← nameText))]

/-- A new name for a table or a column. -/
def newNaming : Parser String := do
  if ← keywords "TO" then return "RENAME TO " ++ (← dottedText)
  else
    let _ ← keywords "COLUMN"
    let old ← nameText
    expectKeywords "TO"
    return "RENAME COLUMN " ++ old ++ " TO " ++ (← nameText)

/-- What can be switched off in a table, with the words that a name has to follow. -/
def disabledParts : List String := ["ROW LEVEL SECURITY", "RULE", "TRIGGER"]

/-- What can be switched on in a table. -/
def enabledParts : List String :=
  ["ALWAYS RULE", "ALWAYS TRIGGER", "ROW LEVEL SECURITY", "REPLICA RULE", "REPLICA TRIGGER", "RULE",
    "TRIGGER"]

/-- Something in a table that is switched on or off. -/
def switching (keyword : String) (parts : List String) : Parser String := do
  match ← expectOneOf parts with
  | "ROW LEVEL SECURITY" => return keyword ++ " ROW LEVEL SECURITY"
  | part => return keyword ++ " " ++ part ++ " " ++ (← nameText)

/-! ### Tables -/

/-- A change of a table. -/
def tableChange (g : Grammar) : Parser String :=
  let behind (keyword : String) (p : Parser String) : String × Parser String :=
    (keyword, do return keyword ++ " " ++ (← p))
  firstOf
    (do
      match ← optionsBehind? g "SET TBLPROPERTIES" with
      | none | some "" => reject
      | some options => return "SET TBLPROPERTIES(" ++ options ++ ")")
    [("ADD", addition g), ("RENAME", newNaming), ("DISABLE", switching "DISABLE" disabledParts),
      ("ENABLE", switching "ENABLE" enabledParts),
      ("CLEAR PROJECTION", do return "CLEAR PROJECTION" ++ (← projectionPart)),
      ("MATERIALIZE PROJECTION", do return "MATERIALIZE PROJECTION" ++ (← projectionPart)),
      ("DROP", subtraction g),
      ("PARTITION", do
        let old ← g.termList
        expectKeywords "RENAME TO PARTITION"
        return "PARTITION " ++ old ++ " RENAME TO PARTITION " ++ (← g.termList)),
      ("CHANGE", columnChange g (do return (← nameText) ++ " " ++ (← nameText)) "CHANGE"),
      ("MODIFY", columnChange g nameText "MODIFY"), ("ALTER", columnAlteration g),
      behind "SWAP WITH" dottedText, behind "OWNER TO" owner,
      behind "ATTACH" (partOrPartition g), behind "DETACH" (partOrPartition g),
      behind "FREEZE" (frozenPart g), behind "UNFREEZE" (frozenPart g)]

/-- An alteration of a table behind its keywords. -/
def tableAlteration (g : Grammar) : Parser String := do
  let guard ← oldGuard
  let only ← suffix "ONLY"
  let n ← dottedText
  let cluster ← clause "ON CLUSTER" nameText
  let changes ← items (tableChange g)
  let location ← if ← keywords "LOCATION" then do pure (" LOCATION " ++ (← nameText))
    else clause "SET LOCATION" nameText
  return "ALTER TABLE" ++ guard ++ only ++ " " ++ n ++ cluster ++ " " ++ changes ++ location

/-! ### Alterations -/

/-- An alteration of a view behind its keywords. -/
def viewAlteration (g : Grammar) : Parser String := do
  let n ← dottedText
  let columns ← optionalNameList
  let options ← optionsBehind g "WITH"
  expectKeywords "AS"
  return "ALTER VIEW " ++ n ++ options ++ optionalPart columns ++ " AS " ++ (← g.queryText)

/-- An alteration of an index behind its keywords. -/
def indexAlteration : Parser String := do
  let n ← dottedText
  expectKeywords "RENAME TO"
  return "ALTER INDEX " ++ n ++ " RENAME TO " ++ (← dottedText)

/-- An alteration of a policy behind its keywords. -/
def policyAlteration (g : Grammar) : Parser String := do
  let n ← nameText
  expectKeywords "ON"
  let table ← dottedText
  let start := "ALTER POLICY " ++ n ++ " ON " ++ table
  if ← keywords "RENAME" then
    expectKeywords "TO"
    return start ++ " RENAME TO " ++ (← nameText)
  else return start ++ (← policyRules g)

/-- An alteration behind its keyword. -/
def alteration (g : Grammar) : Parser String :=
  firstOf reject
    [("VIEW", viewAlteration g), ("TABLE", tableAlteration g), ("INDEX", indexAlteration),
      ("POLICY", policyAlteration g)]

/-! ### Removals -/

/-- Whether what depends on something removed is removed too, with a blank before it. -/
def dependents : Parser String := suffixOf ["CASCADE", "RESTRICT"]

/-- A removal of routines behind its keyword. -/
def routineRemoval (g : Grammar) (keyword : String) : Parser String := do
  let guard ← oldGuard
  let routines ← items (functionName g)
  return "DROP " ++ keyword ++ guard ++ " " ++ routines ++ (← dependents)

/-- A removal of something that belongs to a table, behind its keyword. -/
def attachedRemoval (keyword : String) (named : Parser String) : Parser String := do
  let guard ← oldGuard
  let n ← named
  expectKeywords "ON"
  let table ← dottedText
  return "DROP " ++ keyword ++ guard ++ " " ++ n ++ " ON " ++ table ++ (← dependents)

/-- A removal of a secret behind its keyword. -/
def secretRemoval (start : String) : Parser String := do
  let guard ← oldGuard
  let n ← nameText
  let place ← if ← keywords "FROM" then lenientName else pure none
  return start ++ "SECRET" ++ guard ++ " " ++ n ++ optionalPart (place.map ("FROM " ++ ·))

/-- Kinds of things that are removed by their names. -/
def removable : List String :=
  ["TABLE", "VIEW", "INDEX", "ROLE", "SCHEMA", "DATABASE", "SEQUENCE", "STAGE", "TYPE"]

/-- A removal by name. Roles have no dependents. -/
def namedRemoval (start kind : String) : Parser String := do
  let guard ← oldGuard
  let names ← items dottedText
  let cascade ← suffix "CASCADE"
  let restrict ← suffix "RESTRICT"
  let purge ← suffix "PURGE"
  if !cascade.isEmpty && !restrict.isEmpty then reject
  else
    let options := cascade ++ restrict ++ purge
    if kind = "ROLE" && !options.isEmpty then reject
    else return start ++ kind ++ guard ++ " " ++ names ++ options

/-- A removal behind its keyword. -/
def removal (g : Grammar) : Parser String := do
  let start := "DROP" ++ (← suffix "TEMPORARY") ++ " "
  match ← oneOf removable with
  | some kind => namedRemoval start kind
  | none =>
    firstOf reject
      [("FUNCTION", routineRemoval g "FUNCTION"), ("POLICY", attachedRemoval "POLICY" nameText),
        ("PROCEDURE", routineRemoval g "PROCEDURE"), ("SECRET", secretRemoval start),
        ("TRIGGER", attachedRemoval "TRIGGER" dottedText)]

end Parser

end TableQuery.Sql
