import TableQuery.Error
import TableQuery.Sql.Parser.Statement

/-! # Plain selections

The queries that the table store answers by itself: some columns of one table, possibly under other
names, and a range of its rows. Of a statement that is more than that, the first thing that cannot
be done is reported. -/

namespace TableQuery.Sql

/-- A selected column. -/
structure SelectedColumn where
  column : String
  newName : Option String
  deriving DecidableEq

namespace SelectedColumn

/-- The name under which the column comes out. -/
def outputName (c : SelectedColumn) : String := c.newName.getD c.column

end SelectedColumn

/-- Columns and a range of rows of one table. -/
structure Selection where
  table : String
  /-- The selected columns; none stands for all. -/
  columns : Option (List SelectedColumn)
  limit : Option Nat
  offset : Nat
  deriving DecidableEq

/-- A selection, or the reason why there is none. -/
abbrev SelectionResult (α : Type) := Except StoreError α

namespace Selection

/-- The least number of rows that is too large to count, two to the 64th. -/
def rowLimit : Nat := 18446744073709551616

def unsupported {α : Type} (what : String) : SelectionResult α := .error (.unsupportedQuery what)

/-- The last of some names with points. -/
def lastName (what : String) (parts : List Name) : SelectionResult String :=
  match parts.getLast? with
  | some n => .ok n.value
  | none => unsupported ("empty " ++ what ++ " name")

/-- The column that a term names. -/
def columnName : Term → SelectionResult String
  | .name parts => lastName "column" parts
  | t => unsupported ("expression '" ++ t.text ++ "'")

/-- The column of an item. -/
def columnOfItem : SelectItem → SelectionResult SelectedColumn
  | .term t newName => do return ⟨← columnName t, newName.map Name.value⟩
  | item => unsupported ("projection '" ++ item.text ++ "'")

/-- The columns of the items; a lone star stands for all. -/
def columnsOfItems : List SelectItem → SelectionResult (Option (List SelectedColumn))
  | [.wildcard _] => .ok none
  | items => do return some (← items.mapM columnOfItem)

/-- The table of a FROM. -/
def tableOfSources : List FromItem → SelectionResult String
  | [⟨⟨.table parts _, _, _⟩, []⟩] => lastName "table" parts
  | [⟨relation, []⟩] => unsupported ("FROM '" ++ relation.text ++ "'")
  | [_] => unsupported "JOIN"
  | _ => unsupported "expected exactly one table in FROM"

/-- A number of rows. -/
def rowCount (t : Term) : SelectionResult Nat :=
  let refused := unsupported ("row count '" ++ (match t with
    | .number digits _ => digits
    | t => t.text) ++ "'")
  match t with
  | .number digits _ =>
    if digits.toList.all Char.isDigit then
      let n := digits.toList.foldl (fun n c => n * 10 + (c.toNat - '0'.toNat)) 0
      if n < rowLimit then .ok n else refused
    else refused
  | _ => refused

/-- The SELECT of a query without definitions and ordering. -/
def selectOfQuery (q : SelectQuery) : SelectionResult Select :=
  if q.definitions.isSome then unsupported "WITH"
  else if q.orderBy.isSome then unsupported "ORDER BY"
  else
    match q.body with
    | .select s => .ok s
    | .other text => unsupported ("query body '" ++ text ++ "'")

/-- The clauses that a selection cannot have, as far as they are looked for. -/
def refusedClauses : List String := ["WHERE", "HAVING", "GROUP BY"]

/-- A SELECT has none of the parts that are refused. -/
def checkClauses (s : Select) : SelectionResult Unit :=
  if s.distinct.isSome then unsupported "DISTINCT"
  else
    match refusedClauses.find? s.has with
    | some keyword => unsupported keyword
    | none => .ok ()

/-- The selection that a query is. -/
def ofQuery (q : SelectQuery) : SelectionResult Selection := do
  let s ← selectOfQuery q
  checkClauses s
  let table ← tableOfSources s.sources
  let columns ← columnsOfItems s.items
  let limit ← q.limit.mapM rowCount
  let offset ← q.offset.mapM rowCount
  return ⟨table, columns, limit, offset.getD 0⟩

/-- The selection that a text is. -/
def parse (sql : String) : SelectionResult Selection :=
  match parseStatements sql with
  | none => .error .malformedQuery
  | some [.query q] => ofQuery q
  | some [s] => unsupported ("statement '" ++ s.text ++ "'")
  | some statements =>
    unsupported ("expected a single statement, got " ++ toString statements.length)

end Selection

end TableQuery.Sql
