import TableQuery.Error

/-! # Schemas

A schema is a list of named types without repeated names. `Schema.ofFields` is the only way to one
from arbitrary fields and refuses a repeated name. Two schemas have the same columns when they
hold the same pairs in any order. -/

namespace TableQuery

/-- The columns of a relation, in order. -/
structure Schema where
  fields : List (String × DataType)
  nodup : (fields.map Prod.fst).Nodup

namespace Schema

def empty : Schema := ⟨[], by simp⟩

instance : Inhabited Schema := ⟨empty⟩

/-- The first name that repeats an earlier one. -/
def firstRepeated? : List String → Option String := go []
where
  go (seen : List String) : List String → Option String
    | [] => none
    | n :: r => if n ∈ seen then some n else go (n :: seen) r

/-- The schema with these fields, unless a name is repeated. -/
def ofFields (fields : List (String × DataType)) : Result Schema :=
  if h : (fields.map Prod.fst).Nodup then .ok ⟨fields, h⟩
  else .error (.schema (.duplicateColumn ((firstRepeated? (fields.map Prod.fst)).getD "")))

variable (s : Schema)

def size : Nat := s.fields.length

def names : List String := s.fields.map Prod.fst

def types : List DataType := s.fields.map Prod.snd

def contains (name : String) : Bool := s.names.contains name

/-- The type of a column. -/
def type? (name : String) : Option DataType := s.fields.lookup name

/-- The type of a column, or an error that lists the columns. -/
def typeOf (name : String) : Result DataType :=
  match s.type? name with
  | some t => .ok t
  | none => .error (.typing (.unknownColumn name s.names))

/-- The position of a column. -/
def index? (name : String) : Option Nat := s.names.idxOf? name

/-- The schema whose columns are all nullable. -/
def withNulls : Schema where
  fields := s.fields.map fun (n, t) => (n, t.withNullable true)
  nodup := by
    have := s.nodup
    simpa [List.map_map, Function.comp_def] using this

/-- Whether the schemas have the same columns in the same order. -/
def sameOrdered (a b : Schema) : Bool := a.fields == b.fields

/-- Whether the schemas have the same columns in any order. -/
def sameColumns (a b : Schema) : Bool :=
  a.size == b.size && a.fields.all fun (n, t) => b.type? n == some t

/-- One line for each column, the types aligned behind the longest name. -/
def text : String :=
  let width := (s.names.map String.utf8ByteSize).foldl max 0
  let line (field : String × DataType) : String :=
    "  " ++ field.1.pushn ' ' (width - field.1.length) ++ "  " ++ field.2.text ++ "\n"
  "Schema \x7b\n" ++ String.join (s.fields.map line) ++ "\x7d"

end Schema

end TableQuery
