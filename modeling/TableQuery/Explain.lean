import TableQuery.Text.Json

/-! # Explanations

A tree of entries, each with a name and named items. Items stand in the order of their names. The
text has one line for each entry, two blanks deeper for each level. -/

namespace TableQuery

/-- The content of an item. -/
inductive ExplainValue where
  | one (text : String)
  | many (texts : List String)

namespace ExplainValue

def text : ExplainValue → String
  | one s => s
  | many ss => "[" ++ ", ".intercalate ss ++ "]"

def toJson : ExplainValue → Json
  | one s => .object [("Value", .string s)]
  | many ss => .object [("Values", .array (ss.map .string))]

end ExplainValue

/-- A named entry with items in the order of their names. -/
structure ExplainEntry where
  name : String
  items : List (String × ExplainValue)

namespace ExplainEntry

/-- The items with one more in its place. -/
def insertItem (item : String × ExplainValue) :
    List (String × ExplainValue) → List (String × ExplainValue)
  | [] => [item]
  | i :: r => if item.1 < i.1 then item :: i :: r else i :: insertItem item r

/-- The entry with one more item. -/
def insert (e : ExplainEntry) (item : String × ExplainValue) : ExplainEntry :=
  ⟨e.name, insertItem item e.items⟩

/-- The entry of these items. -/
def ofItems (name : String) (items : List (String × ExplainValue)) : ExplainEntry :=
  items.foldl insert ⟨name, []⟩

def text (e : ExplainEntry) : String :=
  if e.items.isEmpty then e.name
  else e.name ++ " (" ++ ", ".intercalate (e.items.map fun (k, v) => k ++ " = " ++ v.text) ++ ")"

def toJson (e : ExplainEntry) : Json :=
  .object [("name", .string e.name), ("items", .object (e.items.map fun (k, v) => (k, v.toJson)))]

end ExplainEntry

/-- An item that is left out when there is nothing to show. -/
def optionalItem (key : String) (value : Option String) : List (String × ExplainValue) :=
  value.toList.map fun v => (key, .one v)

/-- A tree of entries. -/
inductive Explanation where
  | node (entry : ExplainEntry) (children : List Explanation)

namespace Explanation

mutual

/-- One line for each entry, indented by its depth. -/
def textAt (depth : Nat) : Explanation → String
  | .node entry children =>
    "".pushn ' ' (2 * depth) ++ entry.text ++ "\n" ++ textsAt (depth + 1) children

def textsAt (depth : Nat) : List Explanation → String
  | [] => ""
  | e :: r => textAt depth e ++ textsAt depth r

end

def text (e : Explanation) : String := e.textAt 0

mutual

def toJson : Explanation → Json
  | .node entry children =>
    .object [("entry", entry.toJson), ("children", .array (toJsonAll children))]

def toJsonAll : List Explanation → List Json
  | [] => []
  | e :: r => toJson e :: toJsonAll r

end

end Explanation

end TableQuery
