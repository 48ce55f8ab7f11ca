import TableQuery.Sql.Token.Basic

/-! # Statements of SQL

Statements to the depth that a reader of plain selections looks into them. Terms that are neither
names nor numbers, relations that are not tables, and statements that are not queries are kept as
their text in normal form: keywords in capitals, single blanks, AS before every alias, clauses in
one order. -/

namespace TableQuery.Sql

/-- A list of parts with commas. -/
def commaList (parts : List String) : String := ", ".intercalate parts

/-- A scalar expression. -/
inductive Term where
  /-- A column, with the names that qualify it in front. -/
  | name (parts : List Name)
  | number (digits : String) (long : Bool)
  /-- A query in parentheses, as the text between them. -/
  | subquery (query : String)
  | other (text : String)

/-- Names with points. -/
def dotted (parts : List Name) : String := ".".intercalate (parts.map Name.text)

namespace Term

def text : Term → String
  | name parts => dotted parts
  | number digits long => digits ++ if long then "L" else ""
  | subquery query => "(" ++ query ++ ")"
  | other text => text

end Term

/-- A part of what a SELECT computes. -/
inductive SelectItem where
  | wildcard (options : String)
  /-- All columns of one relation. -/
  | qualifiedWildcard (parts : List Name) (options : String)
  | term (t : Term) (newName : Option Name)

namespace SelectItem

def text : SelectItem → String
  | wildcard options => "*" ++ options
  | qualifiedWildcard parts options => dotted parts ++ ".*" ++ options
  | term t none => t.text
  | term t (some n) => t.text ++ " AS " ++ n.text

end SelectItem

/-- What a relation in a FROM is, apart from its alias. -/
inductive RelationKind where
  /-- A table with what follows its name. -/
  | table (name : List Name) (rest : String)
  /-- Joins in parentheses. -/
  | nested (text : String)
  | other (text : String)

namespace RelationKind

def text : RelationKind → String
  | table name rest => dotted name ++ rest
  | nested text | other text => text

end RelationKind

/-- A relation that a FROM names. -/
structure Relation where
  kind : RelationKind
  /-- The new name of the relation, with new names of its columns behind it. -/
  newName : Option String
  /-- What is written behind the new name. -/
  rest : String

namespace Relation

def text (r : Relation) : String :=
  r.kind.text ++ (match r.newName with
  | some n => " AS " ++ n
  | none => "") ++ r.rest

end Relation

/-- A relation with the texts of the joins that follow it. -/
structure FromItem where
  relation : Relation
  joins : List String

namespace FromItem

def text (i : FromItem) : String := i.relation.text ++ String.join (i.joins.map (" " ++ ·))

end FromItem

/-- A clause behind the FROM of a SELECT, by its keywords. -/
structure SelectClause where
  keyword : String
  content : String

namespace SelectClause

def text (c : SelectClause) : String := c.keyword ++ " " ++ c.content

end SelectClause

/-- A SELECT without ordering and limits. -/
structure Select where
  /-- DISTINCT with what it is over. -/
  distinct : Option String
  /-- Further words in front of the items. -/
  top : Option String
  items : List SelectItem
  /-- The table that the rows are put into. -/
  into : Option String
  sources : List FromItem
  clauses : List SelectClause

/-- A part of a text with a blank before it, if there is one. -/
def optionalPart (part : Option String) : String :=
  match part with
  | some s => " " ++ s
  | none => ""

namespace Select

/-- Whether a clause is present. -/
def has (s : Select) (keyword : String) : Bool := s.clauses.any (·.keyword == keyword)

def text (s : Select) : String :=
  "SELECT" ++ optionalPart s.distinct ++ optionalPart s.top ++ " " ++
    commaList (s.items.map SelectItem.text) ++ optionalPart s.into ++
    (if s.sources.isEmpty then "" else " FROM " ++ commaList (s.sources.map FromItem.text)) ++
    String.join (s.clauses.map fun c => " " ++ c.text)

end Select

/-- What a query computes before it is ordered and cut. -/
inductive QueryBody where
  | select (s : Select)
  | other (text : String)

namespace QueryBody

def text : QueryBody → String
  | select s => s.text
  | other text => text

end QueryBody

/-- A query. -/
structure SelectQuery where
  /-- The names defined in front, with their keyword. -/
  definitions : Option String
  body : QueryBody
  orderBy : Option String
  limit : Option Term
  offset : Option Term
  /-- The word behind an offset, with a blank before it. -/
  offsetUnit : String
  /-- Further clauses at the end. -/
  rest : String

namespace SelectQuery

def text (q : SelectQuery) : String :=
  (match q.definitions with
  | some s => s ++ " "
  | none => "") ++ q.body.text ++ optionalPart q.orderBy ++
    optionalPart (q.limit.map fun t => "LIMIT " ++ t.text) ++
    optionalPart (q.offset.map fun t => "OFFSET " ++ t.text ++ q.offsetUnit) ++ q.rest

end SelectQuery

/-- A statement. -/
inductive Statement where
  | query (q : SelectQuery)
  /-- A statement that asks for the plan of another one or for the columns of a table. -/
  | explanation (text : String)
  | other (text : String)

namespace Statement

def text : Statement → String
  | query q => q.text
  | explanation text | other text => text

end Statement

end TableQuery.Sql
