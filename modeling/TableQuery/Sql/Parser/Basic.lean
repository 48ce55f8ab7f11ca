import TableQuery.Sql.Syntax

/-! # Parsers of tokens

A parser takes tokens from the front of what is left of a text, and fails where the text does not
go on as it has to. `Parser.attempt` takes such a failure back, except where something is nested
too deep: that ends the whole text. Here are the parsers of single tokens, of keywords, of lists
and of names.

Assumed in all parsers that are made of these is the documented grammar of the generic dialect of
SQL, which takes the clauses of many systems together: which texts are statements, in which order
clauses come, and the normal form in which a statement is written again. The store asks a text for
little of this (`Sql.Selection.parse`): whether it is one plain selection from one table, and
otherwise which part of it is more than that. -/

namespace TableQuery.Sql

/-- Why a parser gives up. -/
inductive ParseFailure where
  /-- The text does not go on as it has to. -/
  | mismatch
  /-- Terms, queries and statements are nested too deep. -/
  | tooDeep
  deriving DecidableEq

/-- What is left of a text. -/
structure Input where
  /-- The tokens that are left, without the blanks between them. -/
  tokens : List Token
  /-- All tokens of the text, with the blanks between them. -/
  written : List Token
  /-- Whether the links of a CONNECT BY are being read, where PRIOR is an operator. -/
  inHierarchy : Bool

/-- A parser of something at the front of a text. -/
abbrev Parser (α : Type) := StateT Input (Except ParseFailure) α

namespace Parser

/-- The parser of nothing. -/
def reject {α : Type} : Parser α := throw .mismatch

/-- The result of a parser, or none and the text as it was. -/
def attempt {α : Type} (p : Parser α) : Parser (Option α) := fun i =>
  match p i with
  | .ok (a, rest) => .ok (some a, rest)
  | .error .tooDeep => .error .tooDeep
  | .error .mismatch => .ok (none, i)

/-- Runs a parser with one more step of fuel than there are tokens, which is enough for a loop that
takes a token in each step. -/
def sized {α : Type} (p : Nat → Parser α) : Parser α := do p ((← get).tokens.length + 1)

/-! ### Single tokens -/

/-- The next token, left in place. -/
def peek : Parser (Option Token) := do return (← get).tokens.head?

/-- The token behind the next one, left in place. -/
def peekSecond : Parser (Option Token) := do return (← get).tokens.tail.head?

/-- Drops tokens. -/
def skip (n : Nat) : Parser Unit := modify fun i => { i with tokens := i.tokens.drop n }

/-- The next token. -/
def next : Parser Token := do
  match ← peek with
  | some t => skip 1; return t
  | none => reject

/-- Takes a symbol if it stands here. -/
def symbol (s : String) : Parser Bool := do
  if (← peek) = some (.symbol s) then skip 1; return true else return false

/-- Takes a symbol that has to stand here. -/
def expect (s : String) : Parser Unit := do if ← symbol s then pure () else reject

/-! ### Keywords -/

/-- The keyword of a token, empty if it has none. -/
def keywordOf : Option Token → String
  | some (.word _ keyword) => keyword
  | _ => ""

/-- The keyword that comes next. -/
def peekKeyword : Parser String := do return keywordOf (← peek)

/-- A character in front of some words; a blank begins a word. -/
def addToWords (c : Char) (words : List (List Char)) : List (List Char) :=
  if c = ' ' then [] :: words else (c :: words.headD []) :: words.tail

/-- The words of a phrase, which stand between single blanks. -/
def phrase (ws : String) : List String := (ws.toList.foldr addToWords [[]]).map String.ofList

/-- Whether the tokens begin with these keywords. -/
def startsWith : List String → List Token → Bool
  | [], _ => true
  | w :: ws, t :: ts => keywordOf (some t) == w && startsWith ws ts
  | _ :: _, [] => false

/-- Takes keywords, separated by blanks, if they all stand here. -/
def keywords (ws : String) : Parser Bool := do
  let parts := phrase ws
  if startsWith parts (← get).tokens then skip parts.length; return true else return false

/-- Takes keywords that have to stand here. -/
def expectKeywords (ws : String) : Parser Unit := do if ← keywords ws then pure () else reject

/-- Takes the first of some alternatives of keywords that stands here. -/
def oneOf : List String → Parser (Option String)
  | [] => return none
  | ws :: r => do if ← keywords ws then return some ws else oneOf r

/-- Takes the first of some alternatives of keywords, one of which has to stand here. -/
def expectOneOf (alternatives : List String) : Parser String := do
  match ← oneOf alternatives with
  | some ws => return ws
  | none => reject

/-- Runs the parser behind the first keywords that stand here, or else the other one. -/
def firstOf {α : Type} (otherwise : Parser α) : List (String × Parser α) → Parser α
  | [] => otherwise
  | (ws, p) :: r => do if ← keywords ws then p else firstOf otherwise r

/-! ### Texts

Parsers of optional parts of a statement give back their text with a blank in front, or an empty
text. -/

/-- Takes words if they stand here. -/
def suffix (ws : String) : Parser String := do return if ← keywords ws then " " ++ ws else ""

/-- Takes one of some alternatives of words if it stands here. -/
def suffixOf (alternatives : List String) : Parser String := do
  return optionalPart (← oneOf alternatives)

/-- Something behind words, if they stand here. -/
def clause (ws : String) (p : Parser String) : Parser String := do
  if ← keywords ws then return " " ++ ws ++ " " ++ (← p) else return ""

/-- Something in parentheses. -/
def parens (p : Parser String) : Parser String := do
  expect "("
  let content ← p
  expect ")"
  return "(" ++ content ++ ")"

/-! ### Lists -/

/-- One or more items with commas between them, as many as there is fuel for. -/
def commaSeparatedFrom {α : Type} (p : Parser α) : Nat → Parser (List α)
  | 0 => reject
  | fuel + 1 => do
    let a ← p
    if ← symbol "," then return a :: (← commaSeparatedFrom p fuel) else return [a]

/-- One or more items with commas between them. -/
def commaSeparated {α : Type} (p : Parser α) : Parser (List α) := sized (commaSeparatedFrom p)

/-- The text of one or more items with commas between them. -/
def items (p : Parser String) : Parser String := do return commaList (← commaSeparated p)

/-- The text of any number of items with commas between them, up to a symbol that is left. -/
def itemsBefore (close : String) (p : Parser String) : Parser String := do
  if (← peek) = some (.symbol close) then return "" else items p

/-- Items as long as they come, as many as there is fuel for. -/
def repeatedFrom {α : Type} (p : Parser (Option α)) : Nat → Parser (List α)
  | 0 => reject
  | fuel + 1 => do
    match ← p with
    | some a => return a :: (← repeatedFrom p fuel)
    | none => return []

/-- Items as long as they come; each takes a token. -/
def repeated {α : Type} (p : Parser (Option α)) : Parser (List α) := sized (repeatedFrom p)

/-- The texts of optional parts as long as they come. -/
def suffixes (p : Parser (Option String)) : Parser String := do
  return String.join ((← repeated p).map (" " ++ ·))

/-! ### Names -/

/-- A name: any word, or a plain string. -/
def name : Parser Name := do
  match ← next with
  | .word n _ => return n
  | .string .plain s => return ⟨s, some '\''⟩
  | _ => reject

/-- A name, as it is written. -/
def nameText : Parser String := do return (← name).text

/-- Names with points between them, as many as there is fuel for. -/
def dottedNamesFrom : Nat → Parser (List Name)
  | 0 => reject
  | fuel + 1 => do
    let n ← name
    if ← symbol "." then return n :: (← dottedNamesFrom fuel) else return [n]

/-- Names with points between them. -/
def dottedNames : Parser (List Name) := sized dottedNamesFrom

/-- Names with points between them, as they are written. -/
def dottedText : Parser String := do return dotted (← dottedNames)

/-- Names with points between them if they are there. What stands in the place of a name is taken
in any case. -/
def lenientNamesFrom : Nat → Parser (Option String)
  | 0 => return none
  | fuel + 1 => do
    match ← attempt name with
    | none => skip 1; return none
    | some n =>
      if ← symbol "." then return (← lenientNamesFrom fuel).map ((n.text ++ ".") ++ ·)
      else return some n.text

/-- Names with points between them if they are there. -/
def lenientNames : Parser (Option String) := sized lenientNamesFrom

/-- Names in parentheses. -/
def nameList : Parser String := parens (items nameText)

/-- Names in parentheses, if a parenthesis opens here. -/
def optionalNameList : Parser (Option String) := do
  if (← peek) = some (.symbol "(") then return some (← nameList) else return none

/-- The guard in front of the name of something new. -/
def newGuard : Parser String := suffix "IF NOT EXISTS"

/-- The guard in front of the name of something that may be missing. -/
def oldGuard : Parser String := suffix "IF EXISTS"

/-! ### Aliases -/

/-- Words that are no alias of an item unless AS stands before them. -/
def notColumnAliases : List String :=
  ["WITH", "EXPLAIN", "ANALYZE", "SELECT", "WHERE", "GROUP", "SORT", "HAVING", "ORDER", "TOP",
    "LATERAL", "VIEW", "LIMIT", "OFFSET", "FETCH", "UNION", "EXCEPT", "INTERSECT", "CLUSTER",
    "DISTRIBUTE", "RETURNING", "FROM", "INTO", "END"]

/-- Words that are no alias of a relation unless AS stands before them. -/
def notTableAliases : List String :=
  reservedWords.filter fun w => !(["RETURNING", "FROM", "INTO"].contains w)

/-- An alias, with or without AS. -/
def alias? (excluded : List String) : Parser (Option Name) := do
  let explicit ← keywords "AS"
  match ← peek with
  | some (.word n keyword) =>
    if explicit || !excluded.contains keyword then skip 1; return some n else return none
  | some (.string .plain s) => skip 1; return some ⟨s, some '\''⟩
  | _ => if explicit then reject else return none

/-- The new name of a relation and of its columns. -/
def tableAlias : Parser (Option String) := do
  match ← alias? notTableAliases with
  | none => return none
  | some n => return some (n.text ++ optionalPart (← optionalNameList))

end Parser

end TableQuery.Sql
