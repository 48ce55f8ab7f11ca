import TableQuery.Sql.Quoted

/-! # Tokens of SQL

The words, numbers, strings, places and symbols that a text consists of, and how they are written.
A word without quotes stands for a keyword in any case of its letters, where the few letters beyond
ASCII whose capitals are in ASCII count as those capitals.

Assumed are the documented tokens of the generic dialect of SQL, which takes the forms of strings of
many systems together, and the documented normal form in which each of them is written again. -/

namespace TableQuery.Sql

/-- A name as it was written. -/
structure Name where
  value : String
  quote : Option Char
  deriving DecidableEq

namespace Name

def text (n : Name) : String :=
  match n.quote with
  | some q => quoted q n.value
  | none => n.value

end Name

/-- What stands around a string and says how it is read. -/
inductive StringForm where
  | plain
  /-- Behind an E, with escapes. -/
  | escaped
  /-- Behind an U and an ampersand, with code points. -/
  | unicode
  /-- Behind an N. -/
  | national
  /-- Behind an X or the digits 0x. -/
  | hexadecimal
  /-- Behind a B, in single or double quotes. -/
  | bytes (quote : Char)
  /-- Behind an R, in one or three quotes of a kind. -/
  | raw (quote : Char) (tripled : Bool)
  /-- Between dollar signs around a tag. -/
  | dollar (tag : String)
  deriving DecidableEq

namespace StringForm

/-- The marks in front of the content and behind it. -/
def marks : StringForm → String × String
  | plain => ("'", "'")
  | escaped => ("E'", "'")
  | unicode => ("U&'", "'")
  | national => ("N'", "'")
  | hexadecimal => ("X'", "'")
  | bytes q => ("B" ++ q.toString, q.toString)
  | raw q tripled =>
    let qs := String.ofList (List.replicate (if tripled then 3 else 1) q)
    ("R" ++ qs, qs)
  | dollar tag => ("$" ++ tag ++ "$", "$" ++ tag ++ "$")

/-- A character of a string with escapes. -/
def escape (c : Char) : String :=
  if c = '\'' then "\\'"
  else if c = '\\' then "\\\\"
  else if c = '\n' then "\\n"
  else if c = '\t' then "\\t"
  else if c = '\r' then "\\r"
  else c.toString

/-- At least `n` capital hexadecimal digits. -/
def hexDigits (n value : Nat) : String :=
  let ds := (Nat.toDigits 16 value).map Char.toUpper
  String.ofList (List.replicate (n - ds.length) '0' ++ ds)

/-- A character of a string with code points. Only characters beyond ASCII are written as such. -/
def codePoint (c : Char) : String :=
  if c = '\'' then "''"
  else if c = '\\' then "\\\\"
  else if c.toNat < 0x80 then c.toString
  else if c.toNat ≤ 0xFFFF then "\\" ++ hexDigits 4 c.toNat
  else "\\+" ++ hexDigits 6 c.toNat

/-- A string as a value is written. -/
def literal (form : StringForm) (content : String) : String :=
  match form with
  | plain => stringLiteral content
  | escaped => "E'" ++ String.join (content.toList.map escape) ++ "'"
  | unicode => "U&'" ++ String.join (content.toList.map codePoint) ++ "'"
  | form => form.marks.1 ++ content ++ form.marks.2

end StringForm

/-- A token. -/
inductive Token where
  /-- A word with the keyword that it stands for, which is empty if the word is in quotes. -/
  | word (name : Name) (keyword : String)
  /-- A number in its digits; a long one was written with a suffix. -/
  | number (digits : String) (long : Bool)
  | string (form : StringForm) (content : String)
  /-- A place for a value, as it was written. -/
  | placeholder (text : String)
  | symbol (s : String)
  /-- White space or a comment. -/
  | blank (text : String)
  deriving DecidableEq

namespace Token

/-- Whether a token only keeps others apart. -/
def isBlank : Token → Bool
  | blank _ => true
  | _ => false

/-- A token by itself, where nothing in quotes is escaped. -/
def text : Token → String
  | word n _ =>
    match n.quote with
    | some q => q.toString ++ n.value ++ q.toString
    | none => n.value
  | number digits long => digits ++ if long then "L" else ""
  | string form content => form.marks.1 ++ content ++ form.marks.2
  | placeholder text | blank text => text
  | symbol s => if s = "!=" then "<>" else s

/-- The capitals of a character as far as they are in ASCII; any other character stands for
itself. -/
def capitals (c : Char) : List Char :=
  if c.toNat < 0x80 then [c.toUpper]
  else
    match c with
    | 'ſ' => ['S']
    | 'ı' => ['I']
    | 'ß' => ['S', 'S']
    | 'ﬀ' => ['F', 'F']
    | 'ﬁ' => ['F', 'I']
    | 'ﬂ' => ['F', 'L']
    | 'ﬃ' => ['F', 'F', 'I']
    | 'ﬄ' => ['F', 'F', 'L']
    | 'ﬅ' | 'ﬆ' => ['S', 'T']
    | c => [c]

/-- A word without quotes. -/
def bareWord (cs : List Char) : Token :=
  word ⟨String.ofList cs, none⟩ (String.ofList (cs.flatMap capitals))

end Token

end TableQuery.Sql
