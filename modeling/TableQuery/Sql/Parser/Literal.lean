import TableQuery.Sql.Parser.Keyword

/-! # Parsing literals

Numbers, strings and places for values where they stand by themselves. Whole numbers that are
counts lose the zeros in front. Assumed of the grammar is that other numbers keep the digits that
they were written in, and that a word in double quotes is a value where nothing but a value can
stand. -/

namespace TableQuery.Sql

/-- A value that stands by itself. -/
inductive Literal where
  | number (digits : String) (long : Bool)
  | string (form : StringForm) (content : String)
  /-- A string in double quotes. -/
  | quotedWord (n : Name)
  | place (text : String)
  /-- A truth value or no value. -/
  | constant (text : String)

namespace Literal

def term : Literal → Term
  | number digits long => .number digits long
  | string form content => .other (form.literal content)
  | quotedWord n => .other n.text
  | place text | constant text => .other text

def text (l : Literal) : String := l.term.text

end Literal

namespace Parser

/-- A value by itself. A colon or an at sign begins a place that is named by a word or a number. -/
def literal : Parser Literal := do
  match ← next with
  | .number digits long => return .number digits long
  | .string form content => return .string form content
  | .placeholder text => return .place text
  | .word n keyword =>
    match keyword with
    | "TRUE" => return .constant "true"
    | "FALSE" => return .constant "false"
    | "NULL" => return .constant "NULL"
    | _ => if n.quote = some '"' then return .quotedWord n else reject
  | .symbol s =>
    if s = ":" || s = "@" then
      match ← next with
      | .word n _ => return .place (s ++ n.value)
      | .number digits false => return .place (s ++ digits)
      | _ => reject
    else reject
  | .blank _ => reject

/-- The text of a value by itself. -/
def literalText : Parser String := do return (← literal).text

/-- The content of a string. A word that is no keyword stands for itself. -/
def literalString : Parser String := do
  match ← next with
  | .string .plain s | .string .escaped s | .string .unicode s => return s
  | .word n keyword => if isPlainWord (.word n keyword) then return n.value else reject
  | _ => reject

/-- A string that is exactly one character of ASCII. -/
def literalChar : Parser String := do
  let s ← literalString
  if s.utf8ByteSize = 1 then return s else reject

/-- A whole number below a bound. -/
def naturalBelow (bound : Nat) : Parser Nat := do
  match ← next with
  | .number digits _ =>
    if digits.toList.all Char.isDigit then
      let n := digits.toList.foldl (fun n c => n * 10 + (c.toNat - '0'.toNat)) 0
      if n < bound then return n else reject
    else reject
  | _ => reject

/-- A count, in at most 64 bits. -/
def count : Parser String := do return toString (← naturalBelow 18446744073709551616)

/-- A count in at most 32 bits. -/
def shortCount : Parser String := do return toString (← naturalBelow 4294967296)

/-- A number or a place for one. -/
def numberText : Parser String := do
  match ← literal with
  | .number digits long => return (Literal.number digits long).text
  | .place text => return text
  | _ => reject

/-- A number or a place for one, behind an optional sign. -/
def signedText : Parser String := do
  if ← symbol "+" then return "+" ++ (← numberText)
  else if ← symbol "-" then return "-" ++ (← numberText)
  else numberText

end Parser

end TableQuery.Sql
