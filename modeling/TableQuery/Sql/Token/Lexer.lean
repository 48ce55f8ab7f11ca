import TableQuery.Sql.Token.Content
import TableQuery.Text.Blank
import TableQuery.Text.Letter
import TableQuery.Text.Numeral

/-! # Reading tokens

The tokens of a text. White space and comments are blanks between tokens; block comments may be
nested. A text whose last quote or comment is not closed has no tokens. A character that begins
nothing else is a symbol by itself.

Assumed of the generic dialect: words begin with a letter of any script, an underscore or one of the
marks # and @, names are quoted by double quotes or backticks, the longest symbol that stands at
a place is read, ? and $ begin places for values, and a double hyphen begins a comment. -/

namespace TableQuery.Sql

/-! ### Classes of characters -/

def isWordStart (c : Char) : Bool := isLetter c || c == '_' || c == '#' || c == '@'

def isWordChar (c : Char) : Bool := isWordStart c || c.isDigit || c == '$'

/-- The characters of the name of a place and of a tag. -/
def isPlaceChar (c : Char) : Bool := isLetter c || isNumeral c || c == '_'

/-- Symbols of more than one character; a symbol stands before those that begin it. -/
def longSymbols : List String :=
  ["!~~*", "<=>", "->>", "||/", "!~*", "!~~", "~~*", "#>>", "<=", "<>", "<<", "<@", ">=", ">>",
    "!=", "!!", "!~", "==", "=>", "||", "|/", "::", ":=", "->", "//", "&&", "^@", "~*", "~~",
    "#>", "#-", "@>", "@?", "@@"]

/-! ### Readers

A reader takes the characters that are left and gives back those behind what it read. -/

/-- The characters behind a block comment, `depth` comments being open. The character before the
next one decides whether the two are a mark. -/
def skipComment (depth : Nat) (prev : Char) : List Char → Option (List Char)
  | [] => none
  | c :: r =>
    if prev = '/' ∧ c = '*' then skipComment (depth + 1) c r
    else if prev = '*' ∧ c = '/' then if depth ≤ 1 then some r else skipComment (depth - 1) c r
    else skipComment depth c r

/-- An exponent, if one with digits stands here. -/
def readExponent (cs : List Char) : List Char × List Char :=
  let absent := ([], cs)
  match cs with
  | e :: r =>
    if e = 'e' ∨ e = 'E' then
      let (sign, digits) :=
        match r with
        | '+' :: s => (['+'], s)
        | '-' :: s => (['-'], s)
        | s => ([], s)
      match digits.takeWhile Char.isDigit with
      | [] => absent
      | ds => (e :: sign ++ ds, digits.dropWhile Char.isDigit)
    else absent
  | [] => absent

/-- A number with an optional fraction and exponent, a hexadecimal string, or a lone point. -/
def readNumber (cs : List Char) : Token × List Char :=
  let whole := cs.takeWhile Char.isDigit
  let rest := cs.dropWhile Char.isDigit
  match whole, rest with
  | ['0'], 'x' :: r =>
    let isHex c := (digitValue? 16 c).isSome
    (.string .hexadecimal (String.ofList (r.takeWhile isHex)), r.dropWhile isHex)
  | _, _ =>
    let (point, rest) :=
      match rest with
      | '.' :: r => (['.'], r)
      | r => ([], r)
    let fraction := rest.takeWhile Char.isDigit
    let rest := rest.dropWhile Char.isDigit
    if whole.isEmpty && fraction.isEmpty then (.symbol ".", rest)
    else
      let (exponent, rest) := readExponent rest
      let digits := String.ofList (whole ++ point ++ fraction ++ exponent)
      match rest with
      | 'L' :: r => (.number digits true, r)
      | r => (.number digits false, r)

/-- The symbol at the front of a text that is not empty. -/
def readSymbol (c : Char) (r : List Char) : Token × List Char :=
  match longSymbols.find? fun s => s.toList.isPrefixOf (c :: r) with
  | some s => (.symbol s, (c :: r).drop s.length)
  | none => (.symbol c.toString, r)

/-- A word whose first characters are given. -/
def readWord (start r : List Char) : Token × List Char :=
  (Token.bareWord (start ++ r.takeWhile isWordChar), r.dropWhile isWordChar)

/-- A place for a value, or a string between dollar signs, behind the first of them. -/
def readDollar (r : List Char) : Option (Token × List Char) :=
  match r with
  | '$' :: r =>
    (readDollars false r).map fun (s, rest) => (.string (.dollar "") (String.ofList s), rest)
  | r =>
    let name := r.takeWhile isPlaceChar
    match r.dropWhile isPlaceChar with
    | '$' :: r =>
      (readTagged name (r.length + 1) r).map fun (s, rest) =>
        (.string (.dollar (String.ofList name)) (String.ofList s), rest)
    | rest => some (.placeholder (String.ofList ('$' :: name)), rest)

/-- A string of some form. -/
def stringToken (form : StringForm) (read : Option (List Char × List Char)) :
    Option (Token × List Char) :=
  read.map fun (s, rest) => (.string form (String.ofList s), rest)

/-- A raw string, whose quotes were found in reading it. -/
def rawToken (read : Option ((StringForm × List Char) × List Char)) : Option (Token × List Char) :=
  read.map fun ((form, s), rest) => (.string form (String.ofList s), rest)

/-- A string with a letter in front, if one stands here; else a word. -/
def readWordOrString (c : Char) (r : List Char) : Option (Token × List Char) :=
  match c.toUpper, r with
  | 'B', '\'' :: r => stringToken (.bytes '\'') (readQuoted '\'' r)
  | 'B', '"' :: r => stringToken (.bytes '"') (readQuoted '"' r)
  | 'R', '\'' :: r => rawToken (readRaw '\'' r)
  | 'R', '"' :: r => rawToken (readRaw '"' r)
  | 'N', '\'' :: r => stringToken .national (readSlashed r)
  | 'E', '\'' :: r => stringToken .escaped (readEscaped (r.length + 1) r)
  | 'U', '&' :: '\'' :: r => stringToken .unicode (readUnicode (r.length + 1) r)
  | 'X', '\'' :: r => stringToken .hexadecimal (readSlashed r)
  | _, r => some (readWord [c] r)

/-- A symbol that begins with a mark that words can begin with too: behind the mark alone a blank
or the end of the text has to follow. -/
def readMark (c : Char) (r : List Char) : Token × List Char :=
  match readSymbol c r with
  | (.symbol s, rest) =>
    if s = "@@" ∨ s.length = 1 then
      match rest with
      | [] | ' ' :: _ => (.symbol s, rest)
      | d :: rest => readWord (s.toList ++ [d]) rest
    else (.symbol s, rest)
  | other => other

/-- The token at the front of a text whose first character begins no comment. -/
def readToken (c : Char) (r : List Char) : Option (Token × List Char) :=
  if c = '#' ∨ c = '@' then some (readMark c r)
  else if isWordStart c then readWordOrString c r
  else if c = '\'' then stringToken .plain (readQuoted '\'' r)
  else if c = '"' ∨ c = '\x60' then
    (readQuoted c r).map fun (s, rest) => (.word ⟨String.ofList s, some c⟩ "", rest)
  else if c.isDigit ∨ c = '.' then some (readNumber (c :: r))
  else if c = '?' then
    some (.placeholder (String.ofList (c :: r.takeWhile isNumeral)), r.dropWhile isNumeral)
  else if c = '$' then readDollar r
  else some (readSymbol c r)

/-! ### Texts -/

/-- The white space that begins with a character. A line break of two characters is one, and
anything but line breaks and tabs is a blank. -/
def readWhite (c : Char) (r : List Char) : Token × List Char :=
  match c, r with
  | '\r', '\n' :: r => (.blank "\n", r)
  | '\r', r | '\n', r => (.blank "\n", r)
  | '\t', r => (.blank "\t", r)
  | _, r => (.blank " ", r)

/-- A comment to the end of its line, behind its mark. The line break belongs to it. -/
def readLineComment (r : List Char) : Token × List Char :=
  let content := String.ofList (r.takeWhile (· ≠ '\n'))
  match r.dropWhile (· ≠ '\n') with
  | _ :: rest => (.blank ("--" ++ content ++ "\n"), rest)
  | [] => (.blank ("--" ++ content), [])

/-- A block comment behind its mark. -/
def readBlockComment (r : List Char) : Option (Token × List Char) :=
  (skipComment 1 ' ' r).map fun rest =>
    (.blank ("/*" ++ String.ofList (r.take (r.length - rest.length))), rest)

/-- The token or the blank at the front of a text. -/
def readAny (c : Char) (r : List Char) : Option (Token × List Char) :=
  if isWhiteSpace c then some (readWhite c r)
  else
    match c, r with
    | '-', '-' :: r => some (readLineComment r)
    | '/', '*' :: r => readBlockComment r
    | c, r => readToken c r

/-- The tokens of a text with the blanks between them. The number of characters is enough fuel. -/
def tokensFrom : Nat → List Char → Option (List Token)
  | _, [] => some []
  | 0, _ :: _ => none
  | fuel + 1, c :: r => do
    let (token, rest) ← readAny c r
    return token :: (← tokensFrom fuel rest)

/-- The tokens of a text with the blanks between them, if all its quotes and comments are closed. -/
def tokens (s : String) : Option (List Token) := tokensFrom s.toList.length s.toList

end TableQuery.Sql
