import TableQuery.Sql.Token.Basic

/-! # The contents of strings

Readers of what stands in quotes. A reader takes the characters behind the opening marks and gives
back the content and the characters behind the closing marks. It fails if the content is not closed
or has an escape in it that stands for no character.

Assumed of the generic dialect: a doubled quote stands for one quote in plain strings and quoted
names, where a backslash means nothing; escapes of control characters, of bytes in octal and
hexadecimal digits and of code points are read in strings that are marked for them. -/

namespace TableQuery.Sql

/-- A content with one more character in front. -/
def consRead (c : Char) (r : Option (List Char × List Char)) : Option (List Char × List Char) :=
  r.map fun (s, rest) => (c :: s, rest)

/-- The characters between quotes, a doubled quote standing for one. -/
def readQuoted (q : Char) : List Char → Option (List Char × List Char)
  | [] => none
  | [c] => if c = q then some ([], []) else none
  | c :: d :: r =>
    if c ≠ q then consRead c (readQuoted q (d :: r))
    else if d = q then consRead q (readQuoted q r)
    else some ([], d :: r)

/-- The characters up to three quotes in a row. -/
def readTripled (q : Char) : List Char → Option (List Char × List Char)
  | a :: b :: c :: r =>
    if a = q ∧ b = q ∧ c = q then some ([], r) else consRead a (readTripled q (b :: c :: r))
  | _ => none

/-- A raw string behind its first quote. Two quotes are an empty string, three open a string that
three close. -/
def readRaw (q : Char) (cs : List Char) : Option ((StringForm × List Char) × List Char) :=
  let single := (StringForm.raw q false, ·)
  match cs with
  | c :: d :: r =>
    if c ≠ q then (readQuoted q cs).map fun (s, rest) => (single s, rest)
    else if d = q then (readTripled q r).map fun (s, rest) => ((.raw q true, s), rest)
    else some (single [], d :: r)
  | cs => (readQuoted q cs).map fun (s, rest) => (single s, rest)

/-! ### Escapes -/

/-- What a backslash and a letter stand for. -/
def controlOfLetter : Char → Char
  | '0' => '\x00'
  | 'a' => '\x07'
  | 'b' => '\x08'
  | 'f' => '\x0c'
  | 'n' => '\n'
  | 'r' => '\r'
  | 't' => '\t'
  | 'Z' => '\x1a'
  | c => c

/-- The characters between single quotes, where a backslash goes with the character behind it. -/
def readSlashed : List Char → Option (List Char × List Char)
  | [] => none
  | [c] => if c = '\'' then some ([], []) else none
  | c :: d :: r =>
    if c = '\\' then consRead (controlOfLetter d) (readSlashed r)
    else if c ≠ '\'' then consRead c (readSlashed (d :: r))
    else if d = '\'' then consRead '\'' (readSlashed r)
    else some ([], d :: r)

/-- The value of a digit. -/
def digitValue? (base : Nat) (c : Char) : Option Nat :=
  let value :=
    if c.isDigit then c.toNat - '0'.toNat
    else if 'a' ≤ c ∧ c ≤ 'f' then c.toNat - 'a'.toNat + 10
    else if 'A' ≤ c ∧ c ≤ 'F' then c.toNat - 'A'.toNat + 10
    else base
  if value < base then some value else none

/-- The number that some digits stand for. -/
def numberOfDigits? (base : Nat) (cs : List Char) : Option Nat :=
  cs.foldlM (fun n c => (digitValue? base c).map (n * base + ·)) 0

/-- The character with a code point. -/
def charOfCode? (n : Nat) : Option Char := if n.isValidChar then some (Char.ofNat n) else none

/-- The character of `n` hexadecimal digits, of which the first may be a sign. -/
def readCode (n : Nat) (cs : List Char) : Option (Char × List Char) :=
  let ds := cs.take n
  if ds.length < n then none
  else
    let digits :=
      match ds with
      | '+' :: r => r
      | r => r
    do return (← charOfCode? (← numberOfDigits? 16 digits), cs.drop n)

/-- The ASCII character of a byte, which is cut off from a number. -/
def charOfByte? (n : Nat) : Option Char :=
  if n % 256 < 128 then some (Char.ofNat (n % 256)) else none

/-- What stands behind a backslash in a string with escapes. -/
def readEscape (c : Char) (r : List Char) : Option (Char × List Char) :=
  match c with
  | 'b' => some ('\x08', r)
  | 'f' => some ('\x0c', r)
  | 'n' => some ('\n', r)
  | 'r' => some ('\r', r)
  | 't' => some ('\t', r)
  | 'u' => readCode 4 r
  | 'U' => readCode 8 r
  | 'x' =>
    match (r.take 2).takeWhile fun c => (digitValue? 16 c).isSome with
    | [] => some ('x', r)
    | ds => do return (← charOfByte? (← numberOfDigits? 16 ds), r.drop ds.length)
  | c =>
    if (digitValue? 8 c).isSome then
      let ds := (r.take 2).takeWhile fun c => (digitValue? 8 c).isSome
      do return (← charOfByte? (← numberOfDigits? 8 (c :: ds)), r.drop ds.length)
    else some (c, r)

/-- The content of a string with escapes. An escape stands for no character of code zero. The
number of characters is enough fuel. -/
def readEscaped : Nat → List Char → Option (List Char × List Char)
  | 0, _ => none
  | fuel + 1, cs =>
    match cs with
    | '\'' :: '\'' :: r => consRead '\'' (readEscaped fuel r)
    | '\'' :: r => some ([], r)
    | '\\' :: c :: r => do
      let (e, rest) ← readEscape c r
      if e = '\x00' then none else consRead e (readEscaped fuel rest)
    | c :: r => if c = '\\' then none else consRead c (readEscaped fuel r)
    | [] => none

/-- The character of exactly `n` hexadecimal digits. -/
def readDigits (n : Nat) (cs : List Char) : Option (Char × List Char) :=
  if cs.length < n then none
  else do return (← charOfCode? (← numberOfDigits? 16 (cs.take n)), cs.drop n)

/-- The content of a string with code points: four digits behind a backslash, or six behind a
backslash and a plus sign. The number of characters is enough fuel. -/
def readUnicode : Nat → List Char → Option (List Char × List Char)
  | 0, _ => none
  | fuel + 1, cs =>
    match cs with
    | '\'' :: '\'' :: r => consRead '\'' (readUnicode fuel r)
    | '\'' :: r => some ([], r)
    | '\\' :: '\\' :: r => consRead '\\' (readUnicode fuel r)
    | '\\' :: '+' :: r => do
      let (c, rest) ← readDigits 6 r
      consRead c (readUnicode fuel rest)
    | '\\' :: r => do
      let (c, rest) ← readDigits 4 r
      consRead c (readUnicode fuel rest)
    | c :: r => consRead c (readUnicode fuel r)
    | [] => none

/-! ### Dollar signs -/

/-- The characters up to two dollar signs; `held` says whether one stands just before. -/
def readDollars (held : Bool) : List Char → Option (List Char × List Char)
  | [] => none
  | c :: r =>
    if held then
      if c = '$' then some ([], r) else consRead '$' (consRead c (readDollars false r))
    else if c = '$' then readDollars true r
    else consRead c (readDollars false r)

/-- The part of a tag that stands at the front, up to and with the first character that is none of
it, and what is left of both. -/
def takeTag : List Char → List Char → List Char × List Char × List Char
  | t :: tag, c :: r =>
    if c = t then
      let (taken, tag, rest) := takeTag tag r
      (c :: taken, tag, rest)
    else ([c], t :: tag, r)
  | tag, r => ([], tag, r)

/-- The characters up to a tag between dollar signs. A dollar sign and what was taken for the tag
behind it are passed over, so that a tag does not begin in there. The number of characters is
enough fuel. -/
def readTagged (tag : List Char) : Nat → List Char → Option (List Char × List Char)
  | 0, _ => none
  | fuel + 1, cs =>
    let before := cs.takeWhile (· ≠ '$')
    match cs.dropWhile (· ≠ '$') with
    | [] => none
    | _ :: r =>
      match takeTag tag r with
      | (_, [], '$' :: rest) => some (before, rest)
      | (taken, _, rest) =>
        (readTagged tag fuel rest).map fun (s, rest) => (before ++ '$' :: taken ++ s, rest)

end TableQuery.Sql
