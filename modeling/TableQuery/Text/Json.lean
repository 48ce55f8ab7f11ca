/-! # JSON text

Values of the JSON format with numbers kept as written and object members in order. There are a
compact writer, a writer with one member or element to a line, and a reader. The reader accepts
every text of the format. What is nested as deep as `Json.maxDepth` or has half a character in a
string is read over: it may stand where nobody looks, but has no value. -/

namespace TableQuery

/-- A JSON value. -/
inductive Json where
  | null
  | bool (b : Bool)
  | number (text : String)
  | string (s : String)
  | array (elements : List Json)
  | object (members : List (String × Json))
  /-- A value that was read over. It is written as null. -/
  | skipped

namespace Json

instance : Inhabited Json := ⟨null⟩

/-! ### Writing -/

/-- The escape of a character inside a string. Only control characters, quotes and backslashes
have one. -/
def escape (c : Char) : String :=
  if c = '"' then "\\\""
  else if c = '\\' then "\\\\"
  else if c = '\n' then "\\n"
  else if c = '\r' then "\\r"
  else if c = '\t' then "\\t"
  else if c.toNat = 8 then "\\b"
  else if c.toNat = 12 then "\\f"
  else if c.toNat < 32 then
    "\\u00" ++ (if c.toNat < 16 then "0" else "1") ++ String.ofList (Nat.toDigits 16 (c.toNat % 16))
  else c.toString

/-- A string in quotes. -/
def quote (s : String) : String := "\"" ++ String.join (s.toList.map escape) ++ "\""

mutual

/-- The text without blanks. -/
def compact : Json → String
  | .null | .skipped => "null"
  | .bool b => if b then "true" else "false"
  | .number t => t
  | .string s => quote s
  | .array es => "[" ++ ",".intercalate (compactAll es) ++ "]"
  | .object ms => "\x7b" ++ ",".intercalate (compactMembers ms) ++ "\x7d"

def compactAll : List Json → List String
  | [] => []
  | e :: r => compact e :: compactAll r

def compactMembers : List (String × Json) → List String
  | [] => []
  | (n, v) :: r => (quote n ++ ":" ++ compact v) :: compactMembers r

end

/-- Items on lines of their own between brackets. -/
def block (opening closing : String) (depth : Nat) (items : List String) : String :=
  if items.isEmpty then opening ++ closing
  else
    let inner := "\n" ++ "".pushn ' ' (2 * depth + 2)
    opening ++ inner ++ ("," ++ inner).intercalate items ++ "\n" ++ "".pushn ' ' (2 * depth) ++
      closing

mutual

/-- The text with each member and element on its own line, indented by two blanks a level. -/
def pretty (depth : Nat) : Json → String
  | .null | .skipped => "null"
  | .bool b => if b then "true" else "false"
  | .number t => t
  | .string s => quote s
  | .array es => block "[" "]" depth (prettyAll (depth + 1) es)
  | .object ms => block "\x7b" "\x7d" depth (prettyMembers (depth + 1) ms)

def prettyAll (depth : Nat) : List Json → List String
  | [] => []
  | e :: r => pretty depth e :: prettyAll depth r

def prettyMembers (depth : Nat) : List (String × Json) → List String
  | [] => []
  | (n, v) :: r => (quote n ++ ": " ++ pretty depth v) :: prettyMembers depth r

end

/-! ### Reading -/

/-- The nesting of arrays and objects that is read over. -/
def maxDepth : Nat := 128

/-- The blanks between the parts of a text. -/
def isBlank (c : Char) : Bool := c == ' ' || c == '\n' || c == '\r' || c == '\t'

/-- The characters behind a word that the text has to begin with. -/
def expect? : List Char → List Char → Option (List Char)
  | [], cs => some cs
  | w :: ws, c :: cs => if w = c then expect? ws cs else none
  | _ :: _, [] => none

/-- The value of a hexadecimal digit. -/
def hexDigit? (c : Char) : Option Nat :=
  if '0' ≤ c ∧ c ≤ '9' then some (c.toNat - '0'.toNat)
  else if 'a' ≤ c ∧ c ≤ 'f' then some (c.toNat - 'a'.toNat + 10)
  else if 'A' ≤ c ∧ c ≤ 'F' then some (c.toNat - 'A'.toNat + 10)
  else none

/-- Four hexadecimal digits. -/
def hex4? : List Char → Option (Nat × List Char)
  | a :: b :: c :: d :: r => do
    let a ← hexDigit? a
    let b ← hexDigit? b
    let c ← hexDigit? c
    let d ← hexDigit? d
    return (((a * 16 + b) * 16 + c) * 16 + d, r)
  | _ => none

/-- The character of an escape by code unit. Half a surrogate pair is read over. -/
def unicodeEscape? (cs : List Char) : Option (Option Char × List Char) := do
  let (u, r) ← hex4? cs
  if u < 0xD800 ∨ 0xDFFF < u then some (some (Char.ofNat u), r)
  else if 0xDBFF < u then some (none, r)
  else
    match r with
    | '\\' :: 'u' :: t => do
      let (v, t) ← hex4? t
      if 0xDC00 ≤ v ∧ v ≤ 0xDFFF then
        some (some (Char.ofNat (0x10000 + (u - 0xD800) * 0x400 + (v - 0xDC00))), t)
      else some (none, r)
    | _ => some (none, r)

/-- One character of a string, unless it is half of one, and what is behind it. -/
def stringChar? : List Char → Option (Option Char × List Char)
  | '\\' :: c :: r =>
    match c with
    | '"' => some (some '"', r)
    | '\\' => some (some '\\', r)
    | '/' => some (some '/', r)
    | 'b' => some (some (Char.ofNat 8), r)
    | 'f' => some (some (Char.ofNat 12), r)
    | 'n' => some (some '\n', r)
    | 'r' => some (some '\r', r)
    | 't' => some (some '\t', r)
    | 'u' => unicodeEscape? r
    | _ => none
  | '"' :: _ => none
  | c :: r => if c = '\\' ∨ c.toNat < 32 then none else some (some c, r)
  | [] => none

/-- The rest of a string, up to and with its closing quote. A string with half a character in it
is read over. -/
def stringRest? : Nat → List Char → Option (Option (List Char) × List Char)
  | 0, _ => none
  | fuel + 1, cs =>
    match cs with
    | '"' :: r => some (some [], r)
    | cs => do
      let (c, r) ← stringChar? cs
      let (s, r) ← stringRest? fuel r
      return (do return (← c) :: (← s), r)

/-- The digits at the front, of which there must be one. -/
def digits1? (cs : List Char) : Option (List Char × List Char) :=
  let ds := cs.takeWhile Char.isDigit
  if ds.isEmpty then none else some (ds, cs.drop ds.length)

/-- A number: a sign, an integral part without superfluous zeros, a fraction, an exponent. -/
def number? (cs : List Char) : Option (String × List Char) := do
  let (sign, cs) := match cs with
    | '-' :: r => (['-'], r)
    | cs => ([], cs)
  let (whole, cs) ← match cs with
    | '0' :: r => if (r.head?.any Char.isDigit) then none else some (['0'], r)
    | cs => digits1? cs
  let (fraction, cs) ← match cs with
    | '.' :: r => (digits1? r).map fun (ds, r) => ('.' :: ds, r)
    | cs => some ([], cs)
  let (exponent, cs) ← match cs with
    | c :: r =>
      if c = 'e' ∨ c = 'E' then
        let (s, r) := match r with
          | '+' :: r => (['+'], r)
          | '-' :: r => (['-'], r)
          | r => ([], r)
        (digits1? r).map fun (ds, r) => (c :: s ++ ds, r)
      else some ([], cs)
    | [] => some ([], [])
  return (String.ofList (sign ++ whole ++ fraction ++ exponent), cs)

/-- An array or object inside `depth` others, unless that is too deep. -/
def ifShallow (depth : Nat) (j : Json) : Json := if depth + 1 < maxDepth then j else skipped

mutual

/-- A value at some depth and what is behind it. -/
def value? (fuel depth : Nat) (cs : List Char) : Option (Json × List Char) :=
  match fuel with
  | 0 => none
  | fuel + 1 =>
    match cs.dropWhile isBlank with
    | 'n' :: r => (expect? "ull".toList r).map (null, ·)
    | 't' :: r => (expect? "rue".toList r).map (bool true, ·)
    | 'f' :: r => (expect? "alse".toList r).map (bool false, ·)
    | '"' :: r =>
      (stringRest? (r.length + 1) r).map fun (s, r) =>
        (s.elim skipped fun cs => string (String.ofList cs), r)
    | '[' :: r =>
      match r.dropWhile isBlank with
      | ']' :: r => some (ifShallow depth (array []), r)
      | r => (elements? fuel (depth + 1) r).map fun (es, r) => (ifShallow depth (array es), r)
    | '\x7b' :: r =>
      match r.dropWhile isBlank with
      | '\x7d' :: r => some (ifShallow depth (object []), r)
      | r =>
        (members? fuel (depth + 1) r).map fun (ms, r) =>
          (ms.elim skipped fun ms => ifShallow depth (object ms), r)
    | cs => (number? cs).map fun (t, r) => (number t, r)

/-- One or more elements up to the closing bracket. -/
def elements? (fuel depth : Nat) (cs : List Char) : Option (List Json × List Char) :=
  match fuel with
  | 0 => none
  | fuel + 1 => do
    let (e, r) ← value? fuel depth cs
    match r.dropWhile isBlank with
    | ',' :: r => do
      let (es, r) ← elements? fuel depth r
      return (e :: es, r)
    | ']' :: r => return ([e], r)
    | _ => none

/-- One or more members up to the closing brace. There are none to use if a name has half a
character in it. -/
def members? (fuel depth : Nat) (cs : List Char) :
    Option (Option (List (String × Json)) × List Char) :=
  match fuel with
  | 0 => none
  | fuel + 1 =>
    match cs.dropWhile isBlank with
    | '"' :: r => do
      let (n, r) ← stringRest? (r.length + 1) r
      match r.dropWhile isBlank with
      | ':' :: r => do
        let (v, r) ← value? fuel depth r
        let member := n.map fun n => (String.ofList n, v)
        match r.dropWhile isBlank with
        | ',' :: r => do
          let (ms, r) ← members? fuel depth r
          return (do return (← member) :: (← ms), r)
        | '\x7d' :: r => return (member.map ([·]), r)
        | _ => none
      | _ => none
    | _ => none

end

/-- The value that a whole text stands for. -/
def ofText? (text : String) : Option Json := do
  let cs := text.toList
  let (v, r) ← value? (2 * cs.length + 2) 0 cs
  if (r.dropWhile isBlank).isEmpty then some v else none

/-- The values of named fields, each given at most once: by the members of an object, or by the
elements of an array in the order of the names. -/
def fields? (names : List String) : Json → Option (List (Option Json))
  | object ms =>
    if names.all fun n => (ms.countP fun m => m.1 == n) ≤ 1 then
      some (names.map fun n => ms.lookup n)
    else none
  | array es => if es.length = names.length then some (es.map some) else none
  | _ => none

/-- A variant with its content, or without any. -/
def variant? : Json → Option (String × Option Json)
  | string s => some (s, none)
  | object [(n, content)] => some (n, some content)
  | _ => none

end Json

end TableQuery
