import TableQuery.Error

/-! # Reading data types

Type texts such as `!int64`, `timestamp('UTC')` or `array<string>`. Names are read without regard
to case and several have short forms; blanks may stand between all parts. `DataType.ofText` reads
a whole text. The readers of parts take the characters that are left and give back those behind
the part; error positions count the bytes before them. -/

namespace TableQuery

/-- The blank characters of one byte. -/
def isBlank (c : Char) : Bool := c == ' ' || (9 ≤ c.toNat && c.toNat ≤ 13)

/-- The characters of names in type texts. -/
def isNameChar (c : Char) : Bool := c.isAlphanum || c == '_'

/-- The number of bytes of a list of characters. -/
def byteCount (cs : List Char) : Nat := cs.foldr (fun c n => c.utf8Size + n) 0

def skipBlanks (cs : List Char) : List Char := cs.dropWhile isBlank

/-- The least value that does not fit a byte. -/
def byteLimit : Nat := 256

/-- A number of at most eight bits, written with digits only. -/
def byteOfDigits? (cs : List Char) : Option Nat :=
  if cs.isEmpty || !cs.all Char.isDigit then none
  else
    let n := cs.foldl (fun n c => n * 10 + (c.toNat - '0'.toNat)) 0
    if n < byteLimit then some n else none

namespace DataType

/-- The types whose names take no parameters. -/
def simpleNamed? : String → Option DataType
  | "null" => some .null
  | "bool" | "boolean" => some .boolean
  | "int8" => some (.int .int8)
  | "int16" => some (.int .int16)
  | "int32" => some (.int .int32)
  | "int" | "int64" => some (.int .int64)
  | "uint8" => some (.int .uint8)
  | "uint16" => some (.int .uint16)
  | "uint32" => some (.int .uint32)
  | "uint64" => some (.int .uint64)
  | "float16" | "halffloat" => some (.float .float16)
  | "float32" | "float" => some (.float .float32)
  | "float64" | "double" => some (.float .float64)
  | "string" | "str" => some .utf8
  | "binary" | "bytes" => some .binary
  | "date" => some .date
  | "time" => some .time
  | "unknown" => some .unknown
  | _ => none

/-- The text being read, which errors show. -/
structure ReaderContext where
  text : String

namespace ReaderContext

variable (ctx : ReaderContext)

/-- The position of the characters that are left. -/
def position (rest : List Char) : Nat := ctx.text.utf8ByteSize - byteCount rest

/-- The characters behind an optional mark. -/
def optional (c : Char) (cs : List Char) : Bool × List Char :=
  match skipBlanks cs with
  | d :: r => if d = c then (true, r) else (false, d :: r)
  | [] => (false, [])

/-- The characters behind a mark that has to stand here. -/
def expect (c : Char) (cs : List Char) : Result (List Char) :=
  match optional c cs with
  | (true, r) => .ok r
  | (false, r) => .error (.typeText (.expectedChar c (ctx.position r) ctx.text))

/-- A name of letters, digits and underscores. -/
def name (cs : List Char) : Result (String × List Char) :=
  let cs := skipBlanks cs
  let n := cs.takeWhile isNameChar
  if n.isEmpty then .error (.typeText (.expectedName (ctx.position cs) ctx.text))
  else .ok (String.ofList n, cs.dropWhile isNameChar)

/-- A text in quotes of either kind, or a name. -/
def quoted (cs : List Char) : Result (String × List Char) :=
  match skipBlanks cs with
  | '\'' :: r => inside '\'' r
  | '"' :: r => inside '"' r
  | cs => ctx.name cs
where
  inside (quote : Char) (r : List Char) : Result (String × List Char) := do
    let content := r.takeWhile (· ≠ quote)
    let rest ← ctx.expect quote (r.drop content.length)
    return (String.ofList content, rest)

/-- A number of at most eight bits. -/
def number (cs : List Char) : Result (Nat × List Char) := do
  let (n, rest) ← ctx.name cs
  match byteOfDigits? n.toList with
  | some v => return (v, rest)
  | none => .error (.typeText (.expectedNumber n))

/-- The parameters of a decimal, in parentheses. -/
def decimalParameters (cs : List Char) : Result (DataType × List Char) :=
  match optional '(' cs with
  | (false, r) => .ok (.decimal maxPrecision 9, r)
  | (true, r) => do
    let (precision, r) ← ctx.number r
    let r ← ctx.expect ',' r
    let (scale, r) ← ctx.number r
    let r ← ctx.expect ')' r
    return (.decimal precision scale, r)

/-- The zone of a timestamp, in parentheses. -/
def timestampParameters (cs : List Char) : Result (DataType × List Char) :=
  match optional '(' cs with
  | (false, r) => .ok (.timestamp none, r)
  | (true, r) => do
    let (zone, r) ← ctx.quoted r
    let r ← ctx.expect ')' r
    return (.timestamp (some zone), r)

/-- The unit of an interval, in parentheses. -/
def intervalParameters (cs : List Char) : Result (DataType × List Char) :=
  match optional '(' cs with
  | (false, r) => .ok (.interval .second, r)
  | (true, r) => do
    let (u, r) ← ctx.quoted r
    match IntervalUnit.ofText? u with
    | none => .error (.typeText (.unknownUnit u))
    | some u => do
      let r ← ctx.expect ')' r
      return (.interval u, r)

mutual

/-- A type with all its parts. Every level of nesting uses up a name, so the number of characters
is enough fuel. -/
def type (ctx : ReaderContext) (fuel : Nat) (cs : List Char) : Result (DataType × List Char) := do
  match fuel with
  | 0 => .error (.typeText (.expectedName (ctx.position cs) ctx.text))
  | fuel + 1 =>
    let (marked, cs) := optional '!' cs
    let (name, cs) ← ctx.name cs
    let (t, cs) ← ctx.parameters fuel (name.map Char.toLower) cs
    return (t.withNullable !marked, cs)

/-- The type of a name, with its parameters. -/
def parameters (ctx : ReaderContext) (fuel : Nat) (name : String) (cs : List Char) :
    Result (DataType × List Char) := do
  match name with
  | "decimal" => ctx.decimalParameters cs
  | "timestamp" => ctx.timestampParameters cs
  | "interval" => ctx.intervalParameters cs
  | "array" => do
    let cs ← ctx.expect '<' cs
    let (element, cs) ← ctx.type fuel cs
    let cs ← ctx.expect '>' cs
    return (.list element true, cs)
  | "map" => do
    let cs ← ctx.expect '<' cs
    let (key, cs) ← ctx.type fuel cs
    let cs ← ctx.expect ',' cs
    let (value, cs) ← ctx.type fuel cs
    let cs ← ctx.expect '>' cs
    return (.map key value true, cs)
  | "struct" => do
    let cs ← ctx.expect '<' cs
    let (fields, cs) ← ctx.fields fuel cs
    let cs ← ctx.expect '>' cs
    return (.struct fields true, cs)
  | name =>
    match simpleNamed? name with
    | some t => return (t, cs)
    | none => .error (.typeText (.unknownName name))

/-- One or more named types between commas. -/
def fields (ctx : ReaderContext) (fuel : Nat) (cs : List Char) :
    Result (List (String × DataType) × List Char) := do
  match fuel with
  | 0 => .error (.typeText (.expectedName (ctx.position cs) ctx.text))
  | fuel + 1 =>
    let (name, cs) ← ctx.name cs
    let cs ← ctx.expect ':' cs
    let (t, cs) ← ctx.type fuel cs
    match optional ',' cs with
    | (true, cs) => do
      let (rest, cs) ← ctx.fields fuel cs
      return ((name, t) :: rest, cs)
    | (false, cs) => return ([(name, t)], cs)

end

end ReaderContext

/-- The type that a text describes. -/
def ofText (text : String) : Result DataType := do
  let cs := text.toList
  let (t, rest) ← ReaderContext.type ⟨text⟩ (2 * cs.length + 2) cs
  match skipBlanks rest with
  | [] => return t
  | rest => .error (.typeText (.trailingInput (String.ofList rest)))

end DataType

namespace IntervalUnit

/-- The unit that a text names. -/
def ofText (s : String) : Result IntervalUnit :=
  match ofText? s with
  | some u => .ok u
  | none => .error (.typeText (.unknownUnit s))

end IntervalUnit

end TableQuery
