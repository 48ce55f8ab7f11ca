import TableQuery.Scalar.Access

/-! # Settings

The settings of a session. Each has a name under which it is read, changed and put back to its
default; unknown names are errors. -/

namespace TableQuery

/-- The settings of a session. -/
structure Config where
  /-- The most rows that a result without a limit of its own has; none stands for no bound. -/
  defaultLimit : Option (IntType.Value .uint64)
  /-- Whether every query is reported. -/
  verbose : Bool
  /-- What is appended to right names that also occur on the left of a join; not empty. -/
  joinSuffix : String

/-- A setting by name. -/
inductive Setting where
  | joinSuffix
  | defaultLimit
  | verbose
  deriving DecidableEq

namespace Setting

/-- All settings in the order of their names. -/
def all : List Setting := [joinSuffix, defaultLimit, verbose]

def name : Setting → String
  | joinSuffix => "join_suffix"
  | defaultLimit => "sql.default_limit"
  | verbose => "verbose"

def description : Setting → String
  | joinSuffix => "Suffix appended to colliding right-side join columns"
  | defaultLimit =>
    "Rows returned by table results without an explicit limit, NULL for unbounded"
  | verbose => "Report every query sent to the adapter"

/-- The setting of a name. -/
def ofName (name : String) : Result Setting :=
  match all.find? (·.name = name) with
  | some s => .ok s
  | none => .error (.config (.unknownSetting name))

end Setting

namespace Config

/-- No bound on rows, no reports, and the suffix `_right`. -/
def standard : Config := ⟨none, false, "_right"⟩

/-- The value of a setting. -/
def value (c : Config) : Setting → Scalar
  | .joinSuffix => .utf8 c.joinSuffix
  | .defaultLimit =>
    match c.defaultLimit with
    | some n => .int .uint64 n
    | none => .null
  | .verbose => .boolean c.verbose

/-- The settings with one changed. -/
def withValue (c : Config) (setting : Setting) (v : Scalar) : Result Config :=
  match setting with
  | .joinSuffix => do
    let s ← v.asText
    if s.isEmpty then .error (.config .emptyJoinSuffix) else return { c with joinSuffix := s }
  | .defaultLimit => do
    let limit ← if v.isNull then .ok none else v.asUInt64.map some
    return { c with defaultLimit := limit }
  | .verbose => do
    let b ← v.asBool
    return { c with verbose := b }

/-- The value of the setting of a name. -/
def get (c : Config) (name : String) : Result Scalar := (Setting.ofName name).map c.value

/-- The settings with the one of a name changed. -/
def set (c : Config) (name : String) (v : Scalar) : Result Config := do
  c.withValue (← Setting.ofName name) v

/-- The settings with the one of a name put back to its default. -/
def reset (c : Config) (name : String) : Result Config := do
  let s ← Setting.ofName name
  c.withValue s (standard.value s)

end Config

end TableQuery
