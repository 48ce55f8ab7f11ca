import TableQuery.Scalar.Basic

/-! # Keys

The form of a value that grouping, joins and distinct counting compare. Numbers that are equal get
one key whatever their width: whole numbers the key of an integer, decimals without trailing zeros
behind the point. Intervals of fixed length get the key of their nanoseconds. Keys have decidable
equality (`instDecidableEqKey`). -/

namespace TableQuery

-- Powers are those of the core library, also where other instances are in scope.
attribute [local instance (2000)] instPowNat

/-- A value brought to a form that equality is taken of. -/
inductive Key where
  | null
  | boolean (b : Bool)
  | int (v : Int)
  /-- A number with a fraction, or beyond 64 bits, as the bit pattern of its 64-bit form. -/
  | float (bits : FloatType.Value .float64)
  /-- A decimal with a last digit behind the point that is not zero. -/
  | decimal (unscaled : Int) (scale : Nat)
  | utf8 (s : String)
  | binary (bytes : List UInt8)
  | date (d : Date)
  | time (t : TimeOfDay)
  | timestamp (t : Timestamp)
  | interval (count : Int) (unit : IntervalUnit)
  | list (keys : List Key)
  | struct (fields : List (String × Key))

namespace Key

mutual

def beq : Key → Key → Bool
  | .null, .null => true
  | .boolean a, .boolean b => a == b
  | .int a, .int b => a == b
  | .float a, .float b => a == b
  | .decimal a s, .decimal b t => a == b && s == t
  | .utf8 a, .utf8 b => a == b
  | .binary a, .binary b => a == b
  | .date a, .date b => a == b
  | .time a, .time b => a == b
  | .timestamp a, .timestamp b => a == b
  | .interval a u, .interval b w => a == b && u == w
  | .list a, .list b => beqAll a b
  | .struct a, .struct b => beqFields a b
  | _, _ => false

def beqAll : List Key → List Key → Bool
  | [], [] => true
  | a :: r, b :: s => beq a b && beqAll r s
  | _, _ => false

def beqFields : List (String × Key) → List (String × Key) → Bool
  | [], [] => true
  | (x, a) :: r, (y, b) :: s => x == y && beq a b && beqFields r s
  | _, _ => false

end

mutual

theorem eq_of_beq : ∀ {a b : Key}, beq a b = true → a = b
  | .list ks, b, h => by
    cases b <;> simp only [beq, Bool.false_eq_true] at h
    rw [eq_of_beqAll h]
  | .struct fs, b, h => by
    cases b <;> simp only [beq, Bool.false_eq_true] at h
    rw [eq_of_beqFields h]
  | .null, b, h => by cases b <;> simp_all [beq]
  | .boolean _, b, h => by cases b <;> simp_all [beq]
  | .int _, b, h => by cases b <;> simp_all [beq]
  | .float _, b, h => by cases b <;> simp_all [beq]
  | .decimal _ _, b, h => by cases b <;> simp_all [beq]
  | .utf8 _, b, h => by cases b <;> simp_all [beq]
  | .binary _, b, h => by cases b <;> simp_all [beq]
  | .date _, b, h => by cases b <;> simp_all [beq]
  | .time _, b, h => by cases b <;> simp_all [beq]
  | .timestamp _, b, h => by cases b <;> simp_all [beq]
  | .interval _ _, b, h => by cases b <;> simp_all [beq]

theorem eq_of_beqAll : ∀ {a b : List Key}, beqAll a b = true → a = b
  | [], b, h => by cases b <;> simp_all [beqAll]
  | a :: r, b, h => by
    cases b <;> simp only [beqAll, Bool.and_eq_true, Bool.false_eq_true] at h
    rw [eq_of_beq h.1, eq_of_beqAll h.2]

theorem eq_of_beqFields : ∀ {a b : List (String × Key)}, beqFields a b = true → a = b
  | [], b, h => by cases b <;> simp_all [beqFields]
  | (x, a) :: r, b, h => by
    cases b <;> simp only [beqFields, Bool.and_eq_true, beq_iff_eq, Bool.false_eq_true] at h
    rw [h.1.1, eq_of_beq h.1.2, eq_of_beqFields h.2]

end

mutual

theorem beq_refl : ∀ a : Key, beq a a = true
  | .list ks => by simp [beq, beqAll_refl ks]
  | .struct fs => by simp [beq, beqFields_refl fs]
  | .null => by simp [beq]
  | .boolean _ => by simp [beq]
  | .int _ => by simp [beq]
  | .float _ => by simp [beq]
  | .decimal _ _ => by simp [beq]
  | .utf8 _ => by simp [beq]
  | .binary _ => by simp [beq]
  | .date _ => by simp [beq]
  | .time _ => by simp [beq]
  | .timestamp _ => by simp [beq]
  | .interval _ _ => by simp [beq]

theorem beqAll_refl : ∀ a : List Key, beqAll a a = true
  | [] => by simp [beqAll]
  | a :: r => by simp [beqAll, beq_refl a, beqAll_refl r]

theorem beqFields_refl : ∀ a : List (String × Key), beqFields a a = true
  | [] => by simp [beqFields]
  | (x, a) :: r => by simp [beqFields, beq_refl a, beqFields_refl r]

end

instance : DecidableEq Key := fun a b =>
  if h : beq a b = true then isTrue (eq_of_beq h)
  else isFalse fun e => h (e ▸ beq_refl a)

def isNull : Key → Bool
  | null => true
  | _ => false

/-- Whole numbers below `2 ^ 63` in magnitude have the key of an integer; NaN has one key. -/
def ofDouble : FloatValue → Key
  | .finite s n =>
    let unit := 2 ^ double.unitPlaces
    if n % unit = 0 ∧ n / unit < 9223372036854775808 then int (FloatValue.signedUnits s (n / unit))
    else float (FloatType.float64.encode (.finite s n))
  | x => float (FloatType.float64.encode x)

/-- The key of `unscaled / 10 ^ scale`: zeros at the end of the fraction are dropped. -/
def ofDecimal (unscaled : Int) : Nat → Key
  | 0 => int unscaled
  | scale + 1 =>
    if unscaled % 10 = 0 then ofDecimal (unscaled / 10) scale else decimal unscaled (scale + 1)

end Key

namespace Scalar

mutual

/-- The key of a value. -/
def key : Scalar → Key
  | .null => .null
  | .boolean b => .boolean b
  | .int _ v => .int v.val
  | .float t v => .ofDouble (t.toDouble v)
  | .decimal d => .ofDecimal d.unscaled.val d.scale
  | .utf8 s => .utf8 s
  | .binary bytes => .binary bytes
  | .date d => .date d
  | .time t => .time t
  | .timestamp t _ => .timestamp t
  | .interval iv =>
    match iv.nanos? with
    | some n => .interval n.val .nanosecond
    | none => .interval iv.count.val iv.unit
  | .list values => .list (keys values)
  | .struct fields => .struct (fieldKeys fields)

def keys : List Scalar → List Key
  | [] => []
  | v :: r => key v :: keys r

def fieldKeys : List (String × Scalar) → List (String × Key)
  | [] => []
  | (name, v) :: r => (name, key v) :: fieldKeys r

end

end Scalar

end TableQuery
