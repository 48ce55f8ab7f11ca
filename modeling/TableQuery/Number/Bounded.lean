/-! # Integers within bounds

`Bounded lo hi` holds the integers from `lo` to `hi`. Arithmetic is done on plain integers and
the result is put back with `ofInt?`, which answers only when it fits: nothing wraps. The main
statements say that `ofInt?` accepts exactly the integers within the bounds and keeps their value.
-/

namespace TableQuery

/-- An integer between `lo` and `hi`, both included. -/
structure Bounded (lo hi : Int) where
  val : Int
  lo_le : lo ≤ val
  le_hi : val ≤ hi
  deriving DecidableEq

namespace Bounded

variable {lo hi : Int}

@[ext] theorem ext {a b : Bounded lo hi} (h : a.val = b.val) : a = b := by
  cases a; cases b; simp_all

/-- The integer as a bounded one, if it is within the bounds. -/
def ofInt? (lo hi v : Int) : Option (Bounded lo hi) :=
  if h : lo ≤ v ∧ v ≤ hi then some ⟨v, h.1, h.2⟩ else none

theorem ofInt?_eq_some_iff {v : Int} {b : Bounded lo hi} :
    ofInt? lo hi v = some b ↔ b.val = v := by
  unfold ofInt?
  split
  · constructor
    · intro h; cases h; rfl
    · intro h; subst h; rfl
  · rename_i h
    constructor
    · intro h'; cases h'
    · intro h'; subst h'; exact absurd ⟨b.lo_le, b.le_hi⟩ h

theorem ofInt?_eq_none_iff {v : Int} : ofInt? lo hi v = none ↔ ¬(lo ≤ v ∧ v ≤ hi) := by
  unfold ofInt?; split <;> simp_all

@[simp] theorem ofInt?_val (b : Bounded lo hi) : ofInt? lo hi b.val = some b :=
  ofInt?_eq_some_iff.mpr rfl

/-- The nearest integer within the bounds. -/
def clamp (lo hi : Int) (h : lo ≤ hi) (v : Int) : Bounded lo hi :=
  ⟨max lo (min v hi), by omega, by omega⟩

end Bounded

/-- The lower end of the 128-bit signed integers, minus two to the 127th. -/
abbrev minInt128 : Int := -170141183460469231731687303715884105728

/-- The upper end of the 128-bit signed integers. -/
abbrev maxInt128 : Int := 170141183460469231731687303715884105727

/-- The 128-bit signed integers, in which decimals and integer arithmetic are computed. -/
abbrev Int128 := Bounded minInt128 maxInt128

namespace Int128

/-- The integer as a 128-bit one, if it fits. -/
abbrev ofInt? (v : Int) : Option Int128 := Bounded.ofInt? minInt128 maxInt128 v

end Int128

end TableQuery
