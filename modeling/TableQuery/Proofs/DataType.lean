import TableQuery.DataType.Supertype

/-! # Nullability and comparability of types

The common supertype of two types does not depend on their order (`supertype?_comm`), and so neither
does whether their values can be compared. -/

namespace TableQuery

namespace IntType

theorem join_comm (s t : IntType) : s.join t = t.join s := by cases s <;> cases t <;> rfl

end IntType

namespace IntervalUnit

theorem finest_comm (u w : IntervalUnit) : u.finest w = w.finest u := by
  cases u <;> cases w <;> rfl

end IntervalUnit

namespace BaseType

theorem supertype?_comm (a b : BaseType) : a.supertype? b = b.supertype? a := by
  cases a <;> cases b <;> first | rfl | skip
  all_goals simp only [supertype?, IntType.join_comm, IntervalUnit.finest_comm, Nat.max_comm]
  all_goals
    split
    · rename_i h
      rw [if_pos h.symm, h]
    · rename_i h
      rw [if_neg (Ne.symm h)]

end BaseType

namespace DataType

/-- Only the null type is nullable against its flag. -/
theorem eq_false_of_nullable_withNullable {t : DataType} {n : Bool}
    (h : (t.withNullable n).nullable = false) : n = false := by
  cases t <;> first | exact h | cases h

/-! ### Comparable types -/

mutual

/-- **The common supertype does not depend on the order** of the two types. -/
theorem supertype?_comm : ∀ a b : DataType, a.supertype? b = b.supertype? a
  | .null, b => by cases b <;> rfl
  | .base s m, b => by
    cases b with
    | base t n => rw [supertype?, supertype?, BaseType.supertype?_comm, Bool.or_comm]
    | _ => rfl
  | .list s m, b => by
    cases b with
    | list t n => rw [supertype?, supertype?, supertype?_comm s t, Bool.or_comm]
    | _ => rfl
  | .struct s m, b => by
    cases b with
    | struct t n => rw [supertype?, supertype?, supertypeFields?_comm s t, Bool.or_comm]
    | _ => rfl
  | .map k v m, b => by
    cases b with
    | map l w n =>
      rw [supertype?, supertype?, supertype?_comm k l, supertype?_comm v w, Bool.or_comm]
    | _ => rfl

theorem supertypeFields?_comm : ∀ a b : List (String × DataType),
    supertypeFields? a b = supertypeFields? b a
  | [], [] | [], _ :: _ | _ :: _, [] => rfl
  | (x, t) :: r, (y, u) :: s => by
    rw [supertypeFields?, supertypeFields?]
    by_cases hxy : x = y
    · rw [if_pos hxy, if_pos hxy.symm, supertype?_comm t u, supertypeFields?_comm r s, hxy]
    · rw [if_neg hxy, if_neg (Ne.symm hxy)]

end

/-- **Types compare both ways.** -/
theorem isComparable_comm (a b : DataType) : a.isComparable b = b.isComparable a := by
  unfold isComparable
  rw [supertype?_comm a b, Bool.or_comm a.isNull, Bool.and_comm a.isTimestamp]

end DataType

end TableQuery
