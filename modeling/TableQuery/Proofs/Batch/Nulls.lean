import Mathlib.Data.List.Forall2
import TableQuery.Batch

/-! # Nulls in rows

A type that is not nullable promises that its column holds no null. `Row.NullsAdmitted` says that a
row keeps the promises of its columns. -/

namespace TableQuery

namespace Row

/-- **Nulls stand only where the types admit them.** A value that is missing counts as null. -/
def NullsAdmitted (types : List DataType) (row : Row) : Prop :=
  ∀ i t, types[i]? = some t → t.nullable = false → row.getD i .null ≠ .null

@[simp] theorem nullsAdmitted_nil (row : Row) : NullsAdmitted [] row := by
  intro i t h
  simp at h

@[simp] theorem nullsAdmitted_cons {t : DataType} {types : List DataType} {v : Scalar} {row : Row} :
    NullsAdmitted (t :: types) (v :: row) ↔
      (t.nullable = false → v ≠ .null) ∧ NullsAdmitted types row := by
  constructor
  · exact fun h => ⟨h 0 t rfl, fun i u hu => h (i + 1) u hu⟩
  · rintro ⟨hv, hrow⟩ i u hu hn
    cases i with
    | zero =>
      cases hu
      exact hv hn
    | succ i => exact hrow i u hu hn

end Row

end TableQuery
