import TableQuery.Proofs.DataType.Room
import TableQuery.Proofs.Result
import TableQuery.Source

/-! # The types of columns of any values

The type of a column of any values is the common type of its values, taken from the first to the
last (`inferType_object_eq_ok_iff`). It depends on their order in the precision of decimals that
stand where some values have integers, and in nothing else (`NativeColumn.inferType_of_perm`): the
digits of an integer are counted at the scale that the type has by then, and are not counted again
when the scale grows. The type may then be too narrow for the integer. -/

namespace TableQuery

namespace Scalar

mutual

/-- All decimals in the value have the greatest precision at most. -/
def fitsPrecision : Scalar → Bool
  | .decimal d => d.precision ≤ maxPrecision
  | .list values => allFitPrecision values
  | .struct fields => fieldsFitPrecision fields
  | _ => true

def allFitPrecision : List Scalar → Bool
  | [] => true
  | v :: r => fitsPrecision v && allFitPrecision r

def fieldsFitPrecision : List (String × Scalar) → Bool
  | [] => true
  | (_, v) :: r => fitsPrecision v && fieldsFitPrecision r

end

theorem fitsPrecision_supertypeOfAll? {ts : List DataType} {t : DataType}
    (hts : ∀ u ∈ ts, u.fitsPrecision = true) (h : DataType.supertypeOfAll? ts = some t) :
    t.fitsPrecision = true := by
  cases ts with
  | nil =>
    cases h
    rfl
  | cons u ts =>
    obtain ⟨hu, hts⟩ := List.forall_mem_cons.mp hts
    exact DataType.fitsPrecision_foldlM hu hts h

mutual

/-- The type of a value has room for the precisions in it. -/
theorem fitsPrecision_dataType : ∀ v : Scalar, v.fitsPrecision = true →
    v.dataType.fitsPrecision = true
  | .decimal d, h => h
  | .list values, h => by
    rw [fitsPrecision] at h
    rw [dataType, DataType.fitsPrecision]
    cases hsuper : DataType.supertypeOfAll? (dataTypes values) with
    | none => rfl
    | some t => exact fitsPrecision_supertypeOfAll? (fitsPrecision_dataTypes values h) hsuper
  | .struct fields, h => by
    rw [fitsPrecision] at h
    rw [dataType, DataType.fitsPrecision]
    exact allFitPrecision_fieldTypes fields h
  | .null, _ | .boolean _, _ | .int _ _, _ | .float _ _, _ | .utf8 _, _ | .binary _, _
  | .date _, _ | .time _, _ | .timestamp _ _, _ | .interval _, _ => rfl

theorem fitsPrecision_dataTypes : ∀ values : List Scalar, allFitPrecision values = true →
    ∀ t ∈ dataTypes values, t.fitsPrecision = true
  | [], _ => List.forall_mem_nil _
  | v :: r, h => by
    rw [allFitPrecision, Bool.and_eq_true] at h
    exact List.forall_mem_cons.mpr ⟨fitsPrecision_dataType v h.1, fitsPrecision_dataTypes r h.2⟩

theorem allFitPrecision_fieldTypes : ∀ fields : List (String × Scalar),
    fieldsFitPrecision fields = true → DataType.allFitPrecision (fieldTypes fields) = true
  | [], _ => rfl
  | (x, v) :: r, h => by
    rw [fieldsFitPrecision, Bool.and_eq_true] at h
    rw [fieldTypes, DataType.allFitPrecision, Bool.and_eq_true]
    exact ⟨fitsPrecision_dataType v h.1, allFitPrecision_fieldTypes r h.2⟩

end

/-- Only the type of null is nullable. -/
theorem isNull_of_nullable_dataType {v : Scalar} (h : v.dataType.nullable = true) :
    v.isNull = true := by
  cases v <;> first | rfl | cases h

end Scalar

namespace NativeColumn

variable {name : String} {values others : List Scalar} {nonNull : Bool} {t : DataType}

/-- The rows only matter to the error. -/
theorem foldlM_inferStep_eq_ok_iff {a : DataType} {k : Nat} :
    (values.zipIdx k).foldlM (inferStep name) a = .ok t ↔
      (values.map Scalar.dataType).foldlM DataType.supertype? a = some t := by
  induction values generalizing a k with
  | nil => simp [pure, Except.pure]
  | cons v values ih =>
    rw [List.zipIdx_cons, List.foldlM_cons, List.map_cons, List.foldlM_cons]
    cases hstep : a.supertype? v.dataType with
    | none => simp [inferStep, hstep]
    | some b => simpa [inferStep, hstep] using ih

/-- Whether a column of these values may hold nulls. -/
def mayHoldNulls (nonNull : Bool) (values : List Scalar) : Bool :=
  !nonNull || 0 < values.countP Scalar.isNull

theorem inferType_object_eq_ok_iff :
    inferType ⟨name, .object values, nonNull⟩ = .ok t ↔
      ∃ u, (values.map Scalar.dataType).foldlM DataType.supertype? .null = some u ∧
        u.withNullable (mayHoldNulls nonNull values) = t := by
  rw [inferType, Result.map_eq_ok_iff]
  exact exists_congr fun u => and_congr_left' foldlM_inferStep_eq_ok_iff

theorem mayHoldNulls_of_mem {v : Scalar} (hv : v ∈ values) (h : v.dataType.nullable = true) :
    mayHoldNulls nonNull values = true := by
  have hcount : 0 < values.countP Scalar.isNull :=
    List.countP_pos_iff.mpr ⟨v, hv, Scalar.isNull_of_nullable_dataType h⟩
  simp [mayHoldNulls, hcount]

theorem mayHoldNulls_perm (h : values.Perm others) :
    mayHoldNulls nonNull others = mayHoldNulls nonNull values := by
  rw [mayHoldNulls, mayHoldNulls, h.countP_eq]

/-- **The inferred type depends on the order of the values only in the precision of decimals** that
stand where some values have integers. Once there is room for these, every order gives the same
type, and unifying it with the type of any of the values gives it again. -/
theorem inferType_of_perm (hfits : ∀ v ∈ values, v.fitsPrecision = true)
    (hperm : values.Perm others) (h : inferType ⟨name, .object values, nonNull⟩ = .ok t) :
    (∃ u, inferType ⟨name, .object others, nonNull⟩ = .ok u ∧
      u.withRoomForAll (values.map Scalar.dataType) =
        t.withRoomForAll (values.map Scalar.dataType)) ∧
    ∀ v ∈ values, ∃ u, t.supertype? v.dataType = some u ∧
      u.withRoomForAll (values.map Scalar.dataType) =
        t.withRoomForAll (values.map Scalar.dataType) := by
  have htypes : ∀ u ∈ values.map Scalar.dataType, u.fitsPrecision = true :=
    List.forall_mem_map.mpr fun v hv => v.fitsPrecision_dataType (hfits v hv)
  obtain ⟨c, hc, rfl⟩ := inferType_object_eq_ok_iff.mp h
  constructor
  · obtain ⟨d, hd, hdc⟩ := DataType.exists_foldlM_of_perm htypes (hperm.map _) hc
    refine ⟨_, inferType_object_eq_ok_iff.mpr ⟨d, hd, rfl⟩, ?_⟩
    rw [mayHoldNulls_perm hperm, DataType.withNullable_withRoomForAll,
      DataType.withNullable_withRoomForAll, hdc]
  · intro v hv
    obtain ⟨-, hcovers⟩ := DataType.covers_of_foldlM rfl htypes (fun b => DataType.roomy_null _)
      (fun _ hu => hu) hc
    apply DataType.exists_supertype?_of_covers_withRoomForAll
    rw [DataType.withNullable_withRoomForAll]
    refine (hcovers _ (List.mem_map_of_mem hv)).withNullable fun hnull => ?_
    rw [DataType.nullable_withRoomForAll] at hnull
    exact mayHoldNulls_of_mem hv hnull

/-- A column whose decimals get more places behind the point after its integer. -/
theorem inferType_of_perm_decimals :
    let values : List Scalar := [.int .int8 ⟨100, by decide, by decide⟩,
      .decimal ⟨⟨15, by decide, by decide⟩, 1⟩, .null, .decimal ⟨⟨12345, by decide, by decide⟩, 4⟩]
    inferType ⟨"x", .object values, true⟩ = .ok (.base (.decimal 5 4) true) ∧
      (∃ u, inferType ⟨"x", .object values.reverse, true⟩ = .ok u ∧
        u.withRoomForAll (values.map Scalar.dataType) = .base (.decimal maxPrecision 4) true) ∧
      ∃ u, DataType.supertype? (.base (.decimal 5 4) true) (.base (.int .int8) false) = some u ∧
        u.withRoomForAll (values.map Scalar.dataType) = .base (.decimal maxPrecision 4) true := by
  intro values
  have hfits : ∀ v ∈ values, v.fitsPrecision = true := by decide +kernel
  have htype : inferType ⟨"x", .object values, true⟩ = .ok (.base (.decimal 5 4) true) :=
    inferType_object_eq_ok_iff.mpr ⟨_, rfl, rfl⟩
  have hroom : (DataType.base (.decimal 5 4) true).withRoomForAll (values.map Scalar.dataType) =
      .base (.decimal maxPrecision 4) true := rfl
  obtain ⟨hperm, hcovers⟩ := inferType_of_perm hfits values.reverse_perm.symm htype
  rw [hroom] at hperm hcovers
  exact ⟨htype, hperm, hcovers _ List.mem_cons_self⟩

/-- **A type too narrow for an integer**: whether `100` is counted at one place behind the point or
at four depends on the order, and `decimal(5, 4)` covers no 8-bit integer. -/
theorem not_inferType_of_perm :
    (¬ ∀ (name : String) (values others : List Scalar) (nonNull : Bool) (t : DataType),
      (∀ v ∈ values, v.fitsPrecision = true) → values.Perm others →
      inferType ⟨name, .object values, nonNull⟩ = .ok t →
      inferType ⟨name, .object others, nonNull⟩ = .ok t) ∧
    ¬ ∀ (name : String) (values : List Scalar) (nonNull : Bool) (t : DataType),
      (∀ v ∈ values, v.fitsPrecision = true) →
      inferType ⟨name, .object values, nonNull⟩ = .ok t →
      ∀ v ∈ values, ∃ u, t.supertype? v.dataType = some u ∧ u.sameKind t = true := by
  let short : Scalar := .decimal ⟨⟨15, by decide, by decide⟩, 1⟩
  let long : Scalar := .decimal ⟨⟨12345, by decide, by decide⟩, 4⟩
  let int : Scalar := .int .int8 ⟨100, by decide, by decide⟩
  have hfits : ∀ v ∈ [int, short, long], v.fitsPrecision = true := by decide +kernel
  have htype : inferType ⟨"x", .object [int, short, long], false⟩ =
      .ok (.base (.decimal 5 4) true) := inferType_object_eq_ok_iff.mpr ⟨_, rfl, rfl⟩
  have hothers : inferType ⟨"x", .object [short, long, int], false⟩ =
      .ok (.base (.decimal 7 4) true) := inferType_object_eq_ok_iff.mpr ⟨_, rfl, rfl⟩
  constructor
  · intro h
    have hperm : [int, short, long].Perm [short, long, int] :=
      (List.perm_append_singleton int [short, long]).symm
    have hsame := h _ _ _ _ _ hfits hperm htype
    rw [hothers] at hsame
    cases hsame
  · intro h
    obtain ⟨u, hu, hkind⟩ := h _ _ _ _ hfits htype int List.mem_cons_self
    have hu' : u = .base (.decimal 7 4) true := (Option.some.inj hu).symm
    rw [hu'] at hkind
    exact absurd hkind (by decide)

end NativeColumn

end TableQuery
