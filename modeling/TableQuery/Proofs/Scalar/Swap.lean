import TableQuery.Proofs.Number.Ordered
import TableQuery.Proofs.Scalar.Equality

/-! # Comparisons with exchanged operands

Exchanging two values turns their order round, and leaves values without an order without one
(`Scalar.compare?_swap`). Every pair of numbers is compared as integers or as 64-bit values,
whatever side each is on, and lists at the first elements that differ, which is one place seen from
both sides. The main statement, `Scalar.compareBy_flip`, is that a comparison is the flipped one of
the exchanged operands. -/

namespace TableQuery

/-! ### Texts, bytes and missing values -/

theorem compareText_swap (a b : String) : compareText b a = (compareText a b).swap := by
  have h : Ord.compare b a = (Ord.compare a b).swap := Std.OrientedCmp.eq_swap
  exact h

theorem compareBytes_swap : ∀ a b : List UInt8, compareBytes b a = (compareBytes a b).swap
  | [], [] | [], _ :: _ | _ :: _, [] => rfl
  | x :: r, y :: s => by
    have hhead : Ord.compare y.toNat x.toNat = (Ord.compare x.toNat y.toNat).swap :=
      Std.OrientedCmp.eq_swap
    rw [compareBytes, compareBytes, Ordering.swap_then, hhead, compareBytes_swap r s]

/-- What two values are compared by may be missing on either side. -/
theorem bind_bind_swap {α : Type} {cmp : α → α → Option Ordering}
    (h : ∀ m n, cmp n m = (cmp m n).map Ordering.swap) (x y : Option α) :
    (y.bind fun n => x.bind fun m => cmp n m) =
      (x.bind fun m => y.bind fun n => cmp m n).map Ordering.swap := by
  cases x with
  | none => cases y <;> rfl
  | some m =>
    cases y with
    | none => rfl
    | some n => exact h m n

namespace Scalar

/-! ### Values that are no lists -/

theorem compare?_eq_none_of_kind_ne {a b : Scalar} (h : a.kind ≠ b.kind) : a.compare? b = none :=
  Option.eq_none_iff_forall_ne_some.mpr fun _ ho => h (kind_eq_of_compare? ho)

theorem compare?_swap_of_number {a b : Scalar} (ha : a.kind = .number) (hb : b.kind = .number) :
    b.compare? a = (a.compare? b).map Ordering.swap := by
  by_cases hint : a.int? = none ∨ b.int? = none
  · rw [compare?_of_number ha hb hint, compare?_of_number hb ha hint.symm]
    exact bind_bind_swap FloatValue.compare?_swap _ _
  · cases a with
    | int s v =>
      cases b with
      | int t w =>
        rw [compare?, compare?]
        exact congrArg some Std.OrientedCmp.eq_swap
      | float t w | decimal e => exact absurd (.inr rfl) hint
      | _ => cases hb
    | float s v | decimal d => exact absurd (.inl rfl) hint
    | _ => cases ha

theorem compare?_swap_of_kind_ne_list {a b : Scalar} (ha : a.kind ≠ .list) :
    b.compare? a = (a.compare? b).map Ordering.swap := by
  by_cases hk : a.kind = b.kind
  · cases a with
    | int t v | float t v | decimal d => exact compare?_swap_of_number rfl hk.symm
    | list xs => exact absurd rfl ha
    | null | struct fs =>
      cases b <;> cases hk
      simp [compare?, double?]
    | utf8 x =>
      cases b <;> cases hk
      rw [compare?, compare?]
      exact congrArg some (compareText_swap _ _)
    | binary x =>
      cases b <;> cases hk
      rw [compare?, compare?]
      exact congrArg some (compareBytes_swap _ _)
    | interval x =>
      cases b <;> cases hk
      have hswap : ∀ m n : Int64Value, some (Ord.compare n.val m.val) =
          (some (Ord.compare m.val n.val)).map Ordering.swap := fun _ _ =>
        congrArg some Std.OrientedCmp.eq_swap
      rw [compare?, compare?]
      exact bind_bind_swap hswap _ _
    | boolean x | date x | time x | timestamp x zone =>
      cases b <;> cases hk
      rw [compare?, compare?]
      exact congrArg some Std.OrientedCmp.eq_swap
  · rw [compare?_eq_none_of_kind_ne hk, compare?_eq_none_of_kind_ne (Ne.symm hk)]
    rfl

/-! ### All values -/

mutual

/-- **Exchanging two values turns their order round.** -/
theorem compare?_swap : ∀ a b : Scalar, b.compare? a = (a.compare? b).map Ordering.swap
  | .list xs, b => by
    cases b with
    | list ys =>
      rw [compare?, compare?]
      exact compareAll?_swap xs ys
    | _ =>
      rw [compare?_eq_none_of_kind_ne (by simp [kind]),
        compare?_eq_none_of_kind_ne (by simp [kind])]
      rfl
  | .null, _ | .boolean _, _ | .int _ _, _ | .float _ _, _ | .decimal _, _ | .utf8 _, _
  | .binary _, _ | .date _, _ | .time _, _ | .timestamp _ _, _ | .interval _, _ | .struct _, _ =>
    compare?_swap_of_kind_ne_list (by simp [kind])

theorem compareAll?_swap : ∀ xs ys : List Scalar,
    compareAll? ys xs = (compareAll? xs ys).map Ordering.swap
  | [], [] | [], _ :: _ | _ :: _, [] => rfl
  | x :: r, y :: s => by
    rw [compareAll?, compareAll?, compare?_swap x y]
    cases x.compare? y with
    | none => rfl
    | some o =>
      cases o with
      | eq => exact compareAll?_swap r s
      | lt | gt => rfl

end

theorem compare?_eq_symm {a b : Scalar} (h : a.compare? b = some .eq) :
    b.compare? a = some .eq := by
  rw [compare?_swap, h]
  rfl

theorem compareBy_eq_true_comm {a b : Scalar} :
    a.compareBy .eq b = .boolean true ↔ b.compareBy .eq a = .boolean true := by
  rw [compareBy_eq_true_iff, compareBy_eq_true_iff]
  exact ⟨compare?_eq_symm, compare?_eq_symm⟩

/-- **Exchanged operands**: the order of two values is the reverse of that of the exchanged ones,
with none for none, and every comparison operator gives what the flipped one gives of the exchanged
values. -/
theorem compareBy_flip :
    (∀ a b : Scalar, b.compare? a = (a.compare? b).map Ordering.swap) ∧
      ∀ (op : CompareOp) (a b : Scalar), a.compareBy op b = b.compareBy op.flip a := by
  refine ⟨compare?_swap, fun op a b => ?_⟩
  rw [compareBy, compareBy, compare?_swap a b]
  cases a.compare? b with
  | none => rfl
  | some o => exact congrArg boolean (op.holds_flip_swap o).symm

end Scalar

end TableQuery
