import Mathlib.Data.List.GetD
import Mathlib.Data.List.ProdSigma
import TableQuery.Proofs.Join.NestedLoop
import TableQuery.Proofs.Scalar.Rounding

/-! # A join on an equality and a filter

A join on the equality of two columns and a filter with the same equality over the product of its
sides are computed differently: the one compares keys, the other values. `compareBy_eq_iff_key_eq`
says where the two equalities are the same, and that the join then gives the rows of the filter. -/

namespace TableQuery

namespace Scalar

/-- Keys and comparison take the same view of two values: one of them is null, or comparison orders
the first one and their numbers are in ranges where rounding is safe. -/
def Joinable (a b : Scalar) : Prop :=
  a ≠ .null → b ≠ .null → a.ordered = true ∧ a.RoundingSafeIn b

theorem key_eq_null_iff {a : Scalar} : a.key = .null ↔ a = .null := by
  constructor
  · intro h
    have hkind := kind_key a
    rw [h] at hkind
    cases a <;> first | rfl | cases hkind
  · rintro rfl
    rfl

/-- Values that compare as equal are those of one key, unless this is the key of null. -/
theorem Joinable.isTrue_compareBy {a b : Scalar} (h : a.Joinable b) :
    RowExpr.isTrue (a.compareBy .eq b) = true ↔ a.key ≠ .null ∧ b.key ≠ .null ∧ a.key = b.key := by
  rw [isTrue_compareBy_eq_iff, Ne, Ne, key_eq_null_iff, key_eq_null_iff]
  by_cases ha : a = .null
  · subst ha
    cases b <;> simp [compare?, double?]
  · by_cases hb : b = .null
    · subst hb
      cases a <;> simp [compare?, double?]
    · obtain ⟨hord, hsafe⟩ := h ha hb
      rw [compare?_eq_iff hsafe]
      simp [ha, hb, hord]

end Scalar

namespace RowExpr

/-- Rows on which a predicate has a truth value are kept by it. -/
theorem keepRows_eq_filter {e : RowExpr} {p : Row → Bool} : ∀ {rows : List Row},
    (∀ row ∈ rows, e.holds row = .ok (p row)) → e.keepRows rows = .ok (rows.filter p)
  | [], _ => rfl
  | row :: rows, h => by
    rw [keepRows, h row (by simp), Result.ok_bind,
      keepRows_eq_filter fun row hrow => h row (List.mem_cons_of_mem _ hrow), List.filter_cons]
    cases p row <;> rfl

/-- The equality of two columns. -/
def equality (i k : Nat) (s t : DataType) : RowExpr :=
  .compare .eq (.column i s) (.column k t) (.base .boolean (s.nullable || t.nullable))

theorem equality_holds (i k : Nat) (s t : DataType) (row : Row) : (equality i k s t).holds row =
    .ok (isTrue ((row.getD i .null).compareBy .eq (row.getD k .null))) := rfl

end RowExpr

namespace RowJoin

variable {j : RowJoin}

/-- The pairs of rows whose values at two positions have one key, which is not that of null. -/
def keyPairs (i k : Nat) (left right : List Row) : List (Row × Row) :=
  (left.product right).filter fun p => (p.1.getD i .null).key ≠ .null ∧
    (p.2.getD k .null).key ≠ .null ∧ (p.1.getD i .null).key = (p.2.getD k .null).key

/-- An inner join on one column of each side pairs the rows of equal keys. -/
theorem nestedLoop_inner {i k : Nat} (hkind : j.kind = .inner) (hl : j.leftKeys = [i])
    (hr : j.rightKeys = [k]) (hres : j.residual = none) (left right : List Row) :
    j.nestedLoop left right = (keyPairs i k left right).map fun p => (some p.1, some p.2) := by
  have hmatch : ∀ l r, j.Matches l r ↔ (l.getD i .null).key ≠ .null ∧
      (r.getD k .null).key ≠ .null ∧ (l.getD i .null).key = (r.getD k .null).key := by
    intro l r
    simp [Matches, SameKeys, residualTrue, keysAt, hl, hr, hres, List.getD_eq_getElem?_getD,
      eq_comm (a := Key.null)]
  simp [nestedLoop, pairsOf, pairsOfUnmatched, matchesOf, hkind, hmatch, keyPairs, List.product,
    List.map_flatMap, List.filter_flatMap, List.filter_map, Function.comp_def]

/-- The equality of two columns keeps the same pairs of the product. -/
theorem keepRows_equality {i k width : Nat} (s t : DataType) {left right : List Row}
    (hi : i < width) (hwidth : ∀ l ∈ left, l.length = width)
    (h : ∀ l ∈ left, ∀ r ∈ right, (l.getD i .null).Joinable (r.getD k .null)) :
    (RowExpr.equality i (width + k) s t).keepRows
        ((left.product right).map fun p => p.1 ++ p.2) =
      .ok ((keyPairs i k left right).map fun p => p.1 ++ p.2) := by
  rw [RowExpr.keepRows_eq_filter fun row _ => RowExpr.equality_holds i (width + k) s t row,
    List.filter_map, keyPairs]
  congr 2
  refine List.filter_congr fun p hp => ?_
  obtain ⟨hpl, hpr⟩ := List.mem_product.mp hp
  have hleft : (p.1 ++ p.2).getD i .null = p.1.getD i .null :=
    List.getD_append _ _ _ _ (by rw [hwidth p.1 hpl]; exact hi)
  have hright : (p.1 ++ p.2).getD (width + k) .null = p.2.getD k .null := by
    rw [List.getD_append_right _ _ _ _ (by rw [hwidth p.1 hpl]; omega), hwidth p.1 hpl,
      Nat.add_sub_cancel_left]
  rw [Function.comp_apply, hleft, hright, Bool.eq_iff_iff, (h p.1 hpl p.2 hpr).isTrue_compareBy,
    decide_eq_true_iff]

end RowJoin

/-- **Keys and comparison agree on what is equal** wherever comparison orders the values and their
numbers are in ranges where rounding is safe. An inner join on an equality then gives the very pairs
of rows that a filter with this equality keeps of their product. -/
theorem compareBy_eq_iff_key_eq :
    (∀ a b : Scalar, a.RoundingSafeIn b →
      (a.compareBy .eq b = .boolean true ↔ a.key = b.key ∧ a.ordered = true)) ∧
    ∀ (j : RowJoin) (i k width : Nat) (s t : DataType) (left right : List Row),
      j.kind = .inner → j.leftKeys = [i] → j.rightKeys = [k] → j.residual = none →
      i < width → (∀ l ∈ left, l.length = width) →
      (∀ l ∈ left, ∀ r ∈ right, (l.getD i .null).Joinable (r.getD k .null)) →
      ∃ pairs : List (Row × Row),
        j.rows left right = .ok (pairs.map fun p => j.emit (some p.1) (some p.2)) ∧
        (RowExpr.equality i (width + k) s t).keepRows
            ((left.product right).map fun p => p.1 ++ p.2) =
          .ok (pairs.map fun p => p.1 ++ p.2) := by
  refine ⟨fun a b h => ?_, fun j i k width s t left right hkind hl hr hres hi hwidth h => ?_⟩
  · rw [Scalar.compareBy_eq_true_iff, Scalar.compare?_eq_iff h]
  · refine ⟨RowJoin.keyPairs i k left right, ?_, RowJoin.keepRows_equality s t hi hwidth h⟩
    have hdef : j.ResidualDefined left right := by
      intro e he
      rw [hres] at he
      cases he
    rw [RowJoin.rows_eq j hdef, RowJoin.nestedLoop_inner hkind hl hr hres, List.map_map]
    congr 2
    funext p
    simp [RowJoin.emitPair, RowJoin.emit, RowSource.value_eq_pairValue]

/-- In lists, a whole decimal beside a float, a short decimal beside one of another scale and an
hour beside its minutes; and a join of decimals with floats, where `3.00` and `3.0` are equal and
`10 ^ 30` is apart from both. -/
theorem compareBy_eq_iff_key_eq_lists :
    let three : Scalar := .decimal ⟨⟨300, by decide, by decide⟩, 2⟩
    let threeFloat : Scalar := .float .float32 0x40400000
    let tenth : Scalar := .decimal ⟨⟨1, by decide, by decide⟩, 1⟩
    let longTenth : Scalar := .decimal ⟨⟨10, by decide, by decide⟩, 2⟩
    let hour : Scalar := .interval ⟨⟨1, by decide, by decide⟩, .hour⟩
    let minutes : Scalar := .interval ⟨⟨60, by decide, by decide⟩, .minute⟩
    let large : Scalar := .decimal ⟨⟨100000000000000000000000000000000, by decide, by decide⟩, 2⟩
    let a : Scalar := .list [three, tenth, hour]
    let b : Scalar := .list [threeFloat, longTenth, minutes]
    let j : RowJoin := ⟨.inner, [0], [1], none, [.left 0, .right 0]⟩
    let left : List Row := [[three], [large], [.null]]
    let right : List Row := [[.utf8 "x", threeFloat], [.utf8 "y", .null]]
    a.RoundingSafeIn b ∧ (a.compareBy .eq b = .boolean true ↔ a.key = b.key ∧ a.ordered = true) ∧
      (∀ l ∈ left, ∀ r ∈ right, (l.getD 0 .null).Joinable (r.getD 1 .null)) ∧
      ∃ pairs : List (Row × Row),
        j.rows left right = .ok (pairs.map fun p => j.emit (some p.1) (some p.2)) ∧
        (RowExpr.equality 0 2 (.decimal 38 2) (.float .float32)).keepRows
            ((left.product right).map fun p => p.1 ++ p.2) =
          .ok (pairs.map fun p => p.1 ++ p.2) := by
  intro three threeFloat tenth longTenth hour minutes large a b j left right
  have hthree : three.RoundingSafe threeFloat := .wholeFloat rfl (.inr (by decide)) rfl
  have htenth : tenth.RoundingSafe longTenth := .short rfl rfl (by decide) (by decide)
  have hvalue : FloatType.float32.decode 0x40400000 = .finite false (3 * 2 ^ 149) := by
    decide +kernel
  have hlarge : large.RoundingSafe threeFloat := by
    refine .apart (by decide) (by decide) fun p q hp hq => ?_
    obtain rfl := Option.some.inj hp
    rw [Scalar.number?, hvalue] at hq
    obtain rfl := Option.some.inj hq
    have hunit : FloatType.float32.format.unitPlaces = 149 := by decide
    norm_num [FloatValue.signedUnits, hunit]
  have hthreeIn : three.RoundingSafeIn threeFloat := fun _ _ => hthree
  have hlargeIn : large.RoundingSafeIn threeFloat := fun _ _ => hlarge
  have hhourIn : hour.RoundingSafeIn minutes := by
    intro hkind
    cases hkind
  have hsafe : a.RoundingSafeIn b := ⟨hthreeIn, fun _ _ => htenth, hhourIn, trivial⟩
  have hjoin : ∀ l ∈ left, ∀ r ∈ right, (l.getD 0 .null).Joinable (r.getD 1 .null) := by
    simp [left, right, Scalar.Joinable, three, large, Scalar.ordered, hthreeIn, hlargeIn]
  obtain ⟨hscalar, hrows⟩ := compareBy_eq_iff_key_eq
  refine ⟨hsafe, hscalar a b hsafe, hjoin, ?_⟩
  exact hrows j 0 1 1 _ _ left right rfl rfl rfl rfl (by decide) (by simp [left]) hjoin

/-! ### Where keys and comparison differ -/

namespace Scalar

mutual

/-- No NaN occurs at any level. -/
def nanFree : Scalar → Bool
  | .float t v => !(t.decode v).isNaN
  | .list values => nanFreeAll values
  | .struct fields => nanFreeFields fields
  | _ => true

def nanFreeAll : List Scalar → Bool
  | [] => true
  | v :: r => nanFree v && nanFreeAll r

def nanFreeFields : List (String × Scalar) → Bool
  | [] => true
  | (_, v) :: r => nanFree v && nanFreeFields r

end

/-- A null inside a list, a struct and intervals without a length are not equal to themselves,
though they have keys. -/
theorem not_key_eq_iff_compareBy_eq :
    let parts (v : Scalar) : Prop :=
      v.isNull = false ∧ v.nanFree = true ∧ v.dataType.isComparable v.dataType = true ∧
        ¬ (v.key = v.key ↔ v.compareBy .eq v = .boolean true)
    parts (.list [.null]) ∧ parts (.struct [("x", .boolean true)]) ∧
      parts (.interval ⟨⟨1, by decide, by decide⟩, .month⟩) ∧
      parts (.interval ⟨⟨9223372036854775807, by decide, by decide⟩, .day⟩) := by
  refine ⟨?_, ?_, ?_, ?_⟩
  all_goals
    refine ⟨rfl, rfl, rfl, fun h => ?_⟩
    exact absurd (compareBy_eq_true_iff.mp (h.mp rfl)) (by decide)

end Scalar

end TableQuery
