import TableQuery.Operator.Run
import TableQuery.Proofs.Result

/-! # The join as a nested loop

What a join means, without an index: every left row is held against every right row. `Matches` says
when two rows match, `nestedLoop` lists the pairs of rows that come out, a missing side being
`none`, and `pairValue` reads an output column from such a pair. The main statement is
`run_join_eq_nestedLoop`: as long as the residual can be evaluated on every pair of rows, running
the join gives exactly the rows of the nested loop, in its order.

The index answers with all right rows of equal keys in their order (`candidates_eq`); the search
among them keeps the rows that match, or the first one (`matching_eq`). -/

namespace TableQuery

namespace RowSource

/-- The value of a column for a pair of rows: a missing row reads as null. -/
def pairValue (p : Option Row × Option Row) : RowSource → Scalar
  | .left i => (p.1.bind (·[i]?)).getD .null
  | .right i => (p.2.bind (·[i]?)).getD .null
  | .coalesce l r =>
    match (p.1.bind (·[l]?)).getD .null with
    | .null => (p.2.bind (·[r]?)).getD .null
    | v => v

theorem read_eq (row : Option Row) (i : Nat) : read row i = (row.bind (·[i]?)).getD .null := by
  cases row <;> simp [read, List.getD_eq_getElem?_getD]

theorem value_eq_pairValue (l r : Option Row) (s : RowSource) :
    s.value l r = s.pairValue (l, r) := by
  cases s with
  | left i => exact read_eq l i
  | right i => exact read_eq r i
  | coalesce i k =>
    simp only [value, pairValue, read_eq]
    cases (l.bind (·[i]?)).getD .null <;> rfl

end RowSource

namespace RowJoin

variable (j : RowJoin)

/-! ### The pairs of rows -/

/-- The keys of the values at some positions of a row. -/
def keysAt (positions : List Nat) (row : Row) : List Key :=
  positions.map fun i => (row[i]?.getD .null).key

/-- Whether the residual is true of two rows; a missing residual is. -/
def residualTrue (l r : Row) : Bool :=
  match j.residual with
  | none => true
  | some e =>
    match e.eval (l ++ r) with
    | .ok (.boolean b) => b
    | _ => false

/-- Two rows have equal keys, none of them null. -/
def SameKeys (l r : Row) : Prop :=
  Key.null ∉ keysAt j.leftKeys l ∧ Key.null ∉ keysAt j.rightKeys r ∧
    keysAt j.leftKeys l = keysAt j.rightKeys r

instance (l r : Row) : Decidable (j.SameKeys l r) := by
  unfold SameKeys; infer_instance

/-- **Two rows match**: they have the same keys and the residual is true of them. -/
def Matches (l r : Row) : Prop := j.SameKeys l r ∧ j.residualTrue l r = true

instance (l r : Row) : Decidable (j.Matches l r) := by
  unfold Matches; infer_instance

/-- The right rows that match a left row. -/
def matchesOf (right : List Row) (l : Row) : List Row := right.filter fun r => j.Matches l r

/-- The pairs that a left row comes out in, for the right rows it matches. -/
def pairsOf (l : Row) (found : List Row) : List (Option Row × Option Row) :=
  match j.kind with
  | .inner | .right => found.map fun r => (some l, some r)
  | .left | .full =>
    if found = [] then [(some l, none)] else found.map fun r => (some l, some r)
  | .semi => if found = [] then [] else [(some l, none)]
  | .anti => if found = [] then [(some l, none)] else []

/-- The pairs of the right rows that no left row matches. -/
def pairsOfUnmatched (left right : List Row) : List (Option Row × Option Row) :=
  match j.kind with
  | .right | .full =>
    (right.filter fun r => ∀ l ∈ left, ¬ j.Matches l r).map fun r => (none, some r)
  | _ => []

/-- **The nested loop**: the pairs of every left row in turn, then those of unmatched right rows. -/
def nestedLoop (left right : List Row) : List (Option Row × Option Row) :=
  left.flatMap (fun l => j.pairsOf l (j.matchesOf right l)) ++ j.pairsOfUnmatched left right

/-- The residual has a value on every pair of rows. -/
def ResidualDefined (left right : List Row) : Prop :=
  ∀ e, j.residual = some e → ∀ l ∈ left, ∀ r ∈ right, ∃ v, e.eval (l ++ r) = .ok v

/-! ### The index -/

theorem rowKey?_eq (positions : List Nat) (row : Row) :
    rowKey? positions row =
      if Key.null ∈ keysAt positions row then none else some (keysAt positions row) := by
  have hkeys : (positions.map fun i => (row.getD i .null).key) = keysAt positions row := by
    simp [keysAt, List.getD_eq_getElem?_getD]
  have hnull : ∀ ks : List Key, ks.any Key.isNull = true ↔ Key.null ∈ ks := by
    intro ks
    rw [List.any_eq_true]
    constructor
    · rintro ⟨k, hk, h⟩
      cases k <;> simp_all [Key.isNull]
    · intro h
      exact ⟨_, h, rfl⟩
  unfold rowKey?
  simp only [hkeys, hnull]

theorem candidates_eq (l : Row) (right : List Row) :
    j.candidates (j.index right) l = right.zipIdx.filter fun p => j.SameKeys l p.1 := by
  unfold candidates index
  rw [rowKey?_eq]
  by_cases hl : Key.null ∈ keysAt j.leftKeys l
  · simp [hl, SameKeys]
  · rw [if_neg hl]
    dsimp only
    rw [Grouping.content_ofItems]
    induction right.zipIdx with
    | nil => rfl
    | cons p ps ih =>
      rw [List.filterMap_cons, rowKey?_eq, List.filter_cons]
      by_cases hr : Key.null ∈ keysAt j.rightKeys p.1
      · simpa [hr, SameKeys] using ih
      · by_cases hk : keysAt j.leftKeys l = keysAt j.rightKeys p.1
        · simpa [hr, hl, hk, SameKeys] using ih
        · simpa [hr, hl, hk, SameKeys] using ih

/-! ### The search -/

theorem accepts_eq {left right : List Row} (h : j.ResidualDefined left right) {l r : Row}
    (hl : l ∈ left) (hr : r ∈ right) : j.accepts l r = .ok (j.residualTrue l r) := by
  unfold accepts residualTrue
  cases he : j.residual with
  | none => rfl
  | some e =>
    obtain ⟨v, hv⟩ := h e he l hl r hr
    simp only [RowExpr.holds, hv]
    cases v <;> rfl

/-- What the search finds when the residual has values: all rows it is true of, or the first. -/
theorem matching_eq {l : Row} : ∀ {cs : List Placed},
    (∀ c ∈ cs, j.accepts l c.1 = .ok (j.residualTrue l c.1)) →
      j.matching l cs = .ok (if j.kind.leftOnly
        then (cs.filter fun c => j.residualTrue l c.1).take 1
        else cs.filter fun c => j.residualTrue l c.1)
  | [], _ => by simp [matching]
  | c :: cs, h => by
    have hc := h c (by simp)
    have ih := matching_eq fun d hd => h d (List.mem_cons_of_mem c hd)
    rw [matching, hc, Result.ok_bind]
    by_cases ht : j.residualTrue l c.1 = true
    · by_cases hk : j.kind.leftOnly = true
      · simp [ht, hk]
      · simp [ht, hk, ih]
    · simp [ht, ih]

/-- The right rows a left row matches, each with its place. -/
def placedMatches (right : List Row) (l : Row) : List Placed :=
  right.zipIdx.filter fun p => j.Matches l p.1

theorem filter_candidates (right : List Row) (l : Row) :
    (j.candidates (j.index right) l).filter (fun p => j.residualTrue l p.1) =
      j.placedMatches right l := by
  rw [candidates_eq, List.filter_filter, placedMatches]
  refine List.filter_congr fun p _ => ?_
  rw [Bool.eq_iff_iff, decide_eq_true_iff]
  simp [Matches, and_comm]

theorem map_fst_placedMatches (right : List Row) (l : Row) :
    (j.placedMatches right l).map Prod.fst = j.matchesOf right l := by
  have h := List.filter_map (f := Prod.fst) (p := fun r => decide (j.Matches l r))
    (l := right.zipIdx)
  rw [List.zipIdx_map_fst] at h
  exact h.symm

/-- What a left row finds in the index. -/
def found (right : List Row) (l : Row) : List Placed :=
  if j.kind.leftOnly then (j.placedMatches right l).take 1 else j.placedMatches right l

theorem matching_candidates {left right : List Row} (h : j.ResidualDefined left right) {l : Row}
    (hl : l ∈ left) : j.matching l (j.candidates (j.index right) l) = .ok (j.found right l) := by
  rw [matching_eq, filter_candidates, found]
  intro c hc
  rw [candidates_eq, List.mem_filter] at hc
  exact j.accepts_eq h hl (List.fst_mem_of_mem_zipIdx hc.1)

/-! ### The output -/

/-- The output row of a pair. -/
def emitPair (p : Option Row × Option Row) : Row := j.outputs.map (RowSource.pairValue p)

theorem emit_eq (l r : Option Row) : j.emit l r = j.emitPair (l, r) :=
  List.map_congr_left fun s _ => RowSource.value_eq_pairValue l r s

theorem emitLeft_found (right : List Row) (l : Row) :
    j.emitLeft l (j.found right l) = (j.pairsOf l (j.matchesOf right l)).map j.emitPair := by
  have hmap : ∀ ps : List Placed, ps.map (fun p => j.emit (some l) (some p.1)) =
      (ps.map Prod.fst).map fun r => j.emitPair (some l, some r) := by
    intro ps
    simp [emit_eq]
  have hempty : ∀ ps : List Placed, (ps.take 1).isEmpty = ps.isEmpty := by
    intro ps
    cases ps <;> rfl
  rw [← map_fst_placedMatches]
  unfold emitLeft found pairsOf
  cases hk : j.kind with
  | inner | right => simp [JoinKind.leftOnly, JoinKind.keepsLeft, hmap]
  | left | full =>
    cases hp : j.placedMatches right l with
    | nil => simp [JoinKind.leftOnly, JoinKind.keepsLeft, emit_eq]
    | cons p ps => simp [JoinKind.leftOnly, emit_eq]
  | semi | anti =>
    simp only [JoinKind.leftOnly, if_true, hempty]
    cases hp : j.placedMatches right l <;> simp [emit_eq]

/-- A place is among those found exactly when some left row matches the row there: a place belongs
to one row only. -/
theorem mem_places_iff (left right : List Row) {p : Placed} (hp : p ∈ right.zipIdx) :
    p.2 ∈ (left.map (j.placedMatches right)).flatten.map Prod.snd ↔
      ∃ l ∈ left, j.Matches l p.1 := by
  simp only [List.mem_map, List.mem_flatten, placedMatches]
  constructor
  · rintro ⟨q, ⟨_, ⟨l, hl, rfl⟩, hq⟩, hpq⟩
    rw [List.mem_filter, decide_eq_true_eq] at hq
    have hsame : q.1 = p.1 := by
      have h1 := List.mem_zipIdx_iff_getElem?.mp hq.1
      rw [hpq, List.mem_zipIdx_iff_getElem?.mp hp] at h1
      exact (Option.some.inj h1).symm
    exact ⟨l, hl, hsame ▸ hq.2⟩
  · rintro ⟨l, hl, hm⟩
    exact ⟨p, ⟨_, ⟨l, hl, rfl⟩, List.mem_filter.mpr ⟨hp, by simpa using hm⟩⟩, rfl⟩

theorem emitUnmatched_found (left right : List Row) :
    j.emitUnmatched right ((left.map (j.found right)).flatten.map Prod.snd) =
      (j.pairsOfUnmatched left right).map j.emitPair := by
  have hkept : right.zipIdx.filter (fun p =>
      !((left.map (j.placedMatches right)).flatten.map Prod.snd).contains p.2) =
        right.zipIdx.filter fun p => ∀ l ∈ left, ¬ j.Matches l p.1 := by
    refine List.filter_congr fun p hp => ?_
    rw [Bool.eq_iff_iff, Bool.not_eq_true', ← Bool.not_eq_true, List.contains_iff_mem,
      mem_places_iff j left right hp]
    simp
  have hrows : (right.zipIdx.filter fun p => ∀ l ∈ left, ¬ j.Matches l p.1).map Prod.fst =
      right.filter fun r => ∀ l ∈ left, ¬ j.Matches l r := by
    have h := List.filter_map (f := Prod.fst) (l := right.zipIdx)
      (p := fun r => decide (∀ l ∈ left, ¬ j.Matches l r))
    rw [List.zipIdx_map_fst] at h
    exact h.symm
  have hfound : j.kind.leftOnly = false → j.found right = j.placedMatches right := by
    intro h
    funext l
    simp [found, h]
  unfold emitUnmatched pairsOfUnmatched
  cases hk : j.kind with
  | right | full =>
    rw [hfound (by rw [hk]; rfl), hkept, ← hrows]
    simp [JoinKind.keepsRight, emit_eq]
  | inner | left | semi | anti => simp [JoinKind.keepsRight]

/-- **The rows of a join** are those of the nested loop. -/
theorem rows_eq {left right : List Row} (h : j.ResidualDefined left right) :
    j.rows left right = .ok ((j.nestedLoop left right).map j.emitPair) := by
  have hmap : left.mapM (fun l => j.matching l (j.candidates (j.index right) l)) =
      .ok (left.map (j.found right)) :=
    Result.mapM_eq_ok_map fun l hl => j.matching_candidates h hl
  have hpairs : (left.zip (left.map (j.found right))).flatMap (fun q => j.emitLeft q.1 q.2) =
      (left.flatMap fun l => j.pairsOf l (j.matchesOf right l)).map j.emitPair := by
    rw [← List.map_prod_left_eq_zip, List.flatMap_map, List.map_flatMap]
    simp only [emitLeft_found]
  unfold rows
  simp only [hmap, Result.ok_bind]
  rw [nestedLoop, List.map_append, ← hpairs, emitUnmatched_found]
  rfl

/-- **A join runs as the nested loop says**: every left row is held against every right row, and
the pairs come out in that order, with all their columns and under the types of the join. -/
theorem run_join_eq_nestedLoop (provider : RowProvider) {types : List DataType} {left right : Batch}
    (hw : types.length = j.outputs.length) (h : j.ResidualDefined left.rows right.rows) :
    (Operator.join j).run provider types [left, right] =
      .ok ⟨types, (j.nestedLoop left.rows right.rows).map fun p =>
        j.outputs.map (RowSource.pairValue p)⟩ := by
  have hwidth : ((j.nestedLoop left.rows right.rows).map j.emitPair).find?
      (·.length ≠ types.length) = none := by
    rw [List.find?_eq_none]
    intro r hr
    obtain ⟨p, -, rfl⟩ := List.mem_map.mp hr
    simp [emitPair, hw]
  have hrun : (Operator.join j).run provider types [left, right] =
      j.rows left.rows right.rows >>= Batch.ofRows types := rfl
  rw [hrun, rows_eq j h, Result.ok_bind, Batch.ofRows, hwidth]
  rfl

/-- A full join whose residual refuses one of two key matches and is null on another. -/
theorem run_join_full :
    let n : Int → Scalar := fun v => .decimal ⟨Bounded.clamp _ _ (by decide) v, 0⟩
    let j : RowJoin :=
      ⟨.full, [0], [0], some (.column 3 .boolean), [.coalesce 0 0, .left 1, .right 1]⟩
    let left : Batch := ⟨[.decimal 1 0, .date],
      [[n 1, n 10], [n 2, n 20], [.null, n 30], [n 1, n 40]]⟩
    let right : Batch := ⟨[.decimal 1 0, .boolean],
      [[n 1, .boolean true], [n 1, .boolean false], [n 2, .null], [.null, .boolean true],
        [n 1, .boolean true]]⟩
    let types : List DataType := [.decimal 1 0, .decimal 2 0, .boolean]
    types.length = j.outputs.length ∧ j.ResidualDefined left.rows right.rows ∧
      (Operator.join j).run ⟨fun _ => .ok .empty, fun _ => .ok .empty⟩ types [left, right] =
        .ok ⟨types, [[n 1, n 10, .boolean true], [n 1, n 10, .boolean true], [n 2, n 20, .null],
          [.null, n 30, .null], [n 1, n 40, .boolean true], [n 1, n 40, .boolean true],
          [n 1, .null, .boolean false], [n 2, .null, .null], [.null, .null, .boolean true]]⟩ := by
  intro n j left right types
  have hw : types.length = j.outputs.length := rfl
  have h : j.ResidualDefined left.rows right.rows := by
    intro e he l _ r _
    cases he
    exact ⟨_, rfl⟩
  exact ⟨hw, h, run_join_eq_nestedLoop j _ hw h⟩

end RowJoin

end TableQuery
