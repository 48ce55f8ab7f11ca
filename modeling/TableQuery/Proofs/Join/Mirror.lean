import Mathlib.Data.List.Perm.Basic
import TableQuery.Proofs.Join.NestedLoop
import TableQuery.Proofs.Operator.Rows

/-! # Right joins as mirrored left joins

A right join gives the rows of the left join that reads its sides the other way round. The two run
quite differently: the left join finds the matches of each of its rows one by one and fills in nulls
on the way, the right join adds the rows without a match when all others are through. So the rows
come in another order, but they are the same ones and equally often (`run_right_join_mirrored`).

The matches of all rows can be listed by the rows of either side (`perm_flatMap_exchange`). A column
that is made of two takes the left value first, which is the right value of the mirrored join, so
the two values must not differ where rows match (`RowSource.Agrees`). -/

namespace TableQuery

/-! ### Pairs listed by either side -/

section Exchange

variable {α β γ : Type} (p : α → β → Prop) [∀ a b, Decidable (p a b)] (f : α → β → γ) (g : β → γ)

/-- The pairs of elements that belong together can be listed by the elements of either side. -/
theorem perm_flatMap_exchange (xs : List α) (ys : List β) :
    (xs.flatMap fun a => (ys.filter fun b => p a b).map (f a)).Perm
      (ys.flatMap fun b => (xs.filter fun a => p a b).map fun a => f a b) := by
  induction xs with
  | nil => simp
  | cons a xs ih =>
    have hfirst : (ys.filter fun b => p a b).map (f a) =
        ys.flatMap fun b => if p a b then [f a b] else [] := by
      clear ih
      induction ys with
      | nil => rfl
      | cons b ys ih =>
        rw [List.flatMap_cons, ← ih, List.filter_cons]
        by_cases h : p a b <;> simp [h]
    have hrest : (fun b => ((a :: xs).filter fun a => p a b).map fun a => f a b) =
        fun b => (if p a b then [f a b] else []) ++
          (xs.filter fun a => p a b).map fun a => f a b := by
      funext b
      rw [List.filter_cons]
      by_cases h : p a b <;> simp [h]
    rw [List.flatMap_cons, hfirst, hrest]
    exact (ih.append_left _).trans (List.flatMap_append_perm ys _ _)

/-- The elements of one side with their partners, or by themselves if they have none, are all pairs
and then the elements without a partner. -/
theorem perm_flatMap_unmatched (xs : List α) (ys : List β) :
    ((xs.flatMap fun a => (ys.filter fun b => p a b).map (f a)) ++
        (ys.filter fun b => ∀ a ∈ xs, ¬ p a b).map g).Perm
      (ys.flatMap fun b =>
        if xs.filter (fun a => p a b) = [] then [g b]
        else (xs.filter fun a => p a b).map fun a => f a b) := by
  have hsingle : (ys.filter fun b => ∀ a ∈ xs, ¬ p a b).map g =
      ys.flatMap fun b => if ∀ a ∈ xs, ¬ p a b then [g b] else [] := by
    induction ys with
    | nil => rfl
    | cons b ys ih =>
      rw [List.flatMap_cons, ← ih]
      by_cases h : ∀ a ∈ xs, ¬ p a b
      · rw [List.filter_cons_of_pos (by simpa using h), if_pos h]
        rfl
      · rw [List.filter_cons_of_neg (by simpa using h), if_neg h]
        rfl
  have hsplit : (fun b => if xs.filter (fun a => p a b) = [] then [g b]
      else (xs.filter fun a => p a b).map fun a => f a b) =
        fun b => ((xs.filter fun a => p a b).map fun a => f a b) ++
          if ∀ a ∈ xs, ¬ p a b then [g b] else [] := by
    funext b
    have hnone : xs.filter (fun a => p a b) = [] ↔ ∀ a ∈ xs, ¬ p a b := by
      simp [List.filter_eq_nil_iff]
    by_cases h : ∀ a ∈ xs, ¬ p a b
    · rw [if_pos (hnone.mpr h), if_pos h, hnone.mpr h, List.map_nil, List.nil_append]
    · rw [if_neg (mt hnone.mp h), if_neg h, List.append_nil]
  rw [hsplit, hsingle]
  exact ((perm_flatMap_exchange p f xs ys).append_right _).trans
    (List.flatMap_append_perm ys _ _)

end Exchange

/-! ### The sources of columns -/

namespace RowSource

/-- The source of the same column when the sides change places. -/
def mirrored : RowSource → RowSource
  | left i => right i
  | right i => left i
  | coalesce l r => coalesce r l

/-- **Two rows agree on a source** that is made of both: one of the values is null, or they are the
same. -/
def Agrees (l r : Row) : RowSource → Prop
  | coalesce i k => l[i]?.getD .null = .null ∨ r[k]?.getD .null = .null ∨
      l[i]?.getD .null = r[k]?.getD .null
  | _ => True

theorem pairValue_coalesce (l r : Option Row) (i k : Nat) :
    (coalesce i k).pairValue (l, r) =
      if ((l.bind (·[i]?)).getD .null).isNull then (r.bind (·[k]?)).getD .null
      else (l.bind (·[i]?)).getD .null := by
  rw [pairValue]
  cases (l.bind (·[i]?)).getD .null <;> rfl

/-- The first value that is not null is the same from either side of two that agree. -/
theorem firstNonNull_comm {v w : Scalar} (h : v = .null ∨ w = .null ∨ v = w) :
    (if w.isNull then v else w) = if v.isNull then w else v := by
  rcases h with rfl | rfl | rfl
  · cases w <;> rfl
  · cases v <;> rfl
  · rfl

/-- A column has the same value from either side where the rows agree on it. -/
theorem Agrees.pairValue_mirrored {l r : Row} {s : RowSource} (h : s.Agrees l r) :
    s.mirrored.pairValue (some r, some l) = s.pairValue (some l, some r) := by
  cases s with
  | left i | right i => rfl
  | coalesce i k =>
    rw [mirrored, pairValue_coalesce, pairValue_coalesce]
    exact firstNonNull_comm h

/-- A row without a partner gives its own values from either side. -/
theorem pairValue_mirrored_none (r : Row) (s : RowSource) :
    s.mirrored.pairValue (some r, none) = s.pairValue (none, some r) := by
  cases s with
  | left i | right i => rfl
  | coalesce i k =>
    rw [mirrored, pairValue_coalesce, pairValue_coalesce]
    exact firstNonNull_comm (.inl rfl)

end RowSource

/-! ### Batches up to the order of rows -/

namespace Batch

/-- **The same rows in any order**, each as often, or the same error. -/
inductive SameRows : Result Batch → Result Batch → Prop
  | ok (types : List DataType) {rows rows' : List Row} :
    rows.Perm rows' → SameRows (.ok ⟨types, rows⟩) (.ok ⟨types, rows'⟩)
  | error (e : Error) : SameRows (.error e) (.error e)

/-- Rows of one width make a batch in any order, or in none. -/
theorem sameRows_ofRows (types : List DataType) {rows rows' : List Row} {width : Nat}
    (hwidth : ∀ r ∈ rows, r.length = width) (h : rows.Perm rows') :
    SameRows (ofRows types rows) (ofRows types rows') := by
  have hwidth' : ∀ r ∈ rows', r.length = width := fun r hr => hwidth r (h.mem_iff.mpr hr)
  by_cases htypes : width = types.length
  · subst htypes
    rw [ofRows_eq_ok_iff.mpr ⟨hwidth, rfl⟩, ofRows_eq_ok_iff.mpr ⟨hwidth', rfl⟩]
    exact .ok types h
  · cases rows with
    | nil =>
      rw [List.nil_perm.mp h]
      exact .ok types .rfl
    | cons r rest =>
      cases rows' with
      | nil => exact absurd h (by simp)
      | cons r' rest' =>
        have hr := hwidth r List.mem_cons_self
        have hr' := hwidth' r' List.mem_cons_self
        simp only [ofRows, List.find?_cons, hr, hr', ne_eq, htypes, not_false_eq_true,
          decide_true]
        exact .error _

end Batch

namespace RowJoin

variable (j : RowJoin)

/-- **A right join is mirrored by a left one** on the rows of both sides: the sides with their keys
and columns have changed places, and the residuals have values and accept the same pairs. -/
structure MirroredBy (m : RowJoin) (left right : List Row) : Prop where
  kind : j.kind = .right
  mirror : m.kind = .left
  leftKeys : m.leftKeys = j.rightKeys
  rightKeys : m.rightKeys = j.leftKeys
  outputs : m.outputs = j.outputs.map RowSource.mirrored
  residual : ∀ l ∈ left, ∀ r ∈ right, ∃ b, j.accepts l r = .ok b ∧ m.accepts r l = .ok b

/-- Rows that match agree on the columns that are made of both. -/
def MatchesAgree (left right : List Row) : Prop :=
  ∀ l ∈ left, ∀ r ∈ right, j.Matches l r → ∀ s ∈ j.outputs, s.Agrees l r

variable {j}

/-- A residual that can be looked at has a value. -/
theorem residual_of_accepts {l r : Row} {b : Bool} (h : j.accepts l r = .ok b) :
    j.residualTrue l r = b ∧ ∀ e, j.residual = some e → ∃ v, e.eval (l ++ r) = .ok v := by
  unfold accepts at h
  unfold residualTrue
  cases he : j.residual with
  | none =>
    rw [he] at h
    cases h
    exact ⟨rfl, fun _ he => nomatch he⟩
  | some e =>
    simp only [he, RowExpr.holds] at h
    obtain ⟨v, hv, h⟩ := Result.bind_eq_ok_iff.mp h
    refine ⟨?_, fun _ he => by cases he; exact ⟨v, hv⟩⟩
    simp only [hv]
    cases v <;> cases h <;> rfl

namespace MirroredBy

variable {m : RowJoin} {left right : List Row} (hm : j.MirroredBy m left right)
include hm

theorem residualDefined : j.ResidualDefined left right := fun e he l hl r hr =>
  let ⟨_, hj, _⟩ := hm.residual l hl r hr
  (residual_of_accepts hj).2 e he

theorem residualDefined_mirror : m.ResidualDefined right left := fun e he r hr l hl =>
  let ⟨_, _, hm⟩ := hm.residual l hl r hr
  (residual_of_accepts hm).2 e he

/-- The same pairs of rows match. -/
theorem matches_iff {l r : Row} (hl : l ∈ left) (hr : r ∈ right) :
    m.Matches r l ↔ j.Matches l r := by
  obtain ⟨b, hj, hmb⟩ := hm.residual l hl r hr
  rw [Matches, Matches, SameKeys, SameKeys, hm.leftKeys, hm.rightKeys,
    (residual_of_accepts hj).1, (residual_of_accepts hmb).1]
  refine and_congr_left' ⟨?_, ?_⟩
  · rintro ⟨hr, hl, h⟩
    exact ⟨hl, hr, h.symm⟩
  · rintro ⟨hl, hr, h⟩
    exact ⟨hr, hl, h.symm⟩

theorem matchesOf_eq {r : Row} (hr : r ∈ right) :
    m.matchesOf left r = left.filter fun l => j.Matches l r :=
  List.filter_congr fun _ hl => decide_eq_decide.mpr (hm.matches_iff hl hr)

/-- The mirrored join reads the same output rows from its pairs. -/
theorem emitPair_eq {p p' : Option Row × Option Row}
    (h : ∀ s ∈ j.outputs, s.mirrored.pairValue p' = s.pairValue p) :
    m.emitPair p' = j.emitPair p := by
  rw [emitPair, emitPair, hm.outputs, List.map_map]
  exact List.map_congr_left h

/-- **The rows of both joins** are the same but for their order. -/
theorem perm_rows (hagree : j.MatchesAgree left right) :
    ((j.nestedLoop left right).map j.emitPair).Perm
      ((m.nestedLoop right left).map m.emitPair) := by
  have hright : (j.nestedLoop left right).map j.emitPair =
      (left.flatMap fun l => (right.filter fun r => j.Matches l r).map fun r =>
        j.emitPair (some l, some r)) ++
      (right.filter fun r => ∀ l ∈ left, ¬ j.Matches l r).map fun r =>
        j.emitPair (none, some r) := by
    simp [nestedLoop, pairsOf, pairsOfUnmatched, hm.kind, matchesOf, List.map_flatMap,
      Function.comp_def]
  have hleft : (m.nestedLoop right left).map m.emitPair =
      right.flatMap fun r =>
        if left.filter (fun l => j.Matches l r) = [] then [j.emitPair (none, some r)]
        else (left.filter fun l => j.Matches l r).map fun l => j.emitPair (some l, some r) := by
    simp only [nestedLoop, pairsOf, pairsOfUnmatched, hm.mirror, List.append_nil,
      List.map_flatMap]
    refine List.flatMap_congr fun r hr => ?_
    rw [hm.matchesOf_eq hr]
    split
    · have hnone := hm.emitPair_eq fun s _ => RowSource.pairValue_mirrored_none r s
      rw [List.map_singleton, hnone]
    · rw [List.map_map]
      refine List.map_congr_left fun l hl => ?_
      obtain ⟨hl, hmatch⟩ := List.mem_filter.mp hl
      exact hm.emitPair_eq fun s hs =>
        (hagree l hl r hr (of_decide_eq_true hmatch) s hs).pairValue_mirrored
  rw [hright, hleft]
  exact perm_flatMap_unmatched (fun l r => j.Matches l r) (fun l r => j.emitPair (some l, some r))
    (fun r => j.emitPair (none, some r)) left right

end MirroredBy

/-- **A right join is a mirrored left join**: where matching rows agree on the columns that are made
of both sides, the two give the same rows in some order, whatever types they are given; and with a
type for each column they give them. -/
theorem run_right_join_mirrored (provider : RowProvider) (types : List DataType) {m : RowJoin}
    {left right : Batch} (hm : j.MirroredBy m left.rows right.rows)
    (hagree : j.MatchesAgree left.rows right.rows) :
    Batch.SameRows ((Operator.join j).run provider types [left, right])
        ((Operator.join m).run provider types [right, left]) ∧
      (types.length = j.outputs.length →
        ∃ b, (Operator.join j).run provider types [left, right] = .ok b) := by
  have hrun : (Operator.join j).run provider types [left, right] =
      Batch.ofRows types ((j.nestedLoop left.rows right.rows).map j.emitPair) := by
    have h : (Operator.join j).run provider types [left, right] =
        j.rows left.rows right.rows >>= Batch.ofRows types := rfl
    rw [h, rows_eq j hm.residualDefined, Result.ok_bind]
  have hrun' : (Operator.join m).run provider types [right, left] =
      Batch.ofRows types ((m.nestedLoop right.rows left.rows).map m.emitPair) := by
    have h : (Operator.join m).run provider types [right, left] =
        m.rows right.rows left.rows >>= Batch.ofRows types := rfl
    rw [h, rows_eq m hm.residualDefined_mirror, Result.ok_bind]
  have hwidth : ∀ r ∈ (j.nestedLoop left.rows right.rows).map j.emitPair,
      r.length = j.outputs.length := by
    intro r hr
    obtain ⟨p, -, rfl⟩ := List.mem_map.mp hr
    exact List.length_map _
  rw [hrun, hrun']
  exact ⟨Batch.sameRows_ofRows types hwidth (hm.perm_rows hagree),
    fun htypes => ⟨_, Batch.ofRows_eq_ok_iff.mpr ⟨htypes ▸ hwidth, rfl⟩⟩⟩

/-- The unmatched row of the right side comes last in the right join and first in its mirror. -/
theorem run_right_join_mirrored_order :
    let n : Int → Scalar := fun v => .int .int64 (Bounded.clamp _ _ (by decide) v)
    let j : RowJoin :=
      ⟨.right, [0], [0], some (.column 3 .boolean), [.coalesce 0 0, .left 1, .right 1]⟩
    let m : RowJoin :=
      ⟨.left, [0], [0], some (.column 1 .boolean), [.coalesce 0 0, .right 1, .left 1]⟩
    let left : Batch := ⟨[.int64, .int64], [[n 1, n 10], [n 1, n 20], [.null, n 30]]⟩
    let right : Batch :=
      ⟨[.int64, .boolean], [[n 1, .null], [n 1, .boolean true], [.null, .boolean true]]⟩
    let types : List DataType := [.int64, .int64, .boolean]
    let provider : RowProvider := ⟨fun _ => .ok .empty, fun _ => .ok .empty⟩
    let first := [n 1, n 10, .boolean true]
    let second := [n 1, n 20, .boolean true]
    let refused := [n 1, .null, .null]
    let keyless := [.null, .null, .boolean true]
    j.MirroredBy m left.rows right.rows ∧ j.MatchesAgree left.rows right.rows ∧
      (Operator.join j).run provider types [left, right] =
        .ok ⟨types, [first, second, refused, keyless]⟩ ∧
      (Operator.join m).run provider types [right, left] =
        .ok ⟨types, [refused, first, second, keyless]⟩ ∧
      Batch.SameRows ((Operator.join j).run provider types [left, right])
        ((Operator.join m).run provider types [right, left]) := by
  intro n j m left right types provider first second refused keyless
  have hm : j.MirroredBy m left.rows right.rows := by
    refine ⟨rfl, rfl, rfl, rfl, rfl, fun l hl r hr => ?_⟩
    simp only [left, right, List.mem_cons, List.not_mem_nil, or_false] at hl hr
    rcases hl with rfl | rfl | rfl <;> rcases hr with rfl | rfl | rfl <;> exact ⟨_, rfl, rfl⟩
  have hagree : j.MatchesAgree left.rows right.rows := by
    intro l hl r hr hmatch s hs
    simp only [left, right, j, List.mem_cons, List.not_mem_nil, or_false] at hl hr hs
    rcases hs with rfl | rfl | rfl
    · rcases hl with rfl | rfl | rfl <;> rcases hr with rfl | rfl | rfl <;> simp [RowSource.Agrees]
    · trivial
    · trivial
  exact ⟨hm, hagree, rfl, rfl, (run_right_join_mirrored provider types hm hagree).1⟩

/-- Two keys of different widths match, and the column that is made of both holds the one of the
side that comes first: the mirrored join gives another value there. -/
theorem not_run_right_join_mirrored : ¬ ∀ (provider : RowProvider) (types : List DataType)
    (j m : RowJoin) (left right : Batch), j.MirroredBy m left.rows right.rows →
      Batch.SameRows ((Operator.join j).run provider types [left, right])
        ((Operator.join m).run provider types [right, left]) := by
  intro h
  let left : Batch := ⟨[.int .int32], [[.int .int32 ⟨1, by decide, by decide⟩]]⟩
  let right : Batch := ⟨[.int64], [[.int .int64 ⟨1, by decide, by decide⟩]]⟩
  let provider : RowProvider := ⟨fun _ => .ok .empty, fun _ => .ok .empty⟩
  let j : RowJoin := ⟨.right, [0], [0], none, [.coalesce 0 0]⟩
  let m : RowJoin := ⟨.left, [0], [0], none, [.coalesce 0 0]⟩
  have hm : j.MirroredBy m left.rows right.rows :=
    ⟨rfl, rfl, rfl, rfl, rfl, fun _ _ _ _ => ⟨true, rfl, rfl⟩⟩
  have hright : (Operator.join j).run provider [.int64] [left, right] =
      .ok ⟨[.int64], left.rows⟩ := rfl
  have hleft : (Operator.join m).run provider [.int64] [right, left] =
      .ok ⟨[.int64], right.rows⟩ := rfl
  have hsame := h provider [.int64] j m left right hm
  rw [hright, hleft] at hsame
  cases hsame with
  | ok _ hperm =>
    have hrows : left.rows = right.rows := List.perm_singleton.mp hperm
    simp [left, right] at hrows

end RowJoin

end TableQuery
