import Mathlib.Data.List.Nodup
import TableQuery.Proofs.Join.NullFill
import TableQuery.Proofs.Join.Planned

/-! # The output columns of planned joins

A join on pairs of columns can be planned if the columns are there, the two of every pair are
comparable, and the names that come out differ (`exists_plan_columns_iff`). The names that come out
are the left ones and then the right ones: a key with one name on both sides comes out once, at its
left place, and other names of both sides get the suffix of their side (`outputNames`).

Whatever the predicate was, every column of both sides comes out of a planned join once and in its
order, keys of one name together (`LaidOut`); a semi or anti join keeps the left columns. -/

namespace TableQuery

namespace JoinInputs

variable (inputs : JoinInputs) (kind : JoinKind)

/-! ### What should come out -/

/-- **The keys that come out once**: those of conditions between columns of one name. -/
def sharedNames (conditions : List JoinCondition) : List String :=
  (conditions.filter JoinCondition.isSameName).map JoinCondition.left

/-- The source of the output at the place of a left column. A shared key comes from the side whose
rows are all kept, or from both. -/
def leftSource (shared : List String) (name : String) : JoinSource :=
  match decide (name ∈ shared), kind with
  | true, .right => .right name
  | true, .full => .coalesce name name
  | _, _ => .left name

/-- The name of the output at the place of a left column. -/
def leftName (shared : List String) (name : String) : String :=
  if name ∉ shared ∧ name ∈ inputs.right.names then name ++ inputs.suffixes.left else name

/-- The name of the output of a right column. -/
def rightName (name : String) : String :=
  if name ∈ inputs.left.names then name ++ inputs.suffixes.right else name

/-- The right columns that come out apart from the left ones. -/
def rightApart (shared : List String) : List String :=
  inputs.right.names.filter (· ∉ shared)

/-- **The names that come out** of a join that keeps both sides. -/
def outputNames (shared : List String) : List String :=
  inputs.left.names.map (inputs.leftName shared) ++
    (inputs.rightApart shared).map inputs.rightName

/-- **The sources of the columns** of a join that keeps both sides. -/
def outputSources (shared : List String) : List JoinSource :=
  inputs.left.names.map (leftSource kind shared) ++ (inputs.rightApart shared).map .right

/-- **A planned join has the columns that it should**, under one name each in its outputs and in the
schema, and none of its columns is missing. -/
structure LaidOut (join : Join) (schema : Schema) : Prop where
  names_eq : schema.names = join.outputs.map JoinOutput.name
  names_nodup : (join.outputs.map JoinOutput.name).Nodup
  conditions : ∀ c ∈ join.conditions,
    inputs.left.contains c.left = true ∧ inputs.right.contains c.right = true
  reads : ∀ o ∈ join.outputs, Reads inputs.left inputs.right o.source
  /-- No column comes out twice. -/
  sources_nodup : (join.outputs.map JoinOutput.source).Nodup
  leftOnly : kind.leftOnly = true →
    schema = inputs.left ∧ join.outputs.map JoinOutput.source = inputs.left.names.map .left
  bothSides : kind.leftOnly = false →
    schema.names = inputs.outputNames (sharedNames join.conditions) ∧
      join.outputs.map JoinOutput.source = inputs.outputSources kind (sharedNames join.conditions)

variable {inputs kind} {shared : List String} {conditions : List JoinCondition}

/-! ### No column twice -/

theorem leftSource_injective : Function.Injective (leftSource kind shared) := by
  intro m n h
  unfold leftSource at h
  split at h <;> split at h <;> simp_all

/-- **No two outputs have one source.** -/
theorem nodup_outputSources : (inputs.outputSources kind shared).Nodup := by
  have hleft : (inputs.left.names.map (leftSource kind shared)).Nodup :=
    List.Nodup.map leftSource_injective inputs.left.nodup
  have hright : ((inputs.rightApart shared).map JoinSource.right).Nodup :=
    List.Nodup.map (fun _ _ h => JoinSource.right.inj h) (List.Nodup.filter _ inputs.right.nodup)
  refine List.Nodup.append hleft hright fun source hl hr => ?_
  obtain ⟨m, -, hm⟩ := List.mem_map.mp hl
  obtain ⟨n, hn, rfl⟩ := List.mem_map.mp hr
  have hn : n ∉ shared := by simpa using (List.mem_filter.mp hn).2
  -- Only a shared key has a right source at the place of a left column.
  unfold leftSource at hm
  split at hm <;> cases hm
  rename_i hshared _
  exact hn (of_decide_eq_true hshared)

/-! ### The planned outputs -/

theorem leftOutput_eq_ok {field : String × DataType} {out : TypedOutput}
    (h : inputs.leftOutput kind shared field = .ok out) :
    out.1 = ⟨inputs.leftName shared field.1, leftSource kind shared field.1⟩ := by
  obtain ⟨n, t⟩ := field
  unfold leftOutput at h
  dsimp only at h
  split at h
  · rename_i hn
    have hn : n ∈ shared := List.contains_iff_mem.mp hn
    obtain ⟨u, -, h⟩ := Result.bind_eq_ok_iff.mp h
    cases h
    cases kind <;> simp [collapsedKey, leftName, leftSource, hn]
  · rename_i hn
    have hn : n ∉ shared := fun hmem => hn (List.contains_iff_mem.mpr hmem)
    cases h
    simp only [leftName, leftSource, hn, not_false_eq_true, true_and, decide_false,
      Schema.contains_iff_mem_names]

theorem exists_leftOutput {field : String × DataType}
    (h : field.1 ∈ shared → inputs.right.contains field.1 = true) :
    ∃ out, inputs.leftOutput kind shared field = .ok out := by
  obtain ⟨n, t⟩ := field
  unfold leftOutput
  dsimp only
  split
  · rename_i hn
    obtain ⟨u, hu⟩ := Schema.contains_iff_type?.mp (h (List.contains_iff_mem.mp hn))
    rw [Schema.typeOf_eq_ok_iff.mpr hu]
    exact ⟨_, rfl⟩
  · exact ⟨_, rfl⟩

theorem rightOutput_eq (field : String × DataType) :
    (inputs.rightOutput kind field).1 = ⟨inputs.rightName field.1, .right field.1⟩ := by
  simp only [rightOutput, rightName, Schema.contains_iff_mem_names]

/-- **The outputs of both sides** have the names and the sources that they should. -/
theorem outputs_of_leftOutputs {lefts outputs : List TypedOutput}
    (h : inputs.left.fields.mapM (inputs.leftOutput kind shared) = .ok lefts)
    (houtputs : outputs = lefts ++ (inputs.right.fields.filter fun f => !shared.contains f.1).map
      (inputs.rightOutput kind)) :
    outputs.map (·.1.name) = inputs.outputNames shared ∧
      outputs.map (·.1.source) = inputs.outputSources kind shared := by
  have hlefts : lefts.map Prod.fst = inputs.left.fields.map fun f =>
      (⟨inputs.leftName shared f.1, leftSource kind shared f.1⟩ : JoinOutput) :=
    map_eq_map_of_forall₂ ((Result.forall₂_of_mapM h).flip.imp fun _ _ hout =>
      leftOutput_eq_ok hout)
  have hapart : inputs.rightApart shared =
      (inputs.right.fields.filter fun f => !shared.contains f.1).map Prod.fst := by
    rw [rightApart, Schema.names, List.filter_map]
    congr 1
    exact List.filter_congr fun f _ => by simp
  have hall : outputs.map Prod.fst =
      inputs.left.names.map (fun n => ⟨inputs.leftName shared n, leftSource kind shared n⟩) ++
        (inputs.rightApart shared).map fun n => ⟨inputs.rightName n, .right n⟩ := by
    rw [houtputs, List.map_append, hlefts, hapart, Schema.names, List.map_map, List.map_map,
      List.map_map]
    congr 1
    exact List.map_congr_left fun f _ => rightOutput_eq f
  have hnames := congrArg (List.map JoinOutput.name) hall
  have hsources := congrArg (List.map JoinOutput.source) hall
  simp only [List.map_append, List.map_map] at hnames hsources
  exact ⟨hnames, hsources⟩

variable (inputs) in
theorem exists_outputSchema_iff {outputs : List TypedOutput} :
    (∃ schema, inputs.outputSchema outputs = .ok schema) ↔ (outputs.map (·.1.name)).Nodup := by
  rw [← Schema.firstRepeated?_eq_none_iff, outputSchema]
  cases hfirst : Schema.firstRepeated? (outputs.map (·.1.name)) with
  | some n => simp
  | none =>
    have hnodup : ((outputs.map fun (p : TypedOutput) => (p.1.name, p.2)).map Prod.fst).Nodup := by
      rw [List.map_map]
      exact Schema.firstRepeated?_eq_none_iff.mp hfirst
    simp only [iff_true]
    exact ⟨⟨_, hnodup⟩, Schema.ofFields_eq_ok_iff.mpr rfl⟩

/-- The keys that come out once are columns of the right side. -/
theorem contains_of_mem_sharedNames
    (h : ∀ c ∈ conditions, inputs.right.contains c.right = true) {name : String}
    (hname : name ∈ sharedNames conditions) : inputs.right.contains name = true := by
  obtain ⟨c, hc, rfl⟩ := List.mem_map.mp hname
  obtain ⟨hc, hsame⟩ := List.mem_filter.mp hc
  rw [beq_iff_eq.mp hsame]
  exact h c hc

/-- **Outputs can be planned** for conditions between columns that are there, if their names
differ. -/
theorem exists_planOutputs_iff (h : ∀ c ∈ conditions, inputs.right.contains c.right = true) :
    (∃ p, inputs.planOutputs kind conditions = .ok p) ↔
      (kind.leftOnly = false → (inputs.outputNames (sharedNames conditions)).Nodup) := by
  unfold planOutputs
  cases hk : kind.leftOnly with
  | true => simp
  | false =>
    have hleft : ∀ f ∈ inputs.left.fields, ∃ out,
        inputs.leftOutput kind (sharedNames conditions) f = .ok out := fun _ _ =>
      exists_leftOutput (contains_of_mem_sharedNames h)
    obtain ⟨lefts, hlefts⟩ := Result.exists_mapM_eq_ok hleft
    obtain ⟨hnames, -⟩ := outputs_of_leftOutputs hlefts rfl
    rw [← hnames, ← exists_outputSchema_iff inputs]
    change (∃ p, (inputs.left.fields.mapM (inputs.leftOutput kind (sharedNames conditions)) >>= _) =
      .ok p) ↔ _
    rw [hlefts, Result.ok_bind, Result.exists_bind_eq_ok_iff]
    simp only [Result.pure_eq_ok, Except.ok.injEq, exists_eq', and_true, forall_const]
    rfl

theorem planOutputs_leftOnly {outputs : List JoinOutput} {schema : Schema}
    (hk : kind.leftOnly = true) (h : inputs.planOutputs kind conditions = .ok (outputs, schema)) :
    schema = inputs.left ∧ outputs = inputs.left.names.map fun n => ⟨n, .left n⟩ := by
  rw [planOutputs, if_pos hk] at h
  cases h
  exact ⟨rfl, rfl⟩

theorem planOutputs_bothSides {outputs : List JoinOutput} {schema : Schema}
    (hk : kind.leftOnly = false) (h : inputs.planOutputs kind conditions = .ok (outputs, schema)) :
    schema.names = outputs.map JoinOutput.name ∧
      schema.names = inputs.outputNames (sharedNames conditions) ∧
        outputs.map JoinOutput.source = inputs.outputSources kind (sharedNames conditions) := by
  rw [planOutputs, if_neg (by simp [hk])] at h
  obtain ⟨lefts, hlefts, h⟩ := Result.bind_eq_ok_iff.mp h
  obtain ⟨_, hschema, h⟩ := Result.bind_eq_ok_iff.mp h
  cases h
  obtain ⟨hnames, hsources⟩ := outputs_of_leftOutputs hlefts rfl
  have hfields : schema.names = _ := congrArg (List.map Prod.fst) (fields_of_outputSchema hschema)
  rw [List.map_map] at hfields
  refine ⟨?_, hfields.trans hnames, ?_⟩
  · rw [hfields, List.map_map]
    rfl
  · rw [List.map_map]
    exact hsources

/-! ### Planned joins -/

/-- **What a planned join is made of**: the predicate is split, the conditions pass their check, and
there are outputs for them. -/
theorem plan_eq_ok_iff {predicate : JoinPredicate} {join : Join} {schema : Schema} :
    inputs.plan predicate kind = .ok (join, schema) ↔ join.kind = kind ∧
      inputs.splitPredicate predicate = .ok (join.conditions, join.residual) ∧
      (∀ c ∈ join.conditions, inputs.checkKeyTypes c = .ok ()) ∧
      inputs.planOutputs kind join.conditions = .ok (join.outputs, schema) := by
  rw [plan]
  constructor
  · intro h
    obtain ⟨⟨conditions, residual⟩, hsplit, h⟩ := Result.bind_eq_ok_iff.mp h
    obtain ⟨_, hkeys, h⟩ := Result.bind_eq_ok_iff.mp h
    obtain ⟨⟨outputs, _⟩, houtputs, h⟩ := Result.bind_eq_ok_iff.mp h
    cases h
    exact ⟨rfl, hsplit, Result.forM_eq_ok_iff.mp hkeys, houtputs⟩
  · rintro ⟨rfl, hsplit, hkeys, houtputs⟩
    rw [hsplit, Result.ok_bind]
    dsimp only
    rw [Result.forM_eq_ok_iff.mpr hkeys, Result.ok_bind, houtputs]
    rfl

/-- The two columns are there, and their types are comparable. -/
def ComparablePair (inputs : JoinInputs) (l r : String) : Prop :=
  ∃ s t, inputs.left.type? l = some s ∧ inputs.right.type? r = some t ∧ s.isComparable t = true

theorem ComparablePair.contains {l r : String} (h : inputs.ComparablePair l r) :
    inputs.left.contains l = true ∧ inputs.right.contains r = true := by
  obtain ⟨s, t, hs, ht, -⟩ := h
  exact ⟨Schema.contains_iff_type?.mpr ⟨s, hs⟩, Schema.contains_iff_type?.mpr ⟨t, ht⟩⟩

theorem checkKeyTypes_eq_ok_iff {c : JoinCondition} :
    inputs.checkKeyTypes c = .ok () ↔ inputs.ComparablePair c.left c.right := by
  rw [checkKeyTypes, ComparablePair, Result.bind_eq_ok_iff]
  simp only [Result.bind_eq_ok_iff, Schema.typeOf_eq_ok_iff]
  constructor
  · rintro ⟨s, hs, t, ht, h⟩
    refine ⟨s, t, hs, ht, ?_⟩
    by_contra hc
    rw [if_neg hc] at h
    cases h
  · rintro ⟨s, t, hs, ht, hc⟩
    exact ⟨s, hs, t, ht, if_pos hc⟩

/-- **Whatever a join is planned on**, it has the columns that it should. -/
theorem laidOut_of_plan {predicate : JoinPredicate} {join : Join} {schema : Schema}
    (h : inputs.plan predicate kind = .ok (join, schema)) : inputs.LaidOut kind join schema := by
  obtain ⟨-, -, hkeys, houtputs⟩ := plan_eq_ok_iff.mp h
  have hconditions : ∀ c ∈ join.conditions,
      inputs.left.contains c.left = true ∧ inputs.right.contains c.right = true :=
    fun c hc => (checkKeyTypes_eq_ok_iff.mp (hkeys c hc)).contains
  have hreads := reads_of_planOutputs houtputs
  cases hk : kind.leftOnly with
  | true =>
    obtain ⟨hschema, hout⟩ := planOutputs_leftOnly hk houtputs
    have hnames : join.outputs.map JoinOutput.name = inputs.left.names := by
      rw [hout, List.map_map]
      exact List.map_id _
    have hsources : join.outputs.map JoinOutput.source = inputs.left.names.map .left := by
      rw [hout, List.map_map]
      rfl
    exact {
      names_eq := by rw [hschema, hnames]
      names_nodup := by
        rw [hnames]
        exact inputs.left.nodup
      conditions := hconditions
      reads := hreads
      sources_nodup := by
        rw [hsources]
        exact List.Nodup.map (fun _ _ h => JoinSource.left.inj h) inputs.left.nodup
      leftOnly := fun _ => ⟨hschema, hsources⟩
      bothSides := fun hk' => absurd (hk.symm.trans hk') (by decide) }
  | false =>
    obtain ⟨hnames, houtnames, hsources⟩ := planOutputs_bothSides hk houtputs
    exact {
      names_eq := hnames
      names_nodup := hnames ▸ schema.nodup
      conditions := hconditions
      reads := hreads
      sources_nodup := hsources ▸ nodup_outputSources
      leftOnly := fun hk' => absurd (hk.symm.trans hk') (by decide)
      bothSides := fun _ => ⟨houtnames, hsources⟩ }

/-! ### Pairs of columns -/

theorem conditionOfPair_eq_ok_iff {pair : String × String} {c : JoinCondition} :
    inputs.conditionOfPair pair = .ok c ↔
      (inputs.left.contains pair.1 = true ∧ inputs.right.contains pair.2 = true) ∧
        c = ⟨pair.1, pair.2⟩ := by
  obtain ⟨l, r⟩ := pair
  unfold conditionOfPair
  dsimp only
  split <;> rename_i hl hr <;> simp [hl, hr, eq_comm]

/-- The condition that a pair of names stands for. -/
def pairCondition (pair : String × String) : JoinCondition := ⟨pair.1, pair.2⟩

theorem splitPredicate_columns_iff {pairs : List (String × String)} {residual : Option Expr} :
    inputs.splitPredicate (.columns pairs) = .ok (conditions, residual) ↔
      (∀ pair ∈ pairs, inputs.left.contains pair.1 = true ∧ inputs.right.contains pair.2 = true) ∧
        conditions = pairs.map pairCondition ∧ residual = none := by
  rw [splitPredicate, Result.bind_eq_ok_iff]
  simp only [Result.mapM_eq_ok_map_iff fun pair _ _ => conditionOfPair_eq_ok_iff,
    Result.pure_eq_ok, Except.ok.injEq, Prod.mk.injEq]
  constructor
  · rintro ⟨_, ⟨hcontains, rfl⟩, rfl, rfl⟩
    exact ⟨hcontains, rfl, rfl⟩
  · rintro ⟨hcontains, rfl, rfl⟩
    exact ⟨_, ⟨hcontains, rfl⟩, rfl, rfl⟩

/-- **A join on pairs of columns can be planned** exactly if all pairs are of comparable columns
and, where both sides are kept, the names that come out differ. -/
theorem exists_plan_columns_iff {pairs : List (String × String)} :
    (∃ p, inputs.plan (.columns pairs) kind = .ok p) ↔
      (∀ pair ∈ pairs, inputs.ComparablePair pair.1 pair.2) ∧
        (kind.leftOnly = false →
          (inputs.outputNames (sharedNames (pairs.map pairCondition))).Nodup) := by
  have hright (h : ∀ pair ∈ pairs, inputs.ComparablePair pair.1 pair.2) :
      ∀ c ∈ pairs.map pairCondition, inputs.right.contains c.right = true :=
    List.forall_mem_map.mpr fun pair hpair => (h pair hpair).contains.2
  constructor
  · rintro ⟨⟨join, schema⟩, h⟩
    obtain ⟨-, hsplit, hkeys, houtputs⟩ := plan_eq_ok_iff.mp h
    obtain ⟨-, hconditions, -⟩ := splitPredicate_columns_iff.mp hsplit
    rw [hconditions] at hkeys houtputs
    have hpairs : ∀ pair ∈ pairs, inputs.ComparablePair pair.1 pair.2 := fun pair hpair =>
      checkKeyTypes_eq_ok_iff.mp (hkeys _ (List.mem_map_of_mem hpair))
    exact ⟨hpairs, (exists_planOutputs_iff (hright hpairs)).mp ⟨_, houtputs⟩⟩
  · rintro ⟨hpairs, hnames⟩
    have hsplit := splitPredicate_columns_iff.mpr
      ⟨fun pair hpair => (hpairs pair hpair).contains, rfl, rfl⟩
    have hkeys : ∀ c ∈ pairs.map pairCondition, inputs.checkKeyTypes c = .ok () :=
      List.forall_mem_map.mpr fun pair hpair => checkKeyTypes_eq_ok_iff.mpr (hpairs pair hpair)
    obtain ⟨⟨outputs, schema⟩, houtputs⟩ := (exists_planOutputs_iff (hright hpairs)).mpr hnames
    exact ⟨(⟨kind, _, none, outputs⟩, schema), plan_eq_ok_iff.mpr ⟨rfl, hsplit, hkeys, houtputs⟩⟩

variable (inputs kind) in
/-- **When joins can be planned, and what comes out of them.** Pairs of columns can be joined on
exactly if all of them are of comparable columns and, where both sides are kept, the names that come
out differ; every join that can be planned has the columns that it should. -/
theorem plan_columns_iff_and_laidOut :
    (∀ pairs : List (String × String),
      (∃ p, inputs.plan (.columns pairs) kind = .ok p) ↔
        (∀ pair ∈ pairs, inputs.ComparablePair pair.1 pair.2) ∧
          (kind.leftOnly = false →
            (inputs.outputNames (sharedNames (pairs.map pairCondition))).Nodup)) ∧
      ∀ (predicate : JoinPredicate) (join : Join) (schema : Schema),
        inputs.plan predicate kind = .ok (join, schema) → inputs.LaidOut kind join schema :=
  ⟨fun _ => exists_plan_columns_iff, fun _ _ _ => laidOut_of_plan⟩

/-- A full join on a shared key and on two columns whose names the other side has too: the key comes
out once, and suffixes keep the other names apart. With empty suffixes it cannot be planned. -/
theorem plan_full_shared_key :
    let left : Schema := ⟨[("k", .int64), ("a", .int64), ("b", .utf8)], by decide⟩
    let right : Schema := ⟨[("b", .int64), ("k", .int64), ("a", .utf8)], by decide⟩
    let pairs := [("k", "k"), ("a", "b")]
    let inputs : JoinSuffixes → JoinInputs := fun suffixes =>
      ⟨⟨0⟩, left, ⟨1⟩, right, suffixes, none⟩
    (∃ join schema, (inputs ⟨"_l", "_r"⟩).plan (.columns pairs) .full = .ok (join, schema) ∧
      schema.names = ["k", "a_l", "b_l", "b_r", "a_r"] ∧
      join.outputs.map JoinOutput.source =
        [.coalesce "k" "k", .left "a", .left "b", .right "b", .right "a"] ∧
      (inputs ⟨"_l", "_r"⟩).LaidOut .full join schema) ∧
    ¬ ∃ p, (inputs ⟨"", ""⟩).plan (.columns pairs) .full = .ok p := by
  intro left right pairs inputs
  have hpairs : ∀ suffixes, ∀ pair ∈ pairs, (inputs suffixes).ComparablePair pair.1 pair.2 := by
    intro suffixes
    exact List.forall_mem_cons.mpr ⟨⟨_, _, rfl, rfl, rfl⟩,
      List.forall_mem_singleton.mpr ⟨_, _, rfl, rfl, rfl⟩⟩
  constructor
  · obtain ⟨hiff, hlaid⟩ := plan_columns_iff_and_laidOut (inputs ⟨"_l", "_r"⟩) .full
    obtain ⟨⟨join, schema⟩, hplan⟩ := (hiff pairs).mpr ⟨hpairs _, fun _ => by decide⟩
    have hconditions : join.conditions = pairs.map pairCondition :=
      (Option.some.inj (congrArg (fun r => r.toOption.map (·.1.conditions)) hplan)).symm
    have hout := hlaid _ _ _ hplan
    obtain ⟨hnames, hsources⟩ := hout.bothSides rfl
    rw [hconditions] at hnames hsources
    exact ⟨join, schema, hplan, hnames, hsources, hout⟩
  · obtain ⟨hiff, -⟩ := plan_columns_iff_and_laidOut (inputs ⟨"", ""⟩) .full
    intro h
    exact absurd (((hiff pairs).mp h).2 rfl) (by decide)

end JoinInputs

end TableQuery
