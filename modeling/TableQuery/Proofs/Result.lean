import Mathlib.Data.List.Forall2
import TableQuery.Error

/-! # Results taken apart

Computations that may fail are steps in `Result`, or in `Except` with errors of their own.
`bind_eq_ok_iff` takes a successful one apart, and `mapM_eq_ok_map` puts together the successes of
the elements of a list; `exists_of_mem_mapM` goes back from a result on the list to the element it
comes from. Where it matters how a computation fails too, `Decides` says under which condition it
succeeds, and what its results and errors are. -/

namespace TableQuery

/-- Two lists side by side, position by position. -/
theorem forall₂_iff_getElem? {α β : Type} {R : α → β → Prop} {xs : List α} {ys : List β} :
    List.Forall₂ R xs ys ↔ xs.length = ys.length ∧
      ∀ (i : Nat) (x : α) (y : β), xs[i]? = some x → ys[i]? = some y → R x y := by
  rw [List.forall₂_iff_get]
  refine and_congr_right fun _ => ⟨fun h i x y hx hy => ?_, fun h i hi hk => ?_⟩
  · obtain ⟨hi, rfl⟩ := List.getElem?_eq_some_iff.mp hx
    obtain ⟨hk, rfl⟩ := List.getElem?_eq_some_iff.mp hy
    exact h i hi hk
  · exact h i _ _ (List.getElem?_eq_getElem hi) (List.getElem?_eq_getElem hk)

theorem exists_of_forall₂_getElem? {α β : Type} {R : α → β → Prop} {xs : List α} {ys : List β}
    (h : List.Forall₂ R xs ys) {i : Nat} {x : α} (hx : xs[i]? = some x) :
    ∃ y, ys[i]? = some y ∧ R x y := by
  obtain ⟨hlength, hall⟩ := forall₂_iff_getElem?.mp h
  have hi : i < ys.length := hlength ▸ (List.getElem?_eq_some_iff.mp hx).1
  exact ⟨_, List.getElem?_eq_getElem hi, hall i x _ hx (List.getElem?_eq_getElem hi)⟩

/-- Two lists beside a third one are beside each other. -/
theorem forall₂_of_beside {α β γ : Type} {R : α → β → Prop} {S : α → γ → Prop} {T : β → γ → Prop}
    (hT : ∀ x y z, R x y → S x z → T y z) {xs : List α} {ys : List β} {zs : List γ}
    (hR : List.Forall₂ R xs ys) (hS : List.Forall₂ S xs zs) : List.Forall₂ T ys zs := by
  induction hR generalizing zs with
  | nil =>
    cases hS
    exact .nil
  | cons hxy _ ih =>
    cases hS with
    | cons hxz hrest => exact .cons (hT _ _ _ hxy hxz) (ih hrest)

theorem map_eq_map_of_forall₂ {α β γ : Type} {f : α → γ} {g : β → γ} {xs : List α} {ys : List β}
    (h : List.Forall₂ (fun x y => f x = g y) xs ys) : xs.map f = ys.map g := by
  rw [← List.forall₂_eq_eq_eq, List.forall₂_map_left_iff, List.forall₂_map_right_iff]
  exact h

namespace Result

variable {ε α β : Type}

@[simp] theorem ok_bind (a : α) (f : α → Result β) : ((.ok a : Result α) >>= f) = f a := rfl

@[simp] theorem error_bind (e : Error) (f : α → Result β) :
    ((.error e : Result α) >>= f) = .error e := rfl

@[simp] theorem pure_eq_ok (a : α) : (pure a : Result α) = .ok a := rfl

/-- **A computation succeeds** when its first step does and the rest does on what it gives. -/
theorem bind_eq_ok_iff {x : Except ε α} {f : α → Except ε β} {b : β} :
    (x >>= f) = .ok b ↔ ∃ a, x = .ok a ∧ f a = .ok b := by
  cases x with
  | error e => exact ⟨fun h => (nomatch h), fun ⟨_, h, _⟩ => (nomatch h)⟩
  | ok a => exact ⟨fun h => ⟨a, rfl, h⟩, fun ⟨_, ha, h⟩ => by cases ha; exact h⟩

theorem exists_bind_eq_ok_iff {x : Result α} {f : α → Result β} :
    (∃ b, (x >>= f) = .ok b) ↔ ∃ a, x = .ok a ∧ ∃ b, f a = .ok b := by
  cases x with
  | error e => simp
  | ok a => simp

theorem map_eq_ok_iff {x : Except ε α} {f : α → β} {b : β} :
    x.map f = .ok b ↔ ∃ a, x = .ok a ∧ f a = b := by
  cases x <;> simp [Except.map]

theorem map_of_bind {γ : Type} (x : Except ε α) (f : α → Except ε β) (g : β → γ) :
    (x >>= f).map g = x >>= fun a => (f a).map g := by
  cases x <;> rfl

theorem bind_of_map {γ : Type} (x : Except ε α) (f : α → β) (g : β → Except ε γ) :
    x.map f >>= g = x >>= fun a => g (f a) := by
  cases x <;> rfl

theorem toOption_eq_some_iff {x : Except ε α} {a : α} : x.toOption = some a ↔ x = .ok a := by
  cases x <;> simp [Except.toOption]

/-- Steps that succeed on every element of a list succeed on the list. -/
theorem mapM_eq_ok_map {f : α → Result β} {g : α → β} : ∀ {xs : List α},
    (∀ x ∈ xs, f x = .ok (g x)) → xs.mapM f = .ok (xs.map g)
  | [], _ => rfl
  | x :: xs, h => by
    have hx := h x (by simp)
    have ih := mapM_eq_ok_map fun y hy => h y (List.mem_cons_of_mem x hy)
    rw [List.mapM_cons, hx, ok_bind, ih]
    rfl

theorem mapM_congr {f g : α → Result β} : ∀ {xs : List α}, (∀ x ∈ xs, f x = g x) →
    xs.mapM f = xs.mapM g
  | [], _ => rfl
  | x :: xs, h => by
    have ih := mapM_congr fun y hy => h y (List.mem_cons_of_mem x hy)
    rw [List.mapM_cons, List.mapM_cons, h x List.mem_cons_self, ih]

/-- The results on a list stand in the places of its elements. -/
theorem forall₂_of_mapM {f : α → Except ε β} : ∀ {xs : List α} {ys : List β},
    xs.mapM f = .ok ys → List.Forall₂ (fun x y => f x = .ok y) xs ys
  | [], _, h => by
    cases h
    exact .nil
  | x :: xs, _, h => by
    rw [List.mapM_cons] at h
    obtain ⟨y, hy, h⟩ := bind_eq_ok_iff.mp h
    obtain ⟨ys, hys, h⟩ := bind_eq_ok_iff.mp h
    cases h
    exact .cons hy (forall₂_of_mapM hys)

theorem mapM_of_forall₂ {f : α → Except ε β} {xs : List α} {ys : List β}
    (h : List.Forall₂ (fun x y => f x = .ok y) xs ys) : xs.mapM f = .ok ys := by
  induction h with
  | nil => rfl
  | cons hx _ ih =>
    rw [List.mapM_cons, hx, ih]
    rfl

/-- Every element of a list has its result among those of the list. -/
theorem exists_of_mapM {f : α → Result β} {xs : List α} {ys : List β} (h : xs.mapM f = .ok ys)
    {x : α} (hx : x ∈ xs) : ∃ y ∈ ys, f x = .ok y := by
  have hall := forall₂_of_mapM h
  clear h
  induction hall with
  | nil => cases hx
  | cons hz _ ih =>
    rcases List.mem_cons.mp hx with rfl | hx
    · exact ⟨_, List.mem_cons_self, hz⟩
    · obtain ⟨y, hy, hxy⟩ := ih hx
      exact ⟨y, List.mem_cons_of_mem _ hy, hxy⟩

theorem mem_of_mapM {f : α → Result β} {xs : List α} {ys : List β} (h : xs.mapM f = .ok ys)
    {x : α} (hx : x ∈ xs) {y : β} (hy : f x = .ok y) : y ∈ ys := by
  obtain ⟨z, hz, hxz⟩ := exists_of_mapM h hx
  rw [hy] at hxz
  cases hxz
  exact hz

/-- Every result on a list comes from one of its elements. -/
theorem exists_of_mem_mapM {f : α → Except ε β} : ∀ {xs : List α} {ys : List β},
    xs.mapM f = .ok ys → ∀ y ∈ ys, ∃ x ∈ xs, f x = .ok y
  | [], _, h, y, hy => by
    cases h
    cases hy
  | x :: xs, _, h, y, hy => by
    rw [List.mapM_cons] at h
    obtain ⟨z, hz, h⟩ := bind_eq_ok_iff.mp h
    obtain ⟨zs, hzs, h⟩ := bind_eq_ok_iff.mp h
    cases h
    rcases List.mem_cons.mp hy with rfl | hy
    · exact ⟨x, by simp, hz⟩
    · obtain ⟨w, hw, hwy⟩ := exists_of_mem_mapM hzs y hy
      exact ⟨w, List.mem_cons_of_mem x hw, hwy⟩

theorem exists_mapM_eq_ok {f : α → Result β} : ∀ {xs : List α},
    (∀ x ∈ xs, ∃ y, f x = .ok y) → ∃ ys, xs.mapM f = .ok ys
  | [], _ => ⟨[], rfl⟩
  | x :: xs, h => by
    obtain ⟨y, hy⟩ := h x (by simp)
    obtain ⟨ys, hys⟩ := exists_mapM_eq_ok fun z hz => h z (List.mem_cons_of_mem x hz)
    exact ⟨y :: ys, by rw [List.mapM_cons, hy, ok_bind, hys]; rfl⟩

/-- A traversal by steps that succeed under some condition. -/
theorem mapM_eq_ok_map_iff {f : α → Result β} {P : α → Prop} {g : α → β} :
    ∀ {xs : List α}, (∀ x ∈ xs, ∀ y, f x = .ok y ↔ P x ∧ y = g x) →
      ∀ {ys : List β}, xs.mapM f = .ok ys ↔ (∀ x ∈ xs, P x) ∧ ys = xs.map g
  | [], _, ys => by simp [eq_comm]
  | x :: xs, h, ys => by
    have ih := @mapM_eq_ok_map_iff f P g xs fun y hy => h y (List.mem_cons_of_mem x hy)
    simp only [List.mapM_cons, bind_eq_ok_iff, h x List.mem_cons_self, ih, pure_eq_ok,
      Except.ok.injEq, List.forall_mem_cons, List.map_cons]
    constructor
    · rintro ⟨_, ⟨hx, rfl⟩, _, ⟨hxs, rfl⟩, rfl⟩
      exact ⟨⟨hx, hxs⟩, rfl⟩
    · rintro ⟨⟨hx, hxs⟩, rfl⟩
      exact ⟨_, ⟨hx, rfl⟩, _, ⟨hxs, rfl⟩, rfl⟩

/-- **A traversal succeeds** exactly when every element does, and gives what each one gives. -/
theorem mapM_eq_ok_iff {f : α → Result β} (d : β) {xs : List α} {ys : List β} :
    xs.mapM f = .ok ys ↔
      (∀ x ∈ xs, ∃ y, f x = .ok y) ∧ ys = xs.map fun x => (f x).toOption.getD d := by
  refine mapM_eq_ok_map_iff fun x _ y => ?_
  cases f x <;> simp [Except.toOption, eq_comm]

/-- A check of a list is a check of each element. -/
theorem forM_eq_ok_iff {f : α → Result Unit} : ∀ {xs : List α},
    xs.forM f = .ok () ↔ ∀ x ∈ xs, f x = .ok ()
  | [] => by simp
  | x :: xs => by
    have hcons : (x :: xs).forM f = f x >>= fun _ => xs.forM f := rfl
    rw [hcons, bind_eq_ok_iff, List.forall_mem_cons, ← forM_eq_ok_iff]
    exact ⟨fun ⟨_, hx, h⟩ => ⟨hx, h⟩, fun ⟨hx, h⟩ => ⟨(), hx, h⟩⟩

/-! ### Computations that a condition decides -/

/-- **A condition decides a computation**: under it the computation succeeds with a good result, and
without it there is an error of a known kind. -/
structure Decides (r : Result α) (c : Prop) (good : α → Prop) (bad : Error → Prop) : Prop where
  ok : c → ∃ a, r = .ok a ∧ good a
  error : ¬ c → ∃ e, r = .error e ∧ bad e

namespace Decides

variable {r : Result α} {c c' : Prop} {good : α → Prop} {bad : Error → Prop}

theorem of_ok {a : α} (hr : r = .ok a) (ha : good a) (hc : c) : r.Decides c good bad :=
  ⟨fun _ => ⟨a, hr, ha⟩, fun h => absurd hc h⟩

theorem of_error {e : Error} (hr : r = .error e) (he : bad e) (hc : ¬ c) : r.Decides c good bad :=
  ⟨fun h => absurd h hc, fun _ => ⟨e, hr, he⟩⟩

theorem congr (h : r.Decides c good bad) (hc : c ↔ c') : r.Decides c' good bad :=
  propext hc ▸ h

theorem mono {good' : α → Prop} (h : r.Decides c good bad) (hgood : ∀ a, good a → good' a) :
    r.Decides c good' bad :=
  ⟨fun hc => (h.ok hc).imp fun a ha => ⟨ha.1, hgood a ha.2⟩, h.error⟩

theorem mono_error {bad' : Error → Prop} (h : r.Decides c good bad) (hbad : ∀ e, bad e → bad' e) :
    r.Decides c good bad' :=
  ⟨h.ok, fun hc => (h.error hc).imp fun e he => ⟨he.1, hbad e he.2⟩⟩

/-- A good result is what the computation gives. -/
theorem with_eq (h : r.Decides c good bad) : r.Decides c (fun a => r = .ok a ∧ good a) bad :=
  ⟨fun hc => (h.ok hc).imp fun _ ha => ⟨ha.1, ha⟩, h.error⟩

theorem isOk_iff (h : r.Decides c good bad) : (∃ a, r = .ok a) ↔ c := by
  constructor
  · rintro ⟨a, ha⟩
    by_contra hc
    obtain ⟨e, he, -⟩ := h.error hc
    rw [ha] at he
    cases he
  · intro hc
    obtain ⟨a, ha, -⟩ := h.ok hc
    exact ⟨a, ha⟩

theorem good_of_ok (h : r.Decides c good bad) {a : α} (ha : r = .ok a) : good a := by
  obtain ⟨b, hb, hgood⟩ := h.ok (h.isOk_iff.mp ⟨a, ha⟩)
  rw [ha] at hb
  cases hb
  exact hgood

theorem bad_of_error (h : r.Decides c good bad) {e : Error} (he : r = .error e) : bad e := by
  have hc : ¬ c := by
    intro hc
    obtain ⟨a, ha, -⟩ := h.ok hc
    rw [he] at ha
    cases ha
  obtain ⟨e', he', hbad⟩ := h.error hc
  rw [he] at he'
  cases he'
  exact hbad

/-- Two steps are decided by both conditions. -/
theorem bind {f : α → Result β} {good' : β → Prop} (h : r.Decides c good bad)
    (hf : ∀ a, good a → (f a).Decides c' good' bad) : (r >>= f).Decides (c ∧ c') good' bad := by
  constructor
  · rintro ⟨hc, hc'⟩
    obtain ⟨a, rfl, ha⟩ := h.ok hc
    exact (hf a ha).ok hc'
  · intro hnot
    by_cases hc : c
    · obtain ⟨a, rfl, ha⟩ := h.ok hc
      exact (hf a ha).error fun hc' => hnot ⟨hc, hc'⟩
    · obtain ⟨e, rfl, he⟩ := h.error hc
      exact ⟨e, rfl, he⟩

/-- A last step that succeeds on every good result. -/
theorem bind_ok {f : α → Result β} {good' : β → Prop} (h : r.Decides c good bad)
    (hf : ∀ a, good a → ∃ b, f a = .ok b ∧ good' b) : (r >>= f).Decides c good' bad :=
  have hstep : ∀ a, good a → (f a).Decides True good' bad := fun a ha =>
    let ⟨_, hb, hgood⟩ := hf a ha
    of_ok hb hgood trivial
  (h.bind hstep).congr (Iff.of_eq (and_true c))

/-- A last step that cannot fail. -/
theorem bind_pure {f : α → β} {good' : β → Prop} (h : r.Decides c good bad)
    (hf : ∀ a, good a → good' (f a)) : (r >>= fun a => pure (f a)).Decides c good' bad :=
  h.bind_ok fun a ha => ⟨f a, rfl, hf a ha⟩

theorem map {f : α → β} {good' : β → Prop} (h : r.Decides c good bad)
    (hf : ∀ a, good a → good' (f a)) : Decides (r.map f) c good' bad := by
  have hmap : r.map f = r >>= fun a => pure (f a) := by cases r <;> rfl
  rw [hmap]
  exact h.bind_pure hf

/-- A traversal is decided by the conditions of all elements. -/
theorem mapM {f : α → Result β} {C : α → Prop} {G : α → β → Prop} : ∀ {xs : List α},
    (∀ x ∈ xs, (f x).Decides (C x) (G x) bad) →
      (xs.mapM f).Decides (∀ x ∈ xs, C x) (List.Forall₂ G xs) bad
  | [], _ => .of_ok rfl .nil (by simp)
  | x :: xs, h => by
    have ih := mapM fun y hy => h y (List.mem_cons_of_mem x hy)
    rw [List.mapM_cons]
    exact ((h x List.mem_cons_self).bind fun y hy => ih.bind_pure fun ys hys => .cons hy hys).congr
      List.forall_mem_cons.symm

end Decides

end Result

end TableQuery
