/-! # Grouping by key

Groups of items with equal keys, in the order in which their keys are first seen. A group is a key
with some content; `alterM` changes the content of one group and adds the group behind the others
when its key is new. `ofItems` collects items, so that its groups hold the items of each key in
their order (`content_ofItems`). -/

namespace TableQuery

namespace Grouping

variable {κ α β : Type} [DecidableEq κ]

/-- The groups with the content of one changed; a group that is new starts from `initial`. -/
def alterM {m : Type → Type} [Monad m] (k : κ) (initial : β) (f : β → m β) :
    List (κ × β) → m (List (κ × β))
  | [] => do return [(k, ← f initial)]
  | (l, v) :: r => do
    if k = l then return (l, ← f v) :: r else return (l, v) :: (← alterM k initial f r)

/-- The groups with one more item. -/
def insert (k : κ) (x : α) : List (κ × List α) → List (κ × List α)
  | [] => [(k, [x])]
  | (l, xs) :: r => if k = l then (l, xs ++ [x]) :: r else (l, xs) :: insert k x r

/-- The items grouped by their keys. -/
def ofItems (items : List (κ × α)) : List (κ × List α) :=
  items.foldl (fun groups (k, x) => insert k x groups) []

/-- The items of a key. -/
def content (k : κ) (groups : List (κ × List α)) : List α := (groups.lookup k).getD []

theorem content_insert (k l : κ) (x : α) (groups : List (κ × List α)) :
    content l (insert k x groups) = content l groups ++ if l = k then [x] else [] := by
  induction groups with
  | nil =>
    by_cases h : l = k
    · simp [insert, content, h]
    · simp [insert, content, List.lookup_cons, h, beq_false_of_ne h]
  | cons g r ih =>
    obtain ⟨m, xs⟩ := g
    by_cases hk : k = m <;> by_cases hl : l = m
    · subst hk hl; simp [insert, content]
    · subst hk; simp [insert, content, List.lookup_cons, hl, beq_false_of_ne hl]
    · subst hl; simp [insert, content, hk, Ne.symm hk]
    · have := beq_false_of_ne hl
      simpa [insert, content, List.lookup_cons, hk, this] using ih

/-- A group holds the items of its key in their order. -/
theorem content_ofItems (l : κ) (items : List (κ × α)) :
    content l (ofItems items) = (items.filter (fun p => l = p.1)).map Prod.snd := by
  have go : ∀ groups : List (κ × List α),
      content l (items.foldl (fun groups (k, x) => insert k x groups) groups) =
        content l groups ++ (items.filter (fun p => l = p.1)).map Prod.snd := by
    induction items with
    | nil => simp
    | cons p r ih =>
      obtain ⟨k, x⟩ := p
      intro groups
      rw [List.foldl_cons, ih, content_insert]
      by_cases h : l = k <;> simp [h]
  simpa [ofItems, content] using go []

end Grouping

end TableQuery
