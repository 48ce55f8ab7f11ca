import TableQuery.Proofs.DataType.Order

/-! # Common supertypes of many types

Covering is no order: a decimal may cover another one that covers an integer, and still have too
few digits for that integer at its own scale. It is an order, and the common supertype is the least
cover of two types, where the decimals of the greater type have room for the integers below them
(`Covers.trans`, `exists_supertype?_of_covers`).

So it depends on their order which type many types have in common, but only in the precision of
decimals that stand where some of the types have an integer. `DataType.withRoomForAll` gives these
decimals all the digits there are, which unifying two types respects
(`supertype?_withRoomForAll`). With that room, the common type is the same for every order and
covers every type (`exists_foldlM_of_perm`, `covers_of_foldlM`). -/

namespace TableQuery

namespace BaseType

variable {a b c d : BaseType}

/-- A decimal type has room for the digits of an integer type, whatever the scale. -/
def Roomy : BaseType → BaseType → Prop
  | .decimal p _, .int _ => p = maxPrecision
  | _, _ => True

theorem Covers.trans (hab : a.Covers b) (hbc : b.Covers c) (hroom : a.Roomy c) : a.Covers c := by
  cases hab with
  | refl => exact hbc
  | int h =>
    cases hbc with
    | refl => exact .int h
    | int h' => exact .int (by rw [← h, IntType.join_assoc, h'])
  | float h =>
    cases hbc with
    | refl => exact .float h
    | float h' => exact .float (Nat.le_trans h' h)
    | floatOfInt t =>
      rw [FloatType.eq_float64_of_bits_le h]
      exact .floatOfInt t
    | floatOfDecimal p s =>
      rw [FloatType.eq_float64_of_bits_le h]
      exact .floatOfDecimal p s
  | floatOfInt t =>
    cases hbc with
    | refl | int => exact .floatOfInt _
  | floatOfDecimal p s =>
    cases hbc with
    | refl | decimal => exact .floatOfDecimal _ _
    | decimalOfInt => exact .floatOfInt _
  | decimal hp hs =>
    cases hbc with
    | refl => exact .decimal hp hs
    | decimal hp' hs' => exact .decimal (Nat.le_trans hp' hp) (Nat.le_trans hs' hs)
    | decimalOfInt h =>
      cases hroom
      exact .decimalOfInt (by omega)
  | decimalOfInt h =>
    cases hbc with
    | refl => exact .decimalOfInt h
    | int h' =>
      cases hroom
      exact .decimalOfInt (by omega)
  | interval h =>
    cases hbc with
    | refl => exact .interval h
    | interval h' => exact .interval (Nat.le_trans h' h)

theorem roomy_supertype? (h : b.supertype? c = some d) (hb : a.Roomy b) (hc : a.Roomy c) :
    a.Roomy d := by
  cases joins_of_supertype? h with
  | refl => exact hb
  | int => cases a <;> exact hb
  | _ => cases a <;> trivial

/-- **Two covered types have a common supertype**, and it is covered, too. -/
theorem exists_supertype?_of_covers (hb : a.Covers b) (hc : a.Covers c) (hroom : a.Roomy b)
    (hroom' : a.Roomy c) : ∃ d, b.supertype? c = some d ∧ a.Covers d := by
  cases hc with
  | refl => exact ⟨a, (supertype?_comm b a).trans (covers_iff.mp hb), .refl a⟩
  | int h' =>
    cases hb with
    | refl => exact ⟨_, covers_iff.mp (.int h'), .refl _⟩
    | int h => exact ⟨_, rfl, .int (by rw [← IntType.join_assoc, h, h'])⟩
  | float h' =>
    cases hb with
    | refl => exact ⟨_, covers_iff.mp (.float h'), .refl _⟩
    | float h =>
      exact ⟨_, rfl, .float (by rw [FloatType.bits_ofBits_max]; exact Nat.max_le.mpr ⟨h, h'⟩)⟩
    | floatOfInt | floatOfDecimal => exact ⟨_, rfl, .refl _⟩
  | floatOfInt t =>
    cases hb with
    | refl | float => exact ⟨_, rfl, .refl _⟩
    | floatOfInt => exact ⟨_, rfl, .floatOfInt _⟩
    | floatOfDecimal => exact ⟨_, rfl, .floatOfDecimal _ _⟩
  | floatOfDecimal p s =>
    cases hb with
    | refl | float => exact ⟨_, rfl, .refl _⟩
    | floatOfInt | floatOfDecimal => exact ⟨_, rfl, .floatOfDecimal _ _⟩
  | decimal hp' hs' =>
    cases hb with
    | refl => exact ⟨_, covers_iff.mp (.decimal hp' hs'), .refl _⟩
    | decimal hp hs =>
      exact ⟨_, rfl, .decimal (Nat.max_le.mpr ⟨hp, hp'⟩) (Nat.max_le.mpr ⟨hs, hs'⟩)⟩
    | decimalOfInt h =>
      cases hroom
      exact ⟨_, rfl, .decimal (Nat.min_le_right _ _) hs'⟩
  | decimalOfInt h' =>
    cases hroom'
    cases hb with
    | refl => exact ⟨_, covers_iff.mp (.decimalOfInt h'), .refl _⟩
    | decimal hp hs => exact ⟨_, rfl, .decimal (Nat.min_le_right _ _) hs⟩
    | decimalOfInt h => exact ⟨_, rfl, .decimalOfInt (by omega)⟩
  | interval h' =>
    cases hb with
    | refl => exact ⟨_, covers_iff.mp (.interval h'), .refl _⟩
    | interval h =>
      exact ⟨_, rfl, .interval (by rw [IntervalUnit.rank_finest]; exact Nat.max_le.mpr ⟨h, h'⟩)⟩

/-- The type with room for the digits of the other one, if that is an integer type. -/
def withRoomFor : BaseType → BaseType → BaseType
  | .decimal _ s, .int _ => .decimal maxPrecision s
  | a, _ => a

theorem withRoomFor_of_ne_int (a : BaseType) (h : ∀ t, b ≠ .int t) : a.withRoomFor b = a := by
  cases b with
  | int t => exact absurd rfl (h t)
  | _ => cases a <;> rfl

theorem roomy_withRoomFor_self (a b : BaseType) : (a.withRoomFor b).Roomy b := by
  cases a <;> cases b <;> trivial

theorem Roomy.withRoomFor (h : a.Roomy b) (c : BaseType) : (a.withRoomFor c).Roomy b := by
  cases a <;> cases c <;> first | exact h | (cases b <;> trivial)

theorem roomy_withRoomFor_right (a b c : BaseType) : a.Roomy (b.withRoomFor c) ↔ a.Roomy b := by
  cases b <;> cases c <;> first | exact Iff.rfl | (cases a <;> exact Iff.rfl)

theorem decimalWithInt_maxPrecision (s : Nat) (t : IntType) :
    decimalWithInt maxPrecision s t = .decimal maxPrecision s := by
  rw [decimalWithInt, Nat.min_eq_right (Nat.le_max_left _ _)]

/-- **Unifying two types and making room commute.** -/
theorem supertype?_withRoomFor (a b c : BaseType) :
    (a.withRoomFor c).supertype? (b.withRoomFor c) = (a.supertype? b).map (·.withRoomFor c) := by
  cases c with
  -- Room is only made for integers.
  | int t =>
    cases a <;> cases b <;> first
      | rfl
      | simp [withRoomFor, supertype?, decimalWithInt_maxPrecision]
    all_goals rfl
  | _ => simp [withRoomFor_of_ne_int]

end BaseType

/-! ### Least covers -/

namespace DataType

mutual

/-- Wherever the other type has an integer, decimals of the type have room for it. -/
def Roomy : DataType → DataType → Prop
  | .base a _, .base b _ => a.Roomy b
  | .list a _, .list b _ => Roomy a b
  | .struct a _, .struct b _ => RoomyAll a b
  | .map k v _, .map l w _ => Roomy k l ∧ Roomy v w
  | _, _ => True

def RoomyAll : List (String × DataType) → List (String × DataType) → Prop
  | (_, t) :: r, (_, u) :: s => Roomy t u ∧ RoomyAll r s
  | _, _ => True

end

variable {a b c d : DataType} {n : Bool}

mutual

/-- **What covers a type covers what that type covers**, if it has room for its integers. -/
theorem Covers.trans : ∀ {a b c : DataType}, a.Covers b → b.Covers c → a.Roomy c → a.Covers c
  | a, b, .null, hab, hbc, _ => by
    cases hbc with
    | null hb => exact .null (hab.nullable hb)
  | a, b, .base u k, hab, hbc, hroom => by
    cases hbc with
    | base h hk =>
      cases hab with
      | base h' hn => exact .base (h'.trans h hroom) (hn ∘ hk)
  | a, b, .list u k, hab, hbc, hroom => by
    cases hbc with
    | list h hk =>
      cases hab with
      | list h' hn => exact .list (Covers.trans h' h hroom) (hn ∘ hk)
  | a, b, .struct us k, hab, hbc, hroom => by
    cases hbc with
    | struct h hk =>
      cases hab with
      | struct h' hn => exact .struct (CoversAll.trans h' h hroom) (hn ∘ hk)
  | a, b, .map u v k, hab, hbc, hroom => by
    cases hbc with
    | map h₁ h₂ hk =>
      cases hab with
      | map h₁' h₂' hn =>
        obtain ⟨hroom₁, hroom₂⟩ := hroom
        exact .map (Covers.trans h₁' h₁ hroom₁) (Covers.trans h₂' h₂ hroom₂) (hn ∘ hk)

theorem CoversAll.trans : ∀ {a b c : List (String × DataType)}, CoversAll a b → CoversAll b c →
    RoomyAll a c → CoversAll a c
  | a, b, [], hab, hbc, _ => by
    cases hbc
    exact hab
  | a, b, (x, u) :: r, hab, hbc, hroom => by
    cases hbc with
    | cons x h hr =>
      cases hab with
      | cons x h' hr' =>
        obtain ⟨hhead, htail⟩ := hroom
        exact .cons x (Covers.trans h' h hhead) (CoversAll.trans hr' hr htail)

end

@[simp] theorem roomy_null (a : DataType) : a.Roomy .null := by
  cases a <;> trivial

@[simp] theorem roomy_withNullable (a b : DataType) (n : Bool) :
    a.Roomy (b.withNullable n) ↔ a.Roomy b := by
  cases a <;> cases b <;> exact Iff.rfl

mutual

/-- Room for two types is room for their common supertype. -/
theorem roomy_supertype? : ∀ {a b c d : DataType}, b.supertype? c = some d → a.Roomy b →
    a.Roomy c → a.Roomy d
  | a, .null, c, _, h, _, hc => by
    cases joins_of_supertype? h with
    | nullLeft => exact (roomy_withNullable a c true).mpr hc
    | nullRight => exact roomy_null a
  | a, .base t m, c, _, h, hb, hc => by
    cases joins_of_supertype? h with
    | nullRight => exact (roomy_withNullable a _ true).mpr hb
    | base m n hu =>
      cases a with
      | base s k => exact BaseType.roomy_supertype? hu hb hc
      | _ => trivial
  | a, .list e m, c, _, h, hb, hc => by
    cases joins_of_supertype? h with
    | nullRight => exact (roomy_withNullable a _ true).mpr hb
    | list m n hu =>
      cases a with
      | list s k =>
        rw [Roomy] at hb hc ⊢
        exact roomy_supertype? hu hb hc
      | _ => trivial
  | a, .struct fs m, c, _, h, hb, hc => by
    cases joins_of_supertype? h with
    | nullRight => exact (roomy_withNullable a _ true).mpr hb
    | struct m n hu =>
      cases a with
      | struct gs k =>
        rw [Roomy] at hb hc ⊢
        exact roomyAll_supertypeFields? hu hb hc
      | _ => trivial
  | a, .map k v m, c, _, h, hb, hc => by
    cases joins_of_supertype? h with
    | nullRight => exact (roomy_withNullable a _ true).mpr hb
    | map m n hk hv =>
      cases a with
      | map l w k => exact ⟨roomy_supertype? hk hb.1 hc.1, roomy_supertype? hv hb.2 hc.2⟩
      | _ => trivial

theorem roomyAll_supertypeFields? : ∀ {a b c d : List (String × DataType)},
    supertypeFields? b c = some d → RoomyAll a b → RoomyAll a c → RoomyAll a d
  | a, [], c, _, h, hb, _ => by
    cases fieldsJoin_of_supertypeFields? h
    exact hb
  | a, (x, t) :: r, c, _, h, hb, hc => by
    cases fieldsJoin_of_supertypeFields? h with
    | cons x hv hq =>
      cases a with
      | nil => trivial
      | cons =>
        exact ⟨roomy_supertype? hv hb.1 hc.1, roomyAll_supertypeFields? hq hb.2 hc.2⟩

end

/-- A nullable type covers another one made nullable, too. -/
theorem Covers.withNullable_right (h : a.Covers b) (hn : n = true → a.nullable = true) :
    a.Covers (b.withNullable n) := by
  cases h with
  | null h => exact .null h
  | base h => exact .base h hn
  | list h => exact .list h hn
  | struct h => exact .struct h hn
  | map hk hv => exact .map hk hv hn

mutual

/-- **Two covered types have a common supertype**, and it is covered, too. -/
theorem exists_supertype?_of_covers : ∀ {a b c : DataType}, a.Covers b → a.Covers c →
    a.Roomy b → a.Roomy c → ∃ d, b.supertype? c = some d ∧ a.Covers d
  | a, .null, c, hb, hc, _, _ =>
    ⟨c.withNullable true, by rw [supertype?], hc.withNullable_right fun _ => hb.nullable rfl⟩
  | a, .base s m, c, hb, hc, hroom, hroom' => by
    cases hc with
    | null hnull => exact ⟨_, rfl, hb.withNullable_right fun _ => hnull⟩
    | base hc hn =>
      cases hb with
      | base hb hm =>
        obtain ⟨u, hu, hcovers⟩ := BaseType.exists_supertype?_of_covers hb hc hroom hroom'
        refine ⟨_, by rw [supertype?, hu, Option.map_some], .base hcovers ?_⟩
        exact fun h => (Bool.or_eq_true_iff.mp h).elim hm hn
    | _ => cases hb
  | a, .list s m, c, hb, hc, hroom, hroom' => by
    cases hc with
    | null hnull => exact ⟨_, rfl, hb.withNullable_right fun _ => hnull⟩
    | list hc hn =>
      cases hb with
      | list hb hm =>
        obtain ⟨u, hu, hcovers⟩ := exists_supertype?_of_covers hb hc hroom hroom'
        refine ⟨_, by rw [supertype?, hu, Option.map_some], .list hcovers ?_⟩
        exact fun h => (Bool.or_eq_true_iff.mp h).elim hm hn
    | _ => cases hb
  | a, .struct fs m, c, hb, hc, hroom, hroom' => by
    cases hc with
    | null hnull => exact ⟨_, rfl, hb.withNullable_right fun _ => hnull⟩
    | struct hc hn =>
      cases hb with
      | struct hb hm =>
        obtain ⟨u, hu, hcovers⟩ := exists_supertypeFields?_of_coversAll hb hc hroom hroom'
        refine ⟨_, by rw [supertype?, hu, Option.map_some], .struct hcovers ?_⟩
        exact fun h => (Bool.or_eq_true_iff.mp h).elim hm hn
    | _ => cases hb
  | a, .map k v m, c, hb, hc, hroom, hroom' => by
    cases hc with
    | null hnull => exact ⟨_, rfl, hb.withNullable_right fun _ => hnull⟩
    | map hk hv hn =>
      cases hb with
      | map hk' hv' hm =>
        obtain ⟨hroomk, hroomv⟩ := hroom
        obtain ⟨hroomk', hroomv'⟩ := hroom'
        obtain ⟨x, hx, hcoversx⟩ := exists_supertype?_of_covers hk' hk hroomk hroomk'
        obtain ⟨y, hy, hcoversy⟩ := exists_supertype?_of_covers hv' hv hroomv hroomv'
        refine ⟨_, by rw [supertype?, hx, hy]; rfl, .map hcoversx hcoversy ?_⟩
        exact fun h => (Bool.or_eq_true_iff.mp h).elim hm hn
    | _ => cases hb

theorem exists_supertypeFields?_of_coversAll : ∀ {a b c : List (String × DataType)},
    CoversAll a b → CoversAll a c → RoomyAll a b → RoomyAll a c →
      ∃ d, supertypeFields? b c = some d ∧ CoversAll a d
  | [], b, c, hb, hc, _, _ => by
    cases hb
    cases hc
    exact ⟨[], rfl, .nil⟩
  | (x, t) :: r, b, c, hb, hc, hroom, hroom' => by
    cases hb with
    | cons x ht hr =>
      cases hc with
      | cons x ht' hr' =>
        obtain ⟨v, hv, hcoversv⟩ := exists_supertype?_of_covers ht ht' hroom.1 hroom'.1
        obtain ⟨q, hq, hcoversq⟩ := exists_supertypeFields?_of_coversAll hr hr' hroom.2 hroom'.2
        exact ⟨_, by rw [supertypeFields?, if_pos rfl, hv, hq]; rfl, .cons x hcoversv hcoversq⟩

end

/-! ### Making room -/

mutual

/-- The type with room for the integers of the other one: decimals that stand where the other type
has an integer get the greatest precision. -/
def withRoomFor : DataType → DataType → DataType
  | .base a m, .base b _ => .base (a.withRoomFor b) m
  | .list a m, .list b _ => .list (withRoomFor a b) m
  | .struct a m, .struct b _ => .struct (withRoomForFields a b) m
  | .map k v m, .map l w _ => .map (withRoomFor k l) (withRoomFor v w) m
  | a, _ => a

def withRoomForFields : List (String × DataType) → List (String × DataType) →
    List (String × DataType)
  | (x, t) :: r, (_, u) :: s => (x, withRoomFor t u) :: withRoomForFields r s
  | a, _ => a

end

theorem withRoomForFields_nil (a : List (String × DataType)) : withRoomForFields a [] = a := by
  cases a <;> rfl

theorem withRoomFor_withNullable (a b : DataType) (n : Bool) :
    (a.withNullable n).withRoomFor b = (a.withRoomFor b).withNullable n := by
  cases a <;> cases b <;> simp [withNullable, withRoomFor]

theorem nullable_withRoomFor (a b : DataType) : (a.withRoomFor b).nullable = a.nullable := by
  cases a <;> cases b <;> rfl

@[simp] theorem null_withRoomFor (b : DataType) : null.withRoomFor b = null := by
  cases b <;> rfl

mutual

theorem roomy_withRoomFor_self : ∀ a b : DataType, (a.withRoomFor b).Roomy b
  | .null, b => by cases b <;> trivial
  | .base s m, b => by
    cases b with
    | base t n => exact BaseType.roomy_withRoomFor_self s t
    | _ => trivial
  | .list s m, b => by
    cases b with
    | list t n =>
      rw [withRoomFor, Roomy]
      exact roomy_withRoomFor_self s t
    | _ => trivial
  | .struct fs m, b => by
    cases b with
    | struct gs n =>
      rw [withRoomFor, Roomy]
      exact roomyAll_withRoomForFields_self fs gs
    | _ => trivial
  | .map k v m, b => by
    cases b with
    | map l w n =>
      rw [withRoomFor, Roomy]
      exact ⟨roomy_withRoomFor_self k l, roomy_withRoomFor_self v w⟩
    | _ => trivial

theorem roomyAll_withRoomForFields_self : ∀ a b : List (String × DataType),
    RoomyAll (withRoomForFields a b) b
  | [], b => by cases b <;> trivial
  | (x, t) :: r, b => by
    cases b with
    | nil => trivial
    | cons =>
      rw [withRoomForFields, RoomyAll]
      exact ⟨roomy_withRoomFor_self _ _, roomyAll_withRoomForFields_self _ _⟩

end

mutual

/-- Making more room keeps the room there is. -/
theorem Roomy.withRoomFor : ∀ {a b : DataType}, a.Roomy b → ∀ c, (a.withRoomFor c).Roomy b
  | .null, b, _, c => by
    rw [null_withRoomFor]
    cases b <;> trivial
  | .base s m, b, h, c => by
    cases b with
    | base t n =>
      cases c with
      | base u k => exact BaseType.Roomy.withRoomFor h u
      | _ => exact h
    | _ => cases c <;> trivial
  | .list s m, b, h, c => by
    cases b with
    | list t n =>
      cases c with
      | list u k =>
        rw [DataType.withRoomFor, Roomy]
        rw [Roomy] at h
        exact Roomy.withRoomFor h u
      | _ => exact h
    | _ => cases c <;> trivial
  | .struct fs m, b, h, c => by
    cases b with
    | struct gs n =>
      cases c with
      | struct hs k =>
        rw [DataType.withRoomFor, Roomy]
        rw [Roomy] at h
        exact RoomyAll.withRoomForFields h hs
      | _ => exact h
    | _ => cases c <;> trivial
  | .map k v m, b, h, c => by
    cases b with
    | map l w n =>
      cases c with
      | map x y i =>
        rw [DataType.withRoomFor, Roomy]
        exact ⟨Roomy.withRoomFor h.1 x, Roomy.withRoomFor h.2 y⟩
      | _ => exact h
    | _ => cases c <;> trivial

theorem RoomyAll.withRoomForFields : ∀ {a b : List (String × DataType)}, RoomyAll a b →
    ∀ c, RoomyAll (DataType.withRoomForFields a c) b
  | [], b, _, c => by
    cases c <;> cases b <;> trivial
  | (x, t) :: r, b, h, c => by
    cases c with
    | nil => exact h
    | cons =>
      cases b with
      | nil => trivial
      | cons =>
        rw [DataType.withRoomForFields, RoomyAll]
        exact ⟨Roomy.withRoomFor h.1 _, RoomyAll.withRoomForFields h.2 _⟩

end

mutual

/-- The integers of a type stay where they are when it gets room. -/
theorem roomy_withRoomFor_right : ∀ a b c : DataType, a.Roomy (b.withRoomFor c) ↔ a.Roomy b
  | a, .null, c => by rw [null_withRoomFor]
  | a, .base s m, c => by
    cases c with
    | base t n =>
      cases a with
      | base u k => exact BaseType.roomy_withRoomFor_right u s t
      | _ => exact Iff.rfl
    | _ => exact Iff.rfl
  | a, .list s m, c => by
    cases c with
    | list t n =>
      cases a with
      | list u k =>
        rw [withRoomFor, Roomy, Roomy]
        exact roomy_withRoomFor_right u s t
      | _ => exact Iff.rfl
    | _ => exact Iff.rfl
  | a, .struct fs m, c => by
    cases c with
    | struct gs n =>
      cases a with
      | struct hs k =>
        rw [withRoomFor, Roomy, Roomy]
        exact roomyAll_withRoomForFields_right hs fs gs
      | _ => exact Iff.rfl
    | _ => exact Iff.rfl
  | a, .map k v m, c => by
    cases c with
    | map l w n =>
      cases a with
      | map x y i =>
        rw [withRoomFor, Roomy, Roomy]
        exact and_congr (roomy_withRoomFor_right x k l) (roomy_withRoomFor_right y v w)
      | _ => exact Iff.rfl
    | _ => exact Iff.rfl

theorem roomyAll_withRoomForFields_right : ∀ a b c : List (String × DataType),
    RoomyAll a (withRoomForFields b c) ↔ RoomyAll a b
  | a, [], c => by cases c <;> exact Iff.rfl
  | a, (x, t) :: r, c => by
    cases c with
    | nil => exact Iff.rfl
    | cons =>
      cases a with
      | nil => exact Iff.rfl
      | cons =>
        rw [withRoomForFields, RoomyAll, RoomyAll]
        exact and_congr (roomy_withRoomFor_right _ _ _) (roomyAll_withRoomForFields_right _ _ _)

end

mutual

/-- **Unifying two types and making room commute.** -/
theorem supertype?_withRoomFor : ∀ a b c : DataType,
    (a.withRoomFor c).supertype? (b.withRoomFor c) = (a.supertype? b).map (·.withRoomFor c)
  | .null, b, c => by
    rw [null_withRoomFor, supertype?, supertype?, Option.map_some, withRoomFor_withNullable]
  | .base s m, b, c => by
    cases b with
    | null => cases c <;> rfl
    | base t n =>
      cases c with
      | base u k =>
        simp only [withRoomFor, supertype?, BaseType.supertype?_withRoomFor, Option.map_map]
        rfl
      | _ => simp [withRoomFor, supertype?, Function.comp_def]
    | _ => cases c <;> rfl
  | .list s m, b, c => by
    cases b with
    | null => cases c <;> rfl
    | list t n =>
      cases c with
      | list u k =>
        simp only [withRoomFor, supertype?, supertype?_withRoomFor s t u, Option.map_map]
        rfl
      | _ => simp [withRoomFor, supertype?, Function.comp_def]
    | _ => cases c <;> rfl
  | .struct fs m, b, c => by
    cases b with
    | null => cases c <;> rfl
    | struct gs n =>
      cases c with
      | struct hs k =>
        simp only [withRoomFor, supertype?, supertypeFields?_withRoomForFields fs gs hs,
          Option.map_map]
        rfl
      | _ => simp [withRoomFor, supertype?, Function.comp_def]
    | _ => cases c <;> rfl
  | .map k v m, b, c => by
    cases b with
    | null => cases c <;> rfl
    | map l w n =>
      cases c with
      | map x y i =>
        simp only [withRoomFor, supertype?, supertype?_withRoomFor k l x,
          supertype?_withRoomFor v w y]
        cases k.supertype? l <;> cases v.supertype? w <;> rfl
      | _ => simp [withRoomFor, supertype?, Function.comp_def]
    | _ => cases c <;> rfl

theorem supertypeFields?_withRoomForFields : ∀ a b c : List (String × DataType),
    supertypeFields? (withRoomForFields a c) (withRoomForFields b c) =
      (supertypeFields? a b).map (withRoomForFields · c)
  | [], b, c => by
    cases b <;> cases c <;> rfl
  | (x, t) :: r, b, c => by
    cases b with
    | nil => cases c <;> rfl
    | cons f s =>
      cases c with
      | nil => simp [withRoomForFields_nil]
      | cons g q =>
        simp only [withRoomForFields, supertypeFields?, supertype?_withRoomFor t f.2 g.2,
          supertypeFields?_withRoomForFields r s q]
        split
        · cases t.supertype? f.2 <;> cases supertypeFields? r s <;> rfl
        · rfl

end

/-! ### Many types -/

/-- The type with room for the integers of every one of the types. -/
def withRoomForAll (a : DataType) (ts : List DataType) : DataType := ts.foldl withRoomFor a

variable {ts us : List DataType}

@[simp] theorem null_withRoomForAll (ts : List DataType) : null.withRoomForAll ts = null := by
  induction ts with
  | nil => rfl
  | cons t ts ih => rw [withRoomForAll, List.foldl_cons, null_withRoomFor, ← withRoomForAll, ih]

theorem withNullable_withRoomForAll (a : DataType) (n : Bool) (ts : List DataType) :
    (a.withNullable n).withRoomForAll ts = (a.withRoomForAll ts).withNullable n := by
  induction ts generalizing a with
  | nil => rfl
  | cons t ts ih =>
    rw [withRoomForAll, List.foldl_cons, withRoomFor_withNullable]
    exact ih _

theorem nullable_withRoomForAll (a : DataType) (ts : List DataType) :
    (a.withRoomForAll ts).nullable = a.nullable := by
  induction ts generalizing a with
  | nil => rfl
  | cons t ts ih => exact (ih _).trans (nullable_withRoomFor a t)

theorem supertype?_withRoomForAll (a b : DataType) (ts : List DataType) :
    (a.withRoomForAll ts).supertype? (b.withRoomForAll ts) =
      (a.supertype? b).map (·.withRoomForAll ts) := by
  induction ts generalizing a b with
  | nil => simp [withRoomForAll]
  | cons t ts ih =>
    calc ((a.withRoomFor t).withRoomForAll ts).supertype? ((b.withRoomFor t).withRoomForAll ts)
        = ((a.withRoomFor t).supertype? (b.withRoomFor t)).map (·.withRoomForAll ts) := ih _ _
      _ = ((a.supertype? b).map (·.withRoomFor t)).map (·.withRoomForAll ts) := by
        rw [supertype?_withRoomFor]
      _ = (a.supertype? b).map (·.withRoomForAll (t :: ts)) := Option.map_map ..

theorem Roomy.withRoomForAll (h : a.Roomy b) (ts : List DataType) :
    (a.withRoomForAll ts).Roomy b := by
  induction ts generalizing a with
  | nil => exact h
  | cons t ts ih => exact ih (h.withRoomFor t)

theorem roomy_withRoomForAll {t : DataType} (ht : t ∈ ts) (a : DataType) :
    (a.withRoomForAll ts).Roomy t := by
  induction ts generalizing a with
  | nil => cases ht
  | cons u ts ih =>
    rcases List.mem_cons.mp ht with rfl | ht
    · exact (roomy_withRoomFor_self a t).withRoomForAll ts
    · exact ih ht _

theorem roomy_withRoomForAll_right (a b : DataType) (ts : List DataType) :
    a.Roomy (b.withRoomForAll ts) ↔ a.Roomy b := by
  induction ts generalizing b with
  | nil => exact Iff.rfl
  | cons t ts ih => exact (ih _).trans (roomy_withRoomFor_right a b t)

/-- Room is made on both sides of what is covered. -/
theorem Covers.withRoomForAll (h : a.Covers b) (ts : List DataType) :
    (a.withRoomForAll ts).Covers (b.withRoomForAll ts) := by
  rw [covers_iff, supertype?_withRoomForAll, covers_iff.mp h, Option.map_some]

/-- What is covered once there is room adds nothing but room. -/
theorem exists_supertype?_of_covers_withRoomForAll
    (h : (a.withRoomForAll ts).Covers (b.withRoomForAll ts)) :
    ∃ c, a.supertype? b = some c ∧ c.withRoomForAll ts = a.withRoomForAll ts := by
  rw [covers_iff, supertype?_withRoomForAll] at h
  exact Option.map_eq_some_iff.mp h

/-- Types that cover each other are the same. -/
theorem Covers.antisymm (h : a.Covers b) (h' : b.Covers a) : a = b := by
  have hab : a.supertype? b = some a := h.supertype?
  rw [supertype?_comm, h'.supertype?] at hab
  exact (Option.some.inj hab).symm

theorem foldlM_map_withRoomForAll (a : DataType) (ts us : List DataType) :
    (ts.map (·.withRoomForAll us)).foldlM supertype? (a.withRoomForAll us) =
      (ts.foldlM supertype? a).map (·.withRoomForAll us) := by
  induction ts generalizing a with
  | nil => rfl
  | cons t ts ih =>
    rw [List.map_cons, List.foldlM_cons, List.foldlM_cons, supertype?_withRoomForAll]
    cases a.supertype? t with
    | none => rfl
    | some b => exact ih b

theorem fitsPrecision_foldlM (ha : a.fitsPrecision = true)
    (hts : ∀ t ∈ ts, t.fitsPrecision = true) (h : ts.foldlM supertype? a = some d) :
    d.fitsPrecision = true := by
  induction ts generalizing a with
  | nil =>
    cases h
    exact ha
  | cons t ts ih =>
    rw [List.foldlM_cons] at h
    obtain ⟨b, hb, h⟩ := Option.bind_eq_some_iff.mp h
    obtain ⟨ht, hts⟩ := List.forall_mem_cons.mp hts
    exact ih (fitsPrecision_supertype? ha ht hb) hts h

/-- **The common type of many types covers every one of them**, once there is room for their
integers. -/
theorem covers_of_foldlM (ha : a.fitsPrecision = true) (hts : ∀ t ∈ ts, t.fitsPrecision = true)
    (hroom : ∀ b : DataType, (b.withRoomForAll us).Roomy a) (hus : ∀ t ∈ ts, t ∈ us)
    (h : ts.foldlM supertype? a = some d) :
    (d.withRoomForAll us).Covers (a.withRoomForAll us) ∧
      ∀ t ∈ ts, (d.withRoomForAll us).Covers (t.withRoomForAll us) := by
  induction ts generalizing a with
  | nil =>
    cases h
    exact ⟨covers_self _, List.forall_mem_nil _⟩
  | cons t ts ih =>
    rw [List.foldlM_cons] at h
    obtain ⟨b, hb, h⟩ := Option.bind_eq_some_iff.mp h
    obtain ⟨ht, hts⟩ := List.forall_mem_cons.mp hts
    obtain ⟨htu, hus⟩ := List.forall_mem_cons.mp hus
    have hroomt : ∀ c : DataType, (c.withRoomForAll us).Roomy t := roomy_withRoomForAll htu
    obtain ⟨hcovers, hrest⟩ := ih (fitsPrecision_supertype? ha ht hb) hts
      (fun c => roomy_supertype? hb (hroom c) (hroomt c)) hus h
    -- The first step covers both its types; with room, what comes after covers them through it.
    have hba : b.Covers a := covers_of_supertype? ha hb
    have hbt : b.Covers t := covers_of_supertype? ht (by rw [supertype?_comm, hb])
    have hrooma := (roomy_withRoomForAll_right (d.withRoomForAll us) a us).mpr (hroom d)
    have hroomt := (roomy_withRoomForAll_right (d.withRoomForAll us) t us).mpr (hroomt d)
    exact ⟨hcovers.trans (hba.withRoomForAll us) hrooma,
      List.forall_mem_cons.mpr ⟨hcovers.trans (hbt.withRoomForAll us) hroomt, hrest⟩⟩

/-- Covered types have a common one, and it is covered, too. -/
theorem exists_foldlM_of_covers (ha : c.Covers a) (hroom : c.Roomy a)
    (hts : ∀ t ∈ ts, c.Covers t ∧ c.Roomy t) :
    ∃ d, ts.foldlM supertype? a = some d ∧ c.Covers d := by
  induction ts generalizing a with
  | nil => exact ⟨a, rfl, ha⟩
  | cons t ts ih =>
    obtain ⟨⟨ht, hroomt⟩, hts⟩ := List.forall_mem_cons.mp hts
    obtain ⟨b, hb, hcb⟩ := exists_supertype?_of_covers ha ht hroom hroomt
    obtain ⟨d, hd, hcd⟩ := ih hcb (roomy_supertype? hb hroom hroomt) hts
    exact ⟨d, by rw [List.foldlM_cons, hb]; exact hd, hcd⟩

/-- The common type of many types covers that of any of them, in any order. -/
theorem exists_foldlM_covered (hts : ∀ t ∈ ts, t.fitsPrecision = true) (hus : ∀ t ∈ ts, t ∈ us)
    {vs : List DataType} (hvs : ∀ t ∈ vs, t ∈ ts) (h : ts.foldlM supertype? null = some c) :
    ∃ d, vs.foldlM supertype? null = some d ∧
      (c.withRoomForAll us).Covers (d.withRoomForAll us) := by
  obtain ⟨hnull, hcovers⟩ := covers_of_foldlM rfl hts (fun b => roomy_null _) hus h
  have hall : ∀ t ∈ vs.map (·.withRoomForAll us),
      (c.withRoomForAll us).Covers t ∧ (c.withRoomForAll us).Roomy t := by
    intro t ht
    obtain ⟨v, hv, rfl⟩ := List.mem_map.mp ht
    exact ⟨hcovers v (hvs v hv),
      (roomy_withRoomForAll_right _ _ _).mpr (roomy_withRoomForAll (hus v (hvs v hv)) c)⟩
  obtain ⟨e, he, hce⟩ := exists_foldlM_of_covers hnull (by simp) hall
  rw [foldlM_map_withRoomForAll] at he
  obtain ⟨d, hd, rfl⟩ := Option.map_eq_some_iff.mp he
  exact ⟨d, hd, hce⟩

/-- **The common type of many types does not depend on their order**, once there is room for their
integers. -/
theorem exists_foldlM_of_perm {vs : List DataType} (hts : ∀ t ∈ ts, t.fitsPrecision = true)
    (hperm : ts.Perm vs) (h : ts.foldlM supertype? null = some c) :
    ∃ d, vs.foldlM supertype? null = some d ∧ d.withRoomForAll ts = c.withRoomForAll ts := by
  -- Unifying is not associative, so the two orders are compared by what they cover.
  obtain ⟨d, hd, hcd⟩ :=
    exists_foldlM_covered hts (fun _ ht => ht) (fun _ hv => hperm.mem_iff.mpr hv) h
  have hvs : ∀ v ∈ vs, v ∈ ts := fun _ hv => hperm.mem_iff.mpr hv
  obtain ⟨c', hc', hdc⟩ := exists_foldlM_covered (fun v hv => hts v (hvs v hv)) hvs
    (fun _ ht => hperm.mem_iff.mp ht) hd
  rw [h] at hc'
  cases hc'
  exact ⟨d, hd, hdc.antisymm hcd⟩

end DataType

end TableQuery
