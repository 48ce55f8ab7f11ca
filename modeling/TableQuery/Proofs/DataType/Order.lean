import TableQuery.Proofs.DataType

/-! # Types covered by types

A type covers another one if unifying the two leaves it as it is. `DataType.Covers` tells by the
structure of the types when that is so (`covers_iff`), and on base types `BaseType.Covers` lists the
reasons. The common supertype of two types covers both (`supertype?_isJoin`), as long as no
precision is beyond the greatest one, to which decimals are cut when they meet an integer. -/

namespace TableQuery

namespace IntType

theorem join_self (s : IntType) : s.join s = s := by cases s <;> rfl

theorem join_assoc (s t u : IntType) : (s.join t).join u = s.join (t.join u) := by
  cases s <;> cases t <;> cases u <;> rfl

end IntType

namespace FloatType

theorem ofBits_max_eq_iff {f g : FloatType} : ofBits (max f.bits g.bits) = f ↔ g.bits ≤ f.bits := by
  cases f <;> cases g <;> decide

theorem eq_float64_of_bits_le {f : FloatType} (h : float64.bits ≤ f.bits) : f = .float64 := by
  cases f <;> first | rfl | exact absurd h (by decide)

theorem bits_ofBits_max (f g : FloatType) :
    (ofBits (max f.bits g.bits)).bits = max f.bits g.bits := by
  cases f <;> cases g <;> rfl

end FloatType

namespace IntervalUnit

theorem finest_eq_iff {u w : IntervalUnit} : u.finest w = u ↔ w.rank ≤ u.rank := by
  cases u <;> cases w <;> decide

theorem rank_finest (u w : IntervalUnit) : (u.finest w).rank = max u.rank w.rank := by
  cases u <;> cases w <;> rfl

end IntervalUnit

/-! ### Base types -/

namespace BaseType

/-- **The ways in which two base types have a common one.** -/
inductive Joins : BaseType → BaseType → BaseType → Prop
  | refl (a : BaseType) : Joins a a a
  | int (s t : IntType) : Joins (.int s) (.int t) (.int (s.join t))
  | float (f g : FloatType) :
      Joins (.float f) (.float g) (.float (.ofBits (max f.bits g.bits)))
  | intFloat (t : IntType) (f : FloatType) : Joins (.int t) (.float f) (.float .float64)
  | floatInt (t : IntType) (f : FloatType) : Joins (.float f) (.int t) (.float .float64)
  | decimal (p s q r : Nat) : Joins (.decimal p s) (.decimal q r) (.decimal (max p q) (max s r))
  | decimalInt (p s : Nat) (t : IntType) : Joins (.decimal p s) (.int t) (decimalWithInt p s t)
  | intDecimal (p s : Nat) (t : IntType) : Joins (.int t) (.decimal p s) (decimalWithInt p s t)
  | decimalFloat (p s : Nat) (f : FloatType) : Joins (.decimal p s) (.float f) (.float .float64)
  | floatDecimal (p s : Nat) (f : FloatType) : Joins (.float f) (.decimal p s) (.float .float64)
  | interval (u w : IntervalUnit) : Joins (.interval u) (.interval w) (.interval (u.finest w))

/-- **The reasons why a base type covers another one.** -/
inductive Covers : BaseType → BaseType → Prop
  | refl (a : BaseType) : Covers a a
  | int {s t : IntType} : s.join t = s → Covers (.int s) (.int t)
  | float {f g : FloatType} : g.bits ≤ f.bits → Covers (.float f) (.float g)
  | floatOfInt (t : IntType) : Covers (.float .float64) (.int t)
  | floatOfDecimal (p s : Nat) : Covers (.float .float64) (.decimal p s)
  | decimal {p s q r : Nat} : q ≤ p → r ≤ s → Covers (.decimal p s) (.decimal q r)
  | decimalOfInt {p s : Nat} {t : IntType} : min (max p (t.digits + s)) maxPrecision = p →
      Covers (.decimal p s) (.int t)
  | interval {u w : IntervalUnit} : w.rank ≤ u.rank → Covers (.interval u) (.interval w)

variable {a b c d : BaseType}

theorem joins_of_supertype? (h : a.supertype? b = some c) : Joins a b c := by
  unfold supertype? at h
  split at h
  -- Types of other families have themselves in common, if anything.
  case h_11 =>
    split at h
    · rename_i hab
      cases hab
      cases h
      exact .refl _
    · cases h
  all_goals
    cases h
    constructor

theorem supertype?_self (a : BaseType) : a.supertype? a = some a := by
  cases a with
  | int s => rw [supertype?, IntType.join_self]
  | float f => rw [supertype?, FloatType.ofBits_max_eq_iff.mpr (Nat.le_refl _)]
  | decimal p s => rw [supertype?, Nat.max_self, Nat.max_self]
  | interval u => rw [supertype?, IntervalUnit.finest_eq_iff.mpr (Nat.le_refl _)]
  | _ => simp [supertype?]

theorem covers_iff : a.Covers b ↔ a.supertype? b = some a := by
  constructor
  · intro h
    cases h with
    | refl => exact supertype?_self a
    | int h => rw [supertype?, h]
    | float h => rw [supertype?, FloatType.ofBits_max_eq_iff.mpr h]
    | floatOfInt | floatOfDecimal => rfl
    | decimal hp hs => rw [supertype?, Nat.max_eq_left hp, Nat.max_eq_left hs]
    | decimalOfInt h => rw [supertype?, decimalWithInt, h]
    | interval h => rw [supertype?, IntervalUnit.finest_eq_iff.mpr h]
  · intro h
    obtain ⟨c, hc, hjoins⟩ : ∃ c, c = a ∧ Joins a b c := ⟨a, rfl, joins_of_supertype? h⟩
    cases hjoins with
    | refl => exact .refl a
    | int s t => exact .int (BaseType.int.inj hc)
    | float f g => exact .float (FloatType.ofBits_max_eq_iff.mp (BaseType.float.inj hc))
    | floatInt t f =>
      cases hc
      exact .floatOfInt t
    | floatDecimal p s f =>
      cases hc
      exact .floatOfDecimal p s
    | decimal p s q r =>
      obtain ⟨hp, hs⟩ := BaseType.decimal.inj hc
      exact .decimal (by omega) (by omega)
    | decimalInt p s t => exact .decimalOfInt (BaseType.decimal.inj hc).1
    | interval u w => exact .interval (IntervalUnit.finest_eq_iff.mp (BaseType.interval.inj hc))
    | intFloat | intDecimal | decimalFloat => cases hc

/-- A decimal type has the greatest precision at most. -/
def fitsPrecision : BaseType → Bool
  | .decimal p _ => p ≤ maxPrecision
  | _ => true

theorem fitsPrecision_supertype? (ha : a.fitsPrecision = true) (hb : b.fitsPrecision = true)
    (h : a.supertype? b = some c) : c.fitsPrecision = true := by
  cases joins_of_supertype? h with
  | refl => exact ha
  | decimal p s q r =>
    simp only [fitsPrecision, decide_eq_true_eq] at ha hb ⊢
    omega
  | decimalInt | intDecimal => exact decide_eq_true (Nat.min_le_right _ _)
  | _ => rfl

theorem covers_of_supertype? (ha : a.fitsPrecision = true) (h : a.supertype? b = some c) :
    c.Covers a := by
  cases joins_of_supertype? h with
  | refl => exact .refl a
  | int s t => exact .int (by rw [IntType.join_comm, ← IntType.join_assoc, IntType.join_self])
  | float f g => exact .float (by rw [FloatType.bits_ofBits_max]; exact Nat.le_max_left _ _)
  | intFloat t f => exact .floatOfInt t
  | floatInt t f => exact .float (by cases f <;> decide)
  | decimal p s q r => exact .decimal (Nat.le_max_left _ _) (Nat.le_max_left _ _)
  | decimalInt p s t =>
    have hp : p ≤ maxPrecision := of_decide_eq_true ha
    exact .decimal (by omega) (Nat.le_refl s)
  | intDecimal p s t => exact .decimalOfInt (by omega)
  | decimalFloat p s f => exact .floatOfDecimal p s
  | floatDecimal p s f => exact .float (by cases f <;> decide)
  | interval u w => exact .interval (by rw [IntervalUnit.rank_finest]; exact Nat.le_max_left _ _)

end BaseType

/-! ### Types -/

namespace DataType

/-- **The ways in which two types have a common one.** -/
inductive Joins : DataType → DataType → DataType → Prop
  | nullLeft (b : DataType) : Joins .null b (b.withNullable true)
  | nullRight (a : DataType) : Joins a .null (a.withNullable true)
  | base {s t u : BaseType} (m n : Bool) : s.supertype? t = some u →
      Joins (.base s m) (.base t n) (.base u (m || n))
  | list {s t u : DataType} (m n : Bool) : s.supertype? t = some u →
      Joins (.list s m) (.list t n) (.list u (m || n))
  | struct {fs gs hs : List (String × DataType)} (m n : Bool) : supertypeFields? fs gs = some hs →
      Joins (.struct fs m) (.struct gs n) (.struct hs (m || n))
  | map {k l x v w y : DataType} (m n : Bool) : k.supertype? l = some x → v.supertype? w = some y →
      Joins (.map k v m) (.map l w n) (.map x y (m || n))

/-- The ways in which fields have common ones. -/
inductive FieldsJoin : List (String × DataType) → List (String × DataType) →
    List (String × DataType) → Prop
  | nil : FieldsJoin [] [] []
  | cons {t u v : DataType} {r s q : List (String × DataType)} (x : String) :
      t.supertype? u = some v → supertypeFields? r s = some q →
      FieldsJoin ((x, t) :: r) ((x, u) :: s) ((x, v) :: q)

theorem joins_of_supertype? {a b c : DataType} (h : a.supertype? b = some c) : Joins a b c := by
  unfold supertype? at h
  split at h
  case h_1 =>
    cases h
    exact .nullLeft _
  case h_2 =>
    cases h
    exact .nullRight _
  case h_3 | h_4 | h_5 =>
    obtain ⟨u, hu, rfl⟩ := Option.map_eq_some_iff.mp h
    constructor
    exact hu
  case h_6 =>
    obtain ⟨x, hx, h⟩ := Option.bind_eq_some_iff.mp h
    obtain ⟨y, hy, h⟩ := Option.bind_eq_some_iff.mp h
    cases h
    exact .map _ _ hx hy
  case h_7 => cases h

theorem fieldsJoin_of_supertypeFields? {a b c : List (String × DataType)}
    (h : supertypeFields? a b = some c) : FieldsJoin a b c := by
  unfold supertypeFields? at h
  split at h
  case h_1 =>
    cases h
    exact .nil
  case h_2 =>
    split at h
    · rename_i hname
      cases hname
      obtain ⟨v, hv, h⟩ := Option.bind_eq_some_iff.mp h
      obtain ⟨q, hq, h⟩ := Option.bind_eq_some_iff.mp h
      cases h
      exact .cons _ hv hq
    · cases h
  case h_3 => cases h

mutual

/-- All decimal types in the type have the greatest precision at most. -/
def fitsPrecision : DataType → Bool
  | .null => true
  | .base t _ => t.fitsPrecision
  | .list e _ => fitsPrecision e
  | .struct fs _ => allFitPrecision fs
  | .map k v _ => fitsPrecision k && fitsPrecision v

def allFitPrecision : List (String × DataType) → Bool
  | [] => true
  | (_, t) :: r => fitsPrecision t && allFitPrecision r

end

mutual

/-- **The type covers the other one**, place by place. -/
inductive Covers : DataType → DataType → Prop
  | null {a : DataType} : a.nullable = true → Covers a .null
  | base {s t : BaseType} {m n : Bool} : s.Covers t → (n = true → m = true) →
      Covers (.base s m) (.base t n)
  | list {s t : DataType} {m n : Bool} : Covers s t → (n = true → m = true) →
      Covers (.list s m) (.list t n)
  | struct {fs gs : List (String × DataType)} {m n : Bool} : CoversAll fs gs →
      (n = true → m = true) → Covers (.struct fs m) (.struct gs n)
  | map {k l v w : DataType} {m n : Bool} : Covers k l → Covers v w → (n = true → m = true) →
      Covers (.map k v m) (.map l w n)

inductive CoversAll : List (String × DataType) → List (String × DataType) → Prop
  | nil : CoversAll [] []
  | cons {t u : DataType} {r s : List (String × DataType)} (x : String) : Covers t u →
      CoversAll r s → CoversAll ((x, t) :: r) ((x, u) :: s)

end

variable {a b c d : DataType} {m n : Bool}

theorem Covers.nullable (h : a.Covers b) (hb : b.nullable = true) : a.nullable = true := by
  cases h with
  | null h => exact h
  | base _ h | list _ h | struct _ h | map _ _ h => exact h hb

/-- Another nullability does not matter as long as nulls stay covered. -/
theorem Covers.withNullable (h : a.Covers b) (hn : b.nullable = true → n = true) :
    (a.withNullable n).Covers b := by
  cases h with
  | null =>
    rw [hn rfl]
    cases a <;> exact .null rfl
  | base h => exact .base h hn
  | list h => exact .list h hn
  | struct h => exact .struct h hn
  | map hk hv => exact .map hk hv hn

mutual

theorem covers_self : ∀ a : DataType, a.Covers a
  | .null => .null rfl
  | .base t _ => .base (.refl t) id
  | .list e _ => .list (covers_self e) id
  | .struct fs _ => .struct (coversAll_self fs) id
  | .map k v _ => .map (covers_self k) (covers_self v) id

theorem coversAll_self : ∀ fs : List (String × DataType), CoversAll fs fs
  | [] => .nil
  | (x, t) :: r => .cons x (covers_self t) (coversAll_self r)

end

mutual

/-- What a type covers adds nothing to it. -/
theorem Covers.supertype? : ∀ {a b : DataType}, a.Covers b → a.supertype? b = some a
  | a, .null, h => by
    cases h with
    | null h => cases a <;> simp_all [DataType.supertype?, DataType.withNullable, DataType.nullable]
  | _, .base t n, .base h hn => by
    rw [DataType.supertype?, BaseType.covers_iff.mp h, Option.map_some,
      Bool.or_eq_left_iff_imp.mpr hn]
  | _, .list t n, .list h hn => by
    rw [DataType.supertype?, Covers.supertype? h, Option.map_some,
      Bool.or_eq_left_iff_imp.mpr hn]
  | _, .struct gs n, .struct h hn => by
    rw [DataType.supertype?, CoversAll.supertypeFields? h, Option.map_some,
      Bool.or_eq_left_iff_imp.mpr hn]
  | _, .map l w n, .map hk hv hn => by
    rw [DataType.supertype?, Covers.supertype? hk, Covers.supertype? hv,
      Bool.or_eq_left_iff_imp.mpr hn]
    rfl

theorem CoversAll.supertypeFields? : ∀ {a b : List (String × DataType)}, CoversAll a b →
    DataType.supertypeFields? a b = some a
  | [], [], _ => rfl
  | _ :: _, (_, _) :: _, .cons _ h hr => by
    rw [DataType.supertypeFields?, if_pos rfl, Covers.supertype? h, CoversAll.supertypeFields? hr]
    rfl

end

mutual

theorem covers_of_supertype?_eq : ∀ {a b c : DataType}, a.supertype? b = some c → c = a →
    a.Covers b
  | .null, b, _, h, hc => by
    cases b <;> cases h <;> cases hc
    exact .null rfl
  | .base s m, b, _, h, hc => by
    cases joins_of_supertype? h with
    | nullRight =>
      cases hc
      exact .null rfl
    | base m n hu =>
      obtain ⟨rfl, hn⟩ := DataType.base.inj hc
      exact .base (BaseType.covers_iff.mpr hu) (Bool.or_eq_left_iff_imp.mp hn)
  | .list s m, b, _, h, hc => by
    cases joins_of_supertype? h with
    | nullRight =>
      cases hc
      exact .null rfl
    | list m n hu =>
      obtain ⟨hs, hn⟩ := DataType.list.inj hc
      exact .list (covers_of_supertype?_eq hu hs) (Bool.or_eq_left_iff_imp.mp hn)
  | .struct fs m, b, _, h, hc => by
    cases joins_of_supertype? h with
    | nullRight =>
      cases hc
      exact .null rfl
    | struct m n hu =>
      obtain ⟨hfs, hn⟩ := DataType.struct.inj hc
      exact .struct (coversAll_of_supertypeFields?_eq hu hfs) (Bool.or_eq_left_iff_imp.mp hn)
  | .map k v m, b, _, h, hc => by
    cases joins_of_supertype? h with
    | nullRight =>
      cases hc
      exact .null rfl
    | map m n hk hv =>
      obtain ⟨hkey, hvalue, hn⟩ := DataType.map.inj hc
      exact .map (covers_of_supertype?_eq hk hkey) (covers_of_supertype?_eq hv hvalue)
        (Bool.or_eq_left_iff_imp.mp hn)

theorem coversAll_of_supertypeFields?_eq : ∀ {a b c : List (String × DataType)},
    supertypeFields? a b = some c → c = a → CoversAll a b
  | [], b, _, h, _ => by
    cases fieldsJoin_of_supertypeFields? h
    exact .nil
  | (x, t) :: r, b, _, h, hc => by
    cases fieldsJoin_of_supertypeFields? h with
    | cons x hv hq =>
      obtain ⟨hhead, htail⟩ := List.cons.inj hc
      exact .cons x (covers_of_supertype?_eq hv (Prod.mk.inj hhead).2)
        (coversAll_of_supertypeFields?_eq hq htail)

end

/-- **Covering is absorbing**: a type covers what adds nothing to it. -/
theorem covers_iff : a.Covers b ↔ a.supertype? b = some a :=
  ⟨Covers.supertype?, fun h => covers_of_supertype?_eq h rfl⟩

/-! ### Upper bounds -/

mutual

theorem fitsPrecision_supertype? : ∀ {a b c : DataType}, a.fitsPrecision = true →
    b.fitsPrecision = true → a.supertype? b = some c → c.fitsPrecision = true
  | .null, b, _, _, hb, h => by
    cases b <;> cases h <;> exact hb
  | .base s m, b, _, ha, hb, h => by
    cases joins_of_supertype? h with
    | nullRight => exact ha
    | base m n hu => exact BaseType.fitsPrecision_supertype? ha hb hu
  | .list s m, b, _, ha, hb, h => by
    cases joins_of_supertype? h with
    | nullRight => exact ha
    | list m n hu =>
      rw [fitsPrecision] at ha hb ⊢
      exact fitsPrecision_supertype? ha hb hu
  | .struct fs m, b, _, ha, hb, h => by
    cases joins_of_supertype? h with
    | nullRight => exact ha
    | struct m n hu =>
      rw [fitsPrecision] at ha hb ⊢
      exact allFitPrecision_supertypeFields? ha hb hu
  | .map k v m, b, _, ha, hb, h => by
    cases joins_of_supertype? h with
    | nullRight => exact ha
    | map m n hk hv =>
      simp only [fitsPrecision, Bool.and_eq_true] at ha hb ⊢
      exact ⟨fitsPrecision_supertype? ha.1 hb.1 hk, fitsPrecision_supertype? ha.2 hb.2 hv⟩

theorem allFitPrecision_supertypeFields? : ∀ {a b c : List (String × DataType)},
    allFitPrecision a = true → allFitPrecision b = true → supertypeFields? a b = some c →
      allFitPrecision c = true
  | [], b, _, _, hb, h => by
    cases fieldsJoin_of_supertypeFields? h
    rfl
  | (x, t) :: r, b, _, ha, hb, h => by
    cases fieldsJoin_of_supertypeFields? h with
    | cons x hv hq =>
      simp only [allFitPrecision, Bool.and_eq_true] at ha hb ⊢
      exact ⟨fitsPrecision_supertype? ha.1 hb.1 hv, allFitPrecision_supertypeFields? ha.2 hb.2 hq⟩

end

mutual

/-- **A common supertype covers the types** that it is of. -/
theorem covers_of_supertype? : ∀ {a b c : DataType}, a.fitsPrecision = true →
    a.supertype? b = some c → c.Covers a
  | .null, b, _, _, h => by
    cases b <;> cases h <;> exact .null rfl
  | .base s m, b, _, ha, h => by
    cases joins_of_supertype? h with
    | nullRight => exact .base (.refl s) fun _ => rfl
    | base m n hu =>
      exact .base (BaseType.covers_of_supertype? ha hu) fun hm => Bool.or_eq_true_iff.mpr (.inl hm)
  | .list s m, b, _, ha, h => by
    cases joins_of_supertype? h with
    | nullRight => exact .list (covers_self s) fun _ => rfl
    | list m n hu =>
      exact .list (covers_of_supertype? ha hu) fun hm => Bool.or_eq_true_iff.mpr (.inl hm)
  | .struct fs m, b, _, ha, h => by
    cases joins_of_supertype? h with
    | nullRight => exact .struct (coversAll_self fs) fun _ => rfl
    | struct m n hu =>
      exact .struct (coversAll_of_supertypeFields? ha hu) fun hm =>
        Bool.or_eq_true_iff.mpr (.inl hm)
  | .map k v m, b, _, ha, h => by
    simp only [fitsPrecision, Bool.and_eq_true] at ha
    cases joins_of_supertype? h with
    | nullRight => exact .map (covers_self k) (covers_self v) fun _ => rfl
    | map m n hk hv =>
      exact .map (covers_of_supertype? ha.1 hk) (covers_of_supertype? ha.2 hv) fun hm =>
        Bool.or_eq_true_iff.mpr (.inl hm)

theorem coversAll_of_supertypeFields? : ∀ {a b c : List (String × DataType)},
    allFitPrecision a = true → supertypeFields? a b = some c → CoversAll c a
  | [], b, _, _, h => by
    cases fieldsJoin_of_supertypeFields? h
    exact .nil
  | (x, t) :: r, b, _, ha, h => by
    simp only [allFitPrecision, Bool.and_eq_true] at ha
    cases fieldsJoin_of_supertypeFields? h with
    | cons x hv hq =>
      exact .cons x (covers_of_supertype? ha.1 hv) (coversAll_of_supertypeFields? ha.2 hq)

end

/-- **The common supertype is a join.** It does not depend on the order of the two types, that of a
type and itself is the type, and it is an upper bound: unifying either type with it gives it
again. -/
theorem supertype?_isJoin (a b : DataType) :
    a.supertype? b = b.supertype? a ∧ a.supertype? a = some a ∧
      ∀ c, a.fitsPrecision = true → b.fitsPrecision = true → a.supertype? b = some c →
        a.supertype? c = some c ∧ b.supertype? c = some c := by
  refine ⟨supertype?_comm a b, (covers_self a).supertype?, fun c ha hb h => ⟨?_, ?_⟩⟩
  · rw [supertype?_comm]
    exact (covers_of_supertype? ha h).supertype?
  · rw [supertype?_comm] at h ⊢
    exact (covers_of_supertype? hb h).supertype?

/-- Lists that may be empty, and a decimal beside an integer that has more digits. -/
theorem supertype?_isJoin_nested :
    let a := struct [("x", .list (.base (.int .int8) false) false), ("y", .decimal 5 2)] false
    let b := struct [("x", .list .null true), ("y", .base (.int .int64) false)] false
    let c := struct [("x", .list (.int .int8) true), ("y", .decimal 21 2)] false
    a.fitsPrecision = true ∧ b.fitsPrecision = true ∧ a.supertype? b = some c ∧
      a.supertype? c = some c ∧ b.supertype? c = some c := by
  intro a b c
  have ha : a.fitsPrecision = true := rfl
  have hb : b.fitsPrecision = true := rfl
  have hc : a.supertype? b = some c := rfl
  obtain ⟨-, -, hupper⟩ := supertype?_isJoin a b
  exact ⟨ha, hb, hc, hupper c ha hb hc⟩

end DataType

end TableQuery
