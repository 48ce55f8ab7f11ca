import Mathlib
import TableQuery.DataType.Reader
import TableQuery.Proofs.Result
import TableQuery.Proofs.Sql.TypeNames

/-! # Texts of types read back

Reading the text of a type gives the type again, nullability and parameters at every level included,
if reading can give the type at all (`DataType.isDescribed`) and no zone in it holds a quote
(`DataType.zonesUnquoted`). Every type that is read from a text is of the first kind
(`ReaderContext.described_of_type`).

The printed parts stand one after the other, so a reader is run on the text of its part with
anything behind it that closes the part: the end, a comma or an angle bracket (`Closing`). The main
statement, `DataType.ofText_text`, is the case of nothing behind it. -/

namespace TableQuery

open Result

/-! ### Types that texts describe -/

/-- **Names of fields** in the texts of types. -/
def isFieldName (name : String) : Bool := !name.toList.isEmpty && name.toList.all isNameChar

namespace DataType

mutual

/-- **Types that texts describe**: the parameters of decimals fit a byte, and structs have fields,
each with a name. -/
def isDescribed : DataType → Bool
  | .null => true
  | .base (.decimal p s) _ => p < byteLimit && s < byteLimit
  | .base _ _ => true
  | .list e _ => isDescribed e
  | .struct fs _ => !fs.isEmpty && areDescribed fs
  | .map k v _ => isDescribed k && isDescribed v

def areDescribed : List (String × DataType) → Bool
  | [] => true
  | (name, t) :: r => isFieldName name && isDescribed t && areDescribed r

end

mutual

/-- **No zone contains a single quote**, at any depth. -/
def zonesUnquoted : DataType → Bool
  | .null => true
  | .base (.timestamp (some zone)) _ => !zone.toList.contains '\''
  | .base _ _ => true
  | .list e _ => zonesUnquoted e
  | .struct fs _ => fieldZonesUnquoted fs
  | .map k v _ => zonesUnquoted k && zonesUnquoted v

def fieldZonesUnquoted : List (String × DataType) → Bool
  | [] => true
  | (_, t) :: r => zonesUnquoted t && fieldZonesUnquoted r

end

theorem isDescribed_withNullable (n : Bool) :
    ∀ t : DataType, (t.withNullable n).isDescribed = t.isDescribed
  | .base t _ => by cases t <;> simp [withNullable, isDescribed]
  | .null | .list _ _ | .struct _ _ | .map _ _ _ => by simp [withNullable, isDescribed]

theorem isDescribed_of_simpleNamed? {name : String} {t : DataType}
    (h : simpleNamed? name = some t) : t.isDescribed = true := by
  unfold simpleNamed? at h
  split at h <;> cases h <;> simp [isDescribed]

namespace ReaderContext

variable {ctx : ReaderContext} {cs rest : List Char} {fuel : Nat}

theorem isFieldName_of_name {n : String} (h : ctx.name cs = .ok (n, rest)) :
    isFieldName n = true := by
  unfold name at h
  dsimp only at h
  split at h <;> cases h
  rename_i hne
  have hall : ((skipBlanks cs).takeWhile isNameChar).all isNameChar = true :=
    List.all_takeWhile
  simp only [isFieldName, String.toList_ofList, hall, Bool.and_true, Bool.not_eq_true']
  simpa using hne

theorem lt_of_number {n : Nat} (h : ctx.number cs = .ok (n, rest)) : n < byteLimit := by
  obtain ⟨⟨digits, r⟩, -, h⟩ := bind_eq_ok_iff.mp h
  dsimp only at h
  split at h <;> cases h
  rename_i hvalue
  unfold byteOfDigits? at hvalue
  dsimp only at hvalue
  split at hvalue
  · cases hvalue
  · split at hvalue <;> cases hvalue
    assumption

theorem described_of_decimalParameters {t : DataType}
    (h : ctx.decimalParameters cs = .ok (t, rest)) : t.isDescribed = true := by
  unfold decimalParameters at h
  split at h
  · cases h
    decide
  · obtain ⟨⟨p, r₁⟩, hp, h⟩ := bind_eq_ok_iff.mp h
    obtain ⟨r₂, -, h⟩ := bind_eq_ok_iff.mp h
    obtain ⟨⟨s, r₃⟩, hs, h⟩ := bind_eq_ok_iff.mp h
    obtain ⟨r₄, -, h⟩ := bind_eq_ok_iff.mp h
    cases h
    simp [isDescribed, lt_of_number hp, lt_of_number hs]

theorem described_of_timestampParameters {t : DataType}
    (h : ctx.timestampParameters cs = .ok (t, rest)) : t.isDescribed = true := by
  unfold timestampParameters at h
  split at h
  · cases h
    simp [isDescribed]
  · obtain ⟨⟨zone, r₁⟩, -, h⟩ := bind_eq_ok_iff.mp h
    obtain ⟨r₂, -, h⟩ := bind_eq_ok_iff.mp h
    cases h
    simp [isDescribed]

theorem described_of_intervalParameters {t : DataType}
    (h : ctx.intervalParameters cs = .ok (t, rest)) : t.isDescribed = true := by
  unfold intervalParameters at h
  split at h
  · cases h
    simp [isDescribed]
  · obtain ⟨⟨unit, r₁⟩, -, h⟩ := bind_eq_ok_iff.mp h
    dsimp only at h
    split at h
    · cases h
    · obtain ⟨r₂, -, h⟩ := bind_eq_ok_iff.mp h
      cases h
      simp [isDescribed]

/-- The type of a name is described if its parts are. -/
theorem described_of_parameters {name : String} {t : DataType}
    (htype : ∀ {cs rest t}, ctx.type fuel cs = .ok (t, rest) → t.isDescribed = true)
    (hfields : ∀ {cs rest fs}, ctx.fields fuel cs = .ok (fs, rest) →
      fs.isEmpty = false ∧ areDescribed fs = true)
    (h : ctx.parameters fuel name cs = .ok (t, rest)) : t.isDescribed = true := by
  unfold parameters at h
  split at h
  · exact described_of_decimalParameters h
  · exact described_of_timestampParameters h
  · exact described_of_intervalParameters h
  · obtain ⟨r₁, -, h⟩ := bind_eq_ok_iff.mp h
    obtain ⟨⟨e, r₂⟩, he, h⟩ := bind_eq_ok_iff.mp h
    obtain ⟨r₃, -, h⟩ := bind_eq_ok_iff.mp h
    cases h
    simpa [isDescribed] using htype he
  · obtain ⟨r₁, -, h⟩ := bind_eq_ok_iff.mp h
    obtain ⟨⟨k, r₂⟩, hk, h⟩ := bind_eq_ok_iff.mp h
    obtain ⟨r₃, -, h⟩ := bind_eq_ok_iff.mp h
    obtain ⟨⟨v, r₄⟩, hv, h⟩ := bind_eq_ok_iff.mp h
    obtain ⟨r₅, -, h⟩ := bind_eq_ok_iff.mp h
    cases h
    simp [isDescribed, htype hk, htype hv]
  · obtain ⟨r₁, -, h⟩ := bind_eq_ok_iff.mp h
    obtain ⟨⟨fs, r₂⟩, hfs, h⟩ := bind_eq_ok_iff.mp h
    obtain ⟨r₃, -, h⟩ := bind_eq_ok_iff.mp h
    cases h
    simp [isDescribed, hfields hfs]
  · split at h <;> cases h
    exact isDescribed_of_simpleNamed? (by assumption)

/-- **What is read is described**, by induction on the fuel. -/
theorem described_of_type_and_fields : ∀ fuel : Nat,
    (∀ {cs rest t}, ctx.type fuel cs = .ok (t, rest) → t.isDescribed = true) ∧
      ∀ {cs rest fs}, ctx.fields fuel cs = .ok (fs, rest) →
        fs.isEmpty = false ∧ areDescribed fs = true
  | 0 => by
    constructor
    · intro cs rest t h
      rw [type] at h
      cases h
    · intro cs rest fs h
      rw [fields] at h
      cases h
  | fuel + 1 => by
    obtain ⟨htype, hfields⟩ := described_of_type_and_fields fuel
    constructor
    · intro cs rest t h
      rw [type] at h
      obtain ⟨⟨n, r₁⟩, -, h⟩ := bind_eq_ok_iff.mp h
      obtain ⟨⟨u, r₂⟩, hu, h⟩ := bind_eq_ok_iff.mp h
      cases h
      rw [isDescribed_withNullable]
      exact described_of_parameters htype hfields hu
    · intro cs rest fs h
      rw [fields] at h
      obtain ⟨⟨n, r₁⟩, hn, h⟩ := bind_eq_ok_iff.mp h
      obtain ⟨r₂, -, h⟩ := bind_eq_ok_iff.mp h
      obtain ⟨⟨t, r₃⟩, ht, h⟩ := bind_eq_ok_iff.mp h
      dsimp only at h
      split at h
      · obtain ⟨⟨more, r₄⟩, hmore, h⟩ := bind_eq_ok_iff.mp h
        cases h
        simp [areDescribed, isFieldName_of_name hn, htype ht, hfields hmore]
      · cases h
        simp [areDescribed, isFieldName_of_name hn, htype ht]

theorem described_of_type {t : DataType} (h : ctx.type fuel cs = .ok (t, rest)) :
    t.isDescribed = true := (described_of_type_and_fields fuel).1 h

/-! ### Readers of parts on printed texts -/

theorem not_isBlank_of_isNameChar {c : Char} (h : isNameChar c = true) : isBlank c = false := by
  have hlow : 33 ≤ c.toNat := by
    rcases Bool.or_eq_true_iff.mp h with h | h
    · simp [Char.isAlphanum, Char.isAlpha, Char.isUpper, Char.isLower, Char.isDigit,
        UInt32.le_iff_toNat_le] at h
      omega
    · rw [beq_iff_eq.mp h]
      decide
  have hspace : c ≠ ' ' := by
    rintro rfl
    exact absurd hlow (by decide)
  have hrange : ¬ c.toNat ≤ 13 := by omega
  simp [isBlank, hspace, hrange]

theorem skipBlanks_of_head {cs : List Char} (h : ∀ c ∈ cs.head?, isBlank c = false) :
    skipBlanks cs = cs := by
  cases cs with
  | nil => rfl
  | cons c r => exact List.dropWhile_cons_of_neg (by simp [h c rfl])

theorem skipBlanks_space (cs : List Char) : skipBlanks (' ' :: cs) = skipBlanks cs :=
  List.dropWhile_cons_of_pos (by decide)

theorem optional_self {c : Char} (hc : isBlank c = false) (r : List Char) :
    optional c (c :: r) = (true, r) := by
  rw [optional, skipBlanks_of_head (by simpa using hc)]
  simp

theorem optional_of_head {c : Char} {cs : List Char}
    (h : ∀ d ∈ cs.head?, isBlank d = false ∧ d ≠ c) : optional c cs = (false, cs) := by
  rw [optional, skipBlanks_of_head fun d hd => (h d hd).1]
  cases cs with
  | nil => rfl
  | cons d r => simp [(h d rfl).2]

theorem expect_self {c : Char} (hc : isBlank c = false) (r : List Char) :
    ctx.expect c (c :: r) = .ok r := by
  rw [expect, optional_self hc]

/-- A name ends where a character stands that names cannot have. -/
theorem name_append {n : String} (hn : isFieldName n = true)
    (h : ∀ c ∈ rest.head?, isNameChar c = false) : ctx.name (n.toList ++ rest) = .ok (n, rest) := by
  obtain ⟨hne, hall⟩ := Bool.and_eq_true_iff.mp hn
  have hne : n.toList ≠ [] := by simpa using hne
  have hall : ∀ c ∈ n.toList, isNameChar c = true := by simpa using hall
  have hskip : skipBlanks (n.toList ++ rest) = n.toList ++ rest := by
    refine skipBlanks_of_head fun c hc => not_isBlank_of_isNameChar (hall c ?_)
    rw [List.head?_append_of_ne_nil _ hne] at hc
    exact List.mem_of_mem_head? hc
  have htake : rest.takeWhile isNameChar = [] := by
    cases rest with
    | nil => rfl
    | cons c r => exact List.takeWhile_cons_of_neg (by simp [h c rfl])
  have hdrop : rest.dropWhile isNameChar = rest := by
    cases rest with
    | nil => rfl
    | cons c r => exact List.dropWhile_cons_of_neg (by simp [h c rfl])
  rw [name, hskip]
  rw [List.takeWhile_append_of_pos hall, List.dropWhile_append_of_pos hall, htake, hdrop,
    List.append_nil, if_neg (by simpa using hne), String.ofList_toList]

theorem name_space (cs : List Char) : ctx.name (' ' :: cs) = ctx.name cs := by
  rw [name, name, skipBlanks_space]

/-- Digits are read as a number. -/
theorem number_toDigits {n : Nat} (hn : n < byteLimit)
    (h : ∀ c ∈ rest.head?, isNameChar c = false) :
    ctx.number (Nat.toDigits 10 n ++ rest) = .ok (n, rest) := by
  have hdigits : ∀ c ∈ Nat.toDigits 10 n, isNameChar c = true := fun c hc => by
    simp [isNameChar, Char.isAlphanum, Sql.isDigit_of_mem_toDigits hc]
  have hname : isFieldName (String.ofList (Nat.toDigits 10 n)) = true := by
    simpa [isFieldName, Nat.toDigits_ne_nil] using hdigits
  have hread : ctx.name ((String.ofList (Nat.toDigits 10 n)).toList ++ rest) = .ok (_, rest) :=
    name_append hname h
  rw [String.toList_ofList] at hread
  rw [number, hread, ok_bind]
  simp only [String.toList_ofList, Sql.byteOfDigits?_toDigits, if_pos hn, pure_eq_ok]

theorem number_space (cs : List Char) : ctx.number (' ' :: cs) = ctx.number cs := by
  rw [number, number, name_space]

/-- A text in single quotes is read up to the first of them. -/
theorem quoted_of_notMem {content : List Char} (h : '\'' ∉ content) (rest : List Char) :
    ctx.quoted ('\'' :: (content ++ '\'' :: rest)) = .ok (String.ofList content, rest) := by
  have htake : (content ++ '\'' :: rest).takeWhile (· ≠ '\'') = content := by
    rw [List.takeWhile_append_of_pos fun c hc => by
      rw [decide_eq_true_eq]
      rintro rfl
      exact h hc]
    simp
  rw [quoted, skipBlanks_of_head (by simp; decide)]
  simp only [quoted.inside, htake, List.drop_left, expect_self (c := '\'') (by decide), ok_bind,
    pure_eq_ok]

/-! ### Names and their parameters -/

/-- **What may stand behind a type** in the text of another one: nothing, a comma or a bracket. -/
def Closing (rest : List Char) : Prop := ∀ c ∈ rest.head?, c = ',' ∨ c = '>'

theorem closing_nil : Closing [] := fun _ h => nomatch h

theorem closing_comma (rest : List Char) : Closing (',' :: rest) :=
  fun _ h => .inl (Option.some.inj h).symm

theorem closing_bracket (rest : List Char) : Closing ('>' :: rest) :=
  fun _ h => .inr (Option.some.inj h).symm

theorem Closing.not_isNameChar (h : Closing rest) : ∀ c ∈ rest.head?, isNameChar c = false := by
  intro c hc
  rcases h c hc with rfl | rfl <;> decide

theorem Closing.no_parameters (h : Closing rest) : optional '(' rest = (false, rest) := by
  refine optional_of_head fun c hc => ?_
  rcases h c hc with rfl | rfl <;> decide

/-- **A type is read by its name**, in small letters, and what its parameters give. -/
theorem type_of_parameters {word : String} {n : Bool} {t : DataType}
    (hword : isFieldName word = true ∧ word.toList.map Char.toLower = word.toList)
    (hcs : ∀ c ∈ cs.head?, isNameChar c = false)
    (h : ctx.parameters fuel word cs = .ok (t, rest)) :
    ctx.type (fuel + 1) ((mark n).toList ++ (word.toList ++ cs)) =
      .ok (t.withNullable n, rest) := by
  have hmark : optional '!' ((mark n).toList ++ (word.toList ++ cs)) =
      (!n, word.toList ++ cs) := by
    cases n with
    | false => exact optional_self (by decide) _
    | true =>
      obtain ⟨hne, hall⟩ := Bool.and_eq_true_iff.mp hword.1
      have hhead : ∀ c ∈ (word.toList ++ cs).head?, isNameChar c = true := fun c hc => by
        rw [List.head?_append_of_ne_nil _ (by simpa using hne)] at hc
        exact List.all_eq_true.mp hall c (List.mem_of_mem_head? hc)
      refine optional_of_head fun c hc => ⟨not_isBlank_of_isNameChar (hhead c hc), ?_⟩
      rintro rfl
      exact absurd (hhead _ hc) (by decide)
  have hlower : word.map Char.toLower = word := by
    rw [← String.toList_inj, String.toList_map, hword.2]
  rw [type, hmark]
  dsimp only
  rw [name_append hword.1 hcs, ok_bind]
  dsimp only
  rw [hlower, h, ok_bind, Bool.not_not, pure_eq_ok]

/-- Names of types without parameters. -/
theorem parameters_of_simpleNamed? {word : String} {t : DataType} (h : simpleNamed? word = some t) :
    ctx.parameters fuel word cs = .ok (t, cs) := by
  rw [parameters, h]
  · rfl
  all_goals
    rintro rfl
    cases h

theorem keyword_of_simpleNamed? {word : String} {t : DataType} (h : simpleNamed? word = some t) :
    isFieldName word = true ∧ word.toList.map Char.toLower = word.toList := by
  unfold simpleNamed? at h
  split at h <;> first | decide | cases h

/-- A name without parameters is read as its type, with the nullability of its mark. -/
theorem type_of_simpleNamed? {word : String} {t : DataType} (n : Bool)
    (h : simpleNamed? word = some t) (hrest : Closing rest) :
    ctx.type (fuel + 1) ((mark n ++ word).toList ++ rest) = .ok (t.withNullable n, rest) := by
  rw [String.toList_append, List.append_assoc]
  exact type_of_parameters (keyword_of_simpleNamed? h) hrest.not_isNameChar
    (parameters_of_simpleNamed? h)

theorem not_isNameChar_of_cons {c : Char} {r : List Char} (h : isNameChar c = false) :
    ∀ d ∈ (c :: r).head?, isNameChar d = false := by
  rintro d ⟨⟩
  exact h

variable (ctx rest fuel) in
theorem parameters_decimal {p s : Nat} (hp : p < byteLimit) (hs : s < byteLimit) :
    ctx.parameters fuel "decimal" ('(' :: (Nat.toDigits 10 p ++ ',' :: ' ' ::
      (Nat.toDigits 10 s ++ ')' :: rest))) = .ok (.decimal p s, rest) := by
  rw [parameters, decimalParameters, optional_self (by decide)]
  dsimp only
  rw [number_toDigits hp (not_isNameChar_of_cons (by decide)), ok_bind]
  dsimp only
  rw [expect_self (by decide), ok_bind, number_space,
    number_toDigits hs (not_isNameChar_of_cons (by decide)), ok_bind]
  dsimp only
  rw [expect_self (by decide)]
  rfl

variable (ctx fuel) in
theorem parameters_timestamp (h : Closing rest) :
    ctx.parameters fuel "timestamp" rest = .ok (.timestamp none, rest) := by
  rw [parameters, timestampParameters, h.no_parameters]

variable (ctx rest fuel) in
theorem parameters_zone {zone : String} (h : '\'' ∉ zone.toList) :
    ctx.parameters fuel "timestamp" ('(' :: '\'' :: (zone.toList ++ '\'' :: ')' :: rest)) =
      .ok (.timestamp (some zone), rest) := by
  rw [parameters, timestampParameters, optional_self (by decide)]
  dsimp only
  rw [quoted_of_notMem h, ok_bind]
  dsimp only
  rw [expect_self (by decide), String.ofList_toList]
  rfl

variable (ctx rest fuel) in
theorem parameters_interval (u : IntervalUnit) :
    ctx.parameters fuel "interval" ('(' :: '\'' :: (u.short.toList ++ '\'' :: ')' :: rest)) =
      .ok (.interval u, rest) := by
  have hunit : '\'' ∉ u.short.toList := by cases u <;> decide
  rw [parameters, intervalParameters, optional_self (by decide)]
  dsimp only
  rw [quoted_of_notMem hunit, ok_bind]
  dsimp only
  rw [String.ofList_toList, IntervalUnit.ofText?_short]
  dsimp only
  rw [expect_self (by decide)]
  rfl

/-! ### Texts of types -/

/-- The text of a type without parts is read back. -/
theorem type_base_text {t : BaseType} {n : Bool} (hd : (base t n).isDescribed = true)
    (hz : (base t n).zonesUnquoted = true) (hrest : Closing rest) :
    ctx.type (fuel + 1) ((base t n).text.toList ++ rest) = .ok (base t n, rest) := by
  have hopen : ∀ {r : List Char}, ∀ c ∈ ('(' :: r).head?, isNameChar c = false :=
    not_isNameChar_of_cons (by decide)
  rw [DataType.text]
  cases t with
  | decimal p s =>
    simp only [isDescribed, Bool.and_eq_true, decide_eq_true_eq] at hd
    have hread := type_of_parameters (n := n) (by decide) hopen
      (parameters_decimal ctx rest fuel hd.1 hd.2)
    simpa [BaseType.text, withNullable] using hread
  | timestamp zone =>
    cases zone with
    | none =>
      have hread := type_of_parameters (n := n) (by decide) hrest.not_isNameChar
        (parameters_timestamp ctx fuel hrest)
      simpa [BaseType.text, withNullable] using hread
    | some zone =>
      have hzone : '\'' ∉ zone.toList := by simpa [zonesUnquoted] using hz
      have hread := type_of_parameters (n := n) (by decide) hopen
        (parameters_zone ctx rest fuel hzone)
      simpa [BaseType.text, withNullable] using hread
  | interval u =>
    have hread := type_of_parameters (n := n) (by decide) hopen
      (parameters_interval ctx rest fuel u)
    simpa [BaseType.text, withNullable] using hread
  | int t | float t =>
    cases t <;> exact type_of_simpleNamed? (t := base _ true) n (by exact rfl) hrest
  | _ => exact type_of_simpleNamed? (t := base _ true) n (by exact rfl) hrest

theorem type_space (cs : List Char) : ctx.type (fuel + 1) (' ' :: cs) = ctx.type (fuel + 1) cs := by
  rw [type, type, optional, optional, skipBlanks_space]

theorem fields_space (cs : List Char) :
    ctx.fields (fuel + 1) (' ' :: cs) = ctx.fields (fuel + 1) cs := by
  rw [fields, fields, name_space]

/-- The texts of the fields of a struct, as they stand between its brackets. -/
def fieldsText (fs : List (String × DataType)) : List Char :=
  (", ".intercalate (fieldTexts fs)).toList

theorem fieldsText_singleton (name : String) (t : DataType) :
    fieldsText [(name, t)] = name.toList ++ ':' :: ' ' :: t.text.toList := by
  simp [fieldsText, fieldTexts]

theorem fieldsText_cons (name : String) (t : DataType) (f : String × DataType)
    (r : List (String × DataType)) : fieldsText ((name, t) :: f :: r) =
      name.toList ++ ':' :: ' ' :: (t.text.toList ++ ',' :: ' ' :: fieldsText (f :: r)) := by
  simp [fieldsText, fieldTexts]

theorem text_list (e : DataType) (n : Bool) : (list e n).text.toList =
    (mark n).toList ++ ("array".toList ++ '<' :: (e.text.toList ++ ['>'])) := by
  simp [DataType.text]

theorem text_map (k v : DataType) (n : Bool) : (map k v n).text.toList =
    (mark n).toList ++ ("map".toList ++
      '<' :: (k.text.toList ++ ',' :: ' ' :: (v.text.toList ++ ['>']))) := by
  simp [DataType.text]

theorem text_struct (fs : List (String × DataType)) (n : Bool) : (struct fs n).text.toList =
    (mark n).toList ++ ("struct".toList ++ '<' :: (fieldsText fs ++ ['>'])) := by
  simp [DataType.text, fieldsText]

mutual

/-- **The text of a type is read back**, with anything behind it that closes it. The induction is on
the parts of the type; every level of brackets takes one from the fuel. -/
theorem type_text : ∀ {t : DataType} {fuel : Nat} {rest : List Char}, t.isDescribed = true →
    t.zonesUnquoted = true → t.text.toList.length < fuel → Closing rest →
      ctx.type fuel (t.text.toList ++ rest) = .ok (t, rest)
  | t, 0, rest, _, _, hfuel, _ => absurd hfuel (Nat.not_lt_zero _)
  | .null, fuel + 1, rest, _, _, _, hrest =>
    type_of_simpleNamed? true (show simpleNamed? "null" = some null from rfl) hrest
  | .base t n, fuel + 1, rest, hd, hz, _, hrest => type_base_text hd hz hrest
  | .list e n, fuel + 1, rest, hd, hz, hfuel, hrest => by
    have helement : e.text.toList.length < fuel := by
      rw [text_list] at hfuel
      simp only [List.length_append, List.length_cons] at hfuel
      omega
    have hparameters : ctx.parameters fuel "array" ('<' :: (e.text.toList ++ '>' :: rest)) =
        .ok (list e true, rest) := by
      rw [parameters, expect_self (by decide), ok_bind,
        type_text (t := e) hd hz helement (closing_bracket rest), ok_bind]
      dsimp only
      rw [expect_self (by decide)]
      rfl
    have hread := type_of_parameters (n := n) (by decide) (not_isNameChar_of_cons (by decide))
      hparameters
    rw [text_list]
    simpa [withNullable] using hread
  | .map k v n, fuel + 1, rest, hd, hz, hfuel, hrest => by
    obtain ⟨hkd, hvd⟩ := Bool.and_eq_true_iff.mp hd
    obtain ⟨hkz, hvz⟩ := Bool.and_eq_true_iff.mp hz
    have hlength : k.text.toList.length < fuel ∧ v.text.toList.length < fuel := by
      rw [text_map] at hfuel
      simp only [List.length_append, List.length_cons] at hfuel
      omega
    obtain ⟨fuel, rfl⟩ : ∃ m, fuel = m + 1 := Nat.exists_eq_add_one.mpr (by omega)
    have hparameters : ctx.parameters (fuel + 1) "map" ('<' :: (k.text.toList ++ ',' :: ' ' ::
        (v.text.toList ++ '>' :: rest))) = .ok (map k v true, rest) := by
      rw [parameters, expect_self (by decide), ok_bind,
        type_text hkd hkz hlength.1 (closing_comma _), ok_bind]
      dsimp only
      rw [expect_self (by decide), ok_bind, type_space,
        type_text hvd hvz hlength.2 (closing_bracket rest), ok_bind]
      dsimp only
      rw [expect_self (by decide)]
      rfl
    have hread := type_of_parameters (n := n) (by decide) (not_isNameChar_of_cons (by decide))
      hparameters
    rw [text_map]
    simpa [withNullable] using hread
  | .struct fs n, fuel + 1, rest, hd, hz, hfuel, hrest => by
    obtain ⟨hne, hfd⟩ := Bool.and_eq_true_iff.mp hd
    have hlength : (fieldsText fs).length < fuel := by
      rw [text_struct] at hfuel
      simp only [List.length_append, List.length_cons] at hfuel
      omega
    have hparameters : ctx.parameters fuel "struct" ('<' :: (fieldsText fs ++ '>' :: rest)) =
        .ok (struct fs true, rest) := by
      rw [parameters, expect_self (by decide), ok_bind,
        fields_text (by simpa using hne) hfd hz hlength, ok_bind]
      dsimp only
      rw [expect_self (by decide)]
      rfl
    have hread := type_of_parameters (n := n) (by decide) (not_isNameChar_of_cons (by decide))
      hparameters
    rw [text_struct]
    simpa [withNullable] using hread

/-- Fields are read back up to the bracket behind them. -/
theorem fields_text : ∀ {fs : List (String × DataType)} {fuel : Nat} {rest : List Char}, fs ≠ [] →
    areDescribed fs = true → fieldZonesUnquoted fs = true → (fieldsText fs).length < fuel →
      ctx.fields fuel (fieldsText fs ++ '>' :: rest) = .ok (fs, '>' :: rest)
  | fs, 0, rest, _, _, _, hfuel => absurd hfuel (Nat.not_lt_zero _)
  | [], _, _, hne, _, _, _ => absurd rfl hne
  | (name, t) :: r, fuel + 1, rest, _, hd, hz, hfuel => by
    obtain ⟨hd, hrd⟩ := Bool.and_eq_true_iff.mp hd
    obtain ⟨hname, htd⟩ := Bool.and_eq_true_iff.mp hd
    obtain ⟨htz, hrz⟩ := Bool.and_eq_true_iff.mp hz
    cases r with
    | nil =>
      rw [fieldsText_singleton] at hfuel ⊢
      have hlength : t.text.toList.length < fuel := by
        simp only [List.length_append, List.length_cons] at hfuel
        omega
      obtain ⟨fuel, rfl⟩ : ∃ m, fuel = m + 1 := Nat.exists_eq_add_one.mpr (by omega)
      rw [fields, List.append_assoc, List.cons_append,
        name_append hname (not_isNameChar_of_cons (by decide)), ok_bind]
      dsimp only
      rw [expect_self (by decide), ok_bind, List.cons_append, type_space,
        type_text htd htz hlength (closing_bracket rest), ok_bind]
      dsimp only
      rw [optional_of_head (by rintro c ⟨⟩; decide)]
      rfl
    | cons f r =>
      rw [fieldsText_cons] at hfuel ⊢
      have hlength : t.text.toList.length < fuel ∧ (fieldsText (f :: r)).length < fuel := by
        simp only [List.length_append, List.length_cons] at hfuel
        omega
      obtain ⟨fuel, rfl⟩ : ∃ m, fuel = m + 1 := Nat.exists_eq_add_one.mpr (by omega)
      rw [fields, List.append_assoc, List.cons_append,
        name_append hname (not_isNameChar_of_cons (by decide)), ok_bind]
      dsimp only
      rw [expect_self (by decide), ok_bind, List.cons_append, type_space, List.append_assoc,
        List.cons_append, type_text htd htz hlength.1 (closing_comma _), ok_bind]
      dsimp only
      rw [optional_self (by decide)]
      dsimp only
      rw [List.cons_append, fields_space, fields_text (by simp) hrd hrz hlength.2]
      rfl

end

end ReaderContext

/-- **Every type that is read from a text is read back from its own text**, if no zone in it
contains a single quote. -/
theorem ofText_text {s : String} {t : DataType} (h : ofText s = .ok t)
    (hz : t.zonesUnquoted = true) : ofText t.text = .ok t := by
  obtain ⟨⟨u, rest⟩, hu, h⟩ := bind_eq_ok_iff.mp h
  dsimp only at h
  split at h <;> cases h
  have hread : ReaderContext.type ⟨t.text⟩ (2 * t.text.toList.length + 2) (t.text.toList ++ []) =
      .ok (t, []) :=
    ReaderContext.type_text (ReaderContext.described_of_type hu) hz (by omega)
      ReaderContext.closing_nil
  rw [List.append_nil] at hread
  rw [ofText]
  dsimp only
  rw [hread]
  rfl

/-- A struct with blanks, capitals, short names, default parameters and a zone in double quotes. -/
theorem ofText_text_struct :
    let t : DataType := .struct [("a", .base (.int .int64) false),
      ("b", .map .utf8 (.list (.decimal 38 9) false) true),
      ("c", .timestamp (some "US/Eastern"))] true
    ofText " Struct<a : !INT, b: map<str,!array<decimal>>, c :timestamp(\"US/Eastern\")>" = .ok t ∧
      t.text = "struct<a: !int64, b: map<string, !array<decimal(38, 9)>>, " ++
        "c: timestamp('US/Eastern')>" ∧
      ofText t.text = .ok t := by
  intro t
  have hread : ofText
      " Struct<a : !INT, b: map<str,!array<decimal>>, c :timestamp(\"US/Eastern\")>" = .ok t := by
    cbv
  exact ⟨hread, by decide +kernel, ofText_text hread (by decide +kernel)⟩

/-- A zone with a single quote in it is read, but not from the text of its type. -/
example : ofText "timestamp(\"O'Clock\")" = .ok (.timestamp (some "O'Clock")) ∧
    (ofText (DataType.timestamp (some "O'Clock")).text).toOption = none := by
  constructor <;> cbv

end DataType

end TableQuery
