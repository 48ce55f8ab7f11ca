import Mathlib
import TableQuery.Proofs.Result
import TableQuery.Proofs.Sql.Literals
import TableQuery.Sql.TypeName

/-! # Reading type names back

The reader of type names gives the type that a name was written for, as far as the name tells it
(`DataType.asNamed`), if there is no struct or map in the type (`DataType.isReadable`). Names of
structs and maps are written, but not read: they are reported as unknown.

The main statement is `Dialect.parse_typeName`. The reader ignores case, so the name of an element
in capitals is read as the name itself (`toOption_parseTypeNameFrom_toUpper`), which carries the
induction on the type. -/

namespace TableQuery

open Sql Result

/-! ### What a name tells -/

/-- The type that the name of a type without parts stands for. -/
def BaseType.asNamed : BaseType → BaseType
  | .float .float16 => .float .float32
  | .timestamp (some _) => .timestamp (some "UTC")
  | .interval _ => .interval .second
  | t => t

namespace DataType

mutual

/-- **The type that a name stands for**: everything in it is nullable, half precision is single, a
zone is `UTC` and a unit is the second. -/
def asNamed : DataType → DataType
  | .null => .null
  | .base t _ => .base t.asNamed true
  | .list e _ => .list (asNamed e) true
  | .struct fs _ => .struct (fieldsAsNamed fs) true
  | .map k v _ => .map (asNamed k) (asNamed v) true

def fieldsAsNamed : List (String × DataType) → List (String × DataType)
  | [] => []
  | (n, t) :: r => (n, asNamed t) :: fieldsAsNamed r

end

/-- **Whether the name of the type is read**: there is no struct or map in it, and the parameters
of a decimal fit a byte. -/
def isReadable : DataType → Bool
  | .null => true
  | .base (.decimal p s) _ => p < byteLimit && s < byteLimit
  | .base _ _ => true
  | .list e _ => isReadable e
  | .struct _ _ | .map _ _ _ => false

end DataType

namespace Sql

/-! ### Blanks and capitals -/

theorem isWhiteSpace_of_lt {c : Char} (hlow : 32 < c.toNat) (hhigh : c.toNat < 127) :
    isWhiteSpace c = false := by
  simp only [isWhiteSpace]
  grind

theorem toNat_of_isLower {c : Char} (h : c.isLower = true) : 97 ≤ c.toNat ∧ c.toNat ≤ 122 := by
  simpa [Char.isLower, UInt32.le_iff_toNat_le] using h

theorem isWhiteSpace_toUpper (c : Char) : isWhiteSpace c.toUpper = isWhiteSpace c := by
  by_cases h : c.isLower = true
  · have hrange := toNat_of_isLower h
    have hvalid : (c.toNat - 32).isValidChar := by grind
    have hupper : c.toUpper.toNat = c.toNat - 32 := by
      rw [Char.toUpper_eq_of_isLower h, Char.toNat_ofNat, if_pos hvalid]
    rw [isWhiteSpace_of_lt (by omega) (by omega), isWhiteSpace_of_lt (by omega) (by omega)]
  · rw [Char.toUpper_eq_of_not_isLower h]

theorem trimBlanks_map_toUpper (cs : List Char) :
    trimBlanks (cs.map Char.toUpper) = (trimBlanks cs).map Char.toUpper := by
  have hp : isWhiteSpace ∘ Char.toUpper = isWhiteSpace := funext isWhiteSpace_toUpper
  simp only [trimBlanks, List.dropWhile_map, ← List.map_reverse, hp]

/-- **A text without white space at its ends.** -/
def Tight (cs : List Char) : Prop :=
  cs.head?.any (!isWhiteSpace ·) = true ∧ cs.getLast?.any (!isWhiteSpace ·) = true

instance (cs : List Char) : Decidable (Tight cs) := inferInstanceAs (Decidable (_ ∧ _))

variable {cs a b : List Char}

theorem Tight.enclosed (ha : Tight a) (hb : Tight b) (m : List Char) : Tight (a ++ m ++ b) := by
  obtain ⟨c, hc, hfirst⟩ := (Option.any_eq_true _ _).mp ha.1
  obtain ⟨e, he, hlast⟩ := (Option.any_eq_true _ _).mp hb.2
  refine ⟨?_, ?_⟩
  · rw [List.append_assoc, List.head?_append, hc, Option.some_or, Option.any_some, hfirst]
  · rw [List.getLast?_append, he, Option.some_or, Option.any_some, hlast]

theorem toNat_of_isDigit {c : Char} (h : c.isDigit = true) : 48 ≤ c.toNat ∧ c.toNat ≤ 57 :=
  Char.isDigit_iff_toNat.mp h

theorem tight_digits (h : ∀ c ∈ cs, c.isDigit = true) (hne : cs ≠ []) : Tight cs := by
  have hblank : ∀ c ∈ cs, isWhiteSpace c = false := fun c hc => by
    have hdigit := toNat_of_isDigit (h c hc)
    exact isWhiteSpace_of_lt (by omega) (by omega)
  rw [Tight, List.head?_eq_some_head hne, List.getLast?_eq_some_getLast hne]
  simp [hblank]

theorem dropWhile_isWhiteSpace (h : cs.head?.any (!isWhiteSpace ·) = true) :
    cs.dropWhile isWhiteSpace = cs := by
  cases cs with
  | nil => rfl
  | cons c r => exact List.dropWhile_cons_of_neg (by simpa using h)

theorem Tight.trimBlanks_eq (h : Tight cs) : trimBlanks cs = cs := by
  rw [trimBlanks, dropWhile_isWhiteSpace h.1,
    dropWhile_isWhiteSpace (by rw [List.head?_reverse]; exact h.2), List.reverse_reverse]

/-! ### Reading step by step -/

/-- The characters of a name without blanks around it, in capitals. -/
def capitals (cs : List Char) : List Char := (trimBlanks cs).map Char.toUpper

theorem capitals_map_toUpper (cs : List Char) : capitals (cs.map Char.toUpper) = capitals cs := by
  rw [capitals, trimBlanks_map_toUpper, List.map_map]
  exact List.map_congr_left fun c _ => Char.toUpper_toUpper_eq_toUpper c

/-- A name with brackets at its end is that of a list. -/
theorem parseTypeNameFrom_list (fuel : Nat) {element : List Char}
    (h : capitals cs = element ++ "[]".toList) :
    parseTypeNameFrom (fuel + 1) cs = do return .list (← parseTypeNameFrom fuel element) true := by
  have hreverse : (capitals cs).reverse = ']' :: '[' :: element.reverse := by
    rw [h, List.reverse_append]
    rfl
  conv_lhs => unfold parseTypeNameFrom
  dsimp only
  rw [← capitals, hreverse]
  simp only [List.reverse_reverse]

/-- Any other name is looked up in capitals. -/
theorem parseTypeNameFrom_other (fuel : Nat) (h : ∀ element, capitals cs ≠ element ++ "[]".toList) :
    parseTypeNameFrom fuel cs =
      typeOfCapitals (String.ofList (trimBlanks cs)) (capitals cs) := by
  unfold parseTypeNameFrom
  dsimp only
  split
  case h_1 heq =>
    have hcapitals := congrArg List.reverse heq
    rw [List.reverse_reverse, List.reverse_cons, List.reverse_cons, List.append_assoc] at hcapitals
    exact absurd hcapitals (h _)
  case h_2 => rfl

/-- Errors show the name as it is given; apart from that the reader ignores case. -/
theorem toOption_typeOfCapitals (given given' : String) (upper : List Char) :
    (typeOfCapitals given upper).toOption = (typeOfCapitals given' upper).toOption := by
  unfold typeOfCapitals
  split
  · dsimp only
    split
    · rfl
    · split <;> rfl
  · split <;> rfl

/-- A name in capitals is read as the name is. -/
theorem toOption_parseTypeNameFrom_toUpper (fuel : Nat) (cs : List Char) :
    (parseTypeNameFrom fuel (cs.map Char.toUpper)).toOption =
      (parseTypeNameFrom fuel cs).toOption := by
  have hcapitals := capitals_map_toUpper cs
  unfold parseTypeNameFrom
  dsimp only
  rw [← capitals, ← capitals, hcapitals]
  split
  · rfl
  · exact toOption_typeOfCapitals _ _ _

theorem typeOfCapitals_error {given : String} {upper : List Char} {e : Error}
    (h : typeOfCapitals given upper = .error e) : ∃ t, e = .typeText t := by
  unfold typeOfCapitals at h
  split at h
  · dsimp only at h
    split at h
    · cases h
    · split at h
      · cases h
      · cases h
        exact ⟨_, rfl⟩
  · split at h
    · cases h
    · cases h
      exact ⟨_, rfl⟩

/-- Every error of the reader is one about the text. -/
theorem parseTypeNameFrom_error {fuel : Nat} {e : Error}
    (h : parseTypeNameFrom fuel cs = .error e) : ∃ t, e = .typeText t := by
  fun_induction parseTypeNameFrom fuel cs with
  | case1 cs name upper fuel element heq ih =>
    cases hresult : parseTypeNameFrom fuel element.reverse with
    | ok t =>
      rw [hresult] at h
      cases h
    | error e' =>
      rw [hresult] at h
      cases h
      exact ih hresult
  | case2 => exact typeOfCapitals_error h

/-! ### The names that are written -/

/-- The name of a list is read as that of its element. -/
theorem toOption_parseTypeNameFrom_brackets (fuel : Nat) (h : Tight cs) :
    (parseTypeNameFrom (fuel + 1) (cs ++ "[]".toList)).toOption =
      (parseTypeNameFrom fuel cs).toOption.map (DataType.list · true) := by
  have htight : Tight (cs ++ [] ++ "[]".toList) := h.enclosed (by decide) []
  rw [List.append_nil] at htight
  have hcapitals : capitals (cs ++ "[]".toList) = cs.map Char.toUpper ++ "[]".toList := by
    rw [capitals, htight.trimBlanks_eq, List.map_append]
    rfl
  rw [parseTypeNameFrom_list fuel hcapitals, ← toOption_parseTypeNameFrom_toUpper fuel cs]
  cases parseTypeNameFrom fuel (cs.map Char.toUpper) <;> rfl

/-- A name without blanks around it and with another last character than a bracket. -/
theorem parseTypeNameFrom_tight (fuel : Nat) (h : Tight cs)
    (hlast : (cs.map Char.toUpper).getLast? ≠ some ']') :
    parseTypeNameFrom fuel cs = typeOfCapitals (String.ofList cs) (cs.map Char.toUpper) := by
  have hcapitals : capitals cs = cs.map Char.toUpper := by rw [capitals, h.trimBlanks_eq]
  rw [parseTypeNameFrom_other, hcapitals, h.trimBlanks_eq]
  rintro element helement
  rw [hcapitals] at helement
  exact hlast (by rw [helement, List.getLast?_append]; rfl)

theorem byteOfDigits?_toDigits (n : Nat) :
    byteOfDigits? (Nat.toDigits 10 n) = if n < byteLimit then some n else none := by
  have hdigits : (Nat.toDigits 10 n).all Char.isDigit = true :=
    List.all_eq_true.mpr fun _ => isDigit_of_mem_toDigits
  have hvalue : (Nat.toDigits 10 n).foldl (fun n c => n * 10 + (c.toNat - '0'.toNat)) 0 = n := by
    have hn := Nat.ofDigitChars_ten_toDigits (n := n)
    rw [Nat.ofDigitChars_eq_foldl] at hn
    simpa only [Nat.mul_comm] using hn
  rw [byteOfDigits?, if_neg (by simp [hdigits, Nat.toDigits_ne_nil])]
  simp only [hvalue]

theorem trimBlanks_digits {ds : List Char} (h : ∀ c ∈ ds, c.isDigit = true) :
    trimBlanks ds = ds := by
  by_cases hne : ds = []
  · rw [hne]
    rfl
  · exact (tight_digits h hne).trimBlanks_eq

/-- Digits are read as a parameter. -/
theorem parameter?_digits {ds : List Char} (h : ∀ c ∈ ds, c.isDigit = true) :
    parameter? ds = byteOfDigits? ds := by
  rw [parameter?, trimBlanks_digits h]
  split
  · exact absurd (h '+' List.mem_cons_self) (by decide)
  · rfl

theorem parameter?_blank (cs : List Char) : parameter? (' ' :: cs) = parameter? cs := by
  have htrim : trimBlanks (' ' :: cs) = trimBlanks cs := by
    rw [trimBlanks, List.dropWhile_cons_of_pos (by decide), trimBlanks]
  rw [parameter?, parameter?, htrim]

/-- Precision and scale of a decimal as they are written. -/
def parametersText (ps ss : List Char) : List Char := '(' :: (ps ++ ',' :: ' ' :: ss) ++ [')']

variable {ps ss : List Char}

theorem decimalParameters?_digits (hp : ∀ c ∈ ps, c.isDigit = true)
    (hs : ∀ c ∈ ss, c.isDigit = true) :
    decimalParameters? (parametersText ps ss) = do
      return (← byteOfDigits? ps, ← byteOfDigits? ss) := by
  have hcomma : ∀ c ∈ ps, decide (c ≠ ',') = true := fun c hc => by
    rw [decide_eq_true_eq]
    rintro rfl
    exact absurd (hp _ hc) (by decide)
  have hfirst : (ps ++ ',' :: ' ' :: ss).takeWhile (· ≠ ',') = ps := by
    rw [List.takeWhile_append_of_pos hcomma, List.takeWhile_cons_of_neg (by decide),
      List.append_nil]
  have hopen : afterWord? ['('] (parametersText ps ss) =
      some ((ps ++ ',' :: ' ' :: ss) ++ [')']) := rfl
  have hclose : afterWord? [')'] ((ps ++ ',' :: ' ' :: ss) ++ [')']).reverse =
      some (ps ++ ',' :: ' ' :: ss).reverse := by
    rw [List.reverse_append]
    rfl
  have hrest : afterWord? [','] ((ps ++ ',' :: ' ' :: ss).drop ps.length) = some (' ' :: ss) := by
    rw [List.drop_left]
    rfl
  simp only [decimalParameters?, hopen, hclose, Option.bind_eq_bind, Option.bind_some,
    List.reverse_reverse, hfirst, hrest, parameter?_blank, parameter?_digits hp,
    parameter?_digits hs]

theorem tight_parametersText (ps ss : List Char) : Tight (parametersText ps ss) :=
  Tight.enclosed (a := ['(']) (by decide) (by decide) _

theorem getLast?_parametersText (ps ss : List Char) :
    (parametersText ps ss).getLast? = some ')' := by
  rw [parametersText, List.getLast?_append]
  rfl

theorem map_toUpper_digits {ds : List Char} (h : ∀ c ∈ ds, c.isDigit = true) :
    ds.map Char.toUpper = ds := by
  refine (List.map_congr_left fun c hc => Char.toUpper_eq_of_not_isLower fun hlower => ?_).trans
    (List.map_id ds)
  have hdigit := toNat_of_isDigit (h c hc)
  have hrange := toNat_of_isLower hlower
  omega

theorem map_toUpper_parametersText (hp : ∀ c ∈ ps, c.isDigit = true)
    (hs : ∀ c ∈ ss, c.isDigit = true) :
    (parametersText ps ss).map Char.toUpper = parametersText ps ss := by
  simp only [parametersText, List.map_append, List.map_cons, map_toUpper_digits hp,
    map_toUpper_digits hs]
  rfl

/-- The name of a decimal is read if its parameters fit a byte. -/
theorem toOption_typeOfCapitals_decimal (given : String) (hp : ∀ c ∈ ps, c.isDigit = true)
    (hs : ∀ c ∈ ss, c.isDigit = true) :
    (typeOfCapitals given ("DECIMAL".toList ++ parametersText ps ss)).toOption = do
      return .decimal (← byteOfDigits? ps) (← byteOfDigits? ss) := by
  have hword : afterWord? "DECIMAL".toList ("DECIMAL".toList ++ parametersText ps ss) =
      some (parametersText ps ss) := rfl
  have hnonempty : (parametersText ps ss).isEmpty = false := rfl
  rw [typeOfCapitals, hword, Option.some_or]
  dsimp only
  rw [(tight_parametersText ps ss).trimBlanks_eq, hnonempty, if_neg (by decide),
    decimalParameters?_digits hp hs]
  cases byteOfDigits? ps <;> cases byteOfDigits? ss <;> rfl

theorem toOption_parseTypeNameFrom_decimal (fuel p s : Nat) :
    Tight ("DECIMAL(" ++ toString p ++ ", " ++ toString s ++ ")").toList ∧
      (parseTypeNameFrom fuel
        ("DECIMAL(" ++ toString p ++ ", " ++ toString s ++ ")").toList).toOption =
        if p < byteLimit ∧ s < byteLimit then some (.decimal p s) else none := by
  have htext : ("DECIMAL(" ++ toString p ++ ", " ++ toString s ++ ")").toList =
      "DECIMAL".toList ++ parametersText (Nat.toDigits 10 p) (Nat.toDigits 10 s) := by
    simp [parametersText]
  have hp : ∀ c ∈ Nat.toDigits 10 p, c.isDigit = true := fun _ => isDigit_of_mem_toDigits
  have hs : ∀ c ∈ Nat.toDigits 10 s, c.isDigit = true := fun _ => isDigit_of_mem_toDigits
  have hvalue := byteOfDigits?_toDigits p
  have hscale := byteOfDigits?_toDigits s
  rw [htext]
  generalize Nat.toDigits 10 p = ps, Nat.toDigits 10 s = ss at hp hs hvalue hscale ⊢
  have htight : Tight ("DECIMAL".toList ++ parametersText ps ss) := by
    have hword : Tight "DECIMAL".toList := by decide
    have hboth := hword.enclosed (tight_parametersText ps ss) []
    rwa [List.append_nil] at hboth
  have hupper : ("DECIMAL".toList ++ parametersText ps ss).map Char.toUpper =
      "DECIMAL".toList ++ parametersText ps ss := by
    rw [List.map_append, map_toUpper_parametersText hp hs]
    rfl
  have hlast : ("DECIMAL".toList ++ parametersText ps ss).getLast? ≠ some ']' := by
    rw [List.getLast?_append, getLast?_parametersText]
    decide
  refine ⟨htight, ?_⟩
  rw [parseTypeNameFrom_tight fuel htight (by rwa [hupper]), hupper,
    toOption_typeOfCapitals_decimal _ hp hs, hvalue, hscale]
  by_cases hp : p < byteLimit <;> by_cases hs : s < byteLimit <;> simp [hp, hs]

theorem paren_notMem_of_typeOfName? {s : String} {t : DataType} (h : typeOfName? s = some t) :
    '(' ∉ s.toList := by
  unfold typeOfName? at h
  split at h <;> first | decide | cases h

/-- A name with parentheses other than a decimal's is unknown. -/
theorem toOption_typeOfCapitals_of_mem (given : String) {upper : List Char}
    (hdecimal : afterWord? "DECIMAL".toList upper = none)
    (hnumeric : afterWord? "NUMERIC".toList upper = none) (h : '(' ∈ upper) :
    (typeOfCapitals given upper).toOption = none := by
  unfold typeOfCapitals
  rw [hdecimal, hnumeric, Option.or_none]
  dsimp only
  split
  · exact absurd (by rwa [String.toList_ofList]) (paren_notMem_of_typeOfName? ‹_›)
  · rfl

/-- A name without blanks around it that is looked up as it stands. -/
theorem toOption_parseTypeNameFrom_word (fuel : Nat) {t : DataType} (h : Tight cs)
    (hlast : (cs.map Char.toUpper).getLast? ≠ some ']')
    (ht : typeOfCapitals (String.ofList cs) (cs.map Char.toUpper) = .ok t) :
    Tight cs ∧ (parseTypeNameFrom fuel cs).toOption = some t := by
  rw [parseTypeNameFrom_tight fuel h hlast, ht]
  exact ⟨h, rfl⟩

/-- The name of a type without parts. -/
theorem toOption_parseTypeNameFrom_base {t : BaseType} {s : String} (h : baseTypeName t = .ok s)
    (fuel : Nat) (nullable : Bool) : Tight s.toList ∧
      (parseTypeNameFrom fuel s.toList).toOption =
        if (DataType.base t nullable).isReadable then some (.base t.asNamed true) else none := by
  cases t with
  | int t | float t =>
    cases t <;> cases h <;>
      exact toOption_parseTypeNameFrom_word fuel (by decide) (by decide) rfl
  | decimal p s =>
    cases h
    have hdecimal := toOption_parseTypeNameFrom_decimal fuel p s
    simpa [DataType.isReadable, BaseType.asNamed] using hdecimal
  | timestamp zone =>
    cases zone <;> cases h <;>
      exact toOption_parseTypeNameFrom_word fuel (by decide) (by decide) rfl
  | unknown => cases h
  | _ =>
    cases h
    exact toOption_parseTypeNameFrom_word fuel (by decide) (by decide) rfl

/-- The name of a type with parts in parentheses is unknown. -/
theorem toOption_parseTypeNameFrom_parens (fuel : Nat) {word : String}
    (hword : word = "STRUCT(" ∨ word = "MAP(") (content : String) :
    Tight (word ++ content ++ ")").toList ∧
      (parseTypeNameFrom fuel (word ++ content ++ ")").toList).toOption = none := by
  have htight : Tight (word ++ content ++ ")").toList := by
    rw [String.toList_append, String.toList_append]
    refine Tight.enclosed ?_ (by decide) _
    obtain rfl | rfl := hword <;> decide
  have hupper : ((word ++ content ++ ")").toList).map Char.toUpper =
      word.toList ++ (content.toList.map Char.toUpper ++ [')']) := by
    rw [String.toList_append, String.toList_append, List.append_assoc, List.map_append,
      List.map_append]
    obtain rfl | rfl := hword <;> rfl
  refine ⟨htight, ?_⟩
  rw [parseTypeNameFrom_tight fuel htight (by rw [hupper]; simp), hupper]
  refine toOption_typeOfCapitals_of_mem _ ?_ ?_ ?_
  · obtain rfl | rfl := hword <;> rfl
  · obtain rfl | rfl := hword <;> rfl
  · obtain rfl | rfl := hword <;> simp

namespace Dialect

variable {d : Dialect}

/-- **The name of a type is read back**, whatever the fuel beyond its length, or not at all. The
induction is on the lists that the type consists of. -/
theorem toOption_parseTypeNameFrom_typeName : ∀ {t : DataType} {s : String} {fuel : Nat},
    d.typeName t = .ok s → s.toList.length ≤ fuel → Tight s.toList ∧
      (parseTypeNameFrom fuel s.toList).toOption =
        if t.isReadable then some t.asNamed else none
  | .null, s, fuel, h, _ => by
    cases h
    exact toOption_parseTypeNameFrom_word fuel (by decide) (by decide) rfl
  | .base t nullable, s, fuel, h, _ => by
    rw [typeName] at h
    exact toOption_parseTypeNameFrom_base h fuel nullable
  | .list e nullable, s, fuel, h, hfuel => by
    rw [typeName] at h
    obtain ⟨element, helement, h⟩ := bind_eq_ok_iff.mp h
    cases h
    have hlength : element.toList.length + 2 ≤ fuel := by
      simpa [String.toList_append] using hfuel
    obtain ⟨fuel, rfl⟩ : ∃ n, fuel = n + 1 := Nat.exists_eq_add_one.mpr (by omega)
    have hrest : element.toList.length ≤ fuel := by omega
    obtain ⟨htight, hread⟩ := toOption_parseTypeNameFrom_typeName helement hrest
    rw [String.toList_append]
    refine ⟨?_, ?_⟩
    · have hlist := htight.enclosed (by decide : Tight "[]".toList) []
      rwa [List.append_nil] at hlist
    · rw [toOption_parseTypeNameFrom_brackets fuel htight, hread, DataType.isReadable,
        DataType.asNamed]
      split <;> rfl
  | .struct fs nullable, s, fuel, h, _ => by
    rw [typeName] at h
    obtain ⟨fields, -, h⟩ := bind_eq_ok_iff.mp h
    cases h
    rw [DataType.isReadable]
    exact toOption_parseTypeNameFrom_parens fuel (.inl rfl) _
  | .map k v nullable, s, fuel, h, _ => by
    rw [typeName] at h
    obtain ⟨key, -, h⟩ := bind_eq_ok_iff.mp h
    obtain ⟨value, -, h⟩ := bind_eq_ok_iff.mp h
    cases h
    have hmap := toOption_parseTypeNameFrom_parens fuel (.inr rfl) (key ++ ", " ++ value)
    rw [DataType.isReadable, if_neg (by decide)]
    simpa only [String.append_assoc] using hmap

/-- **The name that is written for a type is read as the type that the name stands for**, in every
dialect, if there is no struct or map in the type, at any depth; otherwise it is an error of the
text. -/
theorem parse_typeName {t : DataType} {s : String} (h : d.typeName t = .ok s) :
    (t.isReadable = true → parseTypeName s = .ok t.asNamed) ∧
    (t.isReadable = false → ∃ e, parseTypeName s = .error (.typeText e)) := by
  obtain ⟨-, hread⟩ := toOption_parseTypeNameFrom_typeName h (Nat.le_refl _)
  refine ⟨fun hr => ?_, fun hr => ?_⟩
  · rw [if_pos hr] at hread
    exact toOption_eq_some_iff.mp hread
  · rw [hr, if_neg (by decide)] at hread
    cases hs : parseTypeName s with
    | ok u =>
      rw [parseTypeName] at hs
      rw [hs] at hread
      cases hread
    | error e =>
      obtain ⟨text, rfl⟩ := parseTypeNameFrom_error hs
      exact ⟨text, rfl⟩

/-- Lists of lists of decimals are read back, in any nullability; lists of structs are not. -/
theorem parse_typeName_lists :
    ansi.typeName (.list (.list (.base (.decimal 10 2) false) false) false) =
      .ok "DECIMAL(10, 2)[][]" ∧
    parseTypeName "DECIMAL(10, 2)[][]" = .ok (.list (.list (.decimal 10 2) true) true) ∧
    ansi.typeName (.list (.struct [("a", .int .int64)] true) true) = .ok "STRUCT(a BIGINT)[]" ∧
    ∃ e, parseTypeName "STRUCT(a BIGINT)[]" = .error (.typeText e) := by
  have hlists : ansi.typeName (.list (.list (.base (.decimal 10 2) false) false) false) =
      .ok "DECIMAL(10, 2)[][]" := rfl
  have hstructs : ansi.typeName (.list (.struct [("a", .int .int64)] true) true) =
      .ok "STRUCT(a BIGINT)[]" := toOption_eq_some_iff.mp (by decide +kernel)
  exact ⟨hlists, (parse_typeName hlists).1 (by decide), hstructs,
    (parse_typeName hstructs).2 (by decide)⟩

/-- Names of structs and of maps are written, but not read. -/
theorem not_parse_typeName :
    ¬ ∀ (d : Dialect) (t : DataType) (s : String), d.typeName t = .ok s →
      parseTypeName s = .ok t.asNamed := by
  intro h
  have hread := h ansi (.struct [("a", .int .int64)] true) "STRUCT(a BIGINT)"
    (toOption_eq_some_iff.mp (by decide +kernel))
  exact absurd (toOption_eq_some_iff.mpr hread) (by decide +kernel)

end Dialect

end Sql

end TableQuery
