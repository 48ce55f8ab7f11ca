import TableQuery.Proofs.Sql.Lexing
import TableQuery.Sql.Literal

/-! # Literals as pieces of SQL

Numbers, dates, names and literals are neutral pieces of a text. A literal is one if the strings in
it can be quoted (`Scalar.isSafe`), and a minus sign may stand before it unless it has one itself
(`takesMinus_literal`). -/

namespace TableQuery

/-! ### Digits -/

namespace Sql

theorem isPlain_of_isDigit {c : Char} (h : c.isDigit = true) : isPlain c = true :=
  isPlain_of (by decide) h

/-- A plain text that begins at all takes a minus sign. -/
theorem PlainText.takesMinus {s : String} (h : PlainText s) (hs : s.toList ≠ []) :
    TakesMinus s := by
  obtain ⟨c, r, hr⟩ := List.exists_cons_of_ne_nil hs
  have hplain : isPlain c = true := h.isPlain_of_mem (by rw [hr]; exact List.mem_cons_self)
  refine ⟨c, by rw [hr, List.head?_cons], ?_⟩
  rintro rfl
  revert hplain
  decide

theorem plainText_digits {ds : List Char} (h : ∀ c ∈ ds, c.isDigit = true) :
    PlainText (String.ofList ds) := by
  rw [PlainText, String.toList_ofList, List.all_eq_true]
  exact fun c hc => isPlain_of_isDigit (h c hc)

theorem isDigit_of_mem_toDigits {c : Char} {n : Nat} (h : c ∈ Nat.toDigits 10 n) :
    c.isDigit = true := Nat.isDigit_of_mem_toDigits (by decide) (by decide) h

theorem plainText_nat (n : Nat) : PlainText (toString n) :=
  plainText_digits fun _ => isDigit_of_mem_toDigits

/-- **A text that begins with a digit.** -/
def DigitFirst (s : String) : Prop := ∃ c, s.toList.head? = some c ∧ c.isDigit = true

theorem DigitFirst.append {s : String} (h : DigitFirst s) (rest : String) :
    DigitFirst (s ++ rest) := by
  obtain ⟨c, hc, hdigit⟩ := h
  exact ⟨c, by rw [String.toList_append, List.head?_append, hc, Option.some_or], hdigit⟩

theorem DigitFirst.takesMinus {s : String} (h : DigitFirst s) : TakesMinus s := by
  obtain ⟨c, hc, hdigit⟩ := h
  refine ⟨c, hc, ?_⟩
  rintro rfl
  revert hdigit
  decide

theorem digitFirst_digits {ds : List Char} (h : ∀ c ∈ ds, c.isDigit = true) (hne : ds ≠ []) :
    DigitFirst (String.ofList ds) := by
  obtain ⟨c, r, rfl⟩ := List.exists_cons_of_ne_nil hne
  exact ⟨c, by rw [String.toList_ofList, List.head?_cons], h c List.mem_cons_self⟩

theorem digitFirst_nat (n : Nat) : DigitFirst (toString n) :=
  digitFirst_digits (fun _ => isDigit_of_mem_toDigits) Nat.toDigits_ne_nil

theorem plainText_padZeros (width : Nat) {s : String} (h : PlainText s) :
    PlainText (padZeros width s) := by
  refine PlainText.append ?_ h
  rw [String.pushn_eq_repeat_push]
  generalize width - s.length = n
  induction n with
  | zero => decide
  | succ n ih =>
    rw [Nat.repeat, String.push_eq_append]
    exact ih.append (by decide)

/-! ### Numbers -/

/-- A text behind a sign, if it has one. -/
theorem neutral_signed {s : String} (h : Neutral s) (hs : TakesMinus s) (negative : Prop)
    [Decidable negative] : Neutral ((if negative then "-" else "") ++ s) := by
  split
  · exact h.minus hs
  · exact (by decide : Neutral "").append h

theorem neutral_int : ∀ v : Int, Neutral (toString v)
  | .ofNat n => (plainText_nat n).neutral
  | .negSucc n => (plainText_nat (n + 1)).neutral.minus (digitFirst_nat (n + 1)).takesMinus

theorem takesMinus_int : ∀ {v : Int}, 0 ≤ v → TakesMinus (toString v)
  | .ofNat n, _ => (digitFirst_nat n).takesMinus

end Sql

open Sql

namespace Decimal

-- Powers are those of the core library, also where other instances are in scope.
attribute [local instance (2000)] instPowNat

variable (d : Decimal)

/-- The text without its sign. -/
def unsignedText : String :=
  let n := d.unscaled.val.natAbs
  if d.scale = 0 then toString n
  else toString (n / 10 ^ d.scale) ++ "." ++ padZeros d.scale (toString (n % 10 ^ d.scale))

theorem text_eq : d.text = (if d.unscaled.val < 0 then "-" else "") ++ d.unsignedText := by
  unfold text unsignedText
  dsimp only
  split
  · rfl
  · simp only [String.append_assoc]

theorem plainText_unsignedText : PlainText d.unsignedText := by
  unfold unsignedText
  dsimp only
  split
  · exact plainText_nat _
  · exact ((plainText_nat _).append (by decide)).append (plainText_padZeros _ (plainText_nat _))

theorem digitFirst_unsignedText : DigitFirst d.unsignedText := by
  unfold unsignedText
  dsimp only
  split
  · exact digitFirst_nat _
  · exact ((digitFirst_nat _).append _).append _

theorem neutral_text : Neutral d.text := by
  rw [text_eq]
  exact neutral_signed d.plainText_unsignedText.neutral d.digitFirst_unsignedText.takesMinus _

theorem takesMinus_text (h : 0 ≤ d.unscaled.val) : TakesMinus d.text := by
  rw [text_eq, if_neg (by omega), String.empty_append]
  exact d.digitFirst_unsignedText.takesMinus

end Decimal

namespace FloatLayout

variable (layout : FloatLayout) (d : DecimalDigits)

theorem isDigit_of_mem_digits {c : Char} (h : c ∈ d.digits) : c.isDigit = true :=
  isDigit_of_mem_toDigits h

theorem isDigit_of_mem_zeros {n : Nat} {c : Char} (h : c ∈ List.replicate n '0') :
    c.isDigit = true := by
  rw [List.eq_of_mem_replicate h]
  decide

/-- Digits in their places, with a point or not. -/
theorem positional_spec : PlainText (layout.positional d) ∧ DigitFirst (layout.positional d) := by
  unfold positional
  dsimp only
  split
  · have hdigits : ∀ c ∈ d.digits ++ List.replicate d.exponent.toNat '0', c.isDigit = true :=
      fun c hc => (List.mem_append.mp hc).elim (isDigit_of_mem_digits d) isDigit_of_mem_zeros
    have hne : d.digits ++ List.replicate d.exponent.toNat '0' ≠ [] :=
      List.append_ne_nil_of_left_ne_nil Nat.toDigits_ne_nil _
    refine ⟨(plainText_digits hdigits).append ?_, (digitFirst_digits hdigits hne).append _⟩
    split <;> decide
  · generalize (-d.exponent).toNat = places
    have hdigits : ∀ c ∈ List.replicate (places + 1 - d.digits.length) '0' ++ d.digits,
        c.isDigit = true :=
      fun c hc => (List.mem_append.mp hc).elim isDigit_of_mem_zeros (isDigit_of_mem_digits d)
    generalize hds : List.replicate (places + 1 - d.digits.length) '0' ++ d.digits = ds at hdigits ⊢
    have hlength : places < ds.length := by
      rw [← hds, List.length_append, List.length_replicate]
      omega
    have hne : ds.take (ds.length - places) ≠ [] :=
      List.length_pos_iff.mp (by rw [List.length_take]; omega)
    have htake : ∀ c ∈ ds.take (ds.length - places), c.isDigit = true :=
      fun c hc => hdigits c (List.mem_of_mem_take hc)
    have hdrop : ∀ c ∈ ds.drop (ds.length - places), c.isDigit = true :=
      fun c hc => hdigits c (List.mem_of_mem_drop hc)
    exact ⟨((plainText_digits htake).append (by decide)).append (plainText_digits hdrop),
      ((digitFirst_digits htake hne).append _).append _⟩

theorem scientific_spec : Neutral (scientific d) ∧ DigitFirst (scientific d) := by
  unfold scientific
  dsimp only
  have htake : ∀ c ∈ d.digits.take 1, c.isDigit = true :=
    fun c hc => isDigit_of_mem_digits d (List.mem_of_mem_take hc)
  have hdrop : ∀ c ∈ d.digits.drop 1, c.isDigit = true :=
    fun c hc => isDigit_of_mem_digits d (List.mem_of_mem_drop hc)
  have hne : d.digits.take 1 ≠ [] := by
    have hpos : 0 < d.digits.length := Nat.length_toDigits_pos
    exact List.length_pos_iff.mp (by rw [List.length_take]; omega)
  refine ⟨Neutral.append (Neutral.append ((plainText_digits htake).append ?_).neutral (by decide))
    (neutral_int _), (((digitFirst_digits htake hne).append _).append _).append _⟩
  split
  · decide
  · exact PlainText.append (by decide) (plainText_digits hdrop)

theorem write_spec : Neutral (layout.write d) ∧ DigitFirst (layout.write d) := by
  unfold write
  dsimp only
  split
  · exact scientific_spec d
  · exact ⟨(layout.positional_spec d).1.neutral, (layout.positional_spec d).2⟩

end FloatLayout

/-! ### Texts that stand in a string -/

namespace Sql

/-- A text that a string literal holds as it is, without a quote. -/
def Unquoted (s : String) : Prop := '\'' ∉ s.toList

instance (s : String) : Decidable (Unquoted s) :=
  decidable_of_iff (s.toList.contains '\'' = false) (by simp [Unquoted])

variable {a b : String}

theorem Unquoted.append (ha : Unquoted a) (hb : Unquoted b) : Unquoted (a ++ b) := by
  rw [Unquoted, String.toList_append, List.mem_append]
  exact fun h => h.elim ha hb

theorem PlainText.unquoted {s : String} (h : PlainText s) : Unquoted s := by
  intro hc
  have hplain := h.isPlain_of_mem hc
  revert hplain
  decide

theorem unquoted_nat (n : Nat) : Unquoted (toString n) := (plainText_nat n).unquoted

theorem unquoted_padZeros (width n : Nat) : Unquoted (padZeros width (toString n)) :=
  (plainText_padZeros width (plainText_nat n)).unquoted

theorem unquoted_int : ∀ v : Int, Unquoted (toString v)
  | .ofNat n => unquoted_nat n
  | .negSucc n => Unquoted.append (by decide) (unquoted_nat (n + 1))

theorem unquoted_hexByte (b : UInt8) : Unquoted (hexByte true b) := by
  have hdigit : ∀ n < 16, (if n < 10 then Char.ofNat ('0'.toNat + n)
      else Char.ofNat (('A').toNat + n - 10)) ≠ '\'' := by decide
  have hb : b.toNat < 256 := b.toNat_lt
  have hhigh := hdigit (b.toNat / 16) (by omega)
  have hlow := hdigit (b.toNat % 16) (by omega)
  rw [Unquoted, hexByte, String.toList_ofList]
  simp only [if_true, List.mem_cons, List.not_mem_nil, or_false, not_or]
  exact ⟨hhigh.symm, hlow.symm⟩

theorem unquoted_hexBytes (bytes : List UInt8) : Unquoted (hexBytes true bytes) := by
  rw [Unquoted, hexBytes, String.toList_join, List.mem_flatMap]
  rintro ⟨s, hs, hc⟩
  obtain ⟨b, -, rfl⟩ := List.mem_map.mp hs
  exact unquoted_hexByte b hc

end Sql

theorem Date.unquoted_text (d : Date) : Unquoted d.text := by
  unfold text
  obtain ⟨y, m, day⟩ := d.civil
  dsimp only
  refine .append (.append (.append (.append ?_ (by decide)) (unquoted_padZeros 2 m)) (by decide))
    (unquoted_padZeros 2 day)
  have hdigits : Unquoted (padZeros 4 (toString y.natAbs)) := unquoted_padZeros 4 _
  split
  · exact hdigits
  · refine .append ?_ hdigits
    split <;> decide

theorem TimeOfDay.unquoted_fractionText (nanos : Nat) : Unquoted (fractionText nanos) := by
  unfold fractionText
  split
  · decide
  · split
    · exact .append (by decide) (unquoted_padZeros 3 _)
    · split
      · exact .append (by decide) (unquoted_padZeros 6 _)
      · exact .append (by decide) (unquoted_padZeros 9 _)

theorem TimeOfDay.unquoted_text (t : TimeOfDay) : Unquoted t.text := by
  unfold text
  obtain ⟨h, m, s, nanos⟩ := t.clock
  exact ((((unquoted_padZeros 2 h).append (by decide)).append (unquoted_padZeros 2 m)).append
    (by decide)).append (unquoted_padZeros 2 s) |>.append (unquoted_fractionText nanos)

theorem Timestamp.unquoted_text (t : Timestamp) : Unquoted t.text :=
  (t.date.unquoted_text.append (by decide)).append t.time.unquoted_text

/-! ### Literals -/

namespace Scalar

/-- Whether the literal of the value begins with a minus sign. -/
def isSigned : Scalar → Bool
  | .int _ v => v.val < 0
  | .decimal d => d.unscaled.val < 0
  | .float t v =>
    match t.toDouble v with
    | .finite negative _ => negative
    | _ => false
  | _ => false

mutual

/-- Whether the literal of the value holds its strings as they are: quotes behind a backslash come
in pairs, and the names of zones, which stand in a literal as they are, have no quote. -/
def isSafe : Scalar → Bool
  | .utf8 s => pairsQuotes '\'' s.toList
  | .timestamp _ (some zone) => !zone.toList.contains '\''
  | .list values => allSafe values
  | .struct fields => fieldsSafe fields
  | _ => true

def allSafe : List Scalar → Bool
  | [] => true
  | v :: r => isSafe v && allSafe r

def fieldsSafe : List (String × Scalar) → Bool
  | [] => true
  | (name, v) :: r => pairsQuotes '\'' name.toList && isSafe v && fieldsSafe r

end

end Scalar

namespace Sql

theorem neutral_stringLiteral {s : String} (h : pairsQuotes '\'' s.toList = true) :
    Neutral (stringLiteral s) := neutral_quoted (by decide) h

theorem neutral_floatLiteral : ∀ x : FloatValue, Neutral (floatLiteral x)
  | .nan => by decide
  | .infinity negative => by cases negative <;> decide
  | .finite negative n => neutral_signed (FloatLayout.write_spec _ _).1
      (FloatLayout.write_spec _ _).2.takesMinus (negative = true)

mutual

/-- **A literal is a neutral piece** if the strings in it can be quoted. -/
theorem neutral_literal : ∀ {v : Scalar}, v.isSafe = true → Neutral (literal v)
  | .null, _ => by
    rw [literal]
    decide
  | .boolean b, _ => by
    rw [literal]
    cases b <;> decide
  | .int _ v, _ => by
    rw [literal]
    exact neutral_int v.val
  | .decimal d, _ => by
    rw [literal]
    exact d.neutral_text
  | .float t v, _ => by
    rw [literal]
    exact neutral_floatLiteral _
  | .utf8 s, h => by
    rw [Scalar.isSafe] at h
    rw [literal]
    exact neutral_stringLiteral h
  | .binary bytes, _ => by
    rw [literal]
    exact neutral_string (by decide) (unquoted_hexBytes bytes) (by decide)
  | .date d, _ => by
    rw [literal]
    exact neutral_string (by decide) d.unquoted_text (by decide)
  | .time t, _ => by
    rw [literal]
    exact neutral_string (by decide) t.unquoted_text (by decide)
  | .timestamp t none, _ => by
    rw [literal]
    exact neutral_string (by decide) t.unquoted_text (by decide)
  | .timestamp t (some zone), h => by
    have hzone : Unquoted zone := by
      rw [Scalar.isSafe] at h
      simpa [Unquoted] using h
    have htext : Unquoted (t.text ++ " " ++ zone) :=
      (t.unquoted_text.append (by decide)).append hzone
    have hstring : Neutral ("TIMESTAMPTZ '" ++ (t.text ++ " " ++ zone) ++ "'") :=
      neutral_string (by decide) htext (by decide)
    rw [literal]
    simpa only [String.append_assoc] using hstring
  | .interval iv, _ => by
    have hunit : Neutral iv.unit.sqlName := by cases iv.unit <;> decide +kernel
    rw [literal]
    exact (neutral_string (by decide) (unquoted_int iv.count.val) (by decide)).append hunit
  | .list values, h => by
    rw [Scalar.isSafe] at h
    rw [literal]
    exact Neutral.append (Neutral.append (by decide)
      (neutral_intercalate (by decide) (neutral_literals h))) (by decide)
  | .struct fields, h => by
    rw [Scalar.isSafe] at h
    rw [literal]
    exact Neutral.append (Neutral.append (by decide)
      (neutral_intercalate (by decide) (neutral_fieldLiterals h))) (by decide)

theorem neutral_literals : ∀ {vs : List Scalar}, Scalar.allSafe vs = true →
    ∀ s ∈ literals vs, Neutral s
  | [], _ => by
    rw [literals]
    exact fun _ hs => nomatch hs
  | v :: r, h => by
    rw [Scalar.allSafe, Bool.and_eq_true] at h
    rw [literals]
    exact List.forall_mem_cons.mpr ⟨neutral_literal h.1, neutral_literals h.2⟩

theorem neutral_fieldLiterals : ∀ {fs : List (String × Scalar)}, Scalar.fieldsSafe fs = true →
    ∀ s ∈ fieldLiterals fs, Neutral s
  | [], _ => by
    rw [fieldLiterals]
    exact fun _ hs => nomatch hs
  | (name, v) :: r, h => by
    rw [Scalar.fieldsSafe, Bool.and_eq_true, Bool.and_eq_true] at h
    obtain ⟨⟨hname, hv⟩, hr⟩ := h
    rw [fieldLiterals]
    exact List.forall_mem_cons.mpr
      ⟨((neutral_stringLiteral hname).append (by decide)).append (neutral_literal hv),
        neutral_fieldLiterals hr⟩

end

theorem takesMinus_quoted {q : Char} (hq : q ∈ quoteChars) (s : String) :
    TakesMinus (quoted q s) := by
  have hq' : q ≠ '-' := by
    rintro rfl
    revert hq
    decide
  refine ⟨q, ?_, hq'⟩
  simp [quoted, Char.toString]

/-- The texts that literals begin with, whatever their values hold. -/
def fronts : List String :=
  ["'", "X'", "DATE '", "TIME '", "TIMESTAMP '", "TIMESTAMPTZ '", "INTERVAL '", "[", "\x7b"]

end Sql

/-- The text that the literal of the value begins with. The literals of numbers and the words have
none. -/
def Scalar.front? : Scalar → Option String
  | .utf8 _ => some "'"
  | .binary _ => some "X'"
  | .date _ => some "DATE '"
  | .time _ => some "TIME '"
  | .timestamp _ none => some "TIMESTAMP '"
  | .timestamp _ (some _) => some "TIMESTAMPTZ '"
  | .interval _ => some "INTERVAL '"
  | .list _ => some "["
  | .struct _ => some "\x7b"
  | _ => none

namespace Sql

theorem literal_front {v : Scalar} {w : String} (h : v.front? = some w) :
    w ∈ fronts ∧ ∃ rest, literal v = w ++ rest := by
  cases v with
  | utf8 | binary | date | time | list | struct =>
    cases h
    rw [literal]
    exact ⟨by simp [fronts], _, String.append_assoc⟩
  | interval iv =>
    cases h
    rw [literal, String.append_assoc, String.append_assoc]
    exact ⟨by simp [fronts], _, rfl⟩
  | timestamp t zone =>
    cases zone <;>
    · cases h
      simp only [literal, String.append_assoc]
      exact ⟨by simp [fronts], _, rfl⟩
  | _ => cases h

/-- **A minus sign may stand before a literal** that has none itself. -/
theorem takesMinus_literal {v : Scalar} (h : v.isSigned = false) : TakesMinus (literal v) := by
  have hfronts : ∀ w ∈ fronts, TakesMinus w := by decide
  cases hfront : v.front? with
  | some w =>
    obtain ⟨hw, rest, hliteral⟩ := literal_front hfront
    rw [hliteral]
    exact (hfronts w hw).append rest
  | none =>
    cases v with
    | null =>
      rw [literal]
      decide
    | boolean b =>
      rw [literal]
      cases b <;> decide
    | int _ v =>
      rw [literal]
      exact takesMinus_int (by simpa [Scalar.isSigned] using h)
    | decimal d =>
      rw [literal]
      exact d.takesMinus_text (by simpa [Scalar.isSigned] using h)
    | float t v =>
      rw [literal]
      rw [Scalar.isSigned] at h
      cases hx : t.toDouble v with
      | nan => decide
      | infinity negative => cases negative <;> decide
      | finite negative n =>
        obtain rfl : negative = false := by simpa [hx] using h
        have hwrite := (FloatLayout.literal.write_spec (double.shortest n)).2.takesMinus
        simpa [floatLiteral, FloatType.textOf] using hwrite
    | timestamp _ zone => cases zone <;> cases hfront
    | _ => cases hfront

end Sql

end TableQuery
