import Mathlib
import TableQuery.Proofs.Sql.Pieces

/-! # Reading quoted texts back

SQL reads a quoted text by leaving out the quotes around it and taking each doubled quote character
as one (`unquote?`). A text comes back if its quote characters stand alone: no two of them together,
and none behind a backslash (`QuotesAlone`). Any other is read as something else, or not at all.

Writing forgets little. It takes each pair of quote characters as one (`takePairs`) and then writes
what is left without loss (`double_injective`), so two texts are written alike only if they are the
same up to such pairs (`pairsAsOne`). Names and literals are apart but for the words `NULL`, `TRUE`
and `FALSE`, which are not reserved.

The main statement is `Dialect.written_and_read`. -/

namespace TableQuery

namespace Sql

/-! ### Reading -/

/-- The text that the content of quotes stands for, if the quote characters in it come in pairs. -/
def undouble? (q : Char) : List Char → Option (List Char)
  | [] => some []
  | [c] => if c = q then none else some [c]
  | c :: d :: r =>
    if c ≠ q then (undouble? q (d :: r)).map (c :: ·)
    else if d = q then (undouble? q r).map (q :: ·)
    else none

/-- **What SQL reads in quotes**: the quotes around the text are left out, and each pair of quote
characters in it is one. -/
def unquote? (q : Char) (s : String) : Option String :=
  match s.toList with
  | [] => none
  | c :: r =>
    if c = q ∧ r.getLast? = some q then (undouble? q r.dropLast).map String.ofList else none

/-- A character behind another one that is no quote, or stands alone as one. -/
def AloneBehind (q p c : Char) : Prop := c = q → p ≠ q ∧ p ≠ '\\'

instance (q : Char) : DecidableRel (AloneBehind q) :=
  fun p c => inferInstanceAs (Decidable (c = q → p ≠ q ∧ p ≠ '\\'))

/-- **Quotes that stand alone**: none is behind another one or behind a backslash. -/
def QuotesAlone (q : Char) (s : String) : Prop := s.toList.IsChain (AloneBehind q)

instance (q : Char) (s : String) : Decidable (QuotesAlone q s) :=
  inferInstanceAs (Decidable (s.toList.IsChain (AloneBehind q)))

variable {q prev : Char}

theorem toList_quoted (q : Char) (s : String) :
    (quoted q s).toList = q :: (escapeFrom q '\x00' s.toList ++ [q]) := by
  simp [quoted, Char.toString]

theorem unquote?_quoted (q : Char) (s : String) :
    unquote? q (quoted q s) = (undouble? q (escapeFrom q '\x00' s.toList)).map String.ofList := by
  simp [unquote?, toList_quoted]

theorem count_of_undouble? : ∀ {cs ds : List Char}, undouble? q cs = some ds →
    cs.count q = 2 * ds.count q
  | [], _, rfl => rfl
  | [c], ds, h => by
    rw [undouble?] at h
    split at h
    · cases h
    · cases h
      simp [*]
  | c :: d :: r, ds, h => by
    rw [undouble?] at h
    split at h
    case isTrue hc =>
      obtain ⟨es, hes, rfl⟩ := Option.map_eq_some_iff.mp h
      rw [List.count_cons_of_ne hc, List.count_cons_of_ne hc, count_of_undouble? hes]
    case isFalse hc =>
      have hcq : c = q := Decidable.not_not.mp hc
      split at h
      case isTrue hd =>
        obtain ⟨es, hes, rfl⟩ := Option.map_eq_some_iff.mp h
        simp only [hcq, hd, List.count_cons_self, count_of_undouble? hes]
        omega
      case isFalse => cases h

/-! ### Quotes that stand alone -/

/-- Quotes that stand alone behind the character `prev`. -/
def AloneFrom (q prev : Char) (cs : List Char) : Prop :=
  (prev = '\\' → cs.head? ≠ some q) ∧ cs.IsChain (AloneBehind q)

section AloneFrom

variable {c d : Char} {r : List Char}

theorem aloneFrom_cons_of_ne (h : c ≠ q) :
    AloneFrom q prev (c :: d :: r) ↔ AloneFrom q c (d :: r) := by
  rw [AloneFrom, AloneFrom, List.isChain_cons_cons, AloneBehind]
  simp only [List.head?_cons, ne_eq, Option.some.injEq, h, not_false_eq_true, implies_true,
    true_and]
  exact and_congr_left' ⟨fun hd hslash hq => hd hq hslash, fun hd hq hslash => hd hslash hq⟩

theorem aloneFrom_quote (hq : q ≠ '\\') (hprev : prev ≠ '\\') (hd : d ≠ q) :
    AloneFrom q prev (q :: d :: r) ↔ AloneFrom q q (d :: r) := by
  rw [AloneFrom, AloneFrom, List.isChain_cons_cons, AloneBehind]
  simp [hq, hprev, hd]

theorem not_aloneFrom_backslash : ¬ AloneFrom q '\\' (q :: r) := fun h => h.1 rfl rfl

theorem not_aloneFrom_pair : ¬ AloneFrom q prev (q :: q :: r) :=
  fun h => ((List.isChain_cons_cons.mp h.2).1 rfl).1 rfl

end AloneFrom

/-- Escaping writes at most two quote characters for each, and fewer as soon as one does not stand
alone. -/
theorem count_escapeFrom (hq : q ≠ '\\') (prev : Char) (cs : List Char) :
    (escapeFrom q prev cs).count q ≤ 2 * cs.count q ∧
      ((escapeFrom q prev cs).count q = 2 * cs.count q ↔ AloneFrom q prev cs) := by
  fun_induction escapeFrom q prev cs with
  | case1 prev => simp [AloneFrom]
  | case2 prev c hc =>
    obtain ⟨rfl, hprev⟩ := hc
    simp [AloneFrom, hprev]
  | case3 prev c hc =>
    by_cases hcq : c = q
    · obtain rfl : prev = '\\' := by simpa [hcq] using hc
      simp [AloneFrom, hcq]
    · simp [AloneFrom, hcq]
  | case4 prev c d r hcq ih =>
    rw [aloneFrom_cons_of_ne hcq, List.count_cons_of_ne hcq, List.count_cons_of_ne hcq]
    exact ih
  | case5 c d r hcq ih =>
    obtain rfl : c = q := Decidable.not_not.mp hcq
    rw [List.count_cons_self, List.count_cons_self]
    exact ⟨by omega, iff_of_false (by omega) not_aloneFrom_backslash⟩
  | case6 prev c r hcq hprev ih =>
    obtain rfl : c = q := Decidable.not_not.mp hcq
    simp only [List.count_cons_self]
    exact ⟨by omega, iff_of_false (by omega) not_aloneFrom_pair⟩
  | case7 prev c d r hcq hprev hd ih =>
    obtain rfl : c = q := Decidable.not_not.mp hcq
    rw [aloneFrom_quote hq hprev hd, ← ih.2]
    simp only [List.count_cons_self]
    exact ⟨by omega, by omega⟩

theorem undouble?_cons_of_ne {c : Char} (h : c ≠ q) : ∀ cs : List Char,
    undouble? q (c :: cs) = (undouble? q cs).map (c :: ·)
  | [] => if_neg h
  | _ :: _ => if_pos h

theorem undouble?_pair (q : Char) (cs : List Char) :
    undouble? q (q :: q :: cs) = (undouble? q cs).map (q :: ·) := by
  rw [undouble?, if_neg (not_not_intro rfl), if_pos rfl]

/-- The content of quotes is read back if the quotes in it stand alone. -/
theorem undouble?_escapeFrom (hq : q ≠ '\\') (prev : Char) (cs : List Char)
    (h : AloneFrom q prev cs) : undouble? q (escapeFrom q prev cs) = some cs := by
  fun_induction escapeFrom q prev cs with
  | case1 prev => rfl
  | case2 prev c hc =>
    obtain ⟨rfl, -⟩ := hc
    rw [undouble?_pair]
    rfl
  | case3 prev c hc =>
    have hcq : c ≠ q := fun hcq => by simp_all [AloneFrom]
    rw [undouble?_cons_of_ne hcq]
    rfl
  | case4 prev c d r hcq ih =>
    rw [undouble?_cons_of_ne hcq, ih ((aloneFrom_cons_of_ne hcq).mp h)]
    rfl
  | case5 c d r hcq =>
    obtain rfl : c = q := Decidable.not_not.mp hcq
    exact absurd h not_aloneFrom_backslash
  | case6 prev c r hcq =>
    obtain rfl : c = q := Decidable.not_not.mp hcq
    exact absurd h not_aloneFrom_pair
  | case7 prev c d r hcq hprev hd ih =>
    obtain rfl : c = q := Decidable.not_not.mp hcq
    rw [undouble?_pair, ih ((aloneFrom_quote hq hprev hd).mp h)]
    rfl

/-- **A quoted text is read back exactly if the quotes in it stand alone.** -/
theorem unquote?_quoted_iff (hq : q ∈ quoteChars) (s : String) :
    unquote? q (quoted q s) = some s ↔ QuotesAlone q s := by
  have hslash := ne_backslash_of_mem hq
  have halone : AloneFrom q '\x00' s.toList ↔ QuotesAlone q s :=
    and_iff_right fun h => absurd h (by decide)
  rw [unquote?_quoted, ← halone]
  constructor
  · intro h
    obtain ⟨cs, hcs, rfl⟩ := Option.map_eq_some_iff.mp h
    rw [String.toList_ofList] at hcs ⊢
    exact (count_escapeFrom hslash _ cs).2.mp (count_of_undouble? hcs)
  · intro h
    rw [undouble?_escapeFrom hslash _ _ h, Option.map_some, String.ofList_toList]

/-! ### What writing forgets -/

/-- The content of quotes with each pair of quote characters as one, but for those that follow a
backslash. -/
def takePairs (q prev : Char) : List Char → List Char
  | [] => []
  | [c] => [c]
  | c :: d :: r =>
    if c ≠ q then c :: takePairs q c (d :: r)
    else if prev = '\\' then q :: takePairs q prev (d :: r)
    else if d = q then q :: takePairs q q r
    else q :: takePairs q q (d :: r)

/-- **A text with each pair of quote characters as one.** -/
def pairsAsOne (q : Char) (s : String) : String := String.ofList (takePairs q '\x00' s.toList)

/-- The content of quotes with each quote character doubled, but for those that follow a
backslash. -/
def double (q prev : Char) : List Char → List Char
  | [] => []
  | c :: r =>
    if c ≠ q then c :: double q c r
    else if prev = '\\' then q :: double q prev r
    else q :: q :: double q q r

theorem escapeFrom_eq_double (q prev : Char) (cs : List Char) :
    escapeFrom q prev cs = double q prev (takePairs q prev cs) := by
  fun_induction escapeFrom q prev cs <;> simp_all [takePairs, double]

/-- Doubling loses nothing: how a quote character is written depends on what is before it only. -/
theorem double_injective (q prev : Char) : Function.Injective (double q prev) := by
  intro as bs h
  induction as generalizing prev bs with
  | nil =>
    cases bs with
    | nil => rfl
    | cons b s =>
      rw [double, double] at h
      split at h
      · cases h
      · split at h <;> cases h
  | cons a r ih =>
    cases bs with
    | nil =>
      rw [double, double] at h
      split at h
      · cases h
      · split at h <;> cases h
    | cons b s =>
      rw [double, double] at h
      grind

theorem quoted_eq_quoted_iff (q : Char) {s t : String} :
    quoted q s = quoted q t ↔ pairsAsOne q s = pairsAsOne q t := by
  rw [← String.toList_inj, toList_quoted, toList_quoted, List.cons_inj_right, List.append_left_inj,
    escapeFrom_eq_double, escapeFrom_eq_double, (double_injective q _).eq_iff, pairsAsOne,
    pairsAsOne, String.ofList_inj]

theorem takePairs_eq_self : ∀ {cs : List Char} {prev : Char}, q ∉ cs → takePairs q prev cs = cs
  | [], _, _ => rfl
  | [_], _, _ => rfl
  | c :: d :: r, prev, h => by
    rw [List.mem_cons, not_or] at h
    rw [takePairs, if_pos (Ne.symm h.1), takePairs_eq_self h.2]

theorem mem_takePairs {prev : Char} {cs : List Char} (h : q ∈ cs) : q ∈ takePairs q prev cs := by
  fun_induction takePairs q prev cs with
  | case1 | case2 => exact h
  | case3 prev c d r hc ih =>
    exact List.mem_cons_of_mem _ (ih ((List.mem_cons.mp h).resolve_left (Ne.symm hc)))
  | _ => exact List.mem_cons_self

/-- A text without the quote character is like no other. -/
theorem eq_of_pairsAsOne_eq {s t : String} (hs : q ∉ s.toList)
    (h : pairsAsOne q s = pairsAsOne q t) : s = t := by
  rw [pairsAsOne, pairsAsOne, String.ofList_inj, takePairs_eq_self hs] at h
  have ht : q ∉ t.toList := fun ht => hs (h ▸ mem_takePairs ht)
  rwa [takePairs_eq_self ht, String.toList_inj] at h

/-! ### Names -/

namespace Dialect

variable {d : Dialect}

/-- Whether a name is written in quotes. -/
def quotes (d : Dialect) (n : String) : Bool := d.alwaysQuote || !isBareName n

theorem name_of_quotes {n : String} (h : d.quotes n = true) : d.name n = quoted d.quote.char n :=
  if_neg (by cases hbare : isBareName n <;> simp_all [quotes])

theorem name_of_not_quotes {n : String} (h : d.quotes n = false) : d.name n = n :=
  if_pos (by simpa [quotes] using h)

theorem isBareName_of_not_quotes {n : String} (h : d.quotes n = false) : isBareName n = true := by
  simp_all [quotes]

variable (d) in
theorem quote_notMem_of_isBareName {n : String} (h : isBareName n = true) :
    d.quote.char ∉ n.toList := by
  intro hmem
  have hplain := (isBareName_spec h).1.isPlain_of_mem hmem
  revert hplain
  cases d.quote <;> decide

/-- A bare name is not written as one in quotes. -/
theorem quoted_ne_of_isBareName {n : String} (h : isBareName n = true) (m : String) :
    quoted d.quote.char m ≠ n := by
  rintro rfl
  exact d.quote_notMem_of_isBareName h (by rw [toList_quoted]; exact List.mem_cons_self)

/-- **Two names are written alike exactly if they are the same up to pairs of quotes.** -/
theorem name_eq_name_iff {m n : String} :
    d.name m = d.name n ↔ pairsAsOne d.quote.char m = pairsAsOne d.quote.char n := by
  cases hm : d.quotes m with
  | true =>
    cases hn : d.quotes n with
    | true => rw [name_of_quotes hm, name_of_quotes hn, quoted_eq_quoted_iff]
    | false =>
      have hbare := isBareName_of_not_quotes hn
      rw [name_of_quotes hm, name_of_not_quotes hn]
      refine iff_of_false (quoted_ne_of_isBareName hbare m) fun h => ?_
      rw [eq_of_pairsAsOne_eq (d.quote_notMem_of_isBareName hbare) h.symm, hm] at hn
      cases hn
  | false =>
    have hbare := isBareName_of_not_quotes hm
    have hquote := d.quote_notMem_of_isBareName hbare
    rw [name_of_not_quotes hm]
    refine ⟨fun h => ?_, fun h => ?_⟩
    · cases hn : d.quotes n with
      | true => exact absurd (name_of_quotes hn ▸ h).symm (quoted_ne_of_isBareName hbare n)
      | false => rw [h, name_of_not_quotes hn]
    · obtain rfl := eq_of_pairsAsOne_eq hquote h
      exact (name_of_not_quotes hm).symm

theorem name_eq_bare_iff {n w : String} (hw : isBareName w = true) :
    d.name n = w ↔ d.alwaysQuote = false ∧ n = w := by
  unfold name
  split
  case isTrue h =>
    have hnot : d.alwaysQuote = false := by simp_all
    exact (and_iff_right hnot).symm
  case isFalse h =>
    refine iff_of_false (quoted_ne_of_isBareName hw n) ?_
    rintro ⟨hnot, rfl⟩
    exact h (by simp [hnot, hw])

end Dialect

/-! ### Texts that no name is written as -/

/-- **A text that is no name**, whatever is behind it: it does not begin with a quote, and not all
of its characters may stand in a bare name. -/
def NoName (s : String) : Prop :=
  ∃ c r, s.toList = c :: r ∧ c ≠ '"' ∧ c ≠ '\x60' ∧ (isBareStart c && r.all isBareChar) = false

instance (s : String) : Decidable (NoName s) :=
  match h : s.toList with
  | [] => isFalse (by rintro ⟨c, r, hs, -⟩; rw [hs] at h; cases h)
  | c :: r => decidable_of_iff
      (c ≠ '"' ∧ c ≠ '\x60' ∧ (isBareStart c && r.all isBareChar) = false)
      ⟨fun hc => ⟨c, r, h, hc⟩, fun ⟨c', r', hs, hc⟩ => by
        obtain ⟨rfl, rfl⟩ := List.cons.inj (h.symm.trans hs)
        exact hc⟩

namespace NoName

variable {s : String}

theorem append (h : NoName s) (rest : String) : NoName (s ++ rest) := by
  obtain ⟨c, r, hs, hdouble, hback, hbare⟩ := h
  have htext : (s ++ rest).toList = c :: (r ++ rest.toList) := by
    rw [String.toList_append, hs, List.cons_append]
  refine ⟨c, r ++ rest.toList, htext, hdouble, hback, ?_⟩
  rw [List.all_append, ← Bool.and_assoc, hbare, Bool.false_and]

theorem not_isBareName (h : NoName s) : isBareName s = false := by
  obtain ⟨c, r, hs, -, -, hbare⟩ := h
  simp only [isBareName, hs, hbare, Bool.false_and]

theorem name_ne (h : NoName s) (d : Dialect) (n : String) : d.name n ≠ s := by
  rintro rfl
  cases hn : d.quotes n with
  | true =>
    obtain ⟨c, r, hs, hdouble, hback, -⟩ := h
    rw [Dialect.name_of_quotes hn, toList_quoted] at hs
    obtain ⟨rfl, -⟩ := List.cons.inj hs
    cases hq : d.quote with
    | double => exact hdouble (by rw [hq, NameQuote.char])
    | backtick => exact hback (by rw [hq, NameQuote.char])
  | false =>
    have hbare := Dialect.isBareName_of_not_quotes hn
    rw [Dialect.name_of_not_quotes hn] at h
    rw [h.not_isBareName] at hbare
    cases hbare

end NoName

theorem isBareStart_of_isDigit {c : Char} (h : c.isDigit = true) : isBareStart c = false := by
  have hc : c ≠ '_' := by
    rintro rfl
    revert h
    decide
  simp only [isBareStart, Char.isDigit, Char.isAlpha, Char.isUpper, Char.isLower] at h ⊢
  grind

theorem DigitFirst.noName {s : String} (h : DigitFirst s) : NoName s := by
  obtain ⟨c, hc, hdigit⟩ := h
  obtain ⟨r, hr⟩ := List.head?_eq_some_iff.mp hc
  refine ⟨c, r, hr, ?_, ?_, by rw [isBareStart_of_isDigit hdigit, Bool.false_and]⟩ <;>
  · rintro rfl
    revert hdigit
    decide

theorem noName_signed {s : String} (h : DigitFirst s) (negative : Prop) [Decidable negative] :
    NoName ((if negative then "-" else "") ++ s) := by
  split
  · exact NoName.append (by decide) s
  · rw [String.empty_append]
    exact h.noName

theorem noName_int : ∀ v : Int, NoName (toString v)
  | .ofNat n => (digitFirst_nat n).noName
  | .negSucc n => NoName.append (s := "-") (by decide) (toString (n + 1))

theorem noName_floatLiteral : ∀ x : FloatValue, NoName (floatLiteral x)
  | .nan => by decide
  | .infinity negative => by cases negative <;> decide
  | .finite negative n => noName_signed (FloatLayout.write_spec _ _).2 (negative = true)

end Sql

namespace Scalar

/-- The word that the value is written as, if its literal is a word. -/
def word? : Scalar → Option String
  | .null => some "NULL"
  | .boolean b => some (if b then "TRUE" else "FALSE")
  | _ => none

end Scalar

namespace Sql

theorem literal_of_word? {v : Scalar} {w : String} (h : v.word? = some w) :
    literal v = w ∧ isBareName w = true := by
  cases v with
  | null =>
    cases h
    exact ⟨by rw [literal], by decide +kernel⟩
  | boolean b =>
    cases h
    exact ⟨by rw [literal], by cases b <;> decide +kernel⟩
  | _ => cases h

/-- A literal that is no word is no name either. -/
theorem noName_literal {v : Scalar} (h : v.word? = none) : NoName (literal v) := by
  have hfronts : ∀ w ∈ fronts, NoName w := by decide
  cases hfront : v.front? with
  | some w =>
    obtain ⟨hw, rest, hliteral⟩ := literal_front hfront
    rw [hliteral]
    exact (hfronts w hw).append rest
  | none =>
    cases v with
    | null | boolean b => cases h
    | int _ v =>
      rw [literal]
      exact noName_int v.val
    | decimal d =>
      rw [literal, Decimal.text_eq]
      exact noName_signed d.digitFirst_unsignedText _
    | float t v =>
      rw [literal]
      exact noName_floatLiteral _
    | timestamp _ zone => cases zone <;> cases hfront
    | _ => cases hfront

namespace Dialect

variable (d : Dialect)

/-- **A name is written as a literal is** exactly if it is the word of the literal, and names are
not always quoted. -/
theorem name_eq_literal_iff (n : String) (v : Scalar) :
    d.name n = literal v ↔ d.alwaysQuote = false ∧ v.word? = some n := by
  cases hv : v.word? with
  | none => simp [(noName_literal hv).name_ne d n]
  | some w =>
    obtain ⟨hw, hbare⟩ := literal_of_word? hv
    rw [hw, name_eq_bare_iff hbare, Option.some_inj, eq_comm (a := n)]

/-- **What is written can be told apart and read back** up to quote characters that do not stand
alone. Names, and strings, are written alike exactly if they differ in pairs of quote characters
only; what is quoted is read back exactly if its quote characters stand alone; and a name is written
as a literal is only if it is one of the words `NULL`, `TRUE` and `FALSE`, without quotes. -/
theorem written_and_read :
    (∀ m n : String, d.name m = d.name n ↔
      pairsAsOne d.quote.char m = pairsAsOne d.quote.char n) ∧
    (∀ s t : String, literal (.utf8 s) = literal (.utf8 t) ↔
      pairsAsOne '\'' s = pairsAsOne '\'' t) ∧
    (∀ n : String, d.quotes n = true →
      (unquote? d.quote.char (d.name n) = some n ↔ QuotesAlone d.quote.char n)) ∧
    (∀ s : String, unquote? '\'' (literal (.utf8 s)) = some s ↔ QuotesAlone '\'' s) ∧
    ∀ (n : String) (v : Scalar),
      d.name n = literal v ↔ d.alwaysQuote = false ∧ v.word? = some n := by
  refine ⟨fun _ _ => name_eq_name_iff, fun s t => ?_, fun n hn => ?_, fun s => ?_,
    d.name_eq_literal_iff⟩
  · rw [literal, literal]
    exact quoted_eq_quoted_iff '\''
  · rw [name_of_quotes hn]
    exact unquote?_quoted_iff d.quote.char_mem n
  · rw [literal]
    exact unquote?_quoted_iff (by decide) s

/-- A name with one quote is written with two, read back, and not like another name without pairs
of quotes; the same name with a backslash before the quote is not read back. -/
theorem written_and_read_single :
    ansi.quotes "a\"b" = true ∧ unquote? '"' (ansi.name "a\"b") = some "a\"b" ∧
    ansi.name "a\"b" ≠ ansi.name "a\"b\"" ∧
    unquote? '"' (ansi.name "a\\\"b") ≠ some "a\\\"b" := by
  have hquotes : ansi.quotes "a\"b" = true := by decide +kernel
  have hslash : ansi.quotes "a\\\"b" = true := by decide +kernel
  obtain ⟨hnames, -, hread, -⟩ := ansi.written_and_read
  refine ⟨hquotes, (hread _ hquotes).mpr (by decide), fun h => ?_, fun h => ?_⟩
  · have hpairs := (hnames _ _).mp h
    revert hpairs
    decide
  · have halone := (hread _ hslash).mp h
    revert halone
    decide

/-- Two names are written alike, and so are two strings; a name in quotes and a string are not read
back; and a column can be named like a constant. -/
theorem not_written_and_read :
    (¬ ∀ m n : String, ansi.name m = ansi.name n → m = n) ∧
    (¬ ∀ s t : String, literal (.utf8 s) = literal (.utf8 t) → s = t) ∧
    (¬ ∀ n : String, ansi.quotes n = true → unquote? '"' (ansi.name n) = some n) ∧
    (¬ ∀ s : String, unquote? '\'' (literal (.utf8 s)) = some s) ∧
    ¬ ∀ (n : String) (v : Scalar), ansi.name n ≠ literal v := by
  refine ⟨fun h => ?_, fun h => ?_, fun h => ?_, fun h => ?_, fun h => ?_⟩
  · exact absurd (h "a\"b" "a\"\"b" (by decide +kernel)) (by decide)
  · exact absurd (h "'" "''" (by rw [literal, literal]; decide +kernel)) (by decide)
  · exact absurd (h "a\"\"b" (by decide +kernel)) (by decide +kernel)
  · have hread := h "''"
    rw [literal] at hread
    exact absurd hread (by decide +kernel)
  · exact absurd (h "TRUE" (.boolean true)) (by rw [literal]; decide +kernel)

end Dialect

end Sql

end TableQuery
