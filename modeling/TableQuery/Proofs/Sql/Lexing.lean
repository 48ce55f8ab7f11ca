import TableQuery.Sql.Quoted

/-! # Lexing SQL

What the characters of an SQL text are part of: code, a string or quoted name, or a comment. The
lexer keeps the number of open parentheses and stops at a parenthesis that closes none and at a
statement terminator. A text is well formed (`WellFormed`) if it is read to its end, with every
parenthesis closed and outside of quotes and comments.

Texts are pieced together, so the lexer is followed piece by piece: `Reads i s j` says that the
piece `s` leads from code at depth `i` to code at depth `j`, and a neutral piece (`Neutral`) comes
back to its depth wherever it stands. The main statement is `neutral_quoted`: a quoted text is one
neutral piece if quote characters behind a backslash come in pairs in it (`pairsQuotes`). -/

namespace TableQuery.Sql

/-- What the next character is part of. -/
inductive Region where
  | code
  /-- Code behind a minus sign, which a second one turns into a comment. -/
  | dash
  /-- Code behind a slash, which a star turns into a comment. -/
  | slash
  | quoted (quote : Char)
  /-- A comment up to the end of its line. -/
  | lineComment
  | blockComment
  /-- A comment behind a star, which a slash ends. -/
  | star
  deriving DecidableEq

/-- Whether a text may end here: outside of quotes and comments. -/
def Region.isCode : Region → Bool
  | code | dash | slash => true
  | _ => false

/-- The state of the lexer: the region of the next character, and how many parentheses are open. -/
structure Lexer where
  region : Region
  depth : Nat
  deriving DecidableEq

/-- The characters that open quotes, and close them. -/
def quoteChars : List Char := ['\'', '"', '\x60']

namespace Lexer

/-- Code at some depth. -/
def code (depth : Nat) : Lexer := ⟨.code, depth⟩

/-- Inside quotes at some depth. -/
def inside (quote : Char) (depth : Nat) : Lexer := ⟨.quoted quote, depth⟩

/-- The state behind a character of code. -/
def stepCode (depth : Nat) (c : Char) : Option Lexer :=
  if c ∈ quoteChars then some (inside c depth)
  else
    match c with
    | '(' => some (code (depth + 1))
    | ')' => if depth = 0 then none else some (code (depth - 1))
    | ';' => none
    | '-' => some ⟨.dash, depth⟩
    | '/' => some ⟨.slash, depth⟩
    | _ => some (code depth)

/-- The state behind a character. A doubled quote character inside quotes closes them and opens them
again, which reads all other characters as one that stands for itself would. -/
def step (s : Lexer) (c : Char) : Option Lexer :=
  match s.region with
  | .code => stepCode s.depth c
  | .dash => if c = '-' then some ⟨.lineComment, s.depth⟩ else stepCode s.depth c
  | .slash => if c = '*' then some ⟨.blockComment, s.depth⟩ else stepCode s.depth c
  | .quoted q => some (if c = q then code s.depth else inside q s.depth)
  | .lineComment => some ⟨if c = '\n' then .code else .lineComment, s.depth⟩
  | .blockComment => some ⟨if c = '*' then .star else .blockComment, s.depth⟩
  | .star =>
    some ⟨if c = '/' then .code else if c = '*' then .star else .blockComment, s.depth⟩

/-- The state behind some characters, if the lexer reads them all. -/
def read (s : Lexer) (cs : List Char) : Option Lexer := cs.foldlM step s

/-- Whether a text may end here: no parenthesis is open, and no quote or comment. -/
def isEnd (s : Lexer) : Bool := s.depth = 0 && s.region.isCode

end Lexer

open Lexer

/-- **A text is well formed**: its parentheses balance and never close too early, no terminator
stands in it, and it does not end inside quotes or a comment. -/
def WellFormed (sql : String) : Prop := ((code 0).read sql.toList).any Lexer.isEnd = true

instance (sql : String) : Decidable (WellFormed sql) :=
  inferInstanceAs (Decidable (((code 0).read sql.toList).any Lexer.isEnd = true))

/-- **A piece leads from code at one depth to code at another.** -/
def Reads (i : Nat) (s : String) (j : Nat) : Prop := (code i).read s.toList = some (code j)

instance (i : Nat) (s : String) (j : Nat) : Decidable (Reads i s j) :=
  inferInstanceAs (Decidable ((code i).read s.toList = some (code j)))

/-- **A neutral piece**: it is read in code, and leaves the lexer as it was. -/
def Neutral (s : String) : Prop := Reads 0 s 0

instance (s : String) : Decidable (Neutral s) := inferInstanceAs (Decidable (Reads 0 s 0))

/-! ### Piecing texts together -/

namespace Lexer

theorem read_cons (s : Lexer) (c : Char) (cs : List Char) :
    s.read (c :: cs) = (s.step c).bind (·.read cs) := List.foldlM_cons

theorem read_append (s : Lexer) (as bs : List Char) :
    s.read (as ++ bs) = (s.read as).bind (·.read bs) := List.foldlM_append

/-- The state with more parentheses open around it. -/
def within (n : Nat) (s : Lexer) : Lexer := ⟨s.region, s.depth + n⟩

theorem stepCode_within {i : Nat} {c : Char} {t : Lexer} (n : Nat) (h : stepCode i c = some t) :
    stepCode (i + n) c = some (t.within n) := by
  unfold stepCode at h ⊢
  split at h
  · cases h
    simp_all [within, inside]
  · rw [if_neg ‹_›]
    split at h
    case h_2 =>
      split at h
      · cases h
      · cases h
        simp [within, code]
        omega
    all_goals cases h <;> simp [within, code, Nat.add_right_comm]

/-- The lexer goes the same way with more parentheses open. -/
theorem step_within {s t : Lexer} {c : Char} (n : Nat) (h : s.step c = some t) :
    (s.within n).step c = some (t.within n) := by
  obtain ⟨region, depth⟩ := s
  cases region <;> simp only [step, within] at h ⊢
  case code => exact stepCode_within n h
  case dash | slash =>
    split at h
    · cases h
      simp_all
    · rw [if_neg ‹_›]
      exact stepCode_within n h
  case quoted q =>
    cases h
    simp only [code, inside]
    split <;> rfl
  case lineComment | blockComment | star =>
    cases h
    rfl

theorem read_within (n : Nat) : ∀ {cs : List Char} {s t : Lexer}, s.read cs = some t →
    (s.within n).read cs = some (t.within n)
  | [], _, _, rfl => rfl
  | c :: r, s, t, h => by
    rw [read_cons] at h ⊢
    obtain ⟨u, hu, h⟩ := Option.bind_eq_some_iff.mp h
    rw [step_within n hu]
    exact read_within n h

end Lexer

variable {i j k : Nat} {a b s : String}

theorem Reads.within (h : Reads i s j) (n : Nat) : Reads (i + n) s (j + n) := read_within n h

theorem Reads.append (ha : Reads i a j) (hb : Reads j b k) : Reads i (a ++ b) k := by
  rw [Reads, String.toList_append, read_append, ha]
  exact hb

namespace Neutral

/-- A neutral piece may stand at any depth. -/
theorem reads (h : Neutral s) (i : Nat) : Reads i s i := by
  have hi := Reads.within h i
  rwa [Nat.zero_add] at hi

theorem append (ha : Neutral a) (hb : Neutral b) : Neutral (a ++ b) := Reads.append ha hb

theorem wellFormed (h : Neutral s) : WellFormed s := by
  rw [WellFormed, show (code 0).read s.toList = some (code 0) from h]
  rfl

end Neutral

/-- Behind a piece, a neutral one. -/
theorem Reads.then (h : Reads i a j) (hb : Neutral b) : Reads i (a ++ b) j := h.append (hb.reads j)

/-- A neutral piece between one that opens parentheses and one that closes them. -/
theorem Neutral.enclosed {before after : String} (h : Neutral s) (n : Nat)
    (hbefore : Reads 0 before n) (hafter : Reads n after 0) : Neutral (before ++ s ++ after) :=
  (hbefore.then h).append hafter

/-- Two neutral pieces with a comma between them, behind an opening parenthesis. -/
theorem neutral_pair {before : String} (hbefore : Reads 0 before 1) (ha : Neutral a)
    (hb : Neutral b) : Neutral (before ++ a ++ ", " ++ b ++ ")") := by
  have hinner := ((ha.append (by decide : Neutral ", ")).append hb).enclosed 1 hbefore
    (by decide : Reads 1 ")" 0)
  simpa only [String.append_assoc] using hinner

/-- Neutral pieces between neutral separators. -/
theorem neutral_intercalate {separator : String} (hs : Neutral separator) :
    ∀ {pieces : List String}, (∀ p ∈ pieces, Neutral p) → Neutral (separator.intercalate pieces)
  | [], _ => by
    rw [String.intercalate_nil]
    decide
  | [p], h => by
    rw [String.intercalate_singleton]
    exact h p List.mem_cons_self
  | p :: q :: r, h => by
    obtain ⟨hp, hr⟩ := List.forall_mem_cons.mp h
    rw [String.intercalate_cons_cons]
    exact (hp.append hs).append (neutral_intercalate hs hr)

/-- **A text that is well formed by itself** can be put in parentheses. -/
theorem WellFormed.neutral_parens (h : WellFormed s) : Neutral ("(" ++ s ++ ")") := by
  obtain ⟨t, ht, hend⟩ := (Option.any_eq_true _ _).mp h
  have hopen : (code 0).read "(".toList = some (code 1) := by decide
  have hs : (code 1).read s.toList = some (t.within 1) := read_within 1 ht
  have hclose : (t.within 1).read ")".toList = some (code 0) := by
    obtain ⟨region, depth⟩ := t
    cases region <;> simp_all [isEnd, Region.isCode] <;> decide
  rw [Neutral, Reads, String.toList_append, String.toList_append, read_append, read_append, hopen,
    Option.bind_some, hs, Option.bind_some, hclose]

/-! ### Plain characters -/

/-- The characters that mean something in code. -/
def specialChars : List Char := ['(', ')', ';', '-', '/', '\'', '"', '\x60']

/-- Whether a character means nothing in code. -/
def isPlain (c : Char) : Bool := !specialChars.contains c

/-- **A plain text** has only characters that mean nothing in code. -/
def PlainText (s : String) : Prop := s.toList.all isPlain = true

instance (s : String) : Decidable (PlainText s) :=
  inferInstanceAs (Decidable (s.toList.all isPlain = true))

theorem PlainText.isPlain_of_mem {c : Char} (h : PlainText s) (hc : c ∈ s.toList) :
    isPlain c = true := List.all_eq_true.mp h c hc

/-- A class of characters of which none means something in code. -/
theorem isPlain_of {p : Char → Bool} (hp : specialChars.all (! p ·) = true) {c : Char}
    (h : p c = true) : isPlain c = true := by
  cases hc : isPlain c with
  | true => rfl
  | false =>
    have hmem : c ∈ specialChars := by simpa [isPlain] using hc
    have hnot := List.all_eq_true.mp hp c hmem
    rw [h] at hnot
    cases hnot

theorem stepCode_of_isPlain {c : Char} (h : isPlain c = true) (i : Nat) :
    stepCode i c = some (code i) := by
  have hc : c ∉ specialChars := by simpa [isPlain] using h
  unfold stepCode
  split
  · simp_all [quoteChars, specialChars]
  · split <;> simp_all [specialChars]

theorem PlainText.neutral (h : PlainText s) : Neutral s := by
  unfold PlainText at h
  unfold Neutral Reads
  generalize s.toList = cs at h ⊢
  induction cs with
  | nil => rfl
  | cons c r ih =>
    rw [List.all_cons, Bool.and_eq_true] at h
    rw [read_cons, show (code 0).step c = some (code 0) from stepCode_of_isPlain h.1 0]
    exact ih h.2

theorem PlainText.append (ha : PlainText a) (hb : PlainText b) : PlainText (a ++ b) := by
  rw [PlainText, String.toList_append, List.all_append, Bool.and_eq_true]
  exact ⟨ha, hb⟩

/-! ### A minus sign -/

/-- **A piece that a minus sign may stand before**: it begins with a character other than that. -/
def TakesMinus (s : String) : Prop := ∃ c, s.toList.head? = some c ∧ c ≠ '-'

instance (s : String) : Decidable (TakesMinus s) :=
  decidable_of_iff (s.toList.head?.any (· ≠ '-') = true) (by simp [TakesMinus, Option.any_eq_true])

theorem TakesMinus.append (h : TakesMinus a) (b : String) : TakesMinus (a ++ b) := by
  obtain ⟨c, hc, hne⟩ := h
  exact ⟨c, by rw [String.toList_append, List.head?_append, hc, Option.some_or], hne⟩

/-- One minus sign before a piece is no comment. -/
theorem Neutral.minus (h : Neutral s) (hs : TakesMinus s) : Neutral ("-" ++ s) := by
  obtain ⟨c, hc, hne⟩ := hs
  obtain ⟨r, hr⟩ := List.head?_eq_some_iff.mp hc
  have hminus : (code 0).step '-' = some ⟨.dash, 0⟩ := by decide
  have hstep : step ⟨.dash, 0⟩ c = (code 0).step c := if_neg hne
  unfold Neutral Reads at h ⊢
  rw [hr, read_cons] at h
  rw [String.toList_append, hr, show "-".toList ++ c :: r = '-' :: c :: r from rfl, read_cons,
    hminus, Option.bind_some, read_cons, hstep]
  exact h

/-! ### Quoted texts -/

theorem step_inside_of_ne {q c : Char} (h : c ≠ q) (i : Nat) :
    (inside q i).step c = some (inside q i) := congrArg some (if_neg h)

theorem step_inside_self (q : Char) (i : Nat) : (inside q i).step q = some (code i) :=
  congrArg some (if_pos rfl)

theorem step_code_quote {q : Char} (hq : q ∈ quoteChars) (i : Nat) :
    (code i).step q = some (inside q i) := if_pos hq

/-- A text without the quote character stays inside quotes. -/
theorem read_inside {q : Char} (i : Nat) : ∀ {cs : List Char}, q ∉ cs →
    (inside q i).read cs = some (inside q i)
  | [], _ => rfl
  | c :: r, h => by
    rw [List.mem_cons, not_or] at h
    rw [read_cons, step_inside_of_ne (Ne.symm h.1)]
    exact read_inside i h.2

/-- A text without single quotes between two pieces that open and close a string. -/
theorem neutral_string {before after : String}
    (hbefore : (code 0).read before.toList = some (inside '\'' 0)) (hs : '\'' ∉ s.toList)
    (hafter : (inside '\'' 0).read after.toList = some (code 0)) :
    Neutral (before ++ s ++ after) := by
  rw [Neutral, Reads, String.toList_append, String.toList_append, read_append, read_append, hbefore,
    Option.bind_some, read_inside 0 hs]
  exact hafter

/-- How many quote characters a text begins with. -/
def quotesAhead (q : Char) (cs : List Char) : Nat := (cs.takeWhile (· = q)).length

/-- Whether quotes behind a backslash come in pairs: every run of the quote character that begins
right behind a backslash has an even length. -/
def pairsQuotes (q : Char) : List Char → Bool
  | [] => true
  | c :: r => (c ≠ '\\' || quotesAhead q r % 2 = 0) && pairsQuotes q r

theorem pairsQuotes_cons {q c : Char} {r : List Char} :
    pairsQuotes q (c :: r) = true ↔
      (c = '\\' → quotesAhead q r % 2 = 0) ∧ pairsQuotes q r = true := by
  simp only [pairsQuotes, Bool.and_eq_true, Bool.or_eq_true, decide_eq_true_eq, ne_eq,
    Decidable.imp_iff_not_or]

theorem quotesAhead_self (q : Char) (r : List Char) :
    quotesAhead q (q :: r) = quotesAhead q r + 1 := by simp [quotesAhead]

theorem quotesAhead_of_ne {q c : Char} (h : c ≠ q) (r : List Char) :
    quotesAhead q (c :: r) = 0 := by simp [quotesAhead, h]

/-- The state before the content of quotes that goes on with `cs` behind the character `prev`. In a
run behind a backslash, every other quote character stands where the quotes are closed. -/
def insideFrom (q prev : Char) (cs : List Char) : Lexer :=
  if prev = '\\' ∧ quotesAhead q cs % 2 = 1 then code 0 else inside q 0

theorem insideFrom_of_ne {q prev : Char} (h : prev ≠ '\\') (cs : List Char) :
    insideFrom q prev cs = inside q 0 := if_neg fun hp => h hp.1

theorem insideFrom_of_even {q prev : Char} {cs : List Char} (h : quotesAhead q cs % 2 = 0) :
    insideFrom q prev cs = inside q 0 := if_neg fun hp => by omega

/-- A quote character behind a backslash closes the quotes or opens them again. -/
theorem step_insideFrom_self {q : Char} (hq : q ∈ quoteChars) (r : List Char) :
    (insideFrom q '\\' (q :: r)).step q = some (insideFrom q '\\' r) := by
  have hrun := quotesAhead_self q r
  by_cases hr : quotesAhead q r % 2 = 1
  · rw [insideFrom_of_even (by omega), insideFrom, if_pos ⟨rfl, hr⟩]
    exact step_inside_self q 0
  · have hr' : insideFrom q '\\' r = inside q 0 := insideFrom_of_even (by omega)
    rw [hr', insideFrom, if_pos ⟨rfl, by omega⟩]
    exact step_code_quote hq 0

/-- A pair of quote characters inside quotes. -/
theorem read_pair {q : Char} (hq : q ∈ quoteChars) (cs : List Char) :
    (inside q 0).read (q :: q :: cs) = (inside q 0).read cs := by
  rw [read_cons, step_inside_self, Option.bind_some, read_cons, step_code_quote hq,
    Option.bind_some]

theorem ne_backslash_of_mem {q : Char} (hq : q ∈ quoteChars) : q ≠ '\\' := by
  rintro rfl
  revert hq
  decide

/-- **The content of a quoted text stays inside its quotes.** The induction follows the escaping: a
run of quotes behind a backslash is written as it is, and anywhere else the quotes come out in
pairs. -/
theorem read_escapeFrom {q : Char} (hq : q ∈ quoteChars) (prev : Char) (cs : List Char)
    (h : pairsQuotes q cs = true) :
    (insideFrom q prev cs).read (escapeFrom q prev cs) = some (inside q 0) := by
  have hslash := ne_backslash_of_mem hq
  fun_induction escapeFrom q prev cs with
  | case1 prev =>
    rw [insideFrom_of_even rfl]
    rfl
  | case2 prev c hc =>
    obtain ⟨rfl, hprev⟩ := hc
    rw [insideFrom_of_ne hprev, read_pair hq]
    rfl
  | case3 prev c hc =>
    rw [read_cons]
    by_cases hcq : c = q
    · subst hcq
      obtain rfl : prev = '\\' := by simpa using hc
      rw [step_insideFrom_self hq]
      rfl
    · rw [insideFrom_of_even (by rw [quotesAhead_of_ne hcq]), step_inside_of_ne hcq]
      rfl
  | case4 prev c d r hcq ih =>
    obtain ⟨hrun, hr⟩ := pairsQuotes_cons.mp h
    have hinside : insideFrom q c (d :: r) = inside q 0 :=
      if_neg fun hc => by have := hrun hc.1; omega
    rw [hinside] at ih
    rw [insideFrom_of_even (by rw [quotesAhead_of_ne hcq]), read_cons, step_inside_of_ne hcq]
    exact ih hr
  | case5 c d r hcq ih =>
    obtain rfl : c = q := Decidable.not_not.mp hcq
    rw [read_cons, step_insideFrom_self hq]
    exact ih (pairsQuotes_cons.mp h).2
  | case6 prev c r hcq hprev ih =>
    rw [insideFrom_of_ne hslash] at ih
    rw [insideFrom_of_ne hprev, read_pair hq]
    exact ih (pairsQuotes_cons.mp (pairsQuotes_cons.mp h).2).2
  | case7 prev c d r hcq hprev hd ih =>
    rw [insideFrom_of_ne hslash] at ih
    rw [insideFrom_of_ne hprev, read_pair hq]
    exact ih (pairsQuotes_cons.mp h).2

/-- **A quoted text is one neutral piece.** -/
theorem neutral_quoted {q : Char} (hq : q ∈ quoteChars) (h : pairsQuotes q s.toList = true) :
    Neutral (quoted q s) := by
  have hcontent := read_escapeFrom hq '\x00' s.toList h
  rw [insideFrom_of_ne (by decide)] at hcontent
  have hopen : (code 0).read [q] = some (inside q 0) := by
    rw [read_cons, step_code_quote hq]
    rfl
  have hclose : (inside q 0).read [q] = some (code 0) := by
    rw [read_cons, step_inside_self]
    rfl
  simp only [Neutral, Reads, quoted, String.toList_append, String.toList_ofList, read_append,
    Char.toString, String.toList_singleton, hopen, Option.bind_some, hcontent, hclose]

-- One quote behind a backslash stands alone, and what follows the text is read inside quotes.
example : ¬ Neutral (quoted '\'' "\\'") := by decide

end TableQuery.Sql
