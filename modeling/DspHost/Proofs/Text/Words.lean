import DspHost.Proofs.Json.RoundTrip
import DspHost.Text.Blank

/-!
# Words and numerals

A text that is split at its blanks is put together from its words, with blanks in front of each of
them, behind the last one, and nowhere inside. There is one way to take a text apart like that, and
it is the one that the splitter finds. A word is read as a number exactly if it consists of decimal
digits, but for one plus sign that may stand in front of them.

## Main definitions

* `SplitsInto` — a text and its words
* `Numeral` — a word of decimal digits and its number

## Main results

* `splitsInto_iff` — the words of a text are those that the splitter finds
* `naturalOfText?_eq_some_iff` — which words are read as numbers
-/

namespace DspHost

/-! ### Words -/

/-- The words of a text: runs of characters that are not blank, with blanks between them. -/
inductive SplitsInto : List Char → List (List Char) → Prop where
  /-- Blanks make no word. -/
  | blank {gap : List Char} (hgap : ∀ c ∈ gap, isBlank c = true) : SplitsInto gap []
  /-- A word ends where the text ends or where a blank follows. -/
  | word {gap word rest : List Char} {others : List (List Char)}
      (hgap : ∀ c ∈ gap, isBlank c = true) (hne : word ≠ [])
      (hword : ∀ c ∈ word, isBlank c = false) (hend : ∀ c ∈ rest.head?, isBlank c = true)
      (hrest : SplitsInto rest others) : SplitsInto (gap ++ (word ++ rest)) (word :: others)

theorem wordsFrom_gap {gap : List Char} (h : ∀ c ∈ gap, isBlank c = true) (rest : List Char) :
    wordsFrom [] (gap ++ rest) = wordsFrom [] rest := by
  induction gap with
  | nil => rfl
  | cons c gap ih =>
    obtain ⟨hc, hgap⟩ := List.forall_mem_cons.mp h
    rw [List.cons_append, wordsFrom, if_pos hc]
    exact ih hgap

theorem wordsFrom_word {word : List Char} (h : ∀ c ∈ word, isBlank c = false)
    (front rest : List Char) :
    wordsFrom front (word ++ rest) = wordsFrom (word.reverse ++ front) rest := by
  induction word generalizing front with
  | nil => rfl
  | cons c word ih =>
    obtain ⟨hc, hword⟩ := List.forall_mem_cons.mp h
    rw [List.cons_append, wordsFrom, if_neg (by simp [hc]), ih hword, List.reverse_cons,
      List.append_assoc, List.singleton_append]

/-- A word ends with the text or in front of a blank. -/
theorem wordsFrom_of_end {front rest : List Char} (hne : front ≠ [])
    (hend : ∀ c ∈ rest.head?, isBlank c = true) :
    wordsFrom front rest = front.reverse :: wordsFrom [] rest := by
  cases rest with
  | nil => simp [wordsFrom, hne]
  | cons c rest =>
    have hc : isBlank c = true := hend c rfl
    simp [wordsFrom, hc, hne]

/-- The splitter finds the words of a text. -/
theorem SplitsInto.words_eq {text : List Char} {others : List (List Char)}
    (h : SplitsInto text others) : words text = others := by
  unfold words
  induction h with
  | blank hgap =>
    have hnone := wordsFrom_gap hgap []
    rwa [List.append_nil] at hnone
  | word hgap hne hword hend hrest ih =>
    rw [wordsFrom_gap hgap, wordsFrom_word hword, List.append_nil,
      wordsFrom_of_end (by simpa using hne) hend, List.reverse_reverse, ih]

/-- Every text has words. -/
theorem exists_splitsInto (text : List Char) : ∃ others, SplitsInto text others := by
  -- What is left behind the first word is shorter, unless there is no word at all.
  induction hlength : text.length using Nat.strong_induction_on generalizing text with
  | h n ih =>
    have htext := List.takeWhile_append_dropWhile (p := isBlank) (l := text)
    have hgap : ∀ c ∈ text.takeWhile isBlank, isBlank c = true :=
      List.all_eq_true.mp List.all_takeWhile
    have hfirst : ∀ c ∈ (text.dropWhile isBlank).head?, isBlank c = false := fun c hc => by
      have hnot := List.head?_dropWhile_not isBlank text
      rw [hc] at hnot
      exact Bool.eq_false_of_not_eq_true (by simpa using hnot)
    generalize text.takeWhile isBlank = gap at htext hgap
    generalize text.dropWhile isBlank = behind at htext hfirst
    subst htext
    cases behind with
    | nil =>
      rw [List.append_nil]
      exact ⟨[], .blank hgap⟩
    | cons c behind =>
      have hc : isBlank c = false := hfirst c rfl
      have hbehind := List.takeWhile_append_dropWhile (p := fun c => !isBlank c) (l := behind)
      have hword : ∀ c ∈ behind.takeWhile fun c => !isBlank c, isBlank c = false := fun c hc =>
        (Bool.not_eq_true' _).mp (List.all_eq_true.mp List.all_takeWhile c hc)
      have hend : ∀ c ∈ (behind.dropWhile fun c => !isBlank c).head?, isBlank c = true :=
        fun c hc => by
          have hnot := List.head?_dropWhile_not (fun c => !isBlank c) behind
          rw [hc] at hnot
          simpa using hnot
      generalize (behind.takeWhile fun c => !isBlank c) = word at hbehind hword
      generalize (behind.dropWhile fun c => !isBlank c) = rest at hbehind hend
      subst hbehind
      obtain ⟨others, hrest⟩ := ih rest.length (by simp at hlength; omega) rest rfl
      exact ⟨(c :: word) :: others, .word hgap (List.cons_ne_nil c word)
        (List.forall_mem_cons.mpr ⟨hc, hword⟩) hend hrest⟩

/-- The words of a text are those that the splitter finds. -/
theorem splitsInto_iff {text : List Char} {others : List (List Char)} :
    SplitsInto text others ↔ words text = others := by
  refine ⟨SplitsInto.words_eq, ?_⟩
  rintro rfl
  obtain ⟨others, h⟩ := exists_splitsInto text
  exact h.words_eq ▸ h

/-! ### Numerals -/

/-- A word of decimal digits spells a number, most significant digit first. Zeros in front do not
matter. -/
def Numeral (word : List Char) (n : ℕ) : Prop :=
  ∃ digits : List ℕ, digits ≠ [] ∧ (∀ d ∈ digits, d < 10) ∧ word = digits.map digitChar ∧
    digitsValue digits = n

theorem exists_digit {c : Char} (h : c.isDigit = true) : ∃ d < 10, c = digitChar d := by
  simp only [Char.isDigit, Bool.and_eq_true, decide_eq_true_eq, ge_iff_le] at h
  obtain ⟨hlow, hhigh⟩ := h
  have hlow' : 48 ≤ c.toNat := hlow
  have hhigh' : c.toNat ≤ 57 := hhigh
  refine ⟨c.toNat - 48, by omega, ?_⟩
  have hcode : '0'.toNat + (c.toNat - 48) = c.toNat := by
    change 48 + (c.toNat - 48) = c.toNat
    omega
  rw [digitChar, hcode, Char.ofNat_toNat]

/-- What is read in front of the rest of a text are digits. -/
theorem scanDigits_spec (text : List Char) :
    (∀ d ∈ (scanDigits text).1, d < 10) ∧
      text = (scanDigits text).1.map digitChar ++ (scanDigits text).2 := by
  induction text with
  | nil => exact ⟨fun _ h => absurd h List.not_mem_nil, rfl⟩
  | cons c rest ih =>
    obtain ⟨hdigits, htext⟩ := ih
    by_cases hc : c.isDigit = true
    · obtain ⟨d, hd, rfl⟩ := exists_digit hc
      simp only [scanDigits, if_pos hc, digitValue_digitChar hd, List.map_cons, List.cons_append,
        ← htext]
      exact ⟨List.forall_mem_cons.mpr ⟨hd, hdigits⟩, trivial⟩
    · simp only [scanDigits, if_neg hc]
      exact ⟨fun _ h => absurd h List.not_mem_nil, rfl⟩

theorem scanDigits_eq_iff {text : List Char} {digits : List ℕ} :
    scanDigits text = (digits, []) ↔ (∀ d ∈ digits, d < 10) ∧ text = digits.map digitChar := by
  constructor
  · intro h
    have hspec := scanDigits_spec text
    rwa [h, List.append_nil] at hspec
  · rintro ⟨hdigits, rfl⟩
    have hend : ∀ c ∈ ([] : List Char).head?, c.isDigit = false := by simp
    have hscan := scanDigits_append hdigits hend
    rwa [List.append_nil] at hscan

/-- A word without a sign is read as a number exactly if it spells one below the limit. -/
theorem numeral_iff {limit n : ℕ} {word : List Char} :
    (match scanDigits word with
      | (d :: ds, []) =>
        if digitsValue (d :: ds) < limit then some (digitsValue (d :: ds)) else none
      | _ => none) = some n ↔ Numeral word n ∧ n < limit := by
  constructor
  · intro h
    split at h
    · next d ds hscan =>
      obtain ⟨hdigits, hword⟩ := scanDigits_eq_iff.mp hscan
      split_ifs at h with hlimit
      obtain rfl := Option.some.inj h
      exact ⟨⟨d :: ds, List.cons_ne_nil d ds, hdigits, hword, rfl⟩, hlimit⟩
    · cases h
  · rintro ⟨⟨digits, hne, hdigits, hword, rfl⟩, hlimit⟩
    obtain ⟨d, ds, rfl⟩ := List.exists_cons_of_ne_nil hne
    rw [scanDigits_eq_iff.mpr ⟨hdigits, hword⟩]
    exact if_pos hlimit

/-- A numeral does not begin with a plus sign. -/
theorem not_numeral_plus {word : List Char} {n : ℕ} : ¬Numeral ('+' :: word) n := by
  rintro ⟨digits, -, hdigits, hword, -⟩
  cases digits with
  | nil => cases hword
  | cons d digits =>
    have hplus : '+' = digitChar d := (List.cons.inj hword).1
    have hdigit := isDigit_digitChar (hdigits d List.mem_cons_self)
    rw [← hplus] at hdigit
    exact absurd hdigit (by decide)

/-- Which words are read as numbers: numerals, and numerals behind a plus sign. -/
theorem naturalOfText?_eq_some_iff {limit n : ℕ} {word : List Char} :
    naturalOfText? limit word = some n ↔
      (Numeral word n ∨ ∃ unsigned, word = '+' :: unsigned ∧ Numeral unsigned n) ∧ n < limit := by
  unfold naturalOfText?
  split
  · next unsigned =>
    refine numeral_iff.trans (and_congr_left' ?_)
    simp only [not_numeral_plus, false_or, List.cons.injEq, true_and, exists_eq_left']
  · next hplus =>
    have hnone : ¬∃ unsigned, word = '+' :: unsigned ∧ Numeral unsigned n :=
      fun ⟨unsigned, hword, _⟩ => hplus unsigned hword
    exact numeral_iff.trans (and_congr_left' (or_iff_left hnone).symm)

example : Numeral "007".toList 7 := ⟨[0, 0, 7], by decide, by decide, by decide, by decide⟩

end DspHost
