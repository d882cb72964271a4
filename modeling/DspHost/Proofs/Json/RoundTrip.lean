import DspHost.Json.Reader
import DspHost.Json.Writer
import Mathlib.Tactic.FinCases
import Mathlib.Tactic.IntervalCases

/-!
# Reading what was written

A document that was written is read back as it was. The reader goes by the first character of what
is left, so a part of a document has to tell where it ends: a text ends with its quote and a
container with its bracket, but a number ends only where something follows that cannot belong to
it. The fuel of the reader is measured in characters, which is enough, since every nested call comes
after a character that was taken off.

## Main definitions

* `Literal.Canonical` — literals that the grammar of the format has
* `Json.Spelled` — documents all of whose parts have a spelling
* `Json.Ends` — texts that can stand behind a value
* `Json.ReadsBack` — documents that are read back as they were written, whatever stands behind them

## Main results

* `Json.readText?_renderText` — texts are read back, in all their characters
* `Json.readNumber?_text` — so are numbers, in all their digits
* `Json.readsBack_of_spelled` — and whole documents
* `Json.parse?_toText` — the text of a document spells the document
-/

namespace DspHost

/-! ### Digits -/

theorem isDigit_digitChar {d : ℕ} (h : d < 10) : (digitChar d).isDigit = true := by
  interval_cases d <;> decide

theorem digitValue_digitChar {d : ℕ} (h : d < 10) : digitValue (digitChar d) = d := by
  interval_cases d <;> decide

/-- Digits are read up to the first character that is none. -/
theorem scanDigits_append {digits : List ℕ} (hdigits : ∀ d ∈ digits, d < 10) {rest : List Char}
    (hrest : ∀ c ∈ rest.head?, c.isDigit = false) :
    scanDigits (digits.map digitChar ++ rest) = (digits, rest) := by
  induction digits with
  | nil =>
    cases rest with
    | nil => rfl
    | cons c rest =>
      have hc : c.isDigit = false := hrest c rfl
      simp [scanDigits, hc]
  | cons d digits ih =>
    obtain ⟨hd, hdigits⟩ := List.forall_mem_cons.mp hdigits
    simp only [List.map_cons, List.cons_append, scanDigits, isDigit_digitChar hd, if_true,
      ih hdigits, digitValue_digitChar hd]

/-- The digits of a number are digits, and the first of them is not a zero that could be left
out. -/
theorem decimalDigitsWithin_spec {fuel n : ℕ} (h : n ≤ fuel) :
    (∀ d ∈ decimalDigitsWithin fuel n, d < 10) ∧
      ∃ d ds, decimalDigitsWithin fuel n = d :: ds ∧ (d = 0 → ds = []) := by
  induction fuel generalizing n with
  | zero =>
    obtain rfl := Nat.le_zero.mp h
    exact ⟨by simp [decimalDigitsWithin], 0, [], rfl, fun _ => rfl⟩
  | succ fuel ih =>
    rw [decimalDigitsWithin]
    split
    · next hsmall => exact ⟨by simpa using hsmall, n, [], rfl, fun _ => rfl⟩
    · next hlarge =>
      obtain ⟨hlow, d, ds, hds, hfirst⟩ := ih (n := n / 10) (by omega)
      refine ⟨?_, d, ds ++ [n % 10], by rw [hds]; rfl, fun hzero => ?_⟩
      · simp only [List.mem_append, List.mem_singleton]
        rintro e (he | rfl)
        · exact hlow e he
        · exact Nat.mod_lt n (by decide)
      · -- A number of two digits or more has no zero in front.
        have hvalue := digitsValue_decimalDigitsWithin fuel (n / 10)
        rw [hds, hzero, hfirst hzero] at hvalue
        have hnone : n / 10 = 0 := hvalue.symm
        omega

/-- A size in text form is below its limit. -/
theorem lt_of_naturalOfText? {limit n : ℕ} {text : List Char}
    (h : naturalOfText? limit text = some n) : n < limit := by
  unfold naturalOfText? at h
  extract_lets digits at h
  split at h
  · dsimp only at h
    split_ifs at h with hlt
    exact Option.some.inj h ▸ hlt
  · cases h

/-! ### Numbers -/

namespace Literal

/-- A literal that the grammar of the format has: there are digits, and no zero that could be left
out in front of them. -/
structure Canonical (l : Literal) : Prop where
  whole : ∀ d ∈ l.whole, d < 10
  first : ∃ d ds, l.whole = d :: ds ∧ (d = 0 → ds = [])
  fraction : ∀ d ∈ l.fraction, d < 10

theorem canonical_ofNat (n : ℕ) : (ofNat n).Canonical := by
  obtain ⟨hdigits, hfirst⟩ := decimalDigitsWithin_spec (le_refl n)
  exact ⟨hdigits, hfirst, fun d hd => (List.not_mem_nil hd).elim⟩

/-- The text of an exponent. -/
def exponentText (exponent : Option Exponent) : List Char :=
  match exponent with
  | none => []
  | some e => 'e' :: ((if e.negative then ['-'] else ['+']) ++
      (decimalDigits e.magnitude).map digitChar)

/-- The text of a literal without its sign. -/
def unsignedText (l : Literal) : List Char :=
  l.whole.map digitChar ++
    ((if l.fraction.isEmpty then [] else '.' :: l.fraction.map digitChar) ++
      exponentText l.exponent)

theorem text_eq (l : Literal) :
    l.text ['+'] = (if l.negative then ['-'] else []) ++ l.unsignedText := by
  obtain ⟨negative, whole, fraction, exponent⟩ := l
  cases exponent <;> simp only [text, unsignedText, exponentText, List.append_assoc]

/-- The text of a literal without its sign begins with a digit. -/
theorem Canonical.exists_unsignedText_eq_cons {l : Literal} (h : l.Canonical) :
    ∃ c cs, l.unsignedText = c :: cs ∧ c ∈ (List.range 10).map digitChar := by
  obtain ⟨d, ds, hwhole, -⟩ := h.first
  have hd : d < 10 := h.whole d (hwhole ▸ List.mem_cons_self)
  rw [unsignedText, hwhole, List.map_cons, List.cons_append]
  exact ⟨_, _, rfl, List.mem_map_of_mem (List.mem_range.mpr hd)⟩

/-- The text of a literal begins with a minus sign or a digit. -/
theorem Canonical.exists_text_eq_cons {l : Literal} (h : l.Canonical) :
    ∃ c cs, l.text ['+'] = c :: cs ∧ c ∈ '-' :: (List.range 10).map digitChar := by
  obtain ⟨c, cs, hcs, hdigit⟩ := h.exists_unsignedText_eq_cons
  rw [text_eq, hcs]
  cases l.negative with
  | false => exact ⟨c, cs, rfl, List.mem_cons_of_mem _ hdigit⟩
  | true => exact ⟨'-', c :: cs, rfl, List.mem_cons_self⟩

/-- The text of an exponent is read back, unless something behind it goes on with it. -/
theorem scanExponent?_exponentText (exponent : Option Exponent) {rest : List Char}
    (hrest : ∀ c ∈ rest.head?, c.isDigit = false ∧ c ≠ 'e' ∧ c ≠ 'E') :
    scanExponent? (exponentText exponent ++ rest) = some (exponent, rest) := by
  cases exponent with
  | none =>
    cases rest with
    | nil => rfl
    | cons c rest =>
      obtain ⟨-, hsmall, hcapital⟩ := hrest c rfl
      simp [exponentText, scanExponent?, hsmall, hcapital]
  | some e =>
    obtain ⟨negative, magnitude⟩ := e
    obtain ⟨hdigits, d, ds, hds, -⟩ := decimalDigitsWithin_spec (le_refl magnitude)
    have hscan := scanDigits_append hdigits fun c hc => (hrest c hc).1
    have hvalue : digitsValue (d :: ds) = magnitude := by
      rw [← hds]
      exact digitsValue_decimalDigits magnitude
    rw [hds] at hscan
    cases negative <;>
      simp only [exponentText, scanExponent?, decimalDigits, hds, hscan, hvalue, List.cons_append,
        List.nil_append, if_true, true_or, Bool.false_eq_true, if_false]

end Literal

namespace Json

/-- A text that can stand behind a value. -/
def Ends (rest : List Char) : Prop := ∀ c ∈ rest.head?, c = ',' ∨ c = ']' ∨ c = '\x7d'

theorem Ends.nil : Ends [] := fun c hc => by cases hc

theorem Ends.cons {c : Char} (h : c = ',' ∨ c = ']' ∨ c = '\x7d') (rest : List Char) :
    Ends (c :: rest) := fun _ hc => Option.some.inj hc ▸ h

/-- What stands behind a value cannot be a part of a number. -/
theorem Ends.not_number {rest : List Char} (h : Ends rest) :
    ∀ c ∈ rest.head?, c.isDigit = false ∧ c ≠ '.' ∧ c ≠ 'e' ∧ c ≠ 'E' := by
  intro c hc
  rcases h c hc with rfl | rfl | rfl <;> decide

variable {l : Literal} {rest : List Char}

/-- The digits of a number are read back, with the point and the exponent among them. -/
theorem readUnsigned?_unsignedText (h : l.Canonical) (negative : Bool) (hrest : Ends rest) :
    readUnsigned? negative (l.unsignedText ++ rest) = some ({ l with negative }, rest) := by
  obtain ⟨sign, whole, fraction, exponent⟩ := l
  obtain ⟨hwhole, ⟨d, ds, rfl, hfirst⟩, hfraction⟩ := h
  dsimp only at hwhole hfraction
  -- The reader refuses a zero in front of other digits.
  have hleading : ¬ (1 < (d :: ds).length ∧ (d :: ds).head? = some 0) := by
    rintro ⟨hlong, hzero⟩
    rw [hfirst (Option.some.inj hzero)] at hlong
    exact lt_irrefl 1 hlong
  have hexponent := Literal.scanExponent?_exponentText exponent fun c hc =>
    ⟨(hrest.not_number c hc).1, (hrest.not_number c hc).2.2⟩
  -- What follows the digits is no digit and, without a fraction, no point.
  have hstops : ∀ c ∈ (Literal.exponentText exponent ++ rest).head?,
      c.isDigit = false ∧ c ≠ '.' := by
    cases exponent with
    | none => exact fun c hc => ⟨(hrest.not_number c hc).1, (hrest.not_number c hc).2.1⟩
    | some e => exact fun c hc => by cases hc; decide
  simp only [Literal.unsignedText, List.append_assoc]
  generalize Literal.exponentText exponent ++ rest = behind at *
  cases fraction with
  | nil =>
    have hscan := scanDigits_append hwhole fun c hc => (hstops c hc).1
    simp only [List.isEmpty_nil, if_true, List.nil_append, readUnsigned?, hscan, List.isEmpty_cons,
      Bool.false_eq_true, false_or, if_neg hleading]
    split
    · next heq =>
      -- There is no point, so this is not the way the reader takes.
      split at heq
      · exact absurd rfl (hstops '.' rfl).2
      · cases heq
    · next heq =>
      split at heq
      · exact absurd rfl (hstops '.' rfl).2
      · cases heq
        rw [hexponent]
  | cons f fs =>
    have hpoint : ∀ c ∈ ('.' :: ((f :: fs).map digitChar ++ behind)).head?, c.isDigit = false :=
      fun c hc => by cases hc; decide
    have hscan := scanDigits_append hwhole hpoint
    have hscanned := scanDigits_append hfraction fun c hc => (hstops c hc).1
    simp only [List.isEmpty_cons, Bool.false_eq_true, if_false, List.cons_append, readUnsigned?,
      hscan, false_or, if_neg hleading, hscanned, hexponent]

/-- A number is read back, unless something behind it goes on with it. -/
theorem readNumber?_text (h : l.Canonical) (hrest : Ends rest) :
    readNumber? (l.text ['+'] ++ rest) = some (l, rest) := by
  have hread := readUnsigned?_unsignedText h l.negative hrest
  obtain ⟨c, cs, hcs, hdigit⟩ := h.exists_unsignedText_eq_cons
  have hminus : c ≠ '-' := by
    rintro rfl
    exact absurd hdigit (by decide)
  obtain ⟨negative, whole, fraction, exponent⟩ := l
  rw [Literal.text_eq, List.append_assoc]
  cases negative with
  | true => exact hread
  | false =>
    rw [hcs] at hread ⊢
    change readNumber? (c :: cs ++ rest) = _
    unfold readNumber?
    split
    · next heq => exact (hminus (List.cons.inj heq).1).elim
    · exact hread

/-! ### Texts -/

/-- The number in an escape is read back. -/
theorem codeUnit?_hexText {n : ℕ} (h : n < 0x20) :
    ∃ a b c d, hexText 4 n = [a, b, c, d] ∧ codeUnit? a b c d = some n := by
  interval_cases n <;> exact ⟨_, _, _, _, rfl, by decide⟩

/-- What stands for a character is read as that character. -/
theorem readTextFrom?_escapedChar (g : Gathered) (c : Char) (rest : List Char) :
    readTextFrom? g (escapedChar c ++ rest) = readTextFrom? (g.push c) rest := by
  unfold escapedChar
  split_ifs with hquote hslash hb hf hn hr ht hcontrol
  any_goals
    subst c
    rfl
  · -- A control is no surrogate, so its code unit is a character by itself.
    obtain ⟨x, y, z, w, htext, hunit⟩ := codeUnit?_hexText hcontrol
    have hpush : g.pushUnit c.toNat = g.push c := by
      unfold Gathered.pushUnit
      rw [if_neg (by omega), if_neg (by omega), Char.ofNat_toNat]
    rw [htext, ← hpush]
    simp only [List.cons_append, List.nil_append, readTextFrom?, hunit]
  · have hself : readTextFrom? g (c :: rest) =
        if c.toNat < 0x20 then none else readTextFrom? (g.push c) rest := by
      rw [readTextFrom?]
      · exact hquote
      · exact fun _ _ _ _ _ h => (hslash h).elim
      · exact fun _ _ h => (hslash h).elim
    exact hself.trans (if_neg hcontrol)

/-- A text is read back, in all its characters, up to the quote behind it. -/
theorem readTextFrom?_flatMap_escapedChar (g : Gathered) (text rest : List Char) :
    readTextFrom? g (text.flatMap escapedChar ++ '"' :: rest) =
      some ((text.foldl Gathered.push g).finish, rest) := by
  induction text generalizing g with
  | nil => rfl
  | cons c text ih =>
    rw [List.flatMap_cons, List.append_assoc, readTextFrom?_escapedChar, ih, List.foldl_cons]

/-- Characters that come one by one are gathered in their order. -/
theorem Gathered.foldl_push (text characters : List Char) :
    text.foldl push ⟨characters, none, true⟩ = ⟨text.reverse ++ characters, none, true⟩ := by
  induction text generalizing characters with
  | nil => rfl
  | cons c text ih =>
    rw [List.foldl_cons, List.reverse_cons, List.append_assoc]
    exact ih (c :: characters)

/-- A text between quotes is read back. -/
theorem readText?_renderText (text rest : List Char) :
    ∃ quoted, renderText text ++ rest = '"' :: quoted ∧
      readText? quoted = some (some (String.ofList text), rest) := by
  refine ⟨text.flatMap escapedChar ++ '"' :: rest, ?_, ?_⟩
  · rw [renderText, List.cons_append, List.append_assoc]
    rfl
  · rw [readText?, readTextFrom?_flatMap_escapedChar, Gathered.empty, Gathered.foldl_push,
      List.append_nil, Gathered.finish, List.reverse_reverse]
    rfl

/-! ### Documents -/

/-- A document all of whose parts have a spelling: its texts have characters, and its numbers are
those of the format. -/
inductive Spelled : Json → Prop where
  | null : Spelled .null
  | bool (value : Bool) : Spelled (.bool value)
  | number {l : Literal} (h : l.Canonical) : Spelled (.number l)
  | string (text : String) : Spelled (.string (some text))
  | array {items : List Json} (h : ∀ item ∈ items, Spelled item) : Spelled (.array items)
  | object {members : List (Option String × Json)} (names : ∀ m ∈ members, m.1.isSome)
    (values : ∀ m ∈ members, Spelled m.2) : Spelled (.object members)

/-- A record is spelled if its fields are. -/
theorem spelled_ofMembers {members : List (String × Json)} (h : ∀ m ∈ members, m.2.Spelled) :
    (ofMembers members).Spelled := by
  refine .object (fun m hm => ?_) (fun m hm => ?_)
  all_goals obtain ⟨field, hfield, rfl⟩ := List.mem_map.mp hm
  · rfl
  · exact h field hfield

/-- The document is read back as it was written, whatever stands behind it, with fuel for each of
its characters. -/
def ReadsBack (d : Json) : Prop :=
  ∀ fuel rest, d.render.length ≤ fuel → Ends rest →
    readValue? fuel (d.render ++ rest) = some (d, rest)

theorem skipSpace_cons {c : Char} (h : isSpace c = false) (text : List Char) :
    skipSpace (c :: text) = c :: text := by
  rw [skipSpace, List.dropWhile_cons, h]
  rfl

/-- A document begins with a character that opens it. -/
theorem Spelled.exists_render_eq_cons {d : Json} (h : d.Spelled) :
    ∃ c cs, d.render = c :: cs ∧ isSpace c = false ∧ c ≠ ']' := by
  cases h with
  | null => exact ⟨_, _, by rw [render], by decide⟩
  | bool value => cases value <;> exact ⟨_, _, by rw [render], by decide⟩
  | number h =>
    obtain ⟨c, cs, hcs, hc⟩ := h.exists_text_eq_cons
    refine ⟨c, cs, by rw [render, hcs], ?_⟩
    fin_cases hc <;> decide
  | string text => exact ⟨_, _, by rw [render, renderText], by decide⟩
  | array h => exact ⟨_, _, by rw [render], by decide⟩
  | object h => exact ⟨_, _, by rw [render], by decide⟩

/-- What begins with a minus sign or a digit is read as a number. -/
theorem readValue?_number (fuel : ℕ) {c : Char} (hc : c ∈ '-' :: (List.range 10).map digitChar)
    (text : List Char) :
    readValue? (fuel + 1) (c :: text) =
      (readNumber? (c :: text)).map fun (literal, after) => (.number literal, after) := by
  fin_cases hc <;> rfl

theorem readsBack_number {l : Literal} (h : l.Canonical) : ReadsBack (.number l) := by
  intro fuel rest hfuel hrest
  have hread := readNumber?_text h hrest
  obtain ⟨c, cs, hcs, hc⟩ := h.exists_text_eq_cons
  rw [render, hcs] at hfuel ⊢
  rw [hcs, List.cons_append] at hread
  obtain ⟨fuel, rfl⟩ : ∃ k, fuel = k + 1 := Nat.exists_eq_succ_of_ne_zero (by simp at hfuel; omega)
  rw [List.cons_append, readValue?_number fuel hc, hread]
  rfl

/-- Items are read back one by one: each call has the fuel of the text behind the item before. -/
theorem readItems?_renderItems {items : List Json} (hitems : ∀ item ∈ items, item.ReadsBack)
    (hne : items ≠ []) (fuel : ℕ) (rest : List Char) (hfuel : (renderItems items).length ≤ fuel) :
    readItems? fuel (renderItems items ++ rest) = some (items, rest) := by
  induction items generalizing fuel with
  | nil => exact (hne rfl).elim
  | cons item items ih =>
    obtain ⟨hitem, hitems⟩ := List.forall_mem_cons.mp hitems
    cases items with
    | nil =>
      simp only [renderItems, List.length_append, List.length_singleton] at hfuel
      obtain ⟨fuel, rfl⟩ : ∃ k, fuel = k + 1 := ⟨fuel - 1, by omega⟩
      have hread := hitem fuel (']' :: rest) (by omega) (.cons (by decide) rest)
      rw [renderItems, List.append_assoc, List.singleton_append, readItems?, hread]
      rfl
    | cons next items =>
      simp only [renderItems, List.length_append, List.length_cons] at hfuel
      obtain ⟨fuel, rfl⟩ : ∃ k, fuel = k + 1 := ⟨fuel - 1, by omega⟩
      have hread := hitem fuel (',' :: (renderItems (next :: items) ++ rest)) (by omega)
        (.cons (by decide) _)
      have hmore := ih hitems (List.cons_ne_nil next items) fuel (by omega)
      rw [renderItems, List.append_assoc, List.cons_append, readItems?, hread]
      · change (readItems? fuel (renderItems (next :: items) ++ rest)).map _ = _
        rw [hmore]
        rfl
      · exact List.cons_ne_nil next items

/-- What is read of an object behind the value of a member. -/
def readBehind? (fuel : ℕ) (member : Option String × Json) (text : List Char) :
    Option (List (Option String × Json) × List Char) :=
  match skipSpace text with
  | '\x7d' :: rest => some ([member], rest)
  | ',' :: rest => (readMembers? fuel rest).map fun (members, after) => (member :: members, after)
  | _ => none

/-- The first member of an object is read up to what stands behind its value. -/
theorem readMembers?_member (name : String) {value : Json} (hvalue : value.ReadsBack) {fuel : ℕ}
    (hfuel : value.render.length ≤ fuel) {rest : List Char} (hrest : Ends rest) :
    readMembers? (fuel + 1) (renderText name.toList ++ ':' :: (value.render ++ rest)) =
      readBehind? fuel (some name, value) rest := by
  obtain ⟨quoted, hquoted, hname⟩ :=
    readText?_renderText name.toList (':' :: (value.render ++ rest))
  rw [hquoted, readMembers?, skipSpace_cons (by decide)]
  simp only [hname, skipSpace_cons (show isSpace ':' = false by decide), String.ofList_toList,
    hvalue fuel rest hfuel hrest]
  rfl

/-- Members are read back one by one. -/
theorem readMembers?_renderMembers {members : List (Option String × Json)}
    (hnames : ∀ m ∈ members, m.1.isSome) (hvalues : ∀ m ∈ members, m.2.ReadsBack)
    (hne : members ≠ []) (fuel : ℕ) (rest : List Char)
    (hfuel : (renderMembers members).length ≤ fuel) :
    readMembers? fuel (renderMembers members ++ rest) = some (members, rest) := by
  induction members generalizing fuel with
  | nil => exact (hne rfl).elim
  | cons m members ih =>
    obtain ⟨name, value⟩ := m
    simp only [List.forall_mem_cons] at hnames hvalues
    obtain ⟨hname, hnames⟩ := hnames
    obtain ⟨hvalue, hvalues⟩ := hvalues
    obtain ⟨name, rfl⟩ := Option.isSome_iff_exists.mp hname
    cases members with
    | nil =>
      simp only [renderMembers, List.length_append, List.length_cons, List.length_nil] at hfuel
      obtain ⟨fuel, rfl⟩ : ∃ k, fuel = k + 1 := ⟨fuel - 1, by omega⟩
      simp only [renderMembers, Option.getD_some, List.append_assoc, List.cons_append,
        List.nil_append]
      exact readMembers?_member name hvalue (by omega) (.cons (by decide) rest)
    | cons next members =>
      simp only [renderMembers, List.length_append, List.length_cons] at hfuel
      obtain ⟨fuel, rfl⟩ : ∃ k, fuel = k + 1 := ⟨fuel - 1, by omega⟩
      have hmore := ih hnames hvalues (List.cons_ne_nil next members) fuel (by omega)
      rw [renderMembers, Option.getD_some]
      · simp only [List.append_assoc, List.cons_append]
        rw [readMembers?_member name hvalue (by omega) (.cons (by decide) _)]
        change (readMembers? fuel (renderMembers (next :: members) ++ rest)).map _ = _
        rw [hmore]
        rfl
      · exact List.cons_ne_nil next members

/-- An array is read back if its items are. -/
theorem readsBack_array {items : List Json} (h : ∀ item ∈ items, item.Spelled)
    (hitems : ∀ item ∈ items, item.ReadsBack) : ReadsBack (.array items) := by
  intro fuel rest hfuel _
  rw [render, List.length_cons] at hfuel
  obtain ⟨fuel, rfl⟩ : ∃ k, fuel = k + 1 := ⟨fuel - 1, by omega⟩
  rw [render, List.cons_append, readValue?, skipSpace_cons (by decide)]
  cases items with
  | nil => rfl
  | cons item items =>
    have hread := readItems?_renderItems hitems (List.cons_ne_nil item items) fuel rest (by omega)
    -- The first item does not begin with the bracket that would close an empty array.
    obtain ⟨c, cs, hcs, hspace, hopen⟩ := (h item List.mem_cons_self).exists_render_eq_cons
    obtain ⟨others, hothers⟩ : ∃ others, renderItems (item :: items) ++ rest = c :: others := by
      cases items <;> simp [renderItems, hcs]
    simp only [hothers, skipSpace_cons hspace] at hread ⊢
    split
    · next heq => exact (hopen (List.cons.inj heq).1).elim
    · rw [hread]
      rfl

/-- An object is read back if its members are named and their values are read back. -/
theorem readsBack_object {members : List (Option String × Json)}
    (hnames : ∀ m ∈ members, m.1.isSome) (hvalues : ∀ m ∈ members, m.2.ReadsBack) :
    ReadsBack (.object members) := by
  intro fuel rest hfuel _
  rw [render, List.length_cons] at hfuel
  obtain ⟨fuel, rfl⟩ : ∃ k, fuel = k + 1 := ⟨fuel - 1, by omega⟩
  rw [render, List.cons_append, readValue?, skipSpace_cons (by decide)]
  cases members with
  | nil => rfl
  | cons m members =>
    have hread := readMembers?_renderMembers hnames hvalues (List.cons_ne_nil m members) fuel rest
      (by omega)
    obtain ⟨others, hothers⟩ : ∃ others, renderMembers (m :: members) ++ rest = '"' :: others := by
      cases members <;> simp [renderMembers, renderText]
    rw [hothers] at hread
    simp only [hothers, skipSpace_cons (show isSpace '"' = false by decide)]
    change (readMembers? fuel ('"' :: others)).map _ = _
    rw [hread]
    rfl

/-- Every spelled document is read back, by induction on the document. -/
theorem readsBack_of_spelled {d : Json} (h : d.Spelled) : d.ReadsBack := by
  induction h with
  | number h => exact readsBack_number h
  | array h ih => exact readsBack_array h ih
  | object names _ ih => exact readsBack_object names ih
  | null =>
    intro fuel rest hfuel _
    obtain ⟨fuel, rfl⟩ : ∃ k, fuel = k + 1 := ⟨fuel - 1, by simp [render] at hfuel; omega⟩
    rfl
  | bool value =>
    intro fuel rest hfuel _
    obtain ⟨fuel, rfl⟩ : ∃ k, fuel = k + 1 :=
      ⟨fuel - 1, by cases value <;> simp [render] at hfuel <;> omega⟩
    cases value <;> rfl
  | string text =>
    intro fuel rest hfuel _
    obtain ⟨fuel, rfl⟩ : ∃ k, fuel = k + 1 :=
      ⟨fuel - 1, by simp [render, renderText] at hfuel; omega⟩
    obtain ⟨quoted, hquoted, hread⟩ := readText?_renderText text.toList rest
    rw [render, Option.getD_some, hquoted, readValue?, skipSpace_cons (by decide)]
    simp only [hread, String.ofList_toList]
    rfl

/-- The text of a document spells the document. -/
theorem parse?_toText {d : Json} (h : d.Spelled) : parse? d.toText = some d := by
  have hread := readsBack_of_spelled h (d.render.length + 1) [] (Nat.le_succ _) .nil
  rw [List.append_nil] at hread
  rw [parse?, toText, String.toList_ofList, hread]
  rfl

end Json

end DspHost
