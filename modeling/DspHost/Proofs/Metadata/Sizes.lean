import DspHost.Metadata.Document
import DspHost.Proofs.Json.Fields
import DspHost.Proofs.Json.Numerals

/-!
# The two spellings of a size

A size is written as a number or as a text with its digits. The text is read as it stands, and
refused if the number is no word. The number goes through double precision: it is rounded to 53 bits
on the way, what comes out as the first number behind the words is cut to the greatest word, and
what comes out above that is refused. So the two spellings agree on the numbers that have 53 bits or
fewer, zeros at the end not counted, on the greatest word, and on numbers that both refuse.

## Main definitions

* `Json.greatestSize` — the greatest number that is not refused
* `KeepsSize` — records that have a field as it is read, and are refused with it
* `ModuleMetadata.bareDocument` — a document with nothing but a size

## Main results

* `Json.lenientSize?_text`, `Json.lenientSize?_ofNat` — what the two spellings are read as
* `Json.lenientSize?_eq_iff` — when they are read alike
* `ModuleMetadata.spellings_of_sizes` — the same for the fields that hold sizes
-/

namespace DspHost

/-! ### Digits as a text -/

theorem isBlank_digitChar {d : ℕ} (h : d < 10) : isBlank (digitChar d) = false := by
  interval_cases d <;> decide

/-- A text without blanks is not trimmed. -/
theorem trimBlank_eq_self {text : List Char} (h : ∀ c ∈ text, isBlank c = false) :
    trimBlank text = text := by
  have hkept : ∀ t : List Char, (∀ c ∈ t, isBlank c = false) → t.dropWhile isBlank = t := by
    intro t ht
    cases t with
    | nil => rfl
    | cons c t => rw [List.dropWhile_cons_of_neg (by simp [ht c List.mem_cons_self])]
  rw [trimBlank, hkept text h, hkept _ fun c hc => h c (List.mem_reverse.mp hc),
    List.reverse_reverse]

/-- The digits of a number are read as the number, if it is below the limit. -/
theorem naturalOfText?_digits (limit n : ℕ) :
    naturalOfText? limit ((decimalDigits n).map digitChar) = if n < limit then some n else none := by
  obtain ⟨hdigits, d, ds, hds, -⟩ := decimalDigitsWithin_spec (le_refl n)
  have hvalue := digitsValue_decimalDigits n
  have hscan : scanDigits ((decimalDigits n).map digitChar ++ []) = (decimalDigits n, []) :=
    scanDigits_append hdigits (by simp)
  change decimalDigits n = d :: ds at hds
  rw [List.append_nil, hds] at hscan
  rw [hds] at hvalue ⊢
  have hplus : digitChar d ≠ '+' := by
    have hd : d < 10 := hdigits d (by rw [← decimalDigits, hds]; exact List.mem_cons_self)
    interval_cases d <;> decide
  rw [naturalOfText?]
  · simp only [hscan, hvalue]
  · exact fun rest h => hplus (List.cons.inj h).1

namespace Json

variable {n : ℕ}

/-- The text of a number has its digits. -/
theorem toText_ofNat (n : ℕ) :
    (ofNat n).toText = String.ofList ((decimalDigits n).map digitChar) := by
  simp [toText, ofNat, render, Literal.text, Literal.ofNat]

/-- The digits between quotes are read as they stand. -/
theorem lenientSize?_text (n : ℕ) :
    (ofString (ofNat n).toText).lenientSize? = if n < wordLimit then some n else none := by
  have hblank : ∀ c ∈ (decimalDigits n).map digitChar, isBlank c = false := by
    intro c hc
    obtain ⟨d, hd, rfl⟩ := List.mem_map.mp hc
    exact isBlank_digitChar ((decimalDigitsWithin_spec (le_refl n)).1 d hd)
  rw [toText_ofNat, ofString, lenientSize?, String.toList_ofList, trimBlank_eq_self hblank,
    naturalOfText?_digits]

/-! ### The number itself -/

/-- The greatest number that is read as a size. -/
def greatestSize : ℕ := wordLimit + 2313

/-- A literal that stands for a positive double is read as its whole part, if it has no other. -/
theorem lenientSize?_real {l : Literal} {s : Scaled} (h : l.numeral? = some (.real false s)) :
    (number l).lenientSize? =
      if s.isWhole ∧ s.floor ≤ wordLimit then some (min s.floor (wordLimit - 1)) else none := by
  simp [lenientSize?, h, Numeral.double]

/-- A word is rounded to the nearest double, or to the greatest word. -/
theorem lenientSize?_ofNat_of_lt (hn : n < wordLimit) :
    (ofNat n).lenientSize? = some (min (Format.double.rounded n) (wordLimit - 1)) := by
  have hnumeral : (Literal.ofNat n).numeral? = some (.natural n) := by
    simp [Literal.numeral?, Literal.ofNat, Literal.isInteger, hn]
  have hword : Format.double.ofNat wordLimit < Format.double.infinity := by decide +kernel
  have hfinite : Format.double.ofNat n < Format.double.infinity :=
    (Format.ofNat_mono (by decide) hn.le).trans_lt hword
  obtain ⟨k, hk, -⟩ := Format.double.exists_fits_value_ofNat (by decide) (by decide) hfinite
  have hwhole : (Format.double.decode (Format.double.ofNat n)).isWhole = true :=
    (Scaled.isWhole_iff _).mpr ⟨k, hk⟩
  have hrounded : Format.double.rounded n ≤ wordLimit :=
    (Format.rounded_mono (by decide) hn.le).trans
      (by decide +kernel : Format.double.rounded wordLimit ≤ wordLimit)
  rw [Format.rounded] at hrounded ⊢
  simp [lenientSize?, ofNat, hnumeral, Numeral.double, hwhole, hrounded]

/-- A scaled value is not below a number that both of its factors together reach. -/
theorem lt_floor_of_scale? {kept dropped q : ℕ} {s : Scaled}
    (hs : Literal.scale? 8 (Format.double.decode (Format.double.ofNat kept)) dropped = some s)
    (hreached : q ≤ Format.double.rounded kept * Format.double.rounded (power 10 dropped))
    (hq : wordLimit < Format.double.rounded q) : wordLimit < s.floor := by
  have hproduct : (q : ℚ) ≤ (Format.double.decode (Format.double.ofNat kept)).value *
      (Literal.powerOfTen dropped).value := by
    calc (q : ℚ)
        ≤ (Format.double.rounded kept * Format.double.rounded (power 10 dropped) : ℕ) :=
          Nat.cast_le.mpr hreached
      _ ≤ _ := by
          rw [Nat.cast_mul]
          exact mul_le_mul (Format.double.rounded_le_value kept)
            (Format.double.rounded_le_value _) (Nat.cast_nonneg _) (Scaled.value_nonneg _)
  have hmantissa : (Format.double.decode (Format.double.ofNat kept)).mantissa ≠ 0 := by
    intro hzero
    rw [Scaled.value, hzero, Nat.cast_zero, zero_mul, zero_mul] at hproduct
    obtain rfl : q = 0 := Nat.le_zero.mp (by exact_mod_cast hproduct)
    exact absurd hq (by decide +kernel)
  rw [Literal.scale?_of_nonneg 7 _ (Int.natCast_nonneg dropped), Int.toNat_natCast,
    if_neg hmantissa] at hs
  split_ifs at hs
  · rw [Literal.value_mul_value] at hproduct
    have hvalue := Literal.le_value_of_rescale?
      (Nat.mul_pos (Scaled.denominator_pos _) (Scaled.denominator_pos _)) hs hproduct
    rw [Format.rounded, Scaled.floor_eq] at hq
    rw [Scaled.floor_eq]
    exact hq.trans_le (Nat.floor_mono hvalue)

/-- Past the words a number is read as the greatest of them or refused: it depends on the digits
that fit a word. -/
theorem lenientSize?_ofNat_of_ge (hn : wordLimit ≤ n) :
    (ofNat n).lenientSize? = if n ≤ greatestSize then some (wordLimit - 1) else none := by
  obtain ⟨kept, dropped, hnumeral, hdropped, hkept, hlow, hhigh⟩ := Literal.numeral?_ofNat hn
  have hword : wordLimit = 18446744073709551616 := rfl
  have hgreatest : greatestSize = 18446744073709553929 := rfl
  have hfirst : 1844674407370955161 ≤ kept := by omega
  have hten : power 10 1 = 10 := rfl
  have hlong (hmore : 1 < dropped) : 100 ≤ power 10 dropped :=
    Nat.pow_le_pow_right (show 0 < 10 by decide) hmore
  split_ifs with hsmall
  · -- One digit is left out, and what is left is rounded down to the same double.
    obtain rfl : dropped = 1 := by
      by_contra hmore
      have := Nat.mul_le_mul hfirst (hlong (by omega))
      omega
    rw [hten] at hlow
    have hpattern :
        Format.double.ofNat kept = Format.double.ofNat 1844674407370955392 := by
      refine le_antisymm (Format.ofNat_mono (by decide) (by omega)) ?_
      refine le_trans ?_ (Format.ofNat_mono (by decide) hfirst)
      decide +kernel
    have hscaled : Literal.scale? 8 (Format.double.decode (Format.double.ofNat
        1844674407370955392)) (1 : ℕ) = some ⟨power 2 52, 12⟩ := by decide +kernel
    rw [hpattern, hscaled] at hnumeral
    rw [ofNat, lenientSize?_real hnumeral]
    decide +kernel
  · cases hs : Literal.scale? 8 (Format.double.decode (Format.double.ofNat kept)) dropped with
    | none =>
      rw [hs] at hnumeral
      simp [ofNat, lenientSize?, hnumeral]
    | some s =>
      rw [hs] at hnumeral
      have hmono : Monotone Format.double.rounded := Format.rounded_mono (by decide)
      have hlarge : wordLimit < s.floor := by
        rcases (Nat.succ_le_of_lt hdropped).eq_or_lt with rfl | hmore
        · rw [hten] at hhigh
          have hkept' : 1844674407370955393 ≤ kept := by omega
          have hreached := Nat.mul_le_mul (hmono hkept')
            (le_refl (Format.double.rounded (power 10 1)))
          exact lt_floor_of_scale? hs hreached (by decide +kernel)
        · have hreached := Nat.mul_le_mul (hmono hfirst) (hmono (hlong hmore))
          exact lt_floor_of_scale? hs hreached (by decide +kernel)
      rw [ofNat, lenientSize?_real hnumeral, if_neg fun h => hlarge.not_ge h.2]

/-- What a number is read as: the nearest double, or the greatest word, or nothing. -/
theorem lenientSize?_ofNat (n : ℕ) :
    (ofNat n).lenientSize? =
      if n ≤ greatestSize then some (min (Format.double.rounded n) (wordLimit - 1)) else none := by
  rcases Nat.lt_or_ge n wordLimit with hword | hlarge
  · have hsmall : n ≤ greatestSize := hword.le.trans (Nat.le_add_right _ _)
    rw [lenientSize?_ofNat_of_lt hword, if_pos hsmall]
  · have hrounded : wordLimit - 1 ≤ Format.double.rounded n :=
      (by decide +kernel : wordLimit - 1 ≤ Format.double.rounded wordLimit).trans
        (Format.rounded_mono (by decide) hlarge)
    rw [lenientSize?_ofNat_of_ge hlarge, min_eq_right hrounded]

/-- The two spellings are read alike exactly if the number is refused in both, is the greatest word,
or is a word that fits a double. -/
theorem lenientSize?_eq_iff (n : ℕ) :
    (ofNat n).lenientSize? = (ofString (ofNat n).toText).lenientSize? ↔
      greatestSize < n ∨ n = wordLimit - 1 ∨ n < wordLimit ∧ Format.double.Fits n := by
  have hgreatest : wordLimit ≤ greatestSize := Nat.le_add_right _ _
  have hpos := wordLimit_pos
  rw [lenientSize?_ofNat, lenientSize?_text]
  rcases Nat.lt_or_ge n wordLimit with hword | hlarge
  · have hfinite : Format.double.ofNat n < Format.double.infinity :=
      (Format.ofNat_mono (by decide) hword.le).trans_lt (by decide +kernel)
    have hlast : wordLimit - 1 ≤ Format.double.rounded (wordLimit - 1) := by decide +kernel
    rw [if_pos (hword.le.trans hgreatest), if_pos hword, Option.some_inj,
      ← Format.rounded_eq_self_iff (by decide) (by decide) hfinite]
    constructor
    · intro h
      omega
    · rintro (h | rfl | ⟨-, h⟩)
      · omega
      · exact min_eq_right hlast
      · omega
  · rw [if_neg hlarge.not_gt]
    constructor
    · intro h
      by_contra hnot
      rw [if_pos (by omega)] at h
      cases h
    · intro h
      rw [if_neg (by omega)]

end Json

/-- A record that is read from a document has a field as it is read there, and depends on it in
nothing but what it is read as. -/
structure KeepsSize {α : Type} (read : Json → Option α) (name : String) (field : α → ℕ) : Prop where
  kept : ∀ {before after value x}, read (.object (before ++ (some name, value) :: after)) = some x →
    value.lenientSize? = some (field x)
  alike : ∀ {before after value value'}, value.lenientSize? = value'.lenientSize? →
    read (.object (before ++ (some name, value) :: after)) =
      read (.object (before ++ (some name, value') :: after))

/-- A record that is built from its fields keeps a size if it does so for every list of fields. -/
theorem KeepsSize.of_fields {α : Type} {read : Json → Option α} {names : List String}
    {build : List (Option Json) → Option α} {i : ℕ} {name : String} {field : α → ℕ}
    (hread : ∀ document, read document = (document.fields? names).bind build)
    (hnodup : names.Nodup) (hname : names[i]? = some name)
    (hkept : ∀ (fields : List (Option Json)) (value : Json) (x : α),
      fields.length = names.length → build (fields.set i (some value)) = some x →
        value.lenientSize? = some (field x))
    (halike : ∀ (fields : List (Option Json)) (value value' : Json),
      fields.length = names.length → value.lenientSize? = value'.lenientSize? →
        build (fields.set i (some value)) = build (fields.set i (some value'))) :
    KeepsSize read name field where
  kept {before after value x} h := by
    obtain ⟨others, hlength, hfields⟩ := Json.exists_fields?_eq hnodup hname before after
    rw [hread, hfields] at h
    cases others with
    | none => cases h
    | some fields => exact hkept fields value x (hlength fields rfl) h
  alike {before after value value'} h := by
    obtain ⟨others, hlength, hfields⟩ := Json.exists_fields?_eq hnodup hname before after
    rw [hread, hread, hfields, hfields]
    cases others with
    | none => rfl
    | some fields => exact halike fields value value' (hlength fields rfl) h

theorem Slider.keepsSize_index : KeepsSize Slider.ofJson? "index" Slider.index := by
  refine .of_fields (fun _ => rfl) (by decide) (show _[2]? = _ from rfl) ?_ ?_
  · intro fields value x hlength h
    match fields, hlength with
    | [label, address, index, init, min, max, step, annotations], _ =>
      cases label <;> cases address <;> cases init <;> cases min <;> cases max <;> cases step <;>
        simp [Option.bind_eq_some_iff] at h <;> grind
  · intro fields value value' hlength h
    match fields, hlength with
    | [label, address, index, init, min, max, step, annotations], _ =>
      cases label <;> cases address <;> cases init <;> cases min <;> cases max <;> simp [h]

theorem Toggle.keepsSize_index : KeepsSize Toggle.ofJson? "index" Toggle.index := by
  refine .of_fields (fun _ => rfl) (by decide) (show _[2]? = _ from rfl) ?_ ?_
  · intro fields value x hlength h
    match fields, hlength with
    | [label, address, index, annotations], _ =>
      cases label <;> cases address <;> simp [Option.bind_eq_some_iff] at h
      grind
  · intro fields value value' hlength h
    match fields, hlength with
    | [label, address, index, annotations], _ =>
      cases label <;> cases address <;> simp [h]

theorem Bargraph.keepsSize_index : KeepsSize Bargraph.ofJson? "index" Bargraph.index := by
  refine .of_fields (fun _ => rfl) (by decide) (show _[2]? = _ from rfl) ?_ ?_
  · intro fields value x hlength h
    match fields, hlength with
    | [label, address, index, min, max, annotations], _ =>
      cases label <;> cases address <;> cases min <;> cases max <;>
        simp [Option.bind_eq_some_iff] at h
      grind
  · intro fields value value' hlength h
    match fields, hlength with
    | [label, address, index, min, max, annotations], _ =>
      cases label <;> cases address <;> cases min <;> cases max <;> simp [h]

namespace ModuleMetadata

theorem keepsSize_size : KeepsSize ofJson? "size" size := by
  refine .of_fields (fun _ => rfl) (by decide) (show _[2]? = _ from rfl) ?_ ?_
  · intro fields value x hlength h
    match fields, hlength with
    | [name, filename, size, inputs, outputs, annotations, ui], _ =>
      cases name <;> cases inputs <;> cases outputs <;> cases ui <;>
        cases filename <;> simp [Option.bind_eq_some_iff] at h <;> grind
  · intro fields value value' hlength h
    match fields, hlength with
    | [name, filename, size, inputs, outputs, annotations, ui], _ =>
      cases name <;> cases inputs <;> cases outputs <;> cases ui <;> simp [h]

theorem keepsSize_inputs : KeepsSize ofJson? "inputs" inputs := by
  refine .of_fields (fun _ => rfl) (by decide) (show _[3]? = _ from rfl) ?_ ?_
  · intro fields value x hlength h
    match fields, hlength with
    | [name, filename, size, inputs, outputs, annotations, ui], _ =>
      cases name <;> cases size <;> cases outputs <;> cases ui <;>
        cases filename <;> simp [Option.bind_eq_some_iff] at h <;> grind
  · intro fields value value' hlength h
    match fields, hlength with
    | [name, filename, size, inputs, outputs, annotations, ui], _ =>
      cases name <;> cases size <;> cases outputs <;> cases ui <;> simp [h]

theorem keepsSize_outputs : KeepsSize ofJson? "outputs" outputs := by
  refine .of_fields (fun _ => rfl) (by decide) (show _[4]? = _ from rfl) ?_ ?_
  · intro fields value x hlength h
    match fields, hlength with
    | [name, filename, size, inputs, outputs, annotations, ui], _ =>
      cases name <;> cases size <;> cases inputs <;> cases ui <;>
        cases filename <;> simp [Option.bind_eq_some_iff] at h <;> grind
  · intro fields value value' hlength h
    match fields, hlength with
    | [name, filename, size, inputs, outputs, annotations, ui], _ =>
      cases name <;> cases size <;> cases inputs <;> cases ui <;> simp [h]

/-- The two spellings of any number in the fields that hold sizes. Each field is kept as it is read,
and the rest of the document does not tell how it was spelled. The text is read as the number, or
refused if that is no word. The number is rounded to a double and cut to a word, and refused above
the greatest size. So the two are alike exactly if both are refused, or if the number is the greatest
word or a word that fits a double. -/
theorem spellings_of_sizes (n : ℕ) :
    (Json.ofString (Json.ofNat n).toText).lenientSize? =
      (if n < wordLimit then some n else none) ∧
    (Json.ofNat n).lenientSize? =
      (if n ≤ Json.greatestSize then some (min (Format.double.rounded n) (wordLimit - 1))
        else none) ∧
    ((Json.ofNat n).lenientSize? = (Json.ofString (Json.ofNat n).toText).lenientSize? ↔
      Json.greatestSize < n ∨ n = wordLimit - 1 ∨ n < wordLimit ∧ Format.double.Fits n) ∧
    KeepsSize ofJson? "size" size ∧ KeepsSize ofJson? "inputs" inputs ∧
      KeepsSize ofJson? "outputs" outputs ∧ KeepsSize Slider.ofJson? "index" Slider.index ∧
        KeepsSize Toggle.ofJson? "index" Toggle.index ∧
          KeepsSize Bargraph.ofJson? "index" Bargraph.index :=
  ⟨Json.lenientSize?_text n, Json.lenientSize?_ofNat n, Json.lenientSize?_eq_iff n,
    keepsSize_size, keepsSize_inputs, keepsSize_outputs, Slider.keepsSize_index,
    Toggle.keepsSize_index, Bargraph.keepsSize_index⟩

/-! ### A size that is rounded -/

/-- The description of a module of a given size, without channels and controls. -/
def bare (size : ℕ) : ModuleMetadata := ⟨"", "", size, 0, 0, [], []⟩

/-- The document of a module without channels and controls, whose size is spelled in some way. -/
def bareDocument (size : Json) : Json :=
  .ofMembers [("name", .ofString ""), ("size", size), ("inputs", .ofNat 0), ("outputs", .ofNat 0),
    ("ui", .array [])]

/-- Such a document is accepted exactly if its size is. -/
theorem parse_bareDocument {size : Json} (hsize : size.Spelled) :
    parse (bareDocument size).toText =
      match size.lenientSize? with
      | some n => .ok (bare n)
      | none => .error .malformed := by
  have hdocument : (bareDocument size).Spelled := Json.spelled_ofMembers (by
    simp [hsize, Json.ofString, Json.ofNat, Json.Spelled.string, Json.Spelled.number,
      Json.Spelled.array, Literal.canonical_ofNat])
  have hfields : (bareDocument size).fields?
      ["name", "filename", "size", "inputs", "outputs", "meta", "ui"] =
        some [some (.ofString ""), none, some size, some (.ofNat 0), some (.ofNat 0), none,
          some (.array [])] := by
    simp [bareDocument, Json.ofMembers, Json.fields?, Json.member?]
  have hzero : (Json.ofNat 0).lenientSize? = some 0 := by decide +kernel
  have hread : ofJson? (bareDocument size) = size.lenientSize?.map bare := by
    unfold ofJson?
    rw [hfields]
    cases hn : size.lenientSize? <;>
      simp [hn, hzero, Json.ofString, Json.string?, MetaEntry.listOfJson?, Json.list?,
        Json.items?, bare]
  rw [parse, Json.parse?_toText hdocument, Option.bind_some, hread]
  cases size.lenientSize? <;> rfl

/-- A number of 54 bits is rounded where its digits in a text are not, and the first number that is
no word is accepted where its digits are refused. -/
theorem parse_bareDocument_ne :
    parse (bareDocument (.ofNat 9007199254740993)).toText = .ok (bare 9007199254740992) ∧
    parse (bareDocument (.ofString (Json.ofNat 9007199254740993).toText)).toText =
      .ok (bare 9007199254740993) ∧
    parse (bareDocument (.ofNat wordLimit)).toText = .ok (bare (wordLimit - 1)) ∧
    parse (bareDocument (.ofString (Json.ofNat wordLimit).toText)).toText = .error .malformed := by
  have hnumber (n : ℕ) : (Json.ofNat n).Spelled := .number (Literal.canonical_ofNat n)
  have htext (n : ℕ) : (Json.ofString (Json.ofNat n).toText).Spelled := .string _
  have hrounded : (Json.ofNat 9007199254740993).lenientSize? = some 9007199254740992 := by
    decide +kernel
  have hcut : (Json.ofNat wordLimit).lenientSize? = some (wordLimit - 1) := by decide +kernel
  refine ⟨?_, ?_, ?_, ?_⟩
  · rw [parse_bareDocument (hnumber _), hrounded]
  · rw [parse_bareDocument (htext _), Json.lenientSize?_text, if_pos (by decide)]
  · rw [parse_bareDocument (hnumber _), hcut]
  · rw [parse_bareDocument (htext _), Json.lenientSize?_text, if_neg (lt_irrefl _)]

end ModuleMetadata

end DspHost
