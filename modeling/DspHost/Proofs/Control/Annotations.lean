import DspHost.Control.Table
import DspHost.Proofs.Text.Words

/-!
# What annotations bind

A control may be annotated with texts, and the first one about messages names the message that moves
it: the pitch wheel, or a controller and its number. Only the words that are needed are looked at.
So a text with more words behind them binds a control as well, although its form is not documented,
and so does a number behind a plus sign. No other text binds anything, and where there are no such
texts the documented forms are all there is.

## Main definitions

* `MidiText` — the first text about messages
* `MidiSource.Form` — the forms of a text, with the words that are too many
* `MidiSource.Accepted`, `MidiSource.Documented` — the texts that are taken, and those that
  should be
* `MidiSource.Follows` — what annotations bind by a grammar of texts

## Main results

* `MidiSource.ofText_eq_iff` — which texts name a message
* `MidiSource.ofAnnotations_follows` — annotations bind what is accepted, and they bind what is
  documented if and only if no word is too many
-/

namespace DspHost

/-! ### The text that decides -/

/-- The text about messages in the first entry that has one. -/
def MidiText (annotations : List MetaEntry) (text : String) : Prop :=
  ∃ before entry after, annotations = before ++ entry :: after ∧
    (∀ other ∈ before, MetaEntry.get? other "midi" = none) ∧ entry.get? "midi" = some text

theorem midiText?_eq_some_iff {annotations : List MetaEntry} {text : String} :
    midiText? annotations = some text ↔ MidiText annotations text := by
  rw [midiText?, List.findSome?_eq_some_iff]
  constructor
  · rintro ⟨before, entry, after, heq, htext, hbefore⟩
    exact ⟨before, entry, after, heq, hbefore, htext⟩
  · rintro ⟨before, entry, after, heq, hbefore, htext⟩
    exact ⟨before, entry, after, heq, htext, hbefore⟩

/-- Annotations have one text that decides. -/
theorem MidiText.unique {annotations : List MetaEntry} {text other : String}
    (h : MidiText annotations text) (h' : MidiText annotations other) : text = other :=
  Option.some.inj ((midiText?_eq_some_iff.mpr h).symm.trans (midiText?_eq_some_iff.mpr h'))

namespace MidiSource

/-! ### The forms of a text -/

/-- A text has a form: the word for the wheel, or the word for a controller and its number. The
number may stand behind a plus sign, and more words may follow. -/
inductive Form (text : String) : MidiSource → Bool → List (List Char) → Prop where
  /-- The wheel. -/
  | wheel {rest : List (List Char)} (h : SplitsInto text.toList ("pitchwheel".toList :: rest)) :
      Form text .wheel false rest
  /-- A controller. -/
  | controller {number : UInt8} {word : List Char} {plus : Bool} {rest : List (List Char)}
      (h : SplitsInto text.toList
        ("ctrl".toList :: ((if plus then ['+'] else []) ++ word) :: rest))
      (hword : Numeral word number.toNat) (hnumber : number.toNat < controllerCount) :
      Form text (.controller number) plus rest

/-- The texts that name a message as it is documented: all their words belong to the form, and a
number is made of digits. -/
def Documented (text : String) (source : MidiSource) : Prop := Form text source false []

/-- The texts that are taken for the name of a message. -/
def Accepted (text : String) (source : MidiSource) : Prop := ∃ plus rest, Form text source plus rest

variable {text : String} {source : MidiSource} {number : UInt8} {plus : Bool}
  {rest : List (List Char)}

theorem Documented.accepted (h : Documented text source) : Accepted text source := ⟨false, [], h⟩

theorem Form.ne_unbound (h : Form text source plus rest) : source ≠ .unbound := by
  cases h <;> simp

/-- A text has one form. -/
theorem Form.unique {plus' : Bool} {rest' : List (List Char)} (h : Form text source plus rest)
    (h' : Form text source plus' rest') : plus = plus' ∧ rest = rest' := by
  cases h with
  | wheel h =>
    cases h' with
    | wheel h' => exact ⟨rfl, (List.cons.inj (h.words_eq.symm.trans h'.words_eq)).2⟩
  | controller h hword _ =>
    cases h' with
    | controller h' hword' _ =>
      have hrest := (List.cons.inj (h.words_eq.symm.trans h'.words_eq)).2
      obtain ⟨hsame, rfl⟩ := List.cons.inj hrest
      refine ⟨?_, rfl⟩
      cases plus <;> cases plus' <;> simp at hsame
      · rfl
      · exact absurd (hsame ▸ hword) not_numeral_plus
      · exact absurd (hsame ▸ hword') not_numeral_plus
      · rfl

/-- A word is read as the number of a controller exactly if it is a numeral, perhaps behind a plus
sign, that is small enough. -/
theorem naturalOfText?_controller_iff {word : List Char} :
    (naturalOfText? controllerCount word).map Nat.toUInt8 = some number ↔
      ∃ plus unsigned, word = (if plus = true then ['+'] else []) ++ unsigned ∧
        Numeral unsigned number.toNat ∧ number.toNat < controllerCount := by
  constructor
  · intro h
    obtain ⟨n, hn, rfl⟩ := Option.map_eq_some_iff.mp h
    obtain ⟨hnumeral, hlimit⟩ := naturalOfText?_eq_some_iff.mp hn
    have hsmall : n.toUInt8.toNat = n :=
      UInt8.toNat_ofNat_of_lt' (hlimit.trans (by decide : controllerCount < UInt8.size))
    rw [hsmall]
    rcases hnumeral with hunsigned | ⟨unsigned, rfl, hunsigned⟩
    · exact ⟨false, word, rfl, hunsigned, hlimit⟩
    · exact ⟨true, unsigned, rfl, hunsigned, hlimit⟩
  · rintro ⟨plus, unsigned, rfl, hunsigned, hlimit⟩
    refine Option.map_eq_some_iff.mpr ⟨number.toNat, ?_, UInt8.ofNat_toNat⟩
    refine naturalOfText?_eq_some_iff.mpr ⟨?_, hlimit⟩
    cases plus with
    | false => exact .inl hunsigned
    | true => exact .inr ⟨unsigned, rfl, hunsigned⟩

/-- What a text names is decided by its first two words. -/
theorem ofText_eq (text : String) :
    (ofText text).1 =
      match words text.toList with
      | [] => .unbound
      | word :: rest =>
        if word = "pitchwheel".toList then .wheel
        else if word = "ctrl".toList then
          (((rest.head?.bind (naturalOfText? controllerCount)).map Nat.toUInt8).map
            MidiSource.controller).getD .unbound
        else .unbound := by
  unfold ofText
  cases words text.toList with
  | nil => rfl
  | cons word rest =>
    dsimp only
    split_ifs
    · rfl
    · cases rest.head?.bind (naturalOfText? controllerCount) <;> rfl
    · rfl

theorem ofText_eq_wheel_iff :
    (ofText text).1 = .wheel ↔ ∃ rest, words text.toList = "pitchwheel".toList :: rest := by
  rw [ofText_eq]
  cases words text.toList with
  | nil => simp
  | cons word rest =>
    dsimp only
    split_ifs with hwheel hcontroller
    · exact iff_of_true rfl ⟨rest, by rw [hwheel]⟩
    · refine iff_of_false ?_ fun ⟨_, h⟩ => hwheel (List.cons.inj h).1
      cases (rest.head?.bind (naturalOfText? controllerCount)).map Nat.toUInt8 <;> simp
    · exact iff_of_false (by simp) fun ⟨_, h⟩ => hwheel (List.cons.inj h).1

theorem ofText_eq_controller_iff :
    (ofText text).1 = .controller number ↔ ∃ word rest,
      words text.toList = "ctrl".toList :: word :: rest ∧
        (naturalOfText? controllerCount word).map Nat.toUInt8 = some number := by
  rw [ofText_eq]
  cases words text.toList with
  | nil => simp
  | cons word rest =>
    dsimp only
    split_ifs with hwheel hcontroller
    · refine iff_of_false (by simp) ?_
      rintro ⟨_, _, h, -⟩
      exact absurd (hwheel.symm.trans (List.cons.inj h).1) (by decide)
    · obtain rfl := hcontroller
      cases rest with
      | nil => simp
      | cons second rest =>
        have hsecond : (∃ word others, "ctrl".toList :: second :: rest =
            "ctrl".toList :: word :: others ∧
              (naturalOfText? controllerCount word).map Nat.toUInt8 = some number) ↔
            (naturalOfText? controllerCount second).map Nat.toUInt8 = some number := by
          constructor
          · rintro ⟨_, _, h, hnumber⟩
            obtain ⟨rfl, -⟩ := List.cons.inj (List.cons.inj h).2
            exact hnumber
          · exact fun hnumber => ⟨second, rest, rfl, hnumber⟩
        rw [hsecond, List.head?_cons, Option.bind_some]
        generalize (naturalOfText? controllerCount second).map Nat.toUInt8 = found
        cases found <;> simp
    · refine iff_of_false (by simp) ?_
      rintro ⟨_, _, h, -⟩
      exact hcontroller (List.cons.inj h).1

/-- A text names a message exactly if it is accepted. -/
theorem ofText_eq_iff (hsource : source ≠ .unbound) :
    (ofText text).1 = source ↔ Accepted text source := by
  cases source with
  | unbound => exact absurd rfl hsource
  | wheel =>
    rw [ofText_eq_wheel_iff]
    constructor
    · rintro ⟨rest, hwords⟩
      exact ⟨false, rest, .wheel (splitsInto_iff.mpr hwords)⟩
    · rintro ⟨_, rest, h⟩
      cases h with
      | wheel h => exact ⟨rest, h.words_eq⟩
  | controller number =>
    rw [ofText_eq_controller_iff]
    constructor
    · rintro ⟨word, rest, hwords, hnumber⟩
      obtain ⟨plus, unsigned, rfl, hnumeral, hlimit⟩ := naturalOfText?_controller_iff.mp hnumber
      exact ⟨plus, rest, .controller (splitsInto_iff.mpr hwords) hnumeral hlimit⟩
    · rintro ⟨plus, rest, h⟩
      cases h with
      | controller h hnumeral hlimit =>
        exact ⟨_, rest, h.words_eq,
          naturalOfText?_controller_iff.mpr ⟨plus, _, rfl, hnumeral, hlimit⟩⟩

/-! ### What is bound -/

/-- A grammar of texts says what annotations bind: the first text about messages decides, and where
there is none, or the grammar does not have it, there is no message. -/
structure Follows (grammar : String → MidiSource → Prop) (annotations : List MetaEntry)
    (source : MidiSource) : Prop where
  wheel_iff : source = .wheel ↔ ∃ text, MidiText annotations text ∧ grammar text .wheel
  controller_iff : ∀ number, source = .controller number ↔
    ∃ text, MidiText annotations text ∧ grammar text (.controller number)
  unbound_iff : source = .unbound ↔ ∀ text other, MidiText annotations text → ¬grammar text other

theorem ofAnnotations_eq_iff {annotations : List MetaEntry} (hsource : source ≠ .unbound) :
    ofAnnotations annotations = source ↔
      ∃ text, MidiText annotations text ∧ Accepted text source := by
  unfold ofAnnotations
  split
  · next text htext =>
    rw [ofText_eq_iff hsource]
    constructor
    · exact fun h => ⟨text, midiText?_eq_some_iff.mp htext, h⟩
    · rintro ⟨other, hother, h⟩
      obtain rfl := Option.some.inj (htext.symm.trans (midiText?_eq_some_iff.mpr hother))
      exact h
  · next hnone =>
    refine iff_of_false (Ne.symm hsource) ?_
    rintro ⟨text, htext, -⟩
    rw [midiText?_eq_some_iff.mpr htext] at hnone
    cases hnone

theorem follows_accepted (annotations : List MetaEntry) :
    Follows Accepted annotations (ofAnnotations annotations) where
  wheel_iff := ofAnnotations_eq_iff (by simp)
  controller_iff _ := ofAnnotations_eq_iff (by simp)
  unbound_iff := by
    constructor
    · intro hnone text other htext haccepted
      obtain ⟨plus, rest, hform⟩ := haccepted
      have hbound := (ofAnnotations_eq_iff hform.ne_unbound).mpr ⟨text, htext, plus, rest, hform⟩
      exact hform.ne_unbound (hbound.symm.trans hnone)
    · intro hnone
      by_contra hbound
      obtain ⟨text, htext, haccepted⟩ := (ofAnnotations_eq_iff hbound).mp rfl
      exact hnone text _ htext haccepted

/-- Two grammars that agree on the text that decides bind the same. -/
theorem Follows.congr {grammar grammar' : String → MidiSource → Prop}
    {annotations : List MetaEntry} (h : Follows grammar annotations source)
    (hsame : ∀ text other, MidiText annotations text → (grammar text other ↔ grammar' text other)) :
    Follows grammar' annotations source := by
  have hexists (other : MidiSource) : (∃ text, MidiText annotations text ∧ grammar text other) ↔
      ∃ text, MidiText annotations text ∧ grammar' text other :=
    exists_congr fun text => and_congr_right fun htext => hsame text other htext
  refine ⟨h.wheel_iff.trans (hexists _), fun number => (h.controller_iff number).trans (hexists _),
    h.unbound_iff.trans ?_⟩
  exact forall₂_congr fun text other => imp_congr_right fun htext =>
    not_congr (hsame text other htext)

/-- Where only documented texts bind, a text that has a form has a documented one. -/
theorem Follows.exact {annotations : List MetaEntry}
    (h : Follows Documented annotations (ofAnnotations annotations))
    (htext : MidiText annotations text) (hform : Form text source plus rest) :
    plus = false ∧ rest = [] := by
  have hbound : ofAnnotations annotations = source :=
    (ofAnnotations_eq_iff hform.ne_unbound).mpr ⟨text, htext, plus, rest, hform⟩
  have hnamed : ∃ other, MidiText annotations other ∧ Documented other source := by
    cases hform with
    | wheel _ => exact h.wheel_iff.mp hbound
    | controller _ _ _ => exact (h.controller_iff _).mp hbound
  obtain ⟨other, hother, hdocumented⟩ := hnamed
  -- The first text about messages is the only one that decides.
  obtain rfl : text = other := htext.unique hother
  exact hform.unique hdocumented

/-- Annotations bind what is accepted. They bind what is documented if and only if their text, where
it has a form, has no word too many and no plus sign. -/
theorem ofAnnotations_follows (annotations : List MetaEntry) :
    Follows Accepted annotations (ofAnnotations annotations) ∧
      (Follows Documented annotations (ofAnnotations annotations) ↔
        ∀ text source plus rest, MidiText annotations text → Form text source plus rest →
          plus = false ∧ rest = []) := by
  have haccepted := follows_accepted annotations
  refine ⟨haccepted, fun hdocumented _ _ _ _ => hdocumented.exact, fun hexact => ?_⟩
  refine haccepted.congr fun text source htext => ⟨?_, Documented.accepted⟩
  intro ⟨plus, rest, hform⟩
  obtain ⟨rfl, rfl⟩ := hexact text source plus rest htext hform
  exact hform

/-- A word behind the number of a controller, where there is to be none. -/
def wordyAnnotations : List MetaEntry := [[("midi", "ctrl 7 x")]]

/-- A controller is bound by a text that no documented form has. -/
theorem not_follows_documented :
    ofAnnotations wordyAnnotations = .controller 7 ∧
      ¬Follows Documented wordyAnnotations (ofAnnotations wordyAnnotations) := by
  have htext : MidiText wordyAnnotations "ctrl 7 x" := ⟨[], _, [], rfl, by simp, by decide⟩
  have hwords : words "ctrl 7 x".toList = ["ctrl".toList, "7".toList, "x".toList] := by decide
  have hnumber : Numeral "7".toList (7 : UInt8).toNat :=
    ⟨[7], by decide, by decide, by decide, by decide⟩
  have hform : Form "ctrl 7 x" (.controller 7) false ["x".toList] :=
    .controller (splitsInto_iff.mpr hwords) hnumber (by decide)
  refine ⟨(ofAnnotations_eq_iff hform.ne_unbound).mpr ⟨_, htext, _, _, hform⟩, fun h => ?_⟩
  have hnone : ["x".toList] = [] := (h.exact htext hform).2
  cases hnone

end MidiSource

end DspHost
