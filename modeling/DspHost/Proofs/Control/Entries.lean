import DspHost.Proofs.Engine.Run

/-!
# The two entries of a handle

A host can send a channel message as an event, or pass on its bytes. Both entries cut data to seven
bits, end a note that has no velocity and leave out what comes from the percussion channel, unless
it silences every voice. They do so in different orders: bytes are cut first, and an event last.
Data of seven bits pass both entries alike. A velocity of 128 and the controllers 248 and 251 are
nothing special as they are and become something special when they are cut, and only there do the
entries differ.

## Main definitions

* `Event.bytes` — the bytes of a channel message
* `Event.Encodable` — a channel message that has bytes
* `Event.cut` — a message with its data cut to seven bits
* `Event.Settled` — a message that cutting makes nothing special of
* `Handle.unlogged` — everything that a handle keeps besides its log

## Main results

* `Event.routed?_bytes` — the bytes of a message are routed as the message with its data cut
* `Event.routed?_cut_iff` — when that makes no difference
* `Handle.unlogged_post_eq_iff` — for which messages and handles the two entries agree
-/

namespace DspHost

/-! ### Seven bits -/

theorem dataBits_dataBits (byte : UInt8) : dataBits (dataBits byte) = dataBits byte := by
  simp [dataBits, UInt8.and_assoc]

/-- Two bytes have nothing in their lower seven bits. -/
theorem dataBits_eq_zero_iff : ∀ byte, dataBits byte = 0 ↔ byte = 0 ∨ byte = 128 := by
  decide +kernel

/-- Four bytes silence every voice when they are cut. -/
theorem isPanicController_dataBits_iff : ∀ byte, isPanicController (dataBits byte) = true ↔
    isPanicController byte = true ∨ byte = 248 ∨ byte = 251 := by
  decide +kernel

/-- The two bytes of a position of the pitch wheel make the position again. -/
theorem position_dataBits {value : UInt16} (h : value ≤ pitchWheelMax) :
    (dataBits (value &&& 0x7f).toUInt8).toUInt16 |||
      (dataBits (value >>> 7).toUInt8).toUInt16 <<< 7 = value := by
  have hvalue : value.toNat < 2 ^ 14 := Nat.lt_succ_of_le (UInt16.le_iff_toNat_le.mp h)
  have hmask (n : ℕ) : n &&& 127 = n % 2 ^ 7 := Nat.and_two_pow_sub_one_eq_mod n 7
  have hlow : (dataBits (value &&& 0x7f).toUInt8).toNat = value.toNat % 2 ^ 7 := by
    simp only [dataBits, UInt8.toNat_and, UInt16.toNat_toUInt8, UInt16.toNat_and,
      UInt16.reduceToNat, UInt8.reduceToNat, hmask]
    omega
  have hhigh : (dataBits (value >>> 7).toUInt8).toNat = value.toNat / 2 ^ 7 := by
    simp only [dataBits, UInt8.toNat_and, UInt16.toNat_toUInt8, UInt16.toNat_shiftRight,
      UInt16.reduceToNat, UInt8.reduceToNat, hmask, Nat.shiftRight_eq_div_pow, Nat.reduceMod]
    omega
  have hshift : value.toNat / 2 ^ 7 * 2 ^ 7 % 2 ^ 16 = 2 ^ 7 * (value.toNat / 2 ^ 7) := by omega
  apply UInt16.toNat_inj.mp
  simp only [UInt16.toNat_or, UInt8.toNat_toUInt16, UInt16.toNat_shiftLeft, hlow, hhigh,
    UInt16.reduceToNat, Nat.shiftLeft_eq, hshift, Nat.reduceMod]
  rw [Nat.or_comm, ← Nat.two_pow_add_eq_or_of_lt (Nat.mod_lt _ (by decide))]
  exact Nat.div_add_mod value.toNat (2 ^ 7)

/-- A status byte holds the kind of a message and its channel. -/
theorem status_parts {kind channel : UInt8} (hkind : kind < 16) (hchannel : channel < 16) :
    (kind <<< 4 ||| channel) >>> 4 = kind ∧ (kind <<< 4 ||| channel) &&& 0x0f = channel := by
  have hkind : kind.toNat < 2 ^ 4 := UInt8.lt_iff_toNat_lt.mp hkind
  have hchannel : channel.toNat < 2 ^ 4 := UInt8.lt_iff_toNat_lt.mp hchannel
  have hshift : kind.toNat * 2 ^ 4 % 2 ^ 8 = 2 ^ 4 * kind.toNat := by omega
  have hstatus : (kind <<< 4 ||| channel).toNat = 2 ^ 4 * kind.toNat + channel.toNat := by
    simp only [UInt8.toNat_or, UInt8.toNat_shiftLeft, UInt8.reduceToNat, Nat.reduceMod,
      Nat.shiftLeft_eq, hshift]
    exact (Nat.two_pow_add_eq_or_of_lt hchannel _).symm
  have hmask := Nat.and_two_pow_sub_one_eq_mod (2 ^ 4 * kind.toNat + channel.toNat) 4
  constructor
  · apply UInt8.toNat_inj.mp
    simp only [UInt8.toNat_shiftRight, hstatus, UInt8.reduceToNat, Nat.reduceMod,
      Nat.shiftRight_eq_div_pow]
    omega
  · apply UInt8.toNat_inj.mp
    rw [UInt8.toNat_and, hstatus]
    refine hmask.trans ?_
    omega

/-- A message with two data bytes is decoded from its kind and its channel. -/
theorem parse?_status (kind : UInt8) {channel : UInt8} (hkind : kind < 16)
    (hchannel : channel < 16) (d1 d2 : UInt8) :
    MidiMessage.parse? [kind <<< 4 ||| channel, d1, d2] =
      MidiMessage.ofData2? kind channel (dataBits d1) (dataBits d2) := by
  obtain ⟨hk, hc⟩ := status_parts hkind hchannel
  rw [MidiMessage.parse?, hk, hc]

/-! ### Channel messages as bytes -/

namespace Event

/-- The bytes of a channel message. -/
def bytes : Event → List UInt8
  | noteOn channel pitch velocity => [0x90 ||| channel, pitch, velocity]
  | noteOff channel pitch velocity => [0x80 ||| channel, pitch, velocity]
  | controlChange channel controller value => [0xb0 ||| channel, controller, value]
  | pitchWheel channel value =>
    [0xe0 ||| channel, (value &&& 0x7f).toUInt8, (value >>> 7).toUInt8]
  | _ => []

/-- A channel message on one of the sixteen channels. -/
def Encodable : Event → Prop
  | noteOn channel _ _ => channel < 16
  | noteOff channel _ _ => channel < 16
  | controlChange channel _ _ => channel < 16
  | pitchWheel channel value => channel < 16 ∧ value ≤ pitchWheelMax
  | _ => False

/-- A message whose data, cut to seven bits, are nothing special that they were not before. -/
def Settled : Event → Prop
  | noteOn channel _ velocity => velocity = 128 → channel = percussionChannel
  | controlChange channel controller _ =>
    channel = percussionChannel → controller ≠ 248 ∧ controller ≠ 251
  | _ => True

/-- A message with its data cut to seven bits. -/
def cut : Event → Event
  | noteOn channel pitch velocity =>
    if dataBits velocity = 0 then noteOff channel (dataBits pitch) (dataBits velocity)
    else noteOn channel (dataBits pitch) (dataBits velocity)
  | noteOff channel pitch velocity => noteOff channel (dataBits pitch) (dataBits velocity)
  | controlChange channel controller value =>
    controlChange channel (dataBits controller) (dataBits value)
  | e => e

/-- The command that an event is routed as; none if it is filtered or refused. -/
def routed? (table : ParameterTable) (e : Event) : Option Command :=
  if e.isFiltered then none else (e.command table).toOption

variable {table : ParameterTable} {e : Event}

/-- The bytes of a message stand for the message with its data cut. -/
theorem parse?_bytes (h : e.Encodable) :
    (MidiMessage.parse? e.bytes).bind MidiMessage.event? = some e.cut := by
  cases e with
  | noteOn channel pitch velocity =>
    have hparse : MidiMessage.parse? (noteOn channel pitch velocity).bytes = _ :=
      parse?_status 0x9 (by decide) h pitch velocity
    rw [hparse, cut, MidiMessage.ofData2?]
    split_ifs <;> rfl
  | noteOff channel pitch velocity =>
    have hparse : MidiMessage.parse? (noteOff channel pitch velocity).bytes = _ :=
      parse?_status 0x8 (by decide) h pitch velocity
    rw [hparse]
    rfl
  | controlChange channel controller value =>
    have hparse : MidiMessage.parse? (controlChange channel controller value).bytes = _ :=
      parse?_status 0xb (by decide) h controller value
    rw [hparse]
    rfl
  | pitchWheel channel value =>
    have hparse : MidiMessage.parse? (pitchWheel channel value).bytes = _ :=
      parse?_status 0xe (by decide) h.1 _ _
    rw [hparse, MidiMessage.ofData2?, position_dataBits h.2]
    rfl
  | _ => exact h.elim

/-- What is left out as a message would be left out as an event. -/
theorem bind_toEvent? (m : MidiMessage) :
    m.toEvent?.bind (routed? table) = m.event?.bind (routed? table) := by
  unfold MidiMessage.toEvent?
  split_ifs with hfiltered
  · obtain ⟨hchannel, hpanic⟩ := hfiltered
    cases m with
    | controlChange channel controller value =>
      obtain rfl : channel = percussionChannel := hchannel
      have hpanic : isPanicController controller = false := hpanic
      simp [MidiMessage.event?, routed?, isFiltered, channel?, isPanic, hpanic]
    | programChange channel program => rfl
    | _ =>
      simp only [MidiMessage.channel] at hchannel
      simp [MidiMessage.event?, routed?, isFiltered, channel?, isPanic, hchannel]
  · rfl

/-- The bytes of a message are routed as the message with its data cut. -/
theorem routed?_bytes (h : e.Encodable) :
    (HostCall.midi e.bytes).event?.bind (routed? table) = e.cut.routed? table := by
  have hcut := parse?_bytes h
  obtain ⟨m, hm, hevent⟩ := Option.bind_eq_some_iff.mp hcut
  rw [HostCall.event?, hm, Option.bind_some, bind_toEvent?, hevent, Option.bind_some]

theorem routed?_noteOn (table : ParameterTable) (channel pitch velocity : UInt8) :
    (noteOn channel pitch velocity).routed? table =
      if channel = percussionChannel then none
      else some (if velocity = 0 then .noteOff (dataBits pitch)
        else .noteOn (dataBits pitch) (dataBits velocity)) := by
  simp [routed?, isFiltered, channel?, isPanic, command, Except.toOption]

theorem routed?_noteOff (table : ParameterTable) (channel pitch velocity : UInt8) :
    (noteOff channel pitch velocity).routed? table =
      if channel = percussionChannel then none else some (.noteOff (dataBits pitch)) := by
  simp [routed?, isFiltered, channel?, isPanic, command, Except.toOption]

theorem routed?_controlChange (table : ParameterTable) (channel controller value : UInt8) :
    (controlChange channel controller value).routed? table =
      if channel = percussionChannel ∧ isPanicController controller = false then none
      else some (.controlChange (dataBits controller) (dataBits value)) := by
  simp [routed?, isFiltered, channel?, isPanic, command, Except.toOption]

/-- Cutting the data of a message makes no difference if the message is settled, and makes one
otherwise. -/
theorem routed?_cut_iff (h : e.Encodable) :
    e.cut.routed? table = e.routed? table ↔ e.Settled := by
  cases e with
  | noteOn channel pitch velocity =>
    by_cases hzero : dataBits velocity = 0
    · rw [cut, if_pos hzero, routed?_noteOff, routed?_noteOn, dataBits_dataBits, Settled]
      rcases (dataBits_eq_zero_iff velocity).mp hzero with rfl | rfl
      · simp
      · by_cases hchannel : channel = percussionChannel <;> simp [hchannel]
    · have hvelocity : velocity ≠ 0 ∧ velocity ≠ 128 :=
        not_or.mp ((dataBits_eq_zero_iff velocity).not.mp hzero)
      rw [cut, if_neg hzero, routed?_noteOn, routed?_noteOn, dataBits_dataBits, dataBits_dataBits,
        Settled]
      simp [hzero, hvelocity]
  | noteOff channel pitch velocity =>
    simp [cut, routed?_noteOff, dataBits_dataBits, Settled]
  | controlChange channel controller value =>
    rw [cut, routed?_controlChange, routed?_controlChange, dataBits_dataBits, dataBits_dataBits,
      Settled]
    have hpanic := isPanicController_dataBits_iff controller
    by_cases hcut : isPanicController (dataBits controller) = true
    · rcases hpanic.mp hcut with hsame | rfl | rfl
      · have hother : controller ≠ 248 ∧ controller ≠ 251 := by
          constructor <;> rintro rfl <;> cases hsame
        simp [hcut, hsame, hother]
      · simp [hcut, show isPanicController 248 = false from rfl]
      · simp [hcut, show isPanicController 251 = false from rfl]
    · obtain ⟨hsame, hother⟩ := not_or.mp (hpanic.not.mp hcut)
      simp [hcut, hsame, not_or.mp hother]
  | pitchWheel channel value => simp [cut, Settled]
  | _ => exact h.elim

end Event

/-! ### Entries -/

namespace Handle

/-- Everything that a handle keeps besides its log. -/
def unlogged (h : Handle) : Handle := { h with log := .empty 0 }

/-- The handle after a command was queued, or as it was. -/
def taking (h : Handle) : Option Command → Handle
  | some command =>
    { h.keep command with commands := ⟨h.commands.capacity, h.commands.items ++ [command]⟩ }
  | none => h

variable {h : Handle} {first second : Option Command}

/-- Handles that took different commands differ. -/
theorem unlogged_taking_inj :
    (h.taking first).unlogged = (h.taking second).unlogged ↔ first = second := by
  refine ⟨fun heq => ?_, fun heq => heq ▸ rfl⟩
  have hitems (c : Option Command) : (h.taking c).unlogged.commands.items =
      h.commands.items ++ c.toList := by
    cases c with
    | none => exact (List.append_nil _).symm
    | some command => rfl
  have hlists : first.toList = second.toList := by
    have hsame : (h.taking first).unlogged.commands.items =
        (h.taking second).unlogged.commands.items := by rw [heq]
    rw [hitems, hitems] at hsame
    exact List.append_cancel_left hsame
  simpa using congrArg List.head? hlists

theorem unlogged_send (h : Handle) (e : Event) :
    (h.send e).value.2.unlogged = (h.taking (h.admitted? e)).unlogged := by
  cases hadmitted : h.admitted? e with
  | none => rw [send_of_not_admitted hadmitted, taking]
  | some command =>
    rw [send_of_admitted hadmitted]
    rfl

theorem unlogged_midiMessage (h : Handle) (bytes : List UInt8) :
    (h.midiMessage bytes).value.unlogged =
      (h.taking ((HostCall.midi bytes).event?.bind h.admitted?)).unlogged := by
  rw [HostCall.event?, midiMessage]
  cases (MidiMessage.parse? bytes).bind MidiMessage.toEvent? with
  | none => rfl
  | some event => rw [value_post, unlogged_send, Option.bind_some]

/-- Whether a handle takes any event at all. -/
def isOpen (h : Handle) : Bool := !h.destroyed && !h.commands.isFull

theorem admitted?_eq (h : Handle) (e : Event) :
    h.admitted? e = if h.isOpen then e.routed? h.table else none := by
  cases hdestroyed : h.destroyed <;> cases hfull : h.commands.isFull <;>
    simp [admitted?, isOpen, Event.routed?, hdestroyed, hfull]

/-- A channel message does the same as its bytes if the handle takes nothing, or if the message is
settled, and never otherwise. -/
theorem unlogged_post_eq_iff (h : Handle) {e : Event} (hencodable : e.Encodable) :
    (h.post e).value.unlogged = (h.midiMessage e.bytes).value.unlogged ↔
      h.isOpen = true → e.Settled := by
  rw [value_post, unlogged_send, unlogged_midiMessage, unlogged_taking_inj]
  cases hopen : h.isOpen with
  | false =>
    have hnone : h.admitted? = fun _ => none := funext fun event => by
      rw [admitted?_eq, hopen, if_neg Bool.false_ne_true]
    simp [hnone]
  | true =>
    have hrouted : h.admitted? = Event.routed? h.table := funext fun event => by
      rw [admitted?_eq, hopen, if_pos rfl]
    rw [hrouted, Event.routed?_bytes hencodable, eq_comm, Event.routed?_cut_iff hencodable]
    simp

/-- A note on the first channel does the same as its bytes. -/
theorem unlogged_post_noteOn :
    ((Handle.create (.empty true) 1 1).post (.noteOn 0 60 100)).value.unlogged =
      ((Handle.create (.empty true) 1 1).midiMessage [0x90, 60, 100]).value.unlogged := by
  have hchannel : (0 : UInt8) < 16 := by decide
  have hsettled : (Event.noteOn 0 60 100).Settled := fun hvelocity => absurd hvelocity (by decide)
  exact (unlogged_post_eq_iff _ (e := .noteOn 0 60 100) hchannel).mpr fun _ => hsettled

/-- A note with velocity 128 begins if it is sent, and ends if its bytes are passed on. Controller
248 on the percussion channel is filtered if it is sent, and silences every voice if its bytes are
passed on. -/
theorem unlogged_post_ne_midiMessage :
    ((Handle.create (.empty true) 1 1).post (.noteOn 0 60 128)).value.unlogged ≠
        ((Handle.create (.empty true) 1 1).midiMessage [0x90, 60, 128]).value.unlogged ∧
      ((Handle.create (.empty true) 1 1).post (.controlChange 9 248 0)).value.unlogged ≠
        ((Handle.create (.empty true) 1 1).midiMessage [0xb9, 248, 0]).value.unlogged := by
  decide

end Handle

end DspHost
