import DspHost.Proofs.Engine.Status

/-!
# Blocks that are skipped

A block whose buffers do not suffice takes the pending commands and does nothing else. So a host
that has such blocks between its other calls is only ahead with its commands: it has applied some
that are still pending without these blocks. Applying commands in two parts is applying them at
once, and the next block that both runs have catches up, whatever it comes to.

Two runs are compared call by call. Of every call that both have, the answer is seen and the control
end without its queue; after a block both ends are seen whole, with the voices, the arena, the
number of rendered blocks and the readbacks.

## Main definitions

* `Processor.Applied` — commands are applied without a teardown or a fault among them
* `Session.Ahead` — a session has applied commands that are pending in another one
* `RunStep`, `commonCalls` — the calls of a run, with the blocks that only this run has
* `Session.Seen`, `Session.seenBy`, `Session.seenBetween` — what is seen of the common calls

## Main results

* `Processor.Applied.drainList_append` — taking commands in two parts is taking them at once
* `Session.Ahead.process` — a block of both runs comes to the same, and nobody is ahead after it
* `Session.Ahead.skipped` — a block that is skipped is only ahead
* `Session.seenBetween_eq_seenBy` — blocks that are skipped are not seen
-/

namespace DspHost

/-! ### Applying commands -/

namespace Processor

variable {p p' p'' : Processor}

/-- Commands are applied one after the other, with no teardown and no fault among them. -/
inductive Applied : Processor → List Command → Processor → Prop
  | nil (p : Processor) : Applied p [] p
  | cons {p p' p'' : Processor} {command : Command} {rest : List Command}
      (live : command ≠ .destroy) (happly : p.apply command = (.ok (), p'))
      (more : Applied p' rest p'') : Applied p (command :: rest) p''

theorem Applied.append {first second : List Command} (h : Applied p first p')
    (h' : Applied p' second p'') : Applied p (first ++ second) p'' := by
  induction h with
  | nil => exact h'
  | cons live happly _ ih => exact .cons live happly (ih h')

/-- Taking commands in two parts is taking them at once. -/
theorem Applied.drainList_append {first : List Command} (h : Applied p first p')
    (second : List Command) : p.drainList (first ++ second) = p'.drainList second := by
  induction h with
  | nil => rfl
  | cons live happly _ ih =>
    rw [List.cons_append, drainList_cons happly live]
    exact ih

/-- If the processor still runs after taking commands, all of them were applied. -/
theorem applied_of_halt_drainList {commands : List Command}
    (h : (p.drainList commands).1.halt = none) :
    Applied p commands (p.drainList commands).1 ∧ (p.drainList commands).2 = [] := by
  induction commands generalizing p with
  | nil => exact ⟨.nil p, rfl⟩
  | cons command rest ih =>
    by_cases hdestroy : command = .destroy
    · subst hdestroy
      cases h
    · rcases happly : p.apply command with ⟨fault | _, p'⟩
      · rw [drainList_cons_of_fault happly] at h
        cases h
      · rw [drainList_cons happly hdestroy] at h ⊢
        obtain ⟨hrest, hnone⟩ := ih h
        exact ⟨.cons hdestroy happly hrest, hnone⟩

/-- Applying commands changes the arena and the voices. -/
theorem Applied.exists_eq {commands : List Command} (h : Applied p commands p') :
    ∃ arena voices, p' = { p with arena, voices } := by
  induction h with
  | nil p => exact ⟨p.arena, p.voices, rfl⟩
  | @cons p p' p'' command rest live happly _ ih =>
    obtain ⟨arena, voices, hframe⟩ := p.exists_apply_eq live
    rw [happly] at hframe
    obtain ⟨arena', voices', rfl⟩ := ih
    exact ⟨arena', voices', by rw [show p' = _ from hframe]⟩

theorem allNotesOff_withReadbacks (p : Processor) (readbacks : Queue Readback) :
    ({ p with readbacks } : Processor).allNotesOff = { p.allNotesOff with readbacks } := by
  obtain ⟨plan, table, kernel, effect, arena, voices, halt, interval, rendered, old⟩ := p
  cases voices with
  | none => rfl
  | some voices =>
    simp only [allNotesOff, foldl_writeKey_eq]
    rfl

/-- A command does not ask for readbacks. -/
theorem apply_withReadbacks (p : Processor) (readbacks : Queue Readback) (command : Command) :
    ({ p with readbacks } : Processor).apply command =
      ((p.apply command).1, { (p.apply command).2 with readbacks }) := by
  cases command with
  | noteOn pitch velocity =>
    obtain ⟨plan, table, kernel, effect, arena, voices, halt, interval, rendered, old⟩ := p
    simp only [apply, noteOn]
    rcases voices.bind (·.noteOn? pitch) with _ | ⟨index, region, voices⟩
    · rfl
    · dsimp only
      rcases (kernel.clear region.offset).run arena with ⟨fault | _, arena⟩
      · rfl
      · simp only [startVoice_eq]
        rfl
  | noteOff pitch =>
    obtain ⟨plan, table, kernel, effect, arena, voices, halt, interval, rendered, old⟩ := p
    cases voices with
    | none => rfl
    | some voices =>
      simp only [apply, noteOff]
      rcases (voices.noteOff pitch).1.bind ((voices.noteOff pitch).2.voices[·]?) with _ | voice
      · rfl
      · simp only [writeKey_eq]
        rfl
  | controlChange controller value =>
    simp only [apply, controlChange]
    split
    · rw [allNotesOff_withReadbacks]
      rfl
    · rfl
  | allNotesOff => exact congrArg (Prod.mk _) (allNotesOff_withReadbacks _ _)
  | _ => rfl

theorem Applied.withReadbacks {commands : List Command} (h : Applied p commands p')
    (readbacks : Queue Readback) :
    Applied { p with readbacks } commands { p' with readbacks } := by
  induction h with
  | nil p => exact .nil _
  | @cons p p' p'' command rest live happly _ ih =>
    refine .cons live ?_ ih
    rw [apply_withReadbacks, happly]

/-- A block comes to the same if some of its commands were applied before. -/
theorem Applied.process_eq {pending : List Command} (h : Applied p pending p')
    (hrunning : p.isStopped = false) (rest : List Command) (capacity : ℕ)
    (inputs outputs : HostBlock) (automation : List Automation) :
    p.process ⟨capacity, pending ++ rest⟩ inputs outputs automation =
      p'.process ⟨capacity, rest⟩ inputs outputs automation := by
  have hhalt : p'.isStopped = p.isStopped := by
    obtain ⟨_, _, rfl⟩ := h.exists_eq
    rfl
  unfold process drain
  rw [hhalt, hrunning, h.drainList_append rest, if_neg Bool.false_ne_true,
    if_neg Bool.false_ne_true]

end Processor

/-! ### Sending -/

namespace Handle

variable {h : Handle} {pending rest : List Command}

/-- The handle with other commands in its queue. -/
def withPending (h : Handle) (commands : List Command) : Handle :=
  { h with commands := ⟨h.commands.capacity, commands⟩ }

/-- Where there is room, an event is sent alike whether or not some of the commands before it were
taken. -/
theorem send_withPending (hitems : h.commands.items = pending ++ rest)
    (hroom : h.commands.isFull = false) (event : Event) :
    ((h.withPending rest).send event).value.1 = (h.send event).value.1 ∧
      ∃ rest', (h.send event).value.2.commands.items = pending ++ rest' ∧
        ((h.withPending rest).send event).value.2 =
          (h.send event).value.2.withPending rest' := by
  -- The queue is looked at last, and only for an event that has a command; whatever else happens to
  -- an event happens without it.
  by_cases hdestroyed : h.destroyed = true
  · rw [send_destroyed hdestroyed, send_destroyed (h := h.withPending rest) hdestroyed]
    exact ⟨rfl, rest, hitems, rfl⟩
  · by_cases hfiltered : event.isFiltered = true
    · have hidle (h' : Handle) (hlive : ¬h'.destroyed = true) :
          (h'.send event).value = (.ok (), h') := by
        rw [send, if_neg hlive, if_pos hfiltered]
      rw [hidle h hdestroyed, hidle (h.withPending rest) hdestroyed]
      exact ⟨rfl, rest, hitems, rfl⟩
    · cases hcommand : event.command h.table with
      | error error =>
        have hidle (h' : Handle) (hlive : ¬h'.destroyed = true) (htable : h'.table = h.table) :
            (h'.send event).value = (.error error, h') := by
          rw [send, if_neg hlive, if_neg hfiltered, htable, hcommand]
        rw [hidle h hdestroyed rfl, hidle (h.withPending rest) hdestroyed rfl]
        exact ⟨rfl, rest, hitems, rfl⟩
      | ok command =>
        have hfewer : (h.withPending rest).commands.isFull = false := by
          have hfits := of_decide_eq_false hroom
          rw [hitems, List.length_append] at hfits
          exact decide_eq_false fun hfull => hfits (hfull.trans (Nat.le_add_left _ _))
        have hlive : h.destroyed = false := Bool.not_eq_true _ ▸ hdestroyed
        have hrouted : event.isFiltered = false := Bool.not_eq_true _ ▸ hfiltered
        rw [send_of_admitted (admitted?_eq_some_iff.mpr ⟨hlive, hrouted, hroom, hcommand⟩),
          send_of_admitted (h := h.withPending rest)
            (admitted?_eq_some_iff.mpr ⟨hlive, hrouted, hfewer, hcommand⟩)]
        refine ⟨rfl, rest ++ [command], ?_, ?_⟩
        · rw [hitems, List.append_assoc]
        · cases command <;> rfl

end Handle

/-! ### Runs with additional blocks -/

/-- A call of a run that is compared with another run. -/
inductive RunStep where
  /-- A call that both runs have. -/
  | common (call : HostCall)
  /-- A block that only this run has. -/
  | extra (inputs outputs : HostBlock) (automation : List Automation)

/-- The calls that both runs have. -/
def commonCalls : List RunStep → List HostCall
  | [] => []
  | .common call :: rest => call :: commonCalls rest
  | .extra _ _ _ :: rest => commonCalls rest

/-- What the host is answered. -/
inductive Answer where
  /-- An event was sent, or it was refused. -/
  | sent (outcome : Except ControlError Unit)
  /-- A raw message has no answer. -/
  | routed
  /-- A number of readbacks were taken. -/
  | polled (count : ℕ)
  /-- A block came to something, and these are the buffers of the host. -/
  | processed (status : BlockStatus) (outputs : HostBlock)

namespace Session

/-- What is seen of a call. -/
@[ext]
structure Seen where
  /-- The answer. -/
  answer : Answer
  /-- The control end after the call, its queue left out. -/
  control : Handle
  /-- Both ends, if the call is a block. -/
  ends : Option Session

/-- The answer to a call. -/
def answer (s : Session) : HostCall → Answer
  | .send event => .sent (s.handle.send event).value.1
  | .midi _ => .routed
  | .poll => .polled s.poll.1
  | .process inputs outputs automation =>
    .processed (s.process inputs outputs automation).1 (s.process inputs outputs automation).2.1

/-- What is seen of a call. -/
def seen (s : Session) (call : HostCall) : Seen where
  answer := s.answer call
  control := (s.act call).handle.withPending []
  ends :=
    match call with
    | .process _ _ _ => some (s.act call)
    | _ => none

/-- What is seen of the calls of a run. -/
def seenBy (s : Session) : List HostCall → List Seen
  | [] => []
  | call :: rest => s.seen call :: (s.act call).seenBy rest

/-- What is seen of the common calls of a run that has additional blocks between them. -/
def seenBetween (s : Session) : List RunStep → List Seen
  | [] => []
  | .common call :: rest => s.seen call :: (s.act call).seenBetween rest
  | .extra inputs outputs automation :: rest =>
    (s.act (.process inputs outputs automation)).seenBetween rest

/-- Every event of a run finds room in the queue. -/
def FindsRoom (s : Session) : List HostCall → Prop
  | [] => True
  | call :: rest =>
    (call.event?.isSome → s.handle.commands.isFull = false) ∧ (s.act call).FindsRoom rest

/-- Every additional block of a run is skipped. -/
def SkipsExtra (s : Session) : List RunStep → Prop
  | [] => True
  | .common call :: rest => (s.act call).SkipsExtra rest
  | .extra inputs outputs automation :: rest =>
    (s.process inputs outputs automation).1 = .skipped ∧
      (s.act (.process inputs outputs automation)).SkipsExtra rest

variable {s t : Session}

/-! ### Being ahead -/

/-- A session has applied commands that are pending in another one, and is like it otherwise. -/
inductive Ahead (s : Session) : Session → Prop
  /-- Nothing was applied. -/
  | refl : Ahead s s
  /-- The first of the pending commands were applied. -/
  | applied {pending rest : List Command} {p' : Processor}
      (running : s.processor.isStopped = false)
      (items : s.handle.commands.items = pending ++ rest)
      (applied : s.processor.Applied pending p') : Ahead s ⟨p', s.handle.withPending rest⟩

theorem Ahead.control_eq (h : Ahead s t) : t.handle.withPending [] = s.handle.withPending [] := by
  cases h <;> rfl

/-- Sending an event leaves the one ahead as far ahead as it was. -/
theorem Ahead.send (h : Ahead s t) (event : Event) (hroom : s.handle.commands.isFull = false) :
    t.answer (.send event) = s.answer (.send event) ∧
      Ahead (s.act (.send event)) (t.act (.send event)) := by
  cases h with
  | refl => exact ⟨rfl, .refl⟩
  | @applied pending rest p' running items applied =>
    obtain ⟨houtcome, rest', hitems, hhandle⟩ := Handle.send_withPending items hroom event
    refine ⟨congrArg Answer.sent houtcome, ?_⟩
    change Ahead _ ⟨p', ((s.handle.withPending rest).send event).value.2⟩
    rw [hhandle]
    exact .applied running hitems applied

theorem Ahead.midi (h : Ahead s t) {bytes : List UInt8}
    (hroom : (HostCall.midi bytes).event?.isSome → s.handle.commands.isFull = false) :
    Ahead (s.act (.midi bytes)) (t.act (.midi bytes)) := by
  cases hevent : (HostCall.midi bytes).event? with
  | none =>
    rw [s.act_midi_of_none hevent, t.act_midi_of_none hevent]
    exact h
  | some event =>
    rw [s.act_midi hevent, t.act_midi hevent]
    rw [hevent] at hroom
    exact (h.send event (hroom rfl)).2

/-- Readbacks wait for blocks that are rendered, so none of them are missing. -/
theorem Ahead.poll (h : Ahead s t) :
    t.answer .poll = s.answer .poll ∧ Ahead (s.act .poll) (t.act .poll) := by
  cases h with
  | refl => exact ⟨rfl, .refl⟩
  | @applied pending rest p' running items applied =>
    have hreadbacks : p'.readbacks = s.processor.readbacks := by
      obtain ⟨_, _, rfl⟩ := applied.exists_eq
      rfl
    refine ⟨?_, ?_⟩
    · simp only [answer, Session.poll, hreadbacks]
    · have hlater := applied.withReadbacks s.processor.readbacks.clear
      simp only [act, Session.poll, hreadbacks]
      exact .applied running items hlater

/-- A block of both comes to the same, and nobody is ahead after it. -/
theorem Ahead.process (h : Ahead s t) (inputs outputs : HostBlock) (automation : List Automation) :
    t.process inputs outputs automation = s.process inputs outputs automation := by
  cases h with
  | refl => rfl
  | @applied pending rest p' running items applied =>
    have hblock := applied.process_eq running rest s.handle.commands.capacity inputs outputs
      automation
    rw [← items] at hblock
    unfold Session.process
    dsimp only [Handle.withPending]
    rw [← hblock]

/-- A block that is skipped has applied all that was pending, and has done nothing else. -/
theorem applied_of_skipped {inputs outputs : HostBlock} {automation : List Automation}
    (h : (t.process inputs outputs automation).1 = .skipped) :
    ∃ p', t.processor.isStopped = false ∧ t.processor.Applied t.handle.commands.items p' ∧
      t.act (.process inputs outputs automation) = ⟨p', t.handle.withPending []⟩ := by
  have hrunning : ¬t.processor.isStopped = true := by
    intro hstopped
    rw [process_of_isStopped hstopped] at h
    cases h
  have hhalt : t.drained.processor.halt = none := by
    obtain ⟨⟨status, outputs', p'⟩, houtcome, hprocess⟩ :=
      process_of_running hrunning inputs outputs automation
    rw [hprocess] at h
    cases houtcome with
    | skipped hhalt => exact hhalt
    | _ => cases h
  obtain ⟨happlied, hnone⟩ := Processor.applied_of_halt_drainList hhalt
  refine ⟨_, Bool.not_eq_true _ ▸ hrunning, happlied, ?_⟩
  have hqueue : (t.processor.drain t.handle.commands).2 = ⟨t.handle.commands.capacity, []⟩ :=
    congrArg (Queue.mk _) hnone
  rw [act, (t.tells_process inputs outputs automation).skipped h, drained, hqueue]
  rfl

/-- A block that is skipped only goes further ahead. -/
theorem Ahead.skipped (h : Ahead s t) {inputs outputs : HostBlock} {automation : List Automation}
    (hskipped : (t.process inputs outputs automation).1 = .skipped) :
    Ahead s (t.act (.process inputs outputs automation)) := by
  obtain ⟨p', hrunning, happlied, hafter⟩ := applied_of_skipped hskipped
  rw [hafter]
  cases h with
  | refl => exact .applied hrunning (List.append_nil _).symm happlied
  | @applied pending rest p running items applied =>
    refine .applied running ?_ (applied.append happlied)
    rw [items, List.append_nil]
    rfl

/-- What both runs see of a call is the same, and the one ahead stays ahead at most. -/
theorem Ahead.act (h : Ahead s t) (call : HostCall)
    (hroom : call.event?.isSome → s.handle.commands.isFull = false) :
    t.seen call = s.seen call ∧ Ahead (s.act call) (t.act call) := by
  -- The answers are compared call by call; what is seen of the control end follows from being
  -- ahead.
  have hseen (hanswer : t.answer call = s.answer call)
      (hends : (t.seen call).ends = (s.seen call).ends)
      (hahead : Ahead (s.act call) (t.act call)) :
      t.seen call = s.seen call ∧ Ahead (s.act call) (t.act call) :=
    ⟨Seen.ext hanswer hahead.control_eq hends, hahead⟩
  cases call with
  | send event =>
    obtain ⟨hanswer, hahead⟩ := h.send event (hroom rfl)
    exact hseen hanswer rfl hahead
  | midi bytes => exact hseen rfl rfl (h.midi hroom)
  | poll =>
    obtain ⟨hanswer, hahead⟩ := h.poll
    exact hseen hanswer rfl hahead
  | process inputs outputs automation =>
    have hblock := h.process inputs outputs automation
    have hsame : t.act (.process inputs outputs automation) =
        s.act (.process inputs outputs automation) := congrArg (·.2.2) hblock
    refine hseen ?_ (congrArg some hsame) (hsame ▸ .refl)
    rw [answer, answer, hblock]

theorem Ahead.seenBetween_eq (h : Ahead s t) {steps : List RunStep}
    (hroom : s.FindsRoom (commonCalls steps)) (hskips : t.SkipsExtra steps) :
    t.seenBetween steps = s.seenBy (commonCalls steps) := by
  -- A common call moves both sessions, an additional block only the one ahead, so the induction is
  -- for all pairs of which one is ahead.
  induction steps generalizing s t with
  | nil => rfl
  | cons step rest ih =>
    cases step with
    | common call =>
      obtain ⟨hnow, hlater⟩ := hroom
      obtain ⟨hseen, hahead⟩ := h.act call hnow
      exact List.cons_eq_cons.mpr ⟨hseen, ih hahead hlater hskips⟩
    | extra inputs outputs automation =>
      obtain ⟨hskipped, hrest⟩ := hskips
      exact ih (h.skipped hskipped) hroom hrest

/-- Blocks that are skipped are not seen. Where every event finds room, a run that has such blocks
between its calls answers the other calls like the run without them, and after each of their blocks
both ends are the same. -/
theorem seenBetween_eq_seenBy {steps : List RunStep} (hroom : s.FindsRoom (commonCalls steps))
    (hskips : s.SkipsExtra steps) : s.seenBetween steps = s.seenBy (commonCalls steps) :=
  Ahead.refl.seenBetween_eq hroom hskips

/-! ### The organ -/

/-- A block whose buffers do not suffice is skipped, unless a pending command stops the
processor. -/
theorem status_of_not_fitsBlock {inputs outputs : HostBlock} (automation : List Automation)
    (hrunning : s.processor.isStopped = false) (hhalt : s.drained.processor.halt = none)
    (hshort : s.drained.processor.fitsBlock inputs outputs = false) :
    (s.process inputs outputs automation).1 = .skipped := by
  have hdrained : s.drained.processor.processDrained inputs outputs automation =
      (.skipped, outputs, s.drained.processor) := by
    rw [Processor.processDrained, hhalt]
    exact if_neg (ne_true_of_eq_false hshort)
  rw [process_eq_of_running (ne_true_of_eq_false hrunning), hdrained]

/-- The organ with eight voices: the host has no buffers for a block between two movements of a
controller, and then it has. -/
theorem seenBetween_eq_seenBy_organ : ∃ s, (attach organModule organConfig).value = .ok s ∧
    let steps : List RunStep := [.common (.send (.controlChange 0 74 64)), .extra [] [] [],
      .common (.send (.controlChange 0 74 32)), .common (.process [] (.silence 1 128) [])]
    s.FindsRoom (commonCalls steps) ∧ s.SkipsExtra steps ∧
      s.seenBetween steps = s.seenBy (commonCalls steps) := by
  obtain ⟨plan, arena, hattach, -⟩ := attach_organ
  have houtputs : plan.outputs = 1 := by
    obtain ⟨width, plan', arena', hplan, -, hsame⟩ := attach_eq_ok hattach
    obtain rfl : plan = plan' := congrArg (·.processor.plan) hsame
    exact (LayoutRequest.answeredBy_of_plan hplan).outputs
  refine ⟨_, hattach, ?_⟩
  intro steps
  have hroom : (connect organModule organConfig plan arena).FindsRoom (commonCalls steps) :=
    ⟨fun _ => rfl, fun _ => rfl, fun h => (Bool.false_ne_true h).elim, trivial⟩
  have hskipped : (((connect organModule organConfig plan arena).act
      (.send (.controlChange 0 74 64))).process [] [] []).1 = .skipped := by
    refine status_of_not_fitsBlock [] rfl rfl ?_
    have hcovers : HostBlock.covers [] plan.outputs plan.blockLength = false := by
      rw [houtputs]
      rfl
    exact Bool.and_eq_false_iff.mpr (.inr hcovers)
  have hskips : (connect organModule organConfig plan arena).SkipsExtra steps :=
    ⟨hskipped, trivial⟩
  exact ⟨hroom, hskips, seenBetween_eq_seenBy hroom hskips⟩

end Session

end DspHost
