import Kulua.Audio.Session

/-! What the audio task follows and what the link waits for. A drive whose command the socket
does not take ends the session; a stall retry whose command it does not take goes on without
its plan published. -/

namespace Kulua.Audio.Session
open Foundation Foundation.Run

/-- The published plan, the link's, and that of the newest command are one. -/
def Published (s : Session) : Prop :=
  s.plan.value = s.link.plan ∧ ∀ m ∈ s.handed.getLast?, m = Agreement.setAudio s.link.plan

instance (s : Session) : Decidable s.Published := inferInstanceAs (Decidable (_ ∧ _))

/-- The runner is in a tick. -/
def inTick (s : Session) : Bool :=
  match s.runner with
  | .ticking .. | .sending .. | .publishing .. | .polling .. => true
  | _ => false

/-- The step ends a tick and not the session. -/
def EndsTick (s : Session) (a : Action) : Prop :=
  s.inTick = true ∧ (s.act a).runner = .waiting

instance (s : Session) (a : Action) : Decidable (s.EndsTick a) := inferInstanceAs (Decidable (_ ∧ _))

/-- The socket does not take the command of a stall retry. -/
def PassesOver (s : Session) (a : Action) : Prop :=
  a = .sendCtrl false ∧
    ∃ now frames issue, s.runner = .sending now frames issue ∧ issue.reason = .stall

/-- The invariant, while no stall retry was passed over. A command that the reliable sender
has is published next. -/
structure InStep (s : Session) : Prop where
  ordered : s.Ordered
  settled : s.runner.issue? = none → s.runner ≠ .ended → s.Published
  registered : ∀ now frames issue, s.runner = .publishing now frames issue →
    s.handed.getLast? = some (Agreement.setAudio s.link.plan)

theorem inStep_init (target : AudioTarget) (now : Nat) : (init target now).InStep where
  ordered := ordered_init target now
  settled _ _ := ⟨rfl, by simp [init]⟩
  registered := by simp [init]

variable {s : Session}

theorem InStep.quiet (h : s.InStep) (hrunner : s.runner.issue? = none) (hrunning : s.runner ≠ .ended)
    {link : Link} (hadvances : Link.Advances s.link link none) :
    Published { s with link := link } := by
  have hplan : link.plan = s.link.plan := hadvances
  have hpublished := h.settled hrunner hrunning
  unfold Published at hpublished ⊢
  rwa [hplan]

theorem inStep_act (h : s.InStep) {a : Action} (hpass : ¬s.PassesOver a) : (s.act a).InStep := by
  have hordered := ordered_act h.ordered a
  have hmove := s.moves a
  generalize s.act a = next at hmove hordered ⊢
  refine { ordered := hordered, settled := ?_, registered := ?_ }
  · cases hmove with
    | driveIssue | retryIssue | sent => simp [Runner.issue?]
    | cutOff | stop => simp
    | passedOver hrunner hreason => exact absurd ⟨rfl, _, _, _, hrunner, hreason⟩ hpass
    | driveQuiet hrunner hissue =>
      intro _ _
      exact h.quiet (by simp [hrunner, Runner.issue?]) (by simp [hrunner])
        (hissue ▸ Link.advances_drive ..)
    | retryQuiet hrunner hissue =>
      intro _ _
      exact h.quiet (by simp [hrunner, Runner.issue?]) (by simp [hrunner])
        (hissue ▸ Link.advances_pollStallRetry ..)
    | audioState hrunner =>
      intro _ _
      exact h.quiet (by simp [hrunner, Runner.issue?]) (by simp [hrunner]) (Link.onState_plan ..)
    | publish hrunner hnext =>
      intro _ _
      obtain ⟨hplan, -⟩ := h.ordered.issued _ (by rw [hrunner]; rfl)
      refine ⟨hplan, fun m hm => ?_⟩
      have hlast := h.registered _ _ _ hrunner
      simpa [hlast, eq_comm] using hm
    | tick hrunner | mediaConfig hrunner | audio hrunner | forward hrunner =>
      intro _ _
      exact h.settled (by simp [hrunner, Runner.issue?]) (by simp [hrunner])
    | idle | startTask | pollPending | pollReady | borrow | recvEmpty | recvFed | recvUnfed | count =>
      exact h.settled
  · cases hmove with
    | sent hrunner =>
      intro _ _ _ _
      obtain ⟨hplan, -⟩ := h.ordered.issued _ (by rw [hrunner]; rfl)
      simp [hplan]
    | publish hrunner hnext => rcases hnext with rfl | rfl <;> simp
    | audioState hrunner => simp [hrunner]
    | tick | driveIssue | driveQuiet | passedOver | cutOff | retryIssue | retryQuiet | mediaConfig
    | audio | forward | stop => simp
    | idle | startTask | pollPending | pollReady | borrow | recvEmpty | recvFed | recvUnfed | count =>
      exact h.registered

/-- A stall retry that is passed over leaves the plan behind. -/
theorem Ordered.not_published_of_passesOver (h : s.Ordered) {a : Action} (hpass : s.PassesOver a) :
    s.EndsTick a ∧ ¬(s.act a).Published := by
  obtain ⟨rfl, now, frames, issue, hrunner, hreason⟩ := hpass
  have hact : s.act (.sendCtrl false) =
      { s with handed := s.handed ++ [Agreement.setAudio issue.plan], runner := .waiting } := by
    simp [act, sendCtrl, hrunner, hreason]
  obtain ⟨-, hlt⟩ := h.issued issue (by rw [hrunner]; rfl)
  refine ⟨⟨by simp [inTick, hrunner], by rw [hact]⟩, fun hpublished => ?_⟩
  rw [hact] at hpublished
  rw [hpublished.1] at hlt
  exact lt_irrefl _ hlt

/-- After each tick that does not end the session the published plan is the link's and that of
the newest command, as long as no send of a stall retry fails, and only then. -/
theorem published_after_ticks_iff (target : AudioTarget) (now : Nat) (actions : List Action) :
    Along act (fun s a => s.EndsTick a → (s.act a).Published) (init target now) actions ↔
      Along act (fun s a => ¬s.PassesOver a) (init target now) actions := by
  refine along_iff_of_kept (I := InStep) (fun s a h hpass => inStep_act h hpass) ?_
    (inStep_init target now) actions
  intro s a h
  constructor
  · intro hticks hpass
    obtain ⟨hends, hnot⟩ := h.ordered.not_published_of_passesOver hpass
    exact hnot (hticks hends)
  · intro hpass hends
    exact (inStep_act h hpass).settled (by rw [hends.2]; rfl) (by simp [hends.2])

/-- Audio is on and stalls; the retry 10 s later finds the network down. -/
def networkDown : List Action :=
  let target : AudioTarget := ⟨true, 0⟩
  [.audioState 0 true (codecIdFor .raw) "",
    .tick (3 * second) target, .drive, .pollStallRetry,
    .tick (13 * second) target, .drive, .pollStallRetry, .sendCtrl false]

theorem published_after_ticks_network_down :
    ¬Along act (fun s a => s.EndsTick a → (s.act a).Published) (init ⟨true, 0⟩ 0) networkDown := by
  decide

end Kulua.Audio.Session
