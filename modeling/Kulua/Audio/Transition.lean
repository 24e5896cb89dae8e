import Kulua.Audio.Timeline
import Kulua.Foundation.Schedule

/-! A link that is starting or stopping: where it awaits a receipt, it comes to an end without one,
and it awaits one unless it is as the session has set it up. -/

namespace Kulua.Audio
open Foundation

namespace Link

def next (self : Link) (op : LinkOp) : Link := (self.act op).1

/-- STARTING or STOPPING. -/
def Switching (self : Link) : Prop := self.runtime.state = .starting ∨ self.runtime.state = .stopping

instance (self : Link) : Decidable self.Switching := inferInstanceAs (Decidable (_ ∨ _))

/-- No receipt, no frame and no other target. -/
def Quiet (target : AudioTarget) (frames : Nat) : LinkOp → Prop
  | .drive _ target' frames' => target' = target ∧ frames' = frames
  | .onState .. => False
  | .pollStallRetry _ => True

/-- A link that is switching has a retry to come: a drive issues it once it is due. And if
nothing but drives and polls come, whatever their times, it has failed in the end. -/
def NotStuck (self : Link) : Prop :=
  self.Switching → ∃ tried retryAt, self.pending = some (tried, retryAt) ∧
    (∀ now, retryAt ≤ now → tried < maxRetries →
      (self.drive now self.applied self.lastFrames).2.issue =
        some ⟨⟨self.plan.revision + 1, self.applied.enabled, self.applied.codec⟩, .retry⟩) ∧
    ∀ ops : Nat → LinkOp, (∀ n, Quiet self.applied self.lastFrames (ops n)) →
      (∀ t n, ∃ m, n ≤ m ∧ ∃ now, t ≤ now ∧ ops m = .drive now self.applied self.lastFrames) →
        ∃ n, (Schedule.state next self ops n).runtime.state = .failed

/-- A link that is switching awaits a receipt. -/
def Accounted (self : Link) : Prop := self.Switching → self.pending ≠ none

/-- A link that awaits a receipt, with the target and the frame count that it knows. -/
structure Waiting (target : AudioTarget) (frames : Nat) (self : Link) : Prop where
  switching : self.Switching
  pending : self.pending ≠ none
  applied : self.applied = target
  lastFrames : self.lastFrames = frames

/-- The retries that are left, each stall retry with those of its own. -/
def retriesLeft (self : Link) : Nat :=
  (match self.stalled with
    | none => 0
    | some (count, _) => (maxRetries - count) * (maxRetries + 1)) +
    match self.pending with
    | none => 0
    | some (tried, _) => maxRetries - tried

variable {self : Link} {target : AudioTarget} {frames : Nat}

theorem noteProgress_of_switching (h : self.Switching) (now : Nat) :
    (self.noteProgress now self.lastFrames).1 = self := by
  have hoff : self.runtime.state ≠ .on := by
    obtain h | h := h <;> simp [h]
  simp [noteProgress, hoff]

theorem waiting_issue (now : Nat) (reason : Reason) (tried : Nat) :
    Waiting target self.lastFrames (self.issue now target reason tried).1 where
  switching := by cases h : target.enabled <;> simp [Switching, h]
  pending := by simp
  applied := by simp
  lastFrames := by simp

/-- A quiet operation does nothing, fails the link or uses up a retry. -/
theorem Waiting.next (h : Waiting target frames self) {op : LinkOp} (quiet : Quiet target frames op) :
    self.next op = self ∨ (self.next op).runtime.state = .failed ∨
      Waiting target frames (self.next op) ∧ (self.next op).retriesLeft < self.retriesLeft := by
  obtain ⟨hswitching, hpending, rfl, rfl⟩ := h
  cases op with
  | drive now target' frames' =>
    obtain ⟨rfl, rfl⟩ := quiet
    rw [Link.next, act_drive, noteProgress_of_switching hswitching]
    obtain ⟨htarget, -⟩ | ⟨-, -, heq⟩ | ⟨-, tried, at_, error, -, -, -, heq⟩ |
        ⟨-, tried, at_, hsome, -, hlast, heq⟩ := self.decide_cases now self.applied <;>
      try rw [heq]
    · exact absurd rfl htarget
    · exact .inl rfl
    · exact .inr (.inl rfl)
    · refine .inr (.inr ⟨waiting_issue now .retry (tried + 1), ?_⟩)
      simp only [retriesLeft, issue_stalled, issue_fields, hsome, reduceCtorEq, if_false]
      omega
  | onState now revision enabled codecId error => exact quiet.elim
  | pollStallRetry now =>
    obtain ⟨-, heq⟩ | ⟨⟨⟨count, since⟩, hsome, hlt, -⟩, heq⟩ := self.pollStallRetry_cases now <;>
      rw [Link.next, act_pollStallRetry, heq]
    · exact .inl rfl
    · refine .inr (.inr ⟨waiting_issue now .stall 0, ?_⟩)
      have hsome' : self.stalled = some (count, since) := hsome
      simp only [retriesLeft, issue_stalled, issue_fields, hsome', if_true, Option.getD_some]
      simp only [maxRetries] at hlt ⊢
      omega

/-- A drive that is late enough does something. -/
theorem Waiting.due (h : Waiting target frames self) :
    ∃ retryAt, ∀ now, retryAt ≤ now → self.next (.drive now target frames) ≠ self := by
  obtain ⟨hswitching, hpending, rfl, rfl⟩ := h
  obtain ⟨⟨tried, retryAt⟩, hsome⟩ := Option.ne_none_iff_exists'.mp hpending
  refine ⟨retryAt, fun now hdue hsame => ?_⟩
  rw [Link.next, act_drive, noteProgress_of_switching hswitching] at hsame
  obtain ⟨htarget, -⟩ | ⟨-, hwaits, -⟩ | ⟨-, tried', at_, error, -, -, -, heq⟩ |
      ⟨-, tried', at_, -, -, -, heq⟩ := self.decide_cases now self.applied
  · exact htarget rfl
  · exact absurd (hwaits _ hsome) (not_lt.mpr hdue)
  · have := congrArg Link.pending (heq ▸ hsame)
    simp [hsome] at this
  · have := congrArg (fun l => l.plan.revision) (heq ▸ hsame)
    simp at this

theorem Waiting.fails (h : Waiting target frames self) {ops : Nat → LinkOp}
    (quiet : ∀ n, Quiet target frames (ops n))
    (drives : ∀ t n, ∃ m, n ≤ m ∧ ∃ now, t ≤ now ∧ ops m = .drive now target frames) :
    ∃ n, (Schedule.state Link.next self ops n).runtime.state = .failed := by
  have hdue : ∀ l n, Waiting target frames l → ∃ m, n ≤ m ∧ l.next (ops m) ≠ l := by
    intro l n hl
    obtain ⟨retryAt, hdue⟩ := hl.due
    obtain ⟨m, hle, now, hnow, hm⟩ := drives retryAt n
    exact ⟨m, hle, hm ▸ hdue now hnow⟩
  obtain ⟨n, -, hfailed⟩ := Schedule.eventually (n := 0) (s := self) (μ := retriesLeft)
    (G := fun l => l.runtime.state = .failed) (fun _ _ h hquiet => h.next hquiet) quiet hdue h
  exact ⟨n, hfailed⟩

theorem notStuck_iff : self.NotStuck ↔ self.Accounted := by
  refine forall_congr' fun hswitching => ⟨?_, fun hpending => ?_⟩
  · rintro ⟨tried, retryAt, hsome, -⟩
    simp [hsome]
  · obtain ⟨⟨tried, retryAt⟩, hsome⟩ := Option.ne_none_iff_exists'.mp hpending
    refine ⟨tried, retryAt, hsome, fun now hdue hlast => ?_, fun ops quiet drives => ?_⟩
    · change ((self.noteProgress now self.lastFrames).1.decide now self.applied).2 = _
      rw [noteProgress_of_switching hswitching]
      simp [decide, hsome, not_lt.mpr hdue, not_le.mpr hlast, issue]
    · exact (Waiting.mk hswitching hpending rfl rfl).fails quiet drives

theorem Accounted.of_state {l : Link} (h : self.Accounted) (hpending : l.pending = self.pending)
    (hstate : l.Switching → self.Switching) : l.Accounted := fun hl => hpending ▸ h (hstate hl)

theorem accounted_issue (now : Nat) (target : AudioTarget) (reason : Reason) (tried : Nat) :
    (self.issue now target reason tried).1.Accounted := fun _ => by simp

theorem Accounted.decide (h : self.Accounted) (now : Nat) (target : AudioTarget) :
    (self.decide now target).1.Accounted := by
  obtain ⟨-, heq⟩ | ⟨-, -, heq⟩ | ⟨-, tried, at_, error, -, -, -, heq⟩ | ⟨-, tried, at_, -, -, -, heq⟩ :=
    self.decide_cases now target <;> rw [heq]
  · exact accounted_issue now target .target 0
  · exact h
  · exact fun hswitching => by simp [Switching] at hswitching
  · exact accounted_issue now _ .retry (tried + 1)

theorem Accounted.next (h : self.Accounted) (op : LinkOp) : (self.next op).Accounted := by
  cases op with
  | drive now target frames =>
    have hnote : (self.noteProgress now frames).1.Accounted := by
      refine h.of_state (by simp) fun hl => ?_
      simp only [Switching, noteProgress_state] at hl
      split_ifs at hl <;> simp_all [Switching]
    exact hnote.decide now target
  | onState now revision enabled codecId error =>
    intro hl
    simp only [Link.next, act, Switching, onState_state] at hl
    split_ifs at hl with hold
    · simpa [Link.next, act, onState, hold] using h hl
    all_goals simp at hl
  | pollStallRetry now =>
    obtain ⟨-, heq⟩ | ⟨-, heq⟩ := self.pollStallRetry_cases now <;>
      rw [Link.next, act_pollStallRetry, heq]
    · exact h
    · exact accounted_issue now _ .stall 0

theorem Accounted.run (h : self.Accounted) (ops : List LinkOp) :
    (Run.run Link.next self ops).Accounted :=
  Run.invariant_all (fun _ op h => h.next op) h ops

/-- An operation that a link as it was set up does not pass over: a receipt, a frame or another
target. -/
def Stirs (target : AudioTarget) : LinkOp → Prop
  | .drive _ target' frames => target' ≠ target ∨ frames ≠ 0
  | .onState .. => True
  | .pollStallRetry _ => False

instance (target : AudioTarget) : DecidablePred (Stirs target)
  | .drive _ target' frames => inferInstanceAs (Decidable (target' ≠ target ∨ frames ≠ 0))
  | .onState .. => .isTrue trivial
  | .pollStallRetry _ => .isFalse id

theorem next_init_of_not_stirs {t₀ : Nat} {op : LinkOp} (h : ¬Stirs target op) :
    (init target t₀).next op = init target t₀ := by
  cases op with
  | drive now target' frames =>
    obtain ⟨htarget, hframes⟩ : target' = target ∧ frames = 0 := by simpa [Stirs] using h
    subst htarget hframes
    cases henabled : target'.enabled <;>
      simp [Link.next, init, noteProgress, Link.decide, henabled]
  | onState now revision enabled codecId error => exact absurd trivial h
  | pollStallRetry now => rfl

theorem accounted_of_stirs {t₀ : Nat} {op : LinkOp} (h : Stirs target op) :
    ((init target t₀).next op).Accounted := by
  cases op with
  | drive now target' frames =>
    obtain ⟨-, heq⟩ | ⟨htarget, -, heq⟩ | ⟨-, tried, at_, error, hpending, -⟩ |
        ⟨-, tried, at_, hpending, -⟩ :=
      ((init target t₀).noteProgress now frames).1.decide_cases now target'
    · rw [Link.next, act_drive, heq]
      exact accounted_issue now target' .target 0
    · have hframes : frames ≠ 0 := by
        rw [noteProgress_applied] at htarget
        exact h.resolve_left (not_not.mpr htarget)
      rw [Link.next, act_drive, heq]
      intro hl
      simp only [Switching, noteProgress_state, init] at hl
      cases henabled : target.enabled <;> simp [hframes, henabled] at hl
    · simp [init] at hpending
    · simp [init] at hpending
  | onState now revision enabled codecId error =>
    intro hl
    simp only [Link.next, act, Switching, onState_state, init, Nat.not_lt_zero, if_false] at hl
    split_ifs at hl <;> simp at hl
  | pollStallRetry now => exact h.elim

/-- No link is stuck in a switch, but for one that was set up with the audio on and has had
neither a receipt nor a frame nor another target since. -/
theorem no_stuck_transition_iff (target : AudioTarget) (t₀ : Nat) (ops : List LinkOp) :
    (Run.run Link.next (init target t₀) ops).NotStuck ↔
      target.enabled = false ∨ ∃ op ∈ ops, Stirs target op := by
  rw [notStuck_iff]
  cases henabled : target.enabled with
  | false =>
    have hinit : (init target t₀).Accounted := fun h => by simp [Switching, init, henabled] at h
    simp [hinit.run ops]
  | true =>
    simp only [reduceCtorEq, false_or]
    induction ops with
    | nil => simp [Accounted, Switching, init, henabled]
    | cons op ops ih =>
      by_cases hstirs : Stirs target op
      · simp [hstirs, (accounted_of_stirs hstirs).run ops]
      · simp [hstirs, next_init_of_not_stirs hstirs, ih]

/-- A session that starts with the audio on and hears nothing is starting for an hour, and awaits
nothing. -/
theorem no_stuck_transition_set_up :
    ¬(Run.run Link.next (init ⟨true, 2⟩ 0)
      [.drive 3600000000000 ⟨true, 2⟩ 0, .pollStallRetry 3600000000000]).NotStuck := by
  intro h
  obtain ⟨tried, retryAt, hpending, -⟩ := h (by decide)
  cases hpending

end Link
end Kulua.Audio
