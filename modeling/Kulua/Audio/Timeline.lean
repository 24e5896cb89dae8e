import Kulua.Audio.Link
import Kulua.Foundation.Run

/-! Runs of a `Link` against the clock: what each operation does to the fields, and what an
observer notes down of a run without reading them. -/

namespace Kulua.Audio
open Foundation

inductive LinkOp where
  | drive (now : Nat) (target : AudioTarget) (frames : Nat)
  /-- The receipt comes at the instant; `on_state` does not read the clock. -/
  | onState (now revision : Nat) (enabled : Bool) (codecId : BitVec 32) (error : String)
  | pollStallRetry (now : Nat)
  deriving DecidableEq, Repr

def LinkOp.time : LinkOp → Nat
  | .drive now _ _ | .onState now _ _ _ _ | .pollStallRetry now => now

/-- What an operation reports of `progress.frames`. -/
def LinkOp.frames? : LinkOp → Option Nat
  | .drive _ _ frames => some frames
  | _ => none

namespace Link

variable (self : Link)

def act : LinkOp → Link × Option Issue
  | .drive now target frames => ((self.drive now target frames).1, (self.drive now target frames).2.issue)
  | .onState _ revision enabled codecId error => ((self.onState revision enabled codecId error).1, none)
  | .pollStallRetry now => self.pollStallRetry now

@[simp] theorem act_drive (now : Nat) (target : AudioTarget) (frames : Nat) :
    self.act (.drive now target frames) = (self.noteProgress now frames).1.decide now target := rfl

@[simp] theorem act_pollStallRetry (now : Nat) :
    self.act (.pollStallRetry now) = self.pollStallRetry now := rfl

/-- `drive` finds a stall. -/
def Stalls (now frames : Nat) : Prop :=
  frames = self.lastFrames ∧ self.plan.enabled = true ∧ self.runtime.state = .on ∧
    stallTimeout ≤ now - self.lastProgress ∧ self.stalled = none

instance (now frames : Nat) : Decidable (self.Stalls now frames) :=
  inferInstanceAs (Decidable (_ ∧ _))

theorem noteProgress_fixed (now frames : Nat) :
    (self.noteProgress now frames).1.applied = self.applied ∧
      (self.noteProgress now frames).1.pending = self.pending ∧
      (self.noteProgress now frames).1.lastFrames = frames := by
  unfold noteProgress
  split
  · dsimp only
    split <;> exact ⟨rfl, rfl, rfl⟩
  · have hframes : self.lastFrames = frames := by tauto
    split <;> exact ⟨rfl, rfl, hframes⟩

@[simp] theorem noteProgress_applied (now frames : Nat) :
    (self.noteProgress now frames).1.applied = self.applied := (self.noteProgress_fixed now frames).1

@[simp] theorem noteProgress_pending (now frames : Nat) :
    (self.noteProgress now frames).1.pending = self.pending := (self.noteProgress_fixed now frames).2.1

@[simp] theorem noteProgress_lastFrames (now frames : Nat) :
    (self.noteProgress now frames).1.lastFrames = frames := (self.noteProgress_fixed now frames).2.2

@[simp] theorem noteProgress_lastProgress (now frames : Nat) :
    (self.noteProgress now frames).1.lastProgress =
      if frames = self.lastFrames then self.lastProgress else now := by
  unfold noteProgress
  by_cases h : frames = self.lastFrames
  · simp only [h, ne_eq, not_true_eq_false, if_false, if_true]
    split <;> rfl
  · simp only [h, ne_eq, not_false_eq_true, if_true, if_false]
    split <;> rfl

@[simp] theorem noteProgress_stalled (now frames : Nat) :
    (self.noteProgress now frames).1.stalled =
      if frames = self.lastFrames then
        if self.Stalls now frames then some (0, now) else self.stalled
      else none := by
  unfold noteProgress Stalls
  by_cases h : frames = self.lastFrames
  · simp only [h, ne_eq, not_true_eq_false, if_false, if_true, true_and]
    split <;> rfl
  · simp only [h, ne_eq, not_false_eq_true, if_true, if_false]
    split <;> rfl

@[simp] theorem noteProgress_state (now frames : Nat) :
    (self.noteProgress now frames).1.runtime.state =
      if frames = self.lastFrames then
        if self.Stalls now frames then .failed else self.runtime.state
      else if self.plan.enabled then .on else self.runtime.state := by
  unfold noteProgress Stalls
  by_cases h : frames = self.lastFrames
  · simp only [h, ne_eq, not_true_eq_false, if_false, if_true, true_and]
    split <;> rfl
  · simp only [h, ne_eq, not_false_eq_true, if_true, if_false]
    by_cases henabled : self.plan.enabled = true
    · by_cases hon : self.runtime.state = .on
      · simp [henabled, hon]
      · simp only [henabled, hon, not_false_eq_true, and_self, if_true]
        rfl
    · simp [henabled]

/-- The flag of the tick. -/
theorem drive_stalled (now : Nat) (target : AudioTarget) (frames : Nat) :
    (self.drive now target frames).2.stalled = true ↔ self.Stalls now frames := by
  change (self.noteProgress now frames).2.1 = true ↔ _
  unfold noteProgress Stalls
  by_cases h : frames = self.lastFrames
  · simp only [h, ne_eq, not_true_eq_false, if_false, true_and]
    split <;> simp [*]
  · simp only [h, ne_eq, not_false_eq_true, if_true, false_and, iff_false]
    split <;> simp

@[simp] theorem setState_fixed (state : RunState) (error : Option String) :
    (self.setState state error).applied = self.applied ∧
      (self.setState state error).pending = self.pending ∧
      (self.setState state error).stalled = self.stalled ∧
      (self.setState state error).lastFrames = self.lastFrames ∧
      (self.setState state error).lastProgress = self.lastProgress ∧
      (self.setState state error).runtime.state = state := ⟨rfl, rfl, rfl, rfl, rfl, rfl⟩

@[simp] theorem issue_fields (now : Nat) (target : AudioTarget) (reason : Reason) (tried : Nat) :
    (self.issue now target reason tried).1.applied = target ∧
      (self.issue now target reason tried).1.pending = some (tried, now + ackTimeout) ∧
      (self.issue now target reason tried).1.lastFrames = self.lastFrames ∧
      (self.issue now target reason tried).1.lastProgress = now ∧
      (self.issue now target reason tried).1.runtime.state =
        (if target.enabled then .starting else .stopping) ∧
      (self.issue now target reason tried).1.plan =
        ⟨self.plan.revision + 1, target.enabled, target.codec⟩ ∧
      (self.issue now target reason tried).2.reason = reason := ⟨rfl, rfl, rfl, rfl, rfl, rfl, rfl⟩

/-- Only a stall retry goes on counting. -/
theorem issue_stalled (now : Nat) (target : AudioTarget) (reason : Reason) (tried : Nat) :
    (self.issue now target reason tried).1.stalled =
      if reason = .stall then some ((self.stalled.getD (0, now)).1 + 1, now) else none := by
  cases reason <;> rfl

/-- No retry is due. -/
def Waits (now : Nat) : Prop := ∀ p ∈ self.pending, now < p.2

instance (now : Nat) : Decidable (self.Waits now) := by
  unfold Waits
  infer_instance

/-- A retry is due, and may still be made. -/
def Retries (now : Nat) : Prop := ∃ p ∈ self.pending, p.2 ≤ now ∧ p.1 < maxRetries

instance (now : Nat) : Decidable (self.Retries now) := by
  unfold Retries
  infer_instance

/-- What `decide` comes to: a new target, nothing to do, no receipt after the last retry, or a
retry. -/
theorem decide_cases (now : Nat) (target : AudioTarget) :
    target ≠ self.applied ∧ self.decide now target =
        ((self.issue now target .target 0).1, some (self.issue now target .target 0).2) ∨
      target = self.applied ∧ self.Waits now ∧ self.decide now target = (self, none) ∨
      (target = self.applied ∧ ∃ tried at_ error, self.pending = some (tried, at_) ∧ at_ ≤ now ∧
        maxRetries ≤ tried ∧ self.decide now target =
          ({ self with pending := none }.setState .failed (some error), none)) ∨
      (target = self.applied ∧ ∃ tried at_, self.pending = some (tried, at_) ∧ at_ ≤ now ∧
        tried < maxRetries ∧ self.decide now target =
          ((self.issue now self.applied .retry (tried + 1)).1,
            some (self.issue now self.applied .retry (tried + 1)).2)) := by
  unfold decide
  by_cases htarget : target = self.applied
  swap
  · exact .inl ⟨htarget, by simp [htarget]⟩
  right
  simp only [htarget, ne_eq, not_true_eq_false, if_false, true_and]
  cases hpending : self.pending with
  | none => exact .inl ⟨by simp [Waits, hpending], rfl⟩
  | some p =>
    obtain ⟨tried, at_⟩ := p
    dsimp only
    by_cases hdue : now < at_
    · exact .inl ⟨by simp [Waits, hpending, hdue], if_pos hdue⟩
    right
    rw [if_neg hdue]
    by_cases hlast : maxRetries ≤ tried
    · exact .inl ⟨tried, at_, _, rfl, not_lt.mp hdue, hlast, if_pos hlast⟩
    · exact .inr ⟨tried, at_, rfl, not_lt.mp hdue, not_le.mp hlast, if_neg hlast⟩

theorem decide_waits {now : Nat} {target : AudioTarget} (htarget : target = self.applied)
    (h : self.Waits now) : self.decide now target = (self, none) := by
  obtain ⟨hother, -⟩ | ⟨-, -, heq⟩ | ⟨-, tried, at_, error, hpending, hdue, -, -⟩ |
      ⟨-, tried, at_, hpending, hdue, -, -⟩ := self.decide_cases now target
  · exact absurd htarget hother
  · exact heq
  · exact absurd (h _ hpending) (not_lt.mpr hdue)
  · exact absurd (h _ hpending) (not_lt.mpr hdue)

/-- A drive leaves the link on if nothing is to be done, and frames come or no stall is found. -/
theorem drive_on (now : Nat) (target : AudioTarget) (frames : Nat) :
    ((self.act (.drive now target frames)).1.plan.enabled = true ∧
        (self.act (.drive now target frames)).1.runtime.state = .on) ↔
      (target = self.applied ∧ self.Waits now) ∧ self.plan.enabled = true ∧
        (frames = self.lastFrames → self.runtime.state = .on ∧ ¬self.Stalls now frames) := by
  have hwaits : (self.noteProgress now frames).1.Waits now ↔ self.Waits now := by simp [Waits]
  obtain ⟨htarget, heq⟩ | ⟨htarget, hwait, heq⟩ |
      ⟨htarget, tried, at_, error, hpending, hdue, hlast, heq⟩ |
      ⟨htarget, tried, at_, hpending, hdue, hlast, heq⟩ :=
    (self.noteProgress now frames).1.decide_cases now target
  · rw [noteProgress_applied] at htarget
    cases henabled : target.enabled <;> simp [heq, htarget, henabled]
  · rw [noteProgress_applied] at htarget
    rw [hwaits] at hwait
    rw [act_drive, heq]
    simp only [noteProgress_plan, noteProgress_state, htarget, hwait, true_and]
    refine and_congr_right fun henabled => ?_
    by_cases hsame : frames = self.lastFrames
    · by_cases hstalls : self.Stalls now frames <;> simp [hsame, hsame ▸ hstalls]
    · simp [hsame, henabled]
  · have hnot : ¬self.Waits now := fun h => absurd (hwaits.mpr h _ hpending) (not_lt.mpr hdue)
    simp [heq, hnot]
  · have hnot : ¬self.Waits now := fun h => absurd (hwaits.mpr h _ hpending) (not_lt.mpr hdue)
    cases henabled : self.applied.enabled <;> simp [heq, hnot, henabled]

/-- A stall retry is due. -/
def Heals (now : Nat) : Prop :=
  ∃ p ∈ self.stalled, p.1 < maxRetries ∧ stallRetryInterval ≤ now - p.2

instance (now : Nat) : Decidable (self.Heals now) := by
  unfold Heals
  infer_instance

theorem pollStallRetry_cases (now : Nat) :
    ¬self.Heals now ∧ self.pollStallRetry now = (self, none) ∨
      self.Heals now ∧ self.pollStallRetry now =
        ((self.issue now self.applied .stall 0).1, some (self.issue now self.applied .stall 0).2) := by
  unfold pollStallRetry Heals
  rcases self.stalled with _ | ⟨tried, since⟩
  · simp
  · by_cases h : maxRetries ≤ tried ∨ now - since < stallRetryInterval
    · left
      simp only [Option.mem_some_iff, exists_eq_left', if_pos h, and_true]
      omega
    · right
      simp only [Option.mem_some_iff, exists_eq_left', if_neg h, and_true]
      omega

@[simp] theorem onState_fixed (revision : Nat) (enabled : Bool) (codecId : BitVec 32)
    (error : String) :
    (self.onState revision enabled codecId error).1.applied = self.applied ∧
      (self.onState revision enabled codecId error).1.stalled = self.stalled ∧
      (self.onState revision enabled codecId error).1.lastFrames = self.lastFrames ∧
      (self.onState revision enabled codecId error).1.lastProgress = self.lastProgress := by
  unfold onState
  split
  · exact ⟨rfl, rfl, rfl, rfl⟩
  · dsimp only
    split_ifs <;> exact ⟨rfl, rfl, rfl, rfl⟩

theorem onState_state (revision : Nat) (enabled : Bool) (codecId : BitVec 32) (error : String) :
    (self.onState revision enabled codecId error).1.runtime.state =
      if revision < self.plan.revision then self.runtime.state
      else if error = "" then if enabled then .on else .off else .failed := by
  unfold onState
  split
  · rfl
  · dsimp only
    split_ifs <;> rfl

/-- Frames and issues are the only progress. -/
theorem act_progress (op : LinkOp) :
    (self.act op).1.lastFrames = op.frames?.getD self.lastFrames ∧
      (self.act op).1.lastProgress =
        if op.frames?.getD self.lastFrames = self.lastFrames ∧ (self.act op).2 = none then
          self.lastProgress
        else op.time := by
  cases op with
  | drive now target frames =>
    simp only [Link.act_drive, LinkOp.frames?, LinkOp.time, Option.getD_some]
    obtain ⟨-, heq⟩ | ⟨-, -, heq⟩ | ⟨-, tried, at_, error, -, -, -, heq⟩ |
        ⟨-, tried, at_, -, -, -, heq⟩ :=
      (self.noteProgress now frames).1.decide_cases now target <;> simp [heq]
  | onState now revision enabled codecId error => simp [Link.act, LinkOp.frames?]
  | pollStallRetry now =>
    obtain ⟨-, heq⟩ | ⟨-, heq⟩ := self.pollStallRetry_cases now <;>
      simp [heq, LinkOp.frames?, LinkOp.time]

end Link

end Kulua.Audio
