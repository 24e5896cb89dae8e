import Mathlib.Tactic

/-! The audio control plane of `sync-core/src/session/audio.rs`: the user's target
becomes a plan with a revision, and the phone's receipts and the frames played
become the runtime state. Every issued command takes the next revision; a `u64`
counts more of them than a session can issue, so revisions are natural numbers.
Instants and durations are in nanoseconds. -/

namespace Kulua.Audio

inductive AudioCodec where
  | opus
  | aac
  | flac
  | raw
  deriving DecidableEq, Repr

def AudioCodec.fromCodecId (id : BitVec 32) : Option AudioCodec :=
  if id = 0x6f707573 then some .opus
  else if id = 0x00616163 then some .aac
  else if id = 0x666c6163 then some .flac
  else if id = 0x00726177 then some .raw
  else none

def AudioCodec.fromHandshakeByte (byte : BitVec 8) : Option AudioCodec :=
  if byte = 0 then some .raw
  else if byte = 1 then some .opus
  else if byte = 2 then some .aac
  else if byte = 3 then some .flac
  else none

def codecOf (index : BitVec 8) : AudioCodec := (AudioCodec.fromHandshakeByte index).getD .raw

structure AudioTarget where
  enabled : Bool
  codec : BitVec 8
  deriving DecidableEq, Repr

structure AudioPlan where
  revision : Nat
  enabled : Bool
  codec : BitVec 8
  deriving DecidableEq, Repr

inductive Reason where
  | target
  | retry
  | stall
  deriving DecidableEq, Repr

structure Issue where
  plan : AudioPlan
  reason : Reason
  deriving DecidableEq, Repr

structure Tick where
  issue : Option Issue
  stalled : Bool
  recovered : Bool
  deriving DecidableEq, Repr

/-- The constants `AUDIO_STATE_OFF` to `AUDIO_STATE_FAILED`. -/
inductive RunState where
  | off
  | starting
  | on
  | stopping
  | failed
  deriving DecidableEq, Repr

structure AudioRuntime where
  revision : Nat
  state : RunState
  codecId : BitVec 32
  error : String
  deriving DecidableEq, Repr

def second : Nat := 1000000000
def ackTimeout : Nat := 2 * second
def maxRetries : Nat := 3
def stallTimeout : Nat := 3 * second
def stallRetryInterval : Nat := 10 * second

structure Link where
  applied : AudioTarget
  plan : AudioPlan
  /-- Retries made and the time of the next one, while a receipt is awaited. -/
  pending : Option (Nat × Nat)
  /-- Attempts to heal a stall and the time of the last one. -/
  stalled : Option (Nat × Nat)
  lastFrames : Nat
  lastProgress : Nat
  runtime : AudioRuntime
  deriving DecidableEq, Repr

namespace Link

/-- `Link::new`. -/
def init (target : AudioTarget) (now : Nat) : Link where
  applied := target
  plan := ⟨0, target.enabled, target.codec⟩
  pending := none
  stalled := none
  lastFrames := 0
  lastProgress := now
  runtime := ⟨0, if target.enabled then .starting else .off, 0, ""⟩

def setState (self : Link) (state : RunState) (error : Option String) : Link :=
  { self with runtime := { self.runtime with state := state, error := error.getD "" } }

def issue (self : Link) (now : Nat) (target : AudioTarget) (reason : Reason) (tried : Nat) :
    Link × Issue :=
  let plan : AudioPlan := ⟨self.plan.revision + 1, target.enabled, target.codec⟩
  let next : Link :=
    { applied := target
      plan := plan
      pending := some (tried, now + ackTimeout)
      stalled :=
        match reason with
        | .stall => some ((self.stalled.getD (0, now)).1 + 1, now)
        | _ => none
      lastFrames := self.lastFrames
      lastProgress := now
      runtime := { self.runtime with revision := plan.revision } }
  (next.setState (if target.enabled then .starting else .stopping) none, ⟨plan, reason⟩)

def decide (self : Link) (now : Nat) (target : AudioTarget) : Link × Option Issue :=
  if target ≠ self.applied then
    let (next, issued) := self.issue now target .target 0
    (next, some issued)
  else
    match self.pending with
    | none => (self, none)
    | some (tried, retryAt) =>
      if now < retryAt then (self, none)
      else if maxRetries ≤ tried then
        ({ self with pending := none }.setState .failed
          (some s!"设备未确认音频切换（已重试 {tried} 次）"), none)
      else
        let (next, issued) := self.issue now self.applied .retry (tried + 1)
        (next, some issued)

/-- The first two parts of `drive`: frames that were played, or a stall; the flags are
those of the tick. -/
def noteProgress (self : Link) (now frames : Nat) : Link × Bool × Bool :=
  if frames ≠ self.lastFrames then
    let next := { self with lastFrames := frames, lastProgress := now, stalled := none }
    if self.plan.enabled ∧ self.runtime.state ≠ .on then (next.setState .on none, false, true)
    else (next, false, false)
  else if self.plan.enabled ∧ self.runtime.state = .on ∧ stallTimeout ≤ now - self.lastProgress ∧
      self.stalled = none then
    ({ self with stalled := some (0, now) }.setState .failed (some "音频帧断流"), true, false)
  else (self, false, false)

def drive (self : Link) (now : Nat) (target : AudioTarget) (frames : Nat) : Link × Tick :=
  let (next, stalled, recovered) := self.noteProgress now frames
  let (last, issued) := next.decide now target
  (last, ⟨issued, stalled, recovered⟩)

def pollStallRetry (self : Link) (now : Nat) : Link × Option Issue :=
  match self.stalled with
  | none => (self, none)
  | some (tried, since) =>
    if maxRetries ≤ tried ∨ now - since < stallRetryInterval then (self, none)
    else
      let (next, issued) := self.issue now self.applied .stall 0
      (next, some issued)

/-- `on_state`, with whether the receipt is taken. -/
def onState (self : Link) (revision : Nat) (enabled : Bool) (codecId : BitVec 32)
    (error : String) : Link × Bool :=
  if revision < self.plan.revision then (self, false)
  else
    let next :=
      if error = "" then
        { self with runtime := { self.runtime with codecId := codecId } }.setState
          (if enabled then .on else .off) none
      else self.setState .failed (some error)
    (if revision = self.plan.revision then { next with pending := none } else next, true)

/-- The plan is the old one, or the one of a command with the next revision. -/
def Advances (self next : Link) : Option Issue → Prop
  | none => next.plan = self.plan
  | some issued => next.plan = issued.plan ∧ issued.plan.revision = self.plan.revision + 1

@[simp] theorem setState_plan (self : Link) (state : RunState) (error : Option String) :
    (self.setState state error).plan = self.plan := rfl

theorem advances_issue (self : Link) (now : Nat) (target : AudioTarget) (reason : Reason)
    (tried : Nat) :
    Advances self (self.issue now target reason tried).1
      (some (self.issue now target reason tried).2) := ⟨rfl, rfl⟩

theorem advances_decide (self : Link) (now : Nat) (target : AudioTarget) :
    Advances self (self.decide now target).1 (self.decide now target).2 := by
  unfold decide
  split
  · exact advances_issue self now target .target 0
  · split
    · rfl
    · split
      · rfl
      · split
        · rfl
        · exact advances_issue self now self.applied .retry _

@[simp] theorem noteProgress_plan (self : Link) (now frames : Nat) :
    (self.noteProgress now frames).1.plan = self.plan := by
  unfold noteProgress
  split
  · dsimp only
    split <;> rfl
  · split <;> rfl

theorem advances_drive (self : Link) (now : Nat) (target : AudioTarget) (frames : Nat) :
    Advances self (self.drive now target frames).1 (self.drive now target frames).2.issue := by
  have h := advances_decide (self.noteProgress now frames).1 now target
  simp only [drive]
  generalize (decide (self.noteProgress now frames).1 now target) = result at h ⊢
  cases hissued : result.2 with
  | none => simpa [Advances, hissued] using h
  | some issued => simpa [Advances, hissued] using h

theorem advances_pollStallRetry (self : Link) (now : Nat) :
    Advances self (self.pollStallRetry now).1 (self.pollStallRetry now).2 := by
  unfold pollStallRetry
  split
  · rfl
  · split
    · rfl
    · exact advances_issue self now self.applied .stall 0

@[simp] theorem onState_plan (self : Link) (revision : Nat) (enabled : Bool)
    (codecId : BitVec 32) (error : String) :
    (self.onState revision enabled codecId error).1.plan = self.plan := by
  unfold onState
  split
  · rfl
  · dsimp only
    split_ifs <;> rfl

/-- A receipt is taken unless it is older than the plan. -/
theorem onState_taken (self : Link) (revision : Nat) (enabled : Bool) (codecId : BitVec 32)
    (error : String) :
    (self.onState revision enabled codecId error).2 = true ↔ self.plan.revision ≤ revision := by
  unfold onState
  split
  · simpa using ‹revision < self.plan.revision›
  · simpa using ‹¬revision < self.plan.revision›

end Link

end Kulua.Audio
