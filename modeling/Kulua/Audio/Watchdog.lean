import Kulua.Audio.AudioLink
import Kulua.Foundation.Run

/-! The capture thread of `AudioCapture.java` against the clock: attempts that fail, stall or
send frames, the back-off between them, and the watchdog at the top of both loops. Instants
are nanoseconds. -/

namespace Kulua.Audio
open Foundation

def stallTimeoutNanos : Nat := 5000000000
def restartBackoffNanos : Nat := 1000000000

inductive CapturePhase where
  /-- In `captureLoop`, not recording yet. -/
  | starting
  /-- In front of the check of `rawLoop` or `encodeLoop`; recording since the instant. -/
  | top (since : Nat)
  /-- Behind the check. -/
  | reading (since : Nat)
  /-- In `sleepBeforeRestart`. -/
  | backoff (wake : Nat)
  | ended
  deriving DecidableEq, Repr

structure Capture where
  now : Nat
  running : Bool
  lastFrameNanos : Nat
  consecutiveFailures : Nat
  phase : CapturePhase
  /-- The frames sent so far. -/
  frames : Nat
  /-- The callbacks to the client. -/
  reports : List (Bool × Option String)
  deriving DecidableEq, Repr

/-- What the thread comes to, or `stop` from outside, each at its instant. -/
inductive CaptureAction where
  | recording (now : Nat)
  | check (now : Nat)
  | frame (now : Nat)
  /-- The iteration ends. -/
  | turn (now : Nat)
  /-- An exception of the recorder or the encoder. -/
  | fail (now : Nat) (message : Option String) (className : String)
  | wake (now : Nat)
  | stop (now : Nat)
  deriving DecidableEq, Repr

def CaptureAction.time : CaptureAction → Nat
  | .recording now | .check now | .frame now | .turn now | .fail now _ _ | .wake now
  | .stop now => now

namespace Capture

def start (now : Nat) : Capture where
  now := now
  running := true
  lastFrameNanos := now
  consecutiveFailures := 0
  phase := .starting
  frames := 0
  reports := []

def onAudioCaptureState (s : Capture) (e : CaptureEvent) : Capture :=
  { s with reports := s.reports ++ [e.report] }

def noteFrameSent (s : Capture) (now : Nat) : Capture :=
  let s := { s with lastFrameNanos := now, frames := s.frames + 1 }
  if 0 < s.consecutiveFailures then
    { s with consecutiveFailures := 0 }.onAudioCaptureState .ready
  else s

def logFailure (s : Capture) (e : CaptureEvent) : Capture :=
  let s := { s with consecutiveFailures := s.consecutiveFailures + 1 }
  if s.consecutiveFailures = 1 then s.onAudioCaptureState e else s

/-- An exception ends the attempt; while the capture runs, it is logged and the thread sleeps. -/
def endAttempt (s : Capture) (now : Nat) (e : CaptureEvent) : Capture :=
  if s.running then { s.logFailure e with phase := .backoff (now + restartBackoffNanos) }
  else { s with phase := .ended }

/-- `checkStall` at the top of the loop. -/
def checkStall (s : Capture) (now since : Nat) : Capture :=
  let idle := now - s.lastFrameNanos
  if stallTimeoutNanos ≤ idle then
    s.endAttempt now
      (.failed (some s!"audio stalled for {idle / 1000000}ms (no frame sent)") "IOException")
  else { s with phase := .reading since }

/-- The step is one that the thread can take, not in the past. -/
def Enabled (s : Capture) (a : CaptureAction) : Prop :=
  s.now ≤ a.time ∧
    match a, s.phase with
    | .recording _, .starting | .check _, .top _ => True
    | .frame _, .reading _ | .turn _, .reading _ => True
    | .fail _ _ _, .starting | .fail _ _ _, .top _ | .fail _ _ _, .reading _ => True
    -- `stop` interrupts the sleep
    | .wake now, .backoff wake => s.running = true → wake ≤ now
    | .stop _, _ => True
    | _, _ => False

instance (s : Capture) (a : CaptureAction) : Decidable (s.Enabled a) := by
  unfold Enabled
  refine @instDecidableAnd _ _ _ ?_
  split <;> infer_instance

def act (s : Capture) : CaptureAction → Capture
  | .recording now =>
    if s.running then { s with phase := .top now }.onAudioCaptureState .ready
    else { s with phase := .ended }
  | .check now =>
    match s.phase with
    | .top since => if s.running then s.checkStall now since else { s with phase := .ended }
    | _ => s
  | .frame now => s.noteFrameSent now
  | .turn _ =>
    match s.phase with
    | .reading since => { s with phase := .top since }
    | _ => s
  | .fail now message className => s.endAttempt now (.failed message className)
  | .wake _ => { s with phase := if s.running then .starting else .ended }
  | .stop _ => { s with running := false }

def step (s : Capture) (a : CaptureAction) : Capture :=
  if s.Enabled a then { s with now := a.time }.act a else s

@[simp] theorem step_of_enabled {s : Capture} {a : CaptureAction} (h : s.Enabled a) :
    s.step a = { s with now := a.time }.act a := if_pos h

@[simp] theorem step_of_not_enabled {s : Capture} {a : CaptureAction} (h : ¬s.Enabled a) :
    s.step a = s := if_neg h

/-- Some continuation sends a frame. -/
def CanRecover (s : Capture) : Prop :=
  ∃ actions, s.frames < (Run.run step s actions).frames

/-- The check throws only when the timeout has passed since the attempt began recording, too. -/
def Justified (s : Capture) : CaptureAction → Prop
  | .check now =>
    match s.phase with
    | .top since =>
      s.running = true → stallTimeoutNanos ≤ now - s.lastFrameNanos →
        stallTimeoutNanos ≤ now - since
    | _ => True
  | _ => True

instance (s : Capture) (a : CaptureAction) : Decidable (s.Justified a) := by
  unfold Justified
  repeat' split
  all_goals infer_instance

/-- A check that is not in time for its attempt does not end it, and the capture can still
send a frame. -/
def SelfHeals (s : Capture) (a : CaptureAction) : Prop :=
  (s.Enabled a → s.Justified a) ∧ ((s.step a).running = true → (s.step a).CanRecover)

/-- The action comes before the timeout, counted from the last frame or from the start of the
capture; after a failure this includes the back-off. Frames may come at any time. -/
def InTime (s : Capture) : CaptureAction → Prop
  | .recording now | .check now | .turn now | .wake now =>
    now - s.lastFrameNanos < stallTimeoutNanos
  | .fail now _ _ => now + restartBackoffNanos - s.lastFrameNanos < stallTimeoutNanos
  | .frame _ | .stop _ => True

def Timely (s : Capture) (a : CaptureAction) : Prop :=
  s.running = true → s.Enabled a → s.InTime a

/-- A next check can come before the timeout. -/
def Alive (s : Capture) : Prop :=
  match s.phase with
  | .starting | .top _ => s.now - s.lastFrameNanos < stallTimeoutNanos
  | .reading _ => True
  | .backoff wake => max s.now wake - s.lastFrameNanos < stallTimeoutNanos
  | .ended => False

@[simp] theorem noteFrameSent_clock (s : Capture) (now : Nat) :
    (s.noteFrameSent now).lastFrameNanos = now ∧
      (s.noteFrameSent now).frames = s.frames + 1 ∧ (s.noteFrameSent now).now = s.now ∧
      (s.noteFrameSent now).running = s.running ∧ (s.noteFrameSent now).phase = s.phase := by
  unfold noteFrameSent
  dsimp only
  split <;> simp [onAudioCaptureState]

@[simp] theorem logFailure_clock (s : Capture) (e : CaptureEvent) :
    (s.logFailure e).lastFrameNanos = s.lastFrameNanos ∧ (s.logFailure e).frames = s.frames ∧
      (s.logFailure e).now = s.now ∧ (s.logFailure e).running = s.running := by
  unfold logFailure
  dsimp only
  split <;> simp [onAudioCaptureState]

@[simp] theorem endAttempt_clock (s : Capture) (now : Nat) (e : CaptureEvent) :
    (s.endAttempt now e).lastFrameNanos = s.lastFrameNanos ∧
      (s.endAttempt now e).frames = s.frames ∧ (s.endAttempt now e).now = s.now ∧
      (s.endAttempt now e).running = s.running ∧
      (s.endAttempt now e).phase =
        if s.running then .backoff (now + restartBackoffNanos) else .ended := by
  unfold endAttempt
  split <;> simp [*]

/-- In time, the check lets the attempt go on. -/
theorem checkStall_of_lt {s : Capture} {now : Nat} (since : Nat)
    (h : now - s.lastFrameNanos < stallTimeoutNanos) :
    s.checkStall now since = { s with phase := .reading since } :=
  if_neg (Nat.not_le.mpr h)

theorem checkStall_of_le {s : Capture} {now : Nat} (since : Nat)
    (h : stallTimeoutNanos ≤ now - s.lastFrameNanos) :
    ∃ e, s.checkStall now since = s.endAttempt now e :=
  ⟨_, if_pos h⟩

section
variable {s : Capture}

/-- The place in which the thread takes each step. -/
theorem enabled_iff (a : CaptureAction) :
    s.Enabled a ↔ s.now ≤ a.time ∧
      ((∃ t, a = .recording t) ∧ s.phase = .starting ∨
        (∃ t, a = .check t) ∧ (∃ since, s.phase = .top since) ∨
        ((∃ t, a = .frame t) ∨ ∃ t, a = .turn t) ∧ (∃ since, s.phase = .reading since) ∨
        (∃ t message className, a = .fail t message className) ∧ (s.phase = .starting ∨
          (∃ since, s.phase = .top since) ∨ ∃ since, s.phase = .reading since) ∨
        (∃ t wake, a = .wake t ∧ s.phase = .backoff wake ∧ (s.running = true → wake ≤ t)) ∨
        ∃ t, a = .stop t) := by
  unfold Enabled
  cases a <;> cases hs : s.phase <;> simp

@[simp] theorem enabled_recording {t : Nat} :
    s.Enabled (.recording t) ↔ s.now ≤ t ∧ s.phase = .starting := by
  simp [enabled_iff, CaptureAction.time]

@[simp] theorem enabled_check {t : Nat} :
    s.Enabled (.check t) ↔ s.now ≤ t ∧ ∃ since, s.phase = .top since := by
  simp [enabled_iff, CaptureAction.time]

@[simp] theorem enabled_frame {t : Nat} :
    s.Enabled (.frame t) ↔ s.now ≤ t ∧ ∃ since, s.phase = .reading since := by
  simp [enabled_iff, CaptureAction.time]

@[simp] theorem enabled_turn {t : Nat} :
    s.Enabled (.turn t) ↔ s.now ≤ t ∧ ∃ since, s.phase = .reading since := by
  simp [enabled_iff, CaptureAction.time]

@[simp] theorem enabled_fail {t : Nat} {message : Option String} {className : String} :
    s.Enabled (.fail t message className) ↔
      s.now ≤ t ∧ (s.phase = .starting ∨ (∃ since, s.phase = .top since) ∨
        ∃ since, s.phase = .reading since) := by
  simp [enabled_iff, CaptureAction.time]

@[simp] theorem enabled_wake {t : Nat} :
    s.Enabled (.wake t) ↔
      s.now ≤ t ∧ ∃ wake, s.phase = .backoff wake ∧ (s.running = true → wake ≤ t) := by
  simp [enabled_iff, CaptureAction.time]

@[simp] theorem enabled_stop {t : Nat} : s.Enabled (.stop t) ↔ s.now ≤ t := by
  simp [enabled_iff, CaptureAction.time]

end

/-- Once no check can come in time, no frame is sent and none can come in time again. -/
theorem not_alive_step {s : Capture} (a : CaptureAction) (h : ¬s.Alive) :
    ¬(s.step a).Alive ∧ (s.step a).frames = s.frames := by
  by_cases he : s.Enabled a
  swap
  · rw [step_of_not_enabled he]
    exact ⟨h, rfl⟩
  rw [step_of_enabled he]
  cases a with
  | recording now =>
    obtain ⟨htime, hs⟩ := enabled_recording.mp he
    by_cases hr : s.running <;> simp_all [act, Alive, onAudioCaptureState, CaptureAction.time]
    omega
  | check now =>
    obtain ⟨htime, since, hs⟩ := enabled_check.mp he
    simp only [Alive, hs, not_lt] at h
    by_cases hr : s.running
    · have hlate : stallTimeoutNanos ≤ now - s.lastFrameNanos := by omega
      obtain ⟨e, hthrow⟩ := checkStall_of_le (s := { s with now := now }) since hlate
      simp only [hs, hr] at hthrow
      simp [act, Alive, CaptureAction.time, hs, hr, hthrow]
      omega
    · simp [act, Alive, CaptureAction.time, hs, hr]
  | frame now =>
    obtain ⟨-, since, hs⟩ := enabled_frame.mp he
    simp [Alive, hs] at h
  | turn now =>
    obtain ⟨-, since, hs⟩ := enabled_turn.mp he
    simp [Alive, hs] at h
  | fail now message className =>
    obtain ⟨htime, hs | ⟨since, hs⟩ | ⟨since, hs⟩⟩ := enabled_fail.mp he <;>
      simp only [Alive, hs, not_lt, not_true_eq_false] at h
    all_goals
      by_cases hr : s.running <;> simp [act, Alive, CaptureAction.time, hr]
      omega
  | wake now =>
    obtain ⟨htime, wake, hs, hwake⟩ := enabled_wake.mp he
    simp only [Alive, hs, not_lt] at h
    by_cases hr : s.running <;> simp [act, Alive, CaptureAction.time, hr]
    have := hwake hr
    omega
  | stop now =>
    have htime := enabled_stop.mp he
    cases hs : s.phase <;> simp_all [act, Alive, CaptureAction.time]
    all_goals omega

theorem not_alive_run {s : Capture} (actions : List CaptureAction) (h : ¬s.Alive) :
    (Run.run step s actions).frames = s.frames := by
  induction actions generalizing s with
  | nil => rfl
  | cons a actions ih =>
    obtain ⟨halive, hframes⟩ := not_alive_step a h
    exact (ih halive).trans hframes

/-- While the capture runs, a frame can still be sent if and only if a check can come in time. -/
theorem canRecover_iff_alive {s : Capture} (hr : s.running = true) : s.CanRecover ↔ s.Alive := by
  constructor
  · rintro ⟨actions, hlt⟩
    by_contra h
    exact hlt.ne' (not_alive_run actions h)
  · intro h
    -- one attempt, each step of it at the earliest instant
    cases hs : s.phase with
    | starting =>
      simp only [Alive, hs] at h
      refine ⟨[.recording s.now, .check s.now, .frame s.now], ?_⟩
      simp [hs, hr, act, onAudioCaptureState, CaptureAction.time, checkStall_of_lt, h]
    | top since =>
      simp only [Alive, hs] at h
      refine ⟨[.check s.now, .frame s.now], ?_⟩
      simp [hs, hr, act, CaptureAction.time, checkStall_of_lt, h]
    | reading since =>
      refine ⟨[.frame s.now], ?_⟩
      simp [hs, act, CaptureAction.time]
    | backoff wake =>
      simp only [Alive, hs] at h
      let t := max s.now wake
      refine ⟨[.wake t, .recording t, .check t, .frame t], ?_⟩
      simp [hs, hr, act, onAudioCaptureState, CaptureAction.time, checkStall_of_lt, h, t]
    | ended => simp [Alive, hs] at h

/-- Only `stop` ends the running of a capture, and nothing starts it again. -/
theorem running_step (s : Capture) (a : CaptureAction) :
    (s.step a).running = s.running ∨ (∃ now, a = .stop now) ∧ (s.step a).running = false := by
  by_cases he : s.Enabled a
  swap
  · exact .inl (by rw [step_of_not_enabled he])
  rw [step_of_enabled he]
  cases a with
  | check now =>
    obtain ⟨-, since, hs⟩ := enabled_check.mp he
    left
    simp only [act, hs, checkStall]
    split_ifs <;> simp_all
  | turn now =>
    obtain ⟨-, since, hs⟩ := enabled_turn.mp he
    simp [act, hs]
  | recording now =>
    left
    simp only [act]
    split <;> rfl
  | stop now => exact .inr ⟨⟨now, rfl⟩, rfl⟩
  | _ => simp [act]

/-- What each step of a running capture leaves: a next check can come in time if and only if
this step did. -/
theorem alive_step_iff {s : Capture} {a : CaptureAction} (hr : s.running = true)
    (he : s.Enabled a) (hr' : (s.step a).running = true) :
    (s.step a).Alive ↔ s.InTime a := by
  rw [step_of_enabled he] at hr' ⊢
  cases a with
  | recording now => simp [act, Alive, InTime, hr, onAudioCaptureState, CaptureAction.time]
  | check now =>
    obtain ⟨-, since, hs⟩ := enabled_check.mp he
    rcases lt_or_ge (now - s.lastFrameNanos) stallTimeoutNanos with hlt | hle
    · simp [act, Alive, InTime, hs, hr, checkStall_of_lt, hlt, CaptureAction.time]
    · obtain ⟨e, hthrow⟩ := checkStall_of_le (s := { s with now := now }) since hle
      simp only [hs, hr] at hthrow
      simp [act, Alive, InTime, hs, hr, hthrow, CaptureAction.time]
      omega
  | frame now =>
    obtain ⟨-, since, hs⟩ := enabled_frame.mp he
    simp [act, Alive, InTime, hs]
  | turn now =>
    obtain ⟨-, since, hs⟩ := enabled_turn.mp he
    simp [act, Alive, InTime, hs, CaptureAction.time]
  | fail now message className =>
    simp [act, Alive, InTime, hr, CaptureAction.time]
  | wake now => simp [act, Alive, InTime, hr, CaptureAction.time]
  | stop now => simp [act] at hr'

theorem justified_of_inTime {s : Capture} {a : CaptureAction} (h : s.InTime a) :
    s.Justified a := by
  cases a <;> simp only [Justified]
  split
  · exact fun _ hle => absurd h (Nat.not_lt.mpr hle)
  · trivial

/-- While the checks can still come in time, a step lets the capture heal itself if and only if
it comes in time. -/
theorem selfHeals_iff_timely {s : Capture} (a : CaptureAction)
    (inv : s.running = true → s.Alive) : s.SelfHeals a ↔ s.Timely a := by
  unfold SelfHeals Timely
  by_cases he : s.Enabled a
  swap
  · simp only [he, step_of_not_enabled he, false_implies, true_and, implies_true, iff_true]
    exact fun hr => (canRecover_iff_alive hr).mpr (inv hr)
  by_cases hr : s.running = true
  swap
  · have hr' : (s.step a).running ≠ true := by
      obtain h | ⟨-, h⟩ := running_step s a <;> simp_all
    have hjust : s.Justified a := by
      cases a <;> simp only [Justified]
      split <;> simp [hr]
    simp [hr, hr', hjust]
  simp only [he, hr, true_implies]
  constructor
  · rintro ⟨-, hrecover⟩
    obtain hr' | ⟨⟨now, rfl⟩, -⟩ := running_step s a
    · rw [hr] at hr'
      exact (alive_step_iff hr he hr').mp ((canRecover_iff_alive hr').mp (hrecover hr'))
    · trivial
  · intro h
    exact ⟨justified_of_inTime h, fun hr' =>
      (canRecover_iff_alive hr').mpr ((alive_step_iff hr he hr').mpr h)⟩

theorem alive_of_timely {s : Capture} {a : CaptureAction} (inv : s.running = true → s.Alive)
    (h : s.Timely a) (hr' : (s.step a).running = true) : (s.step a).Alive := by
  have hr : s.running = true := by
    obtain hr | ⟨-, hr⟩ := running_step s a <;> simp_all
  by_cases he : s.Enabled a
  · exact (alive_step_iff hr he hr').mpr (h hr he)
  · rw [step_of_not_enabled he]
    exact inv hr

/-- Whatever attempts a capture makes, its check ends none that is not stalled and leaves a
running capture that can send a frame again, if and only if all it does but sending frames
comes within the timeout after the last frame. -/
theorem capture_self_heal (t₀ : Nat) (actions : List CaptureAction) :
    Run.Along step SelfHeals (start t₀) actions ↔ Run.Along step Timely (start t₀) actions :=
  Run.along_iff_of_kept (I := fun s => s.running = true → s.Alive)
    (fun _ _ inv h hr' => alive_of_timely inv h hr') (fun _ a inv => selfHeals_iff_timely a inv)
    (fun _ => by simp [Alive, start, stallTimeoutNanos]) actions

/-- The thread is between the checks and the reads of the attempt that records since then. -/
def Recording (since : Nat) (s : Capture) : Prop :=
  s.running = true ∧ (s.phase = .top since ∨ s.phase = .reading since)

theorem recording_step {s : Capture} {a : CaptureAction} {since : Nat} (h : s.Recording since)
    (hjust : s.Enabled a → s.Justified a) (hlt : a.time < since + stallTimeoutNanos)
    (hfail : ∀ now message className, a ≠ .fail now message className)
    (hstop : ∀ now, a ≠ .stop now) : (s.step a).Recording since := by
  by_cases he : s.Enabled a
  swap
  · rwa [step_of_not_enabled he]
  obtain ⟨hr, hs⟩ := h
  rw [step_of_enabled he]
  cases a with
  | recording now => simp_all
  | check now =>
    obtain ⟨-, since', hs'⟩ := enabled_check.mp he
    obtain rfl : since' = since := by simp_all
    have hintime : now - s.lastFrameNanos < stallTimeoutNanos := by
      by_contra hle
      have := hjust he
      simp only [Justified, hs', CaptureAction.time] at this hlt
      have := this hr (not_lt.mp hle)
      simp only [stallTimeoutNanos] at this hlt
      omega
    simp [act, hs', hr, checkStall_of_lt, hintime, Recording]
  | frame now => simp_all [act, Recording]
  | turn now =>
    obtain ⟨-, since', hs'⟩ := enabled_turn.mp he
    simp_all [act, Recording]
  | fail now message className => exact absurd rfl (hfail now message className)
  | wake now =>
    obtain ⟨-, wake, hw, -⟩ := enabled_wake.mp he
    rcases hs with hs | hs <;> simp [hs] at hw
  | stop now => exact absurd rfl (hstop now)

/-- Where every check is justified, an attempt that nothing else ends stays until the timeout:
it sends its first frame if it has one by then. -/
theorem recording_run {s : Capture} {actions : List CaptureAction} {since : Nat}
    (h : s.Recording since)
    (along : Run.Along step (fun s a => (s.Enabled a → s.Justified a) ∧
      a.time < since + stallTimeoutNanos ∧
      (∀ now message className, a ≠ .fail now message className) ∧ ∀ now, a ≠ .stop now)
      s actions) :
    (Run.run step s actions).Recording since :=
  Run.invariant (fun _ _ h ⟨hjust, hlt, hfail, hstop⟩ => recording_step h hjust hlt hfail hstop)
    h along

/-- A capture that stalls for five seconds after its start, and then records again. -/
def stalledActions : List CaptureAction :=
  [.recording 0, .check 0, .turn 5000000000, .check 5000000000, .wake 6000000000,
    .recording 6000000000, .check 6000000000]

/-- The second attempt is ended as stalled at the instant it begins recording. -/
theorem capture_self_heal_stalled :
    ¬Run.Along step SelfHeals (start 0) stalledActions := by
  intro h
  have hjust := (h.2.2.2.2.2.2.1).1 (by decide)
  exact absurd hjust (by decide)

end Capture
end Kulua.Audio
