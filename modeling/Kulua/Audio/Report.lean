import Kulua.Audio.Watchdog

/-! What the client was told last of a capture when its thread sleeps before the next attempt:
every attempt reports that it records, but only the first failure of a row is reported. -/

namespace Kulua.Audio
open Foundation

namespace Capture

/-- The last report is a failure, with a text. -/
def ReportedFailure (s : Capture) : Prop :=
  ∃ text, text ≠ "" ∧ s.reports.getLast? = some (false, some text)

def Sleeping (s : Capture) : Prop := ∃ wake, s.phase = .backoff wake

/-- Where the step takes a running capture to its sleep, the last report is a failure. -/
def Truthful (s : Capture) (a : CaptureAction) : Prop :=
  ¬s.Sleeping → (s.step a).Sleeping → (s.step a).running = true → (s.step a).ReportedFailure

/-- A running capture fails for the first time since its last frame, with an exception that has a
text or a named class; or it fails again before it records. -/
def FailsAloud (s : Capture) : CaptureAction → Prop
  | .fail now message className =>
    s.Enabled (.fail now message className) → s.running = true →
      if s.consecutiveFailures = 0 then message.getD "" ≠ "" ∨ className ≠ ""
      else s.phase = .starting
  | .check now =>
    s.Enabled (.check now) → s.running = true → stallTimeoutNanos ≤ now - s.lastFrameNanos →
      s.consecutiveFailures = 0
  | _ => True

/-- After a failure, the client knows of it until the next attempt records. -/
structure Told (s : Capture) : Prop where
  failed : 0 < s.consecutiveFailures → s.phase = .starting ∨ s.Sleeping → s.ReportedFailure
  recording : 0 < s.consecutiveFailures →
    (∃ since, s.phase = .top since ∨ s.phase = .reading since) →
      s.reports.getLast? = some (true, none)

theorem logFailure_first {s : Capture} (e : CaptureEvent) (h : s.consecutiveFailures = 0) :
    (s.logFailure e).reports = s.reports ++ [e.report] ∧
      (s.logFailure e).consecutiveFailures = 1 := by
  simp [logFailure, h, onAudioCaptureState]

theorem logFailure_again {s : Capture} (e : CaptureEvent) (h : s.consecutiveFailures ≠ 0) :
    (s.logFailure e).reports = s.reports ∧
      (s.logFailure e).consecutiveFailures = s.consecutiveFailures + 1 := by
  simp [logFailure, h]

/-- A failure without a text is reported as nothing. -/
theorem report_failed (message : Option String) (className : String) :
    ∃ text, (CaptureEvent.failed message className).report = (false, some text) ∧
      (text ≠ "" ↔ message.getD "" ≠ "" ∨ className ≠ "") := by
  refine ⟨_, rfl, ?_⟩
  by_cases h : message.getD "" = "" <;> simp [h]

/-- The end of an attempt that fails while the capture runs. -/
theorem endAttempt_reported {s : Capture} (now : Nat) (message : Option String) (className : String)
    (hr : s.running = true) (hfirst : s.consecutiveFailures = 0) :
    (s.endAttempt now (.failed message className)).ReportedFailure ↔
      message.getD "" ≠ "" ∨ className ≠ "" := by
  obtain ⟨text, hreport, htext⟩ := report_failed message className
  simp [endAttempt, hr, ReportedFailure, (logFailure_first _ hfirst).1, hreport, ← htext]

theorem endAttempt_again {s : Capture} (now : Nat) (e : CaptureEvent) (hr : s.running = true)
    (hagain : s.consecutiveFailures ≠ 0) : (s.endAttempt now e).reports = s.reports := by
  simp [endAttempt, hr, (logFailure_again _ hagain).1]

theorem noteFrameSent_failures (s : Capture) (now : Nat) :
    (s.noteFrameSent now).consecutiveFailures = 0 := by
  unfold noteFrameSent
  dsimp only
  split
  · rfl
  · dsimp only
    omega

theorem endAttempt_sleeping {s : Capture} (now : Nat) (e : CaptureEvent) (hr : s.running = true) :
    (s.endAttempt now e).Sleeping := ⟨now + restartBackoffNanos, by simp [hr]⟩

/-- An attempt under way, recording or not. -/
def Attempting (s : Capture) : Prop :=
  s.phase = .starting ∨ ∃ since, s.phase = .top since ∨ s.phase = .reading since

theorem Attempting.not_sleeping {s : Capture} (h : s.Attempting) : ¬s.Sleeping := by
  rintro ⟨wake, hwake⟩
  obtain h | ⟨since, h | h⟩ := h <;> simp [h] at hwake

/-- What a client was told when a running attempt has failed. -/
theorem endAttempt_reportedFailure {s : Capture} (told : s.Told) (now : Nat) (message : Option String)
    (className : String) (hr : s.running = true) (hphase : s.Attempting) :
    (s.endAttempt now (.failed message className)).ReportedFailure ↔
      if s.consecutiveFailures = 0 then message.getD "" ≠ "" ∨ className ≠ ""
      else s.phase = .starting := by
  by_cases hfirst : s.consecutiveFailures = 0
  · rw [if_pos hfirst, endAttempt_reported now message className hr hfirst]
  · have hpos : 0 < s.consecutiveFailures := Nat.pos_of_ne_zero hfirst
    rw [if_neg hfirst, ReportedFailure, endAttempt_again now _ hr hfirst]
    constructor
    · rintro ⟨text, -, hlast⟩
      refine hphase.resolve_right fun hrecording => ?_
      simp [told.recording hpos hrecording] at hlast
    · exact fun hstarting => told.failed hpos (.inl hstarting)

theorem truthful_iff_reported {s : Capture} {a : CaptureAction} (hawake : ¬s.Sleeping)
    (hsleeping : (s.step a).Sleeping) (hr : (s.step a).running = true) :
    s.Truthful a ↔ (s.step a).ReportedFailure :=
  ⟨fun htruthful => htruthful hawake hsleeping hr, fun hreported _ _ _ => hreported⟩

theorem told_now {s : Capture} (told : s.Told) (now : Nat) : { s with now := now }.Told :=
  ⟨told.failed, told.recording⟩

/-- The check that throws has a text. -/
theorem checkStall_late {s : Capture} {now : Nat} (since : Nat)
    (h : stallTimeoutNanos ≤ now - s.lastFrameNanos) :
    ∃ text, text ≠ "" ∧
      s.checkStall now since = s.endAttempt now (.failed (some text) "IOException") := by
  refine ⟨_, ?_, if_pos h⟩
  simp

/-- A frame wipes out the failures before it. -/
theorem told_noteFrameSent (s : Capture) (now : Nat) : (s.noteFrameSent now).Told :=
  ⟨fun hpos => absurd (noteFrameSent_failures s now) hpos.ne',
    fun hpos => absurd (noteFrameSent_failures s now) hpos.ne'⟩

/-- On the way back to the check nothing is reported. -/
theorem Told.turn {s : Capture} (told : s.Told) {since : Nat} (hphase : s.phase = .reading since) :
    Told { s with phase := .top since } :=
  ⟨by simp [Sleeping], fun hpos _ => told.recording hpos ⟨since, .inr hphase⟩⟩

/-- A step of a running capture ends its attempt with an exception, or goes on. -/
theorem fails_or_goes_on {s : Capture} {a : CaptureAction} (he : s.Enabled a)
    (hr : s.running = true) :
    (∃ now message className, s.Attempting ∧
        s.step a = { s with now := now }.endAttempt now (.failed message className) ∧
        (s.FailsAloud a ↔
          if s.consecutiveFailures = 0 then message.getD "" ≠ "" ∨ className ≠ ""
          else s.phase = .starting)) ∨
      (s.FailsAloud a ∧ (¬s.Sleeping → ¬(s.step a).Sleeping) ∧ (s.Told → (s.step a).Told)) := by
  have hstep := step_of_enabled he
  cases a with
  | fail now message className =>
    refine .inl ⟨now, message, className, ?_, hstep, by simp only [FailsAloud, he, hr, true_implies]⟩
    obtain ⟨-, h | ⟨since, h⟩ | ⟨since, h⟩⟩ := enabled_fail.mp he
    · exact .inl h
    · exact .inr ⟨since, .inl h⟩
    · exact .inr ⟨since, .inr h⟩
  | check now =>
    obtain ⟨-, since, hphase⟩ := enabled_check.mp he
    by_cases hlate : stallTimeoutNanos ≤ now - s.lastFrameNanos
    · obtain ⟨text, htext, hthrow⟩ := checkStall_late (s := { s with now := now }) since hlate
      refine .inl ⟨now, some text, "IOException", .inr ⟨since, .inl hphase⟩, ?_, ?_⟩
      · simp only [hstep, act, hphase, hr, if_true, CaptureAction.time] at hthrow ⊢
        exact hthrow
      · simp [FailsAloud, he, hr, hlate, htext, hphase]
    · have hintime : now - s.lastFrameNanos < stallTimeoutNanos := not_le.mp hlate
      refine .inr ⟨fun _ _ hle => absurd hle hlate, ?_⟩
      simp only [hstep, act, hphase, hr, if_true, CaptureAction.time, checkStall_of_lt, hintime]
      exact ⟨fun _ => by simp [Sleeping],
        fun told => ⟨by simp [Sleeping], fun hpos _ => told.recording hpos ⟨since, .inl hphase⟩⟩⟩
  | recording now =>
    refine .inr ⟨trivial, ?_⟩
    simp only [hstep, act, hr, if_true, onAudioCaptureState]
    exact ⟨fun _ => by simp [Sleeping], fun _ => ⟨by simp [Sleeping], by simp [CaptureEvent.report]⟩⟩
  | frame now =>
    obtain ⟨-, since, hphase⟩ := enabled_frame.mp he
    refine .inr ⟨trivial, fun _ => ?_, fun _ => hstep ▸ told_noteFrameSent _ now⟩
    simp [hstep, act, Sleeping, hphase]
  | turn now =>
    obtain ⟨-, since, hphase⟩ := enabled_turn.mp he
    refine .inr ⟨trivial, ?_⟩
    simp only [hstep, act, hphase]
    exact ⟨fun _ => by simp [Sleeping], fun told => (told_now told now).turn hphase⟩
  | wake now =>
    obtain ⟨-, wake, hphase, -⟩ := enabled_wake.mp he
    refine .inr ⟨trivial, ?_⟩
    simp only [hstep, act, hr, if_true]
    exact ⟨fun _ => by simp [Sleeping],
      fun told => ⟨fun hpos _ => told.failed hpos (.inr ⟨wake, hphase⟩), by simp⟩⟩
  | stop now =>
    rw [hstep]
    exact .inr ⟨trivial, fun hawake => hawake, fun told => ⟨told.failed, told.recording⟩⟩

theorem truthful_iff {s : Capture} (told : s.Told) (a : CaptureAction) :
    s.Truthful a ↔ s.FailsAloud a := by
  by_cases he : s.Enabled a
  swap
  · refine iff_of_true (fun hawake hsleeping => ?_) ?_
    · exact absurd (step_of_not_enabled he ▸ hsleeping) hawake
    · cases a <;> simp only [FailsAloud] <;> exact fun h => absurd h he
  by_cases hr : s.running = true
  swap
  · have hr' : (s.step a).running ≠ true := by
      obtain h | ⟨-, h⟩ := running_step s a <;> simp_all
    refine iff_of_true (fun _ _ hrun => absurd hrun hr') ?_
    cases a <;> simp only [FailsAloud] <;> exact fun _ hrun => absurd hrun hr
  obtain ⟨now, message, className, hattempting, hstep, hfails⟩ | ⟨hfails, hawake, -⟩ :=
    fails_or_goes_on he hr
  · have hsleeping := endAttempt_sleeping (s := { s with now := now }) now
      (.failed message className) hr
    rw [truthful_iff_reported hattempting.not_sleeping (hstep ▸ hsleeping) (by simp [hstep, hr]),
      hstep, endAttempt_reportedFailure (told_now told now) now message className hr hattempting,
      hfails]
  · exact iff_of_true (fun h hsleeping => absurd hsleeping (hawake h)) hfails

theorem told_start (t₀ : Nat) : (start t₀).Told where
  failed h := absurd h (Nat.lt_irrefl 0)
  recording h := absurd h (Nat.lt_irrefl 0)

/-- A failed attempt that was reported leaves the client told. -/
theorem told_endAttempt {s : Capture} (now : Nat) (e : CaptureEvent) (hr : s.running = true)
    (h : (s.endAttempt now e).ReportedFailure) : (s.endAttempt now e).Told where
  failed _ _ := h
  recording _ hrecording := by
    obtain ⟨since, h | h⟩ := hrecording <;> simp [hr] at h

theorem told_of_ended {s : Capture} (h : s.phase = .ended) : s.Told where
  failed _ hphase := by
    obtain h' | ⟨wake, h'⟩ := hphase <;> simp [h] at h'
  recording _ hrecording := by
    obtain ⟨since, h' | h'⟩ := hrecording <;> simp [h] at h'

/-- A stopped capture ends, or goes on to its next check. -/
theorem Told.step_stopped {s : Capture} (told : s.Told) {a : CaptureAction} (he : s.Enabled a)
    (hr : ¬s.running = true) : (s.step a).Told := by
  rw [step_of_enabled he]
  cases a with
  | recording now => exact told_of_ended (by simp [act, hr])
  | check now =>
    obtain ⟨-, since, hphase⟩ := enabled_check.mp he
    exact told_of_ended (by simp [act, hr, hphase])
  | frame now => exact told_noteFrameSent _ now
  | turn now =>
    obtain ⟨-, since, hphase⟩ := enabled_turn.mp he
    simp only [act, hphase]
    exact (told_now told now).turn hphase
  | fail now message className => exact told_of_ended (by simp [act, hr])
  | wake now => exact told_of_ended (by simp [act, hr])
  | stop now => exact ⟨told.failed, told.recording⟩

theorem Told.step {s : Capture} (told : s.Told) {a : CaptureAction} (h : s.FailsAloud a) :
    (s.step a).Told := by
  by_cases he : s.Enabled a
  swap
  · rwa [step_of_not_enabled he]
  by_cases hr : s.running = true
  swap
  · exact told.step_stopped he hr
  obtain ⟨now, message, className, hattempting, hstep, hfails⟩ | ⟨-, -, hgoesOn⟩ :=
    fails_or_goes_on he hr
  · rw [hstep]
    refine told_endAttempt now _ hr ?_
    exact (endAttempt_reportedFailure (told_now told now) now message className hr
      hattempting).mpr (hfails.mp h)
  · exact hgoesOn told

/-- Whatever attempts a capture makes, the last report is a failure whenever its thread goes to
sleep, if and only if no attempt fails in silence: having recorded, and behind a failure with no
frame since, or for want of a text. -/
theorem last_report_truthful_iff (t₀ : Nat) (actions : List CaptureAction) :
    Run.Along step Truthful (start t₀) actions ↔ Run.Along step FailsAloud (start t₀) actions :=
  Run.along_iff_of_kept (I := Told) (fun _ _ told h => told.step h)
    (fun _ a told => truthful_iff told a) (told_start t₀) actions

/-- Two attempts in a row record and then fail. -/
def failedTwice : List CaptureAction :=
  [.recording 0, .fail 1 (some "codec") "IOException", .wake 1000000001, .recording 1000000001,
    .fail 1000000002 (some "codec") "IOException"]

/-- The client was told last that the second attempt records. -/
theorem last_report_failed_twice : ¬Run.Along step Truthful (start 0) failedTwice := by
  intro h
  obtain ⟨text, -, hlast⟩ := h.2.2.2.2.1 (by rintro ⟨wake, h⟩; cases h) ⟨2000000002, by decide⟩
    (by decide)
  cases hlast

end Capture
end Kulua.Audio
