import Kulua.Audio.Session

/-! The counter of frames carries no revision. A frame of an old plan that is counted after a
tick loaded the counter and issued a new plan looks like progress of the new one. -/

namespace Kulua.Audio
open Foundation Foundation.Run

namespace Link

variable (self : Link)

theorem drive_lastFrames (now : Nat) (target : AudioTarget) (frames : Nat) :
    (self.drive now target frames).1.lastFrames = frames :=
  (self.act_progress (.drive now target frames)).1

/-- A drive issues the target, for a change of it or as a retry. -/
theorem drive_issue {now frames : Nat} {target : AudioTarget} {issue : Issue}
    (h : (self.drive now target frames).2.issue = some issue) :
    (target ≠ self.applied ∨ self.Retries now) ∧
      (self.drive now target frames).1.plan.enabled = target.enabled := by
  change ((self.noteProgress now frames).1.decide now target).2 = some issue at h
  change _ ∧ ((self.noteProgress now frames).1.decide now target).1.plan.enabled = _
  obtain ⟨hother, heq⟩ | ⟨-, -, heq⟩ | ⟨-, tried, at_, error, -, -, -, heq⟩ |
      ⟨hsame, tried, at_, hpending, hdue, hfew, heq⟩ :=
    (self.noteProgress now frames).1.decide_cases now target
  · exact ⟨.inl (by simpa using hother), by simp [heq]⟩
  · simp [heq] at h
  · simp [heq] at h
  · refine ⟨.inr ⟨(tried, at_), by simpa using hpending, hdue, hfew⟩, ?_⟩
    rw [heq]
    simp [hsame]

theorem pollStallRetry_issue {now : Nat} {issue : Issue}
    (h : (self.pollStallRetry now).2 = some issue) :
    self.Heals now ∧ (self.pollStallRetry now).1.plan.enabled = self.applied.enabled := by
  obtain ⟨-, heq⟩ | ⟨hheals, heq⟩ := self.pollStallRetry_cases now
  · simp [heq] at h
  · exact ⟨hheals, by simp [heq]⟩

theorem pollStallRetry_lastFrames (now : Nat) :
    (self.pollStallRetry now).1.lastFrames = self.lastFrames :=
  (self.act_progress (.pollStallRetry now)).1

/-- Only a new count of frames, with the audio on, switches a link on or recovers it. -/
theorem drive_revives {now frames : Nat} {target : AudioTarget}
    (h : (self.drive now target frames).2.recovered = true ∨
      self.runtime.state ≠ .on ∧ (self.drive now target frames).1.runtime.state = .on) :
    self.plan.enabled = true ∧ frames ≠ self.lastFrames := by
  obtain hrecovered | ⟨hoff, hon⟩ := h
  · change (self.noteProgress now frames).2.2 = true at hrecovered
    unfold noteProgress at hrecovered
    split at hrecovered
    · rename_i hframes
      split at hrecovered
      · rename_i henabled
        exact ⟨henabled.1, hframes⟩
      · cases hrecovered
    · split at hrecovered <;> cases hrecovered
  · change ((self.noteProgress now frames).1.decide now target).1.runtime.state = .on at hon
    have hstate : (self.noteProgress now frames).1.runtime.state = .on := by
      obtain ⟨-, heq⟩ | ⟨-, -, heq⟩ | ⟨-, tried, at_, error, -, -, -, heq⟩ |
          ⟨-, tried, at_, -, -, -, heq⟩ :=
        (self.noteProgress now frames).1.decide_cases now target
      · simp only [heq, issue_fields] at hon
        split at hon <;> cases hon
      · simpa only [heq] using hon
      · simp [heq] at hon
      · simp only [heq, issue_fields] at hon
        split at hon <;> cases hon
    rw [noteProgress_state] at hstate
    split_ifs at hstate <;> simp_all

end Link

namespace Session

/-- The drive at hand switches the link on, or reports a recovery. -/
def revives (s : Session) (a : Action) : Bool :=
  match a, s.runner with
  | .drive, .ticking now target frames =>
    (s.link.drive now target frames).2.recovered ||
      decide (s.link.runtime.state ≠ .on ∧
        (s.link.drive now target frames).1.runtime.state = .on)
  | _, _ => false

/-- No frame is counted between the load of the counter and the command that switches the audio
to a new revision, nor after that, as long as the task has not observed the new plan. -/
def untangled (s : Session) (a : Action) : Bool :=
  match a, s.runner with
  | .drive, .ticking now target frames =>
    decide ((target ≠ s.link.applied ∨ s.link.Retries now) → target.enabled = true →
      s.audioFrames = frames)
  | .pollStallRetry, .polling now frames =>
    decide (s.link.Heals now → s.link.applied.enabled = true → s.audioFrames = frames)
  | .count, _ =>
    decide (s.phase = .counting → s.link.plan.enabled = true →
      s.task.plan.revision = s.link.plan.revision)
  | _, _ => true

/-- What the counter had when it was loaded, once the link was driven with it. -/
def driven? (s : Session) : Option Nat :=
  match s.runner with
  | .sending _ frames _ | .publishing _ frames _ | .polling _ frames => some frames
  | _ => none

/-- The invariant: while the audio is on, what was counted since the link was driven is of its
revision. -/
structure Tagged (s : Session) : Prop where
  progress : s.link.plan.enabled = true → s.audioFrames ≠ s.link.lastFrames →
    s.link.plan.revision ∈ s.fed
  loaded : ∀ now target frames, s.runner = .ticking now target frames →
    s.link.plan.enabled = true → frames ≠ s.link.lastFrames ∨ s.audioFrames ≠ frames →
    s.link.plan.revision ∈ s.fed
  driven : ∀ frames ∈ s.driven?, s.link.lastFrames = frames
  counting : s.phase = .counting → s.task.plan.revision ∈ s.fed

theorem tagged_init (target : AudioTarget) (now : Nat) : (init target now).Tagged where
  progress := by simp [init, Link.init]
  loaded := by simp [init]
  driven := by simp [init, driven?]
  counting := by simp [init]

variable {s : Session}

/-- A new plan starts with the counter where the link's baseline is. -/
theorem Tagged.issue (h : s.Tagged) {link : Link} {now frames : Nat} {issue : Issue}
    (hlast : link.lastFrames = frames)
    (hframes : link.plan.enabled = true → s.audioFrames = frames) :
    Tagged { s with link := link, runner := .sending now frames issue } where
  progress henabled hmoved := absurd ((hframes henabled).trans hlast.symm) hmoved
  loaded := by simp
  driven := by simpa [driven?] using hlast
  counting := h.counting

/-- The plan stays, and so does what is known of its frames. -/
theorem Tagged.quiet (h : s.Tagged) {link : Link} {runner : Runner}
    (hadvances : Link.Advances s.link link none)
    (hmoved : s.link.plan.enabled = true → s.audioFrames ≠ link.lastFrames →
      s.link.plan.revision ∈ s.fed)
    (hrunner : ∀ now target frames, runner ≠ .ticking now target frames)
    (hdriven : ∀ frames ∈ driven? { s with link := link, runner := runner },
      link.lastFrames = frames) :
    Tagged { s with link := link, runner := runner } where
  progress := by
    have hplan : link.plan = s.link.plan := hadvances
    rwa [hplan]
  loaded now target frames heq := absurd heq (hrunner now target frames)
  driven := hdriven
  counting := h.counting

theorem tagged_act (h : s.Tagged) {a : Action} (ha : s.untangled a = true) : (s.act a).Tagged := by
  have hmove := s.moves a
  generalize s.act a = next at hmove ⊢
  cases hmove with
  | driveIssue hrunner hissue =>
    obtain ⟨hcause, henabled⟩ := s.link.drive_issue hissue
    refine h.issue (s.link.drive_lastFrames ..) fun hon => ?_
    rw [henabled] at hon
    simp only [untangled, hrunner, decide_eq_true_eq] at ha
    exact ha hcause hon
  | driveQuiet hrunner hissue =>
    refine h.quiet (hissue ▸ Link.advances_drive ..) (fun hon hmoved => ?_) (by simp)
      (by simpa [driven?] using s.link.drive_lastFrames _ _ _)
    rw [Link.drive_lastFrames] at hmoved
    exact h.loaded _ _ _ hrunner hon (.inr hmoved)
  | retryIssue hrunner hissue =>
    obtain ⟨hheals, henabled⟩ := s.link.pollStallRetry_issue hissue
    have hlast := h.driven _ (by rw [driven?, hrunner]; rfl)
    refine h.issue ((s.link.pollStallRetry_lastFrames _).trans hlast) fun hon => ?_
    rw [henabled] at hon
    simp only [untangled, hrunner, decide_eq_true_eq] at ha
    exact ha hheals hon
  | retryQuiet hrunner hissue =>
    refine h.quiet (hissue ▸ Link.advances_pollStallRetry ..) (fun hon hmoved => ?_) (by simp)
      (by simp [driven?])
    rw [Link.pollStallRetry_lastFrames] at hmoved
    exact h.progress hon hmoved
  | audioState hrunner =>
    refine h.quiet (Link.onState_plan ..) (fun hon hmoved => ?_) (by simp [hrunner])
      (by simp [driven?, hrunner])
    rw [(Link.onState_fixed ..).2.2.1] at hmoved
    exact h.progress hon hmoved
  | tick hrunner =>
    refine ⟨h.progress, fun now target frames heq hon hmoved => ?_, by simp [driven?], h.counting⟩
    obtain ⟨-, -, rfl⟩ : _ = now ∧ _ = target ∧ s.audioFrames = frames := by simpa using heq
    exact h.progress hon (hmoved.resolve_right fun hne => hne rfl)
  | sent hrunner =>
    have hdriven := h.driven _ (by rw [driven?, hrunner]; rfl)
    exact ⟨h.progress, by simp, by simpa [driven?] using hdriven, h.counting⟩
  | publish hrunner hnext =>
    have hdriven := h.driven _ (by rw [driven?, hrunner]; rfl)
    refine ⟨h.progress, ?_, ?_, h.counting⟩
    · rcases hnext with rfl | rfl <;> simp
    · rcases hnext with rfl | rfl
      · simp [driven?]
      · simpa [driven?] using hdriven
  | passedOver | cutOff | mediaConfig | audio | forward | stop =>
    exact ⟨h.progress, by simp, by simp [driven?], h.counting⟩
  | count hphase =>
    have hcurrent : s.link.plan.enabled = true → s.link.plan.revision ∈ s.fed := by
      intro hon
      simp only [untangled, decide_eq_true_eq] at ha
      exact ha hphase hon ▸ h.counting hphase
    exact ⟨fun hon _ => hcurrent hon, fun _ _ _ _ hon _ => hcurrent hon, h.driven, by simp⟩
  | recvFed hphase hqueue hfeed hsuccess =>
    have hmem : ∀ revision, revision ∈ s.fed → ∀ last, revision ∈ s.fed ++ [last] :=
      fun _ hrevision _ => List.mem_append_left _ hrevision
    refine ⟨fun hon hmoved => hmem _ (h.progress hon hmoved) _, fun now target frames hrunner hon
      hmoved => hmem _ (h.loaded now target frames hrunner hon hmoved) _, h.driven, fun _ => ?_⟩
    rw [AudioTask.next_recv_plan, ← AudioTask.feed_revision hfeed]
    exact List.mem_append_right _ (List.mem_singleton_self _)
  | idle => exact h
  | startTask | pollPending | pollReady | borrow | recvEmpty | recvUnfed =>
    exact ⟨h.progress, h.loaded, h.driven, by simp⟩

/-- A link that is switched on by frames has had one of its revision, as long as no frame of an
old plan is counted for a new one. -/
theorem revived_by_current_frames (target : AudioTarget) (now : Nat) (actions : List Action)
    (huntangled : Along act (fun s a => s.untangled a = true) (init target now) actions) :
    Along act (fun s a => s.revives a = true → s.link.plan.revision ∈ s.fed) (init target now)
      actions := by
  refine along_of_kept (I := Tagged) (fun s a h ha => tagged_act h ha) ?_ (tagged_init target now)
    huntangled
  intro s a h ha hrevives
  clear ha
  unfold revives at hrevives
  split at hrevives
  · rename_i now target frames hrunner
    obtain ⟨hon, hmoved⟩ := s.link.drive_revives (by simpa using hrevives)
    exact h.loaded _ _ _ hrunner hon (.inl hmoved)
  · cases hrevives

/-- A frame comes, is fed and is counted. -/
def frameComes (revision : BitVec 64) : List Action :=
  [.audio ⟨0, revision, 0, [1, 2]⟩, .forward, .pollChanged,
    .pollRecv ⟨true, 100, 100, 0, true⟩, .count]

/-- The codec is changed before any frame; the first one is of the new plan. -/
def codecChange : List Action :=
  [.startTask 100, .tick 0 ⟨true, 1⟩, .drive, .sendCtrl true, .publish, .pollStallRetry,
    .pollChanged, .borrow] ++ frameComes 1 ++ [.tick (second / 4) ⟨true, 1⟩, .drive]

theorem revived_by_current_frames_codec_change :
    Along act (fun s a => s.revives a = true → s.link.plan.revision ∈ s.fed) (init ⟨true, 0⟩ 0)
      codecChange :=
  revived_by_current_frames ⟨true, 0⟩ 0 codecChange (by decide)

/-- Frames flow while the codec is changed: the last one of the old plan is counted after the
tick has loaded the counter. -/
def lateFrame : List Action :=
  .startTask 100 :: frameComes 0 ++ [.tick 0 ⟨true, 0⟩, .drive, .pollStallRetry] ++
    (frameComes 0).dropLast ++
    [.tick (second / 4) ⟨true, 1⟩, .drive, .count, .sendCtrl true, .publish, .pollStallRetry,
      .tick (second / 2) ⟨true, 1⟩, .drive]

theorem revived_by_late_frame :
    ¬Along act (fun s a => s.revives a = true → s.link.plan.revision ∈ s.fed) (init ⟨true, 0⟩ 0)
      lateFrame := by
  decide

end Session

end Kulua.Audio
