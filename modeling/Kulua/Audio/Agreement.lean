import Kulua.Audio.AudioLink
import Kulua.Foundation.Run

/-! The two sides of the audio control together: the loop of `runner.rs` with its
`Link`, the phone with its `AudioLink`, and between them the reliable control stream,
which hands over commands and receipts once and in order. Whatever carries a revision
is behind the PC's plan, or agrees with it. -/

namespace Kulua.Audio.Agreement
open Foundation

structure State where
  target : AudioTarget
  link : Link
  /-- The loop of the session has not ended. -/
  running : Bool
  toPhone : List SetAudio
  phone : AudioLink
  toPc : List AudioState
  deriving DecidableEq, Repr

/-- A session that was just set up: the phone has the codec the target names. -/
def init (target : AudioTarget) (now bitRate : Nat) : State where
  target := target
  link := Link.init target now
  running := true
  toPhone := []
  phone := (AudioLink.init target.enabled bitRate (codecOf target.codec)).start
  toPc := []

/-- A tick of the loop is a `drive` and then a `pollStallRetry`; `accepted` says
whether the session takes the command that is issued. -/
inductive Action where
  | setTarget (target : AudioTarget)
  | drive (now frames : Nat) (accepted : Bool)
  | pollStallRetry (now : Nat) (accepted : Bool)
  | deliverSetAudio
  | executor
  | capture (i : Nat) (event : CaptureEvent)
  | deliverAudioState
  | close
  deriving DecidableEq, Repr

/-- `send_audio`, where the session takes the command. -/
def setAudio (plan : AudioPlan) : SetAudio := ⟨plan.enabled, plan.codec.setWidth 32, plan.revision⟩

def commands (issued : Option Issue) (accepted : Bool) : List SetAudio :=
  if accepted then (issued.map fun i => setAudio i.plan).toList else []

def step (s : State) : Action → State
  | .setTarget target => { s with target := target }
  | .drive now frames accepted =>
    if s.running then
      let (link, tick) := s.link.drive now s.target frames
      { s with
        link := link
        toPhone := s.toPhone ++ commands tick.issue accepted
        -- a command that is not taken ends the session
        running := tick.issue.isNone || accepted }
    else s
  | .pollStallRetry now accepted =>
    if s.running then
      let (link, issued) := s.link.pollStallRetry now
      { s with link := link, toPhone := s.toPhone ++ commands issued accepted }
    else s
  | .deliverSetAudio =>
    match s.toPhone with
    | [] => s
    | m :: rest =>
      { s with phone := s.phone.applyAudio m.enabled m.codec m.revision, toPhone := rest }
  | .executor =>
    let (phone, sent) := s.phone.executorStep
    { s with phone := phone, toPc := s.toPc ++ sent.toList }
  | .capture i event =>
    let (phone, sent) := s.phone.captureStep i event
    { s with phone := phone, toPc := s.toPc ++ sent.toList }
  | .deliverAudioState =>
    if s.running then
      match s.toPc with
      | [] => s
      | st :: rest =>
        { s with
          link := (s.link.onState st.revision st.enabled st.codecId st.error).1
          toPc := rest }
    else s
  | .close => { s with phone := s.phone.close }

/-- A revision is not ahead of the plan, and `P` holds if it is the plan's. -/
def Current (plan : AudioPlan) (revision : Nat) (P : Prop) : Prop :=
  revision ≤ plan.revision ∧ (revision = plan.revision → P)

def SetAudio.Current (plan : AudioPlan) (m : SetAudio) : Prop :=
  Agreement.Current plan m.revision
    (m.enabled = plan.enabled ∧ codecNameForIndex m.codec = codecOf plan.codec)

def Task.Current (plan : AudioPlan) : Task → Prop
  | .stop => True
  | .apply enabled name revision =>
    Agreement.Current plan revision (enabled = plan.enabled ∧ name = codecOf plan.codec)

/-- A receipt of the plan's revision has the plan's codec if the audio is on. -/
def AudioState.Current (plan : AudioPlan) (st : AudioState) : Prop :=
  Agreement.Current plan st.revision
    (st.enabled = true → plan.enabled = true ∧ st.codecId = codecIdFor (codecOf plan.codec))

def Callback.Current (plan : AudioPlan) (revision : Nat) : Callback → Prop
  | .checked .. => True
  | .built st => st.revision = revision ∧ AudioState.Current plan st

/-- Captures are of revisions that the phone has executed, with the audio on. -/
structure CaptureThread.Current (plan : AudioPlan) (executed : Nat) (t : CaptureThread) :
    Prop where
  executed : t.capture.revision ≤ executed
  enabled : t.capture.revision = plan.revision → plan.enabled = true
  callback : ∀ c ∈ t.callback, Callback.Current plan t.capture.revision c

structure AudioLink.Current (plan : AudioPlan) (p : AudioLink) : Prop where
  configured : Agreement.Current plan p.currentRevision
    ((p.closed = false → p.enabled = plan.enabled) ∧ p.codecName = codecOf plan.codec)
  queued : ∀ task ∈ p.executor, Task.Current plan task
  sending : ∀ st ∈ p.sending, AudioState.Current plan st
  threads : ∀ t ∈ p.threads, CaptureThread.Current plan p.currentRevision t

/-- The invariant: everything that carries a revision is current. -/
structure Agreeing (s : State) : Prop where
  phone : AudioLink.Current s.link.plan s.phone
  toPhone : ∀ m ∈ s.toPhone, SetAudio.Current s.link.plan m
  toPc : ∀ st ∈ s.toPc, AudioState.Current s.link.plan st

section Advance

variable {plan next : AudioPlan}

theorem Current.mono {revision : Nat} {P Q : Prop} (h : Current plan revision P)
    (imp : P → Q) : Current plan revision Q := ⟨h.1, fun he => imp (h.2 he)⟩

/-- What was current is behind a plan with a higher revision. -/
theorem Current.advance {revision : Nat} {P Q : Prop} (h : Current plan revision P)
    (later : plan.revision < next.revision) : Current next revision Q :=
  ⟨h.1.trans later.le, fun he => absurd he (h.1.trans_lt later).ne⟩

theorem Callback.Current.advance {revision : Nat} {c : Callback}
    (h : Callback.Current plan revision c) (later : plan.revision < next.revision) :
    Callback.Current next revision c := by
  cases c with
  | checked => trivial
  | built st => exact ⟨h.1, h.2.advance later⟩

theorem AudioLink.Current.advance {p : AudioLink} (h : AudioLink.Current plan p)
    (later : plan.revision < next.revision) : AudioLink.Current next p where
  configured := h.configured.advance later
  queued task htask := by
    have hcur := h.queued task htask
    cases task with
    | apply enabled name revision => exact hcur.advance later
    | stop => trivial
  sending st hst := (h.sending st hst).advance later
  threads t ht := by
    have hcur := h.threads t ht
    have hold : t.capture.revision ≤ plan.revision := hcur.executed.trans h.configured.1
    exact
      { executed := hcur.executed
        enabled := fun he => absurd he (hold.trans_lt later).ne
        callback := fun c hc => (hcur.callback c hc).advance later }

end Advance

section Phone

variable {plan : AudioPlan} {p : AudioLink}

theorem AudioLink.Current.init (target : AudioTarget) (now bitRate : Nat) :
    AudioLink.Current (Link.init target now).plan
      (AudioLink.init target.enabled bitRate (codecOf target.codec)).start := by
  cases h : target.enabled
  · exact
      { configured := ⟨le_rfl, fun _ => ⟨fun _ => h.symm, rfl⟩⟩
        queued := by simp [AudioLink.start, AudioLink.init]
        sending := by simp [AudioLink.start, AudioLink.init]
        threads := by simp [AudioLink.start, AudioLink.init] }
  · refine
      { configured := ⟨le_rfl, fun _ => ⟨fun _ => h.symm, rfl⟩⟩
        queued := by simp [AudioLink.start, AudioLink.init, AudioLink.startCapture]
        sending := by simp [AudioLink.start, AudioLink.init, AudioLink.startCapture]
        threads := fun t ht => ?_ }
    simp only [AudioLink.start, AudioLink.init, AudioLink.startCapture, if_true, List.nil_append,
      List.mem_singleton] at ht
    subst ht
    exact ⟨le_rfl, fun _ => h, by simp⟩

theorem AudioLink.Current.applyAudio (h : AudioLink.Current plan p) {m : SetAudio}
    (hm : SetAudio.Current plan m) :
    AudioLink.Current plan (p.applyAudio m.enabled m.codec m.revision) := by
  unfold AudioLink.applyAudio
  split
  · exact h
  · refine { h with queued := fun task htask => ?_ }
    rcases List.mem_append.mp htask with htask | htask
    · exact h.queued task htask
    · rw [List.mem_singleton.mp htask]
      exact hm

/-- A command that is executed takes the phone to its revision: all captures are older. -/
theorem AudioLink.Current.runTask (h : AudioLink.Current plan p) {task : Task}
    (htask : Task.Current plan task) : AudioLink.Current plan (p.runTask task) := by
  cases task with
  | stop => exact { h with }
  | apply enabled name revision =>
      simp only [AudioLink.runTask]
      split
      · exact h
      · rename_i hrun
        simp only [not_or, not_le] at hrun
        have hconf : Agreement.Current plan revision
            ((p.closed = false → enabled = plan.enabled) ∧ name = codecOf plan.codec) :=
          htask.mono fun he => ⟨fun _ => he.1, he.2⟩
        have hold : ∀ t ∈ p.threads, CaptureThread.Current plan revision t := fun t ht =>
          { h.threads t ht with executed := (h.threads t ht).executed.trans hrun.2.le }
        split
        · rename_i hon
          refine
            { configured := hconf
              queued := h.queued
              sending := h.sending
              threads := fun t ht => ?_ }
          rcases List.mem_append.mp ht with ht | ht
          · exact hold t ht
          · rw [List.mem_singleton.mp ht]
            exact ⟨le_rfl, fun he => (htask.2 he).1 ▸ hon, by simp⟩
        · refine
            { configured := hconf
              queued := h.queued
              sending := fun st hst => ?_
              threads := hold }
          obtain rfl := Option.some.inj hst
          exact ⟨htask.1, fun _ hon => by cases hon⟩

theorem AudioLink.Current.executorStep (h : AudioLink.Current plan p) :
    AudioLink.Current plan p.executorStep.1 ∧
      ∀ st ∈ p.executorStep.2, AudioState.Current plan st := by
  unfold AudioLink.executorStep
  split
  · rename_i st hst
    exact ⟨{ h with sending := by simp }, fun st' hst' => h.sending st' (hst.trans hst')⟩
  · rename_i hidle
    split
    · exact ⟨h, by simp⟩
    · rename_i task rest htasks
      have hqueued := htasks ▸ h.queued
      have hrest : AudioLink.Current plan { p with executor := rest } :=
        { h with queued := fun t ht => hqueued t (List.mem_cons_of_mem _ ht) }
      exact ⟨hrest.runTask (hqueued task (List.mem_cons_self ..)), by simp⟩

/-- The codec is read after the check; if a command was executed in between, the receipt
is of an older revision than the plan. -/
theorem AudioLink.Current.callbackStep (h : AudioLink.Current plan p) {t : CaptureThread}
    (ht : CaptureThread.Current plan p.currentRevision t) (event : CaptureEvent) :
    (∀ c ∈ (p.callbackStep t event).1, Callback.Current plan t.capture.revision c) ∧
      ∀ st ∈ (p.callbackStep t event).2, AudioState.Current plan st := by
  unfold AudioLink.callbackStep
  split
  · split
    · simp
    · simp [Callback.Current]
  · rename_i enabled error _
    refine ⟨fun c hc => ?_, by simp⟩
    obtain rfl := Option.some.inj hc
    refine ⟨rfl, ht.executed.trans h.configured.1, fun he hon => ⟨ht.enabled he, ?_⟩⟩
    have hon : enabled = true := hon
    have hcur : p.currentRevision = plan.revision :=
      le_antisymm h.configured.1 (he ▸ ht.executed)
    simp [AudioLink.audioState, hon, (h.configured.2 hcur).2]
  · rename_i st hst
    refine ⟨by simp, fun st' hst' => ?_⟩
    obtain rfl := Option.some.inj hst'
    exact (ht.callback _ hst).2

theorem AudioLink.Current.captureStep (h : AudioLink.Current plan p) (i : Nat)
    (event : CaptureEvent) :
    AudioLink.Current plan (p.captureStep i event).1 ∧
      ∀ st ∈ (p.captureStep i event).2, AudioState.Current plan st := by
  unfold AudioLink.captureStep
  split
  · exact ⟨h, by simp⟩
  · rename_i t hget
    have ht := h.threads t (List.mem_of_getElem? hget)
    obtain ⟨hcallback, hsent⟩ := h.callbackStep ht event
    refine ⟨{ h with threads := fun t' ht' => ?_ }, hsent⟩
    rcases List.mem_or_eq_of_mem_set ht' with ht' | rfl
    · exact h.threads t' ht'
    · exact { ht with callback := hcallback }

theorem AudioLink.Current.close (h : AudioLink.Current plan p) :
    AudioLink.Current plan p.close := by
  unfold AudioLink.close
  split
  · exact h
  · refine
      { h with
        configured := h.configured.mono fun hconf => ⟨fun hopen => Bool.noConfusion hopen, hconf.2⟩
        queued := fun task htask => ?_ }
    have htask : task ∈ p.executor ∨ task = .stop := by
      revert htask
      dsimp only
      split
      · exact Or.inl
      · simp
    rcases htask with htask | rfl
    · exact h.queued task htask
    · trivial

end Phone

theorem setAudio_current (plan : AudioPlan) : SetAudio.Current plan (setAudio plan) :=
  ⟨le_rfl, fun _ => ⟨rfl, codecNameForIndex_setWidth plan.codec⟩⟩

/-- Whatever the PC issues, all that is under way stays current. -/
theorem Agreeing.advance {s : State} (h : Agreeing s) {link : Link} {issued : Option Issue}
    (adv : s.link.Advances link issued) (accepted : Bool) :
    AudioLink.Current link.plan s.phone ∧
      (∀ m ∈ s.toPhone ++ commands issued accepted, SetAudio.Current link.plan m) ∧
      ∀ st ∈ s.toPc, AudioState.Current link.plan st := by
  cases issued with
  | none =>
      have hplan : link.plan = s.link.plan := adv
      rw [hplan]
      refine ⟨h.phone, ?_, h.toPc⟩
      cases accepted <;> simpa [commands] using h.toPhone
  | some i =>
      obtain ⟨hplan, hnext⟩ := adv
      have later : s.link.plan.revision < link.plan.revision := by
        rw [hplan, hnext]
        omega
      refine ⟨h.phone.advance later, fun m hm => ?_, fun st hst => (h.toPc st hst).advance later⟩
      rcases List.mem_append.mp hm with hm | hm
      · exact (h.toPhone m hm).advance later
      · cases accepted
        · simp [commands] at hm
        · simp only [commands, if_true, Option.map_some, Option.toList_some,
            List.mem_singleton] at hm
          rw [hm, hplan]
          exact setAudio_current i.plan

private theorem mem_append_toList {α : Type*} {xs : List α} {o : Option α} {P : α → Prop}
    (hxs : ∀ x ∈ xs, P x) (ho : ∀ x ∈ o, P x) : ∀ x ∈ xs ++ o.toList, P x := by
  intro x hx
  rcases List.mem_append.mp hx with hx | hx
  · exact hxs x hx
  · exact ho x (Option.mem_toList.mp hx)

theorem Agreeing.step {s : State} (h : Agreeing s) (a : Action) : Agreeing (step s a) := by
  cases a with
  | setTarget target => exact { h with }
  | drive now frames accepted =>
      simp only [Agreement.step]
      split
      · obtain ⟨hphone, htoPhone, htoPc⟩ :=
          h.advance (s.link.advances_drive now s.target frames) accepted
        exact ⟨hphone, htoPhone, htoPc⟩
      · exact h
  | pollStallRetry now accepted =>
      simp only [Agreement.step]
      split
      · obtain ⟨hphone, htoPhone, htoPc⟩ :=
          h.advance (s.link.advances_pollStallRetry now) accepted
        exact ⟨hphone, htoPhone, htoPc⟩
      · exact h
  | deliverSetAudio =>
      simp only [Agreement.step]
      split
      · exact h
      · rename_i m rest hqueue
        have hall := hqueue ▸ h.toPhone
        exact
          { h with
            phone := h.phone.applyAudio (hall m (List.mem_cons_self ..))
            toPhone := fun m' hm' => hall m' (List.mem_cons_of_mem _ hm') }
  | executor =>
      obtain ⟨hphone, hsent⟩ := h.phone.executorStep
      exact { h with phone := hphone, toPc := mem_append_toList h.toPc hsent }
  | capture i event =>
      obtain ⟨hphone, hsent⟩ := h.phone.captureStep i event
      exact { h with phone := hphone, toPc := mem_append_toList h.toPc hsent }
  | deliverAudioState =>
      simp only [Agreement.step]
      split
      · split
        · exact h
        · rename_i st rest hqueue
          have hall := hqueue ▸ h.toPc
          have hplan := s.link.onState_plan st.revision st.enabled st.codecId st.error
          exact
            { phone := by simpa only [hplan] using h.phone
              toPhone := by simpa only [hplan] using h.toPhone
              toPc := fun st' hst' => by
                simpa only [hplan] using hall st' (List.mem_cons_of_mem _ hst') }
      · exact h
  | close => exact { h with phone := h.phone.close }

theorem agreeing_init (target : AudioTarget) (now bitRate : Nat) :
    Agreeing (init target now bitRate) where
  phone := AudioLink.Current.init target now bitRate
  toPhone := by simp [init]
  toPc := by simp [init]

theorem runTask_closed (p : AudioLink) (task : Task) : (p.runTask task).closed = p.closed := by
  cases task with
  | stop => rfl
  | apply enabled name revision =>
      simp only [AudioLink.runTask]
      split_ifs <;> rfl

theorem step_closed {s : State} {a : Action} (ha : a ≠ .close) :
    (step s a).phone.closed = s.phone.closed := by
  cases a with
  | setTarget target => rfl
  | drive now frames accepted =>
      simp only [step]
      split <;> rfl
  | pollStallRetry now accepted =>
      simp only [step]
      split <;> rfl
  | deliverSetAudio =>
      simp only [step]
      split
      · rfl
      · simp only [AudioLink.applyAudio]
        split <;> rfl
  | executor =>
      simp only [step, AudioLink.executorStep]
      split
      · rfl
      · split
        · rfl
        · exact runTask_closed _ _
  | capture i event =>
      simp only [step, AudioLink.captureStep]
      split <;> rfl
  | deliverAudioState =>
      simp only [step]
      split
      · split <;> rfl
      · rfl
  | close => exact absurd rfl ha

/-- Only `close` closes the phone's side. -/
theorem closed_run (target : AudioTarget) (now bitRate : Nat) {actions : List Action}
    (hopen : .close ∉ actions) :
    (Run.run step (init target now bitRate) actions).phone.closed = false := by
  have along : Run.Along step (fun _ a => a ≠ .close) (init target now bitRate) actions :=
    Run.along_of_forall _ fun a ha he => hopen (he ▸ ha)
  refine Run.invariant (I := fun s => s.phone.closed = false) (fun s a hs ha => ?_) ?_ along
  · rw [step_closed ha, hs]
  · simp only [init, AudioLink.start]
    split <;> rfl

/-- The phone has executed no revision beyond the plan's, and with the plan's it is
configured as the plan says while the client is not closed; a receipt that is taken is
of the plan's revision, and one that reports the audio on reports the plan's codec. -/
theorem audio_control_agreement (target : AudioTarget) (now bitRate : Nat)
    (actions : List Action) :
    let s := Run.run step (init target now bitRate) actions
    s.phone.currentRevision ≤ s.link.plan.revision ∧
    (s.phone.currentRevision = s.link.plan.revision → .close ∉ actions →
      s.phone.enabled = s.link.plan.enabled ∧
        s.phone.codecName = codecOf s.link.plan.codec) ∧
    ∀ st ∈ s.toPc.head?,
      (s.link.onState st.revision st.enabled st.codecId st.error).2 = true →
        st.revision = s.link.plan.revision ∧
        (st.enabled = true → s.link.plan.enabled = true ∧
          AudioCodec.fromCodecId st.codecId = some (codecOf s.link.plan.codec)) := by
  intro s
  have agree : Agreeing s :=
    Run.invariant_all (I := Agreeing) (fun _ a h => h.step a) (agreeing_init target now bitRate) actions
  refine ⟨agree.phone.configured.1, fun he hopen => ?_, fun st hst htaken => ?_⟩
  · obtain ⟨henabled, hcodec⟩ := agree.phone.configured.2 he
    exact ⟨henabled (closed_run target now bitRate hopen), hcodec⟩
  · obtain ⟨hle, hcur⟩ := agree.toPc st (List.mem_of_mem_head? hst)
    have hrev := le_antisymm hle ((s.link.onState_taken _ _ _ _).mp htaken)
    refine ⟨hrev, fun hon => ?_⟩
    obtain ⟨henabled, hcodec⟩ := hcur hrev hon
    exact ⟨henabled, hcodec ▸ fromCodecId_codecIdFor _⟩

end Kulua.Audio.Agreement
