import Kulua.Audio.Agreement
import Kulua.Audio.AudioTask
import Kulua.Audio.Timeline
import Kulua.Foundation.Watch

/-! `Session::run` of `runner.rs` beside its audio task, which runs on another thread. Both
share the plan, a bounded queue of events and the counter of frames. A step ends wherever one
of these is read or written: a tick loads the counter, drives the link, sends the command and
publishes the plan one after the other; a select of the task polls the plan and then the
queue; a frame is fed and then counted. -/

namespace Kulua.Audio
open Foundation Foundation.Run Media

inductive Runner where
  /-- In the select. -/
  | waiting
  /-- In a tick, with the target and the counter as they were loaded. -/
  | ticking (now : Nat) (target : AudioTarget) (frames : Nat)
  | sending (now frames : Nat) (issue : Issue)
  | publishing (now frames : Nat) (issue : Issue)
  /-- About to call `poll_stall_retry`. -/
  | polling (now frames : Nat)
  /-- Waiting for room in the queue. -/
  | forwarding (event : AudioEvent)
  | ended
  deriving DecidableEq, Repr

/-- The command that is not published yet. -/
def Runner.issue? : Runner → Option Issue
  | .sending _ _ issue | .publishing _ _ issue => some issue
  | _ => none

inductive Phase where
  | starting
  /-- About to poll `plan_rx.changed()`. -/
  | select
  /-- The poll was ready; the plan is to be borrowed. -/
  | changed
  /-- The poll was pending; `rx.recv()` is polled next. -/
  | polled
  /-- A frame was fed, and is to be counted. -/
  | counting
  deriving DecidableEq, Repr

structure Session where
  link : Link
  runner : Runner
  plan : Watch AudioPlan
  queue : List AudioEvent
  audioFrames : Nat
  /-- The commands that the reliable sender has; `send_ctrl` registers one before the socket
  is asked. -/
  handed : List SetAudio
  task : AudioTask
  phase : Phase
  /-- The version of the plan that the task's last ready poll saw. -/
  seen : Nat
  /-- The revisions of the frames that were fed with success. -/
  fed : List Nat
  deriving DecidableEq, Repr

namespace Session

def audioCapacity : Nat := 64

def init (target : AudioTarget) (now : Nat) : Session where
  link := Link.init target now
  runner := .waiting
  plan := Watch.new (Link.init target now).plan
  queue := []
  audioFrames := 0
  handed := []
  task := AudioTask.start (Link.init target now).plan 0
  phase := .starting
  seen := 0
  fed := []

variable (self : Session)

def tick (now : Nat) (target : AudioTarget) : Session :=
  match self.runner with
  | .waiting => { self with runner := .ticking now target self.audioFrames }
  | _ => self

def drive : Session :=
  match self.runner with
  | .ticking now target frames =>
    let (link, tick) := self.link.drive now target frames
    { self with
      link := link
      runner := match tick.issue with
        | some issue => .sending now frames issue
        | none => .polling now frames }
  | _ => self

/-- The socket takes the command or not. A failed send ends the session, but that of a stall
retry is passed over. -/
def sendCtrl (ok : Bool) : Session :=
  match self.runner with
  | .sending now frames issue =>
    { self with
      handed := self.handed ++ [Agreement.setAudio issue.plan]
      runner :=
        if ok then .publishing now frames issue
        else if issue.reason = .stall then .waiting
        else .ended }
  | _ => self

/-- After the plan of a drive the stall retry is polled; that one's plan ends the tick. -/
def publish : Session :=
  match self.runner with
  | .publishing now frames issue =>
    { self with
      plan := self.plan.send issue.plan
      runner := if issue.reason = .stall then .waiting else .polling now frames }
  | _ => self

def pollStallRetry : Session :=
  match self.runner with
  | .polling now frames =>
    let (link, issued) := self.link.pollStallRetry now
    { self with
      link := link
      runner := match issued with
        | some issue => .sending now frames issue
        | none => .waiting }
  | _ => self

def audioState (revision : Nat) (enabled : Bool) (codecId : BitVec 32) (error : String) : Session :=
  match self.runner with
  | .waiting => { self with link := (self.link.onState revision enabled codecId error).1 }
  | _ => self

def mediaConfig (revision : Nat) (data : Bytes) : Session :=
  match self.runner with
  | .waiting =>
    if self.link.plan.accepts revision then
      { self with runner := .forwarding (.config revision data) }
    else self
  | _ => self

def audio (frame : AssembledMedia) : Session :=
  match self.runner with
  | .waiting => { self with runner := .forwarding (.frame frame.revision.toNat frame) }
  | _ => self

def forward : Session :=
  match self.runner with
  | .forwarding event =>
    if self.queue.length < audioCapacity then
      { self with queue := self.queue ++ [event], runner := .waiting }
    else self
  | _ => self

/-- Any of the ways out of the loop's select. -/
def stop : Session :=
  match self.runner with
  | .waiting => { self with runner := .ended }
  | _ => self

def startTask (volume : BitVec 16) : Session :=
  match self.phase with
  | .starting =>
    { self with task := AudioTask.start self.plan.value volume, phase := .select }
  | _ => self

/-- The task is aborted with the session. -/
def pollChanged : Session :=
  match self.phase with
  | .select =>
    if self.runner = .ended then self
    else if self.plan.version = self.seen then { self with phase := .polled }
    else { self with phase := .changed, seen := self.plan.version }
  | _ => self

def borrow : Session :=
  match self.phase with
  | .changed =>
    { self with task := self.task.next (.changed self.plan.value), phase := .select }
  | _ => self

def pollRecv (around : Surroundings) : Session :=
  match self.phase with
  | .polled =>
    match self.queue with
    | [] => { self with phase := .select }
    | event :: rest =>
      let (task, feed) := self.task.step (.recv event around)
      match feed.filter Feed.success with
      | some feed =>
        { self with
          task := task, queue := rest, phase := .counting, fed := self.fed ++ [feed.revision] }
      | none => { self with task := task, queue := rest, phase := .select }
  | _ => self

def count : Session :=
  match self.phase with
  | .counting => { self with audioFrames := self.audioFrames + 1, phase := .select }
  | _ => self

/-- Steps of the runner, and then those of the task. -/
inductive Action where
  | tick (now : Nat) (target : AudioTarget)
  | drive
  | sendCtrl (ok : Bool)
  | publish
  | pollStallRetry
  | audioState (revision : Nat) (enabled : Bool) (codecId : BitVec 32) (error : String)
  | mediaConfig (revision : Nat) (data : Bytes)
  | audio (frame : AssembledMedia)
  | forward
  | stop
  | startTask (volume : BitVec 16)
  | pollChanged
  | borrow
  | pollRecv (around : Surroundings)
  | count
  deriving DecidableEq, Repr

def act : Action → Session
  | .tick now target => self.tick now target
  | .drive => self.drive
  | .sendCtrl ok => self.sendCtrl ok
  | .publish => self.publish
  | .pollStallRetry => self.pollStallRetry
  | .audioState revision enabled codecId error => self.audioState revision enabled codecId error
  | .mediaConfig revision data => self.mediaConfig revision data
  | .audio frame => self.audio frame
  | .forward => self.forward
  | .stop => self.stop
  | .startTask volume => self.startTask volume
  | .pollChanged => self.pollChanged
  | .borrow => self.borrow
  | .pollRecv around => self.pollRecv around
  | .count => self.count

/-- What a step can do. -/
inductive Moves : Action → Session → Prop where
  | idle {a : Action} : Moves a self
  | tick {now : Nat} {target : AudioTarget} (hrunner : self.runner = .waiting) :
      Moves (.tick now target) { self with runner := .ticking now target self.audioFrames }
  | driveIssue {now frames : Nat} {target : AudioTarget} {issue : Issue}
      (hrunner : self.runner = .ticking now target frames)
      (hissue : (self.link.drive now target frames).2.issue = some issue) :
      Moves .drive
        { self with
          link := (self.link.drive now target frames).1
          runner := .sending now frames issue }
  | driveQuiet {now frames : Nat} {target : AudioTarget}
      (hrunner : self.runner = .ticking now target frames)
      (hissue : (self.link.drive now target frames).2.issue = none) :
      Moves .drive
        { self with
          link := (self.link.drive now target frames).1
          runner := .polling now frames }
  | sent {now frames : Nat} {issue : Issue} (hrunner : self.runner = .sending now frames issue) :
      Moves (.sendCtrl true)
        { self with
          handed := self.handed ++ [Agreement.setAudio issue.plan]
          runner := .publishing now frames issue }
  | passedOver {now frames : Nat} {issue : Issue}
      (hrunner : self.runner = .sending now frames issue) (hreason : issue.reason = .stall) :
      Moves (.sendCtrl false)
        { self with
          handed := self.handed ++ [Agreement.setAudio issue.plan]
          runner := .waiting }
  | cutOff {now frames : Nat} {issue : Issue} (hrunner : self.runner = .sending now frames issue)
      (hreason : issue.reason ≠ .stall) :
      Moves (.sendCtrl false)
        { self with
          handed := self.handed ++ [Agreement.setAudio issue.plan]
          runner := .ended }
  | publish {now frames : Nat} {issue : Issue} {runner : Runner}
      (hrunner : self.runner = .publishing now frames issue)
      (hnext : runner = .waiting ∨ runner = .polling now frames) :
      Moves .publish { self with plan := self.plan.send issue.plan, runner := runner }
  | retryIssue {now frames : Nat} {issue : Issue} (hrunner : self.runner = .polling now frames)
      (hissue : (self.link.pollStallRetry now).2 = some issue) :
      Moves .pollStallRetry
        { self with
          link := (self.link.pollStallRetry now).1
          runner := .sending now frames issue }
  | retryQuiet {now frames : Nat} (hrunner : self.runner = .polling now frames)
      (hissue : (self.link.pollStallRetry now).2 = none) :
      Moves .pollStallRetry
        { self with link := (self.link.pollStallRetry now).1, runner := .waiting }
  | audioState {revision : Nat} {enabled : Bool} {codecId : BitVec 32} {error : String}
      (hrunner : self.runner = .waiting) :
      Moves (.audioState revision enabled codecId error)
        { self with link := (self.link.onState revision enabled codecId error).1 }
  | mediaConfig {revision : Nat} {data : Bytes} (hrunner : self.runner = .waiting)
      (haccepts : self.link.plan.accepts revision = true) :
      Moves (.mediaConfig revision data)
        { self with runner := .forwarding (.config revision data) }
  | audio {frame : AssembledMedia} (hrunner : self.runner = .waiting) :
      Moves (.audio frame)
        { self with runner := .forwarding (.frame frame.revision.toNat frame) }
  | forward {event : AudioEvent} (hrunner : self.runner = .forwarding event)
      (hroom : self.queue.length < audioCapacity) :
      Moves .forward { self with queue := self.queue ++ [event], runner := .waiting }
  | stop (hrunner : self.runner = .waiting) : Moves .stop { self with runner := .ended }
  | startTask {volume : BitVec 16} (hphase : self.phase = .starting) :
      Moves (.startTask volume)
        { self with task := AudioTask.start self.plan.value volume, phase := .select }
  | pollPending (hphase : self.phase = .select) (hsame : self.plan.version = self.seen) :
      Moves .pollChanged { self with phase := .polled }
  | pollReady (hphase : self.phase = .select) (hnew : self.plan.version ≠ self.seen) :
      Moves .pollChanged { self with phase := .changed, seen := self.plan.version }
  | borrow (hphase : self.phase = .changed) :
      Moves .borrow
        { self with task := self.task.next (.changed self.plan.value), phase := .select }
  | recvEmpty {around : Surroundings} (hphase : self.phase = .polled) (hqueue : self.queue = []) :
      Moves (.pollRecv around) { self with phase := .select }
  | recvFed {around : Surroundings} {event : AudioEvent} {rest : List AudioEvent} {feed : Feed}
      (hphase : self.phase = .polled) (hqueue : self.queue = event :: rest)
      (hfeed : (self.task.step (.recv event around)).2 = some feed)
      (hsuccess : feed.success = true) :
      Moves (.pollRecv around)
        { self with
          task := self.task.next (.recv event around)
          queue := rest
          phase := .counting
          fed := self.fed ++ [feed.revision] }
  | recvUnfed {around : Surroundings} {event : AudioEvent} {rest : List AudioEvent}
      (hphase : self.phase = .polled) (hqueue : self.queue = event :: rest) :
      Moves (.pollRecv around)
        { self with
          task := self.task.next (.recv event around)
          queue := rest
          phase := .select }
  | count (hphase : self.phase = .counting) :
      Moves .count { self with audioFrames := self.audioFrames + 1, phase := .select }

theorem moves_drive : self.Moves .drive self.drive := by
  unfold drive
  split
  · rename_i now target frames hrunner
    cases hissue : (self.link.drive now target frames).2.issue with
    | none => simpa only [hissue] using Moves.driveQuiet hrunner hissue
    | some issue => simpa only [hissue] using Moves.driveIssue hrunner hissue
  · exact .idle

theorem moves_sendCtrl (ok : Bool) : self.Moves (.sendCtrl ok) (self.sendCtrl ok) := by
  unfold sendCtrl
  split
  · rename_i now frames issue hrunner
    cases ok with
    | true => exact .sent hrunner
    | false =>
      by_cases hreason : issue.reason = .stall
      · simpa only [Bool.false_eq_true, if_false, hreason, if_true] using
          Moves.passedOver hrunner hreason
      · simpa only [Bool.false_eq_true, if_false, hreason] using Moves.cutOff hrunner hreason
  · exact .idle

theorem moves_publish : self.Moves .publish self.publish := by
  unfold publish
  split
  · rename_i now frames issue hrunner
    by_cases hreason : issue.reason = .stall
    · simpa only [hreason, if_true] using Moves.publish hrunner (.inl rfl)
    · simpa only [hreason, if_false] using Moves.publish hrunner (.inr rfl)
  · exact .idle

theorem moves_pollStallRetry : self.Moves .pollStallRetry self.pollStallRetry := by
  unfold pollStallRetry
  split
  · rename_i now frames hrunner
    cases hissue : (self.link.pollStallRetry now).2 with
    | none => simpa only [hissue] using Moves.retryQuiet hrunner hissue
    | some issue => simpa only [hissue] using Moves.retryIssue hrunner hissue
  · exact .idle

theorem moves_pollRecv (around : Surroundings) :
    self.Moves (.pollRecv around) (self.pollRecv around) := by
  unfold pollRecv
  split
  · rename_i hphase
    split
    · exact .recvEmpty hphase ‹_›
    · rename_i event rest hqueue
      cases hfeed : (self.task.step (.recv event around)).2 with
      | none =>
        simp only [hfeed, Option.filter_none]
        exact .recvUnfed hphase hqueue
      | some feed =>
        cases hsuccess : feed.success with
        | false =>
          simp only [hfeed, Option.filter_some, hsuccess, Bool.false_eq_true, if_false]
          exact .recvUnfed hphase hqueue
        | true =>
          simp only [hfeed, Option.filter_some, hsuccess, if_true]
          exact .recvFed hphase hqueue hfeed hsuccess
  · exact .idle

theorem moves (a : Action) : self.Moves a (self.act a) := by
  cases a with
  | drive => exact self.moves_drive
  | sendCtrl ok => exact self.moves_sendCtrl ok
  | publish => exact self.moves_publish
  | pollStallRetry => exact self.moves_pollStallRetry
  | pollRecv around => exact self.moves_pollRecv around
  | tick now target =>
    simp only [act, tick]
    split
    · exact .tick ‹_›
    · exact .idle
  | audioState revision enabled codecId error =>
    simp only [act, audioState]
    split
    · exact .audioState ‹_›
    · exact .idle
  | mediaConfig revision data =>
    simp only [act, mediaConfig]
    split
    · split
      · exact .mediaConfig ‹_› ‹_›
      · exact .idle
    · exact .idle
  | audio frame =>
    simp only [act, audio]
    split
    · exact .audio ‹_›
    · exact .idle
  | forward =>
    simp only [act, forward]
    split
    · split
      · exact .forward ‹_› ‹_›
      · exact .idle
    · exact .idle
  | stop =>
    simp only [act, stop]
    split
    · exact .stop ‹_›
    · exact .idle
  | startTask volume =>
    simp only [act, startTask]
    split
    · exact .startTask ‹_›
    · exact .idle
  | pollChanged =>
    simp only [act, pollChanged]
    split
    · split
      · exact .idle
      · split
        · exact .pollPending ‹_› ‹_›
        · exact .pollReady ‹_› ‹_›
    · exact .idle
  | borrow =>
    simp only [act, borrow]
    split
    · exact .borrow ‹_›
    · exact .idle
  | count =>
    simp only [act, count]
    split
    · exact .count ‹_›
    · exact .idle

/-- The published plan is the link's or an older one. -/
structure Ordered (s : Session) : Prop where
  published : s.plan.value.revision ≤ s.link.plan.revision
  issued : ∀ issue ∈ s.runner.issue?,
    issue.plan = s.link.plan ∧ s.plan.value.revision < s.link.plan.revision

theorem ordered_init (target : AudioTarget) (now : Nat) : (init target now).Ordered where
  published := le_rfl
  issued := by simp [init, Runner.issue?]

variable {self}

/-- A command of the link that was just driven. -/
theorem Ordered.issue (h : self.Ordered) {link : Link} {runner : Runner} {issue : Issue}
    (hadvances : Link.Advances self.link link (some issue)) (hrunner : runner.issue? = some issue) :
    Ordered { self with link := link, runner := runner } := by
  obtain ⟨hplan, hrevision⟩ := hadvances
  have hlt : self.plan.value.revision < link.plan.revision := by
    rw [hplan, hrevision]
    exact Nat.lt_succ_of_le h.published
  refine ⟨hlt.le, fun other hother => ?_⟩
  obtain rfl : issue = other := by simpa [hrunner] using hother
  exact ⟨hplan.symm, hlt⟩

/-- Nothing is issued by a link that keeps its plan. -/
theorem Ordered.quiet (h : self.Ordered) {link : Link} {runner : Runner}
    (hadvances : Link.Advances self.link link none) (hrunner : runner.issue? = none) :
    Ordered { self with link := link, runner := runner } := by
  refine ⟨?_, by simp [hrunner]⟩
  have hplan : link.plan = self.link.plan := hadvances
  rw [hplan]
  exact h.published

theorem ordered_act (h : self.Ordered) (a : Action) : (self.act a).Ordered := by
  have hmove := self.moves a
  generalize self.act a = next at hmove ⊢
  cases hmove with
  | driveIssue hrunner hissue => exact h.issue (hissue ▸ Link.advances_drive ..) rfl
  | retryIssue hrunner hissue => exact h.issue (hissue ▸ Link.advances_pollStallRetry ..) rfl
  | driveQuiet hrunner hissue => exact h.quiet (hissue ▸ Link.advances_drive ..) rfl
  | retryQuiet hrunner hissue => exact h.quiet (hissue ▸ Link.advances_pollStallRetry ..) rfl
  | audioState hrunner =>
    exact ⟨by simpa using h.published, by simp [hrunner, Runner.issue?]⟩
  | sent hrunner => exact ⟨h.published, by simpa [hrunner, Runner.issue?] using h.issued⟩
  | publish hrunner hnext =>
    obtain ⟨hplan, -⟩ := h.issued _ (by rw [hrunner]; rfl)
    refine ⟨?_, by rcases hnext with rfl | rfl <;> simp [Runner.issue?]⟩
    simp [Watch.send, hplan]
  | tick | passedOver | cutOff | mediaConfig | audio | forward | stop =>
    exact ⟨h.published, by simp [Runner.issue?]⟩
  | idle | startTask | pollPending | pollReady | borrow | recvEmpty | recvFed | recvUnfed | count =>
    exact ⟨h.published, h.issued⟩

/-- The task is one that `AudioTask` can reach. -/
def TaskRuns (s : Session) : Prop :=
  ∃ plan volume steps, s.task = run AudioTask.next (AudioTask.start plan volume) steps

theorem taskRuns_next {task : AudioTask} {step : TaskStep} (h : self.TaskRuns)
    (htask : task = self.task.next step) :
    ∃ plan volume steps, task = run AudioTask.next (AudioTask.start plan volume) steps := by
  obtain ⟨plan, volume, steps, heq⟩ := h
  refine ⟨plan, volume, steps ++ [step], ?_⟩
  rw [htask, heq, run_append, run_cons, run_nil]

theorem taskRuns_act (h : self.TaskRuns) (a : Action) : (self.act a).TaskRuns := by
  have hmove := self.moves a
  generalize self.act a = next at hmove ⊢
  cases hmove with
  | startTask hphase => exact ⟨_, _, [], rfl⟩
  | borrow | recvFed | recvUnfed => exact taskRuns_next h rfl
  | _ => exact h

/-- What a session feeds agrees with the plan that its task holds. -/
theorem fed_agrees (target : AudioTarget) (now : Nat) (actions : List Action) {step : TaskStep}
    {feed : Feed} (hfeed : ((run act (init target now) actions).task.step step).2 = some feed) :
    let task := (run act (init target now) actions).task
    task.plan.accepts feed.revision = true ∧ feed.player.codec = codecOf task.plan.codec ∧
      feed.player.config = task.codecConfig ∧ ¬task.Lacks := by
  have hruns : (run act (init target now) actions).TaskRuns :=
    invariant_all (I := TaskRuns) (fun _ a h => taskRuns_act h a) ⟨_, 0, [], rfl⟩ actions
  obtain ⟨plan, volume, steps, heq⟩ := hruns
  have htuned := AudioTask.tuned_run plan volume steps
  rw [← heq] at htuned
  exact ⟨(AudioTask.feed_spec hfeed).1, htuned.feed hfeed⟩

end Session

end Kulua.Audio
