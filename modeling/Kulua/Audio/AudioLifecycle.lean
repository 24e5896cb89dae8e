import Kulua.Audio.AudioLink
import Kulua.Foundation.Run

/-! `AudioLink.java` with its tasks cut up: a task of the executor checks the command, stops the
capture, takes over the command's settings and starts a capture, or sends the receipt; `close`
marks the connection, queues the last task and shuts the executor down. All that other threads
can do falls between these steps. A capture runs from its `start` to its `stop`. -/

namespace Kulua.Audio
open Foundation Foundation.Run

structure Command where
  enabled : Bool
  name : AudioCodec
  revision : Nat
  deriving DecidableEq, Repr

/-- Where the executor's thread is in a task. -/
inductive Position where
  | checking (command : Command)
  /-- In front of `stopAudio`. Without a command it is the whole task. -/
  | stopping (command : Option Command)
  | updating (command : Command)
  | finishing (command : Command)
  deriving DecidableEq, Repr

def Task.position : Task → Position
  | .apply enabled name revision => .checking ⟨enabled, name, revision⟩
  | .stop => .stopping none

/-- Where a thread is in `close`: behind the check of `closed`, or behind one of the four
effects. -/
inductive Closer where
  | entered
  | marked
  | queued
  | shut
  | returned
  deriving DecidableEq, Repr

def Closer.next : Closer → Closer
  | .entered => .marked
  | .marked => .queued
  | .queued => .shut
  | .shut | .returned => .returned

structure AudioLifecycle where
  link : AudioLink
  position : Option Position
  closers : List Closer
  /-- The captures whose `running` is set. -/
  running : List AudioCapture
  deriving DecidableEq, Repr

namespace AudioLifecycle

/-- The constructor of the connection. -/
def init (wantAudio : Bool) (bitRate : Nat) (codecName : AudioCodec) : AudioLifecycle where
  link := (AudioLink.init wantAudio bitRate codecName).start
  position := none
  closers := []
  running := (AudioLink.init wantAudio bitRate codecName).start.capture.toList

variable (self : AudioLifecycle)

def stopAudio : AudioLifecycle :=
  match self.link.capture with
  | none => self
  | some current =>
    { self with link := self.link.stopAudio, running := self.running.erase current }

def update (command : Command) : AudioLifecycle :=
  { self with
    link := { self.link with
      currentRevision := command.revision
      enabled := command.enabled
      codecName := command.name } }

def finish (command : Command) : AudioLifecycle :=
  if command.enabled then
    { self with
      link := self.link.startCapture command.name command.revision
      running := self.running ++ [⟨command.name, self.link.bitRate, command.revision⟩] }
  else
    { self with
      link := { self.link with
        sending := some (AudioLink.audioState command.revision false 0 none) } }

def advance : Position → AudioLifecycle
  | .checking command =>
    if self.link.closed ∨ command.revision ≤ self.link.currentRevision then
      { self with position := none }
    else { self with position := some (.stopping (some command)) }
  | .stopping command => { self.stopAudio with position := command.map .updating }
  | .updating command => { self.update command with position := some (.finishing command) }
  | .finishing command => { self.finish command with position := none }

def executorStep : AudioLifecycle :=
  match self.link.sending with
  | some _ => { self with link := { self.link with sending := none } }
  | none =>
    match self.position with
    | some position => self.advance position
    | none =>
      match self.link.executor with
      | [] => self
      | task :: rest =>
        { self with link := { self.link with executor := rest }, position := some task.position }

/-- `audio.close()` is everything after `marked`. -/
def closeStep : Closer → AudioLifecycle
  | .entered => { self with link := { self.link with closed := true } }
  | .marked =>
    if self.link.shutdown then self
    else { self with link := { self.link with executor := self.link.executor ++ [.stop] } }
  | .queued => { self with link := { self.link with shutdown := true } }
  | .shut => { self with link := { self.link with enabled := false } }
  | .returned => self

inductive Action where
  | applyAudio (m : SetAudio)
  | executor
  | capture (i : Nat) (event : CaptureEvent)
  /-- A thread enters `close`. -/
  | close
  /-- Thread `i` of those takes a step. -/
  | closer (i : Nat)
  deriving DecidableEq, Repr

def act : Action → AudioLifecycle
  | .applyAudio m => { self with link := self.link.applyAudio m.enabled m.codec m.revision }
  | .executor => self.executorStep
  | .capture i event => { self with link := (self.link.captureStep i event).1 }
  | .close =>
    if self.link.closed then self else { self with closers := self.closers ++ [.entered] }
  | .closer i =>
    match self.closers[i]? with
    | none => self
    | some closer => { self.closeStep closer with closers := self.closers.set i closer.next }

/-- The executor has nothing to do. -/
def Drained : Prop :=
  self.link.executor = [] ∧ self.position = none ∧ self.link.sending = none

instance : Decidable self.Drained := inferInstanceAs (Decidable (_ ∧ _))

theorem stopAudio_link : self.stopAudio.link = self.link.stopAudio := by
  unfold stopAudio AudioLink.stopAudio
  cases hcapture : self.link.capture with
  | none => simp [← hcapture]
  | some current => rfl

theorem finish_link (command : Command) :
    (self.finish command).link =
      if command.enabled then self.link.startCapture command.name command.revision
      else { self.link with
        sending := some (AudioLink.audioState command.revision false 0 none) } := by
  unfold finish
  split <;> rfl

/-- A task that nothing comes between does what it does as a whole. -/
theorem runTask_of_undisturbed (hidle : self.position = none) (hsending : self.link.sending = none)
    {task : Task} {rest : List Task} (hqueue : self.link.executor = task :: rest) :
    ∃ n, (run act self (List.replicate n .executor)).link = self.link.executorStep.1 ∧
      (run act self (List.replicate n .executor)).position = none := by
  have hcoarse : self.link.executorStep.1 =
      ({ self.link with executor := rest } : AudioLink).runTask task := by
    simp [AudioLink.executorStep, hsending, hqueue]
  rw [hcoarse]
  cases task with
  | stop =>
    refine ⟨2, ?_⟩
    simp [List.replicate, act, executorStep, hsending, hidle, hqueue, Task.position, advance,
      stopAudio_link, AudioLink.runTask]
  | apply enabled name revision =>
    by_cases hcheck : self.link.closed = true ∨ revision ≤ self.link.currentRevision
    · refine ⟨2, ?_⟩
      simp [List.replicate, act, executorStep, hsending, hidle, hqueue, Task.position, advance,
        AudioLink.runTask, hcheck]
    · refine ⟨5, ?_⟩
      simp [List.replicate, act, executorStep, hsending, hidle, hqueue, Task.position, advance,
        AudioLink.runTask, hcheck, stopAudio_link, AudioLink.stopAudio, update, finish_link]

/-- So does `close`. -/
theorem close_of_undisturbed (hopen : self.link.closed = false)
    (hrunning : self.link.shutdown = false) :
    (run act self (.close :: List.replicate 4 (.closer self.closers.length))).link =
      self.link.close := by
  simp [List.replicate, act, hopen, hrunning, closeStep, Closer.next, AudioLink.close]

end AudioLifecycle

end Kulua.Audio
