import Kulua.Audio.Link

/-! The phone's side of the audio control, `AudioLink.java`. Commands are queued on an
executor of one thread; captures run on threads of their own and call back when they
are ready or fail. A step of the executor applies one command or sends the receipt it
has ready; a step of a capture thread is one of the three parts of a callback (the
check of the revision, the reading of the codec, the sending), so that commands are
applied between them too. -/

namespace Kulua.Audio

structure SetAudio where
  enabled : Bool
  codec : BitVec 32
  revision : Nat
  deriving DecidableEq, Repr

structure AudioState where
  revision : Nat
  enabled : Bool
  codecId : BitVec 32
  error : String
  deriving DecidableEq, Repr

/-- `ControlChannel.codecNameForIndex`. -/
def codecNameForIndex (index : BitVec 32) : AudioCodec :=
  if index = 1 then .opus
  else if index = 2 then .aac
  else if index = 3 then .flac
  else .raw

/-- `ClientConnection.codecIdFor`. -/
def codecIdFor : AudioCodec → BitVec 32
  | .opus => 0x6f707573
  | .aac => 0x00616163
  | .flac => 0x666c6163
  | .raw => 0x00726177

theorem fromCodecId_codecIdFor (codec : AudioCodec) :
    AudioCodec.fromCodecId (codecIdFor codec) = some codec := by
  cases codec <;> decide

/-- Both sides read an index alike. -/
theorem codecNameForIndex_setWidth (index : BitVec 8) :
    codecNameForIndex (index.setWidth 32) = codecOf index := by
  have key : ∀ k : BitVec 8, index.setWidth 32 = k.setWidth 32 ↔ index = k := by
    intro k
    rw [← BitVec.toNat_inj, ← BitVec.toNat_inj, BitVec.toNat_setWidth, BitVec.toNat_setWidth,
      Nat.mod_eq_of_lt (by have := index.isLt; omega), Nat.mod_eq_of_lt (by have := k.isLt; omega)]
  have h1 := key 1
  have h2 := key 2
  have h3 := key 3
  simp only [BitVec.reduceSetWidth] at h1 h2 h3
  simp only [codecNameForIndex, codecOf, AudioCodec.fromHandshakeByte, BitVec.ofNat_eq_ofNat, h1,
    h2, h3]
  by_cases h0 : index = 0#8
  · simp [h0]
  · simp only [if_neg h0]
    split_ifs <;> rfl

structure AudioCapture where
  codecName : AudioCodec
  bitRate : Nat
  revision : Nat
  deriving DecidableEq, Repr

/-- What a capture calls back with: it is running, or it failed with an exception. -/
inductive CaptureEvent where
  | ready
  | failed (message : Option String) (className : String)
  deriving DecidableEq, Repr

/-- The arguments of the callback; `logFailure` has a text for an exception without one. -/
def CaptureEvent.report : CaptureEvent → Bool × Option String
  | .ready => (true, none)
  | .failed message className =>
    (false, some (if message.getD "" = "" then className else message.getD ""))

/-- A callback under way: the revision was found current, or the receipt is ready. -/
inductive Callback where
  | checked (enabled : Bool) (error : Option String)
  | built (state : AudioState)
  deriving DecidableEq, Repr

structure CaptureThread where
  capture : AudioCapture
  callback : Option Callback
  deriving DecidableEq, Repr

/-- A task of the executor. -/
inductive Task where
  | apply (enabled : Bool) (name : AudioCodec) (revision : Nat)
  | stop
  deriving DecidableEq, Repr

structure AudioLink where
  bitRate : Nat
  currentRevision : Nat
  enabled : Bool
  codecName : AudioCodec
  capture : Option AudioCapture
  executor : List Task
  shutdown : Bool
  /-- The receipt that the executor's thread is about to send. -/
  sending : Option AudioState
  /-- Every capture started: a stopped one is waited for two seconds at most. -/
  threads : List CaptureThread
  /-- `client.isClosed()`. -/
  closed : Bool
  deriving DecidableEq, Repr

namespace AudioLink

def init (wantAudio : Bool) (bitRate : Nat) (codecName : AudioCodec) : AudioLink where
  bitRate := bitRate
  currentRevision := 0
  enabled := wantAudio
  codecName := codecName
  capture := none
  executor := []
  shutdown := false
  sending := none
  threads := []
  closed := false

/-- `new AudioCapture` and its `start`. -/
def startCapture (self : AudioLink) (codecName : AudioCodec) (revision : Nat) : AudioLink :=
  let capture : AudioCapture := ⟨codecName, self.bitRate, revision⟩
  { self with capture := some capture, threads := self.threads ++ [⟨capture, none⟩] }

def start (self : AudioLink) : AudioLink :=
  if self.enabled then self.startCapture self.codecName 0 else self

/-- `applyAudio`: queue the command, unless the executor was shut down. -/
def applyAudio (self : AudioLink) (enabled : Bool) (codecIndex : BitVec 32) (revision : Nat) :
    AudioLink :=
  if self.shutdown then self
  else
    { self with
      executor := self.executor ++ [.apply enabled (codecNameForIndex codecIndex) revision] }

def stopAudio (self : AudioLink) : AudioLink := { self with capture := none }

def audioState (revision : Nat) (enabled : Bool) (codecId : BitVec 32) (error : Option String) :
    AudioState := ⟨revision, enabled, codecId, error.getD ""⟩

def runTask (self : AudioLink) : Task → AudioLink
  | .stop => self.stopAudio
  | .apply enabled name revision =>
    if self.closed ∨ revision ≤ self.currentRevision then self
    else
      let next := { self.stopAudio with
        currentRevision := revision, enabled := enabled, codecName := name }
      if enabled then next.startCapture name revision
      else { next with sending := some (audioState revision false 0 none) }

/-- One step of the executor's thread, with the receipt it sends. -/
def executorStep (self : AudioLink) : AudioLink × Option AudioState :=
  match self.sending with
  | some state => ({ self with sending := none }, some state)
  | none =>
    match self.executor with
    | [] => (self, none)
    | task :: rest => ({ self with executor := rest }.runTask task, none)

/-- One step of `onAudioCaptureState` on a capture thread, with the receipt it sends;
an idle thread calls back with the event. -/
def callbackStep (self : AudioLink) (thread : CaptureThread) (event : CaptureEvent) :
    Option Callback × Option AudioState :=
  match thread.callback with
  | none =>
    if thread.capture.revision ≠ self.currentRevision ∨ self.closed then (none, none)
    else (some (.checked event.report.1 event.report.2), none)
  | some (.checked enabled error) =>
    let codecId := if enabled then codecIdFor self.codecName else 0
    (some (.built (audioState thread.capture.revision enabled codecId error)), none)
  | some (.built state) => (none, some state)

def captureStep (self : AudioLink) (i : Nat) (event : CaptureEvent) :
    AudioLink × Option AudioState :=
  match self.threads[i]? with
  | none => (self, none)
  | some thread =>
    let (callback, sent) := self.callbackStep thread event
    ({ self with threads := self.threads.set i ⟨thread.capture, callback⟩ }, sent)

/-- `ClientConnection.close`, as far as the audio is concerned. -/
def close (self : AudioLink) : AudioLink :=
  if self.closed then self
  else
    { self with
      closed := true
      executor := if self.shutdown then self.executor else self.executor ++ [.stop]
      shutdown := true
      enabled := false }

end AudioLink

end Kulua.Audio
