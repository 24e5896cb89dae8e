import Kulua.Audio.Link
import Kulua.Device

/-! What `Core` holds of a session: `sync-core/src/session/handle.rs` and `config.rs`.
The session task writes the state and the audio runtime through shared cells, and reads
the audio target from a watch channel; when the task ends, its end of the channel is
gone. -/

namespace Kulua

namespace Audio.AudioCodec

def name : AudioCodec → String
  | opus => "opus"
  | aac => "aac"
  | flac => "flac"
  | raw => "raw"

def fromName (name : String) : AudioCodec :=
  if name = "opus" then opus
  else if name = "aac" then aac
  else if name = "flac" then flac
  else raw

def handshakeByte : AudioCodec → BitVec 8
  | raw => 0
  | opus => 1
  | aac => 2
  | flac => 3

end Audio.AudioCodec

namespace App
open Audio

/-- The constants `SESSION_STATE_IDLE` to `SESSION_STATE_STOPPED`. -/
inductive SessionState where
  | idle
  | connecting
  | running
  | failed
  | stopped
  deriving DecidableEq, Repr

structure SessionConfig where
  clipboardSync : Bool
  notificationSync : Bool
  audioEnabled : Bool
  volume : BitVec 16
  audioCodec : String
  deriving DecidableEq, Repr

def defaultAudioCodec : String := "opus"

def SessionConfig.default : SessionConfig := ⟨true, true, true, 80, defaultAudioCodec⟩

structure Handle where
  /-- The number of the session, in the order in which they are started. -/
  session : Nat
  device : Device
  port : BitVec 16
  /-- The task has ended, and with it the receiver of the audio target. -/
  finished : Bool
  clipboardEnabled : Bool
  notificationEnabled : Bool
  volume : BitVec 16
  sessionState : SessionState
  audioLatency : Nat
  audioTarget : AudioTarget
  audioRuntime : AudioRuntime
  deriving DecidableEq, Repr

namespace Handle

def isFailed (h : Handle) : Bool := h.sessionState = .failed

/-- `audio_target.send`; without a receiver it fails and leaves the value as it is. -/
def sendAudioTarget (h : Handle) (target : AudioTarget) : Handle :=
  if h.finished then h else { h with audioTarget := target }

/-- The test and the mark of `check_dead_sessions`. -/
def checkDead (h : Handle) : Handle :=
  if h.finished ∧ h.sessionState ≠ .stopped then { h with sessionState := .failed } else h

end Handle

/-- What a session task does that its handle shows. -/
inductive TaskEvent where
  | running
  | failed
  | ended
  | audio (latency : Nat) (runtime : AudioRuntime)
  deriving DecidableEq, Repr

/-- The state is written once: when the handshake is done, or when setting up fails. -/
def Handle.onTask (h : Handle) : TaskEvent → Handle
  | .running =>
    if h.sessionState = .connecting ∧ ¬h.finished then { h with sessionState := .running } else h
  | .failed =>
    if h.sessionState = .connecting ∧ ¬h.finished then { h with sessionState := .failed } else h
  | .ended => { h with finished := true }
  | .audio latency runtime =>
    if h.finished then h else { h with audioLatency := latency, audioRuntime := runtime }

/-- A session that has failed, or whose task has ended without being stopped; the next
tick marks that as failed. -/
def Handle.Tombstone (h : Handle) : Prop :=
  h.sessionState = .failed ∨ (h.finished = true ∧ h.sessionState ≠ .stopped)

instance (h : Handle) : Decidable h.Tombstone := inferInstanceAs (Decidable (_ ∨ _))

end App
end Kulua
