import Kulua.ReliableControl

/-! `ClientConnection.java` without its displays, audio and media: the control stream of
one client of the phone's server, its handshake and its heartbeat patrol. A control
message is the byte string that its sender encoded. A call returns the connection, the
datagrams it sends and the messages it hands to `ControlChannel.handle`, which happens
after the datagrams are sent. -/

namespace Kulua

/-- The start options that the control stream reads. -/
structure Options where
  scid : String
  audioCodec : String
  deriving DecidableEq, Repr

structure ClientConnection where
  clientId : U32
  wantAudio : Bool
  options : Options
  ctrlSender : ReliableControl.Sender
  ctrlReceiver : ReliableControl.Receiver
  lastActivityNanos : Nat
  heartbeatSeen : Bool
  heartbeatMisses : Nat
  closed : Bool

namespace ClientConnection

def videoCodecId : U32 := 0x68323634

def codecIdFor (codecName : String) : U32 :=
  if codecName = "opus" then 0x6f707573
  else if codecName = "aac" then 0x00616163
  else if codecName = "flac" then 0x666c6163
  else 0x00726177

/-- The frame that `sendHelloAck` sends; audio codec 0 stands for no audio. -/
def helloAck (self : ClientConnection) : Frame where
  stream := .ctrl
  type := .helloAck
  seq := 0
  msgId := 0
  frag := 0
  fragTotal := 0
  payload := some <| .helloAck {
    scid := self.options.scid
    audioCodec := if self.wantAudio then codecIdFor self.options.audioCodec else 0
    videoCodec := videoCodecId
    clientId := self.clientId }

def new (now : Nat) (clientId : U32) (wantAudio : Bool) (options : Options) :
    ClientConnection × Frame :=
  let self : ClientConnection := {
    clientId := clientId
    wantAudio := wantAudio
    options := options
    ctrlSender := .new
    ctrlReceiver := .new
    lastActivityNanos := now
    heartbeatSeen := false
    heartbeatMisses := 0
    closed := false }
  (self, self.helloAck)

def touch (self : ClientConnection) (now : Nat) : ClientConnection :=
  { self with lastActivityNanos := now }

def close (self : ClientConnection) : ClientConnection :=
  if self.closed then self else { self with closed := true, ctrlSender := self.ctrlSender.stop }

/-- The consecutive patrols without a heartbeat, this one included. -/
def tickHeartbeat (self : ClientConnection) : ClientConnection × Nat :=
  if self.heartbeatSeen then ({ self with heartbeatSeen := false, heartbeatMisses := 0 }, 0)
  else ({ self with heartbeatMisses := self.heartbeatMisses + 1 }, self.heartbeatMisses + 1)

def sendAck (self : ClientConnection) : Frame := Frame.ctrlAck self.ctrlReceiver.ackSeq

/-- A dead receiver closes the connection, and what the frame completed is dropped. -/
def onData (self : ClientConnection) (frame : Frame) :
    ClientConnection × List Frame × List Bytes :=
  match frame.stream with
  | .unrecognized _ => (self, [], [])
  | .ctrl =>
    let (receiver, delivered) := self.ctrlReceiver.onFrame frame
    let self := { self with ctrlReceiver := receiver }
    if self.ctrlReceiver.isDead then (self.close, [], [])
    else (self, [self.sendAck], delivered)

/-- `frame.getAckSeq()`: 0 where the payload is another one. -/
def ackSeqOf (frame : Frame) : U32 :=
  match frame.payload with
  | some (.ackSeq seq) => seq
  | _ => 0

def onFrame (self : ClientConnection) (now : Nat) (frame : Frame) :
    ClientConnection × List Frame × List Bytes :=
  if self.closed then (self, [], [])
  else
    let self := self.touch now
    match frame.type with
    | .hello => (self, [self.helloAck], [])
    | .ack => ({ self with ctrlSender := self.ctrlSender.onAck (ackSeqOf frame) }, [], [])
    | .bye => (self.close, [], [])
    | .heartbeat => ({ self with heartbeatSeen := true }, [], [])
    | .data => self.onData frame
    | .helloAck | .unrecognized _ => (self, [], [])

def sendCtrlMsg (self : ClientConnection) (now : Nat) (msg : Bytes) :
    ClientConnection × List Frame :=
  let (sender, out) := self.ctrlSender.sendCtrlBytes now msg
  ({ self with ctrlSender := sender }, out)

/-- One turn of the sender's timer thread, which ends with the sender's `stop`. -/
def retransmit (self : ClientConnection) (now : Nat) : ClientConnection × List Frame :=
  if self.ctrlSender.closed then (self, [])
  else
    let (sender, out) := self.ctrlSender.retransmit now
    ({ self with ctrlSender := sender }, out)

/-- Control data that leaves the receiver alive. -/
theorem onFrame_data {self : ClientConnection} (hlive : self.closed = false) (now : Nat)
    {frame : Frame} (htype : frame.type = .data) (hstream : frame.stream = .ctrl)
    (halive : (self.ctrlReceiver.onFrame frame).1.dead = false) :
    self.onFrame now frame =
      ({ self.touch now with ctrlReceiver := (self.ctrlReceiver.onFrame frame).1 },
        [Frame.ctrlAck (self.ctrlReceiver.onFrame frame).1.ackSeq],
        (self.ctrlReceiver.onFrame frame).2) := by
  simp [onFrame, hlive, htype, onData, hstream, touch, sendAck, ReliableControl.Receiver.isDead,
    halive]

/-- Any other frame but BYE: it releases entries of the sender's window or is answered with
a HELLO_ACK, if anything. -/
theorem onFrame_other {self : ClientConnection} (hlive : self.closed = false) (now : Nat)
    {frame : Frame} (hbye : frame.type ≠ .bye)
    (hdata : ¬(frame.type = .data ∧ frame.stream = .ctrl)) :
    ∃ c out, self.onFrame now frame = (c, out, []) ∧ c.closed = false ∧
      c.ctrlReceiver = self.ctrlReceiver ∧
      (c.ctrlSender = self.ctrlSender ∨
        c.ctrlSender = self.ctrlSender.onAck (ackSeqOf frame)) ∧
      ∀ g ∈ out, g.type = .helloAck := by
  unfold onFrame
  rw [if_neg (by simp [hlive])]
  cases htype : frame.type with
  | data =>
      rcases hstream : frame.stream with _ | v
      · exact absurd ⟨htype, hstream⟩ hdata
      · simp [onData, hstream, touch, hlive]
  | bye => exact absurd htype hbye
  | hello => simp [touch, hlive, helloAck]
  | ack => simp [touch, hlive]
  | helloAck => simp [touch, hlive]
  | heartbeat => simp [touch, hlive]
  | unrecognized v => simp [touch, hlive]

end ClientConnection
end Kulua
