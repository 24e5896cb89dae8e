import Kulua.ReliableSender
import Kulua.ReliableReceiver

/-! `UdpSession` of `session.rs` without its media sockets: the control stream of the PC.
The reader thread takes one datagram at a time; the passes of the writer thread are cut
into their three parts (ACK, retransmission, heartbeat), since both threads share the
sender and the receiver under locks. A control message is the byte string that
`encode_ctrl` made of it. -/

namespace Kulua

def heartbeatInterval : Nat := 5000000000

inductive Event where
  | connected
  | control (msg : Bytes)
  | closed
  | error (text : String)
  deriving DecidableEq, Repr

/-- The message of a control event. -/
def Event.control? : Event → Option Bytes
  | .control msg => some msg
  | _ => none

structure UdpSession where
  clientId : U32
  scid : String
  connected : Bool
  helloAck : Option HelloAck
  ctrlTx : ReliableSender
  ctrlRx : ReliableReceiver
  msgId : U32
  lastHb : Nat
  closed : Bool

namespace UdpSession

def new (now : Nat) (scid : String) : UdpSession where
  clientId := 0
  scid := scid
  connected := false
  helloAck := none
  ctrlTx := .new
  ctrlRx := .new
  msgId := 1
  lastHb := now
  closed := false

/-- A frame without a payload. -/
def plain (type : FrameType) : Frame := ⟨.ctrl, type, 0, 0, 0, 0, none⟩

/-- The frame that `connect` repeats until it is connected. -/
def hello (self : UdpSession) (audio : Bool) : Frame :=
  { plain .hello with payload := some (.hello ⟨self.scid, audio⟩) }

def dispatch (self : UdpSession) (frame : Frame) : UdpSession × List Event :=
  match frame.type with
  | .ack =>
    match frame.payload with
    | some (.ackSeq ack) => ({ self with ctrlTx := self.ctrlTx.onAck ack }, [])
    | _ => (self, [])
  | .helloAck =>
    match frame.payload with
    | some (.helloAck ack) =>
      ({ self with clientId := ack.clientId, connected := true, helloAck := some ack },
        [.connected])
    | _ => (self, [])
  | .data =>
    match frame.stream with
    | .ctrl =>
      if self.ctrlRx.isDead then (self, [.error "control 接收缓冲溢出"])
      else
        let (rx, delivered) := self.ctrlRx.onFrame frame
        ({ self with ctrlRx := rx }, delivered.map .control)
    | .unrecognized _ => (self, [])
  | .bye => (self, [.closed])
  | .heartbeat | .hello | .unrecognized _ => (self, [])

/-- One turn of the reader thread, which ends with the session. -/
def read (self : UdpSession) (frame : Frame) : UdpSession × List Event :=
  if self.closed then (self, []) else self.dispatch frame

/-- The loop over the frames of a message: those the socket took, and how it ended.
`socket i` is its answer to the send of frame `i`. -/
def sendWires (socket : Nat → Except String Unit) :
    Nat → List Frame → List Frame × Except String Unit
  | _, [] => ([], .ok ())
  | i, f :: fs =>
    match socket i with
    | .error e => ([], .error ("udp send: " ++ e))
    | .ok () =>
      let (out, result) := sendWires socket (i + 1) fs
      (f :: out, result)

def sendCtrl (self : UdpSession) (now : Nat) (socket : Nat → Except String Unit) (msg : Bytes) :
    UdpSession × List Frame × Except String Unit :=
  let (tx, frames) := self.ctrlTx.sendCtrlBytes now self.msgId msg
  ({ self with msgId := self.msgId + 1, ctrlTx := tx }, sendWires socket 0 frames)

def flushAck (self : UdpSession) : UdpSession × List Frame :=
  if self.closed then (self, [])
  else
    let (rx, ack) := self.ctrlRx.takeAck
    ({ self with ctrlRx := rx }, ack.toList.map Frame.ctrlAck)

/-- Retransmission, and the end of a session whose peer no longer acknowledges. -/
def retransmit (self : UdpSession) (now : Nat) : UdpSession × List Frame × List Event :=
  if self.closed then (self, [], [])
  else
    let (tx, wires) := self.ctrlTx.dueTimeouts now
    if tx.isStalled then
      ({ self with ctrlTx := tx, closed := true }, wires, [.error "control 确认超时，连接失效"])
    else ({ self with ctrlTx := tx }, wires, [])

def heartbeat (self : UdpSession) (now : Nat) : UdpSession × List Frame :=
  if self.closed then (self, [])
  else if heartbeatInterval ≤ now - self.lastHb then
    ({ self with lastHb := now }, [plain .heartbeat])
  else (self, [])

/-- A socket that takes everything. -/
theorem sendWires_ok {socket : Nat → Except String Unit} (h : ∀ i, socket i = .ok ()) (i : Nat)
    (fs : List Frame) : sendWires socket i fs = (fs, .ok ()) := by
  induction fs generalizing i with
  | nil => rfl
  | cons f fs ih => simp [sendWires, h, ih]

theorem sendCtrl_ok {socket : Nat → Except String Unit} (h : ∀ i, socket i = .ok ())
    (self : UdpSession) (now : Nat) (msg : Bytes) :
    self.sendCtrl now socket msg =
      ({ self with
          msgId := self.msgId + 1
          ctrlTx := (self.ctrlTx.sendCtrlBytes now self.msgId msg).1 },
        (self.ctrlTx.sendCtrlBytes now self.msgId msg).2, .ok ()) := by
  simp [sendCtrl, sendWires_ok h]

/-- Control data that reaches an open session whose receiver is alive. -/
theorem read_data {self : UdpSession} (hopen : self.closed = false) {frame : Frame}
    (htype : frame.type = .data) (hstream : frame.stream = .ctrl)
    (halive : self.ctrlRx.dead = false) :
    self.read frame = ({ self with ctrlRx := (self.ctrlRx.onFrame frame).1 },
      (self.ctrlRx.onFrame frame).2.map .control) := by
  simp [read, hopen, dispatch, htype, hstream, ReliableReceiver.isDead, halive]

/-- Any other frame delivers nothing and releases, if anything, what its ACK covers. -/
theorem read_other (self : UdpSession) {frame : Frame}
    (hdata : ¬(frame.type = .data ∧ frame.stream = .ctrl)) :
    ∃ pc events, self.read frame = (pc, events) ∧ events.filterMap Event.control? = [] ∧
      pc.ctrlRx = self.ctrlRx ∧
      (pc.ctrlTx = self.ctrlTx ∨ ∃ a, frame.type = .ack ∧ frame.payload = some (.ackSeq a) ∧
        pc.ctrlTx = self.ctrlTx.onAck a) := by
  unfold read
  split
  · exact ⟨self, [], rfl, rfl, rfl, Or.inl rfl⟩
  · unfold dispatch
    cases htype : frame.type with
    | data =>
        rcases hstream : frame.stream with _ | v
        · exact absurd ⟨htype, hstream⟩ hdata
        · exact ⟨self, [], rfl, rfl, rfl, Or.inl rfl⟩
    | ack =>
        rcases hp : frame.payload with _ | (_ | a | _ | _)
        case some.ackSeq => exact ⟨_, [], rfl, rfl, rfl, Or.inr ⟨a, rfl, rfl, rfl⟩⟩
        all_goals exact ⟨self, [], rfl, rfl, rfl, Or.inl rfl⟩
    | helloAck =>
        rcases hp : frame.payload with _ | (_ | _ | _ | ack)
        case some.helloAck => exact ⟨_, [.connected], rfl, rfl, rfl, Or.inl rfl⟩
        all_goals exact ⟨self, [], rfl, rfl, rfl, Or.inl rfl⟩
    | bye => exact ⟨self, [.closed], rfl, rfl, rfl, Or.inl rfl⟩
    | hello => exact ⟨self, [], rfl, rfl, rfl, Or.inl rfl⟩
    | heartbeat => exact ⟨self, [], rfl, rfl, rfl, Or.inl rfl⟩
    | unrecognized v => exact ⟨self, [], rfl, rfl, rfl, Or.inl rfl⟩

end UdpSession
end Kulua
