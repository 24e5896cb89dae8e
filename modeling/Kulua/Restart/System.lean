import Kulua.Stream.History
import Kulua.Stream.Lockstep
import Kulua.UdpServer
import Kulua.UdpSession

/-! A PC session on a source address for which the phone's server holds a client. The
network loses nothing but may delay and reorder: a datagram is in flight until it is
handed over. The server answers the HELLO of a known address with a HELLO_ACK and keeps
the client as it is, sequence numbers included. -/

namespace Kulua.Restart
open Foundation Foundation.Segment Kulua.Stream

structure System where
  pc : UdpSession
  server : UdpServer
  /-- What the control loop has acknowledged and still has to hand to `ControlChannel.handle`. -/
  handling : List Bytes
  toPhone : List Frame
  toPc : List Frame
  /-- Every message given to `send_ctrl`, with its frames. -/
  sent : History
  handled : List Bytes
  /-- Every message given to the held connection's `sendCtrlMsg`, with its frames. -/
  phoneSent : History
  received : List Bytes

inductive Action where
  | hello (audio : Bool)
  | send (now : Nat) (msg : Bytes)
  | flushAck
  | retransmit (now : Nat)
  | heartbeat (now : Nat)
  /-- Datagram `i` of those in flight reaches the control loop. -/
  | toPhone (now i : Nat)
  | handle
  | phoneSend (now : Nat) (msg : Bytes)
  | phoneRetransmit (now : Nat)
  /-- Datagram `i` of those in flight reaches the reader thread. -/
  | toPc (i : Nat)
  deriving DecidableEq, Repr

/-- `send_ctrl` exists once `connect` has returned; the control loop takes the next datagram
once it has handled the messages of the last one. -/
def step (src : InetSocketAddress) (s : System) : Action → System
  | .hello audio =>
    if s.pc.connected then s else { s with toPhone := s.toPhone ++ [s.pc.hello audio] }
  | .send now msg =>
    if s.pc.connected then
      let (pc, out, _) := s.pc.sendCtrl now (fun _ => .ok ()) msg
      { s with pc := pc, toPhone := s.toPhone ++ out, sent := s.sent ++ [(msg, out)] }
    else s
  | .flushAck =>
    let (pc, out) := s.pc.flushAck
    { s with pc := pc, toPhone := s.toPhone ++ out }
  | .retransmit now =>
    let (pc, out, _) := s.pc.retransmit now
    { s with pc := pc, toPhone := s.toPhone ++ out }
  | .heartbeat now =>
    let (pc, out) := s.pc.heartbeat now
    { s with pc := pc, toPhone := s.toPhone ++ out }
  | .toPhone now i =>
    match s.handling, s.toPhone[i]? with
    | [], some frame =>
      let (server, out, msgs) := s.server.receive src now frame
      { s with
        server := server, handling := msgs
        toPhone := s.toPhone.eraseIdx i, toPc := s.toPc ++ out }
    | _, _ => s
  | .handle =>
    match s.handling with
    | [] => s
    | msg :: rest => { s with handling := rest, handled := s.handled ++ [msg] }
  | .phoneSend now msg =>
    match s.server.clients[src]? with
    | none => s
    | some _ =>
      let (server, out) := s.server.withClient src fun c => c.sendCtrlMsg now msg
      { s with server := server, toPc := s.toPc ++ out, phoneSent := s.phoneSent ++ [(msg, out)] }
  | .phoneRetransmit now =>
    let (server, out) := s.server.withClient src fun c => c.retransmit now
    { s with server := server, toPc := s.toPc ++ out }
  | .toPc i =>
    match s.toPc[i]? with
    | none => s
    | some frame =>
      let (pc, events) := s.pc.read frame
      { s with
        pc := pc
        toPc := s.toPc.eraseIdx i
        received := s.received ++ events.filterMap Event.control? }

def isCtrlData (f : Frame) : Bool := f.type == .data && f.stream == .ctrl

theorem isCtrlData_iff (f : Frame) : isCtrlData f = true ↔ f.type = .data ∧ f.stream = .ctrl := by
  simp [isCtrlData]

/-- Every message of either end arrives, in order and once; the PC holds the fragments of a
message until the phone has handled it, and nothing is missing once nothing is in flight. -/
structure Served (s : System) : Prop where
  handled : s.handled <+: payloads s.sent
  kept : ∀ e ∈ s.sent.drop s.handled.length, ∀ f ∈ e.2, f ∈ s.pc.ctrlTx.window.map OutEntry.wire
  all_handled : s.handling = [] → (∀ f ∈ s.toPhone, isCtrlData f = false) →
    s.handled = payloads s.sent
  received : s.received <+: payloads s.phoneSent
  all_received : (∀ f ∈ s.toPc, isCtrlData f = false) → s.received = payloads s.phoneSent

/-- A new session on the address; the server and what is in flight stay as they are. -/
def reopen (now : Nat) (scid : String) (s : System) : System :=
  { s with
    pc := UdpSession.new now scid
    sent := [], handled := [], phoneSent := [], received := [] }

/-- The connection is open and has exchanged no control message. -/
structure Untouched (c : ClientConnection) : Prop where
  live : c.closed = false
  receiver : Intake.Idle 1 c.ctrlReceiver.intake
  nextSeq : c.ctrlSender.nextSeq = 1
  window : c.ctrlSender.window = []
  sending : c.ctrlSender.closed = false
  talking : c.ctrlSender.stalled = false

/-- The server holds such a connection for the address, and nothing of its session is in
flight but HELLO, HELLO_ACK and heartbeats. -/
structure Quiet (src : InetSocketAddress) (s : System) : Prop where
  held : ∃ c, s.server.clients[src]? = some c ∧ Untouched c
  toPhone : ∀ f ∈ s.toPhone, f.type = .hello ∨ f.type = .heartbeat
  toPc : ∀ f ∈ s.toPc, f.type = .helloAck
  handling : s.handling = []

/-- What the steps of a session must observe besides: payloads that both ends can cut, room
in the receive buffers, sequence numbers within half their ring, and no ACK processed while
the phone still handles what it covers. -/
def Sound (src : InetSocketAddress) (s : System) : Action → Prop
  | .send _ msg => msg ≠ [] ∧ (frames s.sent).length + pieceCount rustSender msg < 2 ^ 31
  | .phoneSend _ msg => msg.length + maxFragment ≤ 2 ^ 31 ∧
      (frames s.phoneSent).length + pieceCount javaSender msg < 2 ^ 31 ∧
      ∀ c ∈ s.server.clients[src]?, c.ctrlSender.stalled = false
  | .toPhone _ i => ∀ f ∈ s.toPhone[i]?, isCtrlData f = true → s.pc.ctrlTx.pending ≤ 2 ^ 30 ∧
      ∀ c ∈ s.server.clients[src]?, c.ctrlReceiver.intake.Room ReliableControl.inWindow f
  | .toPc i => ∀ f ∈ s.toPc[i]?,
      (isCtrlData f = true → s.pc.closed = false ∧
        s.pc.ctrlRx.intake.Room ReliableReceiver.admits f) ∧
      (f.type = .ack → s.handling = [] ∨
        ∀ c ∈ s.server.clients[src]?, f.payload ≠ some (.ackSeq c.ctrlReceiver.ackSeq))
  | _ => True

instance (src : InetSocketAddress) (s : System) : (a : Action) → Decidable (Sound src s a)
  | .send _ _ => inferInstanceAs (Decidable (_ ∧ _))
  | .phoneSend _ _ => inferInstanceAs (Decidable (_ ∧ _))
  | .toPhone _ i => inferInstanceAs (Decidable (∀ f ∈ s.toPhone[i]?, _))
  | .toPc i => inferInstanceAs (Decidable (∀ f ∈ s.toPc[i]?, _))
  | .hello _ | .flushAck | .retransmit _ | .heartbeat _ | .handle | .phoneRetransmit _ =>
    .isTrue trivial

end Kulua.Restart
