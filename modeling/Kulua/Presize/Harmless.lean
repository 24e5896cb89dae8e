import Kulua.Presize.Receivers
import Kulua.ServerLoop

/-! Which frames the two processes survive. `ClientConnection.onFrame` is called outside of
any handler in the control loop of the phone, and so is `on_frame` on the PC: a call that
does not return ends the loop for all clients, or the process. -/

namespace Kulua
open Foundation Intake

namespace ClientConnection

def onData? (self : ClientConnection) (frame : Frame) :
    Option (ClientConnection × List Frame × List Bytes) :=
  match frame.stream with
  | .unrecognized _ => some (self, [], [])
  | .ctrl =>
    (self.ctrlReceiver.onFrame? frame).map fun (receiver, delivered) =>
      let self := { self with ctrlReceiver := receiver }
      if self.ctrlReceiver.isDead then (self.close, [], [])
      else (self, [self.sendAck], delivered)

/-- `onFrame`; only control data reaches code that may not return. -/
def onFrame? (self : ClientConnection) (now : Nat) (frame : Frame) :
    Option (ClientConnection × List Frame × List Bytes) :=
  if self.closed then some (self, [], [])
  else
    let self := self.touch now
    match frame.type with
    | .hello => some (self, [self.helloAck], [])
    | .ack => some ({ self with ctrlSender := self.ctrlSender.onAck (ackSeqOf frame) }, [], [])
    | .bye => some (self.close, [], [])
    | .heartbeat => some ({ self with heartbeatSeen := true }, [], [])
    | .data => self.onData? frame
    | .helloAck | .unrecognized _ => some (self, [], [])

def Bounded (self : ClientConnection) : Prop := self.ctrlReceiver.intake.Bounded

/-- The frame is control data that overruns the buffer. -/
structure Harmful (c : ClientConnection) (frame : Frame) : Prop where
  live : c.closed = false
  type : frame.type = .data
  stream : frame.stream = .ctrl
  overruns : c.ctrlReceiver.intake.Overruns ReliableControl.inWindow Declares frame

theorem onFrame?_of_not_data {self : ClientConnection} {frame : Frame} (now : Nat)
    (h : frame.type ≠ .data) : self.onFrame? now frame = some (self.onFrame now frame) := by
  unfold onFrame? onFrame
  by_cases hclosed : self.closed = true
  · rw [if_pos hclosed, if_pos hclosed]
  · rw [if_neg hclosed, if_neg hclosed]
    cases htype : frame.type with
    | data => exact absurd htype h
    | _ => rfl

/-- A call returns exactly if its frame does no harm, and it is the one of the total model. -/
theorem onFrame?_cases {self : ClientConnection} (hbounded : self.Bounded) (now : Nat)
    (frame : Frame) :
    (self.Harmful frame ∧ self.onFrame? now frame = none) ∨
      (¬self.Harmful frame ∧ self.onFrame? now frame = some (self.onFrame now frame)) := by
  by_cases hdata : self.closed = false ∧ frame.type = .data ∧ frame.stream = .ctrl
  · obtain ⟨hlive, htype, hstream⟩ := hdata
    obtain ⟨hnone, hsome⟩ := ReliableControl.Receiver.onFrame?_eq hbounded frame
    rcases h : self.ctrlReceiver.onFrame? frame with _ | out
    · refine Or.inl ⟨⟨hlive, htype, hstream, hnone.mp h⟩, ?_⟩
      simp [onFrame?, hlive, htype, onData?, hstream, touch, h]
    · refine Or.inr ⟨fun hharmful => ?_, ?_⟩
      · rw [hnone.mpr hharmful.overruns] at h
        cases h
      · simp [onFrame?, onFrame, hlive, htype, onData?, onData, hstream, touch, h, hsome out h]
  · refine Or.inr ⟨fun h => hdata ⟨h.live, h.type, h.stream⟩, ?_⟩
    by_cases htype : frame.type = .data
    · unfold onFrame? onFrame
      by_cases hclosed : self.closed = true
      · rw [if_pos hclosed, if_pos hclosed]
      · rw [if_neg hclosed, if_neg hclosed]
        simp only [htype, onData?, onData]
        rcases hstream : frame.stream with _ | v
        · exact absurd ⟨Bool.eq_false_iff.mpr hclosed, htype, hstream⟩ hdata
        · rfl
    · exact onFrame?_of_not_data now htype

theorem onFrame_receiver (self : ClientConnection) (now : Nat) (frame : Frame) :
    (self.onFrame now frame).1.ctrlReceiver = self.ctrlReceiver ∨
      (self.onFrame now frame).1.ctrlReceiver = (self.ctrlReceiver.onFrame frame).1 := by
  have hclose (c : ClientConnection) : c.close.ctrlReceiver = c.ctrlReceiver := by
    unfold close
    split <;> rfl
  by_cases hclosed : self.closed = true
  · rw [onFrame, if_pos hclosed]
    exact Or.inl rfl
  · by_cases hbye : frame.type = .bye
    · left
      simp only [onFrame, if_neg hclosed, hbye, hclose]
      rfl
    · by_cases hdata : frame.type = .data ∧ frame.stream = .ctrl
      · right
        simp only [onFrame, if_neg hclosed, hdata.1, onData, hdata.2]
        split
        · exact hclose _
        · rfl
      · obtain ⟨c, out, hframe, -, hreceiver, -⟩ :=
          onFrame_other (Bool.eq_false_iff.mpr hclosed) now hbye hdata
        rw [hframe]
        exact Or.inl hreceiver

theorem kept_bounded : Kept Bounded where
  new _ _ _ _ := bounded_new
  onFrame c now frame hc _ := by
    unfold Bounded
    rcases c.onFrame_receiver now frame with h | h <;> rw [h]
    · exact hc
    · have hintake : _ = (c.ctrlReceiver.onFrame frame).1.intake :=
        congrArg Prod.fst (c.ctrlReceiver.onFrame_intake frame)
      rw [← hintake]
      exact Intake.Bounded.onFrame hc frame
  tickHeartbeat c hc := by
    unfold tickHeartbeat
    split <;> exact hc
  touch _ _ hc := hc
  retransmit c now hc := by
    unfold retransmit
    split <;> exact hc
  sendCtrlMsg _ _ _ hc := hc

end ClientConnection

namespace UdpServer

def dispatch? (self : UdpServer) (src : InetSocketAddress) (client : ClientConnection) (now : Nat)
    (frame : Frame) : Option (UdpServer × List Frame × List Bytes) :=
  (client.onFrame? now frame).map fun (client, out, msgs) =>
    ({ self with
      clients := if client.closed then self.clients.erase src
        else self.clients.insert src client },
      out, msgs)

/-- One datagram of the control loop. -/
def receive? (self : UdpServer) (src : InetSocketAddress) (now : Nat) (frame : Frame) :
    Option (UdpServer × List Frame × List Bytes) :=
  match self.clients[src]? with
  | some client => self.dispatch? src client now frame
  | none =>
    match frame.type, frame.payload with
    | .hello, some (.hello hello) =>
      match self.acceptSrc src now hello with
      | none => some (self, [], [])
      | some (self, client, ack) =>
        (self.dispatch? src client now frame).map fun (self, out, msgs) =>
          (self, ack :: out, msgs)
    | _, _ => some (self, [], [])

theorem dispatch?_some {self : UdpServer} {src : InetSocketAddress} {client : ClientConnection}
    {now : Nat} {frame : Frame}
    (h : client.onFrame? now frame = some (client.onFrame now frame)) :
    self.dispatch? src client now frame = some (self.dispatch src client now frame) := by
  rw [dispatch?, h]
  rfl

/-- A datagram is survived exactly when it does not harm the client of its source. -/
theorem receive?_cases {self : UdpServer} (hbounded : self.Each ClientConnection.Bounded)
    (src : InetSocketAddress) (now : Nat) (frame : Frame) :
    ((∃ client : ClientConnection, self.clients[src]? = some client ∧ client.Harmful frame) ∧
        self.receive? src now frame = none) ∨
      ((∀ client : ClientConnection, self.clients[src]? = some client → ¬client.Harmful frame) ∧
        self.receive? src now frame = some (self.receive src now frame)) := by
  rcases hclient : self.clients[src]? with _ | client
  · refine Or.inr ⟨nofun, ?_⟩
    by_cases hhello : ∃ hello, frame.type = .hello ∧ frame.payload = some (.hello hello)
    · obtain ⟨hello, htype, hpayload⟩ := hhello
      have hother : frame.type ≠ .data := by
        rw [htype]
        nofun
      simp only [receive?, receive, hclient, htype, hpayload]
      rcases self.acceptSrc src now hello with _ | ⟨server, client, ack⟩
      · rfl
      · simp only [dispatch?_some (ClientConnection.onFrame?_of_not_data now hother)]
        rfl
    · simp only [receive?, receive, hclient]
      rcases htype : frame.type with _ | _ | _ <;> try rfl
      rcases hpayload : frame.payload with _ | (_ | _ | hello | _) <;> try rfl
      exact absurd ⟨hello, htype, hpayload⟩ hhello
  · rcases ClientConnection.onFrame?_cases (hbounded src client hclient) now frame with
      ⟨hharmful, hnone⟩ | ⟨hharmless, hsome⟩
    · refine Or.inl ⟨⟨client, rfl, hharmful⟩, ?_⟩
      simp only [receive?, hclient, dispatch?, hnone, Option.map_none]
    · refine Or.inr ⟨fun c hc => ?_, ?_⟩
      · cases hc
        exact hharmless
      · simp only [receive?, receive, hclient]
        exact dispatch?_some hsome

end UdpServer

namespace ServerLoop

/-- The control loop survives the datagram, which has the effect it has in the total model. -/
def Survives (self : ServerLoop) : Action → Prop
  | .receive src now frame => self.exited = false →
      self.server.receive? src now frame = some (self.server.receive src now frame)
  | _ => True

/-- The datagram does not harm the client of its source. -/
def Harmless (self : ServerLoop) : Action → Prop
  | .receive src _ frame => self.exited = false →
      ∀ client : ClientConnection, self.server.clients[src]? = some client →
        ¬client.Harmful frame
  | _ => True

theorem survives_iff (options : Options) (now : Nat) (actions : List Action) :
    Run.Along step Survives (init options now) actions ↔
      Run.Along step Harmless (init options now) actions := by
  refine Run.along_iff (I := fun s => s.server.Each ClientConnection.Bounded)
    (fun s a h => each_step ClientConnection.kept_bounded h a) (fun s a h => ?_)
    (UdpServer.each_new options) actions
  cases a with
  | receive src now frame =>
      refine forall_congr' fun _ => ?_
      rcases UdpServer.receive?_cases h src now frame with
        ⟨⟨client, hclient, hharmful⟩, hnone⟩ | ⟨hharmless, hsome⟩
      · rw [hnone]
        exact iff_of_false nofun fun h => h client hclient hharmful
      · exact iff_of_true hsome hharmless
  | _ => exact Iff.rfl

end ServerLoop

namespace ReliableReceiver

def step (r : ReliableReceiver) (frame : Frame) : ReliableReceiver := (r.onFrame frame).1

/-- The process survives the frame, which has the effect it has in the total model. -/
def Survives (r : ReliableReceiver) (frame : Frame) : Prop :=
  r.onFrame? frame = some (r.onFrame frame)

def Harmless (r : ReliableReceiver) (frame : Frame) : Prop :=
  ¬r.intake.Overruns admits Bursts frame

theorem survives_iff (frames : List Frame) :
    Run.Along step Survives new frames ↔ Run.Along step Harmless new frames := by
  refine Run.along_iff (I := fun r : ReliableReceiver => r.intake.Bounded) (fun r frame h => ?_)
    (fun r frame h => ?_) (s := new) bounded_new frames
  · have hintake : _ = (r.onFrame frame).1.intake := congrArg Prod.fst (r.onFrame_intake frame)
    rw [step, ← hintake]
    exact h.onFrame frame
  · obtain ⟨hnone, hsome⟩ := onFrame?_eq h frame
    unfold Survives Harmless
    rw [← hnone]
    constructor
    · intro hout hlost
      rw [hlost] at hout
      cases hout
    · intro hlives
      obtain ⟨out, hout⟩ := Option.ne_none_iff_exists'.mp hlives
      rw [hout, hsome out hout]

end ReliableReceiver

end Kulua
