import Kulua.Restart.Holding

/-! A new session is served as long as the held connection has exchanged no control
message with the earlier one; over a connection that has, its first message is lost. -/

namespace Kulua.Restart
open Foundation Foundation.Segment Kulua.Stream

variable {src : InetSocketAddress} {s : System} {c : ClientConnection}

/-- From the opening of a session on, in every run that observes the conditions, every
message of either end is served. -/
theorem new_session_served (quiet : Quiet src s) (now : Nat) (scid : String)
    (actions : List Action)
    (sound : Run.Along (Restart.step src) (Sound src) (reopen now scid s) actions) :
    Served (Run.run (Restart.step src) (reopen now scid s) actions) := by
  obtain ⟨c, h⟩ := Run.invariant (I := fun s => ∃ c, Holding src s c)
    (fun s a ⟨c, h⟩ hsound => h.step a hsound) (quiet.holding now scid) sound
  exact h.served

/-- The server of the next two results: it holds the client of a HELLO just answered. -/
def greeted (options : Options) (src : InetSocketAddress) : System where
  pc := UdpSession.new 0 options.scid
  server := { UdpServer.new options with
    clients := (UdpServer.new options).clients.insert src
      (ClientConnection.new 0 1 false options).1
    nextClientId := 2
    hadClient := true }
  handling := []
  toPhone := []
  toPc := []
  sent := []
  handled := []
  phoneSent := []
  received := []

theorem quiet_greeted (options : Options) (src : InetSocketAddress) :
    Quiet src (greeted options src) where
  held := ⟨(ClientConnection.new 0 1 false options).1, by simp [greeted],
    ⟨rfl, Intake.idle_new, rfl, rfl, rfl, rfl⟩⟩
  toPhone f hf := by simp [greeted] at hf
  toPc f hf := by simp [greeted] at hf
  handling := rfl

/-- A client that reconnects before it has sent anything. -/
theorem new_session_served_reconnect :
    let actions : List Action := [.hello false, .toPhone 0 0, .toPc 0, .send 0 [1], .send 0 [2],
      .phoneSend 0 [3], .toPhone 0 1, .toPhone 0 0, .handle, .handle, .toPc 2, .toPc 0]
    let s := Run.run (step 7) (reopen 0 "4b4c0000" (greeted ⟨"4b4c0000", "raw"⟩ 7)) actions
    (s.handled = [[1], [2]] ∧ s.received = [[3]]) ∧ Served s :=
  ⟨by decide, new_session_served (quiet_greeted ⟨"4b4c0000", "raw"⟩ 7) 0 "4b4c0000" _ (by decide)⟩

/-- A receiver past its first message refuses the first sequence number. -/
theorem onFrame_first_refused {r : ReliableControl.Receiver} {n : Nat} (hn : 1 < n)
    (hle : n ≤ 2 ^ 31) (hnext : r.nextSeq = BitVec.ofNat 32 n) {f : Frame} (hseq : f.seq = 1) :
    r.onFrame f = (r, []) := by
  have hsub : (1 : U32) - BitVec.ofNat 32 n = BitVec.ofNat 32 (2 ^ 32 - (n - 1)) := by
    apply BitVec.eq_of_toNat_eq
    simp only [BitVec.toNat_sub, BitVec.toNat_ofNat, BitVec.ofNat_eq_ofNat]
    omega
  have hout : ReliableControl.inWindow f.seq r.nextSeq = false := by
    have hspan : (0x40000000 : U32).toNat = 2 ^ 30 := rfl
    rw [ReliableControl.inWindow, hseq, hnext, hsub, decide_eq_false_iff_not, BitVec.lt_def, hspan,
      BitVec.toNat_ofNat]
    omega
  unfold ReliableControl.Receiver.onFrame
  split
  · rfl
  · split
    · simp [hout]
    · rfl

/-- The first message of a session has fragments numbered from 1. -/
theorem sendCtrl_first {pc : UdpSession} (htx : pc.ctrlTx = ReliableSender.new) (now : Nat)
    {msg : Bytes} (hne : msg ≠ []) :
    ∃ f fs, pc.sendCtrl now (fun _ => .ok ()) msg =
        ({ pc with
          msgId := pc.msgId + 1
          ctrlTx := ⟨1 + BitVec.ofNat 32 (pieceCount rustSender msg),
            (f :: fs).map (OutEntry.register now), false⟩ }, f :: fs, .ok ()) ∧
      f.seq = 1 ∧ isCtrlData f = true ∧ (pieceCount rustSender msg < 2 ^ 31 → f ∉ fs) := by
  have hpos : 0 < (chunks maxFragment msg).length := length_chunks_pos (by decide) hne
  obtain ⟨chunk, rest, hparts⟩ := List.exists_cons_of_length_pos hpos
  let frame (i : Nat) := Frame.ctrlData (1 + BitVec.ofNat 32 i) pc.msgId
    (BitVec.ofNat 32 (chunk :: rest).length) i
  refine ⟨frame 0 chunk, rest.mapIdx fun i => frame (i + 1), ?_, rfl, rfl, fun few hmem => ?_⟩
  · rw [UdpSession.sendCtrl_ok fun _ => rfl, htx, ReliableSender.sendCtrlBytes_eq,
      ReliableSender.sendFragments_eq]
    simp only [fragments, hparts, List.mapIdx_cons, ReliableSender.new, List.nil_append,
      pieceCount, rustSender]
    rfl
  · obtain ⟨i, hi⟩ := List.getElem?_of_mem hmem
    rw [List.getElem?_mapIdx] at hi
    obtain ⟨c, hc, he⟩ := Option.map_eq_some_iff.mp hi
    have hlt := (List.getElem?_eq_some_iff.mp hc).1
    have hfrag := congrArg (fun f : Frame => f.frag.toNat) he
    simp only [pieceCount, rustSender, hparts, List.length_cons] at few
    simp only [frame, Frame.ctrlData, BitVec.toNat_ofNat] at hfrag
    omega

/-- Over a receiver past its first message, the first fragment of a new session is refused, and
the ACK with which it is answered takes it out of the window. -/
theorem held_receiver_unserved {c : ClientConnection}
    (hclient : s.server.clients[src]? = some c) (hlive : c.closed = false)
    (halive : c.ctrlReceiver.dead = false) {n : Nat} (hn : 1 < n) (hle : n ≤ 2 ^ 31)
    (hnext : c.ctrlReceiver.nextSeq = BitVec.ofNat 32 n) (hhandling : s.handling = [])
    (hconnected : s.pc.connected = true) (hopen : s.pc.closed = false)
    (htx : s.pc.ctrlTx = ReliableSender.new) (hsent : s.sent = []) (hhandled : s.handled = [])
    (now now' : Nat) {msg : Bytes} (hne : msg ≠ []) (few : pieceCount rustSender msg < 2 ^ 31) :
    ¬Served (Run.run (step src) s
      [.send now msg, .toPhone now' s.toPhone.length, .toPc s.toPc.length]) := by
  obtain ⟨f, fs, hsend, hseq, hdata, hnew⟩ := sendCtrl_first htx now hne
  obtain ⟨htype, hstream⟩ := (isCtrlData_iff f).mp hdata
  have hrefused := onFrame_first_refused hn hle hnext hseq
  have hframe := ClientConnection.onFrame_data hlive now' htype hstream (by rw [hrefused]; exact halive)
  rw [hrefused] at hframe
  have hopen' : (c.onFrame now' f).1.closed = false := by
    rw [hframe]
    exact hlive
  have hget : (s.toPhone ++ f :: fs)[s.toPhone.length]? = some f := by simp
  have hack : (s.toPc ++ [Frame.ctrlAck c.ctrlReceiver.ackSeq])[s.toPc.length]? =
      some (Frame.ctrlAck c.ctrlReceiver.ackSeq) := by simp
  -- the ACK covers sequence number 1
  have hcovers : ReliableSender.seqLe f.seq c.ctrlReceiver.ackSeq = true := by
    have hackSeq : c.ctrlReceiver.ackSeq = BitVec.ofNat 32 (n - 1) := by
      rw [ReliableControl.Receiver.ackSeq, hnext, show n = n - 1 + 1 by omega, BitVec.ofNat_add]
      exact BitVec.add_sub_cancel _ _
    rw [ReliableSender.seqLe_eq_le, hackSeq, hseq, show (1 : U32) = BitVec.ofNat 32 1 from rfl,
      Serial.le_ofNat (by omega) (by omega)]
    exact decide_eq_true (by omega)
  intro hserved
  have hkept := hserved.kept
  simp only [Run.run_cons, Run.run_nil, step, hconnected, if_true, hsend, hhandling, hget,
    UdpServer.receive_held hclient hopen', hframe, hack] at hkept
  simp only [UdpSession.read, hopen, UdpSession.dispatch, Frame.ctrlAck, hsent, hhandled,
    ReliableSender.onAck, List.map_cons, List.dropWhile_cons, OutEntry.register, hcovers] at hkept
  have hwindow := hkept (msg, f :: fs) (by simp) f (List.mem_cons_self ..)
  simp only [if_true, Bool.false_eq_true, if_false] at hwindow
  obtain ⟨e, he, hwire⟩ := List.mem_map.mp hwindow
  obtain ⟨g, hg, rfl⟩ := List.mem_map.mp ((List.dropWhile_suffix _).subset he)
  exact hnew few (hwire ▸ hg)

/-- A session exchanges a message in each direction and a new one opens on its address: the
phone ignores the new message and acknowledges it all the same, and its own next message
waits on the PC for one that was sent before. -/
theorem new_session_unserved :
    let first := Run.run (step 7) (greeted ⟨"4b4c0000", "raw"⟩ 7) [.hello false, .toPhone 0 0,
      .toPc 0, .send 0 [1], .toPhone 0 0, .handle, .toPc 0, .phoneSend 0 [2], .toPc 0, .flushAck,
      .toPhone 0 0]
    let second := Run.run (step 7) (reopen 0 "4b4c0000" first) [.hello false, .toPhone 0 0,
      .toPc 0, .send 0 [3], .toPhone 0 0, .toPc 0, .phoneSend 0 [4], .toPc 0]
    (first.handled = [[1]] ∧ first.received = [[2]]) ∧
      (second.toPhone = [] ∧ second.toPc = [] ∧ second.handling = [] ∧
        payloads second.sent = [[3]] ∧ second.handled = [] ∧ second.pc.ctrlTx.window = [] ∧
        payloads second.phoneSent = [[4]] ∧ second.received = []) ∧
      ¬Served second := by
  intro first second
  have hfirst : first.handled = [[1]] ∧ first.received = [[2]] := by decide
  have hsecond : second.toPhone = [] ∧ second.toPc = [] ∧ second.handling = [] ∧
      payloads second.sent = [[3]] ∧ second.handled = [] ∧ second.pc.ctrlTx.window = [] ∧
      payloads second.phoneSent = [[4]] ∧ second.received = [] := by decide
  refine ⟨hfirst, hsecond, fun h => ?_⟩
  obtain ⟨hphone, -, hhandling, hsent, hhandled, -⟩ := hsecond
  have hall := h.all_handled hhandling (by simp [hphone])
  rw [hsent, hhandled] at hall
  cases hall

end Kulua.Restart
