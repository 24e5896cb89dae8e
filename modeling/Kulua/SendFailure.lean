import Kulua.SenderEquivalence
import Kulua.Stream.Lockstep
import Kulua.Stream.Net
import Kulua.UdpSession

/-! `UdpSession::send_ctrl` when the socket fails. The fragments are registered before any of
them is written, so an error does not take the message back: the timers send it all the same. -/

namespace Kulua
open Foundation Foundation.Run Foundation.Segment Kulua.Stream

namespace UdpSession

variable (pc : UdpSession)

theorem sendWires_ok_iff (socket : Nat → Except String Unit) (i : Nat) (fs : List Frame) :
    (sendWires socket i fs).2 = .ok () ↔ ∀ j < fs.length, socket (i + j) = .ok () := by
  induction fs generalizing i with
  | nil => simp [sendWires]
  | cons f fs ih =>
    rw [List.length_cons, Nat.forall_lt_succ_left]
    cases hi : socket i with
    | error e => simp [sendWires, hi]
    | ok =>
      simp only [sendWires, hi, ih, true_and]
      exact forall₂_congr fun j _ => by rw [Nat.add_right_comm, Nat.add_assoc]

/-- All fragments are in the window, whatever the socket takes. -/
theorem sendCtrl_window (now : Nat) (socket : Nat → Except String Unit) (msg : Bytes) :
    (pc.sendCtrl now socket msg).1.ctrlTx.window = pc.ctrlTx.window ++
      (pc.ctrlTx.sendCtrlBytes now pc.msgId msg).2.map (OutEntry.register now) := by
  simp only [sendCtrl, ReliableSender.sendCtrlBytes_eq, ReliableSender.sendFragments_eq]

theorem length_sendCtrlBytes (tx : ReliableSender) (now : Nat) (msgId : U32) (msg : Bytes) :
    (tx.sendCtrlBytes now msgId msg).2.length = (chunks maxFragment msg).length := by
  simp [ReliableSender.sendCtrlBytes_eq, ReliableSender.sendFragments_eq]

/-- One direction of the stream once the call has returned: the network has what the socket
took. -/
def sendCtrlOn (n : Net ReliableSender ReliableControl.Receiver) (now : Nat)
    (socket : Nat → Except String Unit) (msg : Bytes) :
    Net ReliableSender ReliableControl.Receiver :=
  let (next, taken, _) := pc.sendCtrl now socket msg
  { n with
    sender := next.ctrlTx
    log := n.log ++ [(msg, (n.sender.sendCtrlBytes now pc.msgId msg).2)]
    wire := n.wire ++ taken }

/-- The call has left no trace of the message but a message id. -/
structure LeavesNothing (now : Nat) (socket : Nat → Except String Unit) (msg : Bytes) : Prop where
  window : (pc.sendCtrl now socket msg).1.ctrlTx.window = pc.ctrlTx.window
  stalled : (pc.sendCtrl now socket msg).1.ctrlTx.stalled = pc.ctrlTx.stalled
  /-- In no later run the peer returns more than the messages sent before. -/
  undelivered : ∀ before later,
    (Net.exec rustSender javaReceiver before).sender = pc.ctrlTx →
      (run (Net.step rustSender javaReceiver)
          (pc.sendCtrlOn (Net.exec rustSender javaReceiver before) now socket msg)
          later).delivered.length ≤
        (Net.exec rustSender javaReceiver before).sent.length

/-- An error leaves nothing behind if and only if there is none: the socket takes every
fragment. -/
theorem send_ctrl_atomic_iff (now : Nat) (socket : Nat → Except String Unit) (msg : Bytes) :
    (∀ e, (pc.sendCtrl now socket msg).2.2 = .error e → pc.LeavesNothing now socket msg) ↔
      ∀ i < (chunks maxFragment msg).length, socket i = .ok () := by
  have hresult : (pc.sendCtrl now socket msg).2.2 = .ok () ↔
      ∀ i < (chunks maxFragment msg).length, socket i = .ok () := by
    have h := sendWires_ok_iff socket 0 (pc.ctrlTx.sendCtrlBytes now pc.msgId msg).2
    simp only [length_sendCtrlBytes, Nat.zero_add] at h
    exact h
  rw [← hresult]
  cases hsent : (pc.sendCtrl now socket msg).2.2 with
  | ok => simp
  | error e =>
    refine iff_of_false (fun h => ?_) (by simp)
    have hwindow := (h e rfl).window
    rw [sendCtrl_window, List.append_right_eq_self, List.map_eq_nil_iff] at hwindow
    -- without fragments there is no write to fail
    have hnone : (chunks maxFragment msg).length = 0 := by
      rw [← length_sendCtrlBytes pc.ctrlTx now pc.msgId, hwindow]
      rfl
    have hok := hresult.mpr (by simp [hnone])
    rw [hsent] at hok
    cases hok

theorem resent_register {now later : Nat} (h : now + initialRto ≤ later) (f : Frame) :
    Resent later (.register now f) := by
  refine ⟨?_, Nat.succ_pos _⟩
  have hrto : ReliableSender.rtoFor 0 = initialRto := by decide
  simp only [Due, OutEntry.register, hrto]
  omega

/-- The timers send every fragment of a message whose call has failed. -/
theorem failed_send_resent {now later : Nat} (h : now + initialRto ≤ later)
    (socket : Nat → Except String Unit) (msg : Bytes) {f : Frame}
    (hf : f ∈ (pc.ctrlTx.sendCtrlBytes now pc.msgId msg).2) :
    f ∈ ((pc.sendCtrl now socket msg).1.ctrlTx.dueTimeouts later).2 := by
  simp only [ReliableSender.dueTimeouts, List.mem_filterMap, List.mem_map]
  refine ⟨_, ⟨.register now f, ?_, rfl⟩, ?_⟩
  · rw [sendCtrl_window]
    exact List.mem_append_right _ (List.mem_map_of_mem hf)
  · rw [ReliableSender.dueEntry_resent (resent_register h f)]
    rfl

/-- A peer that has returned everything so far returns a message of a failed call as soon as
it has what the timers send of it. -/
theorem failed_send_delivered {ms : List Message} (ready : Ready rustSender javaReceiver ms)
    (htx : pc.ctrlTx = (lockstep rustSender javaReceiver ms).sender) {now later : Nat}
    (hlater : now + initialRto ≤ later) (socket : Nat → Except String Unit) {msg : Bytes}
    (hne : msg ≠ []) (hmax : msg.length ≤ maxMessage) :
    ∃ resent, (∀ f ∈ resent, f ∈ ((pc.sendCtrl now socket msg).1.ctrlTx.dueTimeouts later).2) ∧
      (javaReceiver.feed (lockstep rustSender javaReceiver ms).receiver resent).2 = [msg] := by
  refine ⟨(pc.ctrlTx.sendCtrlBytes now pc.msgId msg).2,
    fun f hf => pc.failed_send_resent hlater socket msg hf, ?_⟩
  have hlen : pieceCount rustSender msg ≤ maxRecvBuffer + 1 := (length_chunks_le_iff _).mpr hmax
  have hcomplete := (ready.concat (m := ⟨now, pc.msgId, msg⟩) rustSender_lawful
    javaReceiver_lawful indexBelow_java reaches_java trivial
    (hlen.trans_lt (by norm_num [maxRecvBuffer]))).1.mpr
    ⟨rustSender_lawful.split_ne_nil _ trivial hne, hlen, hlen.trans (by norm_num [maxRecvBuffer])⟩
  have hdelivered := hcomplete.1
  rw [lockstep_concat, List.map_append] at hdelivered
  simp only [exchange, ready.delivered, List.append_right_inj] at hdelivered
  rw [htx]
  exact hdelivered

/-- The socket is down for the only write of a message; 200 ms later the timer sends it and
the peer returns it. -/
theorem failed_send_reaches_peer :
    let pc := UdpSession.new 0 "kulua"
    let down : Nat → Except String Unit := fun _ => .error "network down"
    (pc.sendCtrl 0 down [97]).2.2 = .error "udp send: network down" ∧
      (Net.exec rustSender javaReceiver []).sender = pc.ctrlTx ∧
      (run (Net.step rustSender javaReceiver)
        (pc.sendCtrlOn (Net.exec rustSender javaReceiver []) 0 down [97])
        [.timeouts 200000000, .deliver 0]).delivered = [[97]] := by decide

end UdpSession
end Kulua
