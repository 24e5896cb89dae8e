import Kulua.Restart.System
import Kulua.Stream.Lossless

/-! What every step of a session keeps: the client that the server holds, and in each
direction a stream that is in step with its history and has lost nothing. -/

namespace Kulua.Restart
open Foundation Foundation.Segment Kulua.Stream

/-- The ACK a frame carries for the session. -/
def ackOf (f : Frame) : Option U32 :=
  match f.type, f.payload with
  | .ack, some (.ackSeq a) => some a
  | _, _ => none

/-- The direction from the PC to the phone, with what is in flight. -/
def up (s : System) (c : ClientConnection) : Net ReliableSender ReliableControl.Receiver where
  sender := s.pc.ctrlTx
  receiver := c.ctrlReceiver
  log := s.sent
  wire := s.toPhone.filter isCtrlData
  acks := s.toPc.filterMap ackOf
  delivered := s.handled ++ s.handling

/-- The direction from the phone to the PC. Its ACKs play no part here. -/
def down (s : System) (c : ClientConnection) : Net ReliableControl.Sender ReliableReceiver where
  sender := c.ctrlSender
  receiver := s.pc.ctrlRx
  log := s.phoneSent
  wire := s.toPc.filter isCtrlData
  acks := []
  delivered := s.received

/-- Between the steps: the server holds an open client, each direction is in step with its
history and has lost nothing, and the PC holds what the phone has not handled. -/
structure Holding (src : InetSocketAddress) (s : System) (c : ClientConnection) : Prop where
  client : s.server.clients[src]? = some c
  live : c.closed = false
  sending : c.ctrlSender.closed = false
  no_bye : ∀ f ∈ s.toPhone, f.type ≠ .bye
  upward : Steady rustSender javaReceiver (up s c)
  kept : Kept rustSender (up s c) s.handled.length
  downward : Steady javaSender rustReceiver (down s c)

variable {src : InetSocketAddress} {s : System} {c : ClientConnection}

theorem Holding.served (h : Holding src s c) : Served s where
  handled :=
    (List.prefix_append s.handled s.handling).trans (h.upward.lossless.isPrefix h.upward.safe)
  kept := by
    have hkept := h.kept.in_window
    rwa [h.upward.lossless.complete] at hkept
  all_handled := by
    intro hhandling hflight
    have hall := h.upward.lossless.drained h.upward.safe
      (List.filter_eq_nil_iff.mpr (by simpa using hflight))
    simpa [up, hhandling] using hall
  received := h.downward.lossless.isPrefix h.downward.safe
  all_received := by
    intro hflight
    exact h.downward.lossless.drained h.downward.safe
      (List.filter_eq_nil_iff.mpr (by simpa using hflight))

section Channel

variable {l : List Frame} {i : Nat} {f : Frame}

theorem mem_or_eraseIdx (hf : l[i]? = some f) {x : Frame} (hx : x ∈ l) :
    x = f ∨ x ∈ l.eraseIdx i := by
  obtain ⟨j, hj⟩ := List.getElem?_of_mem hx
  rcases eq_or_ne j i with rfl | hne
  · left
    rw [hf] at hj
    exact (Option.some.inj hj).symm
  · exact Or.inr (List.mem_eraseIdx_iff_getElem?.mpr ⟨j, hne, hj⟩)

theorem filter_eraseIdx_subset (l : List Frame) (i : Nat) :
    ∀ x ∈ (l.eraseIdx i).filter isCtrlData, x ∈ l.filter isCtrlData :=
  ((List.eraseIdx_sublist l i).filter _).subset

theorem filter_subset_eraseIdx (hf : l[i]? = some f) :
    ∀ x ∈ l.filter isCtrlData, x = f ∨ x ∈ (l.eraseIdx i).filter isCtrlData := by
  intro x hx
  obtain ⟨hx, hdata⟩ := List.mem_filter.mp hx
  exact (mem_or_eraseIdx hf hx).imp_right fun h => List.mem_filter.mpr ⟨h, hdata⟩

/-- A frame that is not control data leaves the control data in flight as it is. -/
theorem filter_subset_eraseIdx_of_not (hf : l[i]? = some f) (hdata : isCtrlData f = false) :
    ∀ x ∈ l.filter isCtrlData, x ∈ (l.eraseIdx i).filter isCtrlData := by
  intro x hx
  refine (filter_subset_eraseIdx hf x hx).resolve_left ?_
  rintro rfl
  simp [hdata] at hx

theorem filter_send {σ : Type} {S : SenderModel σ} (hS : S.Lawful) (s : σ) (now : Nat) (id : U32)
    (p : Bytes) (hv : S.Valid p) :
    (S.send s now id p).2.filter isCtrlData = (S.send s now id p).2 := by
  rw [hS.send_eq _ _ _ _ hv]
  rcases hm : S.muted s with _ | _
  · obtain ⟨⟨msgId, hframes⟩, -⟩ := hS.sendSplit_open s now id (S.split p) hm
    rw [hframes, List.filter_eq_self]
    intro f hf
    obtain ⟨j, hj⟩ := List.getElem?_of_mem hf
    rw [getElem?_fragments] at hj
    obtain ⟨chunk, -, rfl⟩ := Option.map_eq_some_iff.mp hj
    rfl
  · rw [hS.sendSplit_muted s now id _ hm]
    rfl

theorem isCtrlData_of_mem {H : History} (hH : Numbered H) (hf : f ∈ frames H) :
    isCtrlData f = true := by
  obtain ⟨seq, msgId, parts, j, chunk, -, -, rfl⟩ := hH.mem_frames hf
  rfl

theorem ne_bye_of_data (hf : isCtrlData f = true) : f.type ≠ .bye := by
  intro hbye
  simp [isCtrlData, hbye] at hf

theorem ackOf_of_data (hf : isCtrlData f = true) : ackOf f = none := by
  simp only [isCtrlData, Bool.and_eq_true, beq_iff_eq] at hf
  simp [ackOf, hf.1]

theorem filterMap_ackOf (hl : ∀ f ∈ l, isCtrlData f = true) : l.filterMap ackOf = [] :=
  List.filterMap_eq_nil_iff.mpr fun f hf => ackOf_of_data (hl f hf)

end Channel

/-- Steps that neither direction notices. -/
theorem Holding.of_views (h : Holding src s c) {s' : System}
    (hserver : s'.server.clients = s.server.clients) (hup : up s' c = up s c)
    (hhandled : s'.handled = s.handled) (hdown : down s' c = down s c)
    (hbye : ∀ f ∈ s'.toPhone, f.type ≠ .bye) : Holding src s' c where
  client := hserver ▸ h.client
  live := h.live
  sending := h.sending
  no_bye := hbye
  upward := hup ▸ h.upward
  kept := by rw [hup, hhandled]; exact h.kept
  downward := hdown ▸ h.downward

theorem Holding.no_bye_append (h : Holding src s c) {out : List Frame}
    (hout : ∀ f ∈ out, f.type ≠ .bye) : ∀ f ∈ s.toPhone ++ out, f.type ≠ .bye :=
  List.forall_mem_append.mpr ⟨h.no_bye, hout⟩

/-- A frame without control data is put in flight to the phone. -/
theorem Holding.announce (h : Holding src s c) {f : Frame} (hdata : isCtrlData f = false)
    (hbye : f.type ≠ .bye) (pc : UdpSession) (htx : pc.ctrlTx = s.pc.ctrlTx)
    (hrx : pc.ctrlRx = s.pc.ctrlRx) :
    Holding src { s with pc := pc, toPhone := s.toPhone ++ [f] } c := by
  refine h.of_views rfl ?_ rfl ?_ (h.no_bye_append ?_)
  · simp [up, htx, List.filter_append, hdata]
  · simp [down, hrx]
  · simpa using hbye

theorem Holding.send (h : Holding src s c) (now : Nat) {msg : Bytes} (hne : msg ≠ [])
    (few : (frames s.sent).length + pieceCount rustSender msg < 2 ^ 31) :
    Holding src (step src s (.send now msg)) c := by
  simp only [step]
  split
  · have hsent : (up s c).sent = s.sent := h.upward.lossless.complete
    rw [UdpSession.sendCtrl_ok fun _ => rfl]
    generalize hx : s.pc.ctrlTx.sendCtrlBytes now s.pc.msgId msg = x
    have hfilter : x.2.filter isCtrlData = x.2 :=
      hx ▸ filter_send rustSender_lawful s.pc.ctrlTx now s.pc.msgId msg trivial
    have hsteady : Steady rustSender javaReceiver ((up s c).emit msg x) :=
      hx ▸ h.upward.emit rustSender_lawful rfl now s.pc.msgId msg trivial
        (rustSender_lawful.split_ne_nil msg trivial hne) (by rwa [Net.fragmentCount, hsent])
    have hkept : Kept rustSender ((up s c).emit msg x) s.handled.length := by
      have hemit := h.kept.emit rustSender_lawful h.upward.safe now s.pc.msgId
        (rustSender.split msg) msg
      rw [← rustSender_lawful.send_eq _ _ _ _ trivial] at hemit
      exact hx ▸ hemit
    have hup : up { s with
        pc := { s.pc with msgId := s.pc.msgId + 1, ctrlTx := x.1 }
        toPhone := s.toPhone ++ x.2, sent := s.sent ++ [(msg, x.2)] } c = (up s c).emit msg x := by
      simp [up, Net.emit, List.filter_append, hfilter]
    refine ⟨h.client, h.live, h.sending, h.no_bye_append fun f hf => ?_, hup ▸ hsteady,
      hup ▸ hkept, h.downward⟩
    exact ne_bye_of_data (List.filter_eq_self.mp hfilter f hf)
  · exact h

theorem Holding.flushAck (h : Holding src s c) : Holding src (step src s .flushAck) c := by
  simp only [step, UdpSession.flushAck]
  split
  · rw [List.append_nil]
    exact h
  · have hdata : ∀ a : Option U32, (a.toList.map Frame.ctrlAck).filter isCtrlData = [] := by
      intro a
      cases a <;> rfl
    have hup : up { s with
        pc := { s.pc with ctrlRx := s.pc.ctrlRx.takeAck.1 }
        toPhone := s.toPhone ++ s.pc.ctrlRx.takeAck.2.toList.map Frame.ctrlAck } c = up s c := by
      simp [up, List.filter_append, hdata]
    refine ⟨h.client, h.live, h.sending, h.no_bye_append fun f hf => ?_, hup ▸ h.upward,
      hup ▸ h.kept, h.downward.emitAck rustReceiver_lawful⟩
    obtain ⟨a, -, rfl⟩ := List.mem_map.mp hf
    simp [Frame.ctrlAck]

theorem Holding.retransmit (h : Holding src s c) (now : Nat) :
    Holding src (step src s (.retransmit now)) c := by
  simp only [step, UdpSession.retransmit]
  split
  · rw [List.append_nil]
    exact h
  · have hdata : ∀ f ∈ (s.pc.ctrlTx.dueTimeouts now).2, isCtrlData f = true := fun f hf =>
      isCtrlData_of_mem h.upward.safe.numbered
        (h.upward.timeouts_mem rustSender_lawful javaReceiver_lawful hf)
    have views : ∀ pc : UdpSession, pc.ctrlTx = (s.pc.ctrlTx.dueTimeouts now).1 →
        pc.ctrlRx = s.pc.ctrlRx → Holding src { s with
          pc := pc, toPhone := s.toPhone ++ (s.pc.ctrlTx.dueTimeouts now).2 } c := by
      intro pc htx hrx
      have hup : up { s with
          pc := pc, toPhone := s.toPhone ++ (s.pc.ctrlTx.dueTimeouts now).2 } c =
          { up s c with
            sender := (s.pc.ctrlTx.dueTimeouts now).1
            wire := s.toPhone.filter isCtrlData ++ (s.pc.ctrlTx.dueTimeouts now).2 } := by
        simp [up, htx, List.filter_append, List.filter_eq_self.mpr hdata]
      have hdown : down { s with
          pc := pc, toPhone := s.toPhone ++ (s.pc.ctrlTx.dueTimeouts now).2 } c = down s c := by
        simp [down, hrx]
      refine ⟨h.client, h.live, h.sending,
        h.no_bye_append fun f hf => ne_bye_of_data (hdata f hf), ?_, ?_, hdown ▸ h.downward⟩
      · exact hup ▸ h.upward.timeouts rustSender_lawful javaReceiver_lawful now _
          (fun f hf => List.mem_append_left _ hf) fun f hf => List.mem_append.mp hf
      · exact hup ▸ (h.kept.timeouts rustSender_lawful now).rewire _ fun a ha => Or.inl ha
    split <;> exact views _ rfl rfl

/-- The held client makes a call that sends control data only. -/
theorem Holding.call (h : Holding src s c) {c' : ClientConnection} {out : List Frame}
    {log : History} (hlive : c'.closed = false) (hsending : c'.ctrlSender.closed = false)
    (hreceiver : c'.ctrlReceiver = c.ctrlReceiver) (hdata : ∀ f ∈ out, isCtrlData f = true)
    (hdown : Steady javaSender rustReceiver { down s c with
      sender := c'.ctrlSender, log := log, wire := (down s c).wire ++ out }) :
    Holding src { s with
      server := { s.server with clients := s.server.clients.insert src c' }
      toPc := s.toPc ++ out
      phoneSent := log } c' := by
  have hup : up { s with
      server := { s.server with clients := s.server.clients.insert src c' }
      toPc := s.toPc ++ out, phoneSent := log } c' = up s c := by
    simp [up, hreceiver, List.filterMap_append, filterMap_ackOf hdata]
  refine ⟨by simp, hlive, hsending, h.no_bye, hup ▸ h.upward, hup ▸ h.kept, ?_⟩
  simpa only [down, List.filter_append, List.filter_eq_self.mpr hdata] using hdown

theorem Holding.phoneSend (h : Holding src s c) (now : Nat) {msg : Bytes}
    (hfit : msg.length + maxFragment ≤ 2 ^ 31)
    (few : (frames s.phoneSent).length + pieceCount javaSender msg < 2 ^ 31)
    (talking : c.ctrlSender.stalled = false) :
    ∃ c', Holding src (step src s (.phoneSend now msg)) c' := by
  have hsent : (down s c).sent = s.phoneSent := h.downward.lossless.complete
  have hvalid : javaSender.Valid msg := javaSender_lawful.fits_valid msg hfit
  simp only [step, h.client, UdpServer.withClient_held h.client, ClientConnection.sendCtrlMsg]
  generalize hx : c.ctrlSender.sendCtrlBytes now msg = x
  have hfilter : x.2.filter isCtrlData = x.2 :=
    hx ▸ filter_send javaSender_lawful c.ctrlSender now 0 msg hvalid
  have hsteady : Steady javaSender rustReceiver ((down s c).emit msg x) :=
    hx ▸ h.downward.emit javaSender_lawful (by simp [down, javaSender, h.sending, talking]) now 0 msg
      hvalid (ReliableControl.Sender.slices_ne_nil hfit) (by rwa [Net.fragmentCount, hsent])
  have hclosed : x.1.closed = false := by
    rw [← hx, ReliableControl.Sender.sendCtrlBytes_closed, h.sending]
  exact ⟨_, h.call h.live hclosed rfl (List.filter_eq_self.mp hfilter) hsteady⟩

theorem Holding.phoneRetransmit (h : Holding src s c) (now : Nat) :
    ∃ c', Holding src (step src s (.phoneRetransmit now)) c' := by
  simp only [step, UdpServer.withClient_held h.client, ClientConnection.retransmit, h.sending]
  have hdata : ∀ f ∈ (c.ctrlSender.retransmit now).2, isCtrlData f = true := fun f hf =>
    isCtrlData_of_mem h.downward.safe.numbered
      (h.downward.timeouts_mem javaSender_lawful rustReceiver_lawful hf)
  have hclosed : (c.ctrlSender.retransmit now).1.closed = false := by
    rw [ReliableControl.Sender.retransmit_closed, h.sending]
  exact ⟨_, h.call h.live hclosed rfl hdata
    (h.downward.timeouts javaSender_lawful rustReceiver_lawful now _
      (fun f hf => List.mem_append_left _ hf) fun f hf => List.mem_append.mp hf)⟩

theorem Holding.handle (h : Holding src s c) : Holding src (step src s .handle) c := by
  simp only [step]
  rcases hhandling : s.handling with _ | ⟨msg, rest⟩
  · exact h
  · have hup : up { s with handling := rest, handled := s.handled ++ [msg] } c = up s c := by
      simp [up, hhandling]
    refine ⟨h.client, h.live, h.sending, h.no_bye, hup ▸ h.upward, ?_, h.downward⟩
    rw [hup]
    refine h.kept.advance (by simp) ?_
    simp [up, hhandling]

/-- A frame without control data reaches the phone. -/
theorem Holding.hear (h : Holding src s c) {i : Nat} {f : Frame} (hf : s.toPhone[i]? = some f)
    (hquiet : isCtrlData f = false) {c' : ClientConnection} {out : List Frame}
    (hlive : c'.closed = false) (hsending : c'.ctrlSender.closed = false)
    (hreceiver : c'.ctrlReceiver = c.ctrlReceiver)
    (hout : ∀ g ∈ out, isCtrlData g = false ∧ ackOf g = none)
    (hdown : Steady javaSender rustReceiver { down s c with sender := c'.ctrlSender })
    (hhandling : s.handling = []) :
    Holding src { s with
      server := { s.server with clients := s.server.clients.insert src c' }
      handling := []
      toPhone := s.toPhone.eraseIdx i
      toPc := s.toPc ++ out } c' := by
  have hup : up { s with
      server := { s.server with clients := s.server.clients.insert src c' }
      handling := [], toPhone := s.toPhone.eraseIdx i, toPc := s.toPc ++ out } c' =
      { up s c with wire := (s.toPhone.eraseIdx i).filter isCtrlData } := by
    simp [up, hreceiver, hhandling, List.filterMap_append,
      List.filterMap_eq_nil_iff.mpr fun g hg => (hout g hg).2]
  refine ⟨by simp, hlive, hsending, fun g hg => h.no_bye g (List.mem_of_mem_eraseIdx hg), ?_, ?_, ?_⟩
  · exact hup ▸ h.upward.rewire _ (filter_eraseIdx_subset _ i)
      (filter_subset_eraseIdx_of_not hf hquiet)
  · exact hup ▸ h.kept.rewire _ fun a ha => Or.inl ha
  · have hnone : out.filter isCtrlData = [] :=
      List.filter_eq_nil_iff.mpr fun g hg => by simp [(hout g hg).1]
    simpa only [down, List.filter_append, hnone, List.append_nil] using hdown

/-- What the phone has not returned is in the PC's window. -/
theorem Holding.far_up (h : Holding src s c) :
    (up s c).fragmentCount ≤ (up s c).deliveryPoint + s.pc.ctrlTx.pending := by
  have hlen := h.kept.window.length_le
  have hoffset : offset (rows (up s c).sent) s.handled.length ≤ (up s c).deliveryPoint :=
    offset_mono _ h.kept.count
  simp only [List.length_map, List.length_drop, SenderModel.keys, up, rustSender] at hlen
  simp only [Net.fragmentCount, ReliableSender.pending, up] at hoffset ⊢
  omega

/-- Control data reaches the phone. -/
theorem Holding.data (h : Holding src s c) (now : Nat) {i : Nat} {f : Frame}
    (hf : s.toPhone[i]? = some f) (hdata : isCtrlData f = true) (hhandling : s.handling = [])
    (hpending : s.pc.ctrlTx.pending ≤ 2 ^ 30)
    (room : c.ctrlReceiver.intake.Room ReliableControl.inWindow f) :
    ∃ c', Holding src (step src s (.toPhone now i)) c' := by
  obtain ⟨htype, hstream⟩ := (isCtrlData_iff f).mp hdata
  have hfar := h.far_up
  have hmem : f ∈ (up s c).wire := List.mem_filter.mpr ⟨List.mem_of_getElem? hf, hdata⟩
  have hframe := ClientConnection.onFrame_data h.live now htype hstream
  obtain ⟨x, hx⟩ : ∃ x, c.ctrlReceiver.onFrame f = x := ⟨_, rfl⟩
  have hsteady : Steady rustSender javaReceiver { up s c with
      receiver := x.1, delivered := (up s c).delivered ++ x.2
      wire := (s.toPhone.eraseIdx i).filter isCtrlData } := by
    rw [← hx]
    exact h.upward.receive rustSender_lawful javaReceiver_lawful indexBelow_java positive_java
      reaches_java hmem (filter_eraseIdx_subset s.toPhone i) (filter_subset_eraseIdx hf) (by omega)
      room
  -- the ACK of the frame covers what is delivered now
  have hack := hsteady.safe.emitAck_value javaReceiver_lawful (a := x.1.ackSeq) rfl
  have hkept : Kept rustSender (up s c) (up s c).delivered.length := by
    simpa [up, hhandling] using h.kept
  have hcount : (up s c).delivered.length = s.handled.length := by simp [up, hhandling]
  rw [hx] at hframe
  have hlive : (c.onFrame now f).1.closed = false := by
    rw [hframe hsteady.lossless.alive]
    exact h.live
  simp only [step, hhandling, hf, UdpServer.receive_held h.client hlive,
    hframe hsteady.lossless.alive]
  have hup : up { s with
      server := { s.server with
        clients := s.server.clients.insert src { c.touch now with ctrlReceiver := x.1 } }
      handling := x.2, toPhone := s.toPhone.eraseIdx i
      toPc := s.toPc ++ [Frame.ctrlAck x.1.ackSeq] } { c.touch now with ctrlReceiver := x.1 } =
      { up s c with
        receiver := x.1, delivered := (up s c).delivered ++ x.2
        wire := (s.toPhone.eraseIdx i).filter isCtrlData
        acks := (up s c).acks ++ [x.1.ackSeq] } := by
    simp [up, hhandling, List.filterMap_append, ackOf, Frame.ctrlAck]
  refine ⟨{ c.touch now with ctrlReceiver := x.1 }, by simp, h.live, h.sending,
    fun g hg => h.no_bye g (List.mem_of_mem_eraseIdx hg), ?_, ?_, ?_⟩
  · exact hup ▸ hsteady.rewire _ (fun _ hg => hg) fun _ hg => hg
  · rw [hup, ← hcount]
    refine (hkept.receive x.1 x.2).rewire _ fun a ha => ?_
    rcases List.mem_append.mp ha with ha | ha
    · exact Or.inl ha
    · right
      rw [List.mem_singleton.mp ha, hack]
      rfl
  · simpa [down, List.filter_append, isCtrlData, Frame.ctrlAck, ClientConnection.touch]
      using h.downward

theorem Holding.toPhone (h : Holding src s c) (now i : Nat)
    (hsound : Sound src s (.toPhone now i)) :
    ∃ c', Holding src (step src s (.toPhone now i)) c' := by
  rcases hhandling : s.handling with _ | ⟨msg, rest⟩
  · rcases hf : s.toPhone[i]? with _ | f
    · simp only [step, hhandling, hf]
      exact ⟨c, h⟩
    · rcases hdata : isCtrlData f with _ | _
      · have hother : ¬(f.type = .data ∧ f.stream = .ctrl) := by simp [← isCtrlData_iff, hdata]
        obtain ⟨c', out, hframe, hlive, hreceiver, hsender, hout⟩ :=
          ClientConnection.onFrame_other h.live now (h.no_bye f (List.mem_of_getElem? hf)) hother
        have hopen : (c.onFrame now f).1.closed = false := by
          rw [hframe]
          exact hlive
        simp only [step, hhandling, hf, UdpServer.receive_held h.client hopen, hframe]
        have hquiet : ∀ g ∈ out, isCtrlData g = false ∧ ackOf g = none := by
          intro g hg
          simp [isCtrlData, ackOf, hout g hg]
        refine ⟨c', h.hear hf hdata hlive ?_ hreceiver hquiet ?_ hhandling⟩
        · rcases hsender with he | he <;> rw [he] <;> exact h.sending
        · rcases hsender with he | he <;> rw [he]
          · exact h.downward
          · exact h.downward.onAck javaSender_lawful _
      · obtain ⟨hpending, hroom⟩ := hsound f hf hdata
        exact h.data now hf hdata hhandling hpending (hroom c h.client)
  · simp only [step, hhandling]
    exact ⟨c, h⟩

theorem filterMap_eraseIdx_subset (l : List Frame) (i : Nat) :
    ∀ a ∈ (l.eraseIdx i).filterMap ackOf, a ∈ l.filterMap ackOf :=
  ((List.eraseIdx_sublist l i).filterMap _).subset

/-- Control data reaches the PC. -/
theorem Holding.dataToPc (h : Holding src s c) {i : Nat} {f : Frame} (hf : s.toPc[i]? = some f)
    (hdata : isCtrlData f = true) (hopen : s.pc.closed = false)
    (room : s.pc.ctrlRx.intake.Room ReliableReceiver.admits f) :
    Holding src (step src s (.toPc i)) c := by
  obtain ⟨htype, hstream⟩ := (isCtrlData_iff f).mp hdata
  have hmem : f ∈ (down s c).wire := List.mem_filter.mpr ⟨List.mem_of_getElem? hf, hdata⟩
  have hfar : (down s c).fragmentCount ≤ (down s c).deliveryPoint +
      (2 ^ 32 - (s.pc.ctrlRx.intake.nextSeq).toNat) := by
    have few := h.downward.lossless.few
    have hpoint := deliveryPoint_le (down s c)
    have hnext : s.pc.ctrlRx.intake.nextSeq = BitVec.ofNat 32 (1 + (down s c).deliveryPoint) :=
      h.downward.safe.inStep.nextSeq
    rw [hnext, BitVec.toNat_ofNat]
    omega
  have hsteady := h.downward.receive javaSender_lawful rustReceiver_lawful indexBelow_rust
    positive_rust reaches_rust hmem (filter_eraseIdx_subset s.toPc i) (filter_subset_eraseIdx hf)
    hfar room
  have hread := UdpSession.read_data hopen htype hstream h.downward.lossless.alive
  have hreturned : (((s.pc.ctrlRx.onFrame f).2.map Event.control).filterMap Event.control?) =
      (s.pc.ctrlRx.onFrame f).2 := by
    simp [List.filterMap_map, Function.comp_def, Event.control?]
  simp only [step, hf, hread, hreturned]
  exact ⟨h.client, h.live, h.sending, h.no_bye,
    h.upward.rewire _ (fun _ hg => hg) fun _ hg => hg,
    h.kept.rewire _ fun a ha => Or.inl (filterMap_eraseIdx_subset s.toPc i a ha), hsteady⟩

/-- An ACK that reaches the PC releases nothing the phone has not handled. -/
theorem Holding.ackToPc (h : Holding src s c) {a : U32} (ha : a ∈ (up s c).acks)
    (hcover : s.handling = [] ∨ a ≠ c.ctrlReceiver.ackSeq) :
    Kept rustSender { up s c with sender := s.pc.ctrlTx.onAck a } s.handled.length := by
  obtain ⟨m, rfl, hm⟩ := h.kept.acks a ha
  have hcurrent : c.ctrlReceiver.ackSeq = BitVec.ofNat 32 (up s c).deliveryPoint :=
    h.upward.safe.emitAck_value javaReceiver_lawful rfl
  refine h.kept.onAck rustSender_lawful h.upward.safe h.upward.lossless.few ?_
  rcases hm with hm | rfl
  · exact hm
  · rcases hcover with hhandling | hne
    · simp [Net.deliveryPoint, up, hhandling]
    · exact absurd hcurrent.symm hne

theorem Holding.toPc (h : Holding src s c) (i : Nat) (hsound : Sound src s (.toPc i)) :
    Holding src (step src s (.toPc i)) c := by
  rcases hf : s.toPc[i]? with _ | f
  · simp only [step, hf]
    exact h
  · obtain ⟨hroom, hcover⟩ := hsound f hf
    rcases hdata : isCtrlData f with _ | _
    · have hother : ¬(f.type = .data ∧ f.stream = .ctrl) := by simp [← isCtrlData_iff, hdata]
      obtain ⟨pc, events, hread, hevents, hrx, htx⟩ := s.pc.read_other hother
      simp only [step, hf, hread, hevents, List.append_nil]
      have hacks := filterMap_eraseIdx_subset s.toPc i
      have hdown : Steady javaSender rustReceiver (down { s with
          pc := pc, toPc := s.toPc.eraseIdx i } c) := by
        simp only [down, hrx]
        exact h.downward.rewire _ (filter_eraseIdx_subset _ i)
          (filter_subset_eraseIdx_of_not hf hdata)
      rcases htx with htx | ⟨a, hack, hpayload, htx⟩
      · refine ⟨h.client, h.live, h.sending, h.no_bye, ?_, ?_, hdown⟩
        · simp only [up, htx]
          exact h.upward.rewire _ (fun _ hg => hg) fun _ hg => hg
        · simp only [up, htx]
          exact h.kept.rewire _ fun a ha => Or.inl (hacks a ha)
      · have hmem : a ∈ (up s c).acks :=
          List.mem_filterMap.mpr ⟨f, List.mem_of_getElem? hf, by simp [ackOf, hack, hpayload]⟩
        have hkept := h.ackToPc hmem ((hcover hack).imp_right fun hne he =>
          hne c h.client (by rw [hpayload, he]))
        refine ⟨h.client, h.live, h.sending, h.no_bye, ?_, ?_, hdown⟩
        · simp only [up, htx]
          exact (h.upward.onAck rustSender_lawful a).rewire _ (fun _ hg => hg) fun _ hg => hg
        · simp only [up, htx]
          exact hkept.rewire _ fun a ha => Or.inl (hacks a ha)
    · obtain ⟨hopen, room⟩ := hroom hdata
      exact h.dataToPc hf hdata hopen room

theorem Holding.step (h : Holding src s c) (a : Action) (hsound : Sound src s a) :
    ∃ c', Holding src (Restart.step src s a) c' := by
  cases a with
  | hello audio =>
      simp only [Restart.step]
      split
      · exact ⟨c, h⟩
      · exact ⟨c, h.announce rfl (by simp [UdpSession.hello, UdpSession.plain]) s.pc rfl rfl⟩
  | send now msg => exact ⟨c, h.send now hsound.1 hsound.2⟩
  | flushAck => exact ⟨c, h.flushAck⟩
  | retransmit now => exact ⟨c, h.retransmit now⟩
  | heartbeat now =>
      simp only [Restart.step, UdpSession.heartbeat]
      split
      · rw [List.append_nil]
        exact ⟨c, h⟩
      · split
        · exact ⟨c, h.announce rfl (by simp [UdpSession.plain]) _ rfl rfl⟩
        · rw [List.append_nil]
          exact ⟨c, h⟩
  | toPhone now i => exact h.toPhone now i hsound
  | handle => exact ⟨c, h.handle⟩
  | phoneSend now msg => exact h.phoneSend now hsound.1 hsound.2.1 (hsound.2.2 c h.client)
  | phoneRetransmit now => exact h.phoneRetransmit now
  | toPc i => exact ⟨c, h.toPc i hsound⟩

theorem Quiet.holding (h : Quiet src s) (now : Nat) (scid : String) :
    ∃ c, Holding src (reopen now scid s) c := by
  obtain ⟨c, hclient, huntouched⟩ := h.held
  have hphone : s.toPhone.filter isCtrlData = [] := by
    refine List.filter_eq_nil_iff.mpr fun f hf => ?_
    rcases h.toPhone f hf with htype | htype <;> simp [isCtrlData, htype]
  have hpc : s.toPc.filter isCtrlData = [] :=
    List.filter_eq_nil_iff.mpr fun f hf => by simp [isCtrlData, h.toPc f hf]
  have hacks : s.toPc.filterMap ackOf = [] :=
    List.filterMap_eq_nil_iff.mpr fun f hf => by simp [ackOf, h.toPc f hf]
  refine ⟨c, hclient, huntouched.live, huntouched.sending, fun f hf => ?_, ?_, ?_, ?_⟩
  · rcases h.toPhone f hf with htype | htype <;> simp [htype]
  · exact Steady.start rfl rfl huntouched.receiver rfl hphone (by simp [up, reopen, h.handling])
  · refine ⟨Nat.zero_le _, ?_, by simp [up, reopen, hacks]⟩
    simp [Net.sent, up, reopen, frames, rows]
  · exact Steady.start huntouched.nextSeq huntouched.window Intake.idle_new rfl hpc rfl

end Kulua.Restart
