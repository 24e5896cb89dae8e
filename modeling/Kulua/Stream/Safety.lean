import Kulua.Stream.Net

/-! What the control stream guarantees over an arbitrary network: the delivered
messages are a prefix of the sent ones, and what is not delivered yet is still in
the retransmission window. -/

namespace Kulua.Stream
open Foundation Foundation.Segment Net

variable {σ ρ : Type} {S : SenderModel σ} {R : ReceiverModel ρ}

/-- Every message was cut into fragments, or the sender has fallen silent for good. -/
def Ordered (S : SenderModel σ) (n : Net σ ρ) : Prop :=
  n.sent = n.log ∨ (S.muted n.sender = true ∧ n.sent <+: n.log)

theorem Ordered.sent_isPrefix {n : Net σ ρ} (h : Ordered S n) : n.sent <+: n.log := by
  rcases h with h | h
  · rw [h]
  · exact h.2

private theorem Ordered.emit (hS : S.Lawful) {n : Net σ ρ} (h : Ordered S n) (now : Nat)
    (msgId : U32) {parts : List Bytes} (hne : parts ≠ []) (payload : Bytes) :
    Ordered S (n.emit payload (S.sendSplit n.sender now msgId parts)) := by
  rcases hm : S.muted n.sender with _ | _
  · obtain ⟨⟨id, hframes⟩, -, -⟩ := hS.sendSplit_open n.sender now msgId parts hm
    have hout : (S.sendSplit n.sender now msgId parts).2 ≠ [] := by
      rw [hframes]
      intro he
      exact hne (by simpa using congrArg List.length he)
    have hlog : n.sent = n.log := h.resolve_right (by simp [hm])
    left
    rw [sent_emit, if_neg hout, hlog]
    rfl
  · right
    rw [hS.sendSplit_muted n.sender now msgId parts hm]
    refine ⟨hm, ?_⟩
    rw [sent_emit, if_pos rfl, List.append_nil]
    exact h.sent_isPrefix.trans (List.prefix_append n.log _)

theorem Ordered.step (hS : S.Lawful) {n : Net σ ρ} {a : Action} (h : Ordered S n)
    (hfit : a.Sends fun p => p ≠ [] ∧ S.Fits p) : Ordered S (Net.step S R n a) := by
  have keep : ∀ s', (S.muted n.sender = true → S.muted s' = true) →
      n.sent = n.log ∨ (S.muted s' = true ∧ n.sent <+: n.log) :=
    fun s' hs => h.imp_right fun hm => ⟨hs hm.1, hm.2⟩
  cases a with
  | send now msgId payload =>
      simp only [Net.step, hS.send_eq _ now msgId payload (hS.fits_valid _ hfit.2)]
      exact h.emit hS now msgId (hS.split_ne_nil payload hfit.2 hfit.1) payload
  | sendSplit now msgId parts =>
      refine h.emit hS now msgId ?_ _
      rintro rfl
      exact hfit.1 rfl
  | timeouts now => exact keep _ (hS.timeouts_muted n.sender now)
  | deliver i =>
      simp only [Net.step]
      split <;> exact h
  | emitAck => exact h
  | ack i =>
      simp only [Net.step]
      split
      · exact h
      · exact keep _ fun hm => (hS.onAck_muted n.sender _).trans hm
  | foreignAck a => exact keep _ fun hm => (hS.onAck_muted n.sender a).trans hm

theorem ordered_exec (hS : S.Lawful) {actions : List Action}
    (fits : ∀ a ∈ actions, a.Sends fun p => p ≠ [] ∧ S.Fits p) :
    Ordered S (exec S R actions) :=
  Run.invariant (fun _ _ h hc => Ordered.step hS h hc) (Or.inl rfl) (Run.along_of_forall _ fits)

theorem delivered_isPrefix (hS : S.Lawful) (hR : R.Lawful) {actions : List Action}
    (fits : ∀ a ∈ actions, a.Sends fun p => p ≠ [] ∧ S.Fits p)
    (few : (exec S R actions).fragmentCount < 2 ^ 31) :
    (exec S R actions).delivered <+: payloads (exec S R actions).log := by
  have hsafe := safe_exec hS hR
    (fun a ha => (fits a ha).imp fun p hp => hS.fits_valid p hp.2) few
  rw [hsafe.delivered]
  exact (List.take_prefix _ _).trans ((ordered_exec hS fits).sent_isPrefix.map _)

private theorem exec_oversized {p : Bytes} (hlo : 2 ^ 31 < p.length + maxFragment)
    (hhi : p.length < 2 ^ 31) (rest : List Action) :
    exec javaSender rustReceiver (.send 0 0 p :: rest) =
      Run.run (Net.step javaSender rustReceiver)
        ⟨{ ReliableControl.Sender.new with nextMsgId := 2 }, ReliableReceiver.new, [(p, [])],
          [], [], []⟩ rest := by
  have hsend : javaSender.send javaSender.new 0 0 p =
      ({ ReliableControl.Sender.new with nextMsgId := 2 }, []) := by
    simp only [javaSender, ReliableControl.Sender.sendCtrlBytes,
      ReliableControl.Sender.slices_overflow hlo hhi]
    rfl
  simp only [exec, Run.run_cons, Net.step, init, Net.emit, hsend]
  rfl

/-- Only fragments of the first `h` messages have left the window, and an ACK in flight
covers these or what is delivered now. -/
structure Kept (S : SenderModel σ) (n : Net σ ρ) (h : Nat) : Prop where
  count : h ≤ n.delivered.length
  window : ((frames n.sent).drop (offset (rows n.sent) h)).map frameKey <:+ S.keys n.sender
  acks : ∀ a ∈ n.acks, ∃ m, a = BitVec.ofNat 32 m ∧
    (m ≤ offset (rows n.sent) h ∨ m = n.deliveryPoint)

theorem deliveryPoint_le (n : Net σ ρ) : n.deliveryPoint ≤ n.fragmentCount :=
  offset_le (rows n.sent) n.delivered.length

theorem Safe.offset_emit {n : Net σ ρ} (hs : Safe S R n) {h : Nat}
    (hcount : h ≤ n.delivered.length) (payload : Bytes) (r : σ × List Frame) :
    offset (rows (n.emit payload r).sent) h = offset (rows n.sent) h := by
  rw [sent_emit, rows_append, offset_append]
  rw [length_rows]
  exact hcount.trans hs.inStep.count

theorem Kept.emit (hS : S.Lawful) {n : Net σ ρ} {h : Nat} (hk : Kept S n h) (hs : Safe S R n)
    (now : Nat) (msgId : U32) (parts : List Bytes) (payload : Bytes) :
    Kept S (n.emit payload (S.sendSplit n.sender now msgId parts)) h := by
  have hoffset := hs.offset_emit hk.count payload (S.sendSplit n.sender now msgId parts)
  have hpoint : (n.emit payload (S.sendSplit n.sender now msgId parts)).deliveryPoint =
      n.deliveryPoint := hs.offset_emit le_rfl payload _
  have hframes : frames (n.emit payload (S.sendSplit n.sender now msgId parts)).sent =
      frames n.sent ++ (S.sendSplit n.sender now msgId parts).2 := by
    rw [sent_emit, frames_append]
    split <;> simp_all [frames, rows]
  have hkeys : S.keys (S.sendSplit n.sender now msgId parts).1 =
      S.keys n.sender ++ (S.sendSplit n.sender now msgId parts).2.map frameKey := by
    rcases hm : S.muted n.sender with _ | _
    · exact (hS.sendSplit_open n.sender now msgId parts hm).2.2
    · simp [hS.sendSplit_muted n.sender now msgId parts hm]
  refine ⟨hk.count, ?_, by rw [hoffset, hpoint]; exact hk.acks⟩
  have hle : offset (rows n.sent) h ≤ (frames n.sent).length := offset_le (rows n.sent) h
  obtain ⟨pre, hpre⟩ := hk.window
  rw [hoffset, hframes, List.drop_append_of_le_length hle, List.map_append]
  exact ⟨pre, by rw [← List.append_assoc, hpre]; exact hkeys.symm⟩

/-- An ACK that covers no more than the first `h` messages releases no more. -/
theorem Kept.onAck (hS : S.Lawful) {n : Net σ ρ} {h : Nat} (hk : Kept S n h) (hs : Safe S R n)
    (few : n.fragmentCount < 2 ^ 31) {m : Nat} (hm : m ≤ offset (rows n.sent) h) :
    Kept S { n with sender := S.onAck n.sender (BitVec.ofNat 32 m) } h := by
  refine ⟨hk.count, ?_, hk.acks⟩
  rw [hS.onAck_keys]
  refine suffix_dropWhile hk.window fun x hx => ?_
  obtain ⟨f, hf, rfl⟩ := List.mem_map.mp hx
  obtain ⟨i, hi⟩ := List.getElem?_of_mem hf
  have hget : (frames n.sent)[offset (rows n.sent) h + i]? = some f := by
    rw [← List.getElem?_drop]
    exact hi
  have hpos : offset (rows n.sent) h + i < n.fragmentCount :=
    (List.getElem?_eq_some_iff.mp hget).1
  rw [frameKey, hs.numbered.seq _ f hget, Serial.le_ofNat (by omega) (by omega)]
  simp only [decide_eq_false_iff_not]
  omega

/-- Frames come and go on the wire, and so do ACKs of what is delivered now. -/
theorem Kept.rewire {n : Net σ ρ} {h : Nat} (hk : Kept S n h) (wire : List Frame) {acks : List U32}
    (hacks : ∀ a ∈ acks, a ∈ n.acks ∨ a = BitVec.ofNat 32 n.deliveryPoint) :
    Kept S { n with wire := wire, acks := acks } h where
  count := hk.count
  window := hk.window
  acks a ha := (hacks a ha).elim (hk.acks a) fun he => ⟨n.deliveryPoint, he, Or.inr rfl⟩

theorem Kept.timeouts (hS : S.Lawful) {n : Net σ ρ} {h : Nat} (hk : Kept S n h) (now : Nat) :
    Kept S { n with sender := (S.timeouts n.sender now).1 } h where
  count := hk.count
  window := by
    rw [hS.timeouts_keys]
    exact hk.window
  acks := hk.acks

/-- Every fragment past the first `h` messages is in the window. -/
theorem Kept.in_window {n : Net σ ρ} {h : Nat} (hk : Kept S n h) :
    ∀ e ∈ n.sent.drop h, ∀ f ∈ e.2, f ∈ (S.window n.sender).map OutEntry.wire := by
  intro e he f hf
  have hmem : f ∈ (frames n.sent).drop (offset (rows n.sent) h) := by
    rw [frames, flatten_drop_offset, rows, ← List.map_drop]
    exact List.mem_flatten.mpr ⟨e.2, List.mem_map_of_mem he, hf⟩
  obtain ⟨w, hw, hkey⟩ := List.mem_map.mp
    (hk.window.subset (List.mem_map_of_mem (f := frameKey) hmem))
  exact List.mem_map.mpr ⟨w, hw, (Prod.ext_iff.mp hkey).2⟩

/-- More messages may leave the window. -/
theorem Kept.advance {n : Net σ ρ} {h h' : Nat} (hk : Kept S n h) (hle : h ≤ h')
    (hcount : h' ≤ n.delivered.length) : Kept S n h' where
  count := hcount
  window := ((List.drop_suffix_drop_left _ (offset_mono _ hle)).map _).trans hk.window
  acks a ha := by
    obtain ⟨m, hm, hcover⟩ := hk.acks a ha
    exact ⟨m, hm, hcover.imp_left fun hle' => hle'.trans (offset_mono _ hle)⟩

/-- Everything delivered may leave the window, so deliveries keep what is kept. -/
theorem Kept.receive {n : Net σ ρ} (hk : Kept S n n.delivered.length) (r : ρ) (out : List Bytes) :
    Kept S { n with receiver := r, delivered := n.delivered ++ out } n.delivered.length where
  count := by simp
  window := hk.window
  acks a ha := by
    obtain ⟨m, hm, hcover⟩ := hk.acks a ha
    exact ⟨m, hm, Or.inl (hcover.elim id fun he => he.le)⟩

/-- The current ACK of the receiver covers what is delivered. -/
theorem Safe.emitAck_value (hR : R.Lawful) {n : Net σ ρ} (hs : Safe S R n) {a : U32}
    (ha : a ∈ (R.emitAck n.receiver).2) : a = BitVec.ofNat 32 n.deliveryPoint := by
  rw [hR.emitAck_value n.receiver a ha, hs.inStep.nextSeq, Nat.add_comm, BitVec.ofNat_add]
  exact BitVec.add_sub_cancel _ _

theorem Kept.step (hS : S.Lawful) (hR : R.Lawful) {n : Net σ ρ} {a : Action}
    (hk : Kept S n n.delivered.length) (hs : Safe S R n) (hvalid : a.Sends S.Valid)
    (genuine : ∀ q, a ≠ .foreignAck q) (few : n.fragmentCount < 2 ^ 31) :
    Kept S (Net.step S R n a) (Net.step S R n a).delivered.length := by
  cases a with
  | send now msgId payload =>
      simp only [Net.step, hS.send_eq _ now msgId payload hvalid]
      exact hk.emit hS hs now msgId _ payload
  | sendSplit now msgId parts => exact hk.emit hS hs now msgId parts _
  | timeouts now => exact (hk.timeouts hS now).rewire _ fun _ ha => Or.inl ha
  | deliver i =>
      simp only [Net.step]
      split
      · exact hk
      · exact (hk.receive _ _).advance (by simp) le_rfl
  | emitAck =>
      have hacks : ∀ a ∈ n.acks ++ (R.emitAck n.receiver).2.toList,
          a ∈ n.acks ∨ a = BitVec.ofNat 32 n.deliveryPoint := by
        intro a ha
        exact (List.mem_append.mp ha).imp_right fun ha => hs.emitAck_value hR (by simpa using ha)
      exact ⟨hk.count, hk.window, (hk.rewire n.wire hacks).acks⟩
  | ack i =>
      simp only [Net.step]
      split
      · exact hk
      · rename_i a ha
        obtain ⟨m, rfl, hcover⟩ := hk.acks a (List.mem_of_getElem? ha)
        exact hk.onAck hS hs few (hcover.elim id fun he => he.le)
  | foreignAck a => exact absurd rfl (genuine a)

/-- Only fragments of messages that are delivered have left the window. -/
theorem kept_exec (hS : S.Lawful) (hR : R.Lawful) {actions : List Action}
    (valid : ∀ a ∈ actions, a.Sends S.Valid) (genuine : ∀ q, .foreignAck q ∉ actions)
    (few : (exec S R actions).fragmentCount < 2 ^ 31) :
    Kept S (exec S R actions) (exec S R actions).delivered.length := by
  have along : Run.Along (Net.step S R)
      (fun n a => (a.Sends S.Valid ∧ ∀ q, a ≠ .foreignAck q) ∧ n.fragmentCount < 2 ^ 31)
      (init S R) actions := by
    refine Run.along_and (Run.along_of_forall (C := fun a => a.Sends S.Valid ∧
      ∀ q, a ≠ .foreignAck q) _ fun a ha => ⟨valid a ha, ?_⟩)
      (Run.along_of_mono (fragmentCount_step S R) few)
    rintro q rfl
    exact genuine q ha
  have start : Safe S R (init S R) ∧ Kept S (init S R) (init S R).delivered.length :=
    ⟨safe_init hS hR, le_rfl, by simp [init, sent, frames, rows], by simp [init]⟩
  have hboth : Safe S R (exec S R actions) ∧
      Kept S (exec S R actions) (exec S R actions).delivered.length :=
    Run.invariant (I := fun n => Safe S R n ∧ Kept S n n.delivered.length) (fun n a h hc =>
      ⟨h.1.step hS hR hc.1.1 hc.2, h.2.step hS hR h.1 hc.1.1 hc.1.2 hc.2⟩) start along
  exact hboth.2

/-- Every fragment of a message that is not returned yet is still in the window. -/
theorem undelivered_in_window (hS : S.Lawful) (hR : R.Lawful) {actions : List Action}
    (valid : ∀ a ∈ actions, a.Sends S.Valid) (genuine : ∀ q, .foreignAck q ∉ actions)
    (few : (exec S R actions).fragmentCount < 2 ^ 31) :
    ∀ e ∈ (exec S R actions).sent.drop (exec S R actions).delivered.length, ∀ f ∈ e.2,
      f ∈ (S.window (exec S R actions).sender).map OutEntry.wire :=
  (kept_exec hS hR valid genuine few).in_window

/-- Both directions: the receiver has returned the first messages of the history, and
the sender still holds every fragment of all the others. -/
theorem control_stream_no_loss (actions : List Action) (genuine : ∀ q, .foreignAck q ∉ actions) :
    ((exec rustSender javaReceiver actions).fragmentCount < 2 ^ 31 →
      let n := exec rustSender javaReceiver actions
      n.delivered = (payloads n.sent).take n.delivered.length ∧
        ∀ e ∈ n.sent.drop n.delivered.length, ∀ f ∈ e.2, f ∈ n.sender.window.map OutEntry.wire) ∧
    ((∀ a ∈ actions, a.Sends fun p => p.length < 2 ^ 31) →
      (exec javaSender rustReceiver actions).fragmentCount < 2 ^ 31 →
      let n := exec javaSender rustReceiver actions
      n.delivered = (payloads n.sent).take n.delivered.length ∧
        ∀ e ∈ n.sent.drop n.delivered.length, ∀ f ∈ e.2,
          f ∈ n.sender.window.map OutEntry.wire) := by
  constructor
  · intro few
    have valid : ∀ a ∈ actions, a.Sends rustSender.Valid := by
      intro a _
      cases a <;> trivial
    exact ⟨(safe_exec rustSender_lawful javaReceiver_lawful valid few).delivered,
      undelivered_in_window rustSender_lawful javaReceiver_lawful valid genuine few⟩
  · intro valid few
    exact ⟨(safe_exec javaSender_lawful rustReceiver_lawful valid few).delivered,
      undelivered_in_window javaSender_lawful rustReceiver_lawful valid genuine few⟩

/-- One message delivered and acknowledged, the next one lost: it stays in the window. -/
theorem control_stream_no_loss_lost_message :
    let actions : List Action :=
      [.send 0 1 [1], .send 0 2 [2], .deliver 0, .emitAck, .ack 0, .ack 0]
    (exec rustSender javaReceiver actions).sent.drop 1 ≠ [] ∧
      ∀ e ∈ (exec rustSender javaReceiver actions).sent.drop 1, ∀ f ∈ e.2,
        f ∈ (exec rustSender javaReceiver actions).sender.window.map OutEntry.wire :=
  ⟨by decide, ((control_stream_no_loss
    [.send 0 1 [1], .send 0 2 [2], .deliver 0, .emitAck, .ack 0, .ack 0] (by simp)).1
      (by decide)).2⟩

end Kulua.Stream
