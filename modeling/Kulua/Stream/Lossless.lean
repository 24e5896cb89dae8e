import Kulua.IntakeFeed
import Kulua.Stream.Safety

/-! One direction of the control stream over a network that loses nothing. The wire of
a `Net` is read here as what is still in flight: a frame leaves it when it is handed
over, in any order. Then everything past the delivery point is in flight or buffered,
and a receiver with nothing in flight towards it has returned every message. -/

namespace Kulua.Stream
open Foundation Foundation.Segment Net

variable {σ ρ : Type} {S : SenderModel σ} {R : ReceiverModel ρ} {n : Net σ ρ}

/-- Every message was cut into fragments, and each of these is delivered, buffered or in
flight. -/
structure Lossless (R : ReceiverModel ρ) (n : Net σ ρ) : Prop where
  few : n.fragmentCount < 2 ^ 31
  complete : n.sent = n.log
  alive : (R.intake n.receiver).dead = false
  room : (R.intake n.receiver).buf.size ≤ maxRecvBuffer
  settled : (R.intake n.receiver).deliverNext = none
  arrived : ∀ p f, (frames n.sent)[p]? = some f → n.deliveryPoint ≤ p →
    f ∈ n.wire ∨ Buffered (R.intake n.receiver) p

theorem positive_rust : Intake.Positive rustReceiver.Below := ReliableReceiver.positive

theorem positive_java : Intake.Positive javaReceiver.Below := ReliableControl.Receiver.positive

theorem Numbered.mem_frames {H : History} (hH : Numbered H) {f : Frame} (hf : f ∈ frames H) :
    ∃ seq msgId parts i chunk, i < parts.length ∧ parts.length ≤ (frames H).length ∧
      f = Frame.ctrlData seq msgId (BitVec.ofNat 32 (parts : List Bytes).length) i chunk := by
  obtain ⟨row, hrow, hf⟩ := List.mem_flatten.mp hf
  obtain ⟨e, he, rfl⟩ := List.mem_map.mp hrow
  obtain ⟨base, msgId, parts, -, -, hfrag⟩ := hH.row e he
  have hlen : e.2.length ≤ (frames H).length := (List.sublist_flatten_of_mem hrow).length_le
  rw [hfrag] at hf
  obtain ⟨i, hi⟩ := List.getElem?_of_mem hf
  rw [getElem?_fragments] at hi
  obtain ⟨chunk, hchunk, rfl⟩ := Option.map_eq_some_iff.mp hi
  refine ⟨_, msgId, parts, i, chunk, (List.getElem?_eq_some_iff.mp hchunk).1, ?_, rfl⟩
  rwa [hfrag, length_fragments] at hlen

/-- A receiver can read every frame of the history. -/
theorem Numbered.readable {H : History} (hH : Numbered H) {Below : U32 → U32 → Prop}
    (below : Intake.IndexBelow Below) (few : (frames H).length < 2 ^ 31) {f : Frame}
    (hf : f ∈ frames H) :
    ∃ chunk, f.payload = some (.data chunk) ∧ Below f.frag f.declaredTotal := by
  obtain ⟨seq, msgId, parts, i, chunk, hi, hlen, rfl⟩ := hH.mem_frames hf
  refine ⟨chunk, rfl, ?_⟩
  rw [Frame.declaredTotal_ctrlData seq msgId chunk (by omega) (by omega)]
  exact below i _ hi (by omega)

theorem Safe.rewire (hs : Safe S R n) {wire : List Frame}
    (hsub : ∀ f ∈ wire, f ∈ frames n.sent) : Safe S R { n with wire := wire } :=
  { hs with wire := hsub }

theorem Lossless.rewire (h : Lossless R n) {wire : List Frame} (hsup : ∀ f ∈ n.wire, f ∈ wire) :
    Lossless R { n with wire := wire } :=
  { h with arrived := fun p f hf hp => (h.arrived p f hf hp).imp_left (hsup f) }

theorem Lossless.emit (hS : S.Lawful) (h : Lossless R n) (hs : Safe S R n)
    (talking : S.muted n.sender = false) (now : Nat) (msgId : U32) {parts : List Bytes}
    (hne : parts ≠ []) (payload : Bytes) (few : n.fragmentCount + parts.length < 2 ^ 31) :
    Lossless R (n.emit payload (S.sendSplit n.sender now msgId parts)) := by
  obtain ⟨⟨id, hframes⟩, -, -⟩ := hS.sendSplit_open n.sender now msgId parts talking
  generalize S.sendSplit n.sender now msgId parts = r at hframes
  have hlen : r.2.length = parts.length := by rw [hframes, length_fragments]
  have hout : r.2 ≠ [] := by
    rw [← List.length_pos_iff, hlen]
    exact List.length_pos_iff.mpr hne
  have hsent : (n.emit payload r).sent = n.sent ++ [(payload, r.2)] := by
    rw [sent_emit, if_neg hout]
  have hall : frames (n.emit payload r).sent = frames n.sent ++ r.2 := by
    rw [hsent, frames_append]
    simp [frames, rows]
  have hpoint : (n.emit payload r).deliveryPoint = n.deliveryPoint :=
    hs.offset_emit le_rfl payload r
  exact {
    few := by rwa [fragmentCount, hall, List.length_append, hlen]
    complete := by
      rw [hsent, h.complete]
      rfl
    alive := h.alive
    room := h.room
    settled := h.settled
    arrived := by
      intro p f hf hp
      rw [hpoint] at hp
      rw [hall] at hf
      rcases Nat.lt_or_ge p (frames n.sent).length with hlt | hge
      · rw [List.getElem?_append_left hlt] at hf
        exact (h.arrived p f hf hp).imp_left fun hw => List.mem_append_left _ hw
      · rw [List.getElem?_append_right hge] at hf
        exact Or.inl (List.mem_append_right _ (List.mem_of_getElem? hf)) }

/-- Everything past the delivery point within the receiver's reach is admitted. -/
theorem Safe.admits (hs : Safe S R n) {reach : U32 → Nat} (hreach : Intake.Reaches R.admits reach)
    (few : n.fragmentCount < 2 ^ 31)
    (far : n.fragmentCount ≤ n.deliveryPoint + reach (R.intake n.receiver).nextSeq) {p : Nat}
    (hp : n.deliveryPoint ≤ p) (hlt : p < n.fragmentCount) :
    R.admits (BitVec.ofNat 32 (1 + p)) (R.intake n.receiver).nextSeq = true := by
  have hsplit : BitVec.ofNat 32 (1 + p) =
      (R.intake n.receiver).nextSeq + BitVec.ofNat 32 (p - n.deliveryPoint) := by
    rw [hs.inStep.nextSeq, ← BitVec.ofNat_add]
    congr 1
    simp only [deliveryPoint] at hp ⊢
    omega
  rw [hsplit, hreach _ _ (by omega)]
  exact decide_eq_true (by omega)

section Receive

variable (hR : R.Lawful) (below : Intake.IndexBelow R.Below) (pos : Intake.Positive R.Below)
  {reach : U32 → Nat} (hreach : Intake.Reaches R.admits reach)

include hR in
theorem Safe.receive (hS : S.Lawful) (hs : Safe S R n) (few : n.fragmentCount < 2 ^ 31) {f : Frame}
    (hf : f ∈ n.wire) : Safe S R { n with
      receiver := (R.onFrame n.receiver f).1
      delivered := n.delivered ++ (R.onFrame n.receiver f).2 } := by
  obtain ⟨i, hi⟩ := List.getElem?_of_mem hf
  have hstep := hs.step hS hR (a := .deliver i) trivial few
  simpa only [Net.step, hi] using hstep

include hR below pos hreach in
/-- A frame is handed over: it is delivered or buffered, or was delivered before. -/
theorem Lossless.receive (h : Lossless R n) (hs : Safe S R n) {f : Frame} (hf : f ∈ n.wire)
    {wire : List Frame} (hrest : ∀ x ∈ n.wire, x = f ∨ x ∈ wire)
    (far : n.fragmentCount ≤ n.deliveryPoint + reach (R.intake n.receiver).nextSeq)
    (room : (R.intake n.receiver).Room R.admits f) :
    Lossless R { n with
      receiver := (R.onFrame n.receiver f).1
      delivered := n.delivered ++ (R.onFrame n.receiver f).2
      wire := wire } := by
  obtain ⟨hintake, hout⟩ := Prod.ext_iff.mp (hR.intake_onFrame n.receiver f)
  simp only [Prod.map_fst, Prod.map_snd, id_eq] at hintake hout
  have halive := (Intake.dead_onFrame pos h.alive h.room f).mpr room
  have few := h.few
  have hmem := hs.wire f hf
  refine ⟨h.few, h.complete, hintake ▸ halive, hintake ▸ Intake.size_onFrame h.room f halive,
    hintake ▸ Intake.settled_onFrame pos h.settled f, fun p x hx hp => ?_⟩
  have hlt : p < n.fragmentCount := (List.getElem?_eq_some_iff.mp hx).1
  have hseq := hs.numbered.seq p x hx
  have hpoint : n.deliveryPoint ≤ p := (offset_mono _ (by simp)).trans hp
  simp only [deliveryPoint, ← hout] at hp
  simp only [← hintake]
  by_cases hin : R.admits f.seq (R.intake n.receiver).nextSeq = true
  · obtain ⟨chunk, hchunk, hbelow⟩ := hs.numbered.readable below h.few hmem
    have haccept := Intake.onFrame_accept R.admits h.alive hchunk hin hbelow
    obtain ⟨k, hk, hdelivered, hkeep⟩ := hs.inStep.accept hs.numbered h.few hmem
      (g := ⟨f.msgId, f.frag, f.declaredTotal, chunk, hbelow⟩) rfl rfl rfl hchunk
    rw [haccept] at hp ⊢
    rw [← hs.delivered] at hdelivered
    have hcount : (n.delivered.length + k) ≤ (payloads n.sent).length := by
      simpa [payloads] using hk.count
    rw [hdelivered, List.length_take, Nat.min_eq_left hcount] at hp
    rcases h.arrived p x hx hpoint with hx' | hb
    · rcases hrest x hx' with rfl | hw
      · exact Or.inr (hkeep p hp hlt (Or.inr hseq))
      · exact Or.inl hw
    · exact Or.inr (hkeep p hp hlt (Or.inl hb))
  · -- a refused frame lies before the delivery point
    have hrefused : R.admits f.seq (R.intake n.receiver).nextSeq = false := by simpa using hin
    rw [Intake.onFrame_refused R.admits hrefused]
    refine (h.arrived p x hx hpoint).imp_left fun hx' => (hrest x hx').resolve_left ?_
    rintro rfl
    rw [hseq] at hin
    exact hin (hs.admits hreach h.few far hpoint hlt)

end Receive

theorem Lossless.isPrefix (h : Lossless R n) (hs : Safe S R n) :
    n.delivered <+: payloads n.log := by
  rw [hs.delivered, h.complete]
  exact List.take_prefix _ _

/-- With nothing in flight, every message has been returned. -/
theorem Lossless.drained (h : Lossless R n) (hs : Safe S R n) (empty : n.wire = []) :
    n.delivered = payloads n.log := by
  have hbuffered : ∀ p f, (frames n.sent)[p]? = some f → n.deliveryPoint ≤ p →
      Buffered (R.intake n.receiver) p := by
    intro p f hf hp
    simpa [empty] using h.arrived p f hf hp
  have few := h.few
  -- otherwise message `n.delivered.length` lies in the buffer, complete
  have hall : n.sent.length ≤ n.delivered.length := by
    by_contra hlt
    obtain ⟨e, he⟩ : ∃ e, n.sent[n.delivered.length]? = some e :=
      ⟨_, List.getElem?_eq_getElem (by omega)⟩
    obtain ⟨msgId, parts, hne, -, hend, hframe⟩ := hs.numbered.message he
    have hpos := List.length_pos_iff.mpr hne
    have hbound := offset_le (rows n.sent) (n.delivered.length + 1)
    simp only [fragmentCount, frames] at few
    have hpiece : ∀ j < parts.length, ∃ g,
        (R.intake n.receiver).buf[(R.intake n.receiver).nextSeq + BitVec.ofNat 32 j]? = some g ∧
          g.msgId = msgId ∧ g.frag = BitVec.ofNat 32 j ∧
          g.total = BitVec.ofNat 32 parts.length := by
      intro j hj
      obtain ⟨seq, hf⟩ := hframe j parts[j] (List.getElem?_eq_getElem hj)
      have hb := hbuffered _ _ hf (Nat.le_add_right ..)
      rw [Buffered, ← Nat.add_assoc, BitVec.ofNat_add, ← hs.inStep.nextSeq,
        Std.TreeMap.contains_eq_isSome_getElem?] at hb
      obtain ⟨g, hg⟩ := Option.isSome_iff_exists.mp hb
      obtain ⟨f, hf', hid, hfrag, htotal, -⟩ := hs.inStep.lookup h.few (by omega) hg
      rw [hf, Option.some.injEq] at hf'
      subst hf'
      exact ⟨g, hg, hid, hfrag,
        htotal.trans (Frame.declaredTotal_ctrlData _ _ _ hpos (by omega))⟩
    obtain ⟨ps, -, hrun⟩ := Buffer.collectRun_complete hpos (by omega) hpiece
    have hsettled := h.settled
    rw [Intake.deliverNext, hrun] at hsettled
    cases hsettled
  have hpayloads := hs.delivered
  rw [List.take_of_length_le (by simpa [payloads] using hall), h.complete] at hpayloads
  exact hpayloads

/-- In step with the history, and nothing lost. -/
structure Steady (S : SenderModel σ) (R : ReceiverModel ρ) (n : Net σ ρ) : Prop where
  safe : Safe S R n
  lossless : Lossless R n

/-- Ends at sequence number 1 with nothing sent, buffered or in flight. -/
theorem Steady.start (hnext : S.nextSeq n.sender = 1) (hwindow : S.window n.sender = [])
    (hidle : Intake.Idle 1 (R.intake n.receiver)) (hlog : n.log = []) (hwire : n.wire = [])
    (hdelivered : n.delivered = []) : Steady S R n := by
  have hsent : n.sent = [] := by simp [sent, hlog]
  constructor
  · constructor
    · exact hsent ▸ numbered_nil
    · simpa [fragmentCount, hsent, frames, rows] using hnext
    · simp [SenderModel.keys, hwindow, hsent, frames, rows]
    · simp [hwire]
    · refine ⟨by simp [hdelivered], ?_, fun q g hg => ?_⟩
      · simpa [hsent, hdelivered] using hidle.nextSeq
      · simp [hidle.empty q] at hg
    · simp [hdelivered]
  · constructor
    · simp [fragmentCount, hsent, frames, rows]
    · rw [hsent, hlog]
    · exact hidle.alive
    · simp [hidle.size]
    · exact hidle.deliverNext_none
    · simp [hsent, frames, rows]

theorem Steady.emit (hS : S.Lawful) (h : Steady S R n) (talking : S.muted n.sender = false)
    (now : Nat) (msgId : U32) (payload : Bytes) (hv : S.Valid payload) (hne : S.split payload ≠ [])
    (few : n.fragmentCount + (S.split payload).length < 2 ^ 31) :
    Steady S R (n.emit payload (S.send n.sender now msgId payload)) := by
  rw [hS.send_eq _ _ _ _ hv]
  exact ⟨h.safe.emit hS now msgId (hS.split_flatten payload hv),
    h.lossless.emit hS h.safe talking now msgId hne payload few⟩

theorem Steady.timeouts_mem (hS : S.Lawful) (hR : R.Lawful) (h : Steady S R n) {now : Nat}
    {f : Frame} (hf : f ∈ (S.timeouts n.sender now).2) : f ∈ frames n.sent :=
  (h.safe.step hS hR (a := .timeouts now) trivial h.lossless.few).wire f
    (List.mem_append_right _ hf)

theorem Steady.timeouts (hS : S.Lawful) (hR : R.Lawful) (h : Steady S R n) (now : Nat)
    (wire : List Frame) (hsup : ∀ f ∈ n.wire, f ∈ wire)
    (hsub : ∀ f ∈ wire, f ∈ n.wire ∨ f ∈ (S.timeouts n.sender now).2) :
    Steady S R { n with sender := (S.timeouts n.sender now).1, wire := wire } where
  safe := (h.safe.step hS hR (a := .timeouts now) trivial h.lossless.few).rewire fun f hf =>
    (hsub f hf).elim (h.safe.wire f) (h.timeouts_mem hS hR)
  lossless := { h.lossless.rewire hsup with }

theorem Steady.onAck (hS : S.Lawful) (h : Steady S R n) (a : U32) :
    Steady S R { n with sender := S.onAck n.sender a } where
  safe := h.safe.onAck hS a
  lossless := { h.lossless with }

theorem Steady.emitAck (hR : R.Lawful) (h : Steady S R n) :
    Steady S R { n with receiver := (R.emitAck n.receiver).1 } where
  safe := { h.safe with inStep := (hR.intake_emitAck n.receiver).symm ▸ h.safe.inStep }
  lossless := { h.lossless with
    alive := (hR.intake_emitAck n.receiver).symm ▸ h.lossless.alive
    room := (hR.intake_emitAck n.receiver).symm ▸ h.lossless.room
    settled := (hR.intake_emitAck n.receiver).symm ▸ h.lossless.settled
    arrived := (hR.intake_emitAck n.receiver).symm ▸ h.lossless.arrived }

/-- Copies come and go on the wire; the ACKs in flight are not looked at. -/
theorem Steady.rewire (h : Steady S R n) {wire : List Frame} (acks : List U32)
    (hsub : ∀ f ∈ wire, f ∈ n.wire) (hsup : ∀ f ∈ n.wire, f ∈ wire) :
    Steady S R { n with wire := wire, acks := acks } where
  safe := { h.safe.rewire fun f hf => h.safe.wire f (hsub f hf) with }
  lossless := { h.lossless.rewire hsup with }

theorem Steady.receive (hS : S.Lawful) (hR : R.Lawful) (below : Intake.IndexBelow R.Below)
    (pos : Intake.Positive R.Below) {reach : U32 → Nat} (hreach : Intake.Reaches R.admits reach)
    (h : Steady S R n) {f : Frame} (hf : f ∈ n.wire) {wire : List Frame}
    (hsub : ∀ x ∈ wire, x ∈ n.wire) (hrest : ∀ x ∈ n.wire, x = f ∨ x ∈ wire)
    (far : n.fragmentCount ≤ n.deliveryPoint + reach (R.intake n.receiver).nextSeq)
    (room : (R.intake n.receiver).Room R.admits f) :
    Steady S R { n with
      receiver := (R.onFrame n.receiver f).1
      delivered := n.delivered ++ (R.onFrame n.receiver f).2
      wire := wire } where
  safe := (h.safe.receive hR hS h.lossless.few hf).rewire fun x hx => h.safe.wire x (hsub x hx)
  lossless := h.lossless.receive hR below pos hreach h.safe hf hrest far room

end Kulua.Stream
