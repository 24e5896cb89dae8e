import Kulua.IntakeFeed
import Kulua.Stream.Endpoints

/-! The control stream over a perfect network: every frame that a send returns
reaches the receiver once and in order. Exactly the messages that fit the
receiver's buffer, and the range of sequence numbers it admits, come through. -/

namespace Kulua.Stream
open Foundation Foundation.Segment

structure Message where
  now : Nat
  msgId : U32
  payload : Bytes
  deriving DecidableEq, Repr

structure Link (σ ρ : Type) where
  sender : σ
  receiver : ρ
  delivered : List Bytes

variable {σ ρ : Type} (S : SenderModel σ) (R : ReceiverModel ρ)

def ReceiverModel.feed : ρ → List Frame → ρ × List Bytes
  | r, [] => (r, [])
  | r, f :: fs =>
    let (r, out) := R.onFrame r f
    let (r, rest) := feed r fs
    (r, out ++ rest)

/-- One message: every frame the send returns is handed over once, in order. -/
def exchange (l : Link σ ρ) (m : Message) : Link σ ρ :=
  let x := S.send l.sender m.now m.msgId m.payload
  let y := R.feed l.receiver x.2
  ⟨x.1, y.1, l.delivered ++ y.2⟩

def lockstep (ms : List Message) : Link σ ρ := ms.foldl (exchange S R) ⟨S.new, R.new, []⟩

def pieceCount (p : Bytes) : Nat := (S.split p).length

/-- The sequence number of the first fragment after the messages `ms`. -/
def startAfter (ms : List Message) : U32 :=
  BitVec.ofNat 32 (1 + (ms.map fun m => pieceCount S m.payload).sum)

/-- Everything sent so far has been delivered and the receiver is not dead. -/
def Complete (ms : List Message) : Prop :=
  (lockstep S R ms).delivered = ms.map Message.payload ∧
    (R.intake (lockstep S R ms).receiver).dead = false

/-- The message fits the receiver's buffer and its reach from where it starts. -/
def Comfortable (reach : U32 → Nat) (before : List Message) (m : Message) : Prop :=
  S.split m.payload ≠ [] ∧ pieceCount S m.payload ≤ maxRecvBuffer + 1 ∧
    pieceCount S m.payload ≤ reach (startAfter S before)

structure Ready (ms : List Message) : Prop where
  nextSeq : S.nextSeq (lockstep S R ms).sender = startAfter S ms
  talking : S.muted (lockstep S R ms).sender = false
  idle : Intake.Idle (startAfter S ms) (R.intake (lockstep S R ms).receiver)
  delivered : (lockstep S R ms).delivered = ms.map Message.payload

variable {S R}

theorem ReceiverModel.Lawful.feed_intake (hR : R.Lawful) (r : ρ) (fs : List Frame) :
    (R.intake r).feed R.admits fs = Prod.map R.intake id (R.feed r fs) := by
  induction fs generalizing r with
  | nil => rfl
  | cons f fs ih => simp [feed, Intake.feed, hR.intake_onFrame, ih]

theorem lockstep_concat (ms : List Message) (m : Message) :
    lockstep S R (ms ++ [m]) = exchange S R (lockstep S R ms) m := by
  simp [lockstep, List.foldl_append]

theorem startAfter_concat (ms : List Message) (m : Message) :
    startAfter S (ms ++ [m]) = startAfter S ms + BitVec.ofNat 32 (pieceCount S m.payload) := by
  simp [startAfter, ← Nat.add_assoc, BitVec.ofNat_add]

theorem ready_nil (hS : S.Lawful) (hR : R.Lawful) : Ready S R [] where
  nextSeq := hS.nextSeq_new
  talking := hS.muted_new
  idle := by
    simp only [lockstep, List.foldl_nil, hR.intake_new]
    exact Intake.idle_new
  delivered := rfl

/-- From a ready state a message is a feed of its fragments from `startAfter` on. -/
theorem Ready.exchange (hS : S.Lawful) (hR : R.Lawful) {ms : List Message} (h : Ready S R ms)
    {m : Message} (hvalid : S.Valid m.payload) :
    S.nextSeq (lockstep S R (ms ++ [m])).sender = startAfter S (ms ++ [m]) ∧
      S.muted (lockstep S R (ms ++ [m])).sender = false ∧
      ∃ msgId, (R.intake (lockstep S R (ms ++ [m])).receiver,
          (lockstep S R (ms ++ [m])).delivered) =
        Prod.map id (ms.map Message.payload ++ ·)
          ((R.intake (lockstep S R ms).receiver).feed R.admits
            (Intake.messageFrames msgId (S.split m.payload) (startAfter S ms))) := by
  obtain ⟨⟨msgId, hframes⟩, hseq, -⟩ := hS.sendSplit_open (lockstep S R ms).sender m.now m.msgId
    (S.split m.payload) h.talking
  have hmuted := hS.muted_sendSplit (lockstep S R ms).sender m.now m.msgId (S.split m.payload)
  rw [← hS.send_eq _ _ _ _ hvalid] at hframes hseq hmuted
  rw [h.nextSeq] at hframes hseq
  have hfeed := hR.feed_intake (lockstep S R ms).receiver
    (Intake.messageFrames msgId (S.split m.payload) (startAfter S ms))
  refine ⟨?_, ?_, msgId, ?_⟩
  · simpa only [lockstep_concat, Stream.exchange, startAfter_concat, pieceCount] using hseq
  · simpa only [lockstep_concat, Stream.exchange, h.talking] using hmuted
  · rw [hfeed]
    simp only [lockstep_concat, Stream.exchange, hframes, h.delivered]
    rfl

/-- One more message from a ready state: it comes through exactly when it is comfortable. -/
theorem Ready.concat (hS : S.Lawful) (hR : R.Lawful) (below : Intake.IndexBelow R.Below)
    {reach : U32 → Nat} (hreach : Intake.Reaches R.admits reach) {ms : List Message}
    (h : Ready S R ms) {m : Message} (hvalid : S.Valid m.payload)
    (hlen : pieceCount S m.payload < 2 ^ 31) :
    (Complete S R (ms ++ [m]) ↔ Comfortable S reach ms m) ∧
      (Comfortable S reach ms m → Ready S R (ms ++ [m])) := by
  obtain ⟨hseq, hmuted, msgId, hfeed⟩ := h.exchange hS hR hvalid
  obtain ⟨hintake, hdelivered⟩ := Prod.ext_iff.mp hfeed
  simp only [Prod.map_fst, Prod.map_snd, id_eq] at hintake hdelivered
  refine ⟨?_, fun hc => ?_⟩
  · rw [Complete, hintake, hdelivered, List.map_append, List.append_right_inj]
    rcases eq_or_ne (S.split m.payload) [] with hnil | hne
    · simp [Comfortable, hnil, Intake.feed]
    · have hiff := h.idle.feed_iff msgId R.admits below hreach hlen
      rwa [hS.split_flatten _ hvalid hne] at hiff
  · obtain ⟨hidle, hout⟩ := h.idle.feed_message msgId R.admits below hc.1 hc.2.1 fun i hi => by
      have := hc.2.2
      simp only [pieceCount] at hlen this
      rw [hreach _ i (by omega), decide_eq_true (by omega)]
    refine ⟨hseq, hmuted, ?_, ?_⟩
    · rw [hintake, startAfter_concat]
      exact hidle
    · rw [hdelivered, hout, List.map_append, hS.split_flatten _ hvalid hc.1]
      rfl

/-- A message above the buffer limit kills a ready receiver. -/
theorem Ready.overflow (hS : S.Lawful) (hR : R.Lawful) (below : Intake.IndexBelow R.Below)
    {reach : U32 → Nat} (hreach : Intake.Reaches R.admits reach) {ms : List Message}
    (h : Ready S R ms) {m : Message} (hvalid : S.Valid m.payload)
    (hlen : pieceCount S m.payload < 2 ^ 31) (hcap : maxRecvBuffer + 1 < pieceCount S m.payload)
    (hfar : maxRecvBuffer < reach (startAfter S ms)) :
    (lockstep S R (ms ++ [m])).delivered = ms.map Message.payload ∧
      (R.intake (lockstep S R (ms ++ [m])).receiver).dead = true := by
  obtain ⟨-, -, msgId, hfeed⟩ := h.exchange hS hR hvalid
  obtain ⟨hintake, hdelivered⟩ := Prod.ext_iff.mp hfeed
  simp only [Prod.map_fst, Prod.map_snd, id_eq] at hintake hdelivered
  obtain ⟨hdead, hout⟩ := h.idle.feed_overflow msgId R.admits below hlen hcap fun i hi => by
    rw [hreach _ i (by simp only [maxRecvBuffer] at hi; omega), decide_eq_true (by omega)]
  rw [hintake, hdelivered, hout, List.append_nil]
  exact ⟨rfl, hdead⟩

private theorem forall_take_concat {P : List Message → Prop} (ms : List Message) (m : Message) :
    (∀ k, P ((ms ++ [m]).take k)) ↔ (∀ k, P (ms.take k)) ∧ P (ms ++ [m]) := by
  constructor
  · intro h
    refine ⟨fun k => ?_, by simpa [List.take_of_length_le] using h (ms.length + 1)⟩
    have := h (min k ms.length)
    rw [List.take_append_of_le_length (Nat.min_le_right ..)] at this
    rwa [← List.take_eq_take_min] at this
  · rintro ⟨hinit, hall⟩ k
    rcases Nat.lt_or_ge ms.length k with hk | hk
    · rwa [List.take_of_length_le (by simp; omega)]
    · rw [List.take_append_of_le_length hk]
      exact hinit k

/-- Every message comes through, at every point, exactly when every message is comfortable. -/
theorem lockstep_iff (hS : S.Lawful) (hR : R.Lawful) (below : Intake.IndexBelow R.Below)
    {reach : U32 → Nat} (hreach : Intake.Reaches R.admits reach) {ms : List Message}
    (hvalid : ∀ m ∈ ms, S.Valid m.payload) (hlen : ∀ m ∈ ms, pieceCount S m.payload < 2 ^ 31) :
    ((∀ k, Complete S R (ms.take k)) ↔
      ∀ k m, ms[k]? = some m → Comfortable S reach (ms.take k) m) ∧
    ((∀ k m, ms[k]? = some m → Comfortable S reach (ms.take k) m) → Ready S R ms) := by
  induction ms using List.reverseRecOn with
  | nil =>
      have hready := ready_nil hS hR
      refine ⟨iff_of_true (fun k => ?_) (by simp), fun _ => hready⟩
      rw [List.take_nil]
      exact ⟨hready.delivered, hready.idle.alive⟩
  | append_singleton ms m ih =>
      obtain ⟨hiff, hready⟩ := ih (fun m' hm => hvalid m' (List.mem_append_left _ hm))
        fun m' hm => hlen m' (List.mem_append_left _ hm)
      have hlast := fun hr : Ready S R ms => hr.concat hS hR below hreach
        (hvalid m (by simp)) (hlen m (by simp))
      have hcond : (∀ k m', (ms ++ [m])[k]? = some m' →
          Comfortable S reach ((ms ++ [m]).take k) m') ↔
          (∀ k m', ms[k]? = some m' → Comfortable S reach (ms.take k) m') ∧
            Comfortable S reach ms m := by
        constructor
        · intro h
          refine ⟨fun k m' hk => ?_, by simpa using h ms.length m⟩
          have hlt := (List.getElem?_eq_some_iff.mp hk).1
          have := h k m' (by rwa [List.getElem?_append_left hlt])
          rwa [List.take_append_of_le_length hlt.le] at this
        · rintro ⟨h, hm⟩ k m' hk
          rcases Nat.lt_or_ge k ms.length with hlt | hge
          · rw [List.getElem?_append_left hlt] at hk
            rw [List.take_append_of_le_length hlt.le]
            exact h k m' hk
          · obtain ⟨hlt, rfl⟩ := List.getElem?_eq_some_iff.mp hk
            simp only [List.length_append, List.length_singleton] at hlt
            obtain rfl : k = ms.length := by omega
            simpa using hm
      rw [forall_take_concat, hcond, hiff]
      constructor
      · exact and_congr_right fun hc => (hlast (hready hc)).1
      · rintro ⟨hc, hm⟩
        exact (hlast (hready hc)).2 hm

theorem indexBelow_rust : Intake.IndexBelow rustReceiver.Below := by
  intro i n hi hn
  show BitVec.ofNat 32 i < BitVec.ofNat 32 n
  rw [BitVec.lt_def, BitVec.toNat_ofNat, BitVec.toNat_ofNat]
  omega

theorem indexBelow_java : Intake.IndexBelow javaReceiver.Below := by
  intro i n hi hn
  show (BitVec.ofNat 32 i).slt (BitVec.ofNat 32 n) = true
  rw [BitVec.slt_iff_toInt_lt, BitVec.toInt_eq_toNat_of_lt, BitVec.toInt_eq_toNat_of_lt]
  all_goals simp only [BitVec.toNat_ofNat]; omega

/-- The plain comparison admits nothing past the wrap of the sequence numbers. -/
theorem reaches_rust : Intake.Reaches rustReceiver.admits fun q => 2 ^ 32 - q.toNat := by
  intro q i hi
  have hq := q.isLt
  simp only [rustReceiver, ReliableReceiver.admits, BitVec.lt_def, BitVec.toNat_add,
    BitVec.toNat_ofNat]
  rw [← decide_not, decide_eq_decide]
  omega

theorem reaches_java : Intake.Reaches javaReceiver.admits fun _ => 2 ^ 30 := by
  intro q i hi
  have hsub : q + BitVec.ofNat 32 i - q = BitVec.ofNat 32 i := by
    rw [BitVec.add_comm, BitVec.add_sub_cancel]
  simp only [javaReceiver, ReliableControl.inWindow, hsub, BitVec.lt_def, BitVec.ofNat_eq_ofNat,
    BitVec.toNat_ofNat]
  rw [decide_eq_decide]
  omega

/-- The largest payload whose fragments fit the receive buffer: `(MAX_RECV_BUFFER + 1)` of them. -/
def maxMessage : Nat := (maxRecvBuffer + 1) * maxFragment

theorem length_chunks_le_iff (p : Bytes) :
    (chunks maxFragment p).length ≤ maxRecvBuffer + 1 ↔ p.length ≤ maxMessage := by
  rw [length_chunks]
  simp only [maxFragment, maxRecvBuffer, maxMessage]
  omega

/-- On the phone an empty payload makes one fragment, and one so long that the fragment
count overflows makes none. -/
theorem slices_comfortable_iff {p : Bytes} (hv : p.length < 2 ^ 31) :
    (javaSender.split p ≠ [] ∧ pieceCount javaSender p ≤ maxRecvBuffer + 1) ↔
      p.length ≤ maxMessage := by
  show (ReliableControl.Sender.slices p ≠ [] ∧
    (ReliableControl.Sender.slices p).length ≤ maxRecvBuffer + 1) ↔ _
  rcases eq_or_ne p [] with rfl | hp
  · simp [maxRecvBuffer]
  · rcases Nat.lt_or_ge (2 ^ 31) (p.length + maxFragment) with hlo | hfit
    · rw [ReliableControl.Sender.slices_overflow hlo hv]
      simp only [maxFragment, maxMessage, maxRecvBuffer] at hlo ⊢
      simp
      omega
    · rw [ReliableControl.Sender.slices_fits hp hfit, length_chunks_le_iff]
      exact and_iff_right (List.length_pos_iff.mp (length_chunks_pos (by decide) hp))

/-- What the phone's sender makes of a message stays below `2^31` fragments. -/
theorem length_slices_lt {p : Bytes} (hv : p.length < 2 ^ 31) :
    (ReliableControl.Sender.slices p).length < 2 ^ 31 := by
  rcases eq_or_ne p [] with rfl | hp
  · simp
  · rcases Nat.lt_or_ge (2 ^ 31) (p.length + maxFragment) with hlo | hfit
    · simp [ReliableControl.Sender.slices_overflow hlo hv]
    · rw [ReliableControl.Sender.slices_fits hp hfit, length_chunks]
      simp only [maxFragment]
      omega

/-- Over a perfect network, at every point of a sequence of messages: from the PC to the
phone everything sent so far is delivered and the receiver alive exactly when every
payload is non-empty and has at most `4097` fragments; from the phone to the PC, exactly
when every payload has at most `4097` fragments and none of them straddles the wrap of
the sequence numbers. -/
theorem lockstep_survives_iff (ms : List Message) (small : ∀ m ∈ ms, m.payload.length < 2 ^ 31) :
    ((∀ k, (lockstep rustSender javaReceiver (ms.take k)).delivered =
          (ms.take k).map Message.payload ∧
        (lockstep rustSender javaReceiver (ms.take k)).receiver.isDead = false) ↔
      ∀ m ∈ ms, m.payload ≠ [] ∧ m.payload.length ≤ maxMessage) ∧
    ((∀ k, (lockstep javaSender rustReceiver (ms.take k)).delivered =
          (ms.take k).map Message.payload ∧
        (lockstep javaSender rustReceiver (ms.take k)).receiver.isDead = false) ↔
      ∀ k m, ms[k]? = some m → m.payload.length ≤ maxMessage ∧
        (startAfter javaSender (ms.take k)).toNat + pieceCount javaSender m.payload ≤ 2 ^ 32) := by
  constructor
  · refine (lockstep_iff rustSender_lawful javaReceiver_lawful indexBelow_java reaches_java
      (fun _ _ => trivial) (fun m hm => ?_)).1.trans ?_
    · have := small m hm
      simp only [pieceCount, rustSender, length_chunks, maxFragment]
      omega
    · constructor
      · intro h m hm
        obtain ⟨k, hk⟩ := List.getElem?_of_mem hm
        obtain ⟨hne, hcap, -⟩ := h k m hk
        refine ⟨?_, (length_chunks_le_iff _).mp hcap⟩
        rintro he
        simp [rustSender, he] at hne
      · intro h k m hk
        obtain ⟨hne, hcap⟩ := h m (List.mem_of_getElem? hk)
        have hlen : pieceCount rustSender m.payload ≤ maxRecvBuffer + 1 := (length_chunks_le_iff _).mpr hcap
        refine ⟨rustSender_lawful.split_ne_nil _ trivial hne, hlen, ?_⟩
        simp only [maxRecvBuffer] at hlen
        exact hlen.trans (by norm_num)
  · refine (lockstep_iff javaSender_lawful rustReceiver_lawful indexBelow_rust reaches_rust small
      fun m hm => length_slices_lt (small m hm)).1.trans ?_
    refine forall_congr' fun k => forall_congr' fun m => forall_congr' fun hk => ?_
    have hv := small m (List.mem_of_getElem? hk)
    have hq := (startAfter javaSender (ms.take k)).isLt
    rw [Comfortable, ← and_assoc, slices_comfortable_iff hv]
    exact and_congr_right fun _ => by omega

/-- Two short messages come through. -/
theorem lockstep_survives_two :
    (lockstep rustSender javaReceiver [⟨0, 1, [97]⟩, ⟨0, 2, [98]⟩]).delivered = [[97], [98]] ∧
      ∀ k, (lockstep rustSender javaReceiver ([⟨0, 1, [97]⟩, ⟨0, 2, [98]⟩].take k)).delivered =
          ([⟨0, 1, [97]⟩, ⟨0, 2, [98]⟩].take k).map Message.payload ∧
        (lockstep rustSender javaReceiver
          ([⟨0, 1, [97]⟩, ⟨0, 2, [98]⟩].take k)).receiver.isDead = false :=
  ⟨by decide, (lockstep_survives_iff [⟨0, 1, [97]⟩, ⟨0, 2, [98]⟩] (by simp)).1.mpr
    (by simp [maxMessage, maxRecvBuffer, maxFragment])⟩

private theorem lockstep_dies {p : Bytes} (hlen : p.length = 16777216) :
    ((lockstep rustSender javaReceiver [⟨0, 1, p⟩]).delivered = [] ∧
      (lockstep rustSender javaReceiver [⟨0, 1, p⟩]).receiver.isDead = true) ∧
    ((lockstep javaSender rustReceiver [⟨0, 1, p⟩]).delivered = [] ∧
      (lockstep javaSender rustReceiver [⟨0, 1, p⟩]).receiver.isDead = true) := by
  have hne : p ≠ [] := by
    rintro rfl
    simp at hlen
  have hcount : (chunks maxFragment p).length = 13982 := by
    rw [length_chunks, hlen]
    norm_num [maxFragment]
  have hslices : ReliableControl.Sender.slices p = chunks maxFragment p :=
    ReliableControl.Sender.slices_fits hne (by simp only [maxFragment]; omega)
  have hrust : pieceCount rustSender p = 13982 := hcount
  have hjava : pieceCount javaSender p = 13982 := by
    rw [← hcount, ← hslices]
    rfl
  constructor
  · exact (ready_nil rustSender_lawful javaReceiver_lawful).overflow
      rustSender_lawful javaReceiver_lawful indexBelow_java reaches_java (m := ⟨0, 1, p⟩) trivial
      (by rw [hrust]; omega) (by rw [hrust]; decide) (by norm_num [maxRecvBuffer])
  · exact (ready_nil javaSender_lawful rustReceiver_lawful).overflow
      javaSender_lawful rustReceiver_lawful indexBelow_rust reaches_rust (m := ⟨0, 1, p⟩)
      (show p.length < 2 ^ 31 by omega) (by rw [hjava]; omega) (by rw [hjava]; decide)
      (by norm_num [maxRecvBuffer, startAfter])

/-- A clipboard text of 16 MiB kills the receiver in either direction, with nothing
delivered. -/
theorem lockstep_dies_of_clipboard_limit :
    ((lockstep rustSender javaReceiver [⟨0, 1, List.replicate 16777216 97⟩]).delivered = [] ∧
      (lockstep rustSender javaReceiver
        [⟨0, 1, List.replicate 16777216 97⟩]).receiver.isDead = true) ∧
    ((lockstep javaSender rustReceiver [⟨0, 1, List.replicate 16777216 97⟩]).delivered = [] ∧
      (lockstep javaSender rustReceiver
        [⟨0, 1, List.replicate 16777216 97⟩]).receiver.isDead = true) :=
  lockstep_dies List.length_replicate

end Kulua.Stream
