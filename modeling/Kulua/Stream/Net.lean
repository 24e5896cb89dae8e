import Kulua.Stream.History

/-! One direction of the control stream as a system: a sender, a receiver and a
network that keeps every frame and every ACK ever emitted and may hand any of them
over at any time, any number of times or never. Loss, duplication, delay and
reordering are orders of `deliver` and `ack` actions. -/

namespace Kulua.Stream
open Foundation Foundation.Segment

structure Net (σ ρ : Type) where
  sender : σ
  receiver : ρ
  /-- Every payload handed to the sender, with the frames the call returned. -/
  log : History
  wire : List Frame
  acks : List U32
  delivered : List Bytes

inductive Action where
  | send (now : Nat) (msgId : U32) (payload : Bytes)
  | sendSplit (now : Nat) (msgId : U32) (parts : List Bytes)
  | timeouts (now : Nat)
  | deliver (i : Nat)
  | emitAck
  | ack (i : Nat)
  /-- An ACK with a value this receiver need not have produced. -/
  | foreignAck (seq : U32)
  deriving DecidableEq, Repr

variable {σ ρ : Type} (S : SenderModel σ) (R : ReceiverModel ρ)

namespace Net

def init : Net σ ρ := ⟨S.new, R.new, [], [], [], []⟩

def emit (n : Net σ ρ) (payload : Bytes) (r : σ × List Frame) : Net σ ρ :=
  { n with sender := r.1, log := n.log ++ [(payload, r.2)], wire := n.wire ++ r.2 }

def step (n : Net σ ρ) : Action → Net σ ρ
  | .send now msgId payload => n.emit payload (S.send n.sender now msgId payload)
  | .sendSplit now msgId parts => n.emit parts.flatten (S.sendSplit n.sender now msgId parts)
  | .timeouts now =>
    let r := S.timeouts n.sender now
    { n with sender := r.1, wire := n.wire ++ r.2 }
  | .deliver i =>
    match n.wire[i]? with
    | none => n
    | some f =>
      let r := R.onFrame n.receiver f
      { n with receiver := r.1, delivered := n.delivered ++ r.2 }
  | .emitAck =>
    let r := R.emitAck n.receiver
    { n with receiver := r.1, acks := n.acks ++ r.2.toList }
  | .ack i =>
    match n.acks[i]? with
    | none => n
    | some a => { n with sender := S.onAck n.sender a }
  | .foreignAck a => { n with sender := S.onAck n.sender a }

def exec (actions : List Action) : Net σ ρ := Run.run (step S R) (init S R) actions

/-- The messages that were cut into at least one fragment. -/
def sent (n : Net σ ρ) : History := n.log.filter fun e => !e.2.isEmpty

/-- The number of fragments made so far. -/
def fragmentCount (n : Net σ ρ) : Nat := (frames n.sent).length

/-- The position in the history up to which everything has been delivered. -/
def deliveryPoint (n : Net σ ρ) : Nat := offset (rows n.sent) n.delivered.length

end Net

namespace Action

/-- The payload of a sending action satisfies `P`. -/
def Sends (P : Bytes → Prop) : Action → Prop
  | send _ _ payload => P payload
  | sendSplit _ _ parts => P parts.flatten
  | _ => True

theorem Sends.imp {P Q : Bytes → Prop} (h : ∀ p, P p → Q p) {a : Action} (ha : a.Sends P) :
    a.Sends Q := by
  cases a <;> first | exact h _ ha | trivial

end Action

open Net

theorem sent_emit (n : Net σ ρ) (payload : Bytes) (r : σ × List Frame) :
    (n.emit payload r).sent = n.sent ++ if r.2 = [] then [] else [(payload, r.2)] := by
  unfold emit sent
  by_cases h : r.2 = [] <;> simp [h]

theorem sent_step (n : Net σ ρ) (a : Action) : ∃ K, (step S R n a).sent = n.sent ++ K := by
  have keep : ∃ K, n.sent = n.sent ++ K := ⟨[], by simp⟩
  cases a with
  | send now msgId payload => exact ⟨_, sent_emit n payload _⟩
  | sendSplit now msgId parts => exact ⟨_, sent_emit n parts.flatten _⟩
  | deliver i =>
      simp only [step]
      split <;> exact keep
  | ack i =>
      simp only [step]
      split <;> exact keep
  | timeouts now => exact keep
  | emitAck => exact keep
  | foreignAck a => exact keep

theorem fragmentCount_step (n : Net σ ρ) (a : Action) :
    n.fragmentCount ≤ (step S R n a).fragmentCount := by
  obtain ⟨K, hK⟩ := sent_step S R n a
  simp [fragmentCount, hK]

/-- The receiver is in step with the sender's history, whatever the network did. -/
structure Safe (n : Net σ ρ) : Prop where
  numbered : Numbered n.sent
  nextSeq : S.nextSeq n.sender = BitVec.ofNat 32 (1 + n.fragmentCount)
  window : S.keys n.sender <:+ (frames n.sent).map frameKey
  wire : ∀ f ∈ n.wire, f ∈ frames n.sent
  inStep : InStep n.sent n.delivered.length (R.intake n.receiver)
  delivered : n.delivered = (payloads n.sent).take n.delivered.length

variable {S R}

theorem safe_init (hS : S.Lawful) (hR : R.Lawful) : Safe S R (init S R) where
  numbered := numbered_nil
  nextSeq := hS.nextSeq_new
  window := by simp [SenderModel.keys, init, hS.window_new]
  wire f hf := by simp [init] at hf
  inStep := by
    simp only [init, hR.intake_new]
    exact inStep_new
  delivered := by simp [init]

/-- A call without frames leaves the history as it is. -/
theorem Safe.silent {n : Net σ ρ} (h : Safe S R n) {s' : σ} (hseq : S.nextSeq s' = S.nextSeq n.sender)
    (hkeys : S.keys s' = S.keys n.sender) (payload : Bytes) :
    Safe S R (n.emit payload (s', [])) := by
  have hsent : (n.emit payload (s', [])).sent = n.sent := by simp [sent_emit]
  exact {
    numbered := hsent ▸ h.numbered
    nextSeq := by rw [fragmentCount, hsent]; exact hseq.trans h.nextSeq
    window := by rw [hsent]; exact hkeys ▸ h.window
    wire := by rw [hsent]; simpa [Net.emit] using h.wire
    inStep := by rw [hsent]; exact h.inStep
    delivered := by rw [hsent]; exact h.delivered }

theorem Safe.emit (hS : S.Lawful) {n : Net σ ρ} (h : Safe S R n) (now : Nat) (msgId : U32)
    {parts : List Bytes} {payload : Bytes} (hp : parts ≠ [] → parts.flatten = payload) :
    Safe S R (n.emit payload (S.sendSplit n.sender now msgId parts)) := by
  rcases hm : S.muted n.sender with _ | _
  · obtain ⟨⟨id, hframes⟩, hseq, hkeys⟩ := hS.sendSplit_open n.sender now msgId parts hm
    rcases eq_or_ne parts [] with rfl | hne
    · rw [show S.sendSplit n.sender now msgId [] = ((S.sendSplit n.sender now msgId []).1, []) from
        Prod.ext rfl hframes]
      refine h.silent (by simpa using hseq) ?_ payload
      rw [hkeys, hframes]
      simp
    · obtain rfl := hp hne
      rw [h.nextSeq] at hframes hseq
      have hout : (S.sendSplit n.sender now msgId parts).2 ≠ [] := by
        rw [hframes]
        intro he
        exact hne (by simpa using congrArg List.length he)
      have hsent : (n.emit parts.flatten (S.sendSplit n.sender now msgId parts)).sent = n.sent ++
          [(parts.flatten, (S.sendSplit n.sender now msgId parts).2)] := by
        rw [sent_emit, if_neg hout]
      have hall : frames (n.emit parts.flatten (S.sendSplit n.sender now msgId parts)).sent =
          frames n.sent ++ (S.sendSplit n.sender now msgId parts).2 := by
        rw [hsent, frames_append]
        simp [frames, rows]
      exact {
        numbered := by
          rw [hsent, hframes]
          exact h.numbered.append hne
        nextSeq := by
          rw [fragmentCount, hall, List.length_append, hframes, length_fragments,
            ← Nat.add_assoc, BitVec.ofNat_add]
          exact hseq
        window := by
          rw [hall, List.map_append]
          obtain ⟨pre, hpre⟩ := h.window
          exact ⟨pre, by rw [← hpre, List.append_assoc]; exact congrArg _ hkeys⟩
        wire := fun f hf => by
          rw [hall]
          rcases List.mem_append.mp hf with hf | hf
          · exact List.mem_append_left _ (h.wire f hf)
          · exact List.mem_append_right _ hf
        inStep := by
          rw [hsent]
          exact h.inStep.append _
        delivered := by
          rw [hsent, payloads_append, List.take_append_of_le_length]
          · exact h.delivered
          · simpa [payloads, Net.emit] using h.inStep.count }
  · rw [hS.sendSplit_muted n.sender now msgId parts hm]
    exact h.silent rfl rfl payload

theorem Safe.onAck (hS : S.Lawful) {n : Net σ ρ} (h : Safe S R n) (a : U32) :
    Safe S R { n with sender := S.onAck n.sender a } :=
  { h with
    nextSeq := (hS.onAck_nextSeq n.sender a).trans h.nextSeq
    window := by
      rw [hS.onAck_keys]
      exact (List.dropWhile_suffix _).trans h.window }

theorem Safe.step (hS : S.Lawful) (hR : R.Lawful) {n : Net σ ρ} {a : Action} (h : Safe S R n)
    (hvalid : a.Sends S.Valid) (hcount : n.fragmentCount < 2 ^ 31) :
    Safe S R (Net.step S R n a) := by
  cases a with
  | send now msgId payload =>
      simp only [Net.step, hS.send_eq _ now msgId payload hvalid]
      exact h.emit hS now msgId (hS.split_flatten payload hvalid)
  | sendSplit now msgId parts => exact h.emit hS now msgId fun _ => rfl
  | timeouts now =>
      refine { h with
        nextSeq := (hS.timeouts_nextSeq n.sender now).trans h.nextSeq
        window := (hS.timeouts_keys n.sender now).symm ▸ h.window
        wire := fun f hf => ?_ }
      rcases List.mem_append.mp hf with hf | hf
      · exact h.wire f hf
      · obtain ⟨e, he, rfl⟩ := hS.timeouts_mem n.sender now f hf
        have hmem : e.key ∈ S.keys n.sender := List.mem_map_of_mem he
        obtain ⟨g, hg, hkey⟩ := List.mem_map.mp (h.window.subset hmem)
        obtain rfl : g = e.wire := (Prod.ext_iff.mp hkey).2
        exact hg
  | deliver i =>
      simp only [Net.step]
      split
      · exact h
      · rename_i f hf
        have hmem := h.wire f (List.mem_of_getElem? hf)
        obtain ⟨k, hk, hout⟩ := h.inStep.onFrame h.numbered hcount R.admits hmem
        rw [hR.intake_onFrame] at hk hout
        simp only [Prod.map_fst, Prod.map_snd, id_eq] at hk hout
        rw [← h.delivered] at hout
        have hlen : (n.delivered ++ (R.onFrame n.receiver f).2).length = n.delivered.length + k := by
          rw [hout, List.length_take, Nat.min_eq_left]
          simpa [payloads] using hk.count
        refine { h with inStep := ?_, delivered := ?_ }
        · exact hlen ▸ hk
        · exact hlen ▸ hout
  | emitAck => exact { h with inStep := (hR.intake_emitAck n.receiver).symm ▸ h.inStep }
  | ack i =>
      simp only [Net.step]
      split
      · exact h
      · exact h.onAck hS _
  | foreignAck a => exact h.onAck hS a

theorem safe_exec (hS : S.Lawful) (hR : R.Lawful) {actions : List Action}
    (valid : ∀ a ∈ actions, a.Sends S.Valid)
    (few : (exec S R actions).fragmentCount < 2 ^ 31) : Safe S R (exec S R actions) :=
  Run.invariant (fun _ _ h hc => Safe.step hS hR h hc.1 hc.2) (safe_init hS hR)
    (Run.along_and (Run.along_of_forall _ valid)
      (Run.along_of_mono (fragmentCount_step S R) few))

end Kulua.Stream
