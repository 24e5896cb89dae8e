import Kulua.ReliableSender
import Kulua.ReliableReceiver
import Kulua.ReliableControl

/-! The four ends of the control stream under one interface. A `SenderModel` or a
`ReceiverModel` collects the operations of one end; `Lawful` says what the stream's
properties need of them, and each of the Rust and Java ends is shown to have it. -/

namespace Kulua.Stream
open Foundation Foundation.Segment

structure SenderModel (σ : Type) where
  new : σ
  send : σ → Nat → U32 → Bytes → σ × List Frame
  /-- The same call with the fragmentation of the payload given from outside. -/
  sendSplit : σ → Nat → U32 → List Bytes → σ × List Frame
  onAck : σ → U32 → σ
  timeouts : σ → Nat → σ × List Frame
  nextSeq : σ → U32
  window : σ → List OutEntry
  /-- The sender drops what it is given. -/
  muted : σ → Bool
  split : Bytes → List Bytes
  /-- Payloads that exist on this end. -/
  Valid : Bytes → Prop
  /-- Payloads whose fragment count is computed without overflow. -/
  Fits : Bytes → Prop

def frameKey (f : Frame) : U32 × Frame := (f.seq, f)

namespace SenderModel

variable {σ : Type} (S : SenderModel σ)

def keys (s : σ) : List (U32 × Frame) := (S.window s).map OutEntry.key

structure Lawful : Prop where
  nextSeq_new : S.nextSeq S.new = 1
  window_new : S.window S.new = []
  send_eq : ∀ s now id p, S.Valid p → S.send s now id p = S.sendSplit s now id (S.split p)
  split_flatten : ∀ p, S.Valid p → S.split p ≠ [] → (S.split p).flatten = p
  split_ne_nil : ∀ p, S.Fits p → p ≠ [] → S.split p ≠ []
  fits_valid : ∀ p, S.Fits p → S.Valid p
  muted_new : S.muted S.new = false
  muted_sendSplit : ∀ s now id parts, S.muted (S.sendSplit s now id parts).1 = S.muted s
  sendSplit_muted : ∀ s now id parts, S.muted s = true → S.sendSplit s now id parts = (s, [])
  sendSplit_open : ∀ s now id parts, S.muted s = false →
    (∃ msgId, (S.sendSplit s now id parts).2 =
      fragments (S.nextSeq s) msgId (BitVec.ofNat 32 parts.length) parts) ∧
    S.nextSeq (S.sendSplit s now id parts).1 = S.nextSeq s + BitVec.ofNat 32 parts.length ∧
    S.keys (S.sendSplit s now id parts).1 =
      S.keys s ++ (S.sendSplit s now id parts).2.map frameKey
  onAck_nextSeq : ∀ s a, S.nextSeq (S.onAck s a) = S.nextSeq s
  onAck_keys : ∀ s a, S.keys (S.onAck s a) =
    (S.keys s).dropWhile fun x => Serial.le (w := 31) x.1 a
  onAck_muted : ∀ s a, S.muted (S.onAck s a) = S.muted s
  timeouts_nextSeq : ∀ s now, S.nextSeq (S.timeouts s now).1 = S.nextSeq s
  timeouts_keys : ∀ s now, S.keys (S.timeouts s now).1 = S.keys s
  timeouts_mem : ∀ s now, ∀ f ∈ (S.timeouts s now).2, ∃ e ∈ S.window s, e.wire = f
  timeouts_muted : ∀ s now, S.muted s = true → S.muted (S.timeouts s now).1 = true

end SenderModel

structure ReceiverModel (ρ : Type) where
  Below : U32 → U32 → Prop
  decBelow : DecidableRel Below
  admits : U32 → U32 → Bool
  new : ρ
  onFrame : ρ → Frame → ρ × List Bytes
  emitAck : ρ → ρ × Option U32
  intake : ρ → Intake Below

namespace ReceiverModel

variable {ρ : Type} (R : ReceiverModel ρ)

instance : DecidableRel R.Below := R.decBelow

structure Lawful : Prop where
  intake_new : R.intake R.new = Intake.new
  intake_onFrame : ∀ r f,
    (R.intake r).onFrame R.admits f = Prod.map R.intake id (R.onFrame r f)
  intake_emitAck : ∀ r, R.intake (R.emitAck r).1 = R.intake r
  emitAck_value : ∀ r, ∀ a ∈ (R.emitAck r).2, a = (R.intake r).nextSeq - 1

end ReceiverModel

def rustSender : SenderModel ReliableSender where
  new := ReliableSender.new
  send := ReliableSender.sendCtrlBytes
  sendSplit s now id parts := s.sendFragments now id (BitVec.ofNat 32 parts.length) parts
  onAck := ReliableSender.onAck
  timeouts := ReliableSender.dueTimeouts
  nextSeq := ReliableSender.nextSeq
  window := ReliableSender.window
  muted _ := false
  split := chunks maxFragment
  Valid _ := True
  Fits _ := True

/-- The phone numbers messages itself; a Java array has fewer than `2^31` elements. -/
def javaSender : SenderModel ReliableControl.Sender where
  new := ReliableControl.Sender.new
  send s now _ p := s.sendCtrlBytes now p
  sendSplit s now _ parts := s.sendFragments now (BitVec.ofNat 32 parts.length) parts
  onAck := ReliableControl.Sender.onAck
  timeouts := ReliableControl.Sender.retransmit
  nextSeq := ReliableControl.Sender.nextSeq
  window := ReliableControl.Sender.window
  muted s := s.closed || s.stalled
  split := ReliableControl.Sender.slices
  Valid p := p.length < 2 ^ 31
  Fits p := p.length + maxFragment ≤ 2 ^ 31

def rustReceiver : ReceiverModel ReliableReceiver where
  Below := (· < ·)
  decBelow := inferInstance
  admits := ReliableReceiver.admits
  new := ReliableReceiver.new
  onFrame := ReliableReceiver.onFrame
  emitAck := ReliableReceiver.takeAck
  intake := ReliableReceiver.intake

/-- `ClientConnection.sendAck` sends the current value after every DATA frame. -/
def javaReceiver : ReceiverModel ReliableControl.Receiver where
  Below a b := a.slt b
  decBelow := fun _ _ => inferInstance
  admits := ReliableControl.inWindow
  new := ReliableControl.Receiver.new
  onFrame := ReliableControl.Receiver.onFrame
  emitAck r := (r, some r.ackSeq)
  intake := ReliableControl.Receiver.intake

theorem rustSender_lawful : rustSender.Lawful where
  nextSeq_new := rfl
  window_new := rfl
  send_eq s now id p _ := s.sendCtrlBytes_eq now id p
  split_flatten p _ _ := flatten_chunks (by decide) p
  split_ne_nil p _ hne h := by
    have := length_chunks_pos (n := maxFragment) (by decide) hne
    simp only [rustSender] at h
    simp [h] at this
  fits_valid _ _ := trivial
  muted_new := rfl
  muted_sendSplit _ _ _ _ := rfl
  sendSplit_muted _ _ _ _ h := by simp [rustSender] at h
  sendSplit_open s now id parts _ := by
    simp only [rustSender, SenderModel.keys, ReliableSender.sendFragments_eq]
    refine ⟨⟨id, rfl⟩, trivial, ?_⟩
    simp [Function.comp_def, frameKey]
  onAck_nextSeq _ _ := rfl
  onAck_keys s a := by
    simp only [rustSender, SenderModel.keys, ReliableSender.onAck, ReliableSender.seqLe_eq_le]
    exact OutEntry.map_key_dropWhile (fun q => Serial.le (w := 31) q a) s.window
  onAck_muted _ _ := rfl
  timeouts_nextSeq _ _ := rfl
  timeouts_keys s now := s.dueTimeouts_keys now
  timeouts_mem s now f h := ReliableSender.dueTimeouts_mem h
  timeouts_muted _ _ h := by simp [rustSender] at h

theorem javaSender_lawful : javaSender.Lawful where
  nextSeq_new := rfl
  window_new := rfl
  send_eq s now id p hv := s.sendCtrlBytes_eq now hv
  split_flatten p hv hne := ReliableControl.Sender.flatten_slices hv hne
  split_ne_nil p hfit _ := ReliableControl.Sender.slices_ne_nil hfit
  fits_valid p h := by
    simp only [javaSender, maxFragment] at h ⊢
    omega
  muted_new := rfl
  muted_sendSplit s now id parts := by
    rcases h : s.closed || s.stalled with _ | _
    · simp only [javaSender, ReliableControl.Sender.sendFragments_open h, h]
    · simp only [javaSender, ReliableControl.Sender.sendFragments_muted h, h]
  sendSplit_muted s now id parts h := ReliableControl.Sender.sendFragments_muted h now _ parts
  sendSplit_open s now id parts h := by
    have hopen := ReliableControl.Sender.sendFragments_open h now
      (BitVec.ofNat 32 parts.length) parts
    simp only [javaSender, SenderModel.keys, hopen]
    refine ⟨⟨s.nextMsgId, rfl⟩, trivial, ?_⟩
    simp [Function.comp_def, frameKey]
  onAck_nextSeq _ _ := rfl
  onAck_keys s a := by
    have hle : ∀ x, ReliableControl.seqLe x a = Serial.le (w := 31) x a :=
      fun x => ReliableSender.seqLe_eq_le x a
    simp only [javaSender, SenderModel.keys, ReliableControl.Sender.onAck, hle]
    exact OutEntry.map_key_dropWhile (fun q => Serial.le (w := 31) q a) s.window
  onAck_muted _ _ := rfl
  timeouts_nextSeq s now := by
    simp only [javaSender, ReliableControl.Sender.retransmit]
    split <;> rfl
  timeouts_keys s now := s.retransmit_keys now
  timeouts_mem s now f h := ReliableControl.Sender.retransmit_mem h
  timeouts_muted s now h := by
    simp only [javaSender, ReliableControl.Sender.retransmit] at h ⊢
    split <;> simp_all

theorem rustReceiver_lawful : rustReceiver.Lawful where
  intake_new := rfl
  intake_onFrame := ReliableReceiver.onFrame_intake
  intake_emitAck _ := rfl
  emitAck_value r a h := by
    simp only [rustReceiver, ReliableReceiver.takeAck] at h
    split at h
    · exact (Option.some.inj h).symm
    · simp at h

theorem javaReceiver_lawful : javaReceiver.Lawful where
  intake_new := rfl
  intake_onFrame := ReliableControl.Receiver.onFrame_intake
  intake_emitAck _ := rfl
  emitAck_value _ _ h := (Option.some.inj h).symm

end Kulua.Stream
