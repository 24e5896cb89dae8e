import Kulua.Frame
import Kulua.Foundation.Serial

/-! `ReliableSender` of `kulua-proto/src/reliable.rs`, the PC end of the
control stream: fragmentation, cumulative ACK and timed retransmission. -/

namespace Kulua

structure ReliableSender where
  nextSeq : U32
  window : List OutEntry
  stalled : Bool
  deriving DecidableEq, Repr

namespace ReliableSender
open Foundation Foundation.Segment

def new : ReliableSender := ⟨1, [], false⟩

/-- One iteration of the fragment loop, for chunk `i` of the message. -/
def pushFragment (now : Nat) (msgId total : U32) (acc : ReliableSender × List Frame)
    (chunk : Bytes × Nat) : ReliableSender × List Frame :=
  let (s, out) := acc
  let frame := Frame.ctrlData s.nextSeq msgId total chunk.2 chunk.1
  ({ s with nextSeq := s.nextSeq + 1, window := s.window ++ [⟨s.nextSeq, frame, now, 0⟩] },
    out ++ [frame])

/-- The fragment loop over the given pieces, and the reset of the death mark after it. -/
def sendFragments (s : ReliableSender) (now : Nat) (msgId total : U32) (parts : List Bytes) :
    ReliableSender × List Frame :=
  let (s, out) := parts.zipIdx.foldl (pushFragment now msgId total) (s, [])
  ({ s with stalled := false }, out)

/-- An empty payload has no chunks: nothing is registered and nothing is sent. -/
def sendCtrlBytes (s : ReliableSender) (now : Nat) (msgId : U32) (payload : Bytes) :
    ReliableSender × List Frame :=
  let total : U32 :=
    if payload.isEmpty then 1
    else BitVec.ofNat 32 ((payload.length + maxFragment - 1) / maxFragment)
  s.sendFragments now msgId total (chunks maxFragment payload)

/-- `a <= b` on the ring of `u32` sequence numbers. -/
def seqLe (a b : U32) : Bool :=
  if a = b then true else decide (0x80000000 ≤ a - b)

def onAck (s : ReliableSender) (ackSeq : U32) : ReliableSender :=
  let rest := s.window.dropWhile fun e => seqLe e.seq ackSeq
  { s with
    window := rest
    stalled := if rest.length < s.window.length ∧ rest ≠ [] then false else s.stalled }

def rtoFor (loss : Nat) : Nat := min ((· * 2)^[min loss 4] initialRto) maxRto

/-- One entry of the retransmission scan: the entry afterwards, the bytes to resend
and whether it has exceeded the loss limit. -/
def dueEntry (now : Nat) (e : OutEntry) : OutEntry × Option Frame × Bool :=
  if rtoFor e.lossCount ≤ now - e.lastSent then
    let e := { e with lastSent := now, lossCount := e.lossCount + 1 }
    if lossLimit < e.lossCount then (e, none, true) else (e, some e.wire, false)
  else (e, none, false)

def dueTimeouts (s : ReliableSender) (now : Nat) : ReliableSender × List Frame :=
  let scan := s.window.map (dueEntry now)
  ({ s with window := scan.map (·.1), stalled := s.stalled || scan.any (·.2.2) },
    scan.filterMap (·.2.1))

def isStalled (s : ReliableSender) : Bool := s.stalled

def pending (s : ReliableSender) : Nat := s.window.length

theorem seqLe_eq_le (a b : U32) : seqLe a b = Serial.le (w := 31) a b := by
  by_cases h : a = b
  · simp [seqLe, Serial.le, h]
  · simp [seqLe, Serial.le, h, BitVec.le_def]

theorem foldl_pushFragment (now : Nat) (msgId total : U32) (s : ReliableSender)
    (parts : List Bytes) :
    parts.zipIdx.foldl (pushFragment now msgId total) (s, []) =
      ({ s with
          nextSeq := s.nextSeq + BitVec.ofNat 32 parts.length
          window := s.window ++
            (fragments s.nextSeq msgId total parts).map (OutEntry.register now) },
        fragments s.nextSeq msgId total parts) := by
  induction parts using List.reverseRecOn with
  | nil => simp
  | append_singleton parts chunk ih =>
    rw [List.zipIdx_append, List.foldl_append, ih]
    simp [pushFragment, fragments_append_singleton, OutEntry.register, BitVec.ofNat_add,
      Frame.ctrlData, BitVec.add_assoc]

/-- The whole call in closed form: the fragments are numbered consecutively from
`nextSeq`, registered at the end of the window and returned. -/
theorem sendFragments_eq (s : ReliableSender) (now : Nat) (msgId total : U32)
    (parts : List Bytes) :
    s.sendFragments now msgId total parts =
      ({ nextSeq := s.nextSeq + BitVec.ofNat 32 parts.length
         window := s.window ++
           (fragments s.nextSeq msgId total parts).map (OutEntry.register now)
         stalled := false },
        fragments s.nextSeq msgId total parts) := by
  simp [sendFragments, foldl_pushFragment]

/-- The total written into the frames is the number of frames, as a `u32`. -/
theorem sendCtrlBytes_eq (s : ReliableSender) (now : Nat) (msgId : U32) (payload : Bytes) :
    s.sendCtrlBytes now msgId payload =
      s.sendFragments now msgId (BitVec.ofNat 32 (chunks maxFragment payload).length)
        (chunks maxFragment payload) := by
  cases payload with
  | nil => simp [sendCtrlBytes, sendFragments_eq]
  | cons b payload => simp [sendCtrlBytes]

theorem dueEntry_key (now : Nat) (e : OutEntry) : (dueEntry now e).1.key = e.key := by
  unfold dueEntry
  split
  · dsimp only
    split <;> rfl
  · rfl

theorem dueEntry_wire {now : Nat} {e : OutEntry} {f : Frame} (h : (dueEntry now e).2.1 = some f) :
    f = e.wire := by
  unfold dueEntry at h
  split at h
  · dsimp only at h
    split at h
    · cases h
    · exact (Option.some.inj h).symm
  · cases h

/-- Retransmission changes timers only. -/
theorem dueTimeouts_keys (s : ReliableSender) (now : Nat) :
    (s.dueTimeouts now).1.window.map OutEntry.key = s.window.map OutEntry.key := by
  simp [dueTimeouts, Function.comp_def, dueEntry_key]

theorem dueTimeouts_mem {s : ReliableSender} {now : Nat} {f : Frame}
    (h : f ∈ (s.dueTimeouts now).2) : ∃ e ∈ s.window, e.wire = f := by
  simp only [dueTimeouts, List.mem_filterMap, List.mem_map] at h
  obtain ⟨_, ⟨e, he, rfl⟩, hf⟩ := h
  exact ⟨e, he, (dueEntry_wire hf).symm⟩

end ReliableSender
end Kulua
