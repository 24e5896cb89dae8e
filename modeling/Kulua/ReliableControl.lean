import Kulua.Intake
import Kulua.Foundation.Serial

/-! `ReliableControl.java`, the phone end of the control stream. Its `int` values
are the same 32-bit words as the `u32` of the Rust side, read signed except where
the code calls `compareUnsigned`. Log output and the fields that only throttle it
are left out, and the `sink` is the list of frames a call returns. -/

namespace Kulua.ReliableControl
open Foundation Foundation.Segment

def seqLe (a b : U32) : Bool :=
  if a = b then true else decide (0x80000000 ≤ a - b)

/-- `seq` lies in `[base, base + 2^30)` on the ring. -/
def inWindow (seq base : U32) : Bool := decide (seq - base < 0x40000000)

def rtoFor (loss : Nat) : Nat := min ((· * 2)^[min loss 4] initialRto) maxRto

structure Sender where
  nextSeq : U32
  nextMsgId : U32
  window : List OutEntry
  closed : Bool
  stalled : Bool
  deriving DecidableEq, Repr

namespace Sender

def new : Sender := ⟨1, 1, [], false, false⟩

def stop (s : Sender) : Sender := { s with closed := true }

/-- One iteration of the fragment loop, for piece `i` of the message. -/
def pushFragment (now : Nat) (msgId total : U32) (acc : Sender × List Frame)
    (piece : Bytes × Nat) : Sender × List Frame :=
  let (s, out) := acc
  let frame := Frame.ctrlData s.nextSeq msgId total piece.2 piece.1
  ({ s with nextSeq := s.nextSeq + 1, window := s.window ++ [⟨s.nextSeq, frame, now, 0⟩] },
    out ++ [frame])

/-- `sendCtrlBytes` from the guard on, for the given pieces of the payload. A
closed or stalled sender drops the message. -/
def sendFragments (s : Sender) (now : Nat) (total : U32) (parts : List Bytes) :
    Sender × List Frame :=
  if s.closed || s.stalled then (s, [])
  else
    parts.zipIdx.foldl (pushFragment now s.nextMsgId total)
      ({ s with nextMsgId := s.nextMsgId + 1 }, [])

/-- The number of fragments, in `int` arithmetic: the sum wraps and the division
truncates toward zero. -/
def fragmentTotal (payload : Bytes) : U32 :=
  if payload.length = 0 then 1
  else
    (BitVec.ofNat 32 payload.length + BitVec.ofNat 32 maxFragment - 1).sdiv
      (BitVec.ofNat 32 maxFragment)

/-- The loop `for (int i = 0; i < total; i++)` runs `total` times when `total` is
positive and never otherwise. -/
def slices (payload : Bytes) : List Bytes :=
  (List.range (fragmentTotal payload).toInt.toNat).map fun i =>
    slice payload (i * maxFragment) maxFragment

def sendCtrlBytes (s : Sender) (now : Nat) (payload : Bytes) : Sender × List Frame :=
  s.sendFragments now (fragmentTotal payload) (slices payload)

def onAck (s : Sender) (ackSeq : U32) : Sender :=
  { s with window := s.window.dropWhile fun e => seqLe e.seq ackSeq }

/-- The retransmission loop: the window afterwards, the frames resent and whether an
entry exceeded the loss limit, which ends the loop at that entry. -/
def scan (now : Nat) : List OutEntry → List OutEntry × List Frame × Bool
  | [] => ([], [], false)
  | e :: rest =>
    if rtoFor e.lossCount ≤ now - e.lastSent then
      let e := { e with lastSent := now, lossCount := e.lossCount + 1 }
      if lossLimit < e.lossCount then (e :: rest, [], true)
      else
        let (rest, out, stalled) := scan now rest
        (e :: rest, e.wire :: out, stalled)
    else
      let (rest, out, stalled) := scan now rest
      (e :: rest, out, stalled)

def retransmit (s : Sender) (now : Nat) : Sender × List Frame :=
  if s.window.isEmpty || s.stalled then (s, [])
  else
    let (window, out, stalled) := scan now s.window
    ({ s with window := window, stalled := stalled }, out)

def pending (s : Sender) : Nat := s.window.length

def isStalled (s : Sender) : Bool := s.stalled

theorem foldl_pushFragment (now : Nat) (msgId total : U32) (s : Sender) (parts : List Bytes) :
    parts.zipIdx.foldl (pushFragment now msgId total) (s, []) =
      ({ s with
          nextSeq := s.nextSeq + BitVec.ofNat 32 parts.length
          window := s.window ++
            (fragments s.nextSeq msgId total parts).map (OutEntry.register now) },
        fragments s.nextSeq msgId total parts) := by
  induction parts using List.reverseRecOn with
  | nil => simp
  | append_singleton parts chunk ih =>
      rw [List.zipIdx_append, List.foldl_append, ih]
      simp [pushFragment, fragments_append_singleton, OutEntry.register, BitVec.ofNat_add,
        Frame.ctrlData, BitVec.add_assoc]

theorem sendFragments_muted {s : Sender} (h : (s.closed || s.stalled) = true) (now : Nat)
    (total : U32) (parts : List Bytes) : s.sendFragments now total parts = (s, []) := by
  simp only [sendFragments, h, if_true]

theorem sendFragments_open {s : Sender} (h : (s.closed || s.stalled) = false) (now : Nat)
    (total : U32) (parts : List Bytes) :
    s.sendFragments now total parts =
      ({ s with
          nextSeq := s.nextSeq + BitVec.ofNat 32 parts.length
          nextMsgId := s.nextMsgId + 1
          window := s.window ++
            (fragments s.nextSeq s.nextMsgId total parts).map (OutEntry.register now) },
        fragments s.nextSeq s.nextMsgId total parts) := by
  simp [sendFragments, h, foldl_pushFragment]

private theorem fragmentTotal_toInt {payload : Bytes} (hne : payload ≠ []) :
    (fragmentTotal payload).toInt =
      (BitVec.ofNat 32 (payload.length + 1199)).toInt.tdiv 1200 := by
  have hsum : BitVec.ofNat 32 payload.length + BitVec.ofNat 32 maxFragment - 1 =
      BitVec.ofNat 32 (payload.length + 1199) := by
    rw [BitVec.ofNat_add, BitVec.sub_eq_add_neg, BitVec.add_assoc]
    rfl
  have hlen : payload.length ≠ 0 := fun h => hne (List.eq_nil_of_length_eq_zero h)
  rw [fragmentTotal, if_neg hlen, hsum, BitVec.toInt_sdiv_of_ne_or_ne _ _ (Or.inr (by decide))]
  rfl

private theorem fragmentTotal_fits {payload : Bytes} (hne : payload ≠ [])
    (h : payload.length + maxFragment ≤ 2 ^ 31) :
    (fragmentTotal payload).toInt = ((chunks maxFragment payload).length : Int) := by
  simp only [maxFragment] at h
  have hsigned : (BitVec.ofNat 32 (payload.length + 1199)).toInt =
      ((payload.length + 1199 : Nat) : Int) := by
    rw [BitVec.toInt_eq_toNat_of_lt] <;> simp only [BitVec.toNat_ofNat] <;> omega
  rw [fragmentTotal_toInt hne, hsigned, length_chunks]
  rfl

@[simp] theorem sendCtrlBytes_closed (s : Sender) (now : Nat) (payload : Bytes) :
    (s.sendCtrlBytes now payload).1.closed = s.closed := by
  rcases h : s.closed || s.stalled with _ | _
  · simp only [sendCtrlBytes, sendFragments_open h]
  · simp only [sendCtrlBytes, sendFragments_muted h]

@[simp] theorem retransmit_closed (s : Sender) (now : Nat) :
    (s.retransmit now).1.closed = s.closed := by
  unfold retransmit
  split <;> rfl

/-- Where `payload.length + MAX_FRAGMENT - 1` does not overflow, the pieces are the
consecutive chunks of the payload. -/
theorem slices_fits {payload : Bytes} (hne : payload ≠ [])
    (h : payload.length + maxFragment ≤ 2 ^ 31) : slices payload = chunks maxFragment payload := by
  rw [slices, fragmentTotal_fits hne h, Int.toNat_natCast, length_chunks]
  rfl

@[simp] theorem slices_nil : slices [] = [[]] := by decide

theorem slices_ne_nil {payload : Bytes} (h : payload.length + maxFragment ≤ 2 ^ 31) :
    slices payload ≠ [] := by
  rcases eq_or_ne payload [] with rfl | hne
  · simp
  · rw [slices_fits hne h]
    exact List.length_pos_iff.mp (length_chunks_pos (by decide) hne)

/-- Where the sum overflows, the total is negative and the loop body never runs. -/
theorem slices_overflow {payload : Bytes} (hlo : 2 ^ 31 < payload.length + maxFragment)
    (hhi : payload.length < 2 ^ 31) : slices payload = [] := by
  simp only [maxFragment] at hlo
  have hne : payload ≠ [] := by
    rintro rfl
    simp at hlo
  have hsigned : (BitVec.ofNat 32 (payload.length + 1199)).toInt < 0 := by
    rw [BitVec.toInt_eq_toNat_cond, if_neg] <;> simp only [BitVec.toNat_ofNat] <;> omega
  have hnone : (fragmentTotal payload).toInt.toNat = 0 := by
    rw [fragmentTotal_toInt hne]
    have := Int.tdiv_nonneg (Int.neg_nonneg_of_nonpos hsigned.le) (show (0 : Int) ≤ 1200 by simp)
    rw [Int.neg_tdiv] at this
    omega
  simp [slices, hnone]

theorem flatten_slices {payload : Bytes} (hv : payload.length < 2 ^ 31)
    (hne : slices payload ≠ []) : (slices payload).flatten = payload := by
  rcases eq_or_ne payload [] with rfl | hp
  · rw [slices_nil]
    rfl
  · rcases Nat.lt_or_ge (2 ^ 31) (payload.length + maxFragment) with hlo | hfit
    · exact absurd (slices_overflow hlo hv) hne
    · rw [slices_fits hp hfit, flatten_chunks (by decide)]

/-- The total is the number of the pieces, except where the sum overflows. -/
theorem fragmentTotal_slices {payload : Bytes} (hne : payload ≠ [])
    (h : payload.length + maxFragment ≤ 2 ^ 31) :
    fragmentTotal payload = BitVec.ofNat 32 (slices payload).length := by
  apply BitVec.eq_of_toInt_eq
  rw [fragmentTotal_fits hne h, slices_fits hne h, length_chunks, BitVec.toInt_eq_toNat_of_lt]
  all_goals simp only [BitVec.toNat_ofNat, maxFragment] at h ⊢; omega

/-- The total written into the frames is the number of frames. -/
theorem sendCtrlBytes_eq (s : Sender) (now : Nat) {payload : Bytes}
    (hv : payload.length < 2 ^ 31) :
    s.sendCtrlBytes now payload =
      s.sendFragments now (BitVec.ofNat 32 (slices payload).length) (slices payload) := by
  rcases eq_or_ne payload [] with rfl | hp
  · rw [sendCtrlBytes, slices_nil]
    rfl
  · rcases Nat.lt_or_ge (2 ^ 31) (payload.length + maxFragment) with hlo | hfit
    · rw [sendCtrlBytes, slices_overflow hlo hv]
      rfl
    · rw [sendCtrlBytes, fragmentTotal_slices hp hfit]

private theorem scan_keys (now : Nat) (es : List OutEntry) :
    (scan now es).1.map OutEntry.key = es.map OutEntry.key := by
  induction es with
  | nil => rfl
  | cons e es ih =>
      unfold scan
      split
      · dsimp only
        split <;> simp [OutEntry.key, ih]
      · simp [ih]

private theorem scan_mem {now : Nat} {es : List OutEntry} {f : Frame}
    (h : f ∈ (scan now es).2.1) : ∃ e ∈ es, e.wire = f := by
  induction es with
  | nil => simp [scan] at h
  | cons e es ih =>
      unfold scan at h
      grind

/-- Retransmission changes timers and the death mark only. -/
theorem retransmit_keys (s : Sender) (now : Nat) :
    (s.retransmit now).1.window.map OutEntry.key = s.window.map OutEntry.key := by
  unfold retransmit
  split
  · rfl
  · exact scan_keys now s.window

theorem retransmit_mem {s : Sender} {now : Nat} {f : Frame} (h : f ∈ (s.retransmit now).2) :
    ∃ e ∈ s.window, e.wire = f := by
  unfold retransmit at h
  split at h
  · simp at h
  · exact scan_mem h

end Sender

structure Receiver where
  nextSeq : U32
  buf : Buffer fun a b => a.slt b
  dead : Bool

namespace Receiver

def new : Receiver := ⟨1, ∅, false⟩

def isDead (r : Receiver) : Bool := r.dead

/-- One iteration of the delivery loop; none where the loop breaks. -/
def deliverNext (r : Receiver) : Option (Receiver × Bytes) :=
  match r.buf[r.nextSeq]? with
  | none => none
  | some first =>
    if first.frag = 0 ∧ first.total = 1 then
      some ({ r with buf := r.buf.erase r.nextSeq, nextSeq := r.nextSeq + 1 }, first.data)
    else if first.frag ≠ 0 then none
    else
      match r.buf.pieces r.nextSeq first.msgId 0 first.total.toInt.toNat with
      | none => none
      | some run =>
        some ({ r with
          buf := r.buf.removeRun r.nextSeq first.total.toInt.toNat
          nextSeq := r.nextSeq + first.total }, run.flatten)

def deliver (r : Receiver) : Receiver × List Bytes := Run.drain deliverNext r.buf.size r

/-- The part of `onFrame` after the checks. -/
def accept (r : Receiver) (seq : U32) (f : RecvFragment fun a b => a.slt b) :
    Receiver × List Bytes :=
  let (r, delivered) := { r with buf := r.buf.insert seq f }.deliver
  (if maxRecvBuffer < r.buf.size then { r with dead := true } else r, delivered)

def onFrame (r : Receiver) (frame : Frame) : Receiver × List Bytes :=
  if r.dead then (r, [])
  else
    match frame.payload with
    | some (.data data) =>
      if !inWindow frame.seq r.nextSeq then (r, [])
      else if h : frame.frag.slt frame.declaredTotal then
        r.accept frame.seq ⟨frame.msgId, frame.frag, frame.declaredTotal, data, h⟩
      else (r, [])
    | _ => (r, [])

def ackSeq (r : Receiver) : U32 := r.nextSeq - 1

def intake (r : Receiver) : Intake fun a b => a.slt b := ⟨r.nextSeq, r.buf, r.dead⟩

@[simp] theorem intake_nextSeq (r : Receiver) : r.intake.nextSeq = r.nextSeq := rfl

@[simp] theorem intake_new : new.intake = Intake.new := rfl

/-- A total above a fragment index of zero is positive, so its signed and unsigned
readings agree. -/
theorem toInt_toNat_of_zero_slt {t : U32} (h : (0 : U32).slt t = true) :
    t.toInt.toNat = t.toNat := by
  have hpos : 0 < t.toInt := by simpa [BitVec.slt_iff_toInt_lt] using h
  rw [BitVec.toInt_eq_toNat_cond] at hpos ⊢
  split at hpos <;> simp_all
  omega

theorem positive : Intake.Positive fun a b => a.slt b := by
  intro t h
  have hsigned := toInt_toNat_of_zero_slt (t := t) h
  have hpos : 0 < t.toInt := by simpa [BitVec.slt_iff_toInt_lt] using h
  omega

theorem deliverNext_intake (r : Receiver) :
    r.intake.deliverNext = r.deliverNext.map (Prod.map intake id) := by
  unfold deliverNext Intake.deliverNext
  rcases hf : r.buf[r.nextSeq]? with _ | f
  · simp [intake, Buffer.collectRun, hf]
  · by_cases hsingle : f.frag = 0 ∧ f.total = 1
    · have hrun := Buffer.collectRun_single hf hsingle.1 hsingle.2
      simp [hsingle, intake, hrun]
    · by_cases hstart : f.frag = 0
      · have hsigned : f.total.toInt.toNat = f.total.toNat :=
          toInt_toNat_of_zero_slt (by simpa [hstart] using f.frag_below)
        have hmany : ¬f.total = 1 := fun h => hsingle ⟨hstart, h⟩
        simp only [intake, Buffer.collectRun, hf, ne_eq, hstart, hmany, and_false, not_true,
          hsigned, if_false]
        rcases r.buf.pieces r.nextSeq f.msgId 0 f.total.toNat with _ | ps <;> rfl
      · simp only [intake, Buffer.collectRun, hf, ne_eq, hstart, not_false_iff,
          if_true]
        rfl

theorem deliver_intake (r : Receiver) : r.intake.deliver = Prod.map intake id r.deliver :=
  Run.drain_map deliverNext_intake r.buf.size r

theorem accept_intake (r : Receiver) (seq : U32) (f : RecvFragment fun a b => a.slt b) :
    r.intake.accept seq f = Prod.map intake id (r.accept seq f) := by
  have hdeliver := deliver_intake { r with buf := r.buf.insert seq f }
  unfold accept Intake.accept
  rw [show ({ r.intake with buf := r.intake.buf.insert seq f } : Intake fun a b => a.slt b) =
    intake { r with buf := r.buf.insert seq f } from rfl, hdeliver]
  by_cases hfull : maxRecvBuffer < { r with buf := r.buf.insert seq f }.deliver.1.buf.size
  · simp [intake, hfull]
  · simp [intake, hfull]
    rfl

/-- The Java receiver is the common intake with the window test. -/
theorem onFrame_intake (r : Receiver) (frame : Frame) :
    r.intake.onFrame inWindow frame = Prod.map intake id (r.onFrame frame) := by
  unfold onFrame Intake.onFrame
  by_cases hdead : r.dead = true
  · simp [intake, hdead]
  · rcases hp : frame.payload with _ | (data | _ | _ | _)
    case some.data =>
      by_cases hin : inWindow frame.seq r.nextSeq = true
      · by_cases hfrag : frame.frag.slt frame.declaredTotal = true
        · have haccept := accept_intake r frame.seq
            ⟨frame.msgId, frame.frag, frame.declaredTotal, data, hfrag⟩
          simpa [hdead, hin, hfrag, intake] using haccept
        · simp [hdead, hin, hfrag, intake]
      · simp [hdead, hin, intake]
    all_goals simp [hdead, intake]

end Receiver
end Kulua.ReliableControl
