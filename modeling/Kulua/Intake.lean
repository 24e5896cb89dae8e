import Kulua.ReassemblyBuffer
import Kulua.Foundation.Run

/-! What the two control-stream receivers have in common: a delivery point, a
buffer of fragments ahead of it and a death mark. They differ in the test that
admits a sequence number (`admits`) and in the comparison of a fragment's index
with its total (`Below`). Both are shown to be this machine, and the properties
of the stream are proved about it once. -/

namespace Kulua

structure Intake (Below : U32 → U32 → Prop) where
  nextSeq : U32
  buf : Buffer Below
  dead : Bool

namespace Intake
open Foundation

variable {Below : U32 → U32 → Prop}

def new : Intake Below := ⟨1, ∅, false⟩

/-- Deliver the message that begins at the delivery point, if it is complete. -/
def deliverNext (r : Intake Below) : Option (Intake Below × Bytes) :=
  (r.buf.collectRun r.nextSeq).map fun run =>
    ({ r with nextSeq := r.nextSeq + run.2.2, buf := run.1 }, run.2.1)

def deliver (r : Intake Below) : Intake Below × List Bytes :=
  Run.drain deliverNext r.buf.size r

/-- An admitted fragment enters the buffer, everything complete is delivered, and a
buffer above its limit kills the receiver. -/
def accept (r : Intake Below) (seq : U32) (f : RecvFragment Below) : Intake Below × List Bytes :=
  let (r, delivered) := deliver { r with buf := r.buf.insert seq f }
  ({ r with dead := r.dead || decide (maxRecvBuffer < r.buf.size) }, delivered)

def onFrame (admits : U32 → U32 → Bool) [DecidableRel Below] (r : Intake Below) (frame : Frame) :
    Intake Below × List Bytes :=
  if r.dead then (r, [])
  else
    match frame.payload with
    | some (.data data) =>
      if admits frame.seq r.nextSeq then
        if h : Below frame.frag frame.declaredTotal then
          r.accept frame.seq ⟨frame.msgId, frame.frag, frame.declaredTotal, data, h⟩
        else (r, [])
      else (r, [])
    | _ => (r, [])

theorem deliverNext_eq_some {r r' : Intake Below} {data : Bytes}
    (h : r.deliverNext = some (r', data)) :
    ∃ total, r.buf.collectRun r.nextSeq = some (r'.buf, data, total) ∧
      r' = { r with nextSeq := r.nextSeq + total, buf := r'.buf } := by
  obtain ⟨⟨buf, d, total⟩, hrun, he⟩ := Option.map_eq_some_iff.mp h
  cases he
  exact ⟨total, hrun, rfl⟩

/-- The fragments of a message are at least one, in the comparison of the receiver. -/
def Positive (Below : U32 → U32 → Prop) : Prop := ∀ t, Below 0 t → 0 < t.toNat

variable {r r' : Intake Below}

theorem size_deliverNext (pos : Positive Below) {data : Bytes}
    (h : r.deliverNext = some (r', data)) : r'.buf.size < r.buf.size := by
  obtain ⟨total, hrun, -⟩ := deliverNext_eq_some h
  obtain ⟨first, -, -, hzero, htotal, -⟩ := Buffer.collectRun_eq_some hrun
  have hsize := Buffer.size_collectRun hrun
  have hpos := pos total (by simpa [hzero, htotal] using first.frag_below)
  omega

/-- The delivery loop ends because nothing more is complete, not because the bound
on its iterations is used up. -/
theorem deliver_exhausted (pos : Positive Below) (r : Intake Below) :
    r.deliver.1.deliverNext = none := by
  refine Run.drain_exhausted (fun r => r.buf.size) (fun s s' b h => ?_) _ r le_rfl
  exact size_deliverNext pos h

theorem size_deliver (pos : Positive Below) (r : Intake Below) :
    r.deliver.1.buf.size ≤ r.buf.size ∧
      (r.deliverNext.isSome = true → r.deliver.1.buf.size < r.buf.size) := by
  have hdrain : ∀ fuel (s : Intake Below),
      (Run.drain deliverNext fuel s).1.buf.size ≤ s.buf.size := fun fuel s =>
    Run.drain_invariant (I := fun s' => s'.buf.size ≤ s.buf.size)
      (fun _ _ _ hs h => (size_deliverNext pos h).le.trans hs) fuel le_rfl
  refine ⟨hdrain _ r, fun hnext => ?_⟩
  obtain ⟨⟨r', data⟩, h⟩ := Option.isSome_iff_exists.mp hnext
  have hlt := size_deliverNext pos h
  obtain ⟨fuel, hfuel⟩ := Nat.exists_eq_add_one.mpr (Nat.zero_lt_of_lt hlt)
  rw [deliver, hfuel, Run.drain_some h]
  exact (hdrain fuel r').trans_lt (hfuel ▸ hlt)

/-- A full buffer survives one more fragment exactly when that completes a message. -/
theorem size_deliver_le_iff (pos : Positive Below) (hsize : r.buf.size ≤ maxRecvBuffer + 1) :
    r.deliver.1.buf.size ≤ maxRecvBuffer ↔
      r.buf.size ≤ maxRecvBuffer ∨ r.deliverNext.isSome = true := by
  obtain ⟨hle, hlt⟩ := size_deliver pos r
  constructor
  · intro h
    rcases hnext : r.deliverNext with _ | x
    · left
      rwa [deliver, Run.drain_none hnext] at h
    · exact Or.inr rfl
  · rintro (h | h)
    · exact hle.trans h
    · have := hlt h
      omega

theorem dead_deliver (r : Intake Below) : r.deliver.1.dead = r.dead := by
  refine Run.drain_invariant (I := fun s : Intake Below => s.dead = r.dead)
    (fun s s' b hs h => ?_) _ rfl
  obtain ⟨total, -, hs'⟩ := deliverNext_eq_some h
  rw [hs', hs]

theorem dead_accept (pos : Positive Below) (halive : r.dead = false)
    (hsize : r.buf.size ≤ maxRecvBuffer) (seq : U32) (g : RecvFragment Below) :
    (r.accept seq g).1.dead = false ↔
      (r.buf.insert seq g).size ≤ maxRecvBuffer ∨
        ({ r with buf := r.buf.insert seq g } : Intake Below).deliverNext.isSome = true := by
  have hinsert : (r.buf.insert seq g).size ≤ r.buf.size + 1 := Std.TreeMap.size_insert_le
  have hiff := size_deliver_le_iff (r := { r with buf := r.buf.insert seq g }) pos (by
    exact hinsert.trans (Nat.add_le_add_right hsize 1))
  rw [← hiff]
  simp [accept, dead_deliver, halive]

theorem settled_accept (pos : Positive Below) (r : Intake Below) (seq : U32)
    (g : RecvFragment Below) : (r.accept seq g).1.deliverNext = none := by
  have hdone := deliver_exhausted pos { r with buf := r.buf.insert seq g }
  rw [deliverNext, Option.map_eq_none_iff] at hdone ⊢
  exact hdone

section Room

variable (admits : U32 → U32 → Bool) [DecidableRel Below]

/-- The receiver with the fragment of a frame in its buffer, before it delivers. -/
def stored (r : Intake Below) (frame : Frame) : Intake Below :=
  match frame.payload with
  | some (.data data) =>
    if admits frame.seq r.nextSeq then
      if h : Below frame.frag frame.declaredTotal then
        let f : RecvFragment Below := ⟨frame.msgId, frame.frag, frame.declaredTotal, data, h⟩
        { r with buf := r.buf.insert frame.seq f }
      else r
    else r
  | _ => r

/-- The buffer has room for the frame, or the frame completes the next message. -/
def Room (r : Intake Below) (frame : Frame) : Prop :=
  (r.stored admits frame).buf.size ≤ maxRecvBuffer ∨
    (r.stored admits frame).deliverNext.isSome = true

instance (r : Intake Below) (frame : Frame) : Decidable (r.Room admits frame) :=
  inferInstanceAs (Decidable (_ ∨ _))

/-- A receiver without the death mark takes an admitted fragment. -/
theorem onFrame_accept (halive : r.dead = false) {frame : Frame} {data : Bytes}
    (hdata : frame.payload = some (.data data)) (hin : admits frame.seq r.nextSeq = true)
    (hbelow : Below frame.frag frame.declaredTotal) :
    r.onFrame admits frame = r.accept frame.seq
      ⟨frame.msgId, frame.frag, frame.declaredTotal, data, hbelow⟩ := by
  simp [onFrame, halive, hdata, hin, hbelow]

theorem onFrame_dead (h : r.dead = true) (frame : Frame) : r.onFrame admits frame = (r, []) := by
  rw [onFrame, if_pos h]

theorem onFrame_not_data {frame : Frame} (h : ¬∃ data, frame.payload = some (.data data))
    (r : Intake Below) : r.onFrame admits frame = (r, []) := by
  unfold onFrame
  rcases hp : frame.payload with _ | (data | _ | _ | _)
  case some.data => exact absurd ⟨data, hp⟩ h
  all_goals simp

variable {admits}

/-- A receiver dies of a frame exactly when there is no room for it. -/
theorem dead_onFrame (pos : Positive Below) (halive : r.dead = false)
    (hsize : r.buf.size ≤ maxRecvBuffer) (frame : Frame) :
    (r.onFrame admits frame).1.dead = false ↔ r.Room admits frame := by
  have refused : r.dead = false ↔ r.buf.size ≤ maxRecvBuffer ∨ r.deliverNext.isSome = true :=
    iff_of_true halive (Or.inl hsize)
  unfold onFrame Room stored
  rw [if_neg (by simp [halive])]
  split
  · by_cases hin : admits frame.seq r.nextSeq = true
    · by_cases hbelow : Below frame.frag frame.declaredTotal
      · simp only [if_pos hin, dif_pos hbelow]
        exact dead_accept pos halive hsize frame.seq _
      · simpa only [if_pos hin, dif_neg hbelow] using refused
    · simpa only [if_neg hin] using refused
  · exact refused

theorem size_onFrame (hsize : r.buf.size ≤ maxRecvBuffer) (frame : Frame)
    (halive : (r.onFrame admits frame).1.dead = false) :
    (r.onFrame admits frame).1.buf.size ≤ maxRecvBuffer := by
  unfold onFrame at halive ⊢
  split
  · exact hsize
  · split
    · split
      · split
        · simp_all [accept]
        · exact hsize
      · exact hsize
    · exact hsize

/-- After a frame nothing complete is left in the buffer. -/
theorem settled_onFrame (pos : Positive Below) (h : r.deliverNext = none) (frame : Frame) :
    (r.onFrame admits frame).1.deliverNext = none := by
  unfold onFrame
  split
  · exact h
  · split
    · split
      · split
        · exact settled_accept pos r frame.seq _
        · exact h
      · exact h
    · exact h

end Room

end Intake
end Kulua
