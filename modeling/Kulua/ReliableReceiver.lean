import Kulua.Intake

/-! `ReliableReceiver` of `kulua-proto/src/reliable.rs`, the PC end of the
phone-to-PC control stream. -/

namespace Kulua

structure ReliableReceiver where
  nextSeq : U32
  buf : Buffer (· < ·)
  dead : Bool
  ackPending : Bool

namespace ReliableReceiver
open Foundation

def new : ReliableReceiver := ⟨1, ∅, false, false⟩

/-- `collect_run` with the update of `next_seq` its caller makes. -/
def collectRun (r : ReliableReceiver) : Option (ReliableReceiver × Bytes) :=
  match r.buf.collectRun r.nextSeq with
  | none => none
  | some (buf, data, fragCount) =>
    some ({ r with buf := buf, nextSeq := r.nextSeq + fragCount }, data)

/-- One iteration of the delivery loop; none where the loop breaks. -/
def deliverNext (r : ReliableReceiver) : Option (ReliableReceiver × Bytes) :=
  match r.buf[r.nextSeq]? with
  | some f =>
    if f.total = 1 ∧ f.frag = 0 then
      some ({ r with buf := r.buf.erase r.nextSeq, nextSeq := r.nextSeq + 1 }, f.data)
    else r.collectRun
  | none => r.collectRun

def deliver (r : ReliableReceiver) : ReliableReceiver × List Bytes :=
  Run.drain deliverNext r.buf.size r

/-- The part of `on_frame` after the checks: buffer, deliver, mark dead on overflow. -/
def accept (r : ReliableReceiver) (seq : U32) (f : RecvFragment (· < ·)) :
    ReliableReceiver × List Bytes :=
  let (r, delivered) := { r with buf := r.buf.insert seq f }.deliver
  (if maxRecvBuffer < r.buf.size then { r with dead := true } else r, delivered)

def onFrame (r : ReliableReceiver) (frame : Frame) : ReliableReceiver × List Bytes :=
  if r.dead then (r, [])
  else
    match frame.payload with
    | some (.data data) =>
      -- duplicates are answered too: the previous ACK may have been lost
      let r := { r with ackPending := true }
      if frame.seq < r.nextSeq then (r, [])
      else
        if h : frame.frag < frame.declaredTotal then
          r.accept frame.seq ⟨frame.msgId, frame.frag, frame.declaredTotal, data, h⟩
        else (r, [])
    | _ => (r, [])

def ackSeq (r : ReliableReceiver) : U32 := r.nextSeq - 1

def takeAck (r : ReliableReceiver) : ReliableReceiver × Option U32 :=
  ({ r with ackPending := false }, if r.ackPending then some r.ackSeq else none)

def isDead (r : ReliableReceiver) : Bool := r.dead

def intake (r : ReliableReceiver) : Intake (· < ·) := ⟨r.nextSeq, r.buf, r.dead⟩

/-- The plain comparison by which Rust drops what it has already delivered. -/
def admits (seq next : U32) : Bool := !decide (seq < next)

theorem positive : Intake.Positive (· < ·) := by
  intro t h
  simpa [BitVec.lt_def] using h

@[simp] theorem intake_nextSeq (r : ReliableReceiver) : r.intake.nextSeq = r.nextSeq := rfl

@[simp] theorem intake_new : new.intake = Intake.new := rfl

@[simp] theorem intake_takeAck (r : ReliableReceiver) : r.takeAck.1.intake = r.intake := rfl

theorem deliverNext_intake (r : ReliableReceiver) :
    r.intake.deliverNext = r.deliverNext.map (Prod.map intake id) := by
  have run : r.intake.deliverNext = r.collectRun.map (Prod.map intake id) := by
    unfold Intake.deliverNext collectRun
    rcases h : r.buf.collectRun r.nextSeq with _ | ⟨buf, data, total⟩ <;> simp [intake, h]
  unfold deliverNext
  rcases hf : r.buf[r.nextSeq]? with _ | f
  · exact run
  · by_cases hsingle : f.total = 1 ∧ f.frag = 0
    · have hrun := Buffer.collectRun_single hf hsingle.2 hsingle.1
      simp [hsingle, Intake.deliverNext, intake, hrun]
    · simpa only [if_neg hsingle] using run

theorem deliver_intake (r : ReliableReceiver) :
    r.intake.deliver = Prod.map intake id r.deliver :=
  Run.drain_map deliverNext_intake r.buf.size r

theorem accept_intake (r : ReliableReceiver) (seq : U32) (f : RecvFragment (· < ·)) :
    r.intake.accept seq f = Prod.map intake id (r.accept seq f) := by
  have hdeliver := deliver_intake { r with buf := r.buf.insert seq f }
  unfold accept Intake.accept
  rw [show ({ r.intake with buf := r.intake.buf.insert seq f } : Intake (· < ·)) =
    intake { r with buf := r.buf.insert seq f } from rfl, hdeliver]
  by_cases hfull : maxRecvBuffer < { r with buf := r.buf.insert seq f }.deliver.1.buf.size
  · simp [intake, hfull]
  · simp [intake, hfull]
    rfl

/-- The Rust receiver is the common intake with the plain comparison. -/
theorem onFrame_intake (r : ReliableReceiver) (frame : Frame) :
    r.intake.onFrame admits frame = Prod.map intake id (r.onFrame frame) := by
  unfold onFrame Intake.onFrame
  by_cases hdead : r.dead = true
  · simp [intake, hdead]
  · rcases hp : frame.payload with _ | (data | _ | _ | _)
    case some.data =>
      by_cases hold : frame.seq < r.nextSeq
      · simp [hdead, hold, admits, intake]
      · by_cases hfrag : frame.frag < frame.declaredTotal
        · have haccept := accept_intake { r with ackPending := true } frame.seq
            ⟨frame.msgId, frame.frag, frame.declaredTotal, data, hfrag⟩
          simpa [hdead, hold, admits, hfrag, intake] using haccept
        · simp [hdead, hold, admits, hfrag, intake]
    all_goals simp [hdead, intake]

end ReliableReceiver
end Kulua
