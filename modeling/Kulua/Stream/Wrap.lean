import Kulua.Stream.Net
import Kulua.ReceiverEquivalence

/-! The Rust ends of the control stream started at another sequence number, beside the
ends that start at 1. The sender counts on the ring; the receiver drops what is below the
next number in the plain order, which the wrap turns around. -/

namespace Kulua
open Foundation

private theorem add_swap (a b c : U32) : a + b + c = a + c + b := by bv_omega

def Frame.shift (d : U32) (f : Frame) : Frame := { f with seq := f.seq + d }

namespace Frame

variable (d : U32) (f : Frame)

@[simp] theorem shift_seq : (f.shift d).seq = f.seq + d := rfl
@[simp] theorem shift_msgId : (f.shift d).msgId = f.msgId := rfl
@[simp] theorem shift_frag : (f.shift d).frag = f.frag := rfl
@[simp] theorem shift_payload : (f.shift d).payload = f.payload := rfl
@[simp] theorem shift_declaredTotal : (f.shift d).declaredTotal = f.declaredTotal := rfl

end Frame

def OutEntry.shift (d : U32) (e : OutEntry) : OutEntry :=
  { e with seq := e.seq + d, wire := e.wire.shift d }

theorem fragments_shift (d base msgId total : U32) (parts : List Bytes) :
    fragments (base + d) msgId total parts =
      (fragments base msgId total parts).map (Frame.shift d) := by
  refine List.ext_getElem? fun i => ?_
  rw [List.getElem?_map, getElem?_fragments, getElem?_fragments, add_swap, Option.map_map]
  rfl

theorem OutEntry.shift_register (d : U32) (now : Nat) (f : Frame) :
    (OutEntry.register now f).shift d = OutEntry.register now (f.shift d) := rfl

namespace ReliableSender

def shift (d : U32) (s : ReliableSender) : ReliableSender :=
  { s with nextSeq := s.nextSeq + d, window := s.window.map (OutEntry.shift d) }

theorem sendFragments_shift (d : U32) (s : ReliableSender) (now : Nat) (msgId total : U32)
    (parts : List Bytes) :
    (s.shift d).sendFragments now msgId total parts =
      ((s.sendFragments now msgId total parts).1.shift d,
        (s.sendFragments now msgId total parts).2.map (Frame.shift d)) := by
  simp [sendFragments_eq, shift, fragments_shift, add_swap s.nextSeq d, Function.comp_def,
    OutEntry.shift_register]

theorem sendCtrlBytes_shift (d : U32) (s : ReliableSender) (now : Nat) (msgId : U32)
    (payload : Bytes) :
    (s.shift d).sendCtrlBytes now msgId payload =
      ((s.sendCtrlBytes now msgId payload).1.shift d,
        (s.sendCtrlBytes now msgId payload).2.map (Frame.shift d)) := by
  simp only [sendCtrlBytes_eq, sendFragments_shift]

theorem seqLe_shift (d a b : U32) : seqLe (a + d) (b + d) = seqLe a b := by
  have hsub : a + d - (b + d) = a - b := by bv_omega
  simp [seqLe, hsub]

theorem onAck_shift (d : U32) (s : ReliableSender) (a : U32) :
    (s.shift d).onAck (a + d) = (s.onAck a).shift d := by
  have hrest : (s.window.map (OutEntry.shift d)).dropWhile (fun e => seqLe e.seq (a + d)) =
      (s.window.dropWhile fun e => seqLe e.seq a).map (OutEntry.shift d) := by
    rw [List.dropWhile_map]
    simp only [Function.comp_def, OutEntry.shift, seqLe_shift]
  simp [onAck, shift, hrest]

theorem dueEntry_shift (d : U32) (now : Nat) (e : OutEntry) :
    dueEntry now (e.shift d) =
      ((dueEntry now e).1.shift d, (dueEntry now e).2.1.map (Frame.shift d),
        (dueEntry now e).2.2) := by
  by_cases due : rtoFor e.lossCount ≤ now - e.lastSent
  · by_cases lost : lossLimit < e.lossCount + 1 <;> simp [dueEntry, OutEntry.shift, due, lost]
  · simp [dueEntry, OutEntry.shift, due]

theorem dueTimeouts_shift (d : U32) (s : ReliableSender) (now : Nat) :
    (s.shift d).dueTimeouts now =
      ((s.dueTimeouts now).1.shift d, (s.dueTimeouts now).2.map (Frame.shift d)) := by
  simp [dueTimeouts, shift, dueEntry_shift, Function.comp_def, List.map_filterMap]

end ReliableSender

namespace Buffer

variable {Below : U32 → U32 → Prop}

/-- The same fragments under shifted sequence numbers. -/
def Shifted (d : U32) (buf buf' : Buffer Below) : Prop :=
  buf'.size = buf.size ∧ ∀ q : U32, buf'[q + d]? = buf[q]?

variable {d : U32} {buf buf' : Buffer Below}

theorem Shifted.contains (h : Shifted d buf buf') (q : U32) :
    buf'.contains (q + d) = buf.contains q := by
  rw [Std.TreeMap.contains_eq_isSome_getElem?, Std.TreeMap.contains_eq_isSome_getElem?, h.2]

theorem Shifted.insert (h : Shifted d buf buf') (q : U32) (f : RecvFragment Below) :
    Shifted d (buf.insert q f) (buf'.insert (q + d) f) := by
  constructor
  · simp only [Std.TreeMap.size_insert, h.contains, h.1]
  · intro p
    simp only [Std.TreeMap.getElem?_insert, Std.LawfulEqOrd.compare_eq_iff_eq,
      BitVec.add_left_inj, h.2]

theorem Shifted.erase (h : Shifted d buf buf') (q : U32) :
    Shifted d (buf.erase q) (buf'.erase (q + d)) := by
  constructor
  · simp only [Std.TreeMap.size_erase, h.contains, h.1]
  · intro p
    simp only [Std.TreeMap.getElem?_erase, Std.LawfulEqOrd.compare_eq_iff_eq,
      BitVec.add_left_inj, h.2]

theorem Shifted.removeRun (h : Shifted d buf buf') (start : U32) (n : Nat) :
    Shifted d (buf.removeRun start n) (buf'.removeRun (start + d) n) := by
  induction n with
  | zero => exact h
  | succ n ih =>
    rw [Buffer.removeRun, Buffer.removeRun, add_swap start d]
    exact ih.erase _

theorem Shifted.pieces (h : Shifted d buf buf') (start msgId : U32) (i n : Nat) :
    buf'.pieces (start + d) msgId i n = buf.pieces start msgId i n := by
  induction n generalizing i with
  | zero => rfl
  | succ n ih => rw [Buffer.pieces, Buffer.pieces, add_swap start d, h.2, ih]

theorem Shifted.collectRun (h : Shifted d buf buf') (next : U32) :
    Option.Rel (fun x y => Shifted d x.1 y.1 ∧ x.2 = y.2) (buf.collectRun next)
      (buf'.collectRun (next + d)) := by
  unfold Buffer.collectRun
  rw [h.2]
  cases buf[next]? with
  | none => exact .none
  | some first =>
    simp only [h.pieces]
    split
    · exact .none
    · cases buf.pieces next first.msgId 0 first.total.toNat with
      | none => exact .none
      | some ps => exact .some ⟨h.removeRun .., rfl⟩

end Buffer

namespace Intake

variable {Below : U32 → U32 → Prop} {d : U32} {r r' : Intake Below}

structure Shifted (d : U32) (r r' : Intake Below) : Prop where
  nextSeq : r'.nextSeq = r.nextSeq + d
  buf : Buffer.Shifted d r.buf r'.buf
  dead : r'.dead = r.dead

theorem Shifted.deliverNext (h : Shifted d r r') :
    Option.Rel (fun x y => Shifted d x.1 y.1 ∧ x.2 = y.2) r.deliverNext r'.deliverNext := by
  unfold Intake.deliverNext
  have hrun := h.buf.collectRun r.nextSeq
  rw [h.nextSeq]
  rcases hx : r.buf.collectRun r.nextSeq with _ | x <;>
    rcases hy : r'.buf.collectRun (r.nextSeq + d) with _ | y <;> rw [hx, hy] at hrun
  · exact .none
  · cases hrun
  · cases hrun
  · obtain ⟨hbuf, hsame⟩ := Option.rel_some_some.mp hrun
    refine .some ⟨⟨?_, hbuf, h.dead⟩, congrArg Prod.fst hsame⟩
    exact (congrArg (r.nextSeq + d + ·.2) hsame.symm).trans (add_swap ..)

theorem Shifted.accept (h : Shifted d r r') (seq : U32) (f : RecvFragment Below) :
    Shifted d (r.accept seq f).1 (r'.accept (seq + d) f).1 ∧
      (r.accept seq f).2 = (r'.accept (seq + d) f).2 := by
  have hins := h.buf.insert seq f
  have stored : Shifted d { r with buf := r.buf.insert seq f }
      { r' with buf := r'.buf.insert (seq + d) f } := ⟨h.nextSeq, hins, h.dead⟩
  have hdrain := Run.drain_related (fun _ _ h => h.deliverNext) (r.buf.insert seq f).size stored
  unfold Intake.accept deliver
  simp only [hins.1]
  exact ⟨⟨hdrain.1.nextSeq, hdrain.1.buf, by rw [hdrain.1.dead, hdrain.1.buf.1]⟩, hdrain.2⟩

theorem Shifted.onFrame [DecidableRel Below] (h : Shifted d r r') (admits : U32 → U32 → Bool)
    (frame : Frame) (alike : r.dead = false →
      admits (frame.seq + d) (r.nextSeq + d) = admits frame.seq r.nextSeq) :
    Shifted d (r.onFrame admits frame).1 (r'.onFrame admits (frame.shift d)).1 ∧
      (r.onFrame admits frame).2 = (r'.onFrame admits (frame.shift d)).2 := by
  rcases hdead : r.dead with _ | _
  · have hdead' : r'.dead = false := h.dead.trans hdead
    have htakes : r'.Takes admits (frame.shift d) ↔ r.Takes admits frame := by
      simp only [Takes, Frame.shift_seq, Frame.shift_frag, Frame.shift_declaredTotal, h.nextSeq,
        alike hdead]
    by_cases hdata : ∃ data, frame.payload = some (.data data)
    · obtain ⟨data, hdata⟩ := hdata
      have hdata' : (frame.shift d).payload = some (.data data) := hdata
      by_cases hin : r.Takes admits frame
      · have hin' := htakes.mpr hin
        rw [onFrame_accept admits hdead hdata hin.1 hin.2,
          onFrame_accept admits hdead' hdata' hin'.1 hin'.2]
        exact h.accept frame.seq _
      · rw [onFrame_not_takes hin, onFrame_not_takes fun h => hin (htakes.mp h)]
        exact ⟨h, rfl⟩
    · have hdata' : ¬∃ data, (frame.shift d).payload = some (.data data) := hdata
      rw [onFrame_not_data admits hdata, onFrame_not_data admits hdata']
      exact ⟨h, rfl⟩
  · rw [onFrame_dead admits hdead, onFrame_dead admits (h.dead.trans hdead)]
    exact ⟨h, rfl⟩

end Intake

namespace ReliableReceiver

theorem ackPending_deliver (r : ReliableReceiver) : r.deliver.1.ackPending = r.ackPending := by
  refine Run.drain_invariant (I := fun s : ReliableReceiver => s.ackPending = r.ackPending)
    (fun s s' b hs h => ?_) _ rfl
  have hrun : ∀ run, s.collectRun = some run → run.1.ackPending = s.ackPending := by
    intro run hrun
    unfold collectRun at hrun
    split at hrun
    · cases hrun
    · cases hrun
      rfl
  unfold deliverNext at h
  split at h
  · split at h
    · cases h
      exact hs
    · exact (hrun _ h).trans hs
  · exact (hrun _ h).trans hs

theorem ackPending_accept (r : ReliableReceiver) (seq : U32) (f : RecvFragment (· < ·)) :
    (r.accept seq f).1.ackPending = r.ackPending := by
  have h := ackPending_deliver { r with buf := r.buf.insert seq f }
  unfold accept
  dsimp only
  split <;> exact h

/-- Every DATA frame is answered while the receiver lives. -/
theorem ackPending_onFrame (r : ReliableReceiver) (frame : Frame) :
    (r.onFrame frame).1.ackPending =
      (r.ackPending || !r.dead && (frame.payload matches some (.data _))) := by
  unfold onFrame
  rcases hdead : r.dead with _ | _
  · rcases hp : frame.payload with _ | (data | _ | _ | _)
    case some.data =>
      simp only [Bool.false_eq_true, if_false]
      split_ifs <;> simp [ackPending_accept]
    all_goals simp
  · simp

end ReliableReceiver

namespace Stream
open Net

abbrev RustNet := Net ReliableSender ReliableReceiver

/-- Both ends start at sequence number `b`. -/
def startAt (b : U32) : RustNet := ⟨⟨b, [], false⟩, ⟨b, ∅, false, false⟩, [], [], [], []⟩

theorem startAt_one : startAt 1 = init rustSender rustReceiver := rfl

def Action.shift (d : U32) : Action → Action
  | foreignAck seq => foreignAck (seq + d)
  | a => a

/-- The second system is the first with other sequence numbers. -/
structure Shifted (d : U32) (n n' : RustNet) : Prop where
  sender : n'.sender = n.sender.shift d
  receiver : Intake.Shifted d n.receiver.intake n'.receiver.intake
  pending : n'.receiver.ackPending = n.receiver.ackPending
  wire : n'.wire = n.wire.map (Frame.shift d)
  acks : n'.acks = n.acks.map (· + d)
  delivered : n'.delivered = n.delivered

/-- Sequence number `q` comes before the wrap when the numbers are shifted by `d`. -/
def BeforeWrap (d q : U32) : Prop := q.toNat + d.toNat < 2 ^ 32

instance (d q : U32) : Decidable (BeforeWrap d q) := inferInstanceAs (Decidable (_ < _))

/-- The plain order is kept by a shift exactly on the numbers on one side of the wrap. -/
theorem shift_lt_iff (d p q : U32) :
    (p + d < q + d ↔ p < q) ↔ (BeforeWrap d p ↔ BeforeWrap d q) := by
  unfold BeforeWrap
  simp only [BitVec.lt_def, BitVec.toNat_add]
  have := p.isLt
  have := q.isLt
  have := d.isLt
  omega

/-- A frame reaches a live receiver on the side of the wrap where its next number is. -/
def SameSide (d : U32) (n : RustNet) : Action → Prop
  | .deliver i => ∀ f ∈ n.wire[i]?, n.receiver.dead = false →
      (BeforeWrap d f.seq ↔ BeforeWrap d n.receiver.nextSeq)
  | _ => True

instance (d : U32) (n : RustNet) (a : Action) : Decidable (SameSide d n a) :=
  match a with
  | .deliver i => inferInstanceAs (Decidable (∀ f ∈ n.wire[i]?, n.receiver.dead = false →
      (BeforeWrap d f.seq ↔ BeforeWrap d n.receiver.nextSeq)))
  | .send .. => isTrue trivial
  | .sendSplit .. => isTrue trivial
  | .timeouts _ => isTrue trivial
  | .emitAck => isTrue trivial
  | .ack _ => isTrue trivial
  | .foreignAck _ => isTrue trivial

variable {d : U32} {n n' : RustNet}

theorem shifted_startAt (d : U32) : Shifted d (startAt 1) (startAt (1 + d)) where
  sender := rfl
  receiver := ⟨rfl, ⟨rfl, fun q => by simp [startAt, ReliableReceiver.intake]⟩, rfl⟩
  pending := rfl
  wire := rfl
  acks := rfl
  delivered := rfl

theorem Shifted.emit (h : Shifted d n n') (payload : Bytes) {r r' : ReliableSender × List Frame}
    (hr : r' = (r.1.shift d, r.2.map (Frame.shift d))) :
    Shifted d (n.emit payload r) (n'.emit payload r') := by
  subst hr
  exact { h with
    sender := rfl
    wire := by simp [Net.emit, h.wire] }

theorem Shifted.onFrame (h : Shifted d n n') {f : Frame}
    (same : n.receiver.dead = false → (BeforeWrap d f.seq ↔ BeforeWrap d n.receiver.nextSeq)) :
    Shifted d
      { n with
        receiver := (n.receiver.onFrame f).1
        delivered := n.delivered ++ (n.receiver.onFrame f).2 }
      { n' with
        receiver := (n'.receiver.onFrame (f.shift d)).1
        delivered := n'.delivered ++ (n'.receiver.onFrame (f.shift d)).2 } := by
  have hframe := h.receiver.onFrame ReliableReceiver.admits f fun halive => by
    have hlt := (shift_lt_iff d f.seq n.receiver.nextSeq).mpr (same halive)
    exact congrArg Bool.not (decide_eq_decide.mpr hlt)
  rw [ReliableReceiver.onFrame_intake, ReliableReceiver.onFrame_intake] at hframe
  obtain ⟨hintake, hout⟩ := hframe
  exact { h with
    receiver := hintake
    pending := by
      have hdead : n'.receiver.dead = n.receiver.dead := h.receiver.dead
      rw [ReliableReceiver.ackPending_onFrame, ReliableReceiver.ackPending_onFrame, h.pending,
        hdead]
      rfl
    delivered := congrArg₂ (· ++ ·) h.delivered hout.symm }

theorem Shifted.onAck (h : Shifted d n n') (a : U32) :
    Shifted d { n with sender := n.sender.onAck a } { n' with sender := n'.sender.onAck (a + d) } :=
  { h with sender := by rw [h.sender, ReliableSender.onAck_shift] }

theorem Shifted.step (h : Shifted d n n') {a : Action} (same : SameSide d n a) :
    Shifted d (step rustSender rustReceiver n a)
      (step rustSender rustReceiver n' (a.shift d)) := by
  cases a with
  | send now msgId payload =>
    refine h.emit payload ?_
    rw [h.sender]
    exact ReliableSender.sendCtrlBytes_shift d n.sender now msgId payload
  | sendSplit now msgId parts =>
    refine h.emit parts.flatten ?_
    rw [h.sender]
    exact ReliableSender.sendFragments_shift d n.sender now msgId _ parts
  | timeouts now =>
    have hdue := ReliableSender.dueTimeouts_shift d n.sender now
    simp only [Net.step, Action.shift, rustSender, h.sender, hdue]
    exact { h with
      sender := rfl
      wire := by simp [h.wire] }
  | deliver i =>
    have hget : n'.wire[i]? = (n.wire[i]?).map (Frame.shift d) := by
      rw [h.wire, List.getElem?_map]
    simp only [Net.step, Action.shift, hget]
    cases hf : n.wire[i]? with
    | none => exact h
    | some f => exact h.onFrame (same f hf)
  | emitAck =>
    have hnext : n'.receiver.nextSeq = n.receiver.nextSeq + d := h.receiver.nextSeq
    refine { h with
      receiver := h.receiver
      pending := rfl
      acks := ?_ }
    simp only [Net.step, Action.shift, rustReceiver, ReliableReceiver.takeAck,
      ReliableReceiver.ackSeq, h.pending, hnext, h.acks]
    split
    · simp
      bv_omega
    · simp
  | ack i =>
    have hget : n'.acks[i]? = (n.acks[i]?).map (· + d) := by
      rw [h.acks, List.getElem?_map]
    simp only [Net.step, Action.shift, hget]
    cases n.acks[i]? with
    | none => exact h
    | some a => exact h.onAck a
  | foreignAck a => exact h.onAck a

/-- In a run whose frames all arrive on the side of the wrap where the receiver is, the ends
started at `b` deliver the same messages as those started at 1, and what they send,
acknowledge and release are the same fragments under numbers shifted by `b - 1`. -/
theorem wrap_transparent (b : U32) {actions : List Action}
    (same : Run.Along (step rustSender rustReceiver) (SameSide (b - 1)) (startAt 1) actions) :
    let n := Run.run (step rustSender rustReceiver) (startAt 1) actions
    let n' := Run.run (step rustSender rustReceiver) (startAt b) (actions.map (Action.shift (b - 1)))
    n'.delivered = n.delivered ∧ n'.wire = n.wire.map (Frame.shift (b - 1)) ∧
      n'.acks = n.acks.map (· + (b - 1)) ∧ n'.sender = n.sender.shift (b - 1) := by
  have start : Shifted (b - 1) (startAt 1) (startAt b) := by
    have h := shifted_startAt (b - 1)
    rwa [show (1 : U32) + (b - 1) = b by bv_omega] at h
  have h : Shifted (b - 1) (Run.run (step rustSender rustReceiver) (startAt 1) actions)
      (Run.run (step rustSender rustReceiver) (startAt b) (actions.map (Action.shift (b - 1)))) :=
    Run.related (fun _ _ _ h same => h.step same) start same
  exact ⟨h.delivered, h.wire, h.acks, h.sender⟩

/-- Two messages, the second first, and the ACK that releases both. -/
private def reordered : List Action :=
  [.send 0 1 [1], .send 0 2 [2], .deliver 1, .deliver 0, .emitAck, .ack 0]

/-- Far from the wrap. -/
theorem wrap_transparent_reordered :
    let n := Run.run (step rustSender rustReceiver) (startAt 1) reordered
    let n' := Run.run (step rustSender rustReceiver) (startAt 1000)
      (reordered.map (Action.shift (1000 - 1)))
    n'.delivered = n.delivered ∧ n'.wire = n.wire.map (Frame.shift (1000 - 1)) ∧
      n'.acks = n.acks.map (· + (1000 - 1)) ∧ n'.sender = n.sender.shift (1000 - 1) :=
  wrap_transparent 1000 (by decide)

/-- The second message has number 0 and is taken for an old one. -/
theorem wrap_drops_reordered :
    (Run.run (step rustSender rustReceiver) (startAt 1) reordered).delivered = [[1], [2]] ∧
      (Run.run (step rustSender rustReceiver) (startAt 0xFFFFFFFF)
        (reordered.map (Action.shift (0xFFFFFFFF - 1)))).delivered = [[1]] ∧
      (Run.run (step rustSender rustReceiver) (startAt 1) reordered).sender.window = [] ∧
      (Run.run (step rustSender rustReceiver) (startAt 0xFFFFFFFF)
        (reordered.map (Action.shift (0xFFFFFFFF - 1)))).sender.window ≠ [] := by
  decide

end Stream

end Kulua
