import Kulua.ReliableReceiver
import Kulua.ReliableControl
import Kulua.Presize.Chain

/-! The two receivers of the control stream as code that may not return: both make a
collection of the size that a fragment declares, and one too large ends the process or the
thread. `none` stands for a call that does not return. -/

namespace Kulua
open Foundation Intake

namespace ReliableReceiver

/-- The next iteration pre-sizes a vector beyond the limit: `pieces`, by the declared total,
or `out`, by the bytes of the complete message. -/
def overAllocates (r : ReliableReceiver) : Bool :=
  match r.buf[r.nextSeq]? with
  | none => false
  | some first =>
    if first.total = 1 ∧ first.frag = 0 then false
    else if first.frag ≠ 0 then false
    else if maxPresized < first.total.toNat then true
    else
      match r.buf.pieces r.nextSeq first.msgId 0 first.total.toNat with
      | none => false
      | some pieces => decide (maxPresized < (pieces.map List.length).sum)

def accept? (r : ReliableReceiver) (seq : U32) (f : RecvFragment (· < ·)) :
    Option (ReliableReceiver × List Bytes) :=
  let r := { r with buf := r.buf.insert seq f }
  (Run.attempt overAllocates deliverNext r.buf.size r).map fun (r, delivered) =>
    (if maxRecvBuffer < r.buf.size then { r with dead := true } else r, delivered)

/-- `on_frame`. -/
def onFrame? (r : ReliableReceiver) (frame : Frame) : Option (ReliableReceiver × List Bytes) :=
  if r.dead then some (r, [])
  else
    match frame.payload with
    | some (.data data) =>
      let r := { r with ackPending := true }
      if frame.seq < r.nextSeq then some (r, [])
      else
        if h : frame.frag < frame.declaredTotal then
          r.accept? frame.seq ⟨frame.msgId, frame.frag, frame.declaredTotal, data, h⟩
        else some (r, [])
    | _ => some (r, [])

theorem overAllocates_iff (r : ReliableReceiver) :
    r.overAllocates = true ↔ Bursts r.intake 0 := by
  have hdeclares : Declares r.intake 0 ↔
      ∃ f, r.buf[r.nextSeq]? = some f ∧ f.frag = 0 ∧ maxPresized < f.total.toNat := by
    rw [Declares, BitVec.add_zero]
    rfl
  have hspells : Spells r.intake 0 ↔ ∃ run, r.buf.collectRun r.nextSeq = some run ∧
      run.2.2 ≠ 1 ∧ maxPresized < run.2.1.length := by
    rw [Spells, BitVec.add_zero]
    rfl
  rw [Bursts, hdeclares, hspells, overAllocates, Buffer.collectRun]
  rcases hf : r.buf[r.nextSeq]? with _ | f
  · simp
  · by_cases hfrag : f.frag = 0#32
    · by_cases htotal : f.total = 1#32
      · simp [hfrag, htotal, maxPresized]
      · by_cases hlarge : maxPresized < f.total.toNat
        · simp [hfrag, htotal, hlarge]
        · rcases hp : r.buf.pieces r.nextSeq f.msgId 0 f.total.toNat with _ | ps
          · simp [hfrag, htotal, hlarge, hp]
          · simp [hfrag, htotal, hlarge, hp, List.length_flatten]
    · simp [hfrag]

/-- The fragment that a frame adds leads the loop, over complete messages, to a message that
is too large. -/
theorem accept?_eq_none {r : ReliableReceiver} {seq : U32} {f : RecvFragment (· < ·)}
    (hsize : (r.buf.insert seq f).size ≤ 2 ^ 31) :
    r.accept? seq f = none ↔ ∃ k, Filled { r.intake with buf := r.buf.insert seq f } k ∧
      Bursts { r.intake with buf := r.buf.insert seq f } k := by
  have hattempt := attempt_eq_none (s := { r with buf := r.buf.insert seq f }) positive
    deliverNext_intake overAllocates_iff (fun _ _ => Bursts.size_pos) (fun _ _ _ => At.bursts) hsize
  rw [accept?, Option.map_eq_none_iff]
  exact hattempt

theorem accept?_eq_some {r : ReliableReceiver} {seq : U32} {f : RecvFragment (· < ·)}
    {out : ReliableReceiver × List Bytes} (h : r.accept? seq f = some out) :
    out = r.accept seq f := by
  obtain ⟨x, hx, rfl⟩ := Option.map_eq_some_iff.mp h
  rw [accept, deliver, Run.attempt_eq_some hx]

theorem onFrame?_stores {r : ReliableReceiver} {frame : Frame} {data : Bytes}
    (halive : r.dead = false) (hdata : frame.payload = some (.data data))
    (hadmits : ¬frame.seq < r.nextSeq) (hbelow : frame.frag < frame.declaredTotal) :
    let f : RecvFragment (· < ·) := ⟨frame.msgId, frame.frag, frame.declaredTotal, data, hbelow⟩
    r.onFrame? frame = accept? { r with ackPending := true } frame.seq f ∧
      r.onFrame frame = accept { r with ackPending := true } frame.seq f := by
  simp only [onFrame?, onFrame, halive, hdata, hadmits, hbelow, if_false, dif_pos,
    Bool.false_eq_true, and_self]

theorem onFrame?_other {r : ReliableReceiver} {frame : Frame}
    (h : ¬r.intake.Stores admits frame) : r.onFrame? frame = some (r.onFrame frame) := by
  unfold onFrame? onFrame
  by_cases hdead : r.dead = true
  · rw [if_pos hdead, if_pos hdead]
  · rw [if_neg hdead, if_neg hdead]
    rcases hp : frame.payload with _ | (data | _ | _ | _)
    case some.data =>
      by_cases hold : frame.seq < r.nextSeq
      · simp only [hold, if_true]
      · by_cases hbelow : frame.frag < frame.declaredTotal
        · have hadmits : admits frame.seq r.nextSeq = true := by
            rw [admits, decide_eq_false hold]
            rfl
          exact absurd ⟨Bool.eq_false_iff.mpr hdead, ⟨data, hp⟩, hadmits, hbelow⟩ h
        · simp only [hold, if_false, hbelow, dif_neg, not_false_iff]
    all_goals rfl

/-- A call does not return exactly when its frame overruns the buffer; one that returns is
the call of the total model. -/
theorem onFrame?_eq {r : ReliableReceiver} (hsize : r.dead = false → r.buf.size ≤ maxRecvBuffer)
    (frame : Frame) :
    (r.onFrame? frame = none ↔ r.intake.Overruns admits Bursts frame) ∧
      ∀ out, r.onFrame? frame = some out → out = r.onFrame frame := by
  by_cases h : r.intake.Stores admits frame
  · obtain ⟨data, hdata⟩ := h.data
    have hadmits : ¬frame.seq < r.nextSeq := by
      intro hold
      have hadmits : (!decide (frame.seq < r.nextSeq)) = true := h.admitted
      rw [decide_eq_true hold] at hadmits
      cases hadmits
    obtain ⟨htry, htotal⟩ := onFrame?_stores h.alive hdata hadmits h.below
    have hnone := accept?_eq_none (r := { r with ackPending := true })
      (size_insert_le (hsize h.alive) frame.seq
        ⟨frame.msgId, frame.frag, frame.declaredTotal, data, h.below⟩)
    rw [htry, htotal]
    exact ⟨h.overruns_iff hdata hnone, fun out => accept?_eq_some⟩
  · rw [onFrame?_other h]
    exact ⟨overruns_iff_of_not_stores h _, fun out hout => (Option.some.inj hout).symm⟩

end ReliableReceiver

namespace ReliableControl.Receiver

/-- The next iteration makes the list `run` with a size beyond the limit, or a negative one. -/
def overAllocates (r : Receiver) : Bool :=
  match r.buf[r.nextSeq]? with
  | none => false
  | some first =>
    if first.frag = 0 ∧ first.total = 1 then false
    else if first.frag ≠ 0 then false
    else decide (first.total.toInt < 0 ∨ (maxPresized : Int) < first.total.toInt)

def accept? (r : Receiver) (seq : U32) (f : RecvFragment fun a b => a.slt b) :
    Option (Receiver × List Bytes) :=
  let r := { r with buf := r.buf.insert seq f }
  (Run.attempt overAllocates deliverNext r.buf.size r).map fun (r, delivered) =>
    (if maxRecvBuffer < r.buf.size then { r with dead := true } else r, delivered)

/-- `onFrame`. -/
def onFrame? (r : Receiver) (frame : Frame) : Option (Receiver × List Bytes) :=
  if r.dead then some (r, [])
  else
    match frame.payload with
    | some (.data data) =>
      if !inWindow frame.seq r.nextSeq then some (r, [])
      else if h : frame.frag.slt frame.declaredTotal then
        r.accept? frame.seq ⟨frame.msgId, frame.frag, frame.declaredTotal, data, h⟩
      else some (r, [])
    | _ => some (r, [])

theorem overAllocates_iff (r : Receiver) : r.overAllocates = true ↔ Declares r.intake 0 := by
  have hdeclares : Declares r.intake 0 ↔
      ∃ f, r.buf[r.nextSeq]? = some f ∧ f.frag = 0 ∧ maxPresized < f.total.toNat := by
    rw [Declares, BitVec.add_zero]
    rfl
  rw [hdeclares, overAllocates]
  rcases hf : r.buf[r.nextSeq]? with _ | f
  · simp
  · by_cases hfrag : f.frag = 0#32
    · by_cases htotal : f.total = 1#32
      · simp [hfrag, htotal, maxPresized]
      · -- an index of zero is below its total, which is positive then
        have hbelow : (0 : U32).slt f.total = true := by simpa [hfrag] using f.frag_below
        have hpos := positive f.total hbelow
        have hsigned := toInt_toNat_of_zero_slt hbelow
        have hint : f.total.toInt = (f.total.toNat : Int) := by omega
        simp [hfrag, htotal, hint]
    · simp [hfrag]

/-- The fragment that a frame adds leads the loop, over complete messages, to one that starts
a message too large. -/
theorem accept?_eq_none {r : Receiver} {seq : U32} {f : RecvFragment fun a b => a.slt b}
    (hsize : (r.buf.insert seq f).size ≤ 2 ^ 31) :
    r.accept? seq f = none ↔ ∃ k, Filled { r.intake with buf := r.buf.insert seq f } k ∧
      Declares { r.intake with buf := r.buf.insert seq f } k := by
  have hattempt := attempt_eq_none (s := { r with buf := r.buf.insert seq f }) positive
    deliverNext_intake overAllocates_iff (fun _ _ => Declares.size_pos)
    (fun _ _ _ => At.declares) hsize
  rw [accept?, Option.map_eq_none_iff]
  exact hattempt

theorem accept?_eq_some {r : Receiver} {seq : U32} {f : RecvFragment fun a b => a.slt b}
    {out : Receiver × List Bytes} (h : r.accept? seq f = some out) : out = r.accept seq f := by
  obtain ⟨x, hx, rfl⟩ := Option.map_eq_some_iff.mp h
  rw [accept, deliver, Run.attempt_eq_some hx]

theorem onFrame?_stores {r : Receiver} {frame : Frame} {data : Bytes}
    (halive : r.dead = false) (hdata : frame.payload = some (.data data))
    (hadmits : inWindow frame.seq r.nextSeq = true)
    (hbelow : frame.frag.slt frame.declaredTotal = true) :
    let f : RecvFragment fun a b => a.slt b :=
      ⟨frame.msgId, frame.frag, frame.declaredTotal, data, hbelow⟩
    r.onFrame? frame = r.accept? frame.seq f ∧ r.onFrame frame = r.accept frame.seq f := by
  simp only [onFrame?, onFrame, halive, hdata, hadmits, hbelow, dif_pos, Bool.not_true,
    Bool.false_eq_true, if_false, and_self]

theorem onFrame?_other {r : Receiver} {frame : Frame}
    (h : ¬r.intake.Stores inWindow frame) : r.onFrame? frame = some (r.onFrame frame) := by
  unfold onFrame? onFrame
  by_cases hdead : r.dead = true
  · rw [if_pos hdead, if_pos hdead]
  · rw [if_neg hdead, if_neg hdead]
    rcases hp : frame.payload with _ | (data | _ | _ | _)
    case some.data =>
      by_cases hadmits : inWindow frame.seq r.nextSeq = true
      · by_cases hbelow : frame.frag.slt frame.declaredTotal = true
        · exact absurd ⟨Bool.eq_false_iff.mpr hdead, ⟨data, hp⟩, hadmits, hbelow⟩ h
        · simp only [hadmits, Bool.not_true, Bool.false_eq_true, if_false, hbelow, dif_neg,
            not_false_iff]
      · simp only [Bool.not_eq_true _ ▸ hadmits, Bool.not_false, if_true]
    all_goals rfl

/-- A call does not return exactly when its frame overruns the buffer; one that returns is
the call of the total model. -/
theorem onFrame?_eq {r : Receiver} (hsize : r.dead = false → r.buf.size ≤ maxRecvBuffer)
    (frame : Frame) :
    (r.onFrame? frame = none ↔ r.intake.Overruns inWindow Declares frame) ∧
      ∀ out, r.onFrame? frame = some out → out = r.onFrame frame := by
  by_cases h : r.intake.Stores inWindow frame
  · obtain ⟨data, hdata⟩ := h.data
    obtain ⟨htry, htotal⟩ := onFrame?_stores h.alive hdata h.admitted h.below
    have hnone := accept?_eq_none (r := r) (size_insert_le (hsize h.alive) frame.seq
      ⟨frame.msgId, frame.frag, frame.declaredTotal, data, h.below⟩)
    rw [htry, htotal]
    exact ⟨h.overruns_iff hdata hnone, fun out => accept?_eq_some⟩
  · rw [onFrame?_other h]
    exact ⟨overruns_iff_of_not_stores h _, fun out hout => (Option.some.inj hout).symm⟩

end ReliableControl.Receiver
end Kulua
