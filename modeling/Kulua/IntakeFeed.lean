import Kulua.Intake
import Kulua.Foundation.Serial

/-! A receiver that is handed the fragments of one message in order. It keeps all
fragments of an unfinished message, so whether it survives is a question of how
many fragments the message has (`MAX_RECV_BUFFER`) and of how far past its
delivery point it admits sequence numbers (`reach`). -/

namespace Kulua
open Foundation

namespace Intake

variable {Below : U32 → U32 → Prop}

/-- Frames handed over one after the other, with everything returned for them. -/
def feed (admits : U32 → U32 → Bool) [DecidableRel Below] :
    Intake Below → List Frame → Intake Below × List Bytes
  | r, [] => (r, [])
  | r, f :: fs =>
    let (r, out) := r.onFrame admits f
    let (r, rest) := feed admits r fs
    (r, out ++ rest)

/-- Nothing buffered, delivery point `q`. -/
structure Idle (q : U32) (r : Intake Below) : Prop where
  nextSeq : r.nextSeq = q
  alive : r.dead = false
  size : r.buf.size = 0
  empty : ∀ x : U32, r.buf[x]? = none

/-- The first `j` fragments of a message are buffered at the delivery point `q`. -/
structure Piled (q msgId : U32) (parts : List Bytes) (j : Nat) (r : Intake Below) : Prop where
  nextSeq : r.nextSeq = q
  size : r.buf.size = j
  entry : ∀ i < j, ∃ g, r.buf[q + BitVec.ofNat 32 i]? = some g ∧ g.msgId = msgId ∧
    g.frag = BitVec.ofNat 32 i ∧ g.total = BitVec.ofNat 32 parts.length ∧ parts[i]? = some g.data
  only : ∀ (x : U32) g, r.buf[x]? = some g → ∃ i < j, x = q + BitVec.ofNat 32 i

section Feed

variable (admits : U32 → U32 → Bool) [DecidableRel Below]

theorem feed_append (r : Intake Below) (fs gs : List Frame) :
    r.feed admits (fs ++ gs) = (((r.feed admits fs).1.feed admits gs).1,
      (r.feed admits fs).2 ++ ((r.feed admits fs).1.feed admits gs).2) := by
  induction fs generalizing r with
  | nil => rfl
  | cons f fs ih => simp [feed, ih]

/-- Frames that the receiver ignores change nothing. -/
theorem feed_ignored {r : Intake Below} {fs : List Frame}
    (h : ∀ f ∈ fs, r.onFrame admits f = (r, [])) : r.feed admits fs = (r, []) := by
  induction fs with
  | nil => rfl
  | cons f fs ih =>
      have hrest := ih fun g hg => h g (List.mem_cons_of_mem _ hg)
      simp only [feed, h f (List.mem_cons_self ..), hrest, List.append_nil]

theorem onFrame_refused {r : Intake Below} {f : Frame} (h : admits f.seq r.nextSeq = false) :
    r.onFrame admits f = (r, []) := by
  unfold onFrame
  split
  · rfl
  · split
    · simp [h]
    · rfl

end Feed

theorem idle_new : Idle 1 (Intake.new : Intake Below) :=
  ⟨rfl, rfl, rfl, fun x => by simp [Intake.new]⟩

theorem Idle.piled {q : U32} {r : Intake Below} (h : r.Idle q) (msgId : U32)
    (parts : List Bytes) : r.Piled q msgId parts 0 where
  nextSeq := h.nextSeq
  size := h.size
  entry i hi := absurd hi (Nat.not_lt_zero i)
  only x g hg := by simp [h.empty x] at hg

private theorem ofNat_inj_of_lt {q : U32} {i j : Nat} (hi : i < 2 ^ 32) (hj : j < 2 ^ 32)
    (h : q + BitVec.ofNat 32 i = q + BitVec.ofNat 32 j) : i = j :=
  Serial.ofNat_cancel (by omega) (by omega) ((BitVec.add_right_inj q).mp h)

variable {q msgId : U32} {parts : List Bytes} {j : Nat} {r : Intake Below}

/-- Fragment `j` arrives after the fragments before it. -/
theorem Piled.insert (h : r.Piled q msgId parts j) (hj : j < 2 ^ 32)
    {g : RecvFragment Below} (hid : g.msgId = msgId) (hfrag : g.frag = BitVec.ofNat 32 j)
    (htotal : g.total = BitVec.ofNat 32 parts.length) (hdata : parts[j]? = some g.data) :
    Piled q msgId parts (j + 1) { r with buf := r.buf.insert (q + BitVec.ofNat 32 j) g } where
  nextSeq := h.nextSeq
  size := by
    have fresh : r.buf.contains (q + BitVec.ofNat 32 j) = false := by
      rw [Std.TreeMap.contains_eq_isSome_getElem?]
      rcases hx : r.buf[q + BitVec.ofNat 32 j]? with _ | g'
      · rfl
      · obtain ⟨i, hi, he⟩ := h.only _ _ hx
        have := ofNat_inj_of_lt hj (by omega) he
        omega
    rw [Std.TreeMap.size_insert, if_neg (by simp [fresh]), h.size]
  entry i hi := by
    rw [Std.TreeMap.getElem?_insert]
    rcases Nat.lt_or_eq_of_le (Nat.le_of_lt_succ hi) with hlt | rfl
    · rw [if_neg]
      · exact h.entry i hlt
      · rw [Std.LawfulEqOrd.compare_eq_iff_eq]
        intro he
        have := ofNat_inj_of_lt hj (by omega) he
        omega
    · exact ⟨g, by simp, hid, hfrag, htotal, hdata⟩
  only x g' hg := by
    rw [Std.TreeMap.getElem?_insert] at hg
    split at hg
    · rename_i he
      rw [Std.LawfulEqOrd.compare_eq_iff_eq] at he
      exact ⟨j, by omega, he.symm⟩
    · obtain ⟨i, hi, hx⟩ := h.only x g' hg
      exact ⟨i, by omega, hx⟩

/-- An unfinished message is not delivered. -/
theorem Piled.deliver_none (h : r.Piled q msgId parts j) (hj : 0 < j)
    (hlt : j < parts.length) (hlen : parts.length < 2 ^ 31) : r.deliver = (r, []) := by
  refine Run.drain_none ?_ _
  obtain ⟨first, hfirst, hid, hfrag, htotal, -⟩ := h.entry 0 hj
  rw [BitVec.add_zero] at hfirst
  have missing : r.buf[q + BitVec.ofNat 32 (0 + j)]? = none := by
    rw [Nat.zero_add]
    rcases hx : r.buf[q + BitVec.ofNat 32 j]? with _ | g
    · rfl
    · obtain ⟨i, hi, he⟩ := h.only _ _ hx
      have := ofNat_inj_of_lt (by omega) (by omega) he
      omega
  have hcount : first.total.toNat = parts.length := by
    rw [htotal, BitVec.toNat_ofNat]
    omega
  have hpieces := Buffer.pieces_eq_none first.msgId hlt missing
  simp [deliverNext, Buffer.collectRun, h.nextSeq, hfirst, hcount, hpieces]

theorem Idle.deliverNext_none (h : r.Idle q) : r.deliverNext = none := by
  simp [deliverNext, Buffer.collectRun, h.empty]

/-- A finished message is taken out whole and leaves the buffer empty. -/
theorem Piled.deliverNext_some (h : r.Piled q msgId parts parts.length) (hpos : parts ≠ [])
    (hlen : parts.length < 2 ^ 31) (halive : r.dead = false) :
    ∃ r', r.deliverNext = some (r', parts.flatten) ∧
      Idle (q + BitVec.ofNat 32 parts.length) r' := by
  obtain ⟨ps, hps, hrun⟩ := Buffer.collectRun_complete
    (List.length_pos_iff.mpr hpos) (show parts.length < 2 ^ 32 by omega) fun i hi => by
      obtain ⟨g, hg, hgid, hgfrag, hgtotal, -⟩ := h.entry i hi
      exact ⟨g, hg, hgid, hgfrag, hgtotal⟩
  have hparts : ps = parts := by
    obtain ⟨hpsLen, hpiece⟩ := Buffer.pieces_eq_some hps
    apply List.ext_getElem?
    intro i
    rcases Nat.lt_or_ge i parts.length with hi | hi
    · obtain ⟨g, hg, -, -, hdata⟩ := hpiece i hi
      obtain ⟨g', hg', -, -, -, hdata'⟩ := h.entry i hi
      rw [Nat.zero_add, hg', Option.some.injEq] at hg
      rw [hdata, hdata', hg]
    · rw [List.getElem?_eq_none (by omega), List.getElem?_eq_none hi]
  subst hparts
  have hnext : r.buf.collectRun r.nextSeq =
      some (r.buf.removeRun q ps.length, ps.flatten, BitVec.ofNat 32 ps.length) := by
    rw [h.nextSeq, hrun]
  refine ⟨{ r with
    nextSeq := r.nextSeq + BitVec.ofNat 32 ps.length
    buf := r.buf.removeRun q ps.length }, by rw [deliverNext, hnext]; rfl, ?_, halive, ?_,
    fun x => ?_⟩
  · rw [h.nextSeq]
  · have hsize := Buffer.size_collectRun hrun
    rw [BitVec.toNat_ofNat, h.size] at hsize
    show (r.buf.removeRun q ps.length).size = 0
    omega
  · rw [Buffer.getElem?_removeRun]
    split
    · rfl
    · rename_i hx
      rcases hb : r.buf[x]? with _ | g
      · rfl
      · exact absurd (h.only x g hb) hx

theorem Piled.deliver_message (h : r.Piled q msgId parts parts.length) (hpos : parts ≠ [])
    (hlen : parts.length < 2 ^ 31) (halive : r.dead = false) :
    Idle (q + BitVec.ofNat 32 parts.length) r.deliver.1 ∧ r.deliver.2 = [parts.flatten] := by
  obtain ⟨r', hnext, hidle⟩ := h.deliverNext_some hpos hlen halive
  have hsize : r.buf.size = parts.length - 1 + 1 := by
    have := List.length_pos_iff.mpr hpos
    rw [h.size]
    omega
  have hdrain : r.deliver = (r', [parts.flatten]) := by
    rw [deliver, hsize, Run.drain_some hnext, Run.drain_none hidle.deliverNext_none]
  rw [hdrain]
  exact ⟨hidle, rfl⟩

/-- A receiver reads a fragment index below its total, for totals below `2^31`. -/
def IndexBelow (Below : U32 → U32 → Prop) : Prop :=
  ∀ i n, i < n → n < 2 ^ 31 → Below (BitVec.ofNat 32 i) (BitVec.ofNat 32 n)

variable (admits : U32 → U32 → Bool) [DecidableRel Below]

/-- Fragment `j` of the message is buffered; then the message is delivered if it is
complete, and the receiver dies if it still buffers more than the limit. -/
theorem Piled.onFrame (h : r.Piled q msgId parts j) (below : IndexBelow Below)
    (halive : r.dead = false) (hlen : parts.length < 2 ^ 31) (hj : j < parts.length)
    (hin : admits (q + BitVec.ofNat 32 j) q = true) {f : Frame}
    (hf : (fragments q msgId (BitVec.ofNat 32 parts.length) parts)[j]? = some f) :
    (j + 1 < parts.length → Piled q msgId parts (j + 1) (r.onFrame admits f).1 ∧
      (r.onFrame admits f).2 = [] ∧
      (r.onFrame admits f).1.dead = decide (maxRecvBuffer < j + 1)) ∧
    (j + 1 = parts.length → Idle (q + BitVec.ofNat 32 parts.length) (r.onFrame admits f).1 ∧
      (r.onFrame admits f).2 = [parts.flatten]) := by
  rw [getElem?_fragments] at hf
  obtain ⟨c, hc, rfl⟩ := Option.map_eq_some_iff.mp hf
  have htotal := Frame.declaredTotal_ctrlData (q + BitVec.ofNat 32 j) msgId (i := j) c
    (show 0 < parts.length by omega) (show parts.length < 2 ^ 32 by omega)
  have hbelow : Below (BitVec.ofNat 32 j) (BitVec.ofNat 32 parts.length) := below j _ hj hlen
  let g : RecvFragment Below := ⟨msgId, _, _, c, hbelow⟩
  have hstep : r.onFrame admits (Frame.ctrlData (q + BitVec.ofNat 32 j) msgId
      (BitVec.ofNat 32 parts.length) j c) = r.accept (q + BitVec.ofNat 32 j) g := by
    simp only [Intake.onFrame, halive, htotal]
    simp [Frame.ctrlData, h.nextSeq, hin, hbelow, g]
  have hnext := h.insert (by omega) (g := g) rfl rfl rfl hc
  rw [hstep, accept]
  -- the state after the insertion
  generalize hr' : ({ r with buf := r.buf.insert (q + BitVec.ofNat 32 j) g } : Intake Below) = r'
    at hnext ⊢
  have halive' : r'.dead = false := by rw [← hr']; exact halive
  constructor
  · intro hlt
    rw [hnext.deliver_none (by omega) hlt hlen]
    refine ⟨⟨hnext.nextSeq, hnext.size, hnext.entry, hnext.only⟩, rfl, ?_⟩
    simp only [halive', hnext.size, Bool.false_or]
  · intro heq
    rw [heq] at hnext
    obtain ⟨hidle, hout⟩ := hnext.deliver_message (by rintro rfl; simp at hj) hlen halive'
    refine ⟨⟨hidle.nextSeq, ?_, hidle.size, hidle.empty⟩, hout⟩
    simp [hidle.alive, hidle.size]

section Message

variable (msgId) (parts)

/-- The frames of one message that starts at `q`. -/
abbrev messageFrames (q : U32) : List Frame :=
  fragments q msgId (BitVec.ofNat 32 parts.length) parts

theorem feed_take_succ (r : Intake Below) (hj : j < parts.length) :
    ∃ f, (messageFrames msgId parts q)[j]? = some f ∧
      r.feed admits ((messageFrames msgId parts q).take (j + 1)) =
        (((r.feed admits ((messageFrames msgId parts q).take j)).1.onFrame admits f).1,
          (r.feed admits ((messageFrames msgId parts q).take j)).2 ++
            ((r.feed admits ((messageFrames msgId parts q).take j)).1.onFrame admits f).2) := by
  have hlt : j < (messageFrames msgId parts q).length := by
    rw [length_fragments]
    exact hj
  have hf := List.getElem?_eq_getElem hlt
  refine ⟨_, hf, ?_⟩
  rw [List.take_add_one, hf, Option.toList_some, feed_append]
  simp only [feed, List.append_nil]

variable {parts}

/-- As long as the message is unfinished and within the limit, its fragments pile up. -/
theorem Idle.feed_take (h : r.Idle q) (below : IndexBelow Below) (hlen : parts.length < 2 ^ 31)
    (hj : j < parts.length) (hcap : j ≤ maxRecvBuffer + 1)
    (hin : ∀ i < j, admits (q + BitVec.ofNat 32 i) q = true) :
    Piled q msgId parts j (r.feed admits ((messageFrames msgId parts q).take j)).1 ∧
      (r.feed admits ((messageFrames msgId parts q).take j)).2 = [] ∧
      (r.feed admits ((messageFrames msgId parts q).take j)).1.dead =
        decide (maxRecvBuffer < j) := by
  induction j with
  | zero => exact ⟨h.piled msgId parts, rfl, h.alive⟩
  | succ j ih =>
      obtain ⟨hpart, hout, hdead⟩ := ih (by omega) (by omega) fun i hi => hin i (by omega)
      rw [decide_eq_false (by omega)] at hdead
      obtain ⟨f, hf, hfeed⟩ := feed_take_succ msgId parts admits (q := q) r (j := j)
        (by omega)
      rw [hfeed, hout, List.nil_append]
      exact (hpart.onFrame admits below hdead hlen (by omega) (hin j (by omega)) hf).1 hj

/-- A message within the limit, all of it admitted, is delivered by its last fragment. -/
theorem Idle.feed_message (h : r.Idle q) (below : IndexBelow Below) (hpos : parts ≠ [])
    (hcap : parts.length ≤ maxRecvBuffer + 1)
    (hin : ∀ i < parts.length, admits (q + BitVec.ofNat 32 i) q = true) :
    Idle (q + BitVec.ofNat 32 parts.length) (r.feed admits (messageFrames msgId parts q)).1 ∧
      (r.feed admits (messageFrames msgId parts q)).2 = [parts.flatten] := by
  have hlen : parts.length < 2 ^ 31 := by
    simp only [maxRecvBuffer] at hcap
    omega
  obtain ⟨j, hj⟩ := Nat.exists_eq_add_one.mpr (List.length_pos_iff.mpr hpos)
  obtain ⟨hpart, hout, hdead⟩ := h.feed_take msgId admits below hlen (j := j) (by omega) (by omega)
    fun i hi => hin i (by omega)
  rw [decide_eq_false (by omega)] at hdead
  obtain ⟨f, hf, hfeed⟩ := feed_take_succ msgId parts admits (q := q) r (j := j)
    (by omega)
  have hall : (messageFrames msgId parts q).take (j + 1) = messageFrames msgId parts q := by
    rw [List.take_of_length_le]
    rw [length_fragments, hj]
  rw [← hall, hfeed, hout, List.nil_append]
  exact (hpart.onFrame admits below hdead hlen (by omega) (hin j (by omega)) hf).2 hj.symm

/-- A message of more than `MAX_RECV_BUFFER + 1` fragments kills the receiver. -/
theorem Idle.feed_overflow (h : r.Idle q) (below : IndexBelow Below)
    (hlen : parts.length < 2 ^ 31) (hcap : maxRecvBuffer + 1 < parts.length)
    (hin : ∀ i < maxRecvBuffer + 1, admits (q + BitVec.ofNat 32 i) q = true) :
    (r.feed admits (messageFrames msgId parts q)).1.dead = true ∧
      (r.feed admits (messageFrames msgId parts q)).2 = [] := by
  obtain ⟨-, hout, hdead⟩ := h.feed_take msgId admits below hlen hcap le_rfl hin
  have hdead : (r.feed admits
      ((messageFrames msgId parts q).take (maxRecvBuffer + 1))).1.dead = true := by
    rw [hdead]
    exact decide_eq_true (Nat.lt_succ_self _)
  rw [← List.take_append_drop (maxRecvBuffer + 1) (messageFrames msgId parts q), feed_append, hout,
    feed_ignored admits fun f _ => onFrame_dead admits hdead f]
  exact ⟨hdead, rfl⟩

/-- A message whose later fragments are refused is not delivered. -/
theorem Idle.feed_refused (h : r.Idle q) (below : IndexBelow Below)
    (hlen : parts.length < 2 ^ 31) (hj : j < parts.length) (hcap : j ≤ maxRecvBuffer + 1)
    (hin : ∀ i < j, admits (q + BitVec.ofNat 32 i) q = true)
    (hrefuse : ∀ i, j ≤ i → i < parts.length → admits (q + BitVec.ofNat 32 i) q = false) :
    (r.feed admits (messageFrames msgId parts q)).2 = [] := by
  obtain ⟨hpart, hout, -⟩ := h.feed_take msgId admits below hlen hj hcap hin
  rw [← List.take_append_drop j (messageFrames msgId parts q), feed_append, hout]
  rw [feed_ignored]
  · rfl
  · intro f hf
    obtain ⟨i, hi⟩ := List.getElem?_of_mem hf
    rw [List.getElem?_drop, getElem?_fragments] at hi
    obtain ⟨c, hc, rfl⟩ := Option.map_eq_some_iff.mp hi
    apply onFrame_refused
    rw [hpart.nextSeq]
    exact hrefuse (j + i) (by omega) (List.getElem?_eq_some_iff.mp hc).1

/-- How far past the delivery point sequence numbers are admitted. -/
def Reaches (admits : U32 → U32 → Bool) (reach : U32 → Nat) : Prop :=
  ∀ q i, i < 2 ^ 31 → admits (q + BitVec.ofNat 32 i) q = decide (i < reach q)

/-- Exactly when one message comes through. -/
theorem Idle.feed_iff (h : r.Idle q) (below : IndexBelow Below) {reach : U32 → Nat}
    (hreach : Reaches admits reach) (hlen : parts.length < 2 ^ 31) :
    ((r.feed admits (messageFrames msgId parts q)).2 = [parts.flatten] ∧
        (r.feed admits (messageFrames msgId parts q)).1.dead = false) ↔
      parts ≠ [] ∧ parts.length ≤ maxRecvBuffer + 1 ∧ parts.length ≤ reach q := by
  constructor
  · rintro ⟨hout, halive⟩
    have hpos : parts ≠ [] := by
      rintro rfl
      simp [feed] at hout
    refine ⟨hpos, ?_⟩
    by_contra hbad
    rcases Nat.lt_or_ge (maxRecvBuffer) (reach q) with hfar | hnear
    · rw [(h.feed_overflow msgId admits below hlen (by omega) fun i hi => ?_).2] at hout
      · cases hout
      · rw [hreach q i (by omega), decide_eq_true (by omega)]
    · rw [h.feed_refused msgId admits below hlen (j := reach q) (by omega) (by omega)
        (fun i hi => ?_) fun i hi hlt => ?_] at hout
      · cases hout
      · rw [hreach q i (by omega), decide_eq_true hi]
      · rw [hreach q i (by omega), decide_eq_false (by omega)]
  · rintro ⟨hpos, hcap, hfit⟩
    obtain ⟨hidle, hout⟩ := h.feed_message msgId admits below hpos hcap fun i hi => by
      rw [hreach q i (by omega), decide_eq_true (by omega)]
    exact ⟨hout, hidle.alive⟩

end Message

end Intake
end Kulua
