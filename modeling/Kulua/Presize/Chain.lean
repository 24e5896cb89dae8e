import Kulua.Intake
import Kulua.Foundation.Attempt

/-! How far the delivery loop of a receiver comes, read off the buffer that it starts from:
over messages that are complete there, one behind the other. -/

namespace Kulua.Intake
open Foundation

variable {Below : U32 → U32 → Prop}

/-- The first `k` numbers from the delivery point on belong to complete messages. -/
inductive Filled (r : Intake Below) : Nat → Prop where
  | start : Filled r 0
  | message {k : Nat} {run : Buffer Below × Bytes × U32} : Filled r k →
      r.buf.collectRun (r.nextSeq + BitVec.ofNat 32 k) = some run →
        Filled r (k + run.2.2.toNat)

/-- The receiver `t` is `r` without the first `k` numbers. -/
structure At (r : Intake Below) (k : Nat) (t : Intake Below) : Prop where
  nextSeq : t.nextSeq = r.nextSeq + BitVec.ofNat 32 k
  size : t.buf.size + k = r.buf.size
  lookup : ∀ q : U32, t.buf[q]? =
    if ∃ i < k, q = r.nextSeq + BitVec.ofNat 32 i then none else r.buf[q]?

theorem at_zero (r : Intake Below) : At r 0 r := ⟨by simp, rfl, by simp⟩

/-- As many fragments as are found one behind the other are in the buffer. -/
theorem length_pieces_le {buf : Buffer Below} {start msgId : U32} {n : Nat} {ps : List Bytes}
    (hn : n ≤ 2 ^ 32) (h : buf.pieces start msgId 0 n = some ps) : n ≤ buf.size := by
  have hsize := Buffer.size_removeRun hn fun i hi => by
    obtain ⟨f, hf, -⟩ := (Buffer.pieces_eq_some h).2 i hi
    rw [Nat.zero_add] at hf
    rw [hf, Option.isSome_some]
  omega

theorem size_insert_le {buf : Buffer Below} (hsize : buf.size ≤ maxRecvBuffer) (seq : U32)
    (f : RecvFragment Below) : (buf.insert seq f).size ≤ 2 ^ 31 := by
  have hinsert : (buf.insert seq f).size ≤ buf.size + 1 := Std.TreeMap.size_insert_le
  simp only [maxRecvBuffer] at hsize
  omega

variable {r t : Intake Below} {k : Nat}

theorem At.get (at_ : At r k t) {j : Nat} (hj : k + j < 2 ^ 32) :
    t.buf[t.nextSeq + BitVec.ofNat 32 j]? =
      r.buf[r.nextSeq + BitVec.ofNat 32 k + BitVec.ofNat 32 j]? := by
  rw [at_.lookup, if_neg, at_.nextSeq]
  rintro ⟨i, hi, heq⟩
  rw [at_.nextSeq, BitVec.add_assoc, ← BitVec.ofNat_add, BitVec.add_right_inj] at heq
  have hnat := congrArg BitVec.toNat heq
  simp only [BitVec.toNat_ofNat] at hnat
  omega

theorem At.pieces (at_ : At r k t) (msgId : U32) {i n : Nat} (hn : k + (i + n) ≤ 2 ^ 32) :
    t.buf.pieces t.nextSeq msgId i n =
      r.buf.pieces (r.nextSeq + BitVec.ofNat 32 k) msgId i n := by
  induction n generalizing i with
  | zero => rfl
  | succ n ih => rw [Buffer.pieces, Buffer.pieces, at_.get (by omega), ih (by omega)]

/-- The message at the delivery point of `t` is the one behind the first `k` numbers of `r`. -/
theorem At.collectRun (at_ : At r k t) (hsize : r.buf.size ≤ 2 ^ 31) :
    (t.buf.collectRun t.nextSeq).map Prod.snd =
      (r.buf.collectRun (r.nextSeq + BitVec.ofNat 32 k)).map Prod.snd := by
  have hk := at_.size
  have hfirst := at_.get (j := 0) (by omega)
  rw [BitVec.add_zero, BitVec.add_zero] at hfirst
  rw [Buffer.collectRun, Buffer.collectRun, hfirst]
  rcases hf : r.buf[r.nextSeq + BitVec.ofNat 32 k]? with _ | first
  · rfl
  · by_cases hfrag : first.frag = 0
    · have hlt := first.total.isLt
      have hpieces : t.buf.pieces t.nextSeq first.msgId 0 first.total.toNat =
          r.buf.pieces (r.nextSeq + BitVec.ofNat 32 k) first.msgId 0 first.total.toNat := by
        by_cases hn : k + (0 + first.total.toNat) ≤ 2 ^ 32
        · exact at_.pieces first.msgId hn
        · -- so many fragments are in neither of the buffers
          have none_of {buf : Buffer Below} (start : U32) (hbuf : buf.size ≤ 2 ^ 31) :
              buf.pieces start first.msgId 0 first.total.toNat = none := by
            rcases hp : buf.pieces start first.msgId 0 first.total.toNat with _ | ps
            · rfl
            · have := length_pieces_le hlt.le hp
              omega
          rw [none_of _ hsize, none_of _ (by omega)]
      simp only [hfrag, ne_eq, not_true, if_false, hpieces, Option.map_map]
      rfl
    · simp only [ne_eq, hfrag, not_false_iff, if_true, Option.map_none]

theorem exists_lt_add {P : Nat → Prop} {k n : Nat} :
    (∃ i < k + n, P i) ↔ (∃ i < n, P (k + i)) ∨ ∃ i < k, P i := by
  constructor
  · rintro ⟨i, hi, h⟩
    rcases Nat.lt_or_ge i k with hlt | hge
    · exact Or.inr ⟨i, hlt, h⟩
    · exact Or.inl ⟨i - k, by omega, by rwa [Nat.add_sub_cancel' hge]⟩
  · rintro (⟨i, hi, h⟩ | ⟨i, hi, h⟩)
    · exact ⟨k + i, by omega, h⟩
    · exact ⟨i, by omega, h⟩

/-- An iteration of the loop goes on by one complete message. -/
theorem At.deliverNext (at_ : At r k t) {t' : Intake Below} {data : Bytes}
    (h : t.deliverNext = some (t', data)) :
    ∃ run, t.buf.collectRun t.nextSeq = some run ∧ At r (k + run.2.2.toNat) t' := by
  obtain ⟨total, hrun, ht'⟩ := deliverNext_eq_some h
  refine ⟨_, hrun, ?_, ?_, ?_⟩
  · rw [ht', at_.nextSeq, BitVec.ofNat_add, BitVec.ofNat_toNat, BitVec.setWidth_eq,
      BitVec.add_assoc]
  · have := Buffer.size_collectRun hrun
    have := at_.size
    simp only
    omega
  · intro q
    obtain ⟨first, ps, -, -, -, -, -, hbuf⟩ := Buffer.collectRun_eq_some hrun
    rw [hbuf, Buffer.getElem?_removeRun, at_.lookup, at_.nextSeq]
    simp only [BitVec.add_assoc, ← BitVec.ofNat_add, exists_lt_add]
    by_cases hrun : ∃ i < total.toNat, q = r.nextSeq + BitVec.ofNat 32 (k + i)
    · simp only [hrun, true_or, if_true]
    · simp only [hrun, false_or, if_false]

/-- The states of the loop are those behind the numbers that complete messages fill. -/
theorem at_of_path (hsize : r.buf.size ≤ 2 ^ 31)
    (path : Relation.ReflTransGen (Run.Leads deliverNext) r t) : ∃ k, Filled r k ∧ At r k t := by
  induction path with
  | refl => exact ⟨0, .start, at_zero r⟩
  | tail _ leads ih =>
      obtain ⟨k, filled, at_⟩ := ih
      obtain ⟨data, hnext⟩ := leads
      obtain ⟨run, hrun, hat⟩ := at_.deliverNext hnext
      have hsame := at_.collectRun hsize
      rw [hrun, Option.map_some] at hsame
      obtain ⟨run', hrun', heq⟩ := Option.map_eq_some_iff.mp hsame.symm
      rw [← heq] at hat
      exact ⟨_, filled.message hrun', hat⟩

theorem path_of_filled (hsize : r.buf.size ≤ 2 ^ 31) (filled : Filled r k) :
    ∃ t, Relation.ReflTransGen (Run.Leads deliverNext) r t ∧ At r k t := by
  induction filled with
  | start => exact ⟨r, .refl, at_zero r⟩
  | @message k run _ hrun ih =>
      obtain ⟨t, path, at_⟩ := ih
      have hsame := at_.collectRun hsize
      rw [hrun, Option.map_some] at hsame
      obtain ⟨run', hrun', heq⟩ := Option.map_eq_some_iff.mp hsame
      have hnext : t.deliverNext = some ({ t with
          nextSeq := t.nextSeq + run'.2.2, buf := run'.1 }, run'.2.1) := by
        rw [Intake.deliverNext, hrun', Option.map_some]
      obtain ⟨run'', hrun'', hat⟩ := at_.deliverNext hnext
      rw [hrun'] at hrun''
      cases hrun''
      have htotal : run'.2.2.toNat = run.2.2.toNat := by rw [heq]
      rw [htotal] at hat
      exact ⟨_, path.tail ⟨_, hnext⟩, hat⟩

/-- The largest size that a collection is made with beforehand. -/
def maxPresized : Nat := 2 ^ 28

/-- Behind the first `k` numbers a fragment starts a message of more than the largest size. -/
def Declares (r : Intake Below) (k : Nat) : Prop :=
  ∃ f, r.buf[r.nextSeq + BitVec.ofNat 32 k]? = some f ∧ f.frag = 0 ∧ maxPresized < f.total.toNat

/-- Behind the first `k` numbers a message of several fragments, more bytes than the largest
size, is complete. -/
def Spells (r : Intake Below) (k : Nat) : Prop :=
  ∃ run, r.buf.collectRun (r.nextSeq + BitVec.ofNat 32 k) = some run ∧ run.2.2 ≠ 1 ∧
    maxPresized < run.2.1.length

/-- One of the two. -/
def Bursts (r : Intake Below) (k : Nat) : Prop := Declares r k ∨ Spells r k

theorem At.declares (at_ : At r k t) (hsize : r.buf.size ≤ 2 ^ 31) :
    Declares t 0 ↔ Declares r k := by
  have hk := at_.size
  have hfirst := at_.get (j := 0) (by omega)
  rw [BitVec.add_zero (r.nextSeq + BitVec.ofNat 32 k)] at hfirst
  rw [Declares, Declares, hfirst]

theorem At.spells (at_ : At r k t) (hsize : r.buf.size ≤ 2 ^ 31) : Spells t 0 ↔ Spells r k := by
  have hsame := at_.collectRun hsize
  unfold Spells
  rw [BitVec.add_zero]
  rcases h : t.buf.collectRun t.nextSeq with _ | run <;>
    rcases h' : r.buf.collectRun (r.nextSeq + BitVec.ofNat 32 k) with _ | run' <;>
    rw [h, h'] at hsame <;> simp_all

theorem At.bursts (at_ : At r k t) (hsize : r.buf.size ≤ 2 ^ 31) : Bursts t 0 ↔ Bursts r k :=
  or_congr (at_.declares hsize) (at_.spells hsize)

theorem size_pos_of_get {q : U32} {f : RecvFragment Below} (h : r.buf[q]? = some f) :
    0 < r.buf.size := by
  have hmem : r.buf.contains q = true := by
    rw [Std.TreeMap.contains_eq_isSome_getElem?, h, Option.isSome_some]
  have := Keyed.size_erase_add_one hmem
  omega

theorem Declares.size_pos (h : Declares r k) : 0 < r.buf.size := by
  obtain ⟨f, hf, -⟩ := h
  exact size_pos_of_get hf

theorem Spells.size_pos (h : Spells r k) : 0 < r.buf.size := by
  obtain ⟨run, hrun, -⟩ := h
  obtain ⟨first, -, hfirst, -⟩ := Buffer.collectRun_eq_some hrun
  exact size_pos_of_get hfirst

theorem Bursts.size_pos (h : Bursts r k) : 0 < r.buf.size :=
  h.elim Declares.size_pos Spells.size_pos

section Attempt

variable {ρ : Type*} {intake : ρ → Intake Below} {next : ρ → Option (ρ × Bytes)}
  {fails : ρ → Bool} {P : Intake Below → Nat → Prop}

/-- The loop of a receiver fails exactly when the numbers that complete messages fill lead to
a place where it fails. -/
theorem attempt_eq_none (pos : Positive Below)
    (corr : ∀ s, (intake s).deliverNext = (next s).map (Prod.map intake id))
    (hfails : ∀ s, fails s = true ↔ P (intake s) 0) (room : ∀ s k, P s k → 0 < s.buf.size)
    (shift : ∀ r k t, At r k t → r.buf.size ≤ 2 ^ 31 → (P t 0 ↔ P r k)) {s : ρ}
    (hsize : (intake s).buf.size ≤ 2 ^ 31) :
    Run.attempt fails next (intake s).buf.size s = none ↔
      ∃ k, Filled (intake s) k ∧ P (intake s) k := by
  have decrease : ∀ s s' b, next s = some (s', b) → (intake s').buf.size < (intake s).buf.size := by
    intro s s' b h
    have hnext : (intake s).deliverNext = some (intake s', b) := by
      rw [corr, h]
      rfl
    exact size_deliverNext pos hnext
  rw [Run.attempt_eq_none (fun s => (intake s).buf.size) decrease
    (fun s h => room _ _ ((hfails s).mp h)) le_rfl]
  simp only [hfails]
  rw [Run.exists_leads_map corr (fun t => P t 0)]
  constructor
  · rintro ⟨t, hpath, ht⟩
    obtain ⟨k, filled, hat⟩ := at_of_path hsize hpath
    exact ⟨k, filled, (shift _ _ _ hat hsize).mp ht⟩
  · rintro ⟨k, filled, hk⟩
    obtain ⟨t, hpath, hat⟩ := path_of_filled hsize filled
    exact ⟨t, hpath, (shift _ _ _ hat hsize).mpr hk⟩

end Attempt

/-- The buffer keeps to its limit while the receiver is alive. -/
def Bounded (r : Intake Below) : Prop := r.dead = false → r.buf.size ≤ maxRecvBuffer

theorem bounded_new : (new : Intake Below).Bounded := fun _ => Nat.zero_le _

section Frame

variable (admits : U32 → U32 → Bool) [DecidableRel Below]

/-- The frame brings a fragment that goes into the buffer. -/
structure Stores (r : Intake Below) (frame : Frame) : Prop where
  alive : r.dead = false
  data : ∃ data, frame.payload = some (.data data)
  admitted : admits frame.seq r.nextSeq = true
  below : Below frame.frag frame.declaredTotal

/-- With the fragment of the frame, complete messages lead from the delivery point to a
place with the property. -/
def Overruns (P : Intake Below → Nat → Prop) (r : Intake Below) (frame : Frame) : Prop :=
  r.Stores admits frame ∧ ∃ k, Filled (r.stored admits frame) k ∧ P (r.stored admits frame) k

variable {admits}

theorem stored_eq {frame : Frame} {data : Bytes} (hdata : frame.payload = some (.data data))
    (hadmits : admits frame.seq r.nextSeq = true) (hbelow : Below frame.frag frame.declaredTotal) :
    r.stored admits frame = { r with
      buf := r.buf.insert frame.seq
        ⟨frame.msgId, frame.frag, frame.declaredTotal, data, hbelow⟩ } := by
  simp [stored, hdata, hadmits, hbelow]

/-- A frame that is stored ends the call exactly when it overruns the buffer. -/
theorem Stores.overruns_iff {P : Intake Below → Nat → Prop} {β : Type*} {frame : Frame}
    (h : r.Stores admits frame) {data : Bytes} (hdata : frame.payload = some (.data data))
    {call? : Option β} (hnone : call? = none ↔
      let stored := { r with
        buf := r.buf.insert frame.seq
          ⟨frame.msgId, frame.frag, frame.declaredTotal, data, h.below⟩ }
      ∃ k, Filled stored k ∧ P stored k) :
    call? = none ↔ r.Overruns admits P frame := by
  rw [hnone, Overruns, stored_eq hdata h.admitted h.below]
  exact (and_iff_right h).symm

/-- A frame that is not stored overruns nothing. -/
theorem overruns_iff_of_not_stores {P : Intake Below → Nat → Prop} {β : Type*} {frame : Frame}
    (h : ¬r.Stores admits frame) (call : β) : some call = none ↔ r.Overruns admits P frame :=
  iff_of_false (by simp) fun hoverruns => h hoverruns.1

theorem Bounded.onFrame (h : r.Bounded) (frame : Frame) : (r.onFrame admits frame).1.Bounded := by
  intro halive
  by_cases hdead : r.dead = true
  · rw [Intake.onFrame, if_pos hdead, hdead] at halive
    cases halive
  · exact size_onFrame (h (Bool.eq_false_iff.mpr hdead)) frame halive

end Frame

end Kulua.Intake
