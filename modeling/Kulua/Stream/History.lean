import Kulua.Stream.Endpoints

/-! The sender's history: every message that was cut into fragments, with the
frames made for it. A receiver is in step with a history when its delivery point
is the start of a message and its buffer holds only fragments of the history at
their own sequence numbers. That relation survives every frame of the history in
any order, and what is delivered meanwhile is the next block of messages. -/

namespace Kulua.Stream
open Foundation Foundation.Segment

abbrev Entry := Bytes × List Frame

abbrev History := List Entry

def rows (H : History) : List (List Frame) := H.map Prod.snd

def frames (H : History) : List Frame := (rows H).flatten

def payloads (H : History) : List Bytes := H.map Prod.fst

/-- Fragments are numbered from 1 without gaps, and each message is the
concatenation of its fragments. -/
structure Numbered (H : History) : Prop where
  seq : ∀ p f, (frames H)[p]? = some f → f.seq = BitVec.ofNat 32 (1 + p)
  row : ∀ e ∈ H, ∃ base msgId parts, parts ≠ [] ∧ parts.flatten = e.1 ∧
    e.2 = fragments base msgId (BitVec.ofNat 32 parts.length) parts

@[simp] theorem frames_append (H K : History) : frames (H ++ K) = frames H ++ frames K := by
  simp [frames, rows]

@[simp] theorem rows_append (H K : History) : rows (H ++ K) = rows H ++ rows K := by
  simp [rows]

@[simp] theorem payloads_append (H K : History) : payloads (H ++ K) = payloads H ++ payloads K := by
  simp [payloads]

@[simp] theorem length_rows (H : History) : (rows H).length = H.length := by simp [rows]

theorem numbered_nil : Numbered [] where
  seq p f h := by simp [frames, rows] at h
  row e h := by simp at h

theorem Numbered.append {H : History} (hH : Numbered H) {msgId : U32} {parts : List Bytes}
    (hne : parts ≠ []) :
    Numbered (H ++ [(parts.flatten, fragments (BitVec.ofNat 32 (1 + (frames H).length)) msgId
      (BitVec.ofNat 32 parts.length) parts)]) where
  seq p f h := by
    rw [frames_append] at h
    rcases Nat.lt_or_ge p (frames H).length with hp | hp
    · rw [List.getElem?_append_left hp] at h
      exact hH.seq p f h
    · rw [List.getElem?_append_right hp] at h
      simp only [frames, rows, List.map_cons, List.map_nil, List.flatten_cons, List.flatten_nil,
        List.append_nil, getElem?_fragments] at h
      obtain ⟨c, -, rfl⟩ := Option.map_eq_some_iff.mp h
      simp only [Frame.ctrlData, ← BitVec.ofNat_add]
      congr 1
      simp only [frames, rows] at hp ⊢
      omega
  row e h := by
    rcases List.mem_append.mp h with h | h
    · exact hH.row e h
    · rw [List.mem_singleton] at h
      subst h
      exact ⟨_, msgId, parts, hne, rfl, rfl⟩

/-- A buffered fragment is the fragment of the history that carries its number. -/
def Genuine (H : History) {Below : U32 → U32 → Prop} (buf : Buffer Below) : Prop :=
  ∀ (q : U32) g, buf[q]? = some g → ∃ p f, (frames H)[p]? = some f ∧
    q = BitVec.ofNat 32 (1 + p) ∧ g.msgId = f.msgId ∧ g.frag = f.frag ∧
    g.total = f.declaredTotal ∧ f.payload = some (.data g.data)

/-- The receiver has delivered `k` messages of the history. -/
structure InStep (H : History) {Below : U32 → U32 → Prop} (k : Nat) (r : Intake Below) : Prop where
  count : k ≤ H.length
  nextSeq : r.nextSeq = BitVec.ofNat 32 (1 + offset (rows H) k)
  genuine : Genuine H r.buf

variable {Below : U32 → U32 → Prop} {H : History} {r r' : Intake Below} {k : Nat}

theorem inStep_new : InStep [] 0 (Intake.new : Intake Below) where
  count := le_rfl
  nextSeq := rfl
  genuine q g h := by simp [Intake.new] at h

theorem InStep.append (h : InStep H k r) (K : History) : InStep (H ++ K) k r where
  count := by
    have := h.count
    simp only [List.length_append]
    omega
  nextSeq := by
    rw [rows_append, offset_append _ (by simpa using h.count)]
    exact h.nextSeq
  genuine q g hg := by
    obtain ⟨p, f, hf, hrest⟩ := h.genuine q g hg
    refine ⟨p, f, ?_, hrest⟩
    rw [frames_append, List.getElem?_append_left (List.getElem?_eq_some_iff.mp hf).1]
    exact hf

/-- The frames of message `k`, at their places in the history. -/
theorem Numbered.message (hH : Numbered H) {e : Entry} (he : H[k]? = some e) :
    ∃ msgId parts, parts ≠ [] ∧ parts.flatten = e.1 ∧
      offset (rows H) (k + 1) = offset (rows H) k + parts.length ∧
      ∀ j c, parts[j]? = some c → ∃ seq, (frames H)[offset (rows H) k + j]? =
        some (Frame.ctrlData seq msgId (BitVec.ofNat 32 parts.length) j c) := by
  obtain ⟨base, msgId, parts, hne, hflat, hfrag⟩ := hH.row e (List.mem_of_getElem? he)
  have hrow : (rows H)[k]? = some e.2 := by simp [rows, he]
  refine ⟨msgId, parts, hne, hflat, ?_, fun j c hj => ?_⟩
  · rw [offset_succ hrow, hfrag, length_fragments]
  · have hlt : j < e.2.length := by
      rw [hfrag, length_fragments]
      exact (List.getElem?_eq_some_iff.mp hj).1
    have hget : (frames H)[offset (rows H) k + j]? = e.2[j]? := getElem?_flatten_offset hrow hlt
    exact ⟨base + BitVec.ofNat 32 j, by rw [hget, hfrag, getElem?_fragments, hj]; rfl⟩

/-- What lies `j` places past the delivery point is the frame of the history there. -/
theorem InStep.lookup (h : InStep H k r) (hlen : (frames H).length < 2 ^ 31) {j : Nat}
    (hj : j < 2 ^ 31) {g : RecvFragment Below}
    (hg : r.buf[r.nextSeq + BitVec.ofNat 32 j]? = some g) :
    ∃ f, (frames H)[offset (rows H) k + j]? = some f ∧ g.msgId = f.msgId ∧ g.frag = f.frag ∧
      g.total = f.declaredTotal ∧ f.payload = some (.data g.data) := by
  obtain ⟨p, f, hf, hq, hrest⟩ := h.genuine _ _ hg
  have hp := (List.getElem?_eq_some_iff.mp hf).1
  have hoff : offset (rows H) k ≤ (frames H).length := offset_le (rows H) k
  rw [h.nextSeq, ← BitVec.ofNat_add] at hq
  have hpos := Serial.ofNat_cancel (by omega) (by omega) hq
  obtain rfl : p = offset (rows H) k + j := by omega
  exact ⟨f, hf, hrest⟩

/-- A complete run at the delivery point is message `k` of the history. -/
theorem InStep.deliverNext (h : InStep H k r) (hH : Numbered H)
    (hlen : (frames H).length < 2 ^ 31) {data : Bytes} (hnext : r.deliverNext = some (r', data)) :
    (payloads H)[k]? = some data ∧ InStep H (k + 1) r' := by
  obtain ⟨total, hrun, hr'⟩ := Intake.deliverNext_eq_some hnext
  obtain ⟨first, ps, hfirst, -, htotal, hps, rfl, hbuf⟩ := Buffer.collectRun_eq_some hrun
  -- the fragment at the delivery point is the first one of message `k`
  obtain ⟨f, hf, -, -, hft, -⟩ := h.lookup hlen (j := 0) (by decide) (by simpa using hfirst)
  obtain ⟨row, hrow⟩ := exists_row (by simpa using h.count) (List.getElem?_eq_some_iff.mp hf).1
  obtain ⟨e, he, rfl⟩ := Option.map_eq_some_iff.mp (by simpa only [rows, List.getElem?_map] using hrow)
  obtain ⟨msgId, parts, hne, hflat, hnextOff, hframe⟩ := hH.message he
  have hpos : 0 < parts.length := List.length_pos_iff.mpr hne
  have hbound : offset (rows H) k + parts.length ≤ (frames H).length := by
    rw [← hnextOff]
    exact offset_le (rows H) (k + 1)
  -- so the run has as many fragments as the message
  have hcount : total = BitVec.ofNat 32 parts.length := by
    obtain ⟨seq, hfirstFrame⟩ := hframe 0 parts[0] (List.getElem?_eq_getElem hpos)
    rw [hf] at hfirstFrame
    rw [← htotal, hft, Option.some.inj hfirstFrame,
      Frame.declaredTotal_ctrlData _ _ _ hpos (by omega)]
  have hnat : total.toNat = parts.length := by
    rw [hcount, BitVec.toNat_ofNat]
    omega
  rw [hnat] at hps
  obtain ⟨hpsLen, hpiece⟩ := Buffer.pieces_eq_some hps
  -- and its pieces are the pieces of the message
  have hparts : ps = parts := by
    apply List.ext_getElem?
    intro j
    rcases Nat.lt_or_ge j parts.length with hj | hj
    · obtain ⟨g, hg, -, -, hdata⟩ := hpiece j hj
      rw [Nat.zero_add] at hg
      obtain ⟨f', hf', -, -, -, hpayload⟩ := h.lookup hlen (by omega) hg
      obtain ⟨seq, hf''⟩ := hframe j parts[j] (List.getElem?_eq_getElem hj)
      rw [hf', Option.some.injEq] at hf''
      rw [hf''] at hpayload
      simp only [Frame.ctrlData, Option.some.injEq, Payload.data.injEq] at hpayload
      rw [hdata, List.getElem?_eq_getElem hj, hpayload]
    · rw [List.getElem?_eq_none (by omega), List.getElem?_eq_none hj]
  refine ⟨by simp [payloads, he, hparts, hflat], ?_, ?_, ?_⟩
  · have := (List.getElem?_eq_some_iff.mp he).1
    omega
  · rw [hr', hnextOff, hcount, h.nextSeq, ← BitVec.ofNat_add, Nat.add_assoc]
  · intro q g hg
    rw [hbuf] at hg
    exact h.genuine q g (Buffer.getElem?_of_removeRun hg)

/-- Place `p` of the history is in the buffer. -/
def Buffered (r : Intake Below) (p : Nat) : Prop :=
  r.buf.contains (BitVec.ofNat 32 (1 + p)) = true

/-- Taking out message `k` takes out nothing past it. -/
theorem InStep.deliverNext_buffered (h : InStep H k r) (hH : Numbered H)
    (hlen : (frames H).length < 2 ^ 31) {data : Bytes} (hnext : r.deliverNext = some (r', data))
    {p : Nat} (hp : offset (rows H) (k + 1) ≤ p) (hlt : p < (frames H).length)
    (hb : Buffered r p) : Buffered r' p := by
  have hafter := (h.deliverNext hH hlen hnext).2.nextSeq
  obtain ⟨total, hrun, hr'⟩ := Intake.deliverNext_eq_some hnext
  obtain ⟨first, ps, -, -, -, -, -, hbuf⟩ := Buffer.collectRun_eq_some hrun
  have hmono : offset (rows H) k ≤ offset (rows H) (k + 1) := offset_mono _ (Nat.le_succ k)
  -- the run has as many places as the message
  have htotal : total = BitVec.ofNat 32 (offset (rows H) (k + 1) - offset (rows H) k) := by
    rw [hr', ← Nat.add_sub_cancel' hmono, ← Nat.add_assoc, BitVec.ofNat_add, ← h.nextSeq] at hafter
    exact (BitVec.add_right_inj _).mp hafter
  rw [Buffered, Std.TreeMap.contains_eq_isSome_getElem?] at hb ⊢
  rw [hbuf, Buffer.getElem?_removeRun, if_neg]
  · exact hb
  · rintro ⟨i, hi, he⟩
    rw [htotal, BitVec.toNat_ofNat] at hi
    rw [h.nextSeq, ← BitVec.ofNat_add] at he
    have := Nat.mod_le (offset (rows H) (k + 1) - offset (rows H) k) (2 ^ 32)
    have := Serial.ofNat_cancel (by omega) (by omega) he
    omega

/-- A fragment of the history that enters the buffer completes the next messages, if any,
and everything past them stays buffered. -/
theorem InStep.accept (h : InStep H k r) (hH : Numbered H) (hlen : (frames H).length < 2 ^ 31)
    {f : Frame} (hf : f ∈ frames H) {g : RecvFragment Below} (hid : g.msgId = f.msgId)
    (hfrag : g.frag = f.frag) (htotal : g.total = f.declaredTotal)
    (hdata : f.payload = some (.data g.data)) :
    ∃ n, InStep H (k + n) (r.accept f.seq g).1 ∧
      (payloads H).take k ++ (r.accept f.seq g).2 = (payloads H).take (k + n) ∧
      ∀ p, offset (rows H) (k + n) ≤ p → p < (frames H).length →
        Buffered r p ∨ f.seq = BitVec.ofNat 32 (1 + p) → Buffered (r.accept f.seq g).1 p := by
  obtain ⟨p, hp⟩ := List.getElem?_of_mem hf
  have stored : InStep H k { r with buf := r.buf.insert f.seq g } := by
    refine ⟨h.count, h.nextSeq, fun q g' hg => ?_⟩
    rw [Std.TreeMap.getElem?_insert] at hg
    split at hg
    · rename_i heq
      rw [Std.LawfulEqOrd.compare_eq_iff_eq] at heq
      obtain rfl := Option.some.inj hg
      exact ⟨p, f, hp, heq ▸ hH.seq p f hp, hid, hfrag, htotal, hdata⟩
    · exact h.genuine q g' hg
  have entered : ∀ p, Buffered r p ∨ f.seq = BitVec.ofNat 32 (1 + p) →
      Buffered { r with buf := r.buf.insert f.seq g } p := by
    intro p hb
    rw [Buffered, Std.TreeMap.contains_insert]
    rcases hb with hb | hb
    · rw [show r.buf.contains (BitVec.ofNat 32 (1 + p)) = true from hb, Bool.or_true]
    · simp [hb]
  obtain ⟨n, ⟨hn, hkeep⟩, hout⟩ := Run.drain_source
    (I := fun k s => InStep H k s ∧ ∀ p, offset (rows H) k ≤ p → p < (frames H).length →
      Buffered r p ∨ f.seq = BitVec.ofNat 32 (1 + p) → Buffered s p) (payloads H)
    (fun k s s' b hs hnext => by
      obtain ⟨hpayload, hnext'⟩ := hs.1.deliverNext hH hlen hnext
      refine ⟨hpayload, hnext', fun p hp hlt hb => ?_⟩
      have hmono : offset (rows H) k ≤ offset (rows H) (k + 1) := offset_mono _ (Nat.le_succ k)
      exact hs.1.deliverNext_buffered hH hlen hnext hp hlt (hs.2 p (hmono.trans hp) hlt hb))
    (r.buf.insert f.seq g).size k _ ⟨stored, fun p _ _ => entered p⟩
  exact ⟨n, ⟨hn.count, hn.nextSeq, hn.genuine⟩, hout, hkeep⟩

/-- Any frame of the history, at any time, keeps the receiver in step, and the
messages it completes are the next ones. -/
theorem InStep.onFrame (h : InStep H k r) (hH : Numbered H) (hlen : (frames H).length < 2 ^ 31)
    (admits : U32 → U32 → Bool) [DecidableRel Below] {f : Frame} (hf : f ∈ frames H) :
    ∃ n, InStep H (k + n) (r.onFrame admits f).1 ∧
      (payloads H).take k ++ (r.onFrame admits f).2 = (payloads H).take (k + n) := by
  have idle : ∃ n, InStep H (k + n) r ∧ (payloads H).take k ++ [] = (payloads H).take (k + n) :=
    ⟨0, h, by simp⟩
  unfold Intake.onFrame
  split
  · exact idle
  · split
    · split
      · split
        · rename_i data hdata _ hbelow
          obtain ⟨n, hn, hout, -⟩ := h.accept hH hlen hf
            (g := ⟨f.msgId, f.frag, f.declaredTotal, data, hbelow⟩) rfl rfl rfl hdata
          exact ⟨n, hn, hout⟩
        · exact idle
      · exact idle
    · exact idle

end Kulua.Stream
