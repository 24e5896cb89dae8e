import Kulua.Media.Message
import Kulua.Foundation.Run

/-! What the reassembler hands over. Messages have distinct ids and ascending sequence
numbers; their datagrams may be lost, repeated and reordered, and sweeps may forget
partial messages at any time. -/

namespace Kulua.Media
open Foundation MediaMessage MediaReassembler

/-- The messages of one sender, in the order they were sent. -/
structure Ordered (ms : List MediaMessage) : Prop where
  ids : (ms.map MediaMessage.msgId).Nodup
  ascending : ms.Pairwise fun m m' => m.seq < m'.seq
  positive : ∀ m ∈ ms, m.seq ≠ 0

/-- The message as it is handed over: the header has room for a byte of flags. -/
def assembled (m : MediaMessage) : AssembledMedia :=
  ⟨m.pts, m.revision, (m.flags.setWidth 8).setWidth 32, m.data⟩

/-- The entry holds pieces of the message, each in its own slot. -/
structure PartOf (m : MediaMessage) (part : Part) : Prop where
  seq : part.seq = m.seq
  total : part.total = m.pieces.length
  length : part.frags.length = m.pieces.length
  genuine : ∀ (i : Nat) (d : Bytes), part.frags[i]? = some (some d) → m.pieces[i]? = some d
  count : part.n = part.frags.countP Option.isSome
  pts : part.pts = m.pts
  revision : part.revision = m.revision
  flags : part.flags = (m.flags.setWidth 8).setWidth 32

theorem PartOf.new {m : MediaMessage} {i : Nat} {f : MediaFragment} (h : m.HasFragment i f)
    (now : Nat) : PartOf m (Part.new now (totalOf f) f) where
  seq := h.seq
  total := h.total
  length := by simp [Part.new, h.total]
  genuine j d hd := by
    obtain ⟨hj, hd⟩ := List.getElem?_eq_some_iff.mp hd
    simp [Part.new] at hd
  count := by simp [Part.new, List.countP_replicate]
  pts := h.pts
  revision := h.revision
  flags := by rw [Part.new, h.flags]

theorem PartOf.fill {m : MediaMessage} {part : Part} (hp : PartOf m part) {i : Nat}
    {d : Bytes} (hd : m.pieces[i]? = some d) {slot : Option Bytes}
    (hslot : part.frags[i]? = some slot) : PartOf m (Part.fill part i d slot) := by
  obtain ⟨hi, hget⟩ := List.getElem?_eq_some_iff.mp hslot
  cases slot with
  | some _ => exact hp
  | none =>
      exact
        { hp with
          length := by simp [Part.fill, hp.length]
          genuine := fun j e he => by
            simp only [Part.fill, List.getElem?_set, if_pos hi] at he
            split at he
            · rename_i hij
              obtain rfl := Option.some.inj (Option.some.inj he)
              exact hij ▸ hd
            · exact hp.genuine j e he
          count := by simp [Part.fill, List.countP_set, hi, hget, hp.count] }

/-- An entry that is full holds the whole message. -/
theorem PartOf.full {m : MediaMessage} {part : Part} (hp : PartOf m part)
    (hfull : part.n = part.total) : (part.frags.filterMap id).flatten = m.data := by
  have hall : ∀ slot ∈ part.frags, slot.isSome = true := by
    rw [← List.countP_eq_length, ← hp.count, hfull, hp.total, hp.length]
  have hfrags : part.frags = m.pieces.map some := by
    refine List.ext_getElem (by simp [hp.length]) fun i hi hi' => ?_
    obtain ⟨d, hd⟩ := Option.isSome_iff_exists.mp (hall _ (List.getElem_mem hi))
    have := hp.genuine i d (by rw [List.getElem?_eq_getElem hi, hd])
    obtain ⟨_, hpiece⟩ := List.getElem?_eq_some_iff.mp this
    rw [hd, List.getElem_map, hpiece]
  rw [hfrags, List.filterMap_map, ← flatten_pieces m]
  simp

/-- Every entry belongs to a message that was sent and has not been handed over. -/
def Holding (ms : List MediaMessage) (r : MediaReassembler) : Prop :=
  ∀ k part, r.parts[k]? = some part →
    ∃ m ∈ ms, m.msgId = k ∧ PartOf m part ∧ m.seq ≠ r.lastSeq

section

variable {ms : List MediaMessage} {r : MediaReassembler}

theorem Ordered.eq_of_msgId (h : Ordered ms) {m m' : MediaMessage} (hm : m ∈ ms) (hm' : m' ∈ ms)
    (he : m.msgId = m'.msgId) : m = m' := List.inj_on_of_nodup_map h.ids hm hm' he

theorem Ordered.eq_of_seq (h : Ordered ms) {m m' : MediaMessage} (hm : m ∈ ms) (hm' : m' ∈ ms)
    (he : m.seq = m'.seq) : m = m' := by
  have hne : ms.Pairwise fun m m' => m.seq ≠ m'.seq :=
    h.ascending.imp fun hlt he => absurd hlt (by simp [he])
  by_contra hdiff
  rcases List.pairwise_iff_getElem.mp hne with hget
  obtain ⟨i, hi, rfl⟩ := List.mem_iff_getElem.mp hm
  obtain ⟨j, hj, rfl⟩ := List.mem_iff_getElem.mp hm'
  rcases Nat.lt_trichotomy i j with hij | rfl | hij
  · exact hget i j hi hj hij he
  · exact hdiff rfl
  · exact hget j i hj hi hij he.symm

theorem Holding.sweep (h : Holding ms r) (now timeout : Nat) : Holding ms (r.sweep now timeout) := by
  intro k part hk
  simp only [MediaReassembler.sweep, Std.TreeMap.getElem?_filter', Option.filter_eq_some_iff] at hk
  exact h k part hk.1

/-- What handing over `m` leaves behind. -/
theorem Holding.emit (ordered : Ordered ms) (h : Holding ms r) {m : MediaMessage} (hm : m ∈ ms)
    (now : Nat) : Holding ms ⟨m.seq, r.parts.erase m.msgId, now⟩ := by
  intro k part hk
  simp only [Std.TreeMap.getElem?_erase] at hk
  split at hk
  · cases hk
  · rename_i hne
    obtain ⟨m', hm', rfl, hpart, -⟩ := h k part hk
    refine ⟨m', hm', rfl, hpart, fun he => hne ?_⟩
    rw [ordered.eq_of_seq hm' hm he]
    exact Std.ReflCmp.compare_self

/-- One more piece for `m`: the reassembler stays sound, and hands over `m` or nothing. -/
theorem Holding.store (ordered : Ordered ms) (h : Holding ms r) {m : MediaMessage} (hm : m ∈ ms)
    {i : Nat} {f : MediaFragment} (hf : m.HasFragment i f) {part : Part} (hp : PartOf m part)
    (hlast : m.seq ≠ r.lastSeq) (now : Nat) :
    ∃ r' out, r.store now f part = some (r', out) ∧ Holding ms r' ∧
      ((out = none ∧ r'.lastSeq = r.lastSeq) ∨
        (out = some (assembled m) ∧ r'.lastSeq = m.seq)) := by
  have hi : f.frag.toNat < part.frags.length := by
    rw [hp.length, hf.frag]
    exact (List.getElem?_eq_some_iff.mp hf.payload).1
  have hslot := List.getElem?_eq_getElem hi
  have hfilled := hp.fill (hf.frag ▸ hf.payload) hslot
  simp only [MediaReassembler.store, hslot, Option.map_some]
  split
  · rename_i hfull
    refine ⟨_, _, rfl, ?_, Or.inr ⟨?_, hfilled.seq⟩⟩
    · rw [hfilled.seq, hf.msgId]
      exact h.emit ordered hm now
    · rw [hfilled.full hfull, hfilled.pts, hfilled.revision, hfilled.flags]
      rfl
  · refine ⟨_, _, rfl, ?_, Or.inl ⟨rfl, rfl⟩⟩
    intro k part' hk
    simp only [Std.TreeMap.getElem?_insert] at hk
    split at hk
    · rename_i hkey
      obtain rfl := Option.some.inj hk
      rw [hf.msgId] at hkey
      exact ⟨m, hm, Std.LawfulEqCmp.eq_of_compare hkey, hfilled, hlast⟩
    · exact h k part' hk

/-- An entry under the id of a fragment is of the same message. -/
theorem Holding.partOf (ordered : Ordered ms) (h : Holding ms r) {m : MediaMessage} (hm : m ∈ ms)
    {i : Nat} {f : MediaFragment} (hf : m.HasFragment i f) {part : Part}
    (hpart : r.parts[f.msgId]? = some part) : PartOf m part ∧ m.seq ≠ r.lastSeq := by
  obtain ⟨m', hm', hid, hp, hlast⟩ := h _ _ hpart
  obtain rfl := ordered.eq_of_msgId hm' hm (hid.trans hf.msgId)
  exact ⟨hp, hlast⟩

/-- What is not stale is of a message newer than all that was handed over. -/
theorem Holding.newer (ordered : Ordered ms) (h : Holding ms r) {m : MediaMessage} (hm : m ∈ ms)
    {i : Nat} {f : MediaFragment} (hf : m.HasFragment i f) (hfresh : ¬r.isStale f = true) :
    r.lastSeq < m.seq := by
  simp only [isStale, hf.seq, Bool.or_eq_true, decide_eq_true_eq, Bool.and_eq_true,
    beq_iff_eq, bne_iff_ne, Bool.not_eq_true', not_or, not_and] at hfresh
  by_contra hold
  have heq : m.seq = r.lastSeq :=
    BitVec.le_antisymm (BitVec.not_lt.mp hold) (BitVec.not_lt.mp hfresh.1)
  have hheld := hfresh.2 ⟨heq, heq ▸ ordered.positive m hm⟩
  rw [Bool.not_eq_false, Std.TreeMap.contains_eq_isSome_getElem?] at hheld
  obtain ⟨part, hpart⟩ := Option.isSome_iff_exists.mp hheld
  exact (h.partOf ordered hm hf hpart).2 heq

/-- Pushing a fragment of `m` never panics, and hands over `m` or nothing; `m` only when
it is newer than all that was handed over. -/
theorem Holding.push (ordered : Ordered ms) (h : Holding ms r) {m : MediaMessage} (hm : m ∈ ms)
    {i : Nat} {f : MediaFragment} (hf : m.HasFragment i f) (now : Nat) :
    ∃ r' out, r.push now f = some (r', out) ∧ Holding ms r' ∧
      ((out = none ∧ r'.lastSeq = r.lastSeq) ∨
        (out = some (assembled m) ∧ r.lastSeq < m.seq ∧ r'.lastSeq = m.seq)) := by
  have hi : i < m.pieces.length := (List.getElem?_eq_some_iff.mp hf.payload).1
  cases hstale : r.isStale f with
  | true =>
    exact ⟨r, none, MediaReassembler.push_dropped (Or.inr (Or.inl hstale)), h, Or.inl ⟨rfl, rfl⟩⟩
  | false =>
    have hnew := h.newer ordered hm hf (by simp [hstale])
    have hindex : f.frag.toNat < totalOf f := by
      rw [hf.total, hf.frag]
      omega
    by_cases hone : totalOf f = 1
    · rw [MediaReassembler.push_whole hf.media hstale hindex hone]
      rw [hf.total] at hone
      refine ⟨_, _, rfl, ?_, Or.inr ⟨?_, hnew, hf.seq⟩⟩
      · rw [hf.seq, hf.msgId]
        exact h.emit ordered hm now
      · rw [hf.data_eq hone, hf.pts, hf.revision, hf.flags]
        rfl
    · have hjoins : r.Joins f := ⟨hf.media, hstale, hindex, hone⟩
      have hstore : ∀ part, PartOf m part → ∃ r' out, r.store now f part = some (r', out) ∧
          Holding ms r' ∧ ((out = none ∧ r'.lastSeq = r.lastSeq) ∨
            (out = some (assembled m) ∧ r.lastSeq < m.seq ∧ r'.lastSeq = m.seq)) := by
        intro part hp
        have hlast : m.seq ≠ r.lastSeq := fun he => absurd hnew (by simp [he])
        obtain ⟨r', out, hres, hhold, hout⟩ := h.store ordered hm hf hp hlast now
        exact ⟨r', out, hres, hhold, hout.imp id fun ho => ⟨ho.1, hnew, ho.2⟩⟩
      cases hpart : r.parts[f.msgId]? with
      | none =>
        rw [MediaReassembler.push_begins hjoins hpart]
        exact hstore _ (hf.total ▸ PartOf.new hf now)
      | some part =>
        have hp := (h.partOf ordered hm hf hpart).1
        rw [MediaReassembler.push_joins hjoins hpart, if_pos (hp.seq.trans hf.seq.symm)]
        exact hstore _ { hp with }

end

/-- The reassembler with what it has handed over: each message beside the one whose
datagram completed it. -/
structure Reception where
  reassembler : MediaReassembler
  emitted : List (MediaMessage × AssembledMedia)

/-- Datagram `i` of message `m` arrives, or partial messages are swept. -/
inductive Arrival where
  | push (m i now : Nat)
  | sweep (now timeout : Nat)
  deriving DecidableEq, Repr

def Reception.init (now : Nat) : Reception := ⟨MediaReassembler.new now, []⟩

/-- None once `push` has panicked. A datagram that does not exist is not received. -/
def receive (ms : List MediaMessage) (s : Option Reception) (a : Arrival) : Option Reception :=
  s.bind fun s =>
    match a with
    | .sweep now timeout => some { s with reassembler := s.reassembler.sweep now timeout }
    | .push m i now =>
      match ms[m]? with
      | none => some s
      | some message =>
        match message.datagrams[i]?.bind decodeMediaDatagram with
        | none => some s
        | some f =>
          (s.reassembler.push now f).map fun (reassembler, out) =>
            ⟨reassembler, s.emitted ++ (out.map fun media => (message, media)).toList⟩

/-- Messages were handed over unchanged and in ascending order, the last one `lastSeq`. -/
structure Sound (ms : List MediaMessage) (s : Reception) : Prop where
  holding : Holding ms s.reassembler
  genuine : ∀ e ∈ s.emitted, e.1 ∈ ms ∧ e.2 = assembled e.1
  ascending : s.emitted.Pairwise fun e e' => e.1.seq < e'.1.seq
  newest : ∀ e ∈ s.emitted, e.1.seq ≤ s.reassembler.lastSeq

theorem sound_init (ms : List MediaMessage) (now : Nat) : Sound ms (Reception.init now) where
  holding := by
    intro k part hk
    simp [Reception.init, MediaReassembler.new] at hk
  genuine := by simp [Reception.init]
  ascending := by simp [Reception.init]
  newest := by simp [Reception.init]

theorem Sound.receive {ms : List MediaMessage} {s : Reception} (ordered : Ordered ms)
    (few : ∀ m ∈ ms, m.datagrams.length ≤ 65534) (h : Sound ms s) (a : Arrival) :
    ∃ s', receive ms (some s) a = some s' ∧ Sound ms s' := by
  cases a with
  | sweep now timeout => exact ⟨_, rfl, { h with holding := h.holding.sweep now timeout }⟩
  | push k i now =>
      simp only [Media.receive, Option.bind_some]
      split
      · exact ⟨s, rfl, h⟩
      · rename_i m hget
        have hm : m ∈ ms := List.mem_of_getElem? hget
        split
        · exact ⟨s, rfl, h⟩
        · rename_i f hdecode
          obtain ⟨buf, hbuf, hdecode⟩ := Option.bind_eq_some_iff.mp hdecode
          obtain ⟨f', hdecode', hf⟩ := hasFragment_datagrams (few m hm) hbuf
          obtain rfl := Option.some.inj (hdecode'.symm.trans hdecode)
          obtain ⟨r', out, hpush, hhold, hout⟩ := h.holding.push ordered hm hf now
          rw [hpush]
          refine ⟨_, rfl, ?_⟩
          rcases hout with ⟨rfl, hlast⟩ | ⟨rfl, hnew, hlast⟩
          · exact
              { holding := hhold
                genuine := by simpa using h.genuine
                ascending := by simpa using h.ascending
                newest := by simpa [hlast] using h.newest }
          · have hbelow : ∀ e ∈ s.emitted, e.1.seq < m.seq := fun e he =>
              BitVec.lt_def.mpr ((BitVec.le_def.mp (h.newest e he)).trans_lt (BitVec.lt_def.mp hnew))
            refine
              { holding := hhold
                genuine := fun e he => ?_
                ascending := ?_
                newest := fun e he => ?_ }
            · rcases List.mem_append.mp he with he | he
              · exact h.genuine e he
              · rw [List.mem_singleton.mp he]
                exact ⟨hm, rfl⟩
            · refine List.pairwise_append.mpr ⟨h.ascending, List.pairwise_singleton .., ?_⟩
              intro e he e' he'
              rw [List.mem_singleton.mp he']
              exact hbelow e he
            · rcases List.mem_append.mp he with he | he
              · exact hlast ▸ BitVec.le_of_lt (hbelow e he)
              · rw [List.mem_singleton.mp he]
                exact BitVec.le_of_eq hlast.symm

/-- Every message that is handed over has the data, the time stamp, the revision and the
low byte of the flags of the message whose datagram completed it, and their sequence
numbers ascend. -/
theorem media_reassembly_sound {ms : List MediaMessage} (ordered : Ordered ms)
    (few : ∀ m ∈ ms, m.datagrams.length ≤ 65534) (now : Nat) (arrivals : List Arrival) :
    ∃ s, Run.run (receive ms) (some (Reception.init now)) arrivals = some s ∧
      (∀ e ∈ s.emitted, e.1 ∈ ms ∧
        e.2 = ⟨e.1.pts, e.1.revision, (e.1.flags.setWidth 8).setWidth 32, e.1.data⟩) ∧
      s.emitted.Pairwise fun e e' => e.1.seq < e'.1.seq := by
  have hrun := Run.invariant_all (I := fun s => ∃ r, s = some r ∧ Sound ms r)
    (fun s a hs => by
      obtain ⟨r, rfl, hr⟩ := hs
      exact hr.receive ordered few a)
    ⟨_, rfl, sound_init ms now⟩ arrivals
  obtain ⟨s, hs, hsound⟩ := hrun
  exact ⟨s, hs, hsound.genuine, hsound.ascending⟩

private def first : MediaMessage := ⟨.mediaDatagrams, 1, 1, 1, 0, 0, 0, [7], by decide⟩
private def second : MediaMessage := ⟨.sendMedia, 1, 2, 2, 20, 0, 1, [8, 9], by decide⟩
private def flagged : MediaMessage := ⟨.mediaDatagrams, 1, 1, 1, 0, 0, 256, [7], by decide⟩

theorem media_reassembly_sound_repeated :
    ∃ s, Run.run (receive [first, second]) (some (Reception.init 0))
        [.push 0 0 1, .push 1 0 2, .sweep 3 1, .push 0 0 4] = some s ∧
      (∀ e ∈ s.emitted, e.1 ∈ [first, second] ∧
        e.2 = ⟨e.1.pts, e.1.revision, (e.1.flags.setWidth 8).setWidth 32, e.1.data⟩) ∧
      s.emitted.Pairwise fun e e' => e.1.seq < e'.1.seq :=
  media_reassembly_sound ⟨by decide, by decide, by decide⟩ (by decide) 0 _

/-- The header has no room for the flags above the low byte. -/
theorem media_flags_truncated :
    Ordered [flagged] ∧ (∀ m ∈ [flagged], m.datagrams.length ≤ 65534) ∧
      ∃ s, Run.run (receive [flagged]) (some (Reception.init 0)) [.push 0 0 1] = some s ∧
        ∃ e ∈ s.emitted, e.1 = flagged ∧ e.2.flags ≠ flagged.flags := by
  have hread : (flagged.datagrams[0]?).bind decodeMediaDatagram =
      some ⟨1, 1, 1, 0, 0, 0, 0, 0, [7]⟩ := by decide
  refine ⟨⟨by decide, by decide, by decide⟩, by decide, ?_⟩
  simp only [Run.run_cons, Run.run_nil, receive, Option.bind_some, List.getElem?_cons_zero, hread]
  rw [MediaReassembler.push, if_neg (by decide), if_neg (by decide), if_neg (by decide),
    if_pos (by decide)]
  exact ⟨_, rfl, _, List.mem_singleton_self _, rfl, by decide⟩

end Kulua.Media
