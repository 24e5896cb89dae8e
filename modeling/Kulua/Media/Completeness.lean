import Kulua.Media.Soundness

/-! Nothing is lost over a network that loses nothing: the messages arrive one after the other,
the datagrams of each in any order and any number of times. -/

namespace Kulua.Media
open Foundation Foundation.Run Foundation.Segment MediaMessage MediaReassembler

/-- The datagrams of a message as they arrive: their places in it, and the times. -/
abbrev Round := List (Nat × Nat)

/-- Every datagram of the message arrives. -/
def Whole (m : MediaMessage) (round : Round) : Prop :=
  (∀ x ∈ round, x.1 < m.datagrams.length) ∧ ∀ i < m.datagrams.length, i ∈ round.map Prod.fst

instance (m : MediaMessage) (round : Round) : Decidable (Whole m round) :=
  inferInstanceAs (Decidable (_ ∧ _))

def ofRound (k : Nat) (round : Round) : List Arrival := round.map fun x => .push k x.1 x.2

/-- One round a message, from message `k` on. -/
def arrivals (k : Nat) : List Round → List Arrival
  | [] => []
  | round :: rounds => ofRound k round ++ arrivals (k + 1) rounds

/-- Nothing is being put together. -/
structure Idle (last : U32) (r : MediaReassembler) : Prop where
  last : r.lastSeq = last
  empty : ∀ k : U32, r.parts[k]? = none

/-- The slots that are taken. -/
def Holds (part : Part) (got : List Nat) : Prop :=
  ∀ i, i ∈ got ↔ ∃ d, part.frags[i]? = some (some d)

/-- The pieces `got` of the message are there, others are missing. -/
structure Gathering (m : MediaMessage) (last : U32) (got : List Nat) (r : MediaReassembler) :
    Prop where
  last : r.lastSeq = last
  alone : ∀ k : U32, k ≠ m.msgId → r.parts[k]? = none
  begun : ∀ part, r.parts[m.msgId]? = some part → PartOf m part ∧ Holds part got
  unbegun : r.parts[m.msgId]? = none → got = []
  missing : ∃ i < m.pieces.length, i ∉ got

variable {m : MediaMessage} {last : U32} {got : List Nat} {r : MediaReassembler}

theorem pieces_ne_nil (m : MediaMessage) : m.pieces ≠ [] := by
  unfold pieces
  split
  · exact List.cons_ne_nil _ _
  · rename_i h
    exact List.length_pos_iff.mp (length_chunks_pos (by decide) h)

theorem Idle.gathering (h : Idle last r) (m : MediaMessage) : Gathering m last [] r where
  last := h.last
  alone k _ := h.empty k
  begun part hpart := by
    rw [h.empty] at hpart
    cases hpart
  unbegun _ := rfl
  missing := ⟨0, List.length_pos_iff.mpr (pieces_ne_nil m), List.not_mem_nil⟩

theorem holds_new (now total : Nat) (f : MediaFragment) : Holds (Part.new now total f) [] := by
  intro i
  simp [Part.new, List.getElem?_replicate]

theorem Holds.fill {part : Part} (h : Holds part got) {i : Nat} {d : Bytes} {slot : Option Bytes}
    (hslot : part.frags[i]? = some slot) : Holds (Part.fill part i d slot) (i :: got) := by
  obtain ⟨hi, -⟩ := List.getElem?_eq_some_iff.mp hslot
  intro j
  rw [List.mem_cons, h j]
  cases slot with
  | some held =>
    refine or_iff_right_of_imp ?_
    rintro rfl
    exact ⟨held, hslot⟩
  | none =>
    by_cases hij : i = j
    · subst hij
      simp [Part.fill, hi]
    · simp [Part.fill, hij, Ne.symm hij]

/-- An entry is full when no piece is missing. -/
theorem PartOf.full_iff {part : Part} (hp : PartOf m part) (hholds : Holds part got) :
    part.n = part.total ↔ ∀ i < m.pieces.length, i ∈ got := by
  rw [hp.count, hp.total, ← hp.length, List.countP_eq_length]
  constructor
  · intro h i hi
    obtain ⟨d, hd⟩ := Option.isSome_iff_exists.mp (h _ (List.getElem_mem hi))
    exact (hholds i).mpr ⟨d, by rw [List.getElem?_eq_getElem hi, hd]⟩
  · intro h slot hslot
    obtain ⟨i, hi, rfl⟩ := List.mem_iff_getElem.mp hslot
    obtain ⟨d, hd⟩ := (hholds i).mp (h i hi)
    rw [List.getElem?_eq_getElem hi, Option.some.injEq] at hd
    rw [hd]
    rfl

/-- One more piece: the message is complete and handed over, or pieces are missing still. -/
def Progressed (m : MediaMessage) (last : U32) (got : List Nat)
    (pushed : Option (MediaReassembler × Option AssembledMedia)) : Prop :=
  ∃ r out, pushed = some (r, out) ∧
    (Gathering m last got r ∧ out = none ∨
      (∀ i < m.pieces.length, i ∈ got) ∧ Idle m.seq r ∧ out = some (assembled m))

theorem idle_erase (hempty : ∀ k : U32, k ≠ m.msgId → r.parts[k]? = none) (now : Nat) :
    Idle m.seq ⟨m.seq, r.parts.erase m.msgId, now⟩ where
  last := rfl
  empty k := by
    rw [Std.TreeMap.getElem?_erase]
    split
    · rfl
    · rename_i hne
      refine hempty k fun he => hne ?_
      rw [he]
      exact Std.ReflCmp.compare_self

theorem Gathering.store (h : Gathering m last got r) {i : Nat} {f : MediaFragment}
    (hf : m.HasFragment i f) {part : Part} (hp : PartOf m part) (hholds : Holds part got)
    (now : Nat) : Progressed m last (i :: got) (r.store now f part) := by
  obtain rfl := hf.frag
  have hi : f.frag.toNat < part.frags.length := by
    rw [hp.length]
    exact (List.getElem?_eq_some_iff.mp hf.payload).1
  have hslot := List.getElem?_eq_getElem hi
  have hfilled := hp.fill hf.payload hslot
  have hmore := hholds.fill (d := f.payload) hslot
  have hfull := hfilled.full_iff hmore
  simp only [MediaReassembler.store, hslot, Option.map_some]
  split
  · rename_i hn
    refine ⟨_, _, rfl, .inr ⟨hfull.mp hn, ?_, ?_⟩⟩
    · rw [hfilled.seq, hf.msgId]
      exact idle_erase h.alone now
    · rw [hfilled.full hn, hfilled.pts, hfilled.revision, hfilled.flags]
      rfl
  · rename_i hn
    rw [hfull] at hn
    push Not at hn
    refine ⟨_, _, rfl, .inl ⟨?_, rfl⟩⟩
    exact
      { last := h.last
        alone := fun k hk => by
          rw [Std.TreeMap.getElem?_insert, if_neg, h.alone k hk]
          rw [hf.msgId]
          exact fun he => hk (Std.LawfulEqCmp.eq_of_compare he).symm
        begun := fun other hother => by
          rw [hf.msgId, Std.TreeMap.getElem?_insert_self] at hother
          obtain rfl := Option.some.inj hother
          exact ⟨hfilled, hmore⟩
        unbegun := fun hnone => by
          rw [hf.msgId, Std.TreeMap.getElem?_insert_self] at hnone
          cases hnone
        missing := hn }

theorem Gathering.push (h : Gathering m last got r) (hlater : last < m.seq) {i : Nat}
    {f : MediaFragment} (hf : m.HasFragment i f) (now : Nat) :
    Progressed m last (i :: got) (r.push now f) := by
  have hi : i < m.pieces.length := (List.getElem?_eq_some_iff.mp hf.payload).1
  have hfresh : r.isStale f = false := by
    have hne : m.seq ≠ last := fun he => absurd hlater (by simp [he])
    simp [isStale, hf.seq, h.last, hne, BitVec.le_of_lt hlater]
  have hindex : f.frag.toNat < totalOf f := by
    rw [hf.total, hf.frag]
    exact hi
  by_cases hone : totalOf f = 1
  · rw [push_whole hf.media hfresh hindex hone]
    have hcount : m.pieces.length = 1 := hf.total.symm.trans hone
    refine ⟨_, _, rfl, .inr ⟨fun j hj => ?_, ?_, ?_⟩⟩
    · obtain rfl : j = i := by omega
      exact List.mem_cons_self
    · rw [hf.seq, hf.msgId]
      exact idle_erase h.alone now
    · rw [hf.data_eq hcount, hf.pts, hf.revision, hf.flags]
      rfl
  · have hjoins : r.Joins f := ⟨hf.media, hfresh, hindex, hone⟩
    cases hpart : r.parts[f.msgId]? with
    | none =>
      obtain rfl : got = [] := h.unbegun (hf.msgId ▸ hpart)
      rw [push_begins hjoins hpart]
      exact h.store hf (PartOf.new hf now) (holds_new now (totalOf f) f) now
    | some part =>
      obtain ⟨hp, hholds⟩ := h.begun part (hf.msgId ▸ hpart)
      rw [push_joins hjoins hpart, if_pos (hp.seq.trans hf.seq.symm)]
      have touched : PartOf m { part with touched := now } := { hp with }
      exact h.store hf touched hholds now

/-- Another datagram of the message that was handed over last changes nothing. -/
theorem Idle.push (h : Idle m.seq r) (hpos : m.seq ≠ 0) {i : Nat} {f : MediaFragment}
    (hf : m.HasFragment i f) (now : Nat) : r.push now f = some (r, none) := by
  have hpos : (m.seq != 0) = true := bne_iff_ne.mpr hpos
  have hgone : r.parts.contains f.msgId = false := by
    rw [Std.TreeMap.contains_eq_isSome_getElem?, h.empty]
    rfl
  refine push_dropped (.inr (.inl ?_))
  rw [isStale, hf.seq, h.last, hgone, hpos]
  simp

section

variable {ms : List MediaMessage} {s : Reception} {k : Nat}

theorem receive_push (hget : ms[k]? = some m) (hmany : m.datagrams.length ≤ 65534) {i : Nat}
    (hi : i < m.datagrams.length) (s : Reception) (now : Nat) :
    ∃ f, m.HasFragment i f ∧ receive ms (some s) (.push k i now) =
      (s.reassembler.push now f).map fun (reassembler, out) =>
        ⟨reassembler, s.emitted ++ (out.map fun media => (m, media)).toList⟩ := by
  obtain ⟨f, hdecode, hf⟩ := hasFragment_datagrams hmany (List.getElem?_eq_getElem hi)
  refine ⟨f, hf, ?_⟩
  simp only [receive, Option.bind_some, hget, List.getElem?_eq_getElem hi, hdecode]

theorem Idle.round (h : Idle m.seq s.reassembler) (hpos : m.seq ≠ 0) (hget : ms[k]? = some m)
    (hmany : m.datagrams.length ≤ 65534) {round : Round}
    (hround : ∀ x ∈ round, x.1 < m.datagrams.length) :
    run (receive ms) (some s) (ofRound k round) = some s := by
  induction round with
  | nil => rfl
  | cons x rest ih =>
    rw [List.forall_mem_cons] at hround
    obtain ⟨f, hf, hstep⟩ := receive_push hget hmany hround.1 s x.2
    rw [ofRound, List.map_cons, run_cons, hstep, h.push hpos hf]
    simpa [ofRound] using ih hround.2

/-- Once every piece has arrived the message has been handed over, once. -/
theorem Gathering.round (h : Gathering m last got s.reassembler) (hlater : last < m.seq)
    (hpos : m.seq ≠ 0) (hget : ms[k]? = some m) (hmany : m.datagrams.length ≤ 65534)
    {round : Round} (hround : ∀ x ∈ round, x.1 < m.datagrams.length)
    (hall : ∀ i < m.pieces.length, i ∈ got ∨ i ∈ round.map Prod.fst) :
    ∃ r, run (receive ms) (some s) (ofRound k round) =
      some ⟨r, s.emitted ++ [(m, assembled m)]⟩ ∧ Idle m.seq r := by
  induction round generalizing got s with
  | nil =>
    obtain ⟨i, hi, hmissing⟩ := h.missing
    rcases hall i hi with hgot | hlate
    · exact absurd hgot hmissing
    · cases hlate
  | cons x rest ih =>
    rw [List.forall_mem_cons] at hround
    obtain ⟨f, hf, hstep⟩ := receive_push hget hmany hround.1 s x.2
    obtain ⟨r, out, hpush, hcase⟩ := h.push hlater hf x.2
    rw [ofRound, List.map_cons, run_cons, hstep, hpush]
    rcases hcase with ⟨hmore, rfl⟩ | ⟨-, hidle, rfl⟩
    · have hrest := ih (s := ⟨r, s.emitted⟩) hmore hround.2 fun i hi => by
        rcases hall i hi with hgot | hin
        · exact .inl (List.mem_cons_of_mem _ hgot)
        · rw [List.map_cons, List.mem_cons] at hin
          rcases hin with rfl | hin
          · exact .inl List.mem_cons_self
          · exact .inr hin
      simpa [ofRound] using hrest
    · have hrest := hidle.round (s := ⟨r, s.emitted ++ [(m, assembled m)]⟩) hpos hget hmany
        hround.2
      exact ⟨r, by simpa [ofRound] using hrest, hidle⟩

/-- The messages from number `k` on are handed over in order, each once. -/
theorem Idle.arrivals (ordered : Ordered ms) (few : ∀ m ∈ ms, m.pieces.length ≤ 65534)
    (nonempty : ∀ m ∈ ms, m.producer = .sendMedia → m.data ≠ []) {rest : List MediaMessage}
    {rounds : List Round} (whole : List.Forall₂ Whole rest rounds) (hrest : ms.drop k = rest)
    (h : Idle last s.reassembler) (hlater : ∀ m ∈ rest, last < m.seq) :
    ∃ r, run (receive ms) (some s) (arrivals k rounds) =
      some ⟨r, s.emitted ++ rest.map fun m => (m, assembled m)⟩ := by
  induction whole generalizing k s last with
  | nil => exact ⟨s.reassembler, by simp [Media.arrivals]⟩
  | @cons m round rest rounds hround _ ih =>
    have hk : k < ms.length := by
      by_contra hge
      rw [List.drop_eq_nil_of_le (by omega)] at hrest
      cases hrest
    rw [List.drop_eq_getElem_cons hk, List.cons.injEq] at hrest
    obtain ⟨rfl, hrest⟩ := hrest
    have hm : ms[k] ∈ ms := List.getElem_mem hk
    have hlength := length_datagrams (few _ hm) (nonempty _ hm)
    obtain ⟨r, hrun, hidle⟩ := (h.gathering ms[k]).round (hlater _ List.mem_cons_self)
      (ordered.positive _ hm) (List.getElem?_eq_getElem hk) (hlength ▸ few _ hm) hround.1
      fun i hi => .inr (hround.2 i (hlength ▸ hi))
    have hafter : ∀ m ∈ rest, ms[k].seq < m.seq := by
      have htail := ordered.ascending.drop (i := k)
      rw [List.drop_eq_getElem_cons hk, hrest] at htail
      exact fun m hm => List.rel_of_pairwise_cons htail hm
    obtain ⟨r', hrun'⟩ := ih hrest (s := ⟨r, s.emitted ++ [(ms[k], assembled ms[k])]⟩) hidle hafter
    exact ⟨r', by simpa [Media.arrivals, run_append, hrun] using hrun'⟩

end

/-- Every message is handed over once, in order, with its data, time stamp, revision and the
low byte of its flags. -/
theorem media_reassembly_complete {ms : List MediaMessage} (ordered : Ordered ms)
    (few : ∀ m ∈ ms, m.pieces.length ≤ 65534)
    (nonempty : ∀ m ∈ ms, m.producer = .sendMedia → m.data ≠ []) {rounds : List Round}
    (whole : List.Forall₂ Whole ms rounds) (now : Nat) :
    ∃ s, run (receive ms) (some (Reception.init now)) (arrivals 0 rounds) = some s ∧
      s.emitted =
        ms.map fun m => (m, ⟨m.pts, m.revision, (m.flags.setWidth 8).setWidth 32, m.data⟩) := by
  have hidle : Idle 0 (Reception.init now).reassembler :=
    ⟨rfl, fun k => by simp [Reception.init, MediaReassembler.new]⟩
  obtain ⟨r, hrun⟩ := hidle.arrivals ordered few nonempty whole (List.drop_zero ..) fun m hm => by
    have := ordered.positive m hm
    bv_omega
  exact ⟨_, hrun, rfl⟩

private def block : Bytes := List.replicate 1201 7

private theorem length_block : block.length = 1201 := List.length_replicate

private def frame : MediaMessage :=
  ⟨.mediaDatagrams, 1, 1, 1, 5, 0, 1, block, by rw [length_block]; decide⟩
private def silence : MediaMessage := ⟨.mediaDatagrams, 1, 2, 2, 20, 0, 0, [], by decide⟩
private def marked : MediaMessage := ⟨.mediaDatagrams, 1, 1, 1, 0, 0, 0x101, [7, 7], by decide⟩

private theorem length_frame : frame.pieces.length = 2 ∧ frame.datagrams.length = 2 := by
  have hne : block ≠ [] := List.ne_nil_of_length_pos (by rw [length_block]; decide)
  simp [frame, pieces, datagrams, mediaDatagrams, hne, length_block, maxFragment]

/-- The second piece first, and twice. -/
theorem media_reassembly_complete_reversed :
    ∃ s, run (receive [frame, silence]) (some (Reception.init 0))
        (arrivals 0 [[(1, 1), (1, 2), (0, 3)], [(0, 4)]]) = some s ∧
      s.emitted = [frame, silence].map fun m =>
        (m, ⟨m.pts, m.revision, (m.flags.setWidth 8).setWidth 32, m.data⟩) :=
  media_reassembly_complete ⟨by decide, by decide, by decide⟩
    (by simp [length_frame.1, show silence.pieces.length = 1 from rfl]) (by decide)
    (.cons (by rw [Whole, length_frame.2]; decide) (.cons (by decide) .nil)) 0

/-- All arrives, and the flags are not those that were sent. -/
theorem media_flags_lose_high_bits :
    Ordered [marked] ∧ (∀ m ∈ [marked], m.pieces.length ≤ 65534) ∧
      List.Forall₂ Whole [marked] [[(0, 1)]] ∧
      ∀ s, run (receive [marked]) (some (Reception.init 0)) (arrivals 0 [[(0, 1)]]) = some s →
        s.emitted ≠ [marked].map fun m => (m, ⟨m.pts, m.revision, m.flags, m.data⟩) := by
  refine ⟨⟨by decide, by decide, by decide⟩, by decide, .cons (by decide) .nil, ?_⟩
  have hread : (marked.datagrams[0]?).bind decodeMediaDatagram =
      some ⟨1, 1, 1, 0, 0, 0, 0, 1, [7, 7]⟩ := by decide
  intro s hs
  simp only [arrivals, ofRound, List.map_cons, List.map_nil, List.append_nil, run_cons, run_nil,
    receive, Option.bind_some, List.getElem?_cons_zero, hread] at hs
  rw [push_whole (by decide) (by decide) (by decide) (by decide)] at hs
  obtain rfl := Option.some.inj hs
  decide

end Kulua.Media
