import Kulua.Foundation.Run
import Kulua.Media.Header
import Kulua.Media.Reassembler

/-! The media reader thread of `session.rs`: a panic of `push` ends it. A fragment is checked
against the total in its own header; the slots of a partial message are as many as the
fragment that came first had declared. -/

namespace Kulua.Media
open Foundation Foundation.Run

namespace MediaReassembler

/-- A fragment that joins a partial message lies within the total which that was begun with. -/
def Fits (self : MediaReassembler) (frag : MediaFragment) : Prop :=
  self.Joins frag → ∀ part, self.parts[frag.msgId]? = some part → part.seq = frag.seq →
    frag.frag.toNat < part.total

def Sized (self : MediaReassembler) : Prop :=
  ∀ (k : U32) part, self.parts[k]? = some part → part.frags.length = part.total

variable {self : MediaReassembler}

theorem sized_new (now : Nat) : (new now).Sized := by
  intro k part hpart
  simp [new] at hpart

theorem Sized.erase (h : self.Sized) (k : U32) :
    Sized { self with parts := self.parts.erase k } := by
  intro j part hpart
  simp only [Std.TreeMap.getElem?_erase] at hpart
  split at hpart
  · cases hpart
  · exact h j part hpart

theorem Sized.insert (h : self.Sized) (k : U32) {part : Part}
    (hpart : part.frags.length = part.total) :
    Sized { self with parts := self.parts.insert k part } := by
  intro j other hother
  simp only [Std.TreeMap.getElem?_insert] at hother
  split at hother
  · obtain rfl := Option.some.inj hother
    exact hpart
  · exact h j other hother

theorem Sized.sweep (h : self.Sized) (now timeout : Nat) : (self.sweep now timeout).Sized := by
  intro k part hpart
  simp only [MediaReassembler.sweep, Std.TreeMap.getElem?_filter', Option.filter_eq_some_iff] at hpart
  exact h k part hpart.1

theorem Part.length_fill (part : Part) (i : Nat) (data : Bytes) (slot : Option Bytes) :
    (Part.fill part i data slot).frags.length = part.frags.length ∧
      (Part.fill part i data slot).total = part.total := by
  cases slot <;> simp [Part.fill]

/-- With a slot of its own a fragment is stored, without one the index is out of bounds. -/
theorem Sized.store (h : self.Sized) (now : Nat) (frag : MediaFragment) {part : Part}
    (hpart : part.frags.length = part.total) :
    (∃ next out, self.store now frag part = some (next, out) ∧ next.Sized ∧
        frag.frag.toNat < part.total) ∨
      self.store now frag part = none ∧ part.total ≤ frag.frag.toNat := by
  unfold MediaReassembler.store
  rcases Nat.lt_or_ge frag.frag.toNat part.total with hlt | hge
  · rw [List.getElem?_eq_getElem (hpart ▸ hlt), Option.map_some]
    obtain ⟨hlength, htotal⟩ := Part.length_fill part frag.frag.toNat frag.payload
      part.frags[frag.frag.toNat]
    left
    dsimp only
    split
    · exact ⟨_, _, rfl, h.erase frag.msgId, hlt⟩
    · exact ⟨_, _, rfl, h.insert frag.msgId (hlength.trans (hpart.trans htotal.symm)), hlt⟩
  · exact .inr ⟨by rw [List.getElem?_eq_none (hpart ▸ hge), Option.map_none], hge⟩

theorem Sized.push_unjoined (h : self.Sized) (now : Nat) {frag : MediaFragment}
    (hjoins : ¬self.Joins frag) :
    ∃ next out, self.push now frag = some (next, out) ∧ next.Sized := by
  simp only [Joins, not_and_or, not_not, Bool.not_eq_false, Nat.not_lt] at hjoins
  by_cases hdropped : frag.fragTotal = mediaOpenTotal ∨ self.isStale frag = true ∨
      totalOf frag ≤ frag.frag.toNat
  · exact ⟨self, none, push_dropped hdropped, h⟩
  · push Not at hdropped
    obtain ⟨hmedia, hfresh, hindex⟩ := hdropped
    have hone : totalOf frag = 1 :=
      ((hjoins.resolve_left hmedia).resolve_left hfresh).resolve_left (Nat.not_le.mpr hindex)
    exact ⟨_, _, push_whole hmedia (by simpa using hfresh) hindex hone, h.erase frag.msgId⟩

/-- A fragment under an id that holds nothing never panics. -/
theorem Sized.push_alone (h : self.Sized) (now : Nat) {frag : MediaFragment}
    (hnone : self.parts[frag.msgId]? = none) :
    ∃ next out, self.push now frag = some (next, out) ∧ next.Sized := by
  by_cases hjoins : self.Joins frag
  · have hlen : (Part.new now (totalOf frag) frag).frags.length = totalOf frag := by simp [Part.new]
    rw [push_begins hjoins hnone]
    obtain ⟨next, out, hstore, hnext, -⟩ | ⟨-, hge⟩ := h.store now frag hlen
    · exact ⟨next, out, hstore, hnext⟩
    · exact absurd hjoins.2.2.1 (Nat.not_lt.mpr hge)
  · exact h.push_unjoined now hjoins

/-- `push` panics exactly on a fragment that does not fit. -/
theorem Sized.push (h : self.Sized) (now : Nat) (frag : MediaFragment) :
    (∃ next out, self.push now frag = some (next, out) ∧ next.Sized ∧ self.Fits frag) ∨
      self.push now frag = none ∧ ¬self.Fits frag := by
  cases hpart : self.parts[frag.msgId]? with
  | none =>
    obtain ⟨next, out, hpush, hnext⟩ := h.push_alone now hpart
    exact .inl ⟨next, out, hpush, hnext, fun _ part hsome => by rw [hpart] at hsome; cases hsome⟩
  | some part =>
    have hlen := h frag.msgId part hpart
    by_cases hjoins : self.Joins frag
    · rw [push_joins hjoins hpart]
      have hfits : self.Fits frag ↔ (part.seq = frag.seq → frag.frag.toNat < part.total) := by
        simp [Fits, hjoins, hpart]
      rw [hfits]
      split
      · rename_i hseq
        have touched : ({ part with touched := now } : Part).frags.length = part.total := hlen
        obtain ⟨next, out, hstore, hnext, hlt⟩ | ⟨hstore, hge⟩ := h.store now frag touched
        · exact .inl ⟨next, out, hstore, hnext, fun _ => hlt⟩
        · exact .inr ⟨hstore, fun hlt => absurd (hlt hseq) (Nat.not_lt.mpr hge)⟩
      · rename_i hseq
        left
        split
        · have gone : (self.parts.erase frag.msgId)[frag.msgId]? = none := by simp
          obtain ⟨next, out, hpush, hnext⟩ := (h.erase frag.msgId).push_alone now gone
          exact ⟨next, out, hpush, hnext, fun he => absurd he hseq⟩
        · exact ⟨_, _, rfl, h.insert frag.msgId hlen, fun he => absurd he hseq⟩
    · obtain ⟨next, out, hpush, hnext⟩ := h.push_unjoined now hjoins
      exact .inl ⟨next, out, hpush, hnext, fun hj => absurd hj hjoins⟩

/-- A fragment beyond the slots of the partial message that it joins. -/
theorem push_panics {part : Part} {frag : MediaFragment} (h : self.Sized) (now : Nat)
    (hjoins : self.Joins frag) (hpart : self.parts[frag.msgId]? = some part)
    (hseq : part.seq = frag.seq) (hge : part.total ≤ frag.frag.toNat) :
    self.push now frag = none := by
  obtain ⟨next, out, -, -, hfits⟩ | ⟨hpush, -⟩ := h.push now frag
  · exact absurd (hfits hjoins part hpart hseq) (Nat.not_lt.mpr hge)
  · exact hpush

end MediaReassembler

open MediaReassembler

/-- The thread of one media port, with what it shares: the client id of the handshake, the
mark that media flow, and the reassembler that the writer sweeps. -/
structure MediaReader where
  clientId : U32
  flowing : Bool
  reassembler : MediaReassembler

inductive ReaderInput where
  | helloAck (clientId : U32)
  | recv (now : Nat) (buf : Bytes)
  | sweep (now timeout : Nat)
  deriving DecidableEq, Repr

namespace MediaReader

def init (now : Nat) : MediaReader := ⟨0, false, .new now⟩

variable (self : MediaReader)

/-- The fragment that is pushed: a datagram of this session that is no registration. -/
def passed (buf : Bytes) : Option MediaFragment :=
  match decodeMediaDatagram buf with
  | none => none
  | some f =>
    if self.clientId = 0 ∨ f.clientId ≠ self.clientId then none
    else if f.fragTotal = mediaOpenTotal then none
    else some f

/-- One turn of the loop, with the message it sends on; none where `push` panics. -/
def recv (now : Nat) (buf : Bytes) : Option (MediaReader × Option AssembledMedia) :=
  match self.passed buf with
  | none => some (self, none)
  | some f =>
    (self.reassembler.push now f).map fun (reassembler, out) =>
      ({ self with flowing := true, reassembler := reassembler }, out)

end MediaReader

namespace ReaderInput

/-- None once the thread has panicked. -/
def step (s : Option MediaReader) (a : ReaderInput) : Option MediaReader :=
  s.bind fun reader =>
    match a with
    | .helloAck clientId => some { reader with clientId := clientId }
    | .recv now buf => (reader.recv now buf).map Prod.fst
    | .sweep now timeout =>
      some { reader with reassembler := reader.reassembler.sweep now timeout }

/-- A fragment that is pushed fits the partial message that it joins. -/
def Fits (s : Option MediaReader) : ReaderInput → Prop
  | .recv _ buf => ∀ reader ∈ s, ∀ f ∈ reader.passed buf, reader.reassembler.Fits f
  | .helloAck _ | .sweep .. => True

theorem step_sized {reader : MediaReader} (h : reader.reassembler.Sized) (a : ReaderInput) :
    (∃ next, step (some reader) a = some next ∧ next.reassembler.Sized ∧ Fits (some reader) a) ∨
      step (some reader) a = none ∧ ¬Fits (some reader) a := by
  cases a with
  | helloAck clientId => exact .inl ⟨_, rfl, h, trivial⟩
  | sweep now timeout => exact .inl ⟨_, rfl, h.sweep now timeout, trivial⟩
  | recv now buf =>
    cases hpassed : reader.passed buf with
    | none =>
      refine .inl ⟨reader, ?_, h, ?_⟩
      · simp [step, MediaReader.recv, hpassed]
      · simp [Fits, hpassed]
    | some f =>
      have hfits : Fits (some reader) (.recv now buf) ↔ reader.reassembler.Fits f := by
        simp [Fits, hpassed]
      rw [hfits]
      obtain ⟨next, out, hpush, hnext, hf⟩ | ⟨hpush, hf⟩ := h.push now f
      · exact .inl ⟨{ reader with flowing := true, reassembler := next },
          by simp [step, MediaReader.recv, hpassed, hpush], hnext, hf⟩
      · exact .inr ⟨by simp [step, MediaReader.recv, hpassed, hpush], hf⟩

theorem run_panicked (inputs : List ReaderInput) : run step none inputs = none := by
  induction inputs with
  | nil => rfl
  | cons a inputs ih => exact ih

theorem run_sized {reader : MediaReader} (h : reader.reassembler.Sized) (inputs : List ReaderInput) :
    (run step (some reader) inputs).isSome = true ↔ Along step Fits (some reader) inputs := by
  induction inputs generalizing reader with
  | nil => simp
  | cons a inputs ih =>
    rw [run_cons, along_cons]
    obtain ⟨next, hstep, hnext, hfits⟩ | ⟨hstep, hfits⟩ := step_sized h a
    · rw [hstep, ih hnext]
      exact (and_iff_right hfits).symm
    · rw [hstep, run_panicked]
      exact iff_of_false (by simp) fun hall => hfits hall.1

/-- The thread lives through any datagrams and sweeps if and only if no fragment joins a
partial message with an index beyond the total which that was begun with. -/
theorem reader_survives_iff (now : Nat) (inputs : List ReaderInput) :
    (run step (some (.init now)) inputs).isSome = true ↔
      Along step Fits (some (.init now)) inputs :=
  run_sized (sized_new now) inputs

private def firstOfTwo : MediaFragment := ⟨7, 1, 1, 0, 2, 0, 0, 0, [1]⟩
private def fourthOfFive : MediaFragment := ⟨7, 1, 1, 3, 5, 0, 0, 0, [2]⟩

/-- What the first of the two leaves behind. -/
private def begun : MediaReassembler :=
  ⟨0, (∅ : Std.TreeMap U32 Part).insert 1 ⟨1, 2, [some [1], none], 1, 0, 0, 0, 1⟩, 0⟩

private theorem push_firstOfTwo : (MediaReassembler.new 0).push 1 firstOfTwo = some (begun, none) := by
  rw [push_begins (by decide) (by simp [MediaReassembler.new])]
  rfl

private theorem push_fourthOfFive : begun.push 2 fourthOfFive = none := by
  have hsized : begun.Sized := by
    obtain ⟨next, out, hpush, hnext, -⟩ | ⟨hpush, -⟩ := (sized_new 0).push 1 firstOfTwo
    · rw [push_firstOfTwo] at hpush
      cases hpush
      exact hnext
    · rw [push_firstOfTwo] at hpush
      cases hpush
  have hpart : begun.parts[fourthOfFive.msgId]? =
      some (⟨1, 2, [some [1], none], 1, 0, 0, 0, 1⟩ : Part) := by simp [begun, fourthOfFive]
  exact push_panics hsized 2 (by decide) hpart rfl (by decide)

/-- Two datagrams of one message that disagree about its total. -/
theorem reader_panics_on_totals :
    run step (some (.init 0)) [.helloAck 7, .recv 1 (encodeMediaDatagram firstOfTwo),
      .recv 2 (encodeMediaDatagram fourthOfFive)] = none := by
  have hfirst : (MediaReader.passed ⟨7, false, .new 0⟩ (encodeMediaDatagram firstOfTwo)) =
      some firstOfTwo := by
    rw [MediaReader.passed, decode_encodeMediaDatagram]
    rfl
  have hsecond : (MediaReader.passed ⟨7, true, begun⟩ (encodeMediaDatagram fourthOfFive)) =
      some fourthOfFive := by
    rw [MediaReader.passed, decode_encodeMediaDatagram]
    rfl
  simp only [run_cons, run_nil, step, Option.bind_some, MediaReader.init, MediaReader.recv, hfirst,
    push_firstOfTwo, Option.map_some, hsecond, push_fourthOfFive, Option.map_none]

end ReaderInput
end Kulua.Media
