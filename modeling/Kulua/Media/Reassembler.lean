import Kulua.Media.Datagram
import Kulua.Foundation.Keyed

/-! `MediaReassembler` of `codec.rs`: partial messages keyed by message id, and the
sequence number of the message emitted last. -/

namespace Kulua.Media
open Foundation

structure Part where
  seq : U32
  total : Nat
  frags : List (Option Bytes)
  n : Nat
  pts : BitVec 64
  revision : BitVec 64
  flags : U32
  touched : Nat
  deriving DecidableEq, Repr

def Part.new (now total : Nat) (frag : MediaFragment) : Part where
  seq := frag.seq
  total := total
  frags := List.replicate total none
  n := 0
  pts := frag.pts
  revision := frag.revision
  flags := frag.flags.setWidth 32
  touched := now

/-- Put the payload into its slot unless the slot is taken. -/
def Part.fill (part : Part) (i : Nat) (data : Bytes) : Option Bytes → Part
  | none => { part with frags := part.frags.set i (some data), n := part.n + 1 }
  | some _ => part

structure AssembledMedia where
  pts : BitVec 64
  revision : BitVec 64
  flags : U32
  data : Bytes
  deriving DecidableEq, Repr

structure MediaReassembler where
  lastSeq : U32
  parts : Std.TreeMap U32 Part
  lastEmit : Nat

namespace MediaReassembler

def new (now : Nat) : MediaReassembler := ⟨0, ∅, now⟩

/-- The end of `push`, for the entry of the message; none where the index is out of
bounds and the code panics. -/
def store (self : MediaReassembler) (now : Nat) (frag : MediaFragment) (part : Part) :
    Option (MediaReassembler × Option AssembledMedia) :=
  part.frags[frag.frag.toNat]?.map fun slot =>
    let part := Part.fill part frag.frag.toNat frag.payload slot
    if part.n = part.total then
      (⟨part.seq, self.parts.erase frag.msgId, now⟩,
        some ⟨part.pts, part.revision, part.flags, (part.frags.filterMap id).flatten⟩)
    else ({ self with parts := self.parts.insert frag.msgId part }, none)

def isStale (self : MediaReassembler) (frag : MediaFragment) : Bool :=
  decide (frag.seq < self.lastSeq) ||
    (frag.seq == self.lastSeq && self.lastSeq != 0 && !self.parts.contains frag.msgId)

def totalOf (frag : MediaFragment) : Nat := if frag.fragTotal = 0 then 1 else frag.fragTotal.toNat

/-- `push`, with the message that it completes; none where the code panics. -/
def push (self : MediaReassembler) (now : Nat) (frag : MediaFragment) :
    Option (MediaReassembler × Option AssembledMedia) :=
  if frag.fragTotal = mediaOpenTotal then some (self, none)
  else if self.isStale frag then some (self, none)
  else if totalOf frag ≤ frag.frag.toNat then some (self, none)
  else if totalOf frag = 1 then
    some (⟨frag.seq, self.parts.erase frag.msgId, now⟩,
      some ⟨frag.pts, frag.revision, frag.flags.setWidth 32, frag.payload⟩)
  else
    match _h : self.parts[frag.msgId]? with
    | none => self.store now frag (Part.new now (totalOf frag) frag)
    | some part =>
      let part := { part with touched := now }
      if part.seq = frag.seq then self.store now frag part
      else if part.seq < frag.seq then
        -- another message under this id: start over without the old one
        push { self with parts := self.parts.erase frag.msgId } now frag
      else some ({ self with parts := self.parts.insert frag.msgId part }, none)
termination_by self.parts.size
decreasing_by
  have present : self.parts.contains frag.msgId = true := by
    rw [Std.TreeMap.contains_eq_isSome_getElem?, _h]
    rfl
  have hsize := Keyed.size_erase_add_one present
  omega

def sweep (self : MediaReassembler) (now timeout : Nat) : MediaReassembler :=
  { self with parts := self.parts.filter fun _ part => now - part.touched < timeout }

/-- The fragment is neither dropped at once nor a message of its own. -/
def Joins (self : MediaReassembler) (frag : MediaFragment) : Prop :=
  frag.fragTotal ≠ mediaOpenTotal ∧ self.isStale frag = false ∧
    frag.frag.toNat < totalOf frag ∧ totalOf frag ≠ 1

instance (self : MediaReassembler) (frag : MediaFragment) : Decidable (self.Joins frag) :=
  inferInstanceAs (Decidable (_ ∧ _))

variable {self : MediaReassembler}

theorem push_dropped {now : Nat} {frag : MediaFragment}
    (h : frag.fragTotal = mediaOpenTotal ∨ self.isStale frag = true ∨
      totalOf frag ≤ frag.frag.toNat) : self.push now frag = some (self, none) := by
  rw [push]
  split_ifs with h1 h2 h3 h4 <;> first | rfl | tauto

theorem push_whole {now : Nat} {frag : MediaFragment} (hmedia : frag.fragTotal ≠ mediaOpenTotal)
    (hfresh : self.isStale frag = false) (hindex : frag.frag.toNat < totalOf frag)
    (hone : totalOf frag = 1) :
    self.push now frag = some (⟨frag.seq, self.parts.erase frag.msgId, now⟩,
      some ⟨frag.pts, frag.revision, frag.flags.setWidth 32, frag.payload⟩) := by
  rw [push, if_neg hmedia, if_neg (by simp [hfresh]), if_neg (by omega), if_pos hone]

theorem push_begins {now : Nat} {frag : MediaFragment} (hjoins : self.Joins frag)
    (hnone : self.parts[frag.msgId]? = none) :
    self.push now frag = self.store now frag (Part.new now (totalOf frag) frag) := by
  obtain ⟨hmedia, hfresh, hindex, hmany⟩ := hjoins
  rw [push, if_neg hmedia, if_neg (by simp [hfresh]), if_neg (by omega), if_neg hmany]
  split
  · rfl
  · rename_i part hpart
    rw [hnone] at hpart
    cases hpart

theorem push_joins {now : Nat} {frag : MediaFragment} (hjoins : self.Joins frag) {part : Part}
    (hpart : self.parts[frag.msgId]? = some part) :
    self.push now frag =
      if part.seq = frag.seq then self.store now frag { part with touched := now }
      else if part.seq < frag.seq then
        push { self with parts := self.parts.erase frag.msgId } now frag
      else
        some ({ self with parts := self.parts.insert frag.msgId { part with touched := now } },
          none) := by
  obtain ⟨hmedia, hfresh, hindex, hmany⟩ := hjoins
  rw [push, if_neg hmedia, if_neg (by simp [hfresh]), if_neg (by omega), if_neg hmany]
  split
  · rename_i hnone
    rw [hnone] at hpart
    cases hpart
  · rename_i other hother
    obtain rfl : other = part := Option.some.inj (hother.symm.trans hpart)
    rfl

end MediaReassembler

end Kulua.Media
