import Kulua.Foundation.BigEndian
import Kulua.Foundation.Framing
import Kulua.Frame

/-! The frames of the local socket (`types.rs`): a length, a type and the payload. -/

namespace Kulua.Ipc
open Foundation.BigEndian Foundation.Framing

abbrev Item := BitVec 8 × Bytes

def maxFrameSize : Nat := 16 * 1024 * 1024

namespace FrameCodec

/-- `[length:u32 LE][type:u8][payload:N]`; the length is cut to 32 bits. -/
def encode (item : Item) : Bytes :=
  (ofWord 4 (BitVec.ofNat 32 item.2.length)).reverse ++ item.1 :: item.2

def decode : Decoder Item (BitVec 8) String
  | b₀ :: b₁ :: b₂ :: b₃ :: frameType :: body =>
    let len := (toWord 32 [b₃, b₂, b₁, b₀]).toNat
    if maxFrameSize < len then .error s!"frame too large: {len} > {maxFrameSize}"
    else if body.length < len then .ok none
    else .ok (some ((frameType, body.take len), body.drop len))
  -- fewer than the five bytes of a header
  | _ => .ok none

def Fits (item : Item) : Prop := item.2.length ≤ maxFrameSize

/-- What the decoder does at the header of an item, whose length is cut to 32 bits. -/
theorem decode_declared (item : Item) (body : Bytes) :
    decode ((ofWord 4 (BitVec.ofNat 32 item.2.length)).reverse ++ item.1 :: body) =
      let len := item.2.length % 2 ^ 32
      if maxFrameSize < len then .error s!"frame too large: {len} > {maxFrameSize}"
      else if body.length < len then .ok none
      else .ok (some ((item.1, body.take len), body.drop len)) := by
  obtain ⟨b₃, b₂, b₁, b₀, hword⟩ : ∃ b₃ b₂ b₁ b₀,
      ofWord 4 (BitVec.ofNat 32 item.2.length) = [b₃, b₂, b₁, b₀] := ⟨_, _, _, _, rfl⟩
  have hlen : (toWord 32 [b₃, b₂, b₁, b₀]).toNat = item.2.length % 2 ^ 32 := by
    rw [← hword, toWord_ofWord (by decide), BitVec.toNat_ofNat]
  rw [hword]
  simp only [List.reverse_cons, List.reverse_nil, List.nil_append, List.cons_append, decode]
  rw [hlen]

theorem declared_of_fits {item : Item} (fits : Fits item) :
    item.2.length % 2 ^ 32 = item.2.length := by
  have hmax : maxFrameSize < 2 ^ 32 := by decide
  exact Nat.mod_eq_of_lt (lt_of_le_of_lt fits hmax)

theorem decode_header {item : Item} (fits : Fits item) (body : Bytes) :
    decode ((ofWord 4 (BitVec.ofNat 32 item.2.length)).reverse ++ item.1 :: body) =
      if body.length < item.2.length then .ok none
      else .ok (some ((item.1, body.take item.2.length), body.drop item.2.length)) := by
  have hfits : ¬maxFrameSize < item.2.length := Nat.not_lt.mpr fits
  rw [decode_declared, declared_of_fits fits]
  exact if_neg hfits

/-- The decoder hands out no item above the limit. -/
theorem fits_of_decode (src : Bytes) (item : Item) (rest : Bytes)
    (h : decode src = .ok (some (item, rest))) : Fits item := by
  unfold decode at h
  split at h
  · dsimp only at h
    split at h
    · cases h
    · next hfits =>
        split at h
        · cases h
        · cases h
          exact (List.length_take_le _ _).trans (Nat.not_lt.mp hfits)
  · cases h

theorem decode_short {src : Bytes} (short : src.length < 5) : decode src = .ok none := by
  unfold decode
  split
  · simp at short
    omega
  · rfl

/-- A part of a frame is a part of its header, or the header and a part of the payload. -/
theorem decode_part {item : Item} (fits : Fits item) {part : Bytes} (hpart : part <+: encode item)
    (hproper : part ≠ encode item) : decode part = .ok none := by
  by_cases hshort : part.length < 5
  · exact decode_short hshort
  · have hhead : (ofWord 4 (BitVec.ofNat 32 item.2.length)).reverse ++ [item.1] <+: part := by
      apply List.prefix_of_prefix_length_le _ hpart
      · simp
        omega
      · exact ⟨item.2, by simp [encode]⟩
    obtain ⟨body, rfl⟩ := hhead
    rw [encode, List.append_assoc, List.singleton_append, List.prefix_append_right_inj,
      List.cons_prefix_cons] at hpart
    have hbody : body ≠ item.2 := by
      intro h
      exact hproper (by simp [encode, h])
    have hlen : body.length < item.2.length := by
      refine lt_of_le_of_ne hpart.2.length_le fun h => hbody ?_
      exact hpart.2.eq_of_length h
    rw [List.append_assoc, List.singleton_append, decode_header fits, if_pos hlen]

theorem lawful : Lawful encode decode Fits where
  decode_nil := rfl
  decode_encode item rest fits := by
    have hlen : ¬(item.2 ++ rest).length < item.2.length := by
      rw [List.length_append]
      omega
    rw [encode, List.append_assoc, List.cons_append, decode_header fits, if_neg hlen,
      List.take_left, List.drop_left]
  decode_part _ _ fits := decode_part fits
  encode_ne_nil item := by simp [encode]

/-- However the stream of the items is cut, a chunk never brings an error: the items that
the bytes complete come out in order, and the bytes of the next one stay in the buffer,
from which nothing comes. When the chunks are the whole stream, the buffer is empty. -/
theorem decode_across_chunks (items : List Item) (fits : ∀ item ∈ items, Fits item)
    (chunks : List Bytes) (hstream : chunks.flatten <+: encodeAll encode items) :
    (∃ done later rest, items = done ++ later ∧
      chunks.flatten = encodeAll encode done ++ rest ∧ Part encode later rest ∧
      feed decode ([], []) chunks = .ok (done, rest) ∧ decode rest = .ok none) ∧
    (chunks.flatten = encodeAll encode items →
      feed decode ([], []) chunks = .ok (items, [])) := by
  constructor
  · obtain ⟨done, later, rest, rfl, hsplit, hpart, hfeed⟩ :=
      lawful.feed_prefix fits (lawful.part_nil items)
        (show [] ++ chunks.flatten <+: encodeAll encode items from hstream) []
    have hvalid : ∀ item ∈ later, Fits item := fun item h => fits item (List.mem_append_right _ h)
    exact ⟨done, later, rest, rfl, hsplit, hpart, hfeed, lawful.decode_of_part hvalid hpart⟩
  · exact lawful.feed_all fits

/-- Two frames cut inside the length of the first and inside the payload of the second. -/
theorem decode_across_chunks_pair :
    (∃ done later rest,
      [(2, [0xde]), (3, [0xca, 0xfe])] = done ++ later ∧
      List.flatten [[1, 0], [0, 0, 2, 0xde, 2, 0, 0, 0, 3, 0xca], [0xfe]] =
        encodeAll encode done ++ rest ∧ Part encode later rest ∧
      feed decode ([], []) [[1, 0], [0, 0, 2, 0xde, 2, 0, 0, 0, 3, 0xca], [0xfe]] =
        .ok (done, rest) ∧ decode rest = .ok none) ∧
    (List.flatten [[1, 0], [0, 0, 2, 0xde, 2, 0, 0, 0, 3, 0xca], [0xfe]] =
        encodeAll encode [(2, [0xde]), (3, [0xca, 0xfe])] →
      feed decode ([], []) [[1, 0], [0, 0, 2, 0xde, 2, 0, 0, 0, 3, 0xca], [0xfe]] =
        .ok ([(2, [0xde]), (3, [0xca, 0xfe])], [])) :=
  decode_across_chunks [(2, [0xde]), (3, [0xca, 0xfe])]
    (by simp [Fits, maxFrameSize]) [[1, 0], [0, 0, 2, 0xde, 2, 0, 0, 0, 3, 0xca], [0xfe]]
    (by decide)

end FrameCodec
end Kulua.Ipc
