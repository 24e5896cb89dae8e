import Kulua.Media.Datagram

/-! The header of media datagrams as both ends read and write it: `codec.rs` encodes and
decodes all of it, `MediaDatagram.java` encodes it and reads the client id. -/

namespace Kulua.Media
open Foundation Foundation.Segment Foundation.BigEndian

/-- `MediaDatagram.encode`, or none where it throws: `allocate` at a capacity that is not
an `int`, `put` at a range that is not one of the array. -/
def encodeRange (clientId msgId seq frag fragTotal : U32) (pts revision : BitVec 64)
    (flags : U32) (payload : Bytes) (off len : U32) : Option Bytes :=
  if (BitVec.ofNat 32 mediaHdrLen + len).slt 0 then none
  else if off.slt 0 ∨ len.slt 0 ∨ payload.length < off.toNat + len.toNat then none
  else
    some (encode clientId msgId seq frag fragTotal pts revision flags
      (slice payload off.toNat len.toNat))

/-- `parseClientId`; the datagram is at the front of the receive buffer. -/
def parseClientId (buf : Bytes) (len : Nat) : U32 :=
  if len < mediaHdrLen then -1 else toWord 32 (slice buf 0 4)

@[simp] theorem length_encodeMediaDatagram (f : MediaFragment) :
    (encodeMediaDatagram f).length = mediaHdrLen + f.payload.length := by
  simp only [encodeMediaDatagram, List.length_append, length_ofWord, List.length_cons, mediaHdrLen]
  omega

theorem parseClientId_encode (f : MediaFragment) (rest : Bytes) :
    parseClientId (encodeMediaDatagram f ++ rest) (encodeMediaDatagram f).length = f.clientId := by
  have hlen : ¬mediaHdrLen + f.payload.length < mediaHdrLen := by omega
  have hfront : slice (encodeMediaDatagram f ++ rest) 0 4 = ofWord 4 f.clientId := by
    rw [encodeMediaDatagram, slice, List.drop_zero, List.append_assoc,
      List.take_left' (length_ofWord 4 f.clientId)]
  rw [parseClientId, length_encodeMediaDatagram, if_neg hlen, hfront, toWord_ofWord (by decide)]

theorem drop_eq_slice_append {α : Type*} (xs : List α) (i n : Nat) :
    xs.drop i = slice xs i n ++ xs.drop (i + n) := by
  rw [slice, ← List.drop_drop, List.take_append_drop]

/-- The bytes of a buffer from `i` on are those of the word read there and the others. -/
theorem drop_eq_ofWord {buf : Bytes} {i n : Nat} (h : i + n ≤ buf.length) :
    buf.drop i = ofWord n (toWord (8 * n) (slice buf i n)) ++ buf.drop (i + n) := by
  have hlen : (slice buf i n).length = n := by
    rw [slice, List.length_take, List.length_drop]
    omega
  rw [ofWord_toWord le_rfl hlen]
  exact drop_eq_slice_append buf i n

/-- What is long enough to be a datagram is the encoding of what is read from it. -/
theorem encode_decodeMediaDatagram {buf : Bytes} (h : mediaHdrLen ≤ buf.length) :
    ∃ f, decodeMediaDatagram buf = some f ∧ encodeMediaDatagram f = buf := by
  refine ⟨_, if_neg (by omega), ?_⟩
  simp only [mediaHdrLen] at h
  have hflags : buf.drop 32 = buf.getD 32 0 :: buf.drop 33 := by
    rw [List.drop_eq_getElem_cons (by omega), List.getD_eq_getElem?_getD,
      List.getElem?_eq_getElem (by omega), Option.getD_some]
  calc
    _ = ofWord 4 (toWord 32 (slice buf 0 4)) ++ (ofWord 4 (toWord 32 (slice buf 4 4)) ++
        (ofWord 4 (toWord 32 (slice buf 8 4)) ++ (ofWord 2 (toWord 16 (slice buf 12 2)) ++
          (ofWord 2 (toWord 16 (slice buf 14 2)) ++ (ofWord 8 (toWord 64 (slice buf 16 8)) ++
            (ofWord 8 (toWord 64 (slice buf 24 8)) ++ buf.drop 32)))))) := by rw [hflags]; rfl
    _ = buf.drop 0 := by
        rw [drop_eq_ofWord (i := 0) (n := 4) (by omega), drop_eq_ofWord (i := 4) (n := 4) (by omega),
          drop_eq_ofWord (i := 8) (n := 4) (by omega), drop_eq_ofWord (i := 12) (n := 2) (by omega),
          drop_eq_ofWord (i := 14) (n := 2) (by omega), drop_eq_ofWord (i := 16) (n := 8) (by omega),
          drop_eq_ofWord (i := 24) (n := 8) (by omega)]
    _ = buf := List.drop_zero

/-- The Java encoder on a fragment: its fields as `int`s, its payload the part of an array
between two others. -/
def javaEncode (f : MediaFragment) (pre post : Bytes) : Option Bytes :=
  encodeRange f.clientId f.msgId f.seq (f.frag.setWidth 32) (f.fragTotal.setWidth 32) f.pts
    f.revision (f.flags.setWidth 32) (pre ++ f.payload ++ post) (BitVec.ofNat 32 pre.length)
    (BitVec.ofNat 32 f.payload.length)

theorem slt_ofNat_zero {n : Nat} (h : n < 2 ^ 31) : (BitVec.ofNat 32 n).slt 0 = false := by
  rw [BitVec.slt_eq_decide, BitVec.toInt_eq_toNat_cond]
  simp
  omega

/-- The two encoders write the same bytes wherever the array and the datagram are of a size
that Java has. -/
theorem javaEncode_eq {f : MediaFragment} {pre post : Bytes}
    (harray : (pre ++ f.payload ++ post).length < 2 ^ 31)
    (hsize : mediaHdrLen + f.payload.length < 2 ^ 31) :
    javaEncode f pre post = some (encodeMediaDatagram f) := by
  simp only [List.length_append] at harray
  have hoff : (BitVec.ofNat 32 pre.length).toNat = pre.length := by
    rw [BitVec.toNat_ofNat]
    omega
  have hlen : (BitVec.ofNat 32 f.payload.length).toNat = f.payload.length := by
    rw [BitVec.toNat_ofNat]
    omega
  have hpiece : slice (pre ++ f.payload ++ post) pre.length f.payload.length = f.payload := by
    rw [slice, List.append_assoc, List.drop_left, List.take_left]
  have hcapacity := slt_ofNat_zero hsize
  rw [BitVec.ofNat_add] at hcapacity
  rw [javaEncode, encodeRange, if_neg (Bool.eq_false_iff.mp hcapacity), if_neg, hoff, hlen, hpiece, encode_eq]
  · simp
  · rw [slt_ofNat_zero (by omega), slt_ofNat_zero (by omega), hoff, hlen]
    simp only [List.length_append]
    simp

/-- One header in two languages: the encoders agree, what they write is read back by both
decoders, and the datagrams are exactly the buffers of at least 33 bytes. -/
theorem media_header_contract (f : MediaFragment) (pre post : Bytes)
    (harray : (pre ++ f.payload ++ post).length < 2 ^ 31)
    (hsize : mediaHdrLen + f.payload.length < 2 ^ 31) :
    (javaEncode f pre post = some (encodeMediaDatagram f) ∧
      decodeMediaDatagram (encodeMediaDatagram f) = some f ∧
      ∀ rest, parseClientId (encodeMediaDatagram f ++ rest) (encodeMediaDatagram f).length =
        f.clientId) ∧
    ∀ buf : Bytes,
      (mediaHdrLen ≤ buf.length → ∃ g, decodeMediaDatagram buf = some g ∧
        encodeMediaDatagram g = buf ∧
        encode g.clientId g.msgId g.seq (g.frag.setWidth 32) (g.fragTotal.setWidth 32) g.pts
          g.revision (g.flags.setWidth 32) g.payload = buf) ∧
      (buf.length < mediaHdrLen → decodeMediaDatagram buf = none ∧
        ∀ rest, parseClientId (buf ++ rest) buf.length = -1) := by
  refine ⟨⟨javaEncode_eq harray hsize, decode_encodeMediaDatagram f, parseClientId_encode f⟩,
    fun buf => ⟨fun hlong => ?_, fun hshort => ⟨if_pos hshort, fun rest => if_pos hshort⟩⟩⟩
  obtain ⟨g, hdecode, hencode⟩ := encode_decodeMediaDatagram hlong
  refine ⟨g, hdecode, hencode, ?_⟩
  rw [encode_eq]
  simpa using hencode

/-- A fragment of two bytes out of an array of four. -/
theorem media_header_contract_sample :
    javaEncode ⟨7, 8, 9, 0, 2, 1000, 3, 1, [0xAB, 0xCD]⟩ [1] [2] =
      some (encodeMediaDatagram ⟨7, 8, 9, 0, 2, 1000, 3, 1, [0xAB, 0xCD]⟩) :=
  (media_header_contract ⟨7, 8, 9, 0, 2, 1000, 3, 1, [0xAB, 0xCD]⟩ [1] [2] (by decide)
    (by decide)).1.1

end Kulua.Media
