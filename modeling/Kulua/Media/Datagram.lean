import Kulua.Frame
import Kulua.Foundation.BigEndian
import Kulua.Foundation.Segment

/-! Media datagrams: a header of 33 bytes, big-endian, and a piece of one media
message. `media_datagrams` of `codec.rs` and `sendMedia` of `ClientConnection.java`
cut a message into datagrams; `decode_media_datagram` reads one. -/

namespace Kulua.Media
open Foundation Foundation.Segment Foundation.BigEndian

structure MediaFragment where
  clientId : U32
  msgId : U32
  seq : U32
  frag : BitVec 16
  fragTotal : BitVec 16
  pts : BitVec 64
  revision : BitVec 64
  flags : BitVec 8
  payload : Bytes
  deriving DecidableEq, Repr

def mediaHdrLen : Nat := 33

/-- `MEDIA_OPEN_TOTAL`, the `frag_total` of a registration without media. -/
def mediaOpenTotal : BitVec 16 := 0xFFFF

def encodeMediaDatagram (f : MediaFragment) : Bytes :=
  ofWord 4 f.clientId ++ (ofWord 4 f.msgId ++ (ofWord 4 f.seq ++ (ofWord 2 f.frag ++
    (ofWord 2 f.fragTotal ++ (ofWord 8 f.pts ++ (ofWord 8 f.revision ++
      (f.flags :: f.payload)))))))

def decodeMediaDatagram (buf : Bytes) : Option MediaFragment :=
  if buf.length < mediaHdrLen then none
  else
    some
      { clientId := toWord 32 (slice buf 0 4)
        msgId := toWord 32 (slice buf 4 4)
        seq := toWord 32 (slice buf 8 4)
        frag := toWord 16 (slice buf 12 2)
        fragTotal := toWord 16 (slice buf 14 2)
        pts := toWord 64 (slice buf 16 8)
        revision := toWord 64 (slice buf 24 8)
        flags := buf.getD 32 0
        payload := buf.drop mediaHdrLen }

/-- `media_datagrams`. -/
def mediaDatagrams (clientId msgSeq msgId : U32) (pts revision : BitVec 64) (flags : U32)
    (data : Bytes) : List Bytes :=
  let total := if data = [] then 1 else (data.length + maxFragment - 1) / maxFragment
  (List.range total).map fun i =>
    encodeMediaDatagram
      { clientId := clientId
        msgId := msgId
        seq := msgSeq
        frag := BitVec.ofNat 16 i
        fragTotal := if total = 1 then 0 else BitVec.ofNat 16 total
        pts := pts
        revision := revision
        flags := flags.setWidth 8
        payload := slice data (i * maxFragment) maxFragment }

/-- `MediaDatagram.encode` for the given piece of the data. -/
def encode (clientId msgId seq frag fragTotal : U32) (pts revision : BitVec 64) (flags : U32)
    (piece : Bytes) : Bytes :=
  ofWord 4 clientId ++ (ofWord 4 msgId ++ (ofWord 4 seq ++ (ofWord 2 (frag.setWidth 16) ++
    (ofWord 2 (fragTotal.setWidth 16) ++ (ofWord 8 pts ++ (ofWord 8 revision ++
      (flags.setWidth 8 :: piece)))))))

/-- `(data.length + MAX_FRAGMENT - 1) / MAX_FRAGMENT` in `int` arithmetic. -/
def sendMediaTotal (data : Bytes) : U32 :=
  (BitVec.ofNat 32 data.length + BitVec.ofNat 32 maxFragment - 1).sdiv (BitVec.ofNat 32 maxFragment)

/-- `sendMedia` to an endpoint that is registered, with the message id it has drawn. -/
def sendMedia (clientId msgId msgSeq : U32) (pts revision : BitVec 64) (flags : U32)
    (data : Bytes) : List Bytes :=
  (List.range (sendMediaTotal data).toInt.toNat).map fun i =>
    encode clientId msgId msgSeq (BitVec.ofNat 32 i) (sendMediaTotal data) pts revision flags
      (slice data (i * maxFragment) maxFragment)

private theorem slice_front {α : Type*} {mid : List α} (post : List α) {n : Nat}
    (h : mid.length = n) : slice (mid ++ post) 0 n = mid := by
  rw [slice, List.drop_zero, ← h, List.take_left]

private theorem drop_skip {α : Type*} {pre : List α} (rest : List α) {i : Nat}
    (h : pre.length ≤ i) : (pre ++ rest).drop i = rest.drop (i - pre.length) := by
  rw [List.drop_append, List.drop_eq_nil_of_le h, List.nil_append]

private theorem slice_skip {α : Type*} {pre : List α} (rest : List α) {i : Nat} (n : Nat)
    (h : pre.length ≤ i) : slice (pre ++ rest) i n = slice rest (i - pre.length) n := by
  rw [slice, drop_skip rest h, slice]

theorem decode_encodeMediaDatagram (f : MediaFragment) :
    decodeMediaDatagram (encodeMediaDatagram f) = some f := by
  have hlen : ¬(encodeMediaDatagram f).length < mediaHdrLen := by
    simp only [encodeMediaDatagram, List.length_append, length_ofWord, List.length_cons,
      mediaHdrLen]
    omega
  have htail : (encodeMediaDatagram f).drop 32 = f.flags :: f.payload := by
    simp (disch := simp) only [encodeMediaDatagram, drop_skip, length_ofWord, Nat.reduceSub,
      List.drop_zero]
  have hflags : (encodeMediaDatagram f).getD 32 0 = f.flags := by
    have h := congrArg (fun bytes => bytes.getD 0 0) htail
    simpa [List.getD_eq_getElem?_getD] using h
  have hpayload : (encodeMediaDatagram f).drop mediaHdrLen = f.payload := by
    have h := congrArg (List.drop 1) htail
    rwa [List.drop_drop] at h
  rw [decodeMediaDatagram, if_neg hlen, hflags, hpayload]
  simp (disch := simp) only [encodeMediaDatagram, slice_skip, slice_front, length_ofWord,
    Nat.reduceSub, toWord_ofWord]

/-- The two encoders write the same bytes. -/
theorem encode_eq (clientId msgId seq frag fragTotal : U32) (pts revision : BitVec 64)
    (flags : U32) (piece : Bytes) :
    encode clientId msgId seq frag fragTotal pts revision flags piece =
      encodeMediaDatagram ⟨clientId, msgId, seq, frag.setWidth 16, fragTotal.setWidth 16, pts,
        revision, flags.setWidth 8, piece⟩ := rfl

end Kulua.Media
