import Kulua.Media.Reassembler
import Kulua.ReliableControl

/-! What is known of a datagram of a media message: it carries one of the consecutive
pieces of the data, with the message's header, whichever of the two senders cut the
message up. -/

namespace Kulua.Media
open Foundation Foundation.Segment MediaReassembler

/-- `media_datagrams` in Rust, or `sendMedia` in Java. -/
inductive Producer where
  | mediaDatagrams
  | sendMedia
  deriving DecidableEq, Repr

/-- A media message. Its data are an array, whose length is an `int`. -/
structure MediaMessage where
  producer : Producer
  clientId : U32
  msgId : U32
  seq : U32
  pts : BitVec 64
  revision : BitVec 64
  flags : U32
  data : Bytes
  isArray : data.length < 2 ^ 31
  deriving DecidableEq, Repr

namespace MediaMessage

def datagrams (m : MediaMessage) : List Bytes :=
  match m.producer with
  | .mediaDatagrams => mediaDatagrams m.clientId m.seq m.msgId m.pts m.revision m.flags m.data
  | .sendMedia => sendMedia m.clientId m.msgId m.seq m.pts m.revision m.flags m.data

def pieces (m : MediaMessage) : List Bytes :=
  if m.data = [] then [[]] else chunks maxFragment m.data

theorem flatten_pieces (m : MediaMessage) : m.pieces.flatten = m.data := by
  unfold pieces
  split
  · rename_i h
    simp [h]
  · exact flatten_chunks (by decide) m.data

/-- The fragment is number `i` of the message. -/
structure HasFragment (m : MediaMessage) (i : Nat) (f : MediaFragment) : Prop where
  msgId : f.msgId = m.msgId
  seq : f.seq = m.seq
  pts : f.pts = m.pts
  revision : f.revision = m.revision
  flags : f.flags = m.flags.setWidth 8
  frag : f.frag.toNat = i
  total : totalOf f = m.pieces.length
  media : f.fragTotal ≠ mediaOpenTotal
  payload : m.pieces[i]? = some f.payload

/-- The only piece is the data. -/
theorem HasFragment.data_eq {m : MediaMessage} {i : Nat} {f : MediaFragment}
    (h : m.HasFragment i f) (hone : m.pieces.length = 1) : f.payload = m.data := by
  obtain ⟨piece, hpiece⟩ := List.length_eq_one_iff.mp hone
  have hpayload := h.payload
  have hzero : i = 0 := by
    have := (List.getElem?_eq_some_iff.mp hpayload).1
    omega
  rw [hpiece, hzero] at hpayload
  obtain rfl := Option.some.inj hpayload
  rw [← flatten_pieces m, hpiece, List.flatten_singleton]

/-- The number of pieces as it is written into the header. -/
private theorem total_fits {n : Nat} (h : n ≤ 65534) :
    (BitVec.ofNat 16 n).toNat = n ∧ BitVec.ofNat 16 n ≠ mediaOpenTotal := by
  have hn : (BitVec.ofNat 16 n).toNat = n := by
    rw [BitVec.toNat_ofNat]
    omega
  refine ⟨hn, fun he => ?_⟩
  rw [he] at hn
  simp only [mediaOpenTotal, BitVec.ofNat_eq_ofNat, BitVec.toNat_ofNat] at hn
  omega

private theorem hasFragment_mk (m : MediaMessage) {i : Nat} {piece : Bytes} {total : BitVec 16}
    (hpiece : m.pieces[i]? = some piece) (hmany : m.pieces.length ≤ 65534)
    (htotal : total = BitVec.ofNat 16 m.pieces.length ∨ total = 0 ∧ m.pieces.length = 1) :
    m.HasFragment i ⟨m.clientId, m.msgId, m.seq, BitVec.ofNat 16 i, total, m.pts, m.revision,
      m.flags.setWidth 8, piece⟩ := by
  have hi : i < m.pieces.length := (List.getElem?_eq_some_iff.mp hpiece).1
  obtain ⟨hn, hmedia⟩ := total_fits hmany
  refine
    { msgId := rfl
      seq := rfl
      pts := rfl
      revision := rfl
      flags := rfl
      frag := by
        rw [BitVec.toNat_ofNat]
        omega
      total := ?_
      media := ?_
      payload := hpiece }
  · rcases htotal with rfl | ⟨rfl, hone⟩
    · have hne : BitVec.ofNat 16 m.pieces.length ≠ 0 := fun he => by
        rw [he] at hn
        simp at hn
        omega
      simp only [totalOf, if_neg hne, hn]
    · simp only [totalOf, if_true, hone]
  · rcases htotal with rfl | ⟨rfl, -⟩
    · exact hmedia
    · show (0 : BitVec 16) ≠ mediaOpenTotal
      decide

private theorem length_pieces (m : MediaMessage) :
    m.pieces.length = if m.data = [] then 1 else (m.data.length + maxFragment - 1) / maxFragment := by
  unfold pieces
  split <;> simp

private theorem getElem?_pieces {m : MediaMessage} {i : Nat} (h : i < m.pieces.length) :
    m.pieces[i]? = some (slice m.data (i * maxFragment) maxFragment) := by
  unfold pieces at h ⊢
  split
  · rename_i hdata
    rw [if_pos hdata, List.length_singleton] at h
    simp [hdata, slice, Nat.lt_one_iff.mp h]
  · rename_i hdata
    rw [if_neg hdata, length_chunks] at h
    rw [chunks, List.getElem?_map, List.getElem?_range h]
    rfl

private theorem hasFragment_mediaDatagrams {m : MediaMessage} {i : Nat} {buf : Bytes}
    (hmany : (mediaDatagrams m.clientId m.seq m.msgId m.pts m.revision m.flags m.data).length ≤
      65534)
    (h : (mediaDatagrams m.clientId m.seq m.msgId m.pts m.revision m.flags m.data)[i]? = some buf) :
    ∃ f, decodeMediaDatagram buf = some f ∧ m.HasFragment i f := by
  simp only [mediaDatagrams, ← length_pieces] at h hmany
  rw [List.length_map, List.length_range] at hmany
  rw [List.getElem?_map] at h
  obtain ⟨j, hj, rfl⟩ := Option.map_eq_some_iff.mp h
  obtain ⟨hlt, rfl⟩ := List.getElem?_eq_some_iff.mp hj
  rw [List.getElem_range, decode_encodeMediaDatagram]
  rw [List.length_range] at hlt
  refine ⟨_, rfl, hasFragment_mk m (getElem?_pieces hlt) hmany ?_⟩
  split
  · exact Or.inr ⟨rfl, ‹_›⟩
  · exact Or.inl rfl

/-- In Java the loop runs over the pieces, or not at all: without data, or where the sum
of the lengths overflows. -/
private theorem sendMediaTotal_cases (m : MediaMessage) :
    (sendMediaTotal m.data).toInt.toNat = 0 ∨
      (sendMediaTotal m.data).toInt.toNat = m.pieces.length ∧
        sendMediaTotal m.data = BitVec.ofNat 32 m.pieces.length := by
  rcases eq_or_ne m.data [] with hdata | hdata
  · rw [hdata]
    exact Or.inl (by decide)
  · have htotal : sendMediaTotal m.data = ReliableControl.Sender.fragmentTotal m.data := by
      rw [ReliableControl.Sender.fragmentTotal, if_neg (by simpa using hdata)]
      rfl
    have hcount : (sendMediaTotal m.data).toInt.toNat =
        (ReliableControl.Sender.slices m.data).length := by
      simp [htotal, ReliableControl.Sender.slices]
    rcases Nat.lt_or_ge (2 ^ 31) (m.data.length + maxFragment) with hlo | hfit
    · rw [hcount, ReliableControl.Sender.slices_overflow hlo m.isArray]
      exact Or.inl rfl
    · have hpieces : ReliableControl.Sender.slices m.data = m.pieces := by
        rw [ReliableControl.Sender.slices_fits hdata hfit, pieces, if_neg hdata]
      rw [hcount, hpieces, htotal, ReliableControl.Sender.fragmentTotal_slices hdata hfit, hpieces]
      exact Or.inr ⟨rfl, rfl⟩

private theorem hasFragment_sendMedia {m : MediaMessage} {i : Nat} {buf : Bytes}
    (hmany : (sendMedia m.clientId m.msgId m.seq m.pts m.revision m.flags m.data).length ≤ 65534)
    (h : (sendMedia m.clientId m.msgId m.seq m.pts m.revision m.flags m.data)[i]? = some buf) :
    ∃ f, decodeMediaDatagram buf = some f ∧ m.HasFragment i f := by
  rcases sendMediaTotal_cases m with hnone | ⟨hcount, htotal⟩
  · simp [sendMedia, hnone] at h
  · rw [sendMedia, hcount, List.length_map, List.length_range] at hmany
    rw [sendMedia, hcount, List.getElem?_map] at h
    obtain ⟨j, hj, rfl⟩ := Option.map_eq_some_iff.mp h
    obtain ⟨hlt, rfl⟩ := List.getElem?_eq_some_iff.mp hj
    rw [List.getElem_range, encode_eq, decode_encodeMediaDatagram]
    rw [List.length_range] at hlt
    have hfrag : (BitVec.ofNat 32 i).setWidth 16 = BitVec.ofNat 16 i := by
      apply BitVec.eq_of_toNat_eq
      simp only [BitVec.toNat_setWidth, BitVec.toNat_ofNat]
      omega
    have hsize : (sendMediaTotal m.data).setWidth 16 = BitVec.ofNat 16 m.pieces.length := by
      apply BitVec.eq_of_toNat_eq
      simp only [htotal, BitVec.toNat_setWidth, BitVec.toNat_ofNat]
      omega
    rw [hfrag]
    exact ⟨_, rfl, hasFragment_mk m (getElem?_pieces hlt) hmany (Or.inl hsize)⟩

/-- A datagram of a message of at most 65534 fragments is read as one of its fragments. -/
theorem hasFragment_datagrams {m : MediaMessage} (hmany : m.datagrams.length ≤ 65534) {i : Nat}
    {buf : Bytes} (h : m.datagrams[i]? = some buf) :
    ∃ f, decodeMediaDatagram buf = some f ∧ m.HasFragment i f := by
  unfold datagrams at hmany h
  split at hmany
  · exact hasFragment_mediaDatagrams hmany (by simpa [*] using h)
  · exact hasFragment_sendMedia hmany (by simpa [*] using h)

/-- A message with as many datagrams as pieces: of few enough pieces and, from Java, not empty. -/
theorem length_datagrams {m : MediaMessage} (hmany : m.pieces.length ≤ 65534)
    (hdata : m.producer = .sendMedia → m.data ≠ []) : m.datagrams.length = m.pieces.length := by
  unfold datagrams
  cases hproducer : m.producer with
  | mediaDatagrams => simp [mediaDatagrams, length_pieces]
  | sendMedia =>
    have hne := hdata hproducer
    rw [length_pieces, if_neg hne] at hmany
    have htotal : sendMediaTotal m.data = ReliableControl.Sender.fragmentTotal m.data := by
      rw [ReliableControl.Sender.fragmentTotal, if_neg (by simpa using hne)]
      rfl
    have hcount : (sendMediaTotal m.data).toInt.toNat =
        (ReliableControl.Sender.slices m.data).length := by
      simp [htotal, ReliableControl.Sender.slices]
    have hfit : m.data.length + maxFragment ≤ 2 ^ 31 := by
      simp only [maxFragment] at hmany ⊢
      omega
    simp only [sendMedia, List.length_map, List.length_range, hcount, pieces, if_neg hne,
      ReliableControl.Sender.slices_fits hne hfit]

end MediaMessage

end Kulua.Media
