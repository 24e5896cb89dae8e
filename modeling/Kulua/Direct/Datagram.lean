import Kulua.Frame
import Kulua.Foundation.ProtobufDecode

/-! The `Frame` of `direct.proto` on the wire. An enumeration is a number there, and one that this
end does not know is kept. -/

namespace Kulua
open Foundation Foundation.Protobuf

def Stream.value : Stream → U32
  | .ctrl => 0
  | .unrecognized value => value

def Stream.ofValue (v : U32) : Stream := if v = 0 then .ctrl else .unrecognized v

def FrameType.value : FrameType → U32
  | .data => 0
  | .ack => 1
  | .hello => 2
  | .helloAck => 3
  | .heartbeat => 4
  | .bye => 5
  | .unrecognized value => value

def FrameType.ofValue (v : U32) : FrameType :=
  if v = 0 then .data
  else if v = 1 then .ack
  else if v = 2 then .hello
  else if v = 3 then .helloAck
  else if v = 4 then .heartbeat
  else if v = 5 then .bye
  else .unrecognized v

@[simp] theorem Stream.ofValue_zero : Stream.ofValue 0#32 = .ctrl := rfl

@[simp] theorem FrameType.ofValue_zero : FrameType.ofValue 0#32 = .data := rfl

instance : Message Hello where
  default := ⟨"", false⟩
  fields m := string 1 m.scid.toList ++ boolean 2 m.audio
  merge m
    | (1, w) => w.string.map fun v => { m with scid := String.ofList v }
    | (2, w) => w.boolean.map fun v => { m with audio := v }
    | _ => some m
  sound m := by simp
  takeUp_fields m _ := by simp [takeUp_append, takeUp_string, takeUp_boolean]

instance : Message HelloAck where
  default := ⟨"", 0, 0, 0⟩
  fields m := string 1 m.scid.toList ++ uint32 2 m.audioCodec ++ uint32 3 m.videoCodec ++
    uint32 4 m.clientId
  merge m
    | (1, w) => w.string.map fun v => { m with scid := String.ofList v }
    | (2, w) => w.uint32.map fun v => { m with audioCodec := v }
    | (3, w) => w.uint32.map fun v => { m with videoCodec := v }
    | (4, w) => w.uint32.map fun v => { m with clientId := v }
    | _ => some m
  sound m := by simp
  takeUp_fields m _ := by simp [takeUp_append, takeUp_string, takeUp_uint32]

/-- A variant of a `oneof` is written whatever it holds. -/
def Payload.field : Payload → Field
  | .data bytes => .bytes 10 bytes
  | .ackSeq seq => .varint 12 seq.toNat
  | .hello m => .message 13 (Message.fields m)
  | .helloAck m => .message 14 (Message.fields m)

namespace Frame

def fields (f : Frame) : List Field :=
  int32 1 f.stream.value ++ int32 2 f.type.value ++ uint32 3 f.seq ++ uint32 4 f.msgId ++
    uint32 5 f.frag ++ uint32 6 f.fragTotal ++ (f.payload.map Payload.field).toList

def merge : Merge Frame := fun f field =>
  match field with
  | (1, w) => w.int32.map fun v => { f with stream := .ofValue v }
  | (2, w) => w.int32.map fun v => { f with type := .ofValue v }
  | (3, w) => w.uint32.map fun v => { f with seq := v }
  | (4, w) => w.uint32.map fun v => { f with msgId := v }
  | (5, w) => w.uint32.map fun v => { f with frag := v }
  | (6, w) => w.uint32.map fun v => { f with fragTotal := v }
  | (10, w) => w.data.map fun v => { f with payload := some (.data v) }
  | (12, w) => w.uint32.map fun v => { f with payload := some (.ackSeq v) }
  | (13, w) =>
    let m := match f.payload with | some (.hello m) => m | _ => default
    (w.message Message.merge m).map fun v => { f with payload := some (.hello v) }
  | (14, w) =>
    let m := match f.payload with | some (.helloAck m) => m | _ => default
    (w.message Message.merge m).map fun v => { f with payload := some (.helloAck v) }
  | _ => some f

def encode (f : Frame) : Bytes := Protobuf.encode f.fields

def decode (bytes : Bytes) : Option Frame :=
  (read bytes).bind fun fields => fields.foldlM merge ⟨.ctrl, .data, 0, 0, 0, 0, none⟩

/-- A number that has a name is not held as one that has none. -/
structure Canonical (f : Frame) : Prop where
  stream : .ofValue f.stream.value = f.stream
  type : .ofValue f.type.value = f.type

theorem sound_fields (f : Frame) : Sound f.fields := by
  have hpayload : Sound (f.payload.map Payload.field).toList := by
    rcases f.payload with _ | (bytes | seq | m | m)
    · exact sound_nil
    · exact sound_bytes (by decide) _
    · exact sound_varint (by decide) (lt_trans seq.isLt (by decide))
    · exact sound_message (by decide) _
    · exact sound_message (by decide) _
  simp [fields, hpayload]

theorem takeUp_payload {f : Frame} (hlen : encodedLen f.fields < 2 ^ 64) :
    takeUp merge { f with payload := none } (f.payload.map Payload.field).toList = some f := by
  obtain ⟨stream, type, seq, msgId, frag, total, payload⟩ := f
  rcases payload with _ | (bytes | seq | m | m)
  · rfl
  · simp [Payload.field, takeUp_singleton, merge, Field.wire]
  · simp [Payload.field, takeUp_singleton, merge, Field.wire]
  · have hmem : Field.message 13 (Message.fields m) ∈
        fields ⟨stream, type, seq, msgId, frag, total, some (.hello m)⟩ := by
      simp [fields, Payload.field]
    exact (takeUp_singleton _).trans
      (Message.map_message_fields (lt_of_le_of_lt (encodedLen_le_of_mem hmem) hlen) _)
  · have hmem : Field.message 14 (Message.fields m) ∈
        fields ⟨stream, type, seq, msgId, frag, total, some (.helloAck m)⟩ := by
      simp [fields, Payload.field]
    exact (takeUp_singleton _).trans
      (Message.map_message_fields (lt_of_le_of_lt (encodedLen_le_of_mem hmem) hlen) _)

theorem takeUp_fields {f : Frame} (canonical : f.Canonical)
    (hlen : encodedLen f.fields < 2 ^ 64) :
    takeUp merge ⟨.ctrl, .data, 0, 0, 0, 0, none⟩ f.fields = some f := by
  have hheader : takeUp merge ⟨.ctrl, .data, 0, 0, 0, 0, none⟩
      (int32 1 f.stream.value ++ int32 2 f.type.value ++ uint32 3 f.seq ++ uint32 4 f.msgId ++
        uint32 5 f.frag ++ uint32 6 f.fragTotal) = some { f with payload := none } := by
    simp [takeUp_append, takeUp_int32, takeUp_uint32, merge, canonical.stream, canonical.type]
  rw [fields, takeUp_append, hheader, Option.bind_some, takeUp_payload hlen]

theorem decode_encode {f : Frame} (canonical : f.Canonical) (hlen : f.encode.length < 2 ^ 64) :
    decode f.encode = some f := by
  rw [encode, length_encode] at hlen
  rw [decode, encode, read_encode f.sound_fields hlen, Option.bind_some]
  exact takeUp_fields canonical hlen

theorem canonical_ctrlData (seq msgId total : U32) (i : Nat) (chunk : Bytes) :
    (ctrlData seq msgId total i chunk).Canonical := ⟨rfl, rfl⟩

theorem canonical_ctrlAck (ackSeq : U32) : (ctrlAck ackSeq).Canonical := ⟨rfl, rfl⟩

theorem encodedLen_uint32_le (tag : Nat) (htag : tag < 16) (v : U32) :
    encodedLen (uint32 tag v) ≤ 6 := by
  have hkey := varintLength_le (n := key tag .varint) (k := 0) (by rw [key, WireType.code]; omega)
  have hvalue := varintLength_le (n := v.toNat) (k := 4) (lt_trans v.isLt (by decide))
  rw [uint32]
  split
  · exact Nat.zero_le _
  · rw [encodedLen, encodedLen, Field.encodedLen]
    omega

/-- A fragment fits into the receive buffer of either end. -/
theorem length_encode_ctrlData (seq msgId total : U32) (i : Nat) {chunk : Bytes}
    (hchunk : chunk.length ≤ maxFragment) :
    (ctrlData seq msgId total i chunk).encode.length ≤ 1227 := by
  have hseq := encodedLen_uint32_le 3 (by decide) seq
  have hid := encodedLen_uint32_le 4 (by decide) msgId
  have hfrag := encodedLen_uint32_le 5 (by decide) (BitVec.ofNat 32 i)
  have htotal := encodedLen_uint32_le 6 (by decide) total
  have hkey := varintLength_le (n := key 10 .lengthDelimited) (k := 0) (by decide)
  have hlength := varintLength_le (n := chunk.length) (k := 1) (lt_of_le_of_lt hchunk (by decide))
  have hmax : maxFragment = 1200 := rfl
  have hnone : int32 1 Stream.ctrl.value ++ int32 2 FrameType.data.value = [] := rfl
  rw [encode, length_encode, fields]
  change encodedLen (int32 1 Stream.ctrl.value ++ int32 2 FrameType.data.value ++ uint32 3 seq ++
    uint32 4 msgId ++ uint32 5 (BitVec.ofNat 32 i) ++ uint32 6 total ++ [.bytes 10 chunk]) ≤ 1227
  simp only [hnone, List.nil_append, encodedLen_append, encodedLen, Field.encodedLen]
  omega

theorem length_encode_ctrlAck (ackSeq : U32) : (ctrlAck ackSeq).encode.length ≤ 1227 := by
  have hkey := varintLength_le (n := key 12 .varint) (k := 0) (by decide)
  have hvalue := varintLength_le (n := ackSeq.toNat) (k := 4) (lt_trans ackSeq.isLt (by decide))
  have htype : encodedLen (int32 1 Stream.ctrl.value ++ int32 2 FrameType.ack.value) = 2 := by
    decide +kernel
  have hnone (tag : Nat) : uint32 tag 0 = [] := rfl
  rw [encode, length_encode, fields]
  change encodedLen (int32 1 Stream.ctrl.value ++ int32 2 FrameType.ack.value ++ uint32 3 0 ++
    uint32 4 0 ++ uint32 5 0 ++ uint32 6 0 ++ [.varint 12 ackSeq.toNat]) ≤ 1227
  simp only [hnone, List.append_nil]
  rw [encodedLen_append, htype]
  simp only [encodedLen, Field.encodedLen]
  omega

end Frame
end Kulua
