import Kulua.Foundation.Segment

/-! The control-port datagram. Every UDP datagram is exactly one `Frame`; the
protobuf serialisation on both ends is a third-party bijection, so a datagram
is represented by the frame it carries. Words of the wire format are 32-bit
vectors: Rust reads them unsigned, Java reads the same bits as `int`. Instants
and durations are nanoseconds. -/

namespace Kulua

abbrev U32 := BitVec 32

abbrev Bytes := List (BitVec 8)

inductive Stream where
  | ctrl
  | unrecognized (value : U32)
  deriving DecidableEq, Repr

inductive FrameType where
  | data
  | ack
  | hello
  | helloAck
  | heartbeat
  | bye
  | unrecognized (value : U32)
  deriving DecidableEq, Repr

structure Hello where
  scid : String
  audio : Bool
  deriving DecidableEq, Repr

structure HelloAck where
  scid : String
  audioCodec : U32
  videoCodec : U32
  clientId : U32
  deriving DecidableEq, Repr

inductive Payload where
  | data (bytes : Bytes)
  | ackSeq (seq : U32)
  | hello (hello : Hello)
  | helloAck (ack : HelloAck)
  deriving DecidableEq, Repr

structure Frame where
  stream : Stream
  type : FrameType
  seq : U32
  msgId : U32
  frag : U32
  fragTotal : U32
  payload : Option Payload
  deriving DecidableEq, Repr

/-- Safe UDP payload; one fragment carries at most this many bytes. -/
def maxFragment : Nat := 1200

/-- Send window of the control stream (documented, not enforced by either sender). -/
def window : Nat := 32

def initialRto : Nat := 200000000
def maxRto : Nat := 1600000000
def lossLimit : Nat := 8
def maxRecvBuffer : Nat := 4096

namespace Frame

/-- The DATA frame of fragment `i` of a control message. -/
def ctrlData (seq msgId total : U32) (i : Nat) (chunk : Bytes) : Frame where
  stream := .ctrl
  type := .data
  seq := seq
  msgId := msgId
  frag := BitVec.ofNat 32 i
  fragTotal := total
  payload := some (.data chunk)

/-- The cumulative ACK frame; it consumes no sequence number. -/
def ctrlAck (ackSeq : U32) : Frame where
  stream := .ctrl
  type := .ack
  seq := 0
  msgId := 0
  frag := 0
  fragTotal := 0
  payload := some (.ackSeq ackSeq)

/-- The total a receiver reads from a frame; zero stands for one. -/
def declaredTotal (frame : Frame) : U32 := if frame.fragTotal = 0 then 1 else frame.fragTotal

theorem declaredTotal_ctrlData (seq msgId : U32) {n i : Nat} (chunk : Bytes) (hn : 0 < n)
    (hlt : n < 2 ^ 32) :
    (ctrlData seq msgId (BitVec.ofNat 32 n) i chunk).declaredTotal = BitVec.ofNat 32 n := by
  have hne : BitVec.ofNat 32 n ≠ 0 := by
    intro h
    have := congrArg BitVec.toNat h
    simp only [BitVec.toNat_ofNat, BitVec.ofNat_eq_ofNat] at this
    omega
  exact if_neg hne

end Frame

/-- The frames a sender builds for the pieces of one message, the first of them
carrying sequence number `base`. -/
def fragments (base msgId total : U32) (parts : List Bytes) : List Frame :=
  parts.mapIdx fun i chunk => Frame.ctrlData (base + BitVec.ofNat 32 i) msgId total i chunk

@[simp] theorem length_fragments (base msgId total : U32) (parts : List Bytes) :
    (fragments base msgId total parts).length = parts.length := by simp [fragments]

@[simp] theorem fragments_nil (base msgId total : U32) : fragments base msgId total [] = [] := rfl

theorem getElem?_fragments (base msgId total : U32) (parts : List Bytes) (i : Nat) :
    (fragments base msgId total parts)[i]? =
      parts[i]?.map (Frame.ctrlData (base + BitVec.ofNat 32 i) msgId total i) := by
  simp [fragments]

theorem fragments_append_singleton (base msgId total : U32) (parts : List Bytes) (chunk : Bytes) :
    fragments base msgId total (parts ++ [chunk]) = fragments base msgId total parts ++
      [Frame.ctrlData (base + BitVec.ofNat 32 parts.length) msgId total parts.length chunk] := by
  simp [fragments, List.mapIdx_append]

/-- One unacknowledged fragment: the encoded frame kept for retransmission. -/
structure OutEntry where
  seq : U32
  wire : Frame
  lastSent : Nat
  lossCount : Nat
  deriving DecidableEq, Repr

namespace OutEntry

/-- The window entry registered for a frame sent at `now`. -/
def register (now : Nat) (f : Frame) : OutEntry := ⟨f.seq, f, now, 0⟩

/-- What an entry holds besides its timer. -/
def key (e : OutEntry) : U32 × Frame := (e.seq, e.wire)

theorem map_key_dropWhile (q : U32 → Bool) (es : List OutEntry) :
    (es.dropWhile fun e => q e.seq).map key = (es.map key).dropWhile fun k => q k.1 := by
  rw [List.dropWhile_map]
  rfl

@[simp] theorem key_register (now : Nat) (f : Frame) : (register now f).key = (f.seq, f) := rfl

end OutEntry

end Kulua
