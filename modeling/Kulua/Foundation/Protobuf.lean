import Kulua.Foundation.Text
import Mathlib.Data.Nat.Log

/-! The wire format of Protocol Buffers. A message is the sequence of its fields, each of them a
key and a value; a message inside a message stands behind its length. In proto3 a scalar field
that holds its default is not written. -/

namespace Kulua.Foundation.Protobuf
open Text

abbrev Byte := BitVec 8

/-- Seven bits a byte, the low ones first; every byte but the last is marked. -/
def varint (n : Nat) : List Byte :=
  if n < 128 then [BitVec.ofNat 8 n]
  else BitVec.ofNat 8 (n % 128 + 128) :: varint (n / 128)

def varintLength (n : Nat) : Nat := Nat.log 128 n + 1

theorem length_varint (n : Nat) : (varint n).length = varintLength n := by
  fun_induction varint n with
  | case1 n small => simp [varintLength, Nat.log_of_lt small]
  | case2 n large ih =>
      rw [List.length_cons, ih, varintLength, varintLength,
        Nat.log_of_one_lt_of_le (by decide) (Nat.not_lt.mp large)]

theorem varintLength_le {n k : Nat} (h : n < 128 ^ (k + 1)) : varintLength n ≤ k + 1 :=
  Nat.log_lt_of_lt_pow' (Nat.succ_ne_zero k) h

theorem lt_varintLength {n k : Nat} (h : 128 ^ k ≤ n) : k < varintLength n :=
  Nat.lt_succ_of_le (Nat.le_log_of_pow_le (by decide) h)

inductive Field where
  | varint (tag value : Nat)
  | bytes (tag : Nat) (data : List Byte)
  | message (tag : Nat) (fields : List Field)

inductive WireType where
  | varint
  | lengthDelimited

def WireType.code : WireType → Nat
  | .varint => 0
  | .lengthDelimited => 2

def key (tag : Nat) (wire : WireType) : Nat := tag * 8 + wire.code

mutual

def Field.encodedLen : Field → Nat
  | .varint tag value => varintLength (key tag .varint) + varintLength value
  | .bytes tag data =>
    varintLength (key tag .lengthDelimited) + varintLength data.length + data.length
  | .message tag fields =>
    varintLength (key tag .lengthDelimited) + varintLength (encodedLen fields) + encodedLen fields

def encodedLen : List Field → Nat
  | [] => 0
  | field :: fields => field.encodedLen + encodedLen fields

end

mutual

def Field.encode : Field → List Byte
  | .varint tag value => varint (key tag .varint) ++ varint value
  | .bytes tag data => varint (key tag .lengthDelimited) ++ varint data.length ++ data
  | .message tag fields =>
    varint (key tag .lengthDelimited) ++ varint (encodedLen fields) ++ encode fields

def encode : List Field → List Byte
  | [] => []
  | field :: fields => field.encode ++ encode fields

end

mutual

theorem Field.length_encode : ∀ field : Field, field.encode.length = field.encodedLen
  | .varint tag value => by simp [Field.encode, Field.encodedLen, length_varint]
  | .bytes tag data => by
      simp [Field.encode, Field.encodedLen, length_varint, Nat.add_assoc]
  | .message tag fields => by
      simp [Field.encode, Field.encodedLen, length_varint, length_encode fields, Nat.add_assoc]

/-- The length announced in front of a message is the length of its bytes. -/
theorem length_encode : ∀ fields : List Field, (encode fields).length = encodedLen fields
  | [] => rfl
  | field :: fields => by
      rw [encode, List.length_append, field.length_encode, length_encode fields, encodedLen]

end

def uint64 (tag : Nat) (v : BitVec 64) : List Field := if v = 0 then [] else [.varint tag v.toNat]
def uint32 (tag : Nat) (v : BitVec 32) : List Field := if v = 0 then [] else [.varint tag v.toNat]

/-- A negative `int32` is written as the `int64` of the same value. -/
def int32 (tag : Nat) (v : BitVec 32) : List Field :=
  if v = 0 then [] else [.varint tag (v.signExtend 64).toNat]

/-- The sign is folded into the lowest bit, so that small values of either sign are short. -/
def zigzag (v : BitVec 32) : BitVec 32 := (v <<< 1) ^^^ v.sshiftRight 31

def sint32 (tag : Nat) (v : BitVec 32) : List Field := uint32 tag (zigzag v)

def boolean (tag : Nat) (v : Bool) : List Field := if v then [.varint tag 1] else []

def data (tag : Nat) (bytes : List Byte) : List Field :=
  if bytes = [] then [] else [.bytes tag bytes]

def string (tag : Nat) (s : Str) : List Field := if s = [] then [] else [.bytes tag (utf8 s)]

def optionalString (tag : Nat) : Option Str → List Field
  | none => []
  | some s => [.bytes tag (utf8 s)]

def optionalUint32 (tag : Nat) : Option (BitVec 32) → List Field
  | none => []
  | some v => [.varint tag v.toNat]

def optionalBoolean (tag : Nat) : Option Bool → List Field
  | none => []
  | some v => [.varint tag v.toNat]

def optionalMessage (tag : Nat) : Option (List Field) → List Field
  | none => []
  | some fields => [.message tag fields]

def repeatedMessage (tag : Nat) (messages : List (List Field)) : List Field :=
  messages.map (.message tag)

def littleEndian (v : BitVec 32) : List Byte :=
  [v.setWidth 8, (v >>> 8).setWidth 8, (v >>> 16).setWidth 8, (v >>> 24).setWidth 8]

/-- A `float` by its bits. It is compared with the default as a number, so neither of the zeros is
written. -/
def float (tag : Nat) (v : BitVec 32) : List Byte :=
  if v = 0 ∨ v = 0x80000000 then [] else varint (tag * 8 + 5) ++ littleEndian v

end Kulua.Foundation.Protobuf
