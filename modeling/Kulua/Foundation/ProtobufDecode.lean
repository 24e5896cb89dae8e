import Kulua.Foundation.Protobuf

/-! Reading the wire format of Protocol Buffers. The bytes are cut into fields, and a message takes
them up one after the other: a scalar replaces the value, a message is merged into the one that is
there, and a tag that the message does not know is passed over. Groups, which proto3 does not have,
are refused. -/

namespace Kulua.Foundation.Protobuf
open Text

/-- The value of a field as it stands on the wire. -/
inductive Wire where
  | varint (value : Nat)
  | bits64 (data : List Byte)
  | bytes (data : List Byte)
  | bits32 (data : List Byte)

/-- A varint of at most `room` bytes, and what follows it. -/
def readVarintWithin : Nat → List Byte → Option (Nat × List Byte)
  | room + 1, b :: rest =>
    if b.toNat < 128 then some (b.toNat, rest)
    else (readVarintWithin room rest).map fun r => (b.toNat - 128 + 128 * r.1, r.2)
  | _, _ => none

/-- Ten bytes, of which the last adds the bit 63 and no other. -/
def readVarint (bytes : List Byte) : Option (Nat × List Byte) :=
  (readVarintWithin 10 bytes).filter fun r => r.1 < 2 ^ 64

def takeBytes (n : Nat) (bytes : List Byte) : Option (List Byte × List Byte) :=
  if bytes.length < n then none else some (bytes.take n, bytes.drop n)

def readWire : Nat → List Byte → Option (Wire × List Byte)
  | 0, bytes => (readVarint bytes).map fun r => (.varint r.1, r.2)
  | 1, bytes => (takeBytes 8 bytes).map fun r => (.bits64 r.1, r.2)
  | 2, bytes => do
    let (len, rest) ← readVarint bytes
    (takeBytes len rest).map fun r => (.bytes r.1, r.2)
  | 5, bytes => (takeBytes 4 bytes).map fun r => (.bits32 r.1, r.2)
  | _, _ => none

/-- A field with its tag. A key has 32 bits, and no tag is 0. -/
def readField (bytes : List Byte) : Option ((Nat × Wire) × List Byte) := do
  let (key, rest) ← readVarint bytes
  if 2 ^ 32 ≤ key ∨ key / 8 = 0 then none
  else (readWire (key % 8) rest).map fun r => ((key / 8, r.1), r.2)

/-- A field takes at least one byte, so there are no more fields than bytes. -/
def readWithin : Nat → List Byte → Option (List (Nat × Wire))
  | _, [] => some []
  | 0, _ => none
  | room + 1, bytes => do
    let (field, rest) ← readField bytes
    (readWithin room rest).map (field :: ·)

def read (bytes : List Byte) : Option (List (Nat × Wire)) := readWithin bytes.length bytes

/-- What the reader gets to see of a field. -/
def Field.wire : Field → Nat × Wire
  | .varint tag value => (tag, .varint value)
  | .bytes tag data => (tag, .bytes data)
  | .message tag fields => (tag, .bytes (Protobuf.encode fields))

/-- The tag of a field is one that a key has room for, and a varint has 64 bits. -/
def Field.Sound : Field → Prop
  | .varint tag value => (0 < tag ∧ tag < 2 ^ 29) ∧ value < 2 ^ 64
  | .bytes tag _ => 0 < tag ∧ tag < 2 ^ 29
  | .message tag _ => 0 < tag ∧ tag < 2 ^ 29

def Sound (fields : List Field) : Prop := ∀ field ∈ fields, field.Sound

theorem toNat_byte {n : Nat} (h : n < 256) : (BitVec.ofNat 8 n).toNat = n := by
  rw [BitVec.toNat_ofNat]
  exact Nat.mod_eq_of_lt h

theorem readVarintWithin_varint {n room : Nat} (h : n < 128 ^ (room + 1)) (rest : List Byte) :
    readVarintWithin (room + 1) (varint n ++ rest) = some (n, rest) := by
  induction room generalizing n with
  | zero =>
      have hn : n < 128 := by simpa using h
      rw [varint, if_pos hn, List.singleton_append, readVarintWithin,
        toNat_byte (by omega), if_pos hn]
  | succ room ih =>
      rw [varint]
      split
      · next hn =>
          rw [List.singleton_append, readVarintWithin, toNat_byte (by omega), if_pos hn]
      · have hhigh : n / 128 < 128 ^ (room + 1) := by
          rw [Nat.div_lt_iff_lt_mul (by decide), ← Nat.pow_succ]
          exact h
        have hbyte : (BitVec.ofNat 8 (n % 128 + 128)).toNat = n % 128 + 128 :=
          toNat_byte (by omega)
        have hvalue : n % 128 + 128 - 128 + 128 * (n / 128) = n := by omega
        rw [List.cons_append, readVarintWithin, hbyte, if_neg (by omega), ih hhigh,
          Option.map_some, hvalue]

theorem readVarint_varint {n : Nat} (h : n < 2 ^ 64) (rest : List Byte) :
    readVarint (varint n ++ rest) = some (n, rest) := by
  have hroom : n < 128 ^ (9 + 1) := lt_of_lt_of_le h (by decide)
  rw [readVarint, readVarintWithin_varint hroom, Option.filter_some, if_pos (decide_eq_true h)]

theorem takeBytes_append (data rest : List Byte) :
    takeBytes data.length (data ++ rest) = some (data, rest) := by
  rw [takeBytes, if_neg (by simp), List.take_left, List.drop_left]

theorem readField_code {tag code : Nat} (htag : 0 < tag ∧ tag < 2 ^ 29) (hcode : code < 8)
    (rest : List Byte) :
    readField (varint (tag * 8 + code) ++ rest) =
      (readWire code rest).map fun r => ((tag, r.1), r.2) := by
  have hkey : tag * 8 + code < 2 ^ 32 := by omega
  have htag' : (tag * 8 + code) / 8 = tag := by omega
  have hwire : (tag * 8 + code) % 8 = code := by omega
  have hvalid : ¬(2 ^ 32 ≤ tag * 8 + code ∨ tag = 0) := by omega
  simp only [readField, readVarint_varint (lt_trans hkey (by decide)), Option.bind_eq_bind,
    Option.bind_some, htag', hwire, if_neg hvalid]

theorem readField_key {tag : Nat} {wire : WireType} (htag : 0 < tag ∧ tag < 2 ^ 29)
    (rest : List Byte) :
    readField (varint (key tag wire) ++ rest) =
      (readWire wire.code rest).map fun r => ((tag, r.1), r.2) :=
  readField_code htag (by cases wire <;> decide) rest

theorem readField_bytes {tag : Nat} {data : List Byte} (htag : 0 < tag ∧ tag < 2 ^ 29)
    (hlen : data.length < 2 ^ 64) (rest : List Byte) :
    readField (varint (key tag .lengthDelimited) ++ varint data.length ++ data ++ rest) =
      some ((tag, .bytes data), rest) := by
  rw [List.append_assoc, List.append_assoc, readField_key htag]
  simp only [WireType.code, readWire, readVarint_varint hlen, Option.bind_eq_bind,
    Option.bind_some, takeBytes_append, Option.map_some]

theorem readField_encode {field : Field} (sound : field.Sound) (hlen : field.encodedLen < 2 ^ 64)
    (rest : List Byte) : readField (field.encode ++ rest) = some (field.wire, rest) := by
  cases field with
  | varint tag value =>
      rw [Field.encode, List.append_assoc, readField_key sound.1]
      simp only [WireType.code, readWire, readVarint_varint sound.2, Option.map_some, Field.wire]
  | bytes tag data =>
      rw [Field.encodedLen] at hlen
      rw [Field.encode, Field.wire]
      exact readField_bytes sound (by omega) rest
  | message tag fields =>
      rw [Field.encodedLen] at hlen
      rw [Field.encode, Field.wire, ← length_encode]
      exact readField_bytes sound (by rw [length_encode]; omega) rest

theorem encode_ne_nil (field : Field) : field.encode ≠ [] := by
  have hkey (n : Nat) : varint n ≠ [] := by
    rw [varint]
    split <;> exact List.cons_ne_nil _ _
  cases field <;> simp [Field.encode, hkey]

theorem readWithin_mono {room more : Nat} {bytes : List Byte} {fields : List (Nat × Wire)}
    (h : readWithin room bytes = some fields) (hle : room ≤ more) :
    readWithin more bytes = some fields := by
  induction more generalizing room bytes fields with
  | zero =>
      obtain rfl : room = 0 := by omega
      exact h
  | succ more ih =>
      cases bytes with
      | nil =>
          rw [readWithin] at h ⊢
          exact h
      | cons b bytes =>
          cases room with
          | zero => cases h
          | succ room =>
              obtain ⟨⟨field, rest⟩, hfield, hrest⟩ := Option.bind_eq_some_iff.mp h
              obtain ⟨later, hlater, rfl⟩ := Option.map_eq_some_iff.mp hrest
              exact Option.bind_eq_some_iff.mpr ⟨_, hfield,
                Option.map_eq_some_iff.mpr ⟨_, ih hlater (by omega), rfl⟩⟩

/-- The bytes are those of the fields, whatever comes behind them. -/
def Reads (bytes : List Byte) (fields : List (Nat × Wire)) : Prop :=
  ∀ rest later, read rest = some later → read (bytes ++ rest) = some (fields ++ later)

theorem Reads.read {bytes : List Byte} {fields : List (Nat × Wire)} (h : Reads bytes fields) :
    read bytes = some fields := by
  have hend : Protobuf.read [] = some [] := rfl
  simpa using h [] [] hend

theorem reads_nil : Reads [] [] := fun _ _ h => h

theorem Reads.append {bytes bytes' : List Byte} {fields fields' : List (Nat × Wire)}
    (h : Reads bytes fields) (h' : Reads bytes' fields') :
    Reads (bytes ++ bytes') (fields ++ fields') := by
  intro rest later hrest
  rw [List.append_assoc, List.append_assoc]
  exact h _ _ (h' rest later hrest)

theorem reads_field {bytes : List Byte} {field : Nat × Wire} (hne : bytes ≠ [])
    (h : ∀ rest, readField (bytes ++ rest) = some (field, rest)) : Reads bytes [field] := by
  intro rest later hrest
  have hlen := List.length_pos_iff.mpr hne
  obtain ⟨room, hroom⟩ : ∃ r, (bytes ++ rest).length = r + 1 :=
    ⟨(bytes ++ rest).length - 1, by rw [List.length_append]; omega⟩
  have hmore : rest.length ≤ room := by
    rw [List.length_append] at hroom
    omega
  have hlater := readWithin_mono hrest hmore
  rw [Protobuf.read, hroom, readWithin]
  · simp only [h rest, Option.bind_eq_bind, Option.bind_some, hlater, Option.map_some,
      List.singleton_append]
  · simp [hne]

theorem reads_encode {fields : List Field} (sound : Sound fields)
    (hlen : encodedLen fields < 2 ^ 64) : Reads (encode fields) (fields.map Field.wire) := by
  induction fields with
  | nil => exact reads_nil
  | cons field fields ih =>
      rw [encodedLen] at hlen
      have hfield : Reads field.encode [field.wire] := reads_field (encode_ne_nil field)
        (readField_encode (sound field (List.mem_cons_self ..)) (by omega))
      have hfields := ih (fun f hf => sound f (List.mem_cons_of_mem _ hf)) (by omega)
      rw [encode, List.map_cons, ← List.singleton_append]
      exact hfield.append hfields

/-- The reader finds the fields that the writer has written. -/
theorem read_encode {fields : List Field} (sound : Sound fields)
    (hlen : encodedLen fields < 2 ^ 64) : read (encode fields) = some (fields.map Field.wire) :=
  (reads_encode sound hlen).read

namespace Wire

def uint64 : Wire → Option (BitVec 64)
  | .varint value => some (BitVec.ofNat 64 value)
  | _ => none

/-- The low half of the value. -/
def uint32 : Wire → Option (BitVec 32)
  | .varint value => some (BitVec.ofNat 32 value)
  | _ => none

def int32 : Wire → Option (BitVec 32) := uint32

def unzigzag (v : BitVec 32) : BitVec 32 := (v >>> 1) ^^^ -(v &&& 1)

def sint32 (w : Wire) : Option (BitVec 32) := w.uint32.map unzigzag

def float : Wire → Option (BitVec 32)
  | .bits32 [a, b, c, d] => some (d ++ c ++ b ++ a)
  | _ => none

def data : Wire → Option (List Byte)
  | .bytes data => some data
  | _ => none

def boolean : Wire → Option Bool
  | .varint value => some (value != 0)
  | _ => none

def string : Wire → Option Str
  | .bytes data => (String.fromUTF8? (data.map UInt8.ofBitVec).toByteArray).map String.toList
  | _ => none

end Wire

section Merge
variable {α β : Type*}

/-- What one field does to a message. -/
abbrev Merge (α : Type*) := α → Nat × Wire → Option α

/-- A message in a field is merged into the one that is there. -/
def Wire.message (merge : Merge α) (m : α) : Wire → Option α
  | .bytes data => (read data).bind (·.foldlM merge m)
  | _ => none

/-- What a message becomes when the fields are written and read again. -/
def takeUp (merge : Merge α) (m : α) (fields : List Field) : Option α :=
  (fields.map Field.wire).foldlM merge m

variable {merge : Merge α} {m : α}

@[simp] theorem takeUp_nil : takeUp merge m [] = some m := rfl

theorem takeUp_cons (field : Field) (fields : List Field) :
    takeUp merge m (field :: fields) =
      (merge m field.wire).bind fun m' => takeUp merge m' fields := rfl

theorem takeUp_append (fs gs : List Field) :
    takeUp merge m (fs ++ gs) = (takeUp merge m fs).bind fun m' => takeUp merge m' gs := by
  simp only [takeUp, List.map_append, List.foldlM_append]
  rfl

theorem takeUp_singleton (field : Field) : takeUp merge m [field] = merge m field.wire := by
  rw [takeUp_cons]
  exact Option.bind_fun_some _

theorem message_reads {bytes : List Byte} {fields : List (Nat × Wire)} (h : Reads bytes fields) :
    (Wire.bytes bytes).message merge m = fields.foldlM merge m := by
  rw [Wire.message, h.read, Option.bind_some]

theorem message_encode {fields : List Field} (sound : Sound fields)
    (hlen : encodedLen fields < 2 ^ 64) :
    (Wire.bytes (encode fields)).message merge m = takeUp merge m fields := by
  rw [message_reads (reads_encode sound hlen)]
  rfl

/-- Reading the bytes makes `m'` of the message `m`. -/
def Takes (merge : Merge α) (bytes : List Byte) (m m' : α) : Prop :=
  ∃ fields, Reads bytes fields ∧ fields.foldlM merge m = some m'

theorem Takes.append {bytes bytes' : List Byte} {m m' m'' : α} (h : Takes merge bytes m m')
    (h' : Takes merge bytes' m' m'') : Takes merge (bytes ++ bytes') m m'' := by
  obtain ⟨fields, hreads, hfold⟩ := h
  obtain ⟨fields', hreads', hfold'⟩ := h'
  refine ⟨fields ++ fields', hreads.append hreads', ?_⟩
  rw [List.foldlM_append, hfold]
  exact hfold'

theorem takes_encode {fields : List Field} {m m' : α} (sound : Sound fields)
    (hlen : encodedLen fields < 2 ^ 64) (h : takeUp merge m fields = some m') :
    Takes merge (encode fields) m m' := ⟨_, reads_encode sound hlen, h⟩

theorem Takes.message {bytes : List Byte} {m m' : α} (h : Takes merge bytes m m') :
    (Wire.bytes bytes).message merge m = some m' := by
  obtain ⟨fields, hreads, hfold⟩ := h
  exact (message_reads hreads).trans hfold

/-- A scalar that is not written has its default, which reading it would not change. -/
theorem takeUp_string {tag : Nat} (hdefault : merge m (tag, .bytes []) = some m) (s : Str) :
    takeUp merge m (string tag s) = merge m (tag, .bytes (utf8 s)) := by
  rw [string]
  split
  · next hs =>
      subst hs
      exact hdefault.symm
  · exact takeUp_singleton _

theorem takeUp_uint64 {tag : Nat} (hdefault : merge m (tag, .varint 0) = some m) (v : BitVec 64) :
    takeUp merge m (uint64 tag v) = merge m (tag, .varint v.toNat) := by
  rw [uint64]
  split
  · next hv =>
      subst hv
      exact hdefault.symm
  · exact takeUp_singleton _

theorem takeUp_uint32 {tag : Nat} (hdefault : merge m (tag, .varint 0) = some m) (v : BitVec 32) :
    takeUp merge m (uint32 tag v) = merge m (tag, .varint v.toNat) := by
  rw [uint32]
  split
  · next hv =>
      subst hv
      exact hdefault.symm
  · exact takeUp_singleton _

theorem takeUp_int32 {tag : Nat} (hdefault : merge m (tag, .varint 0) = some m) (v : BitVec 32) :
    takeUp merge m (int32 tag v) = merge m (tag, .varint (v.signExtend 64).toNat) := by
  rw [int32]
  split
  · next hv =>
      subst hv
      exact hdefault.symm
  · exact takeUp_singleton _

theorem takeUp_sint32 {tag : Nat} (hdefault : merge m (tag, .varint 0) = some m)
    (v : BitVec 32) :
    takeUp merge m (sint32 tag v) = merge m (tag, .varint (zigzag v).toNat) :=
  takeUp_uint32 hdefault _

theorem takeUp_data {tag : Nat} (hdefault : merge m (tag, .bytes []) = some m)
    (bytes : List Byte) : takeUp merge m (data tag bytes) = merge m (tag, .bytes bytes) := by
  rw [data]
  split
  · next hbytes =>
      subst hbytes
      exact hdefault.symm
  · exact takeUp_singleton _

theorem takeUp_boolean {tag : Nat} (hdefault : merge m (tag, .varint 0) = some m) (v : Bool) :
    takeUp merge m (boolean tag v) = merge m (tag, .varint v.toNat) := by
  cases v with
  | false => exact hdefault.symm
  | true => exact takeUp_singleton _

/-- An optional field that is not written stays as it is: `u` is the message as a function of the
field. -/
theorem takeUp_optionalString {tag : Nat} (u : Option Str → α)
    (hsome : ∀ s, merge (u none) (tag, .bytes (utf8 s)) = some (u (some s))) (o : Option Str) :
    takeUp merge (u none) (optionalString tag o) = some (u o) := by
  cases o with
  | none => rfl
  | some s => exact (takeUp_singleton _).trans (hsome s)

theorem takeUp_optionalUint32 {tag : Nat} (u : Option (BitVec 32) → α)
    (hsome : ∀ v : BitVec 32, merge (u none) (tag, .varint v.toNat) = some (u (some v)))
    (o : Option (BitVec 32)) : takeUp merge (u none) (optionalUint32 tag o) = some (u o) := by
  cases o with
  | none => rfl
  | some v => exact (takeUp_singleton _).trans (hsome v)

theorem takeUp_optionalBoolean {tag : Nat} (u : Option Bool → α)
    (hsome : ∀ v : Bool, merge (u none) (tag, .varint v.toNat) = some (u (some v)))
    (o : Option Bool) : takeUp merge (u none) (optionalBoolean tag o) = some (u o) := by
  cases o with
  | none => rfl
  | some v => exact (takeUp_singleton _).trans (hsome v)

theorem takeUp_optionalMessage {tag : Nat} (u : Option β → α) (fields : β → List Field)
    (o : Option β) (hsome : ∀ x, o = some x →
      merge (u none) (tag, .bytes (encode (fields x))) = some (u (some x))) :
    takeUp merge (u none) (optionalMessage tag (o.map fields)) = some (u o) := by
  cases o with
  | none => rfl
  | some x => exact (takeUp_singleton _).trans (hsome x rfl)

/-- Every message of a repeated field is added at the end. -/
theorem takeUp_repeatedMessage {tag : Nat} (u : List β → α) (fields : β → List Field)
    (xs : List β) (hpush : ∀ x ∈ xs, ∀ done,
      merge (u done) (tag, .bytes (encode (fields x))) = some (u (done ++ [x]))) (done : List β) :
    takeUp merge (u done) (repeatedMessage tag (xs.map fields)) = some (u (done ++ xs)) := by
  induction xs generalizing done with
  | nil => simp [repeatedMessage]
  | cons x xs ih =>
      have hrest := ih (fun y hy => hpush y (List.mem_cons_of_mem x hy)) (done ++ [x])
      rw [repeatedMessage] at hrest
      rw [repeatedMessage, List.map_cons, List.map_cons, takeUp_cons, Field.wire,
        hpush x (List.mem_cons_self ..) done, Option.bind_some, hrest, List.append_assoc,
        List.singleton_append]

end Merge

namespace Wire

@[simp] theorem uint64_varint (v : BitVec 64) : uint64 (.varint v.toNat) = some v := by
  simp [uint64]

@[simp] theorem uint32_varint (v : BitVec 32) : uint32 (.varint v.toNat) = some v := by
  simp [uint32]

@[simp] theorem int32_varint (v : BitVec 32) :
    int32 (.varint (v.signExtend 64).toNat) = some v := by
  have hlow : BitVec.ofNat 32 (v.signExtend 64).toNat = v := by
    apply BitVec.eq_of_toNat_eq
    have hv := v.isLt
    rw [BitVec.toNat_ofNat, BitVec.toNat_signExtend, BitVec.toNat_setWidth]
    split <;> omega
  rw [int32, uint32, hlow]

@[simp] theorem boolean_varint (v : Bool) : boolean (.varint v.toNat) = some v := by
  cases v <;> rfl

theorem getLsbD_sign (v : BitVec 32) {i : Nat} (hi : i < 32) :
    (v.sshiftRight 31).getLsbD i = v.msb := by
  rw [BitVec.getLsbD_sshiftRight, BitVec.msb_eq_getLsbD_last, decide_eq_false (by omega)]
  split
  · obtain rfl : i = 0 := by omega
    rfl
  · rfl

theorem getLsbD_neg_bit (v : BitVec 32) {i : Nat} (hi : i < 32) :
    (-(v &&& 1)).getLsbD i = v.getLsbD 0 := by
  have hbit : v &&& 1 = if v.getLsbD 0 then 1 else 0 := by
    apply BitVec.eq_of_getLsbD_eq
    intro j hj
    cases j <;> cases h : v.getLsbD 0 <;> simp_all
  have hones : -(1 : BitVec 32) = BitVec.allOnes 32 := rfl
  rw [hbit]
  cases v.getLsbD 0 with
  | false => simp
  | true => rw [if_pos rfl, hones, BitVec.getLsbD_allOnes, decide_eq_true hi]

theorem unzigzag_zigzag (v : BitVec 32) : unzigzag (zigzag v) = v := by
  have hsign : (zigzag v).getLsbD 0 = v.msb := by
    rw [zigzag, BitVec.getLsbD_xor, getLsbD_sign v (by decide), BitVec.getLsbD_shiftLeft]
    simp
  apply BitVec.eq_of_getLsbD_eq
  intro i hi
  rw [unzigzag, BitVec.getLsbD_xor, getLsbD_neg_bit _ hi, hsign, BitVec.getLsbD_ushiftRight, zigzag,
    BitVec.getLsbD_xor, BitVec.getLsbD_shiftLeft]
  rcases eq_or_ne i 31 with rfl | hlast
  · have hout : (v.sshiftRight 31).getLsbD (1 + 31) = false :=
      BitVec.getLsbD_of_ge _ _ (by decide)
    rw [hout, BitVec.msb_eq_getLsbD_last]
    simp
  · have hsucc : 1 + i < 32 := by omega
    rw [getLsbD_sign _ hsucc, decide_eq_true hsucc, Nat.add_sub_cancel_left]
    simp

@[simp] theorem sint32_varint (v : BitVec 32) : sint32 (.varint (zigzag v).toNat) = some v := by
  rw [sint32, uint32_varint, Option.map_some, unzigzag_zigzag]

theorem float_littleEndian (v : BitVec 32) : float (.bits32 (littleEndian v)) = some v := by
  have hbytes : (v >>> 24).setWidth 8 ++ (v >>> 16).setWidth 8 ++ (v >>> 8).setWidth 8 ++
      v.setWidth 8 = v := by
    apply BitVec.eq_of_getLsbD_eq
    intro i hi
    simp only [BitVec.getLsbD_append, BitVec.getLsbD_setWidth, BitVec.getLsbD_ushiftRight]
    split_ifs with low
    · rw [decide_eq_true low, Bool.true_and]
    all_goals
      rw [decide_eq_true (by omega), Bool.true_and]
      congr 1
      omega
  exact congrArg some hbytes

@[simp] theorem data_bytes (bytes : List Byte) : data (.bytes bytes) = some bytes := rfl

@[simp] theorem sint32_zero : sint32 (.varint 0) = some 0 := rfl
@[simp] theorem uint64_zero : uint64 (.varint 0) = some 0 := rfl
@[simp] theorem uint32_zero : uint32 (.varint 0) = some 0 := rfl
@[simp] theorem int32_zero : int32 (.varint 0) = some 0 := rfl
@[simp] theorem boolean_zero : boolean (.varint 0) = some false := rfl

@[simp] theorem string_utf8 (s : Str) : string (.bytes (utf8 s)) = some s := by
  have hid : UInt8.ofBitVec ∘ UInt8.toBitVec = id := rfl
  have hbytes : ((utf8 s).map UInt8.ofBitVec).toByteArray = s.utf8Encode := by
    rw [List.utf8Encode, utf8, List.map_flatMap]
    simp [hid]
  have hvalid : s.utf8Encode.IsValidUTF8 := ⟨s, rfl⟩
  rw [string, hbytes, String.fromUTF8?, dif_pos hvalid, Option.map_some]
  exact congrArg some String.toList_ofList

@[simp] theorem string_nil : string (.bytes []) = some [] := string_utf8 []

end Wire

section Sound

@[simp] theorem sound_nil : Sound [] := List.forall_mem_nil _

@[simp] theorem sound_append (fs gs : List Field) : Sound (fs ++ gs) ↔ Sound fs ∧ Sound gs :=
  List.forall_mem_append

@[simp] theorem sound_singleton (field : Field) : Sound [field] ↔ field.Sound :=
  List.forall_mem_singleton

variable {tag : Nat} (htag : 0 < tag ∧ tag < 2 ^ 29)
include htag

theorem sound_varint {value : Nat} (hvalue : value < 2 ^ 64) : Sound [.varint tag value] :=
  (sound_singleton _).mpr ⟨htag, hvalue⟩

theorem sound_bytes (data : List Byte) : Sound [.bytes tag data] := (sound_singleton _).mpr htag

theorem sound_message (fields : List Field) : Sound [.message tag fields] :=
  (sound_singleton _).mpr htag

@[simp] theorem sound_string (s : Str) : Sound (string tag s) := by
  rw [string]
  split
  · exact sound_nil
  · exact sound_bytes htag _

@[simp] theorem sound_uint64 (v : BitVec 64) : Sound (uint64 tag v) := by
  rw [uint64]
  split
  · exact sound_nil
  · exact sound_varint htag v.isLt

@[simp] theorem sound_uint32 (v : BitVec 32) : Sound (uint32 tag v) := by
  rw [uint32]
  split
  · exact sound_nil
  · exact sound_varint htag (lt_trans v.isLt (by decide))

@[simp] theorem sound_int32 (v : BitVec 32) : Sound (int32 tag v) := by
  rw [int32]
  split
  · exact sound_nil
  · exact sound_varint htag (v.signExtend 64).isLt

@[simp] theorem sound_sint32 (v : BitVec 32) : Sound (sint32 tag v) := sound_uint32 htag _

@[simp] theorem sound_data (bytes : List Byte) : Sound (data tag bytes) := by
  rw [data]
  split
  · exact sound_nil
  · exact sound_bytes htag _

@[simp] theorem sound_boolean (v : Bool) : Sound (boolean tag v) := by
  cases v with
  | false => exact sound_nil
  | true => exact sound_varint htag (by decide)

@[simp] theorem sound_optionalString (o : Option Str) : Sound (optionalString tag o) := by
  cases o with
  | none => exact sound_nil
  | some s => exact sound_bytes htag _

@[simp] theorem sound_optionalUint32 (o : Option (BitVec 32)) : Sound (optionalUint32 tag o) := by
  cases o with
  | none => exact sound_nil
  | some v => exact sound_varint htag (lt_trans v.isLt (by decide))

@[simp] theorem sound_optionalBoolean (o : Option Bool) : Sound (optionalBoolean tag o) := by
  cases o with
  | none => exact sound_nil
  | some v => cases v <;> exact sound_varint htag (by decide)

@[simp] theorem sound_optionalMessage (o : Option (List Field)) :
    Sound (optionalMessage tag o) := by
  cases o with
  | none => exact sound_nil
  | some fields => exact sound_message htag fields

@[simp] theorem sound_repeatedMessage (messages : List (List Field)) :
    Sound (repeatedMessage tag messages) :=
  List.forall_mem_map.mpr fun _ _ => htag

end Sound

/-- A `float` that is not written is zero. -/
theorem reads_float {tag : Nat} (htag : 0 < tag ∧ tag < 2 ^ 29) (v : BitVec 32) :
    Reads (float tag v)
      (if v = 0 ∨ v = 0x80000000 then [] else [(tag, .bits32 (littleEndian v))]) := by
  rw [float]
  split
  · exact reads_nil
  · refine reads_field (by simp [littleEndian]) fun rest => ?_
    rw [List.append_assoc, readField_code htag (by decide)]
    rfl

/-- Negative zero is not written and so read as zero. -/
def unsigned (v : BitVec 32) : BitVec 32 := if v = 0x80000000 then 0 else v

theorem takes_float {α : Type*} (merge : Merge α) (tag : Nat) (htag : 0 < tag ∧ tag < 2 ^ 29)
    (u : BitVec 32 → α)
    (hmerge : ∀ v, merge (u 0) (tag, .bits32 (littleEndian v)) = some (u v)) (v : BitVec 32) :
    Takes merge (float tag v) (u 0) (u (unsigned v)) := by
  refine ⟨_, reads_float htag v, ?_⟩
  split
  · next hzero =>
      have hv : unsigned v = 0 := by
        rcases hzero with rfl | rfl <;> rfl
      rw [hv]
      rfl
  · next hzero =>
      rw [unsigned, if_neg fun h => hzero (.inr h)]
      exact (Option.bind_fun_some _).trans (hmerge v)

theorem encodedLen_append (fs gs : List Field) :
    encodedLen (fs ++ gs) = encodedLen fs + encodedLen gs := by
  induction fs with
  | nil => simp [encodedLen]
  | cons field fs ih => rw [List.cons_append, encodedLen, encodedLen, ih, Nat.add_assoc]

theorem mem_repeatedMessage {β : Type*} {tag : Nat} {fields : β → List Field} {xs : List β}
    {x : β} (h : x ∈ xs) : Field.message tag (fields x) ∈ repeatedMessage tag (xs.map fields) :=
  List.mem_map_of_mem (List.mem_map_of_mem h)

/-- A message within a message is shorter. -/
theorem encodedLen_le_of_mem {tag : Nat} {fields gs : List Field}
    (h : Field.message tag fields ∈ gs) : encodedLen fields ≤ encodedLen gs := by
  obtain ⟨before, after, rfl⟩ := List.append_of_mem h
  rw [encodedLen_append, encodedLen, Field.encodedLen]
  omega

/-- A kind of message: what is written, what a field does when it is read, and that a message is
taken up as it was written. -/
class Message (α : Type*) extends Inhabited α where
  fields : α → List Field
  merge : Merge α
  sound : ∀ m, Sound (fields m)
  takeUp_fields : ∀ m, encodedLen (fields m) < 2 ^ 64 → takeUp merge default (fields m) = some m

namespace Message
variable {α : Type*} [Message α]

def decode (bytes : List Byte) : Option α := (read bytes).bind (·.foldlM merge default)

theorem message_fields {m : α} (hlen : encodedLen (fields m) < 2 ^ 64) :
    (Wire.bytes (Protobuf.encode (fields m))).message merge default = some m :=
  (message_encode (sound m) hlen).trans (takeUp_fields m hlen)

theorem map_message_fields {β : Type*} {m : α} (hlen : encodedLen (fields m) < 2 ^ 64)
    (u : α → β) :
    ((Wire.bytes (Protobuf.encode (fields m))).message merge default).map u = some (u m) := by
  rw [message_fields hlen, Option.map_some]

theorem decode_encode {m : α} (hlen : encodedLen (fields m) < 2 ^ 64) :
    decode (Protobuf.encode (fields m)) = some m := message_fields hlen

end Message

end Kulua.Foundation.Protobuf
