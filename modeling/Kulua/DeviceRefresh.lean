import Kulua.Device
import Kulua.Frame
import Kulua.Foundation.Keyed
import Kulua.Foundation.Run

/-! `sync-core/src/device_refresh.rs` and `protocol/devices.rs`: the loop that reads
`adb track-devices` frames (four hexadecimal digits of length, then that many bytes)
and publishes the device map. Text is handled as lists of characters with the
behaviour of Rust's `str` methods. -/

namespace Kulua.DeviceRefresh
open Foundation Foundation.Keyed

/-- `char::is_whitespace`: the Unicode property `White_Space`. -/
def isWhitespace (c : Char) : Bool :=
  (0x09 ≤ c.val && c.val ≤ 0x0D) || c.val == 0x20 || c.val == 0x85 || c.val == 0xA0 ||
  c.val == 0x1680 || (0x2000 ≤ c.val && c.val ≤ 0x200A) || c.val == 0x2028 || c.val == 0x2029 ||
  c.val == 0x202F || c.val == 0x205F || c.val == 0x3000

/-- `str::lines`: lines end with a line feed, before which one carriage return is
dropped; the last line need not be ended. -/
def lines : List Char → List (List Char)
  | [] => []
  | '\n' :: cs => [] :: lines cs
  | '\r' :: '\n' :: cs => [] :: lines cs
  | c :: cs =>
    match lines cs with
    | [] => [[c]]
    | line :: rest => (c :: line) :: rest

def trim (cs : List Char) : List Char :=
  ((cs.dropWhile isWhitespace).reverse.dropWhile isWhitespace).reverse

/-- `str::split_whitespace`, with the word read so far. -/
def splitWhitespace (word : List Char) : List Char → List (List Char)
  | [] => if word = [] then [] else [word]
  | c :: cs =>
    if isWhitespace c then
      if word = [] then splitWhitespace [] cs else word :: splitWhitespace [] cs
    else splitWhitespace (word ++ [c]) cs

/-- `char::to_ascii_lowercase` on both sides. -/
def eqIgnoreAsciiCase (cs ds : List Char) : Bool := cs.map Char.toLower == ds.map Char.toLower

def stateOf (word : List Char) : DeviceState :=
  if word = "device".toList then .device
  else if word = "offline".toList then .offline
  else if word = "unauthorized".toList then .unauthorized
  else .unknown (String.ofList word)

/-- One line of the list: the serial and the state it names. -/
def parseLine (line : List Char) : Option (String × DeviceState) :=
  let line := trim line
  if line = [] ∨ eqIgnoreAsciiCase line "List of devices attached".toList then none
  else
    match splitWhitespace [] line with
    | [] => none
    | serial :: rest => some (String.ofList serial, stateOf (rest.head?.getD "unknown".toList))

/-- The pairs a payload lists. -/
def listing (text : String) : List (String × DeviceState) :=
  (lines text.toList).filterMap parseLine

def deviceOf (uuid : Nat) (pair : String × DeviceState) : Device :=
  ⟨uuid, pair.1, pair.1, pair.2, "", .ofAddr pair.1⟩

/-- The bytes as UTF-8 text. -/
def fromUtf8 (bytes : Bytes) : Option String :=
  String.fromUTF8? ⟨(bytes.map UInt8.ofBitVec).toArray⟩

/-- `parse_devices`, drawing UUIDs from `nextUuid` on; none where the bytes are not UTF-8. -/
def parseDevices (nextUuid : Nat) (stdout : Bytes) : Option (List Device) :=
  (fromUtf8 stdout).map fun text =>
    (listing text).mapIdx fun i pair => deviceOf (nextUuid + i) pair

/-- A hash map from serials to devices, as the list of its values. -/
abbrev DeviceMap := List Device

def insertDevice (map : DeviceMap) (d : Device) : DeviceMap :=
  match modifyFirst (fun e => e.serial = d.serial) (fun _ => d) map with
  | some map' => map'
  | none => map ++ [d]

def deviceMap (devices : List Device) : DeviceMap := devices.foldl insertDevice []

/-- Equality of hash maps. -/
def sameMap (m n : DeviceMap) : Bool :=
  m.all (fun d => lookup Device.serial n d.serial = some d) &&
    n.all fun d => lookup Device.serial m d.serial = some d

/-- `last`, and the value the watch channel holds. -/
structure Refresh where
  last : DeviceMap
  published : DeviceMap
  nextUuid : Nat
  deriving DecidableEq, Repr

def init : Refresh := ⟨[], [], 0⟩

def maxPayload : Nat := 64 * 1024

def hexDigit (b : BitVec 8) : Option Nat :=
  if 0x30 ≤ b ∧ b ≤ 0x39 then some (b.toNat - 0x30)
  else if 0x41 ≤ b ∧ b ≤ 0x46 then some (b.toNat - 0x41 + 10)
  else if 0x61 ≤ b ∧ b ≤ 0x66 then some (b.toNat - 0x61 + 10)
  else none

/-- The value of hexadecimal digits; none if there is another character. -/
def hexValue (digits : Bytes) : Option Nat :=
  digits.foldl (fun acc b => acc.bind fun n => (hexDigit b).map (n * 16 + ·)) (some 0)

/-- `usize::from_str_radix(_, 16)`, which also reads a leading plus sign. -/
def fromStrRadix16 (text : Bytes) : Option Nat :=
  let digits := if text.head? = some 0x2B then text.tail else text
  if digits = [] then none else hexValue digits

/-- Publish what a payload lists, unless the map is the one sent last. -/
def refresh (st : Refresh) (payload : Bytes) : Refresh :=
  match parseDevices st.nextUuid payload with
  | none => st
  | some devices =>
    let map := deviceMap devices
    if sameMap map st.last then { st with nextUuid := st.nextUuid + devices.length }
    else ⟨map, map, st.nextUuid + devices.length⟩

/-- One iteration of the frame loop, with the input that is left; none where it breaks. -/
def frameStep (st : Refresh) (input : Bytes) : Option (Refresh × Bytes) :=
  if input.length < 4 then none
  else
    match fromStrRadix16 (input.take 4) with
    | none => none
    | some len =>
      let rest := input.drop 4
      -- an empty payload is passed over
      if len = 0 then some (st, rest)
      else if maxPayload < len then none
      else if rest.length < len then none
      else some (refresh st (rest.take len), rest.drop len)

/-- The loop over everything that can be read, at most `fuel` frames. -/
def frameLoop : Nat → Refresh → Bytes → Refresh
  | 0, st, _ => st
  | fuel + 1, st, input =>
    match frameStep st input with
    | none => st
    | some (st, rest) => frameLoop fuel st rest

/-- A well-formed frame: four hexadecimal digits that give the length of a UTF-8 payload. -/
structure WireFrame where
  header : Bytes
  payload : Bytes
  text : String
  header_length : header.length = 4
  header_value : hexValue header = some payload.length
  utf8 : fromUtf8 payload = some text

def WireFrame.bytes (f : WireFrame) : Bytes := f.header ++ f.payload

/-- What the loop does with one frame. -/
def onFrame (st : Refresh) (f : WireFrame) : Refresh :=
  if f.payload = [] then st else refresh st f.payload

theorem hexDigit_lt {b : BitVec 8} {n : Nat} (h : hexDigit b = some n) : n < 16 := by
  unfold hexDigit at h
  simp only [BitVec.le_def] at h
  split_ifs at h with h1 h2 h3
  all_goals
    obtain rfl := Option.some.inj h
    simp only [BitVec.ofNat_eq_ofNat, BitVec.toNat_ofNat] at *
    omega

theorem hexValue_concat (digits : Bytes) (b : BitVec 8) :
    hexValue (digits ++ [b]) =
      (hexValue digits).bind fun n => (hexDigit b).map (n * 16 + ·) := by
  simp [hexValue, List.foldl_append]

theorem hexValue_lt {digits : Bytes} {n : Nat} (h : hexValue digits = some n) :
    n < 16 ^ digits.length := by
  induction digits using List.reverseRecOn generalizing n with
  | nil =>
      obtain rfl := Option.some.inj h
      decide
  | append_singleton digits b ih =>
      rw [hexValue_concat] at h
      obtain ⟨m, hm, h⟩ := Option.bind_eq_some_iff.mp h
      obtain ⟨d, hd, rfl⟩ := Option.map_eq_some_iff.mp h
      have hmlt := ih hm
      have hdlt := hexDigit_lt hd
      rw [List.length_append, List.length_singleton, pow_succ]
      omega

theorem hexValue_bad {b : BitVec 8} (h : hexDigit b = none) (digits : Bytes) :
    hexValue (b :: digits) = none := by
  induction digits using List.reverseRecOn with
  | nil => simp [hexValue, h]
  | append_singleton digits c ih => rw [← List.cons_append, hexValue_concat, ih]; rfl

/-- Digits that have a value are read as that value: none of them is a plus sign. -/
theorem fromStrRadix16_eq {digits : Bytes} {n : Nat} (hne : digits ≠ [])
    (h : hexValue digits = some n) : fromStrRadix16 digits = some n := by
  have hplus : digits.head? ≠ some 0x2B := by
    intro hhead
    obtain ⟨rest, rfl⟩ := List.head?_eq_some_iff.mp hhead
    rw [hexValue_bad (by decide)] at h
    cases h
  simp only [fromStrRadix16, if_neg hplus, if_neg hne, h]

/-- The loop takes a well-formed frame off the stream, whatever follows it. -/
theorem frameStep_wire (st : Refresh) (f : WireFrame) (rest : Bytes) :
    frameStep st (f.bytes ++ rest) = some (onFrame st f, rest) := by
  have hlen := f.header_length
  have hmax := hexValue_lt f.header_value
  rw [hlen] at hmax
  have htake : (f.bytes ++ rest).take 4 = f.header := by
    rw [WireFrame.bytes, List.append_assoc, ← hlen, List.take_left]
  have hdrop : (f.bytes ++ rest).drop 4 = f.payload ++ rest := by
    rw [WireFrame.bytes, List.append_assoc, ← hlen, List.drop_left]
  have henough : ¬(f.bytes ++ rest).length < 4 := by
    simp only [WireFrame.bytes, List.length_append]
    omega
  have hheader : fromStrRadix16 f.header = some f.payload.length :=
    fromStrRadix16_eq (by intro h; simp [h] at hlen) f.header_value
  simp only [frameStep, if_neg henough, htake, hdrop, hheader, onFrame]
  by_cases hempty : f.payload = []
  · simp [hempty]
  · have hpos := List.length_pos_iff.mpr hempty
    have hsmall : ¬maxPayload < f.payload.length := by
      simp only [maxPayload]
      omega
    rw [if_neg (by omega), if_neg hsmall, if_neg (by simp), List.take_left, List.drop_left,
      if_neg hempty]

/-- Over a stream of well-formed frames the loop is a run of `onFrame`. -/
theorem frameLoop_wire (st : Refresh) (fs : List WireFrame) (rest : Bytes) {k : Nat}
    (hk : k ≤ fs.length) :
    frameLoop k st (fs.flatMap WireFrame.bytes ++ rest) = Run.run onFrame st (fs.take k) := by
  induction k generalizing st fs with
  | zero => rfl
  | succ k ih =>
      cases fs with
      | nil => simp at hk
      | cons f fs =>
          rw [frameLoop, List.flatMap_cons, List.append_assoc, frameStep_wire]
          exact ih (onFrame st f) fs (by simpa using hk)

/-- The map lists exactly these pairs of serial and state. -/
def Lists (map : DeviceMap) (pairs : List (String × DeviceState)) : Prop :=
  ∀ serial state, (∃ d ∈ map, d.serial = serial ∧ d.state = state) ↔ (serial, state) ∈ pairs

/-- No serial is listed with two states. -/
def Consistent (pairs : List (String × DeviceState)) : Prop :=
  ∀ p ∈ pairs, ∀ q ∈ pairs, p.1 = q.1 → p.2 = q.2

instance (pairs : List (String × DeviceState)) : Decidable (Consistent pairs) :=
  inferInstanceAs (Decidable (∀ p ∈ pairs, ∀ q ∈ pairs, p.1 = q.1 → p.2 = q.2))

theorem lists_nil {map : DeviceMap} : Lists map [] ↔ map = [] := by
  constructor
  · intro h
    refine List.eq_nil_iff_forall_not_mem.mpr fun d hd => ?_
    simpa using (h d.serial d.state).mp ⟨d, hd, rfl, rfl⟩
  · rintro rfl
    simp [Lists]

theorem lists_congr {m n : DeviceMap} (h : ∀ d, d ∈ m ↔ d ∈ n)
    (pairs : List (String × DeviceState)) : Lists m pairs ↔ Lists n pairs := by
  simp only [Lists, h]

theorem insertDevice_spec {map : DeviceMap} (distinct : (map.map Device.serial).Nodup)
    (d : Device) :
    ((insertDevice map d).map Device.serial).Nodup ∧ ∀ serial,
      lookup Device.serial (insertDevice map d) serial =
        if d.serial = serial then some d else lookup Device.serial map serial := by
  unfold insertDevice
  split
  · rename_i map' hmap
    have keep : ∀ e : Device, decide (e.serial = d.serial) = true → d.serial = e.serial :=
      fun e he => (of_decide_eq_true he).symm
    obtain ⟨e, he, hlook⟩ := lookup_modifyFirst keep distinct hmap
    have hserial : e.serial = d.serial := by simpa using List.find?_some he
    rw [hserial] at hlook
    exact ⟨modifyFirst_keys keep hmap ▸ distinct, hlook⟩
  · rename_i hmap
    have hfresh : ∀ e ∈ map, e.serial ≠ d.serial := by
      simpa using modifyFirst_eq_none.mp hmap
    constructor
    · rw [List.map_append, List.nodup_append]
      refine ⟨distinct, by simp, fun s hs s' hs' => ?_⟩
      obtain ⟨e, he, rfl⟩ := List.mem_map.mp hs
      simp only [List.map_cons, List.map_nil, List.mem_singleton] at hs'
      rw [hs']
      exact hfresh e he
    · intro serial
      rw [lookup_concat]
      split
      · rename_i hs
        rw [lookup_eq_none.mpr (hs ▸ hfresh), Option.none_or]
      · simp

/-- In the map each serial has the device listed last for it. -/
theorem deviceMap_spec (devices : List Device) :
    ((deviceMap devices).map Device.serial).Nodup ∧ ∀ serial,
      lookup Device.serial (deviceMap devices) serial =
        devices.reverse.find? fun d => d.serial = serial := by
  induction devices using List.reverseRecOn with
  | nil => simp [deviceMap, lookup]
  | append_singleton devices d ih =>
      obtain ⟨distinct, hlook⟩ := ih
      rw [deviceMap, List.foldl_append]
      obtain ⟨hdistinct, hins⟩ := insertDevice_spec distinct d
      refine ⟨hdistinct, fun serial => ?_⟩
      rw [List.foldl_cons, List.foldl_nil]
      rw [← deviceMap, hins, hlook]
      by_cases h : d.serial = serial <;> simp [h]

/-- What a device contributes to a listing. -/
def pairOf (d : Device) : String × DeviceState := (d.serial, d.state)

theorem mem_deviceMap_iff {devices : List Device} {d : Device} :
    d ∈ deviceMap devices ↔ devices.reverse.find? (fun e => e.serial = d.serial) = some d := by
  obtain ⟨distinct, hlook⟩ := deviceMap_spec devices
  rw [← hlook]
  exact ⟨lookup_of_mem distinct, mem_of_lookup⟩

/-- The map of a list keeps all its pairs unless a serial comes with two states: then one
of them is overwritten. -/
theorem lists_deviceMap_iff (devices : List Device) :
    Lists (deviceMap devices) (devices.map pairOf) ↔ Consistent (devices.map pairOf) := by
  constructor
  · intro h p hp q hq hserial
    obtain ⟨d, hd, hds, hdst⟩ := (h p.1 p.2).mpr hp
    obtain ⟨e, he, hes, hest⟩ := (h q.1 q.2).mpr hq
    have hsame : d.serial = e.serial := by rw [hds, hes, hserial]
    have hde := mem_deviceMap_iff.mp hd
    rw [hsame, mem_deviceMap_iff.mp he] at hde
    rw [← hdst, ← hest, Option.some.inj hde]
  · intro h serial state
    constructor
    · rintro ⟨d, hd, rfl, rfl⟩
      have hmem := List.mem_of_find?_eq_some (mem_deviceMap_iff.mp hd)
      exact List.mem_map_of_mem (f := pairOf) (List.mem_reverse.mp hmem)
    · intro hpair
      obtain ⟨d, hd, hdp⟩ := List.mem_map.mp hpair
      obtain ⟨rfl, rfl⟩ := Prod.mk.inj hdp
      have hfound : (devices.reverse.find? fun e => e.serial = d.serial).isSome :=
        List.find?_isSome.mpr ⟨d, List.mem_reverse.mpr hd, by simp⟩
      obtain ⟨e, he⟩ := Option.isSome_iff_exists.mp hfound
      have hserial : e.serial = d.serial := by simpa using List.find?_some he
      have hmem : e ∈ devices := List.mem_reverse.mp (List.mem_of_find?_eq_some he)
      refine ⟨e, mem_deviceMap_iff.mpr (by rwa [hserial]), hserial, ?_⟩
      exact h (pairOf e) (List.mem_map_of_mem hmem) (pairOf d) (List.mem_map_of_mem hd) hserial

theorem pairOf_deviceOf (nextUuid : Nat) (pairs : List (String × DeviceState)) :
    (pairs.mapIdx fun i pair => deviceOf (nextUuid + i) pair).map pairOf = pairs := by
  refine List.ext_getElem? fun i => ?_
  simp [pairOf, deviceOf, Function.comp_def]

theorem sameMap_mem {m n : DeviceMap} (h : sameMap m n = true) (d : Device) : d ∈ m ↔ d ∈ n := by
  simp only [sameMap, Bool.and_eq_true, List.all_eq_true, decide_eq_true_eq] at h
  exact ⟨fun hd => mem_of_lookup (h.1 d hd), fun hd => mem_of_lookup (h.2 d hd)⟩

theorem run_onFrame_last (fs : List WireFrame) :
    (Run.run onFrame init fs).last = (Run.run onFrame init fs).published := by
  refine Run.invariant_all (I := fun st : Refresh => st.last = st.published)
    (fun st f h => ?_) rfl fs
  unfold onFrame refresh
  split
  · exact h
  · split
    · exact h
    · dsimp only
      split
      · exact h
      · rfl

/-- After a frame the published map lists the payload of that frame if and only if the
payload was not passed over, or nothing was published before, and no device in it comes
with two states. -/
theorem lists_onFrame_iff {st : Refresh} (hlast : st.last = st.published) (f : WireFrame) :
    Lists (onFrame st f).published (listing f.text) ↔
      (f.payload ≠ [] ∨ st.published = []) ∧ Consistent (listing f.text) := by
  by_cases hempty : f.payload = []
  · have htext : f.text = "" := by
      have h := f.utf8
      rw [hempty] at h
      exact (Option.some.inj h).symm
    have hlisting : listing f.text = [] := by
      rw [htext]
      rfl
    simp only [onFrame, if_pos hempty, hlisting, lists_nil]
    simp [hempty, Consistent]
  · have hparse : parseDevices st.nextUuid f.payload =
        some ((listing f.text).mapIdx fun i pair => deviceOf (st.nextUuid + i) pair) := by
      rw [parseDevices, f.utf8]
      rfl
    have hmap := lists_deviceMap_iff
      ((listing f.text).mapIdx fun i pair => deviceOf (st.nextUuid + i) pair)
    rw [pairOf_deviceOf] at hmap
    simp only [onFrame, if_neg hempty, refresh, hparse]
    split
    · rename_i hsame
      rw [← hlast, ← lists_congr (sameMap_mem hsame), hmap]
      simp [hempty]
    · rw [hmap]
      simp [hempty]

/-- The pairs of the last frame that is not passed over. -/
def lastListing (fs : List WireFrame) : List (String × DeviceState) :=
  fs.foldl (fun pairs f => if f.payload = [] then pairs else listing f.text) []

theorem deviceMap_eq_nil {devices : List Device} : deviceMap devices = [] ↔ devices = [] := by
  constructor
  · intro h
    refine List.eq_nil_iff_forall_not_mem.mpr fun d hd => ?_
    have hnone := (deviceMap_spec devices).2 d.serial
    rw [h] at hnone
    simpa using List.find?_eq_none.mp hnone.symm d (List.mem_reverse.mpr hd)
  · rintro rfl
    rfl

theorem published_eq_nil_iff (fs : List WireFrame) :
    (Run.run onFrame init fs).published = [] ↔ lastListing fs = [] := by
  induction fs using List.reverseRecOn with
  | nil => simp [init, lastListing]
  | append_singleton fs f ih =>
      have hlast := run_onFrame_last fs
      rw [Run.run_append, lastListing, List.foldl_append, ← lastListing]
      generalize Run.run onFrame init fs = st at ih hlast ⊢
      simp only [Run.run_cons, Run.run_nil, List.foldl_cons, List.foldl_nil, onFrame]
      split
      · exact ih
      · have hnil : deviceMap ((listing f.text).mapIdx fun i pair =>
            deviceOf (st.nextUuid + i) pair) = [] ↔ listing f.text = [] :=
          deviceMap_eq_nil.trans List.mapIdx_eq_nil_iff
        rw [← hnil]
        simp only [refresh, parseDevices, f.utf8, Option.map_some]
        split
        · rename_i hsame
          have hmem := sameMap_mem hsame
          simp only [List.eq_nil_iff_forall_not_mem, hmem, hlast]
        · rfl

/-- The frame that lists one device, `d`, and the empty frame. -/
private def pluggedIn : WireFrame where
  header := [0x30, 0x30, 0x30, 0x39]
  payload := [0x64, 0x09, 0x64, 0x65, 0x76, 0x69, 0x63, 0x65, 0x0A]
  text := "d\tdevice\n"
  header_length := rfl
  header_value := by decide
  utf8 := by decide

private def unplugged : WireFrame where
  header := [0x30, 0x30, 0x30, 0x30]
  payload := []
  text := ""
  header_length := rfl
  header_value := by decide
  utf8 := by decide

end Kulua.DeviceRefresh
