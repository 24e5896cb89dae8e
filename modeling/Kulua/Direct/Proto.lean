import Kulua.ControlChannel
import Kulua.Foundation.ProtobufDecode

/-! The control messages of `direct.proto`, as both ends write and read them. The PC compares a
`float` with its default as a number, the phone sends none. -/

namespace Kulua.Direct
open Foundation Foundation.Protobuf
open ControlChannel (InjectKeycode InjectText InjectTouch InjectScroll BackOrScreenOn StartApp)

structure SetClipboard where
  sequence : BitVec 64
  paste : Bool
  text : String
deriving DecidableEq

structure ResizeDisplay where
  displayId : U32
  width : U32
  height : U32
deriving DecidableEq

structure CreateDisplay where
  width : U32
  height : U32
  dpi : U32
deriving DecidableEq

structure DestroyDisplay where
  displayId : U32
deriving DecidableEq

structure SetAudio where
  enabled : Bool
  codec : U32
  revision : BitVec 64
deriving DecidableEq

structure ClipboardChanged where
  text : String
deriving DecidableEq

structure AckClipboard where
  sequence : BitVec 64
deriving DecidableEq

structure MediaConfig where
  stream : U32
  data : Bytes
  revision : BitVec 64
deriving DecidableEq

structure AudioState where
  revision : BitVec 64
  enabled : Bool
  codecId : U32
  error : String
deriving DecidableEq

structure DisplayReady where
  displayId : U32
  codecId : U32
  width : U32
  height : U32
  dpi : U32
deriving DecidableEq

instance : Message InjectKeycode where
  default := ⟨0, 0, 0, 0, 0⟩
  fields m := uint32 1 m.displayId ++ uint32 2 m.action ++ uint32 3 m.keycode ++
    uint32 4 m.repeatCount ++ uint32 5 m.metaState
  merge m
    | (1, w) => w.uint32.map fun v => { m with displayId := v }
    | (2, w) => w.uint32.map fun v => { m with action := v }
    | (3, w) => w.uint32.map fun v => { m with keycode := v }
    | (4, w) => w.uint32.map fun v => { m with repeatCount := v }
    | (5, w) => w.uint32.map fun v => { m with metaState := v }
    | _ => some m
  sound m := by simp
  takeUp_fields m _ := by simp [takeUp_append, takeUp_uint32]

instance : Message InjectText where
  default := ⟨0, ""⟩
  fields m := uint32 1 m.displayId ++ string 2 m.text.toList
  merge m
    | (1, w) => w.uint32.map fun v => { m with displayId := v }
    | (2, w) => w.string.map fun v => { m with text := String.ofList v }
    | _ => some m
  sound m := by simp
  takeUp_fields m _ := by simp [takeUp_append, takeUp_uint32, takeUp_string]

instance : Message BackOrScreenOn where
  default := ⟨0, 0⟩
  fields m := uint32 1 m.displayId ++ uint32 2 m.action
  merge m
    | (1, w) => w.uint32.map fun v => { m with displayId := v }
    | (2, w) => w.uint32.map fun v => { m with action := v }
    | _ => some m
  sound m := by simp
  takeUp_fields m _ := by simp [takeUp_append, takeUp_uint32]

instance : Message SetClipboard where
  default := ⟨0, false, ""⟩
  fields m := uint64 1 m.sequence ++ boolean 2 m.paste ++ string 3 m.text.toList
  merge m
    | (1, w) => w.uint64.map fun v => { m with sequence := v }
    | (2, w) => w.boolean.map fun v => { m with paste := v }
    | (3, w) => w.string.map fun v => { m with text := String.ofList v }
    | _ => some m
  sound m := by simp
  takeUp_fields m _ := by simp [takeUp_append, takeUp_uint64, takeUp_boolean, takeUp_string]

instance : Message StartApp where
  default := ⟨0, ""⟩
  fields m := uint32 1 m.displayId ++ string 2 m.package.toList
  merge m
    | (1, w) => w.uint32.map fun v => { m with displayId := v }
    | (2, w) => w.string.map fun v => { m with package := String.ofList v }
    | _ => some m
  sound m := by simp
  takeUp_fields m _ := by simp [takeUp_append, takeUp_uint32, takeUp_string]

instance : Message ResizeDisplay where
  default := ⟨0, 0, 0⟩
  fields m := uint32 1 m.displayId ++ uint32 2 m.width ++ uint32 3 m.height
  merge m
    | (1, w) => w.uint32.map fun v => { m with displayId := v }
    | (2, w) => w.uint32.map fun v => { m with width := v }
    | (3, w) => w.uint32.map fun v => { m with height := v }
    | _ => some m
  sound m := by simp
  takeUp_fields m _ := by simp [takeUp_append, takeUp_uint32]

instance : Message CreateDisplay where
  default := ⟨0, 0, 0⟩
  fields m := uint32 1 m.width ++ uint32 2 m.height ++ uint32 3 m.dpi
  merge m
    | (1, w) => w.uint32.map fun v => { m with width := v }
    | (2, w) => w.uint32.map fun v => { m with height := v }
    | (3, w) => w.uint32.map fun v => { m with dpi := v }
    | _ => some m
  sound m := by simp
  takeUp_fields m _ := by simp [takeUp_append, takeUp_uint32]

instance : Message DestroyDisplay where
  default := ⟨0⟩
  fields m := uint32 1 m.displayId
  merge m
    | (1, w) => w.uint32.map fun v => { m with displayId := v }
    | _ => some m
  sound m := by simp
  takeUp_fields m _ := by simp [takeUp_uint32]

instance : Message SetAudio where
  default := ⟨false, 0, 0⟩
  fields m := boolean 1 m.enabled ++ uint32 2 m.codec ++ uint64 3 m.revision
  merge m
    | (1, w) => w.boolean.map fun v => { m with enabled := v }
    | (2, w) => w.uint32.map fun v => { m with codec := v }
    | (3, w) => w.uint64.map fun v => { m with revision := v }
    | _ => some m
  sound m := by simp
  takeUp_fields m _ := by simp [takeUp_append, takeUp_boolean, takeUp_uint32, takeUp_uint64]

instance : Message ClipboardChanged where
  default := ⟨""⟩
  fields m := string 1 m.text.toList
  merge m
    | (1, w) => w.string.map fun v => { m with text := String.ofList v }
    | _ => some m
  sound m := by simp
  takeUp_fields m _ := by simp [takeUp_string]

instance : Message AckClipboard where
  default := ⟨0⟩
  fields m := uint64 1 m.sequence
  merge m
    | (1, w) => w.uint64.map fun v => { m with sequence := v }
    | _ => some m
  sound m := by simp
  takeUp_fields m _ := by simp [takeUp_uint64]

instance : Message MediaConfig where
  default := ⟨0, [], 0⟩
  fields m := uint32 1 m.stream ++ data 2 m.data ++ uint64 3 m.revision
  merge m
    | (1, w) => w.uint32.map fun v => { m with stream := v }
    | (2, w) => w.data.map fun v => { m with data := v }
    | (3, w) => w.uint64.map fun v => { m with revision := v }
    | _ => some m
  sound m := by simp
  takeUp_fields m _ := by simp [takeUp_append, takeUp_uint32, takeUp_data, takeUp_uint64]

instance : Message AudioState where
  default := ⟨0, false, 0, ""⟩
  fields m := uint64 1 m.revision ++ boolean 2 m.enabled ++ uint32 3 m.codecId ++
    string 4 m.error.toList
  merge m
    | (1, w) => w.uint64.map fun v => { m with revision := v }
    | (2, w) => w.boolean.map fun v => { m with enabled := v }
    | (3, w) => w.uint32.map fun v => { m with codecId := v }
    | (4, w) => w.string.map fun v => { m with error := String.ofList v }
    | _ => some m
  sound m := by simp
  takeUp_fields m _ := by
    simp [takeUp_append, takeUp_uint64, takeUp_boolean, takeUp_uint32, takeUp_string]

instance : Message DisplayReady where
  default := ⟨0, 0, 0, 0, 0⟩
  fields m := uint32 1 m.displayId ++ uint32 2 m.codecId ++ uint32 3 m.width ++
    uint32 4 m.height ++ uint32 5 m.dpi
  merge m
    | (1, w) => w.uint32.map fun v => { m with displayId := v }
    | (2, w) => w.uint32.map fun v => { m with codecId := v }
    | (3, w) => w.uint32.map fun v => { m with width := v }
    | (4, w) => w.uint32.map fun v => { m with height := v }
    | (5, w) => w.uint32.map fun v => { m with dpi := v }
    | _ => some m
  sound m := by simp
  takeUp_fields m _ := by simp [takeUp_append, takeUp_uint32]

namespace Touch

def before (m : InjectTouch) : List Field :=
  uint32 1 m.displayId ++ uint32 2 m.action ++ uint64 3 m.pointerId ++ sint32 4 m.x ++
    sint32 5 m.y ++ uint32 6 m.screenWidth ++ uint32 7 m.screenHeight

def after (m : InjectTouch) : List Field := uint32 9 m.actionButton ++ uint32 10 m.buttons

def encode (m : InjectTouch) : Bytes :=
  Protobuf.encode (before m) ++ float 8 m.pressure ++ Protobuf.encode (after m)

def merge : Merge InjectTouch := fun m field =>
  match field with
  | (1, w) => w.uint32.map fun v => { m with displayId := v }
  | (2, w) => w.uint32.map fun v => { m with action := v }
  | (3, w) => w.uint64.map fun v => { m with pointerId := v }
  | (4, w) => w.sint32.map fun v => { m with x := v }
  | (5, w) => w.sint32.map fun v => { m with y := v }
  | (6, w) => w.uint32.map fun v => { m with screenWidth := v }
  | (7, w) => w.uint32.map fun v => { m with screenHeight := v }
  | (8, w) => w.float.map fun v => { m with pressure := v }
  | (9, w) => w.uint32.map fun v => { m with actionButton := v }
  | (10, w) => w.uint32.map fun v => { m with buttons := v }
  | _ => some m

theorem message_encode (m : InjectTouch) (hlen : (encode m).length < 2 ^ 64) :
    (Wire.bytes (encode m)).message merge ⟨0, 0, 0, 0, 0, 0, 0, 0, 0, 0⟩ =
      some { m with pressure := unsigned m.pressure } := by
  simp only [encode, List.length_append, length_encode] at hlen
  have hbefore : takeUp merge ⟨0, 0, 0, 0, 0, 0, 0, 0, 0, 0⟩ (before m) =
      some ⟨m.displayId, m.action, m.pointerId, m.x, m.y, m.screenWidth, m.screenHeight, 0, 0,
        0⟩ := by
    simp [before, takeUp_append, takeUp_uint32, takeUp_uint64, takeUp_sint32, merge]
  have hfloat := takes_float merge 8 (by decide) (fun v => ⟨m.displayId,
    m.action, m.pointerId, m.x, m.y, m.screenWidth, m.screenHeight, v, 0, 0⟩)
    (fun v => by simp [merge, Wire.float_littleEndian]) m.pressure
  have hafter : takeUp merge ⟨m.displayId, m.action, m.pointerId, m.x, m.y, m.screenWidth,
      m.screenHeight, unsigned m.pressure, 0, 0⟩ (after m) =
        some { m with pressure := unsigned m.pressure } := by
    simp [after, takeUp_append, takeUp_uint32, merge]
  exact (((takes_encode (by simp [before]) (by omega) hbefore).append hfloat).append
    (takes_encode (by simp [after]) (by omega) hafter)).message

end Touch

namespace Scroll

def before (m : InjectScroll) : List Field :=
  uint32 1 m.displayId ++ sint32 2 m.x ++ sint32 3 m.y ++ uint32 4 m.screenWidth ++
    uint32 5 m.screenHeight

def after (m : InjectScroll) : List Field := uint32 8 m.buttons

def encode (m : InjectScroll) : Bytes :=
  Protobuf.encode (before m) ++ float 6 m.hscroll ++ float 7 m.vscroll ++ Protobuf.encode (after m)

def merge : Merge InjectScroll := fun m field =>
  match field with
  | (1, w) => w.uint32.map fun v => { m with displayId := v }
  | (2, w) => w.sint32.map fun v => { m with x := v }
  | (3, w) => w.sint32.map fun v => { m with y := v }
  | (4, w) => w.uint32.map fun v => { m with screenWidth := v }
  | (5, w) => w.uint32.map fun v => { m with screenHeight := v }
  | (6, w) => w.float.map fun v => { m with hscroll := v }
  | (7, w) => w.float.map fun v => { m with vscroll := v }
  | (8, w) => w.uint32.map fun v => { m with buttons := v }
  | _ => some m

theorem message_encode (m : InjectScroll) (hlen : (encode m).length < 2 ^ 64) :
    (Wire.bytes (encode m)).message merge ⟨0, 0, 0, 0, 0, 0, 0, 0⟩ =
      some { m with hscroll := unsigned m.hscroll, vscroll := unsigned m.vscroll } := by
  simp only [encode, List.length_append, length_encode] at hlen
  have hbefore : takeUp merge ⟨0, 0, 0, 0, 0, 0, 0, 0⟩ (before m) =
      some ⟨m.displayId, m.x, m.y, m.screenWidth, m.screenHeight, 0, 0, 0⟩ := by
    simp [before, takeUp_append, takeUp_uint32, takeUp_sint32, merge]
  have hhscroll := takes_float merge 6 (by decide)
    (fun v => ⟨m.displayId, m.x, m.y, m.screenWidth, m.screenHeight, v, 0, 0⟩)
    (fun v => by simp [merge, Wire.float_littleEndian]) m.hscroll
  have hvscroll := takes_float merge 7 (by decide)
    (fun v => ⟨m.displayId, m.x, m.y, m.screenWidth, m.screenHeight, unsigned m.hscroll, v, 0⟩)
    (fun v => by simp [merge, Wire.float_littleEndian]) m.vscroll
  have hafter : takeUp merge ⟨m.displayId, m.x, m.y, m.screenWidth, m.screenHeight,
      unsigned m.hscroll, unsigned m.vscroll, 0⟩ (after m) =
        some { m with hscroll := unsigned m.hscroll, vscroll := unsigned m.vscroll } := by
    simp [after, takeUp_uint32, merge]
  exact ((((takes_encode (by simp [before]) (by omega) hbefore).append hhscroll).append
    hvscroll).append (takes_encode (by simp [after]) (by omega) hafter)).message

end Scroll

/-- The `oneof` of a `CtrlMsg`. -/
inductive Msg where
  | injectKeycode (m : InjectKeycode)
  | injectText (m : InjectText)
  | injectTouch (m : InjectTouch)
  | injectScroll (m : InjectScroll)
  | backOrScreenOn (m : BackOrScreenOn)
  | setClipboard (m : SetClipboard)
  | startApp (m : StartApp)
  | resizeDisplay (m : ResizeDisplay)
  | createDisplay (m : CreateDisplay)
  | destroyDisplay (m : DestroyDisplay)
  | clipboardChanged (m : ClipboardChanged)
  | ackClipboard (m : AckClipboard)
  | mediaConfig (m : MediaConfig)
  | displayReady (m : DisplayReady)
  | setAudio (m : SetAudio)
  | audioState (m : AudioState)
deriving DecidableEq

/-- None where the `oneof` holds nothing that this end knows. -/
abbrev CtrlMsg := Option Msg

namespace Msg

def tag : Msg → Nat
  | injectKeycode _ => 1
  | injectText _ => 2
  | injectTouch _ => 3
  | injectScroll _ => 4
  | backOrScreenOn _ => 5
  | setClipboard _ => 6
  | startApp _ => 7
  | resizeDisplay _ => 8
  | createDisplay _ => 9
  | destroyDisplay _ => 10
  | clipboardChanged _ => 21
  | ackClipboard _ => 22
  | mediaConfig _ => 23
  | displayReady _ => 25
  | setAudio _ => 31
  | audioState _ => 32

def body : Msg → Bytes
  | injectKeycode m => Protobuf.encode (Message.fields m)
  | injectText m => Protobuf.encode (Message.fields m)
  | injectTouch m => Touch.encode m
  | injectScroll m => Scroll.encode m
  | backOrScreenOn m => Protobuf.encode (Message.fields m)
  | setClipboard m => Protobuf.encode (Message.fields m)
  | startApp m => Protobuf.encode (Message.fields m)
  | resizeDisplay m => Protobuf.encode (Message.fields m)
  | createDisplay m => Protobuf.encode (Message.fields m)
  | destroyDisplay m => Protobuf.encode (Message.fields m)
  | clipboardChanged m => Protobuf.encode (Message.fields m)
  | ackClipboard m => Protobuf.encode (Message.fields m)
  | mediaConfig m => Protobuf.encode (Message.fields m)
  | displayReady m => Protobuf.encode (Message.fields m)
  | setAudio m => Protobuf.encode (Message.fields m)
  | audioState m => Protobuf.encode (Message.fields m)

/-- The message as the other end has it. -/
def canonical : Msg → Msg
  | injectTouch m => injectTouch { m with pressure := unsigned m.pressure }
  | injectScroll m =>
    injectScroll { m with hscroll := unsigned m.hscroll, vscroll := unsigned m.vscroll }
  | m => m

end Msg

def CtrlMsg.merge : Merge CtrlMsg := fun o field =>
  match field with
  | (1, w) =>
    let m := match o with | some (.injectKeycode m) => m | _ => default
    (w.message Message.merge m).map fun m => some (.injectKeycode m)
  | (2, w) =>
    let m := match o with | some (.injectText m) => m | _ => default
    (w.message Message.merge m).map fun m => some (.injectText m)
  | (3, w) =>
    let m := match o with | some (.injectTouch m) => m | _ => ⟨0, 0, 0, 0, 0, 0, 0, 0, 0, 0⟩
    (w.message Touch.merge m).map fun m => some (.injectTouch m)
  | (4, w) =>
    let m := match o with | some (.injectScroll m) => m | _ => ⟨0, 0, 0, 0, 0, 0, 0, 0⟩
    (w.message Scroll.merge m).map fun m => some (.injectScroll m)
  | (5, w) =>
    let m := match o with | some (.backOrScreenOn m) => m | _ => default
    (w.message Message.merge m).map fun m => some (.backOrScreenOn m)
  | (6, w) =>
    let m := match o with | some (.setClipboard m) => m | _ => default
    (w.message Message.merge m).map fun m => some (.setClipboard m)
  | (7, w) =>
    let m := match o with | some (.startApp m) => m | _ => default
    (w.message Message.merge m).map fun m => some (.startApp m)
  | (8, w) =>
    let m := match o with | some (.resizeDisplay m) => m | _ => default
    (w.message Message.merge m).map fun m => some (.resizeDisplay m)
  | (9, w) =>
    let m := match o with | some (.createDisplay m) => m | _ => default
    (w.message Message.merge m).map fun m => some (.createDisplay m)
  | (10, w) =>
    let m := match o with | some (.destroyDisplay m) => m | _ => default
    (w.message Message.merge m).map fun m => some (.destroyDisplay m)
  | (21, w) =>
    let m := match o with | some (.clipboardChanged m) => m | _ => default
    (w.message Message.merge m).map fun m => some (.clipboardChanged m)
  | (22, w) =>
    let m := match o with | some (.ackClipboard m) => m | _ => default
    (w.message Message.merge m).map fun m => some (.ackClipboard m)
  | (23, w) =>
    let m := match o with | some (.mediaConfig m) => m | _ => default
    (w.message Message.merge m).map fun m => some (.mediaConfig m)
  | (25, w) =>
    let m := match o with | some (.displayReady m) => m | _ => default
    (w.message Message.merge m).map fun m => some (.displayReady m)
  | (31, w) =>
    let m := match o with | some (.setAudio m) => m | _ => default
    (w.message Message.merge m).map fun m => some (.setAudio m)
  | (32, w) =>
    let m := match o with | some (.audioState m) => m | _ => default
    (w.message Message.merge m).map fun m => some (.audioState m)
  | _ => some o

/-- `encode_ctrl`, and `toByteArray` of the phone. -/
def encodeCtrl (m : Msg) : Bytes := Protobuf.encode [.bytes m.tag m.body]

/-- `decode_ctrl`, and `CtrlMsg.parseFrom` of the phone. -/
def decodeCtrl (bytes : Bytes) : Option CtrlMsg :=
  (read bytes).bind fun fields => fields.foldlM CtrlMsg.merge none

theorem Msg.merge_body (m : Msg) (hlen : m.body.length < 2 ^ 64) :
    CtrlMsg.merge none (m.tag, .bytes m.body) = some (some m.canonical) := by
  cases m with
  | injectTouch m => exact congrArg (Option.map _) (Touch.message_encode m hlen)
  | injectScroll m => exact congrArg (Option.map _) (Scroll.message_encode m hlen)
  | _ => exact Message.map_message_fields (by rwa [← length_encode]) _

theorem Msg.length_body_le (m : Msg) : m.body.length ≤ (encodeCtrl m).length := by
  rw [encodeCtrl, length_encode, encodedLen, Field.encodedLen]
  omega

theorem decodeCtrl_encodeCtrl {m : Msg} (hlen : (encodeCtrl m).length < 2 ^ 64) :
    decodeCtrl (encodeCtrl m) = some (some m.canonical) := by
  have htag : 0 < m.tag ∧ m.tag < 2 ^ 29 := by cases m <;> simp [Msg.tag]
  have hbody := m.merge_body (lt_of_le_of_lt m.length_body_le hlen)
  rw [encodeCtrl, length_encode] at hlen
  rw [decodeCtrl, encodeCtrl, read_encode (sound_bytes htag _) hlen]
  exact (Option.bind_fun_some _).trans hbody

end Kulua.Direct
