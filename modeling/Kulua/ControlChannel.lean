import Kulua.Clipboard
import Kulua.DisplayRegistry

/-! The branches of `ControlChannel.handle` that act on a display, and `Device.java`,
which injects input and starts apps. A message names a display by the id of the
client's registry; the system names it by its own id, with 0 for the physical display.
Floating-point fields are passed on unread and stand here as their bits. -/

namespace Kulua.ControlChannel
open Foundation

structure InjectKeycode where
  displayId : U32
  action : U32
  keycode : U32
  repeatCount : U32
  metaState : U32
  deriving DecidableEq, Repr

structure InjectText where
  displayId : U32
  text : String
  deriving DecidableEq, Repr

structure InjectTouch where
  displayId : U32
  action : U32
  pointerId : BitVec 64
  x : U32
  y : U32
  screenWidth : U32
  screenHeight : U32
  pressure : U32
  actionButton : U32
  buttons : U32
  deriving DecidableEq, Repr

structure InjectScroll where
  displayId : U32
  x : U32
  y : U32
  screenWidth : U32
  screenHeight : U32
  hscroll : U32
  vscroll : U32
  buttons : U32
  deriving DecidableEq, Repr

structure BackOrScreenOn where
  displayId : U32
  action : U32
  deriving DecidableEq, Repr

structure StartApp where
  displayId : U32
  package : String
  deriving DecidableEq, Repr

inductive CtrlMsg where
  | injectKeycode (m : InjectKeycode)
  | injectText (m : InjectText)
  | injectTouch (m : InjectTouch)
  | injectScroll (m : InjectScroll)
  | backOrScreenOn (m : BackOrScreenOn)
  | startApp (m : StartApp)
  deriving DecidableEq, Repr

def CtrlMsg.displayId : CtrlMsg → U32
  | .injectKeycode m => m.displayId
  | .injectText m => m.displayId
  | .injectTouch m => m.displayId
  | .injectScroll m => m.displayId
  | .backOrScreenOn m => m.displayId
  | .startApp m => m.displayId

structure KeyEvent where
  action : U32
  code : U32
  repeatCount : U32
  metaState : U32
  deriving DecidableEq, Repr

inductive ToolType where
  | finger
  | mouse
  deriving DecidableEq, Repr

/-- Touches carry a pressure, scrolls the two axis values. -/
structure MotionEvent where
  action : U32
  toolType : ToolType
  x : U32
  y : U32
  pressure : U32
  hscroll : U32
  vscroll : U32
  buttonState : U32
  deriving DecidableEq, Repr

inductive InputEvent where
  | key (event : KeyEvent)
  | motion (event : MotionEvent)
  deriving DecidableEq, Repr

inductive Effect where
  | inject (event : InputEvent) (display : U32)
  | setClipboard (text : String)
  | amStart (package : String) (display : U32)
  deriving DecidableEq, Repr

def Effect.display? : Effect → Option U32
  | .inject _ display => some display
  | .setClipboard _ => none
  | .amStart _ display => some display

def actionDown : U32 := 0
def actionUp : U32 := 1
def actionScroll : U32 := 8
def keycodeBack : U32 := 4
def keycodePaste : U32 := 279

/-- What the phone's own services answer: the key events of a character, and whether the
clipboard could be written. -/
structure Platform where
  keyEvents : Char → List KeyEvent
  clipboardSet : String → Bool

namespace Device

/-- An event without a display id is one for display 0. -/
def injectEvent (event : InputEvent) (displayId : U32) : Effect :=
  .inject event (if displayId ≠ 0 then displayId else 0)

def injectKeyEvent (event : KeyEvent) (displayId : U32) : Effect :=
  injectEvent (.key event) displayId

def injectTouch (displayId action x y pressure actionButton buttons : U32) : Effect :=
  injectEvent (.motion ⟨action, .finger, x, y, pressure, 0, 0, actionButton ||| buttons⟩) displayId

def injectScroll (displayId x y hscroll vscroll buttons : U32) : Effect :=
  injectEvent (.motion ⟨actionScroll, .mouse, x, y, 0, hscroll, vscroll, buttons⟩) displayId

def isAscii (text : String) : Bool := text.toList.all fun c => c.val ≤ 0x7F

def injectText (platform : Platform) (text : String) (displayId : U32) : List Effect :=
  if isAscii text then
    text.toList.flatMap fun c => (platform.keyEvents c).map fun e => injectEvent (.key e) displayId
  else if platform.clipboardSet text then
    [.setClipboard text, injectEvent (.key ⟨actionDown, keycodePaste, 0, 0⟩) displayId,
      injectEvent (.key ⟨actionUp, keycodePaste, 0, 0⟩) displayId]
  else []

/-- `am start`, with `--display` unless the id is 0. -/
def startApp (package : String) (displayId : U32) : Effect :=
  .amStart package (if displayId ≠ 0 then displayId else 0)

end Device

def handle (platform : Platform) (displays : DisplayRegistry) : CtrlMsg → List Effect
  | .injectKeycode m =>
    [Device.injectKeyEvent ⟨m.action, m.keycode, m.repeatCount, m.metaState⟩ m.displayId]
  | .injectText m =>
    if 1024 * 1024 < Clipboard.utf16Length m.text then []
    else Device.injectText platform m.text m.displayId
  | .injectTouch m =>
    let systemDisplayId := displays.systemDisplayId m.displayId
    [Device.injectTouch systemDisplayId m.action m.x m.y m.pressure m.actionButton m.buttons]
  | .injectScroll m =>
    let systemDisplayId := displays.systemDisplayId m.displayId
    [Device.injectScroll systemDisplayId m.x m.y m.hscroll m.vscroll m.buttons]
  | .backOrScreenOn m => [Device.injectKeyEvent ⟨m.action, keycodeBack, 0, 0⟩ m.displayId]
  | .startApp m =>
    let systemDisplayId := displays.systemDisplayId m.displayId
    [Device.startApp m.package systemDisplayId]

/-- The system has a display with this id: the physical one, a virtual display attached to
a live entry, or one of the others it shows. -/
def Exists (displays : DisplayRegistry) (others : Set U32) (s : U32) : Prop :=
  s = 0 ∨ s ∈ others ∨ ∃ id, displays.attached id = some s

/-- The display `s` is the one that the message names; where it names none, there is no
display `s`. -/
def Proper (displays : DisplayRegistry) (others : Set U32) (m : CtrlMsg) (s : U32) : Prop :=
  if m.displayId = 0 then s = 0
  else
    match displays.attached m.displayId with
    | some systemId => s = systemId
    | none => ¬Exists displays others s

/-- All that the message does on a display, it does on the one it names. -/
def Isolated (platform : Platform) (displays : DisplayRegistry) (others : Set U32)
    (m : CtrlMsg) : Prop :=
  ∀ e ∈ handle platform displays m, ∀ s ∈ e.display?, Proper displays others m s

/-- `handle` looks the id up in the registry. -/
def Translated : CtrlMsg → Bool
  | .injectTouch _ | .injectScroll _ | .startApp _ => true
  | .injectKeycode _ | .injectText _ | .backOrScreenOn _ => false

/-- The message has an effect on some display: a text that is too long has none, nor has
one without key events, or one that cannot be put on the clipboard. -/
def Acts (platform : Platform) : CtrlMsg → Prop
  | .injectText m =>
    Clipboard.utf16Length m.text ≤ 1024 * 1024 ∧
      if Device.isAscii m.text then ∃ c ∈ m.text.toList, platform.keyEvents c ≠ []
      else platform.clipboardSet m.text = true
  | _ => True

/-- A translated id has to be attached, or 0; an id that is passed on as it is has to be 0,
or the system's own id, or an id the system has no display for. -/
def Routed (displays : DisplayRegistry) (others : Set U32) (m : CtrlMsg) : Prop :=
  if Translated m then
    if m.displayId = 0 then displays.systemDisplayId 0 = 0
    else displays.attached m.displayId ≠ none
  else
    m.displayId = 0 ∨
      match displays.attached m.displayId with
      | some systemId => systemId = m.displayId
      | none => ¬Exists displays others m.displayId

/-- The display that the effects of a message are on. -/
def target (displays : DisplayRegistry) (m : CtrlMsg) : U32 :=
  if Translated m then displays.systemDisplayId m.displayId else m.displayId

private theorem display_ite (displayId : U32) :
    (if displayId ≠ 0 then displayId else 0) = displayId := by
  split
  · rfl
  · rename_i h
    exact (not_not.mp h).symm

@[simp] theorem display_injectEvent (event : InputEvent) (displayId : U32) :
    (Device.injectEvent event displayId).display? = some displayId := by
  rw [Device.injectEvent, display_ite]
  rfl

@[simp] theorem display_startApp (package : String) (displayId : U32) :
    (Device.startApp package displayId).display? = some displayId := by
  rw [Device.startApp, display_ite]
  rfl

/-- A text is injected on the display it is meant for, and nowhere else. -/
theorem display_injectText (platform : Platform) (text : String) (displayId s : U32) :
    (∃ e ∈ Device.injectText platform text displayId, e.display? = some s) ↔
      s = displayId ∧
        if Device.isAscii text then ∃ c ∈ text.toList, platform.keyEvents c ≠ []
        else platform.clipboardSet text = true := by
  unfold Device.injectText
  by_cases hascii : Device.isAscii text = true
  · simp only [hascii, if_true, List.mem_flatMap, List.mem_map]
    constructor
    · rintro ⟨_, ⟨c, hc, e, he, rfl⟩, hs⟩
      rw [display_injectEvent] at hs
      exact ⟨(Option.some.inj hs).symm, c, hc, List.ne_nil_of_mem he⟩
    · rintro ⟨rfl, c, hc, hne⟩
      obtain ⟨e, he⟩ := List.exists_mem_of_ne_nil _ hne
      exact ⟨_, ⟨c, hc, e, he, rfl⟩, display_injectEvent ..⟩
  · by_cases hset : platform.clipboardSet text = true
    · have hnone : (Effect.setClipboard text).display? = none := rfl
      simp [hascii, hset, hnone, eq_comm]
    · simp [hascii, hset]

theorem display_handle (platform : Platform) (displays : DisplayRegistry) (m : CtrlMsg) (s : U32) :
    (∃ e ∈ handle platform displays m, e.display? = some s) ↔
      s = target displays m ∧ Acts platform m := by
  cases m with
  | injectText m =>
      rw [handle]
      split
      · rename_i hlong
        simp [Acts, Nat.not_le.mpr hlong]
      · rename_i hshort
        rw [display_injectText]
        simp [Acts, target, Translated, CtrlMsg.displayId, Nat.not_lt.mp hshort]
  | injectKeycode m =>
      simp [handle, Acts, target, Translated, CtrlMsg.displayId, Device.injectKeyEvent, eq_comm]
  | injectTouch m =>
      simp [handle, Acts, target, Translated, CtrlMsg.displayId, Device.injectTouch, eq_comm]
  | injectScroll m =>
      simp [handle, Acts, target, Translated, CtrlMsg.displayId, Device.injectScroll, eq_comm]
  | backOrScreenOn m =>
      simp [handle, Acts, target, Translated, CtrlMsg.displayId, Device.injectKeyEvent, eq_comm]
  | startApp m => simp [handle, Acts, target, Translated, CtrlMsg.displayId, eq_comm]

theorem proper_target_iff (displays : DisplayRegistry) (others : Set U32) (m : CtrlMsg) :
    Proper displays others m (target displays m) ↔ Routed displays others m := by
  unfold Proper Routed target
  by_cases htrans : Translated m = true
  · simp only [htrans, if_true]
    split
    · rename_i hzero
      rw [hzero]
    · split
      · rename_i systemId hattached
        simp [DisplayRegistry.systemDisplayId, hattached]
      · rename_i hattached
        simp [DisplayRegistry.systemDisplayId, hattached, Exists]
  · simp only [htrans]
    split
    · rename_i hzero
      simp [hzero]
    · rename_i hne
      simp only [hne, false_or]
      split
      · exact eq_comm
      · rfl

private def mute : Platform := ⟨fun _ => [], fun _ => false⟩
private def created : DisplayRegistry := Run.run DisplayRegistry.step DisplayRegistry.new [.create]
private def attached : DisplayRegistry :=
  Run.run DisplayRegistry.step DisplayRegistry.new [.create, .attachVirtualDisplay 1 5]

end Kulua.ControlChannel
