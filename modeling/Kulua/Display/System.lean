import Kulua.Frame
import Kulua.Foundation.Run

/-! The virtual displays of one client at work: every `createDisplay` (`ClientConnection.java`),
the encoder thread it starts (`DisplayEncoder.java`), and the `destroy` and `destroyAll` of
`DisplayRegistry.java` that come between their steps. The lock of the registry is held from
the first to the last step of a destroy; the other synchronized methods are one step. Entries,
encoders, calls and virtual displays have the number of the `createDisplay` they come from. -/

namespace Kulua.Display

inductive CodecError where
  /-- An `IOException`. -/
  | io
  /-- Any `RuntimeException`. -/
  | runtime
  deriving DecidableEq, Repr

/-- Where the encoder thread is; `resize` if `performResize` has called `createCodec`. -/
inductive EncoderPhase where
  /-- Not started. -/
  | idle
  /-- In `createCodec`, no virtual display used yet. -/
  | creating (resize : Bool)
  /-- `createVirtualDisplay` has returned, `attachVirtualDisplay` is next. -/
  | created (resize : Bool)
  | attached (resize : Bool)
  /-- The first `createCodec` has thrown and released the latch; `encodeLoop` is to catch it. -/
  | thrown (e : CodecError)
  | looping
  | ended
  deriving DecidableEq, Repr

/-- What `DisplayEncoder` shares. -/
structure Encoder where
  running : Bool
  resizeRequested : Bool
  /-- The latch is released. -/
  vdReady : Bool
  /-- `createVirtualDisplay` has returned a virtual display, and not null. -/
  virtualDisplay : Bool
  phase : EncoderPhase
  deriving DecidableEq, Repr

/-- What the encoder thread comes to. -/
inductive ThreadAction where
  /-- `createCodec` throws. -/
  | fail (e : CodecError)
  /-- `createVirtualDisplay` returns, with null where not `ok`; a resize uses the old one. -/
  | display (ok : Bool)
  /-- `createCodec` returns. -/
  | ready
  /-- `encodeLoop` catches what `createCodec` has thrown. -/
  | handle
  | resize
  /-- The loop ends: `running` is cleared, the stream is at its end, or the codec throws. -/
  | leave
  deriving DecidableEq, Repr

namespace Encoder

def new : Encoder := ⟨false, false, false, false, .idle⟩

def start (c : Encoder) (ok : Bool) : Encoder :=
  { c with
    running := true
    resizeRequested := false
    phase := if ok then .creating false else c.phase }

/-- `createCodec` rethrows; only the handler of an `IOException` clears the flag. -/
def fail (c : Encoder) (e : CodecError) (resize : Bool) : Encoder :=
  if resize then { c with vdReady := true, running := false, phase := .looping }
  else { c with vdReady := true, phase := .thrown e }

def step (c : Encoder) : ThreadAction → Encoder
  | .fail e =>
    match c.phase with
    | .creating resize | .attached resize => c.fail e resize
    | _ => c
  | .display ok =>
    match c.phase with
    | .creating resize =>
      if c.virtualDisplay then { c with phase := .attached resize }
      else { c with virtualDisplay := ok, phase := .created resize }
    | _ => c
  | .ready =>
    match c.phase with
    -- without a virtual display `getDisplay` throws
    | .attached _ => if c.virtualDisplay then { c with vdReady := true, phase := .looping } else c
    | _ => c
  | .handle =>
    match c.phase with
    | .thrown .io => { c with running := false, phase := .ended }
    | .thrown .runtime => { c with phase := .ended }
    | _ => c
  | .resize =>
    if c.phase = .looping ∧ c.running ∧ c.resizeRequested then
      { c with resizeRequested := false, phase := .creating true }
    else c
  | .leave => if c.phase = .looping then { c with phase := .ended } else c

/-- `Thread.join` waits. -/
def Alive (c : Encoder) : Prop := c.phase ≠ .idle ∧ c.phase ≠ .ended

instance (c : Encoder) : Decidable c.Alive := inferInstanceAs (Decidable (_ ∧ _))

/-- `attachVirtualDisplay` is next. -/
def attaching (c : Encoder) : Bool :=
  match c.phase with
  | .created _ => true
  | _ => false

/-- `attachVirtualDisplay` returns. -/
def attach (c : Encoder) : Encoder :=
  match c.phase with
  | .created resize => { c with phase := .attached resize }
  | _ => c

end Encoder

structure Entry where
  id : U32
  encoder : Option Nat
  virtualDisplay : Option Nat
  deriving DecidableEq, Repr

/-- Where a `createDisplay` is. -/
inductive CallPhase where
  /-- Not called. -/
  | idle
  /-- The entry is created. -/
  | created
  /-- The encoder is attached to the entry. -/
  | prepared
  /-- In `awaitVirtualDisplay`. -/
  | waiting
  | waited
  /-- About to destroy the entry. -/
  | failing
  | destroying
  /-- About to send `DisplayReady`. -/
  | sending
  | returned (ready : Bool)
  deriving DecidableEq, Repr

/-- A `destroy` or `destroyAll` that holds the lock. -/
structure Destroying where
  /-- The ids still to be destroyed. -/
  ids : List U32
  /-- The entry whose encoder is being stopped. -/
  current : Option Nat
  /-- The `createDisplay` that has called it. -/
  call : Option Nat
  deriving DecidableEq, Repr

structure System where
  registry : U32 → Option Nat
  nextId : U32
  next : Nat
  entries : Nat → Entry
  encoders : Nat → Encoder
  calls : Nat → CallPhase
  lock : Option Destroying
  /-- How often each virtual display was released. -/
  released : Nat → Nat
  /-- `destroy` has taken the entry out of the registry. -/
  destroyed : Nat → Bool

inductive Action where
  | create
  | attachEncoder (k : Nat)
  | start (k : Nat) (ok : Bool)
  /-- `awaitVirtualDisplay` returns, after 2 s where not `inTime`. -/
  | await (k : Nat) (inTime : Bool)
  | readRunning (k : Nat)
  | send (k : Nat)
  | destroyFailed (k : Nat)
  | destroy (id : U32)
  | destroyAll (ids : List U32)
  /-- `destroy` takes the next entry and stops its encoder. -/
  | take
  /-- The thread is joined, or 2 s have passed; the virtual display is released. -/
  | finish (joined : Bool)
  | unlock
  | thread (k : Nat) (a : ThreadAction)
  | attachVirtualDisplay (k : Nat)
  | resizeDisplay (id : U32)
  deriving DecidableEq, Repr

namespace System

def init : System where
  registry _ := none
  nextId := 1
  next := 0
  entries _ := ⟨0, none, none⟩
  encoders _ := .new
  calls _ := .idle
  lock := none
  released _ := 0
  destroyed _ := false

def setCall (s : System) (k : Nat) (phase : CallPhase) : System :=
  { s with calls := Function.update s.calls k phase }

def setEncoder (s : System) (k : Nat) (c : Encoder) : System :=
  { s with encoders := Function.update s.encoders k c }

def setLock (s : System) (lock : Option Destroying) : System := { s with lock := lock }

def setEntry (s : System) (k : Nat) (entry : Entry) : System :=
  { s with entries := Function.update s.entries k entry }

def create (s : System) : System :=
  { s with
    registry := Function.update s.registry s.nextId (some s.next)
    nextId := s.nextId + 1
    next := s.next + 1
    entries := Function.update s.entries s.next ⟨s.nextId, none, none⟩
    calls := Function.update s.calls s.next .created }

def attachEncoder (s : System) (id : U32) (encoder : Nat) : System :=
  match s.registry id with
  | none => s
  | some j => s.setEntry j { s.entries j with encoder := some encoder }

def attachVirtualDisplay (s : System) (id : U32) (virtualDisplay : Option Nat) : System :=
  match s.registry id with
  | none => s
  | some j => s.setEntry j { s.entries j with virtualDisplay := virtualDisplay }

/-- The keys of the registry. -/
def keySet (s : System) : List U32 :=
  ((List.range s.next).filter fun j => s.registry (s.entries j).id = some j).map
    fun j => (s.entries j).id

/-- `displays.remove(id)`, where the entry under the id is `j`. -/
def remove (s : System) (id : U32) (j : Nat) : System :=
  { s with
    registry := Function.update s.registry id none
    destroyed := Function.update s.destroyed j true }

/-- `DisplayEncoder.stop` up to the join. -/
def stop (s : System) (e : Nat) : System := s.setEncoder e { s.encoders e with running := false }

def release (s : System) (virtualDisplay : Option Nat) : System :=
  match virtualDisplay with
  | none => s
  | some v => { s with released := Function.update s.released v (s.released v + 1) }

/-- The destroy returns or throws, and so does the `createDisplay` that has called it. -/
def unlock (s : System) (call : Option Nat) : System :=
  match call with
  | none => s.setLock none
  | some k => (s.setLock none).setCall k (.returned false)

/-- `destroy` up to the join of the encoder thread; where no encoder is attached, the call of
its `stop` throws. -/
def take (s : System) (id : U32) (ids : List U32) (call : Option Nat) : System :=
  match s.registry id with
  | none => s.setLock (some ⟨ids, none, call⟩)
  | some j =>
    match (s.entries j).encoder with
    | none => (s.remove id j).unlock call
    | some e => ((s.remove id j).stop e).setLock (some ⟨ids, some j, call⟩)

/-- The rest of `destroy`. -/
def finish (s : System) (j : Nat) (ids : List U32) (call : Option Nat) : System :=
  (s.release (s.entries j).virtualDisplay).setLock (some ⟨ids, none, call⟩)

/-- `ControlChannel` hands a `ResizeDisplay` to the encoder of the entry. -/
def resizeDisplay (s : System) (id : U32) : System :=
  match (s.registry id).bind fun j => (s.entries j).encoder with
  | none => s
  | some e => s.setEncoder e { s.encoders e with resizeRequested := true }

/-- The thread of the entry's encoder has not ended. -/
def EncoderAlive (s : System) (j : Nat) : Prop :=
  match (s.entries j).encoder with
  | none => False
  | some e => (s.encoders e).Alive

instance (s : System) (j : Nat) : Decidable (s.EncoderAlive j) := by
  unfold EncoderAlive
  split <;> infer_instance

/-- One step of a thread; a step that its thread is not at, or that waits for the lock, does
nothing. -/
def step (s : System) : Action → System
  | .create => if s.lock = none then s.create else s
  | .attachEncoder k =>
    if s.lock = none ∧ s.calls k = .created then
      (s.attachEncoder (s.entries k).id k).setCall k .prepared
    else s
  | .start k ok =>
    if s.calls k = .prepared then
      (s.setEncoder k ((s.encoders k).start ok)).setCall k (if ok then .waiting else .failing)
    else s
  | .await k inTime =>
    if s.calls k = .waiting ∧ (inTime = true → (s.encoders k).vdReady = true) then
      s.setCall k .waited
    else s
  | .readRunning k =>
    if s.calls k = .waited then
      s.setCall k (if (s.encoders k).running then .sending else .failing)
    else s
  | .send k => if s.calls k = .sending then s.setCall k (.returned true) else s
  | .destroyFailed k =>
    if s.lock = none ∧ s.calls k = .failing then
      (s.setLock (some ⟨[(s.entries k).id], none, some k⟩)).setCall k .destroying
    else s
  | .destroy id => if s.lock = none then s.setLock (some ⟨[id], none, none⟩) else s
  | .destroyAll ids =>
    if s.lock = none ∧ ids.Perm s.keySet then s.setLock (some ⟨ids, none, none⟩) else s
  | .take =>
    match s.lock with
    | some ⟨id :: ids, none, call⟩ => s.take id ids call
    | _ => s
  | .finish joined =>
    match s.lock with
    | some ⟨ids, some j, call⟩ =>
      if joined = true → ¬s.EncoderAlive j then s.finish j ids call else s
    | _ => s
  | .unlock =>
    match s.lock with
    | some ⟨[], none, call⟩ => s.unlock call
    | _ => s
  | .thread k a => s.setEncoder k ((s.encoders k).step a)
  | .attachVirtualDisplay k =>
    if s.lock = none ∧ (s.encoders k).attaching then
      (s.attachVirtualDisplay (s.entries k).id
        (if (s.encoders k).virtualDisplay then some k else none)).setEncoder k
          (s.encoders k).attach
    else s
  | .resizeDisplay id => if s.lock = none then s.resizeDisplay id else s

/-- What a thread does that is at its step and need not wait for the lock. -/
inductive Steps (s : System) : Action → System → Prop
  | create (free : s.lock = none) : s.Steps .create s.create
  | attachEncoder {k : Nat} (free : s.lock = none) (call : s.calls k = .created) :
    s.Steps (.attachEncoder k) ((s.attachEncoder (s.entries k).id k).setCall k .prepared)
  | start {k : Nat} (ok : Bool) (call : s.calls k = .prepared) :
    s.Steps (.start k ok)
      ((s.setEncoder k ((s.encoders k).start ok)).setCall k (if ok then .waiting else .failing))
  | await {k : Nat} (inTime : Bool) (call : s.calls k = .waiting) :
    s.Steps (.await k inTime) (s.setCall k .waited)
  | readRunning {k : Nat} (call : s.calls k = .waited) :
    s.Steps (.readRunning k)
      (s.setCall k (if (s.encoders k).running then .sending else .failing))
  | send {k : Nat} (call : s.calls k = .sending) :
    s.Steps (.send k) (s.setCall k (.returned true))
  | destroyFailed {k : Nat} (free : s.lock = none) (call : s.calls k = .failing) :
    s.Steps (.destroyFailed k)
      ((s.setLock (some ⟨[(s.entries k).id], none, some k⟩)).setCall k .destroying)
  | destroy (id : U32) (free : s.lock = none) :
    s.Steps (.destroy id) (s.setLock (some ⟨[id], none, none⟩))
  | destroyAll (ids : List U32) (free : s.lock = none) :
    s.Steps (.destroyAll ids) (s.setLock (some ⟨ids, none, none⟩))
  | take {id : U32} {ids : List U32} {call : Option Nat}
    (locked : s.lock = some ⟨id :: ids, none, call⟩) : s.Steps .take (s.take id ids call)
  | finish {ids : List U32} {j : Nat} {call : Option Nat} (joined : Bool)
    (locked : s.lock = some ⟨ids, some j, call⟩) : s.Steps (.finish joined) (s.finish j ids call)
  | unlock {call : Option Nat} (locked : s.lock = some ⟨[], none, call⟩) :
    s.Steps .unlock (s.unlock call)
  | thread (k : Nat) (a : ThreadAction) :
    s.Steps (.thread k a) (s.setEncoder k ((s.encoders k).step a))
  | attachVirtualDisplay {k : Nat} (free : s.lock = none)
    (attaching : (s.encoders k).attaching = true) :
    s.Steps (.attachVirtualDisplay k) ((s.attachVirtualDisplay (s.entries k).id
      (if (s.encoders k).virtualDisplay then some k else none)).setEncoder k
        (s.encoders k).attach)
  | resizeDisplay (id : U32) (free : s.lock = none) :
    s.Steps (.resizeDisplay id) (s.resizeDisplay id)

theorem step_cases (s : System) (a : Action) : s.step a = s ∨ s.Steps a (s.step a) := by
  cases a with
  | create | attachEncoder | destroyFailed | destroy | destroyAll | attachVirtualDisplay
  | resizeDisplay =>
    simp only [step]
    split
    · right
      constructor <;> simp_all
    · exact .inl rfl
  | start | await | readRunning | send =>
    simp only [step]
    split
    · right
      constructor
      simp_all
    · exact .inl rfl
  | take | unlock =>
    simp only [step]
    split
    · right
      constructor
      assumption
    · exact .inl rfl
  | finish joined =>
    simp only [step]
    split
    · split
      · right
        constructor
        assumption
      · exact .inl rfl
    · exact .inl rfl
  | thread k a => exact .inr (.thread k a)

/-- What holds behind every step that its thread takes holds behind every step. -/
theorem step_rule {P : System → Prop} {s : System} {a : Action} (stay : P s)
    (go : ∀ t, s.Steps a t → P t) : P (s.step a) := by
  obtain hstay | hstep := s.step_cases a
  · rwa [hstay]
  · exact go _ hstep

end System
end Kulua.Display
