import Kulua.Foundation.Run
import Kulua.Fusion.Coords

/-! The pointer handlers of the fusion page (`fusion.html`). A flag remembers that the button is
held; each handler looks by itself whether the place is in the video. -/

namespace Kulua.Fusion.Page
open Foundation Foundation.Binary64 Run

/-- The actions of `fusion_touch`, 0, 1 and 2. -/
inductive Action where
  | down
  | up
  | move
  deriving DecidableEq, Repr

structure Touch where
  action : Action
  x : Number
  y : Number
  screenWidth : BitVec 32
  screenHeight : BitVec 32
  pressure : ℚ

inductive Event where
  | pointerdown (button : Int) (e : PointerEvent)
  | pointermove (e : PointerEvent)
  | pointerup (e : PointerEvent)
  | pointercancel

def touch (action : Action) (e : PointerEvent) (c : Number × Number) (pressure : ℚ) : Touch :=
  ⟨action, c.1, c.2, e.canvas.width, e.canvas.height, pressure⟩

/-- The flag after the event, and what is injected. -/
def handle (mouseDown : Bool) : Event → Bool × List Touch
  | .pointerdown button e =>
    if button ≠ 0 then (mouseDown, [])
    else
      match e.toVideoCoords with
      | none => (true, [])
      | some c => (true, [touch .down e c 1])
  | .pointermove e =>
    if !mouseDown then (mouseDown, [])
    else
      match e.toVideoCoords with
      | none => (mouseDown, [])
      | some c => (mouseDown, [touch .move e c 1])
  | .pointerup e =>
    if !mouseDown then (mouseDown, [])
    else (false, [touch .up e (e.toVideoCoords.getD (.finite 0, .finite 0)) 0])
  -- the page does not listen to it
  | .pointercancel => (mouseDown, [])

/-- All that a sequence of events injects. -/
def touches (mouseDown : Bool) : List Event → List Touch
  | [] => []
  | event :: events => (handle mouseDown event).2 ++ touches (handle mouseDown event).1 events

def Touch.InRange (t : Touch) : Prop :=
  PointerEvent.InRange t.screenWidth t.x ∧ PointerEvent.InRange t.screenHeight t.y

/-- Whole gestures, with so many moves each. -/
def gestures (moves : List Nat) : List Action :=
  moves.flatMap fun n => .down :: List.replicate n .move ++ [.up]

/-- The beginning of a sequence of gestures, on the screen. -/
structure WellFormed (ts : List Touch) : Prop where
  gestures : ∃ moves, ts.map Touch.action <+: gestures moves
  inRange : ∀ t ∈ ts, t.InRange

namespace Action

/-- Whether the finger is down after the action. -/
def next (_ : Bool) : Action → Bool
  | .down | .move => true
  | .up => false

def Allowed (touching : Bool) : Action → Prop
  | .down => touching = false
  | .move | .up => touching = true

end Action

/-- The beginning of whole gestures, or of the rest of one and whole ones. -/
def Remaining : Bool → List Action → Prop
  | false, as => ∃ moves, as <+: gestures moves
  | true, as => ∃ n moves, as <+: List.replicate n .move ++ .up :: gestures moves

theorem gestures_cons (n : Nat) (moves : List Nat) :
    gestures (n :: moves) = .down :: (List.replicate n .move ++ .up :: gestures moves) := by
  simp [gestures]

theorem remaining_false_cons (a : Action) (as : List Action) :
    Remaining false (a :: as) ↔ a = .down ∧ Remaining true as := by
  constructor
  · rintro ⟨moves, h⟩
    cases moves with
    | nil => cases List.prefix_nil.mp h
    | cons n moves =>
        rw [gestures_cons, List.cons_prefix_cons] at h
        exact ⟨h.1, n, moves, h.2⟩
  · rintro ⟨rfl, n, moves, h⟩
    refine ⟨n :: moves, ?_⟩
    rw [gestures_cons, List.cons_prefix_cons]
    exact ⟨rfl, h⟩

theorem remaining_true_cons (a : Action) (as : List Action) :
    Remaining true (a :: as) ↔
      a = .move ∧ Remaining true as ∨ a = .up ∧ Remaining false as := by
  constructor
  · rintro ⟨n, moves, h⟩
    cases n with
    | zero =>
        obtain ⟨rfl, hrest⟩ := List.cons_prefix_cons.mp h
        exact Or.inr ⟨rfl, moves, hrest⟩
    | succ n =>
        obtain ⟨rfl, hrest⟩ := List.cons_prefix_cons.mp h
        exact Or.inl ⟨rfl, n, moves, hrest⟩
  · rintro (⟨rfl, n, moves, h⟩ | ⟨rfl, moves, h⟩)
    · exact ⟨n + 1, moves, List.cons_prefix_cons.mpr ⟨rfl, h⟩⟩
    · exact ⟨0, moves, List.cons_prefix_cons.mpr ⟨rfl, h⟩⟩

/-- The gestures are the actions that are allowed one after the other. -/
theorem along_iff_remaining (touching : Bool) (as : List Action) :
    Along Action.next Action.Allowed touching as ↔ Remaining touching as := by
  induction as generalizing touching with
  | nil =>
      cases touching with
      | false => exact iff_of_true trivial ⟨[], List.nil_prefix⟩
      | true => exact iff_of_true trivial ⟨0, [], List.nil_prefix⟩
  | cons a as ih =>
      rw [along_cons, ih]
      cases touching with
      | false =>
          rw [remaining_false_cons]
          cases a <;> simp [Action.Allowed, Action.next]
      | true =>
          rw [remaining_true_cons]
          cases a <;> simp [Action.Allowed, Action.next]

/-- How a press stands: the flag of the page, and whether its finger is down on the screen,
because a primary `pointerdown` in the video has had no `pointerup` since. -/
structure Press where
  mouseDown : Bool
  touching : Bool

namespace Press

def next (p : Press) : Event → Press
  | .pointerdown button e =>
    if button ≠ 0 then p else ⟨true, p.touching || decide e.InVideo⟩
  | .pointermove _ => p
  | .pointerup _ => if p.mouseDown then ⟨false, false⟩ else p
  | .pointercancel => p

/-- A press in the video begins when no other is open, a held pointer moves into the video and
is released only when its press began there, and the canvas is shown in a size whenever a place
in it is told. -/
def Orderly (p : Press) : Event → Prop
  | .pointerdown button e => button = 0 → e.InVideo → p.touching = false ∧ e.Shown
  | .pointermove e => p.mouseDown = true → e.InVideo → p.touching = true ∧ e.Shown
  | .pointerup e => p.mouseDown = true → p.touching = true ∧ (e.InVideo → e.Shown)
  | .pointercancel => True

end Press

/-- The touches are allowed one after the other, and each is on the screen. -/
def Allowed (touching : Bool) (ts : List Touch) : Prop :=
  Along Action.next Action.Allowed touching (ts.map Touch.action) ∧ ∀ t ∈ ts, t.InRange

theorem wellFormed_iff_allowed (ts : List Touch) : WellFormed ts ↔ Allowed false ts := by
  rw [Allowed, along_iff_remaining]
  exact ⟨fun h => ⟨h.gestures, h.inRange⟩, fun h => ⟨h.1, h.2⟩⟩

theorem allowed_append (touching : Bool) (ts us : List Touch) :
    Allowed touching (ts ++ us) ↔
      Allowed touching ts ∧ Allowed (run Action.next touching (ts.map Touch.action)) us := by
  simp only [Allowed, List.map_append, along_append, List.forall_mem_append]
  tauto

theorem inRange_touch {action : Action} {e : PointerEvent} {c : Number × Number} {pressure : ℚ} :
    (touch action e c pressure).InRange ↔
      PointerEvent.InRange e.canvas.width c.1 ∧ PointerEvent.InRange e.canvas.height c.2 := Iff.rfl

/-- An event that injects nothing comes in order; one that injects a touch does where the touch
is allowed. -/
theorem handle_cases (p : Press) (event : Event) :
    (handle p.mouseDown event = ((p.next event).mouseDown, []) ∧
      (p.next event).touching = p.touching ∧ p.Orderly event) ∨
    ∃ t : Touch, handle p.mouseDown event = ((p.next event).mouseDown, [t]) ∧
      (p.Orderly event ↔ t.action.Allowed p.touching ∧ t.InRange) ∧
      (p.Orderly event → (p.next event).touching = Action.next p.touching t.action) := by
  cases event with
  | pointerdown button e =>
      by_cases hbutton : button = 0
      · rcases e.toVideoCoords_spec with ⟨hin, c, hc, hrange⟩ | ⟨hout, hnone⟩
        · refine Or.inr ⟨touch .down e c 1, ?_, ?_, ?_⟩
          · simp [handle, Press.next, hbutton, hc]
          · rw [inRange_touch, hrange]
            simp [Press.Orderly, hbutton, hin, touch, Action.Allowed]
          · simp [Press.next, hbutton, hin, touch, Action.next]
        · refine Or.inl ⟨?_, ?_, ?_⟩
          · simp [handle, Press.next, hbutton, hnone]
          · simp [Press.next, hbutton, hout]
          · simp [Press.Orderly, hout]
      · exact Or.inl (by simp [handle, Press.next, Press.Orderly, hbutton])
  | pointermove e =>
      cases hdown : p.mouseDown with
      | false => exact Or.inl (by simp [handle, Press.next, Press.Orderly, hdown])
      | true =>
          rcases e.toVideoCoords_spec with ⟨hin, c, hc, hrange⟩ | ⟨hout, hnone⟩
          · refine Or.inr ⟨touch .move e c 1, ?_, ?_, ?_⟩
            · simp [handle, Press.next, hdown, hc]
            · rw [inRange_touch, hrange]
              simp [Press.Orderly, hdown, hin, touch, Action.Allowed]
            · intro h
              exact (h hdown hin).1
          · exact Or.inl (by simp [handle, Press.next, Press.Orderly, hdown, hout, hnone])
  | pointerup e =>
      cases hdown : p.mouseDown with
      | false => exact Or.inl (by simp [handle, Press.next, Press.Orderly, hdown])
      | true =>
          refine Or.inr ⟨touch .up e (e.toVideoCoords.getD (.finite 0, .finite 0)) 0, ?_, ?_, ?_⟩
          · simp [handle, Press.next, hdown]
          · rw [inRange_touch]
            rcases e.toVideoCoords_spec with ⟨hin, c, hc, hrange⟩ | ⟨hout, hnone⟩
            · rw [hc, Option.getD_some, hrange]
              simp [Press.Orderly, hdown, hin, touch, Action.Allowed]
            · have hzero : ∀ size, PointerEvent.InRange size (.finite 0) :=
                fun size => ⟨0, by simp, Nat.zero_le _⟩
              simp [Press.Orderly, hdown, hout, hnone, hzero, touch, Action.Allowed]
          · simp [Press.next, hdown, touch, Action.next]
  | pointercancel => exact Or.inl ⟨rfl, rfl, trivial⟩

theorem handle_fst (p : Press) (event : Event) :
    (handle p.mouseDown event).1 = (p.next event).mouseDown := by
  rcases handle_cases p event with ⟨h, -⟩ | ⟨t, h, -⟩
  · rw [h]
  · rw [h]

/-- One event injects what is allowed if and only if it comes in order. -/
theorem allowed_handle (p : Press) (event : Event) :
    Allowed p.touching (handle p.mouseDown event).2 ↔ p.Orderly event := by
  rcases handle_cases p event with ⟨h, -, horderly⟩ | ⟨t, h, horderly, -⟩
  · rw [h]
    exact iff_of_true ⟨trivial, List.forall_mem_nil _⟩ horderly
  · rw [h, horderly]
    simp [Allowed]

theorem run_handle {p : Press} {event : Event} (orderly : p.Orderly event) :
    run Action.next p.touching ((handle p.mouseDown event).2.map Touch.action) =
      (p.next event).touching := by
  rcases handle_cases p event with ⟨h, htouching, -⟩ | ⟨t, h, -, htouching⟩
  · rw [h, htouching]
    rfl
  · rw [h, htouching orderly]
    rfl

theorem allowed_touches (p : Press) (events : List Event) :
    Allowed p.touching (touches p.mouseDown events) ↔ Along Press.next Press.Orderly p events := by
  induction events generalizing p with
  | nil => exact iff_of_true ⟨trivial, List.forall_mem_nil _⟩ trivial
  | cons event events ih =>
      rw [touches, allowed_append, along_cons, allowed_handle, handle_fst, ← ih]
      exact and_congr_right fun h => by rw [run_handle h]

/-- What is injected is well formed if and only if the events come in order. -/
theorem wellFormed_iff (events : List Event) :
    WellFormed (touches false events) ↔
      Along Press.next Press.Orderly ⟨false, false⟩ events := by
  rw [wellFormed_iff_allowed]
  exact allowed_touches ⟨false, false⟩ events

/-- A video of 100 by 100 in the middle of a wider window. -/
private def pointerAt (clientX : ℚ) : PointerEvent :=
  ⟨⟨100, 100⟩, ⟨0, 0, 200, 100, by decide +kernel, by decide +kernel⟩, clientX, 50⟩

/-- A press beside the video that moves into it, and a press that is cancelled. -/
theorem touches_unpaired :
    (touches false [.pointerdown 0 (pointerAt 10), .pointermove (pointerAt 100)]).map
        Touch.action = [.move] ∧
      (touches false [.pointerdown 0 (pointerAt 100), .pointercancel,
        .pointerdown 0 (pointerAt 100)]).map Touch.action = [.down, .down] ∧
      ¬∀ events, WellFormed (touches false events) := by
  have hmove : (touches false [.pointerdown 0 (pointerAt 10),
      .pointermove (pointerAt 100)]).map Touch.action = [.move] := by decide +kernel
  refine ⟨hmove, by decide +kernel, fun h => ?_⟩
  have hallowed := ((wellFormed_iff_allowed _).mp
    (h [.pointerdown 0 (pointerAt 10), .pointermove (pointerAt 100)])).1
  rw [hmove] at hallowed
  cases hallowed.1

end Kulua.Fusion.Page
