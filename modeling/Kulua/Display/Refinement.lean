import Kulua.DisplayRegistry
import Kulua.Display.Release

/-! The registry of the interleaved steps is the one that `DisplayRegistry` has call by call: a
thread's step is one of its operations, or leaves it as it is. -/

namespace Kulua.Display
open Foundation

namespace System

/-- The entry as `DisplayRegistry` has it; `sys` are the ids that the system gives the virtual
displays. -/
def view (s : System) (sys : Nat → U32) (j : Nat) : DisplayEntry :=
  ⟨(s.entries j).encoder.isSome, (s.entries j).virtualDisplay.map sys⟩

structure Shows (sys : Nat → U32) (s : System) (r : DisplayRegistry) : Prop where
  nextId : r.nextId = s.nextId
  displays : ∀ id, r.displays[id]? = (s.registry id).map (s.view sys)

/-- The operation of the registry that a step is. A destroy is over with `take`: what is left to
it does not change the registry. -/
def opOf (s : System) (sys : Nat → U32) : Action → Option DisplayRegistry.Op
  | .create => if s.lock = none then some .create else none
  | .attachEncoder k =>
    if s.lock = none ∧ s.calls k = .created then some (.attachEncoder (s.entries k).id) else none
  | .take =>
    match s.lock with
    | some ⟨id :: _, none, _⟩ => some (.destroy id)
    | _ => none
  | .attachVirtualDisplay k =>
    if s.lock = none ∧ (s.encoders k).attaching ∧ (s.encoders k).virtualDisplay then
      some (.attachVirtualDisplay (s.entries k).id (sys k))
    else none
  | _ => none

variable {s t : System} {sys : Nat → U32} {r : DisplayRegistry}

theorem shows_init (sys : Nat → U32) : Shows sys init .new where
  nextId := rfl
  displays id := by simp [DisplayRegistry.new, init]

theorem Shows.of_same (h : Shows sys s r)
    (hsame : t.registry = s.registry ∧ t.nextId = s.nextId ∧ t.entries = s.entries) :
    Shows sys t r := by
  obtain ⟨hregistry, hnext, hentries⟩ := hsame
  refine ⟨h.nextId.trans hnext.symm, fun id => ?_⟩
  have hview : t.view sys = s.view sys := by
    funext j
    simp [view, hentries]
  rw [h.displays, hregistry, hview]

theorem Shows.setCall (h : Shows sys s r) (k : Nat) (phase : CallPhase) :
    Shows sys (s.setCall k phase) r := h.of_same ⟨rfl, rfl, rfl⟩

theorem Shows.setEncoder (h : Shows sys s r) (k : Nat) (c : Encoder) :
    Shows sys (s.setEncoder k c) r := h.of_same ⟨rfl, rfl, rfl⟩

theorem Shows.setLock (h : Shows sys s r) (lock : Option Destroying) :
    Shows sys (s.setLock lock) r := h.of_same ⟨rfl, rfl, rfl⟩

theorem Shows.unlock (h : Shows sys s r) (call : Option Nat) : Shows sys (s.unlock call) r := by
  cases call with
  | none => exact h.setLock none
  | some k => exact (h.setLock none).setCall k _

theorem Shows.finish (h : Shows sys s r) (j : Nat) (ids : List U32) (call : Option Nat) :
    Shows sys (s.finish j ids call) r := by
  refine Shows.setLock ?_ _
  unfold System.release
  split
  · exact h
  · exact h.of_same ⟨rfl, rfl, rfl⟩

theorem Shows.create (h : Shows sys s r) (inv : s.custody.Inv) :
    Shows sys s.create r.create.1 where
  nextId := by simp [System.create, DisplayRegistry.create, h.nextId]
  displays id := by
    rw [DisplayRegistry.displays_create, h.nextId, h.displays]
    by_cases hid : s.nextId = id
    · subst hid
      simp [System.create, view]
    · simp only [System.create, if_neg hid, Function.update_of_ne (Ne.symm hid)]
      -- the entries that are in the registry are older
      refine Option.map_congr fun j hj => ?_
      have hne : j ≠ s.next := Nat.ne_of_lt (inv.keyed id j hj).1
      simp [view, hne]

theorem Shows.update (h : Shows sys s r) (inv : s.custody.Inv) {id : U32} {j : Nat}
    (hj : s.registry id = some j) {entry : Entry} {f : DisplayEntry → DisplayEntry}
    (hf : f (s.view sys j) = ⟨entry.encoder.isSome, entry.virtualDisplay.map sys⟩) :
    Shows sys (s.setEntry j entry) (r.update id f) where
  nextId := (r.update_nextId id f).trans h.nextId
  displays k := by
    rw [DisplayRegistry.displays_update, h.displays]
    by_cases hk : id = k
    · subst hk
      simpa [hj, setEntry, view] using hf
    · rw [if_neg hk]
      refine Option.map_congr fun i hi => ?_
      have hne : i ≠ j := fun hij =>
        hk ((inv.keyed id j hj).2.symm.trans (hij ▸ (inv.keyed k i hi).2))
      simp [setEntry, view, hne]

theorem Shows.update_none (h : Shows sys s r) {id : U32} (hid : s.registry id = none)
    (f : DisplayEntry → DisplayEntry) : Shows sys s (r.update id f) where
  nextId := (r.update_nextId id f).trans h.nextId
  displays k := by
    rw [DisplayRegistry.displays_update, h.displays]
    split
    · rename_i hk
      simp [← hk, hid]
    · rfl

theorem Shows.attachEncoder (h : Shows sys s r) (inv : s.custody.Inv) (id : U32) (k : Nat) :
    Shows sys (s.attachEncoder id k) (r.attachEncoder id) := by
  unfold System.attachEncoder DisplayRegistry.attachEncoder
  split
  · exact h.update_none ‹_› _
  · exact h.update inv ‹_› rfl

theorem Shows.attachVirtualDisplay (h : Shows sys s r) (inv : s.custody.Inv) (id : U32) (k : Nat) :
    Shows sys (s.attachVirtualDisplay id (some k)) (r.attachVirtualDisplay id (sys k)) := by
  unfold System.attachVirtualDisplay DisplayRegistry.attachVirtualDisplay
  split
  · exact h.update_none ‹_› _
  · exact h.update inv ‹_› rfl

/-- Null is attached to an entry that has no virtual display. -/
theorem Shows.attach_null (h : Shows sys s r) {id : U32}
    (hempty : ∀ j, s.registry id = some j → (s.entries j).virtualDisplay = none) :
    Shows sys (s.attachVirtualDisplay id none) r := by
  unfold System.attachVirtualDisplay
  split
  · exact h
  · rename_i j hj
    refine h.of_same ⟨rfl, rfl, ?_⟩
    rw [← hempty j hj]
    exact Function.update_eq_self j s.entries

theorem Shows.remove (h : Shows sys s r) (id : U32) (j : Nat) :
    Shows sys (s.remove id j) (r.destroy id).1 where
  nextId := (r.destroy_nextId id).trans h.nextId
  displays k := by
    rw [DisplayRegistry.displays_destroy, h.displays]
    by_cases hk : id = k
    · simp [System.remove, hk]
    · have hlive : (s.remove id j).registry k = s.registry k := Function.update_of_ne (Ne.symm hk) ..
      rw [if_neg hk, hlive]
      rfl

theorem Shows.take (h : Shows sys s r) (id : U32) (ids : List U32) (call : Option Nat) :
    Shows sys (s.take id ids call) (r.destroy id).1 := by
  unfold System.take
  split
  · rename_i hnone
    have hr : r.displays[id]? = none := by rw [h.displays, hnone]; rfl
    have hsame : (r.destroy id).1 = r := by simp [DisplayRegistry.destroy, hr]
    rw [hsame]
    exact h.setLock _
  · rename_i j hj
    split
    · exact (h.remove id j).unlock call
    · exact ((h.remove id j).setEncoder ..).setLock _

/-- Every step is its operation, or does not touch the registry. -/
theorem Shows.step (h : Shows sys s r) (t : s.Tracked) (home : s.Homed) (a : Action) :
    Shows sys (s.step a) ((s.opOf sys a).elim r r.step) := by
  cases a with
  | create =>
    simp only [System.step, opOf]
    split
    · exact h.create t.inv
    · exact h
  | attachEncoder k =>
    simp only [System.step, opOf]
    split
    · exact (h.attachEncoder t.inv _ k).setCall k _
    · exact h
  | start k ok =>
    simp only [System.step, opOf]
    split
    · exact (h.setEncoder k _).setCall k _
    · exact h
  | await k inTime | readRunning k | send k =>
    simp only [System.step, opOf]
    split
    · exact h.setCall k _
    · exact h
  | destroyFailed k =>
    simp only [System.step, opOf]
    split
    · exact (h.setLock _).setCall k _
    · exact h
  | destroy id | destroyAll ids =>
    simp only [System.step, opOf]
    split
    · exact h.setLock _
    · exact h
  | take =>
    rcases hlock : s.lock with _ | ⟨_ | ⟨id, ids⟩, _ | j, call⟩ <;>
      simp only [System.step, opOf, hlock, Option.elim_none]
    all_goals try exact h
    exact h.take id ids call
  | finish joined =>
    simp only [System.step, opOf]
    split
    · split
      · exact h.finish ..
      · exact h
    · exact h
  | unlock =>
    simp only [System.step, opOf]
    split
    · exact h.unlock _
    · exact h
  | thread k a => exact h.setEncoder k _
  | attachVirtualDisplay k =>
    simp only [System.step, opOf]
    split
    · rename_i hguard
      cases hvd : (s.encoders k).virtualDisplay with
      | true =>
        simp only [hguard, and_self, if_true, Option.elim_some]
        exact (h.attachVirtualDisplay t.inv _ k).setEncoder k _
      | false =>
        simp only [hguard, Bool.false_eq_true, and_false, if_false, Option.elim_none]
        exact (h.attach_null fun j hj => t.empty home hguard.2 hj).setEncoder k _
    · rename_i hguard
      rw [if_neg fun hop => hguard ⟨hop.1, hop.2.1⟩]
      exact h
  | resizeDisplay id =>
    simp only [System.step, opOf, System.resizeDisplay]
    split
    · split
      · exact h
      · exact h.setEncoder ..
    · exact h

/-- While ids are fresh, the registry of every interleaving is that of a run of its own
operations. -/
theorem shows_run (sys : Nat → U32) {actions : List Action}
    (fresh : Run.Along step Fresh init actions) :
    ∃ ops, Shows sys (Run.run step init actions) (Run.run DisplayRegistry.step .new ops) := by
  have corr : ∀ s r a, (s.Tracked ∧ s.Homed ∧ Shows sys s r) → s.Fresh a →
      ∃ ops, (s.step a).Tracked ∧ (s.step a).Homed ∧
        Shows sys (s.step a) (Run.run DisplayRegistry.step r ops) := by
    rintro s r a ⟨t, home, h⟩ fresh
    refine ⟨(s.opOf sys a).toList, t.step fresh, home.step t.ordered t.inv a, ?_⟩
    have hstep := h.step t home a
    cases hop : s.opOf sys a <;> simpa [hop] using hstep
  obtain ⟨ops, -, -, h⟩ := Run.simulate
    (R := fun s r => s.Tracked ∧ s.Homed ∧ Shows sys s r) corr
    ⟨tracked_init, sound_init.home, shows_init sys⟩ fresh
  exact ⟨ops, h⟩

/-- Input for a display that was reported ready goes to its own virtual display. -/
theorem Shows.systemDisplayId (h : Shows sys s r) {k : Nat} (ready : s.ReadySound (.send k))
    (hcall : s.calls k = .sending) : r.systemDisplayId (s.entries k).id = sys k := by
  obtain ⟨hlive, hattached⟩ := ready.1 k rfl hcall
  simp [DisplayRegistry.systemDisplayId, DisplayRegistry.attached, h.displays, hlive, view,
    hattached]

end System
end Kulua.Display
