import Kulua.Foundation.Run

/-! The video sessions of the fusion windows (`fusion.rs`, the window handler in `lib.rs`):
every `fusion_start` with the pump task it spawns, the registry of sessions by window label,
and the calls and window events that come between their steps. Each await and each lock
section is one step; a step whose task is elsewhere does nothing. -/

namespace Kulua.Fusion
open Foundation

abbrev Label := String

/-- Where a `fusion_start` and its pump task are. -/
inductive Phase where
  /-- In the handshake; the session is still inside of the blocking task. -/
  | connecting
  /-- The session is open, `DisplayReady` has not come. -/
  | waiting
  | pumping
  /-- The loop of the pump has ended, `session.close()` is under way. -/
  | closing
  /-- The session is closed, the entry of the label is still to be removed. -/
  | closed
  /-- Returned, with an error or at the end of the pump task; or not begun. -/
  | ended
  deriving DecidableEq, Repr

structure Task where
  label : Label
  phase : Phase
  deriving DecidableEq, Repr

/-- Tasks are numbered in the order of their `fusion_start`. -/
structure System where
  tasks : Nat → Task
  next : Nat
  /-- `fusion_sessions`: the task whose `ctrl_tx` the label has. -/
  registry : Label → Option Nat
  /-- Clones of a task's `ctrl_tx` in calls that still send on it. -/
  senders : Nat → Nat
  /-- The window was closed or destroyed, and no `fusion_start` has come since. -/
  gone : Label → Bool

inductive Action where
  | begin (label : Label)
  /-- The handshake succeeds. -/
  | connected (i : Nat)
  /-- `fusion_start` returns an error: a bad address, no handshake, no `DisplayReady`, a failed
  `START_APP`. -/
  | failed (i : Nat)
  /-- `DisplayReady` has come: `START_APP`, the entry, the pump task. -/
  | insert (i : Nat)
  | inputBegin (label : Label)
  | inputEnd (i : Nat)
  | close (label : Label)
  | destroyed (label : Label)
  /-- The loop of the pump ends: its channel is closed, or the session has failed. -/
  | pumpBreak (i : Nat)
  | sessionClosed (i : Nat)
  | cleanup (i : Nat)
  deriving DecidableEq, Repr

/-- The steps that write the registry. -/
def Action.writes : Action → Bool
  | .begin _ | .insert _ | .close _ | .destroyed _ | .cleanup _ => true
  | _ => false

namespace System

def init : System where
  tasks _ := ⟨"", .ended⟩
  next := 0
  registry _ := none
  senders _ := 0
  gone _ := false

/-- `fusion_sessions.lock().remove(label)`. -/
def remove (s : System) (label : Label) : System :=
  { s with registry := Function.update s.registry label none }

def setPhase (s : System) (i : Nat) (phase : Phase) : System :=
  { s with tasks := Function.update s.tasks i { s.tasks i with phase := phase } }

def markGone (s : System) (label : Label) (gone : Bool) : System :=
  { s with gone := Function.update s.gone label gone }

def fusionStart (s : System) (label : Label) : System :=
  let s := (s.remove label).markGone label false
  { s with tasks := Function.update s.tasks s.next ⟨label, .connecting⟩, next := s.next + 1 }

def enter (s : System) (label : Label) (i : Nat) : System :=
  { s with registry := Function.update s.registry label (some i) }

/-- The lock section of `fusion_start`; the pump is spawned behind it without an await. -/
def insert (s : System) (i : Nat) : System := (s.enter (s.tasks i).label i).setPhase i .pumping

/-- `fusion_ctrl` takes a clone of the sender in the entry. -/
def fusionCtrl (s : System) (label : Label) : System :=
  match s.registry label with
  | none => s
  | some i => { s with senders := Function.update s.senders i (s.senders i + 1) }

def isFusion (label : Label) : Bool := "fusion-".toList.isPrefixOf label.toList

/-- The handler of `Destroyed` looks at the windows of this name only. -/
def onDestroyed (s : System) (label : Label) : System :=
  let s := s.markGone label true
  if isFusion label then s.remove label else s

def step (s : System) : Action → System
  | .begin label => s.fusionStart label
  | .connected i => if (s.tasks i).phase = .connecting then s.setPhase i .waiting else s
  | .failed i =>
    if (s.tasks i).phase = .connecting ∨ (s.tasks i).phase = .waiting then s.setPhase i .ended
    else s
  | .insert i => if (s.tasks i).phase = .waiting then s.insert i else s
  | .inputBegin label => s.fusionCtrl label
  | .inputEnd i => { s with senders := Function.update s.senders i (s.senders i - 1) }
  | .close label => (s.markGone label true).remove label
  | .destroyed label => s.onDestroyed label
  | .pumpBreak i => if (s.tasks i).phase = .pumping then s.setPhase i .closing else s
  | .sessionClosed i => if (s.tasks i).phase = .closing then s.setPhase i .closed else s
  | .cleanup i =>
    if (s.tasks i).phase = .closed then (s.remove (s.tasks i).label).setPhase i .ended else s

@[simp] theorem setPhase_registry (s : System) (i : Nat) (phase : Phase) :
    (s.setPhase i phase).registry = s.registry := rfl

@[simp] theorem setPhase_next (s : System) (i : Nat) (phase : Phase) :
    (s.setPhase i phase).next = s.next := rfl

@[simp] theorem setPhase_gone (s : System) (i : Nat) (phase : Phase) :
    (s.setPhase i phase).gone = s.gone := rfl

@[simp] theorem setPhase_senders (s : System) (i : Nat) (phase : Phase) :
    (s.setPhase i phase).senders = s.senders := rfl

@[simp] theorem setPhase_label (s : System) (i : Nat) (phase : Phase) (k : Nat) :
    ((s.setPhase i phase).tasks k).label = (s.tasks k).label := by
  by_cases hk : k = i
  · subst hk
    simp [setPhase]
  · simp [setPhase, hk]

@[simp] theorem setPhase_self (s : System) (i : Nat) (phase : Phase) :
    ((s.setPhase i phase).tasks i).phase = phase := by simp [setPhase]

theorem setPhase_other (s : System) {i k : Nat} (phase : Phase) (hk : k ≠ i) :
    ((s.setPhase i phase).tasks k).phase = (s.tasks k).phase := by simp [setPhase, hk]

theorem remove_registry (s : System) (label label' : Label) :
    (s.remove label).registry label' = if label' = label then none else s.registry label' := by
  by_cases h : label' = label
  · subst h
    simp [remove]
  · simp [remove, h]

theorem markGone_gone (s : System) (label label' : Label) (gone : Bool) :
    (s.markGone label gone).gone label' = if label' = label then gone else s.gone label' := by
  by_cases h : label' = label
  · subst h
    simp [markGone]
  · simp [markGone, h]

theorem step_unwritten (s : System) {a : Action} (h : a.writes = false) :
    (s.step a).registry = s.registry ∧ (s.step a).gone = s.gone := by
  cases a with
  | begin label => cases h
  | insert i => cases h
  | close label => cases h
  | destroyed label => cases h
  | cleanup i => cases h
  | inputEnd i => exact ⟨rfl, rfl⟩
  | inputBegin label =>
      simp only [step, fusionCtrl]
      split <;> exact ⟨rfl, rfl⟩
  | connected i =>
      simp only [step]
      split <;> exact ⟨rfl, rfl⟩
  | failed i =>
      simp only [step]
      split <;> exact ⟨rfl, rfl⟩
  | pumpBreak i =>
      simp only [step]
      split <;> exact ⟨rfl, rfl⟩
  | sessionClosed i =>
      simp only [step]
      split <;> exact ⟨rfl, rfl⟩

/-- The pump task has not ended. -/
def Pumps (s : System) (i : Nat) : Prop :=
  (s.tasks i).phase = .pumping ∨ (s.tasks i).phase = .closing ∨ (s.tasks i).phase = .closed

instance (s : System) (i : Nat) : Decidable (s.Pumps i) := inferInstanceAs (Decidable (_ ∨ _))

theorem Pumps.of_setPhase {s : System} {i k : Nat} {phase : Phase} (hk : k ≠ i) :
    (s.setPhase i phase).Pumps k ↔ s.Pumps k := by
  rw [Pumps, setPhase_other s phase hk, Pumps]

/-- An entry is that of a pump of its label, and a task has begun. -/
structure Registered (s : System) : Prop where
  begun : ∀ i, (s.tasks i).phase ≠ .ended → i < s.next
  owner : ∀ label i, s.registry label = some i → s.Pumps i ∧ (s.tasks i).label = label

theorem registered_init : Registered init where
  begun _ h := absurd rfl h
  owner _ _ h := nomatch h

variable {s : System}

theorem Registered.remove (h : s.Registered) (label : Label) : (s.remove label).Registered where
  begun := h.begun
  owner label' i hentry := by
    rw [remove_registry] at hentry
    split at hentry
    · cases hentry
    · exact h.owner label' i hentry

theorem Registered.markGone (h : s.Registered) (label : Label) (gone : Bool) :
    (s.markGone label gone).Registered := ⟨h.begun, h.owner⟩

/-- A task that has an entry stays a pump. -/
theorem Registered.setPhase (h : s.Registered) {i : Nat} {phase : Phase}
    (hbegun : (s.tasks i).phase ≠ .ended)
    (hentry : ∀ label, s.registry label = some i → (s.setPhase i phase).Pumps i) :
    (s.setPhase i phase).Registered where
  begun k hk := by
    by_cases hki : k = i
    · exact hki ▸ h.begun i hbegun
    · rw [setPhase_other s phase hki] at hk
      exact h.begun k hk
  owner label k hk := by
    obtain ⟨hpumps, hlabel⟩ := h.owner label k hk
    refine ⟨?_, (setPhase_label ..).trans hlabel⟩
    by_cases hki : k = i
    · subst hki
      exact hentry label hk
    · exact (Pumps.of_setPhase hki).mpr hpumps

/-- Only a pump has an entry. -/
theorem Registered.not_entry (h : s.Registered) {i : Nat} (hpumps : ¬s.Pumps i) (label : Label) :
    s.registry label ≠ some i := fun hentry => hpumps (h.owner label i hentry).1

theorem enter_registry (s : System) (label label' : Label) (i : Nat) :
    (s.enter label i).registry label' = if label' = label then some i else s.registry label' := by
  by_cases h : label' = label
  · subst h
    simp [enter]
  · simp [enter, h]

theorem insert_registry (s : System) (i : Nat) (label : Label) :
    (s.insert i).registry label =
      if label = (s.tasks i).label then some i else s.registry label := by
  rw [insert, setPhase_registry, enter_registry]

theorem insert_pumps (s : System) (i k : Nat) : (s.insert i).Pumps k ↔ k = i ∨ s.Pumps k := by
  by_cases hki : k = i
  · subst hki
    simp [insert, Pumps]
  · rw [insert, Pumps.of_setPhase hki]
    exact (or_iff_right hki).symm

@[simp] theorem insert_label (s : System) (i k : Nat) :
    ((s.insert i).tasks k).label = (s.tasks k).label := setPhase_label ..

theorem Registered.insert (h : s.Registered) {i : Nat} (hbegun : (s.tasks i).phase ≠ .ended) :
    (s.insert i).Registered where
  begun k hk := by
    by_cases hki : k = i
    · exact hki ▸ h.begun i hbegun
    · rw [System.insert, setPhase_other _ _ hki] at hk
      exact h.begun k hk
  owner label k hk := by
    rw [insert_registry] at hk
    rw [insert_pumps, insert_label]
    split at hk
    · cases hk
      exact ⟨Or.inl rfl, Eq.symm ‹_›⟩
    · exact (h.owner label k hk).imp_left Or.inr

theorem fusionStart_other (s : System) (label : Label) {i : Nat} (hnew : i ≠ s.next) :
    (s.fusionStart label).tasks i = s.tasks i := Function.update_of_ne hnew _ _

theorem Registered.fusionStart (h : s.Registered) (label : Label) :
    (s.fusionStart label).Registered := by
  have hfresh : (s.tasks s.next).phase = .ended := by
    by_contra hne
    exact absurd (h.begun s.next hne) (lt_irrefl _)
  constructor
  · intro i hi
    by_cases hnew : i = s.next
    · exact hnew ▸ Nat.lt_succ_self _
    · rw [fusionStart_other s label hnew] at hi
      exact (h.begun i hi).trans (Nat.lt_succ_self _)
  · intro label' i hentry
    have hold := (h.remove label).owner label' i hentry
    have hnew : i ≠ s.next := by
      rintro rfl
      have hpumps : s.Pumps s.next := hold.1
      simp [Pumps, hfresh] at hpumps
    rw [Pumps, fusionStart_other s label hnew]
    exact hold

theorem Registered.step (h : s.Registered) (a : Action) : (s.step a).Registered := by
  cases a with
  | begin label => exact h.fusionStart label
  | connected i =>
      simp only [System.step]
      split
      · rename_i hphase
        refine h.setPhase (by simp [hphase]) fun label hentry => ?_
        exact absurd hentry (h.not_entry (by simp [Pumps, hphase]) label)
      · exact h
  | failed i =>
      simp only [System.step]
      split
      · rename_i hphase
        refine h.setPhase (by rcases hphase with hp | hp <;> simp [hp]) fun label hentry => ?_
        exact absurd hentry (h.not_entry (by rcases hphase with hp | hp <;> simp [Pumps, hp]) label)
      · exact h
  | insert i =>
      simp only [System.step]
      split
      · rename_i hphase
        exact h.insert (by simp [hphase])
      · exact h
  | inputBegin label =>
      simp only [System.step, fusionCtrl]
      split
      · exact h
      · exact ⟨h.begun, h.owner⟩
  | inputEnd i => exact ⟨h.begun, h.owner⟩
  | close label => exact (h.markGone label true).remove label
  | destroyed label =>
      simp only [System.step, onDestroyed]
      split
      · exact (h.markGone label true).remove label
      · exact h.markGone label true
  | pumpBreak i =>
      simp only [System.step]
      split
      · rename_i hphase
        exact h.setPhase (by simp [hphase]) fun _ _ => by simp [Pumps]
      · exact h
  | sessionClosed i =>
      simp only [System.step]
      split
      · rename_i hphase
        exact h.setPhase (by simp [hphase]) fun _ _ => by simp [Pumps]
      · exact h
  | cleanup i =>
      simp only [System.step]
      split
      · rename_i hphase
        have hremove := h.remove (s.tasks i).label
        refine hremove.setPhase (by simp [System.remove, hphase]) fun label hentry => ?_
        rw [remove_registry] at hentry
        split at hentry
        · cases hentry
        · exact absurd (h.owner label i hentry).2.symm ‹_›
      · exact h

end System
end Kulua.Fusion
