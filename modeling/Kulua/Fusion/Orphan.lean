import Kulua.Fusion.System

/-! What is left of the sessions of a window that is gone. -/

namespace Kulua.Fusion.System
open Foundation

variable {s : System}

/-- The `fusion_start` has not returned. -/
def InFlight (s : System) (i : Nat) : Prop :=
  (s.tasks i).phase = .connecting ∨ (s.tasks i).phase = .waiting

/-- Every `ctrl_tx` of the task is dropped: its pump receives `None`. -/
def Cut (s : System) (i : Nat) : Prop :=
  (∀ label, s.registry label ≠ some i) ∧ s.senders i = 0

/-- The pump task has a step to take that waits for nothing outside. -/
def Due (s : System) (i : Nat) : Prop :=
  ((s.tasks i).phase = .pumping ∧ s.Cut i) ∨ (s.tasks i).phase = .closing ∨
    (s.tasks i).phase = .closed

/-- Of the label every `fusion_start` and every call has returned, and its pumps have taken
the steps that are due. -/
def Settled (s : System) (label : Label) : Prop :=
  ∀ i, (s.tasks i).label = label → ¬s.InFlight i ∧ s.senders i = 0 ∧ ¬s.Due i

/-- No window that is gone has an entry, and once its tasks have settled no session of it is
open and no pump runs. -/
def NoOrphan (s : System) (a : Action) : Prop :=
  ∀ label, (s.step a).gone label = true → (s.step a).registry label = none ∧
    ((s.step a).Settled label →
      ∀ i, ((s.step a).tasks i).label = label → ((s.step a).tasks i).phase = .ended)

/-- A start that comes to its entry finds its window there; a window that is destroyed has a
name that the handler looks at, or no entry. -/
def WindowThere (s : System) : Action → Prop
  | .insert i => (s.tasks i).phase = .waiting → s.gone (s.tasks i).label = false
  | .destroyed label => isFusion label = true ∨ s.registry label = none
  | _ => True

def Cleared (s : System) : Prop := ∀ label, s.gone label = true → s.registry label = none

theorem Registered.ended (h : s.Registered) {label : Label} (hnone : s.registry label = none)
    (settled : s.Settled label) {i : Nat} (hi : (s.tasks i).label = label) :
    (s.tasks i).phase = .ended := by
  obtain ⟨hflight, hsenders, hdue⟩ := settled i hi
  have hentry : ∀ l, s.registry l ≠ some i := by
    intro l hl
    have howner := (h.owner l i hl).2
    rw [← howner, hi, hnone] at hl
    cases hl
  cases hphase : (s.tasks i).phase with
  | connecting => exact absurd (Or.inl hphase) hflight
  | waiting => exact absurd (Or.inr hphase) hflight
  | pumping => exact absurd (Or.inl ⟨hphase, hentry, hsenders⟩) hdue
  | closing => exact absurd (Or.inr (Or.inl hphase)) hdue
  | closed => exact absurd (Or.inr (Or.inr hphase)) hdue
  | ended => rfl

theorem noOrphan_iff_cleared (h : s.Registered) (a : Action) :
    s.NoOrphan a ↔ (s.step a).Cleared := by
  refine forall₂_congr fun label _ => and_iff_left_of_imp fun hnone => ?_
  exact fun settled i hi => (h.step a).ended hnone settled hi

theorem Cleared.remove (h : s.Cleared) (label : Label) : (s.remove label).Cleared := by
  intro label' hgone
  rw [remove_registry]
  split
  · rfl
  · exact h label' hgone

/-- A window that comes or goes and has no entry. -/
theorem Cleared.markGone (h : s.Cleared) {label : Label} {gone : Bool}
    (hentry : gone = true → s.registry label = none) : (s.markGone label gone).Cleared := by
  intro label' hgone
  rw [markGone_gone] at hgone
  split at hgone
  · rename_i heq
    subst heq
    exact hentry hgone
  · exact h label' hgone

theorem Cleared.of_eq {t : System} (h : s.Cleared) (hregistry : t.registry = s.registry)
    (hgone : t.gone = s.gone) : t.Cleared := by
  intro label hlabel
  rw [hgone] at hlabel
  rw [hregistry]
  exact h label hlabel

theorem cleared_insert_iff (h : s.Cleared) (i : Nat) :
    (s.insert i).Cleared ↔ s.gone (s.tasks i).label = false := by
  have hgone : (s.insert i).gone = s.gone := rfl
  constructor
  · intro cleared
    by_contra hne
    have hnone := cleared (s.tasks i).label (by simpa [hgone] using hne)
    rw [insert_registry, if_pos rfl] at hnone
    cases hnone
  · intro hthere label hlabel
    have hne : label ≠ (s.tasks i).label := by
      rintro rfl
      rw [hgone, hthere] at hlabel
      cases hlabel
    rw [insert_registry, if_neg hne]
    exact h label hlabel

theorem cleared_step_iff (h : s.Cleared) (a : Action) : (s.step a).Cleared ↔ s.WindowThere a := by
  cases a with
  | begin label =>
      have hcleared : ((s.remove label).markGone label false).Cleared :=
        (h.remove label).markGone nofun
      exact iff_of_true hcleared trivial
  | close label =>
      have hcleared : ((s.remove label).markGone label true).Cleared :=
        (h.remove label).markGone fun _ => by rw [remove_registry, if_pos rfl]
      exact iff_of_true hcleared trivial
  | destroyed label =>
      by_cases hfusion : isFusion label = true
      · have hcleared : ((s.remove label).markGone label true).Cleared :=
          (h.remove label).markGone fun _ => by rw [remove_registry, if_pos rfl]
        refine iff_of_true ?_ (Or.inl hfusion)
        simp only [step, onDestroyed, if_pos hfusion]
        exact hcleared
      · have hstep : s.step (.destroyed label) = s.markGone label true := by
          simp only [step, onDestroyed, if_neg hfusion]
        rw [hstep, WindowThere, or_iff_right hfusion]
        refine ⟨fun cleared => ?_, fun hnone => h.markGone fun _ => hnone⟩
        exact cleared label (by rw [markGone_gone, if_pos rfl])
  | insert i =>
      by_cases hphase : (s.tasks i).phase = .waiting
      · have hstep : s.step (.insert i) = s.insert i := if_pos hphase
        rw [hstep, cleared_insert_iff h, WindowThere]
        exact ⟨fun hthere _ => hthere, fun hthere => hthere hphase⟩
      · have hstep : s.step (.insert i) = s := if_neg hphase
        rw [hstep]
        exact iff_of_true h fun hp => absurd hp hphase
  | cleanup i =>
      refine iff_of_true ?_ trivial
      simp only [step]
      split
      · exact (h.remove (s.tasks i).label).of_eq rfl rfl
      · exact h
  | connected _ | failed _ | inputBegin _ | inputEnd _ | pumpBreak _ | sessionClosed _ =>
      exact iff_of_true (h.of_eq (s.step_unwritten rfl).1 (s.step_unwritten rfl).2) trivial

/-- Over every run: no window that is gone has an entry or, once settled, a session, exactly
when every start that comes to its entry finds its window there, and every window that is
destroyed with an entry has the name of a fusion window. -/
theorem no_orphan_iff (actions : List Action) :
    Run.Along step NoOrphan init actions ↔ Run.Along step WindowThere init actions := by
  have start : init.Registered ∧ init.Cleared := ⟨registered_init, fun _ _ => rfl⟩
  refine Run.along_iff_of_kept (I := fun s => s.Registered ∧ s.Cleared)
    (fun s a h there => ⟨h.1.step a, (cleared_step_iff h.2 a).mpr there⟩) (fun s a h => ?_)
    start actions
  rw [noOrphan_iff_cleared h.1, cleared_step_iff h.2]

/-- The window is closed during the handshake. -/
theorem no_orphan_closed_in_handshake :
    ¬Run.Along step NoOrphan init [.begin "fusion-1", .close "fusion-1", .connected 0, .insert 0] := by
  intro along
  have hlast := (along.2.2.2.1 "fusion-1" (by decide)).1
  revert hlast
  decide

end Kulua.Fusion.System
