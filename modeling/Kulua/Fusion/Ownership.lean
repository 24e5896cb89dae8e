import Kulua.Fusion.System

/-! Whose entry a pump task removes when it ends. -/

namespace Kulua.Fusion.System
open Foundation

variable {s : System}

theorem Pumps.not_of {i : Nat} {phase : Phase} (hphase : (s.tasks i).phase = phase)
    (hother : phase ≠ .pumping ∧ phase ≠ .closing ∧ phase ≠ .closed) : ¬s.Pumps i := by
  subst hphase
  rintro (h | h | h)
  · exact hother.1 h
  · exact hother.2.1 h
  · exact hother.2.2 h

/-- A change of phase that makes no pump. -/
theorem Pumps.setPhase {i k : Nat} {phase : Phase}
    (hold : s.Pumps i ∨ (phase ≠ .pumping ∧ phase ≠ .closing ∧ phase ≠ .closed))
    (hk : (s.setPhase i phase).Pumps k) : s.Pumps k := by
  by_cases hki : k = i
  · subst hki
    refine hold.resolve_right fun hother => ?_
    exact Pumps.not_of (setPhase_self s k phase) hother hk
  · exact (Pumps.of_setPhase hki).mp hk

/-- A step that changes one phase, where its task is at it. -/
theorem pumps_ite {P : Prop} [Decidable P] {i k : Nat} {phase : Phase}
    (hold : P → s.Pumps i ∨ (phase ≠ .pumping ∧ phase ≠ .closing ∧ phase ≠ .closed))
    (h : (if P then s.setPhase i phase else s).Pumps k) :
    ((if P then s.setPhase i phase else s).tasks k).label = (s.tasks k).label ∧ s.Pumps k := by
  by_cases hP : P
  · rw [if_pos hP] at h ⊢
    exact ⟨setPhase_label .., h.setPhase (hold hP)⟩
  · rw [if_neg hP] at h ⊢
    exact ⟨rfl, h⟩

/-- No step but `insert` makes a pump, and none changes the label of one. -/
theorem pumps_step {a : Action} {k : Nat} (h : (s.step a).Pumps k) :
    ((s.step a).tasks k).label = (s.tasks k).label ∧
      (s.Pumps k ∨ a = .insert k ∧ (s.tasks k).phase = .waiting) := by
  cases a with
  | begin label =>
      by_cases hnew : k = s.next
      · subst hnew
        have hphase : ((s.fusionStart label).tasks s.next).phase = .connecting := by
          simp [fusionStart, remove, markGone]
        exact absurd h (Pumps.not_of hphase (by decide))
      · have htask := fusionStart_other s label hnew
        simp only [step, Pumps, htask] at h ⊢
        exact ⟨trivial, Or.inl h⟩
  | connected i =>
      obtain ⟨hlabel, hold⟩ := pumps_ite (fun _ => Or.inr (by decide)) h
      exact ⟨hlabel, Or.inl hold⟩
  | failed i =>
      obtain ⟨hlabel, hold⟩ := pumps_ite (fun _ => Or.inr (by decide)) h
      exact ⟨hlabel, Or.inl hold⟩
  | insert i =>
      simp only [step] at h ⊢
      split at h
      · rename_i hphase
        rw [if_pos hphase]
        refine ⟨insert_label .., ?_⟩
        rcases (insert_pumps ..).mp h with rfl | hold
        · exact Or.inr ⟨rfl, hphase⟩
        · exact Or.inl hold
      · rw [if_neg ‹_›]
        exact ⟨rfl, Or.inl h⟩
  | inputBegin label =>
      have htasks : (s.step (.inputBegin label)).tasks = s.tasks := by
        simp only [step, fusionCtrl]
        split <;> rfl
      rw [Pumps, htasks] at h
      exact ⟨by rw [htasks], Or.inl h⟩
  | inputEnd i => exact ⟨rfl, Or.inl h⟩
  | close label => exact ⟨rfl, Or.inl h⟩
  | destroyed label =>
      have htasks : (s.step (.destroyed label)).tasks = s.tasks := by
        simp only [step, onDestroyed]
        split <;> rfl
      rw [Pumps, htasks] at h
      exact ⟨by rw [htasks], Or.inl h⟩
  | pumpBreak i =>
      obtain ⟨hlabel, hold⟩ := pumps_ite (fun hphase => Or.inl (Or.inl hphase)) h
      exact ⟨hlabel, Or.inl hold⟩
  | sessionClosed i =>
      obtain ⟨hlabel, hold⟩ := pumps_ite (fun hphase => Or.inl (Or.inr (Or.inl hphase))) h
      exact ⟨hlabel, Or.inl hold⟩
  | cleanup i =>
      simp only [step] at h ⊢
      split at h
      · rw [if_pos ‹_›]
        have hold : (s.remove (s.tasks i).label).Pumps k := h.setPhase (Or.inr (by decide))
        exact ⟨setPhase_label .., Or.inl hold⟩
      · rw [if_neg ‹_›]
        exact ⟨rfl, Or.inl h⟩

/-- What an entry of a label may go by: a new start, a close or the end of the window, the
entry of a start that began later, the end of its own pump. -/
def MayRemove (s : System) (label : Label) (j : Nat) : Action → Prop
  | .begin l | .close l | .destroyed l => l = label
  | .insert k => (s.tasks k).label = label ∧ j < k
  | .cleanup k => k = j
  | _ => False

/-- No entry goes by anything else, and a pump that ended now would find its own entry or
none. -/
structure Owns (s : System) (a : Action) : Prop where
  removed : ∀ label j, s.registry label = some j → (s.step a).registry label ≠ some j →
    s.MayRemove label j a
  own : ∀ k, (s.step a).Pumps k → ∀ j,
    (s.step a).registry ((s.step a).tasks k).label = some j → j = k

/-- A start that comes to its entry finds no pump task of its label that has not ended. -/
def NoOverlap (s : System) : Action → Prop
  | .insert i => (s.tasks i).phase = .waiting → ∀ k, s.Pumps k →
      (s.tasks k).label ≠ (s.tasks i).label
  | _ => True

/-- A label has one pump at most. -/
def Single (s : System) : Prop :=
  ∀ i k, s.Pumps i → s.Pumps k → (s.tasks i).label = (s.tasks k).label → i = k

theorem Single.step (single : s.Single) {a : Action} (clear : s.NoOverlap a) :
    (s.step a).Single := by
  intro i k hpi hpk hlabel
  obtain ⟨hli, hi⟩ := pumps_step hpi
  obtain ⟨hlk, hk⟩ := pumps_step hpk
  rw [hli, hlk] at hlabel
  rcases hi with hi | ⟨rfl, hphase⟩
  · rcases hk with hk | ⟨rfl, hphase⟩
    · exact single i k hi hk hlabel
    · exact absurd hlabel (clear hphase i hi)
  · rcases hk with hk | ⟨hinsert, -⟩
    · exact absurd hlabel.symm (clear hphase k hk)
    · exact Action.insert.inj hinsert

/-- With one pump for a label the entry of the label is that of the pump. -/
theorem Registered.own (h : s.Registered) (single : s.Single) {k j : Nat} (hk : s.Pumps k)
    (hentry : s.registry (s.tasks k).label = some j) : j = k := by
  obtain ⟨hj, hlabel⟩ := h.owner _ j hentry
  exact single j k hj hk hlabel

theorem not_entry_of_remove {label l : Label} {j : Nat} (hentry : s.registry label = some j)
    (hgone : (s.remove l).registry label ≠ some j) : l = label := by
  rw [remove_registry] at hgone
  by_contra hne
  rw [if_neg (Ne.symm hne)] at hgone
  exact hgone hentry

theorem Registered.removed (h : s.Registered) (single : s.Single) {a : Action}
    (clear : s.NoOverlap a) {label : Label} {j : Nat} (hentry : s.registry label = some j)
    (hgone : (s.step a).registry label ≠ some j) : s.MayRemove label j a := by
  -- the other steps leave the registry as it is
  have same (hsame : (s.step a).registry = s.registry) : s.MayRemove label j a :=
    absurd (hsame ▸ hentry) hgone
  cases a with
  | begin l => exact not_entry_of_remove hentry hgone
  | close l => exact not_entry_of_remove hentry hgone
  | destroyed l =>
      by_cases hfusion : isFusion l = true
      · simp only [System.step, onDestroyed, if_pos hfusion] at hgone
        exact not_entry_of_remove hentry hgone
      · refine same ?_
        simp only [System.step, onDestroyed, if_neg hfusion]
        rfl
  | insert i =>
      by_cases hphase : (s.tasks i).phase = .waiting
      · simp only [System.step, if_pos hphase, insert_registry] at hgone
        split at hgone
        · rename_i hlabel
          obtain ⟨hpumps, howner⟩ := h.owner label j hentry
          exact absurd (howner.trans hlabel) (clear hphase j hpumps)
        · exact absurd hentry hgone
      · exact same (by rw [System.step, if_neg hphase])
  | cleanup i =>
      by_cases hphase : (s.tasks i).phase = .closed
      · simp only [System.step, if_pos hphase, setPhase_registry] at hgone
        have hlabel := not_entry_of_remove hentry hgone
        rw [← hlabel] at hentry
        exact (h.own single (Or.inr (Or.inr hphase)) hentry).symm
      · exact same (by rw [System.step, if_neg hphase])
  | connected _ | failed _ | inputBegin _ | inputEnd _ | pumpBreak _ | sessionClosed _ =>
      exact same (s.step_unwritten rfl).1

theorem owns_iff (h : s.Registered) (single : s.Single) (a : Action) :
    s.Owns a ↔ s.NoOverlap a := by
  constructor
  · intro owns
    cases a with
    | insert i =>
        intro hphase k hk hlabel
        have hne : k ≠ i := by
          rintro rfl
          exact Pumps.not_of hphase (by decide) hk
        have hstep : s.step (.insert i) = s.insert i := if_pos hphase
        have hown := owns.own k
        rw [hstep, insert_pumps, insert_label, insert_registry, if_pos hlabel] at hown
        exact hne (hown (Or.inr hk) i rfl).symm
    | _ => trivial
  · intro clear
    exact ⟨fun _ _ => h.removed single clear,
      fun _ hk _ => (h.step a).own (single.step clear) hk⟩

/-- Over every run: entries go as they should, and a pump that ends finds its own entry or
none, exactly when every start that comes to its entry finds no pump of its label. -/
theorem registry_ownership_iff (actions : List Action) :
    Run.Along step Owns init actions ↔ Run.Along step NoOverlap init actions := by
  have start : init.Registered ∧ init.Single :=
    ⟨registered_init, fun i _ hi => absurd hi
      (Pumps.not_of (show (init.tasks i).phase = .ended from rfl) (by decide))⟩
  exact Run.along_iff_of_kept (I := fun s => s.Registered ∧ s.Single)
    (fun _ a h clear => ⟨h.1.step a, h.2.step clear⟩) (fun _ a h => owns_iff h.1 h.2 a) start actions

/-- A window that is loaded again: the pump of the first session ends late, and removes the
entry of the second. -/
theorem registry_ownership_reload :
    ¬Run.Along step Owns init [.begin "fusion-1", .connected 0, .insert 0, .begin "fusion-1",
      .connected 1, .pumpBreak 0, .sessionClosed 0, .insert 1, .cleanup 0] := by
  intro along
  have hlast : 0 = 1 := along.2.2.2.2.2.2.2.2.1.removed "fusion-1" 1 (by decide) (by decide)
  exact absurd hlast (by decide)

end Kulua.Fusion.System
