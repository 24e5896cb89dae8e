import Mathlib.Tactic

/-! Infinite schedules of a deterministic step function, and the rule for what they bring
about in the end. Nothing here mentions a particular program. -/

namespace Kulua.Foundation.Schedule

variable {σ α : Type*} {step : σ → α → σ} {s : σ} {f : Nat → α}

/-- The state in front of action `n`. -/
def state (step : σ → α → σ) (s : σ) (f : Nat → α) : Nat → σ
  | 0 => s
  | n + 1 => step (state step s f n) (f n)

@[simp] theorem state_zero : state step s f 0 = s := rfl

@[simp] theorem state_succ (n : Nat) :
    state step s f (n + 1) = step (state step s f n) (f n) := rfl

/-- Actions that do nothing in a state leave it. -/
theorem state_of_idle {n m : Nat} (le : n ≤ m)
    (idle : ∀ k, n ≤ k → k < m → step (state step s f n) (f k) = state step s f n) :
    state step s f m = state step s f n := by
  induction m, le using Nat.le_induction with
  | base => rfl
  | succ m le ih =>
    rw [state_succ, ih fun k hk hlt => idle k hk (Nat.lt_succ_of_lt hlt)]
    exact idle m le (Nat.lt_succ_self m)

/-- The progress rule: an action does nothing, reaches the goal, or brings a measure down; and
there is always a later one that does something. -/
theorem eventually {I G : σ → Prop} {A : α → Prop} {μ : σ → Nat}
    (moves : ∀ s a, I s → A a → step s a = s ∨ G (step s a) ∨ I (step s a) ∧ μ (step s a) < μ s)
    (allowed : ∀ n, A (f n)) (due : ∀ s n, I s → ∃ m, n ≤ m ∧ step s (f m) ≠ s) {n : Nat}
    (start : I (state step s f n)) : ∃ m, n ≤ m ∧ G (state step s f m) := by
  classical
  generalize hμ : μ (state step s f n) = bound
  induction bound using Nat.strongRecOn generalizing n with
  | ind bound ih =>
    have hlater := due _ n start
    obtain ⟨hle, hmove⟩ := Nat.find_spec hlater
    have hidle : state step s f (Nat.find hlater) = state step s f n := by
      refine state_of_idle hle fun k hk hlt => ?_
      by_contra hne
      exact Nat.find_min hlater hlt ⟨hk, hne⟩
    have hnext : state step s f (Nat.find hlater + 1) =
        step (state step s f n) (f (Nat.find hlater)) := by rw [state_succ, hidle]
    obtain hsame | hgoal | ⟨hI, hless⟩ := moves _ (f (Nat.find hlater)) start (allowed _)
    · exact absurd hsame hmove
    · exact ⟨Nat.find hlater + 1, hle.trans (Nat.le_succ _), hnext ▸ hgoal⟩
    · rw [← hnext] at hI hless
      obtain ⟨m, hm, hgoal⟩ := ih _ (hμ ▸ hless) hI rfl
      exact ⟨m, (hle.trans (Nat.le_succ _)).trans hm, hgoal⟩

/-- The fairness rule: a rank does not rise on the way to the goal, and the actions that bring it
down, each rank its own, come again and again. -/
theorem eventually_of_fair {R : Type*} [PartialOrder R] [WellFoundedLT R] {I G : σ → Prop}
    {C : σ → α → Prop} {μ : σ → R} {helpful : R → α → Prop}
    (moves : ∀ s a, I s → C s a → G (step s a) ∨
      I (step s a) ∧ μ (step s a) ≤ μ s ∧ (helpful (μ s) a → μ (step s a) ≠ μ s))
    (fair : ∀ r n, ∃ m, n ≤ m ∧ helpful r (f m)) {n : Nat}
    (along : ∀ m, n ≤ m → C (state step s f m) (f m)) (start : I (state step s f n)) :
    ∃ m, n ≤ m ∧ G (state step s f m) := by
  generalize hr : μ (state step s f n) = r
  induction r using WellFoundedLT.induction generalizing n with
  | ind r ih =>
    obtain ⟨m, hm, hhelp⟩ := fair r n
    -- the way to the helpful action: the goal, a lower rank, or the same rank all along
    have hway : ∀ k, n ≤ k → k ≤ m → (∃ j, n ≤ j ∧ G (state step s f j)) ∨
        I (state step s f k) ∧ μ (state step s f k) = r := by
      intro k hk
      induction k, hk using Nat.le_induction with
      | base => exact fun _ => .inr ⟨start, hr⟩
      | succ k hk ihk =>
        intro hkm
        rcases ihk (by omega) with goal | ⟨hI, hrank⟩
        · exact .inl goal
        · rcases moves _ (f k) hI (along k hk) with goal | ⟨hI', hle, -⟩
          · exact .inl ⟨k + 1, by omega, goal⟩
          · rw [hrank] at hle
            rcases hle.lt_or_eq with hlt | heq
            · have hlater : ∀ i, k + 1 ≤ i → C (state step s f i) (f i) :=
                fun i hi => along i (by omega)
              obtain ⟨j, hj, goal⟩ := ih _ hlt hlater hI' rfl
              exact .inl ⟨j, by omega, goal⟩
            · exact .inr ⟨hI', heq⟩
    rcases hway m hm le_rfl with goal | ⟨hI, hrank⟩
    · exact goal
    · rcases moves _ (f m) hI (along m hm) with goal | ⟨hI', hle, hne⟩
      · exact ⟨m + 1, by omega, goal⟩
      · rw [hrank] at hle hne
        have hlater : ∀ i, m + 1 ≤ i → C (state step s f i) (f i) := fun i hi => along i (by omega)
        obtain ⟨j, hj, goal⟩ := ih _ (lt_of_le_of_ne hle (hne hhelp)) hlater hI' rfl
        exact ⟨j, by omega, goal⟩

end Kulua.Foundation.Schedule
