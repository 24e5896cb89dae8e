import Kulua.Foundation.Run

/-! What a run has seen: the last value that its actions showed, and what has held since one
of them. -/

namespace Kulua.Foundation.History
open Run

variable {σ α β : Type*}

/-- The last of the values that the actions show. -/
def latest (f : α → Option β) (actions : List α) : Option β := (actions.filterMap f).getLast?

@[simp] theorem latest_append_singleton (f : α → Option β) (actions : List α) (a : α) :
    latest f (actions ++ [a]) = (f a).or (latest f actions) := by
  unfold latest
  cases h : f a <;> simp [h]

/-- `M` held of some action in the state it was taken in, and `K` of every later one. -/
def Since (step : σ → α → σ) (M K : σ → α → Prop) (s : σ) (actions : List α) : Prop :=
  ∃ before a after, actions = before ++ a :: after ∧ M (run step s before) a ∧
    Along step K (run step s (before ++ [a])) after

section Since

variable {step : σ → α → σ} {M K : σ → α → Prop} {s : σ} {actions : List α} {a : α}

theorem since_now (h : M (run step s actions) a) : Since step M K s (actions ++ [a]) :=
  ⟨actions, a, [], rfl, h, trivial⟩

theorem Since.keep (h : Since step M K s actions) (hkeep : K (run step s actions) a) :
    Since step M K s (actions ++ [a]) := by
  obtain ⟨before, b, after, rfl, hmade, halong⟩ := h
  refine ⟨before, b, after ++ [a], by simp, hmade, ?_⟩
  rw [along_append]
  refine ⟨halong, ?_, trivial⟩
  rw [← run_append]
  simpa using hkeep

end Since

/-- The invariant rule for a relation between a state and the actions that led to it. -/
theorem induct {step : σ → α → σ} {I : List α → σ → Prop} {s : σ} (start : I [] s)
    (extend : ∀ actions a, I actions (run step s actions) →
      I (actions ++ [a]) (step (run step s actions) a)) (actions : List α) :
    I actions (run step s actions) := by
  induction actions using List.reverseRecOn with
  | nil => exact start
  | append_singleton actions a ih =>
    rw [run_append]
    exact extend actions a ih

end Kulua.Foundation.History
