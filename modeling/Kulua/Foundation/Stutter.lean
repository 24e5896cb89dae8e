import Mathlib.Tactic

/-! A list in which each entry of another one stands one or more times, one behind the other. -/

namespace Kulua.Foundation

variable {α : Type*}

inductive Stutters : List α → List α → Prop
  | nil : Stutters [] []
  | fresh {xs ys : List α} (h : Stutters xs ys) (a : α) : Stutters (xs ++ [a]) (ys ++ [a])
  | again {xs ys : List α} (h : Stutters xs ys) {a : α} (last : xs.getLast? = some a) :
    Stutters xs (ys ++ [a])

/-- Each entry as often as it is counted, and once more. -/
def expand (xs : List α) (counts : List Nat) : List α :=
  (List.zipWith (fun a n => List.replicate (n + 1) a) xs counts).flatten

theorem expand_append {xs xs' : List α} {counts counts' : List Nat}
    (h : xs.length = counts.length) :
    expand (xs ++ xs') (counts ++ counts') = expand xs counts ++ expand xs' counts' := by
  rw [expand, List.zipWith_append h, List.flatten_append]
  rfl

/-- How often each entry stands. -/
theorem Stutters.exists_counts {xs ys : List α} (h : Stutters xs ys) :
    ∃ counts, counts.length = xs.length ∧ ys = expand xs counts := by
  induction h with
  | nil => exact ⟨[], rfl, rfl⟩
  | fresh h a ih =>
    obtain ⟨counts, hlen, rfl⟩ := ih
    refine ⟨counts ++ [0], by simp [hlen], ?_⟩
    rw [expand_append hlen.symm]
    rfl
  | again h last ih =>
    rename_i xs ys a
    obtain ⟨counts, hlen, rfl⟩ := ih
    obtain ⟨xs, rfl⟩ := List.getLast?_eq_some_iff.mp last
    obtain ⟨counts, n, rfl⟩ : ∃ counts' n, counts = counts' ++ [n] := by
      have hne : counts ≠ [] := by
        rintro rfl
        simp at hlen
      exact ⟨counts.dropLast, counts.getLast hne, (List.dropLast_append_getLast hne).symm⟩
    have hlen' : xs.length = counts.length := by simpa using hlen.symm
    refine ⟨counts ++ [n + 1], by simp [hlen'], ?_⟩
    rw [expand_append hlen', expand_append hlen', List.append_assoc]
    congr 1
    simp [expand, List.replicate_succ' (n := n + 1)]

end Kulua.Foundation
