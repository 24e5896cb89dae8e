import Mathlib.Tactic

/-! A timer whose timeout grows with the number of times it has expired. It is looked at from
time to time, and expires at the first look after its timeout. -/

namespace Kulua.Foundation.Backoff

structure Timer where
  last : Nat
  count : Nat

/-- A look at the timer. -/
def Timer.check (timeout : Nat → Nat) (now : Nat) (t : Timer) : Timer :=
  if timeout t.count ≤ now - t.last then ⟨now, t.count + 1⟩ else t

/-- The time in which the timer expires `n` times, if the looks are at most `gap` apart. -/
def budget (timeout : Nat → Nat) (gap n : Nat) : Nat :=
  ((List.range n).map fun k => timeout k + gap).sum

variable {timeout : Nat → Nat} {gap : Nat}

theorem budget_succ (n : Nat) :
    budget timeout gap (n + 1) = budget timeout gap n + (timeout n + gap) := by
  simp [budget, List.range_succ]

theorem budget_mono {m n : Nat} (h : m ≤ n) : budget timeout gap m ≤ budget timeout gap n := by
  induction n, h using Nat.le_induction with
  | base => exact le_rfl
  | succ n _ ih =>
    rw [budget_succ]
    omega

/-- The timer started at `start`, and the last look was at `seen`. -/
structure Punctual (timeout : Nat → Nat) (gap start seen : Nat) (t : Timer) : Prop where
  last : t.last ≤ start + budget timeout gap t.count
  waits : seen < t.last + timeout t.count

theorem Punctual.start (pos : ∀ k, 0 < timeout k) {seen now : Nat} (h : seen ≤ now) :
    Punctual timeout gap now seen ⟨now, 0⟩ where
  last := Nat.le_add_right ..
  waits := lt_of_le_of_lt h (Nat.lt_add_of_pos_right (pos 0))

theorem Punctual.check (pos : ∀ k, 0 < timeout k) {start seen now : Nat} {t : Timer}
    (h : Punctual timeout gap start seen t) (hnow : now ≤ seen + gap) :
    Punctual timeout gap start now (t.check timeout now) := by
  obtain ⟨hlast, hwaits⟩ := h
  unfold Timer.check
  split
  · refine ⟨?_, Nat.lt_add_of_pos_right (pos _)⟩
    rw [budget_succ]
    dsimp only
    omega
  · exact ⟨hlast, by omega⟩

/-- A timer that may expire `limit` times is over within the budget of one time more. -/
theorem Punctual.deadline {start seen now limit : Nat} {t : Timer}
    (h : Punctual timeout gap start seen t) (hlimit : t.count ≤ limit) (hnow : now ≤ seen + gap) :
    now < start + budget timeout gap (limit + 1) := by
  have hmono : budget timeout gap (t.count + 1) ≤ budget timeout gap (limit + 1) :=
    budget_mono (Nat.succ_le_succ hlimit)
  rw [budget_succ] at hmono
  have := h.last
  have := h.waits
  omega

end Kulua.Foundation.Backoff
