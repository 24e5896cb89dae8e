import Mathlib.Tactic

/-! A cell that holds the last value sent, for a reader that polls whether anything was sent
since it polled before and then takes a copy of what is there. A value sent between the poll
and the copy is copied, and polled again. -/

namespace Kulua.Foundation

structure Watch (α : Type*) where
  value : α
  version : Nat
  deriving DecidableEq, Repr

namespace Watch

variable {α : Type*}

def new (value : α) : Watch α := ⟨value, 0⟩

def send (self : Watch α) (value : α) : Watch α := ⟨value, self.version + 1⟩

/-- The copy was taken after the last poll that saw a change. -/
def Follows (self : Watch α) (seen : Nat) (copy : α) : Prop :=
  ∃ taken, seen ≤ taken ∧ taken ≤ self.version ∧ (taken = self.version → copy = self.value)

variable {self : Watch α} {seen : Nat} {copy : α}

theorem follows_copy (h : seen ≤ self.version) : self.Follows seen self.value :=
  ⟨self.version, h, le_rfl, fun _ => rfl⟩

theorem Follows.le (h : self.Follows seen copy) : seen ≤ self.version := by
  obtain ⟨taken, hseen, hle, -⟩ := h
  exact hseen.trans hle

theorem Follows.send (h : self.Follows seen copy) (value : α) :
    (self.send value).Follows seen copy := by
  obtain ⟨taken, hseen, hle, -⟩ := h
  refine ⟨taken, hseen, Nat.le_succ_of_le hle, fun heq => ?_⟩
  change taken = self.version + 1 at heq
  omega

/-- A poll that sees no change finds the copy up to date. -/
theorem Follows.current (h : self.Follows self.version copy) : copy = self.value := by
  obtain ⟨taken, hseen, hle, hcopy⟩ := h
  exact hcopy (le_antisymm hle hseen)

end Watch

end Kulua.Foundation
