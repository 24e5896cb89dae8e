import Mathlib.Tactic

/-! A register that only newer entries overwrite. It holds the newest of them in whatever order
they come, and however often. -/

namespace Kulua.Foundation

variable {β κ : Type*} [LinearOrder κ] (key : β → κ)

def overwrite (old new : β) : β := if key new ≤ key old then old else new

/-- The register after the entries. -/
def newest (start : β) (entries : List β) : β := entries.foldl (overwrite key) start

@[simp] theorem newest_append_singleton (start entry : β) (entries : List β) :
    newest key start (entries ++ [entry]) = overwrite key (newest key start entries) entry := by
  simp [newest]

variable {key} {start greatest : β} {entries : List β}

theorem newest_mem : newest key start entries ∈ start :: entries := by
  induction entries using List.reverseRecOn with
  | nil => exact List.mem_cons_self
  | append_singleton entries entry ih =>
    rw [newest_append_singleton, overwrite]
    split
    · exact List.mem_append_left [entry] ih
    · simp

theorem le_newest {entry : β} (h : entry ∈ start :: entries) :
    key entry ≤ key (newest key start entries) := by
  induction entries using List.reverseRecOn with
  | nil => exact (List.mem_singleton.mp h) ▸ le_rfl
  | append_singleton entries last ih =>
    have hover : key (newest key start entries) ≤ key (newest key start (entries ++ [last])) ∧
        key last ≤ key (newest key start (entries ++ [last])) := by
      rw [newest_append_singleton, overwrite]
      split
      · exact ⟨le_rfl, ‹_›⟩
      · exact ⟨(lt_of_not_ge ‹_›).le, le_rfl⟩
    rw [← List.cons_append, List.mem_append, List.mem_singleton] at h
    rcases h with hold | rfl
    · exact (ih hold).trans hover.1
    · exact hover.2

/-- The only entry with the greatest key. -/
theorem newest_eq (hmem : greatest ∈ start :: entries)
    (hle : ∀ entry ∈ start :: entries, key entry ≤ key greatest)
    (hunique : ∀ entry ∈ start :: entries, key entry = key greatest → entry = greatest) :
    newest key start entries = greatest :=
  hunique _ newest_mem (le_antisymm (hle _ newest_mem) (le_newest hmem))

end Kulua.Foundation
