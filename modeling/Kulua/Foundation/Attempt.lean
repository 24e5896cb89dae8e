import Kulua.Foundation.Run

/-! Loops like `drain` whose iterations may fail: the loop then has no result. -/

namespace Kulua.Foundation.Run

variable {σ β : Type*}

/-- Repeat `next` until it stops, at most `fuel` times; a state that fails ends it without
a result. -/
def attempt (fails : σ → Bool) (next : σ → Option (σ × β)) : Nat → σ → Option (σ × List β)
  | 0, s => some (s, [])
  | fuel + 1, s =>
    if fails s then none
    else
      match next s with
      | none => some (s, [])
      | some (s', b) => (attempt fails next fuel s').map fun r => (r.1, b :: r.2)

/-- One iteration leads from the first state to the second. -/
def Leads (next : σ → Option (σ × β)) (s t : σ) : Prop := ∃ b, next s = some (t, b)

variable {fails : σ → Bool} {next : σ → Option (σ × β)}

/-- What does not fail is `drain`. -/
theorem attempt_eq_some {fuel : Nat} {s : σ} {r : σ × List β}
    (h : attempt fails next fuel s = some r) : r = drain next fuel s := by
  induction fuel generalizing s r with
  | zero => exact (Option.some.inj h).symm
  | succ fuel ih =>
      rw [attempt] at h
      split at h
      · cases h
      · rcases hs : next s with _ | ⟨s', b⟩
        · simp only [hs] at h
          rw [drain_none hs, Option.some.inj h]
        · simp only [hs] at h
          obtain ⟨r', hr', rfl⟩ := Option.map_eq_some_iff.mp h
          rw [drain_some hs, ih hr']

/-- With enough fuel the loop fails exactly when its iterations lead to a state that does. -/
theorem attempt_eq_none (μ : σ → Nat) (decrease : ∀ s s' b, next s = some (s', b) → μ s' < μ s)
    (room : ∀ s, fails s = true → 0 < μ s) {fuel : Nat} {s : σ} (enough : μ s ≤ fuel) :
    attempt fails next fuel s = none ↔
      ∃ t, Relation.ReflTransGen (Leads next) s t ∧ fails t = true := by
  induction fuel generalizing s with
  | zero =>
      refine ⟨nofun, ?_⟩
      rintro ⟨t, hpath, hfails⟩
      rcases Relation.ReflTransGen.cases_head hpath with rfl | ⟨u, ⟨b, hnext⟩, -⟩
      · have := room s hfails
        omega
      · have := decrease s u b hnext
        omega
  | succ fuel ih =>
      rw [attempt]
      by_cases hfails : fails s = true
      · rw [if_pos hfails]
        exact iff_of_true rfl ⟨s, .refl, hfails⟩
      · rw [if_neg hfails]
        rcases hs : next s with _ | ⟨s', b⟩
        · refine ⟨nofun, ?_⟩
          rintro ⟨t, hpath, ht⟩
          rcases Relation.ReflTransGen.cases_head hpath with rfl | ⟨u, ⟨b, hnext⟩, -⟩
          · exact absurd ht hfails
          · rw [hs] at hnext
            cases hnext
        · have hlt := decrease s s' b hs
          simp only [Option.map_eq_none_iff]
          rw [ih (by omega)]
          constructor
          · rintro ⟨t, hpath, ht⟩
            exact ⟨t, .head ⟨b, hs⟩ hpath, ht⟩
          · rintro ⟨t, hpath, ht⟩
            rcases Relation.ReflTransGen.cases_head hpath with rfl | ⟨u, ⟨b', hnext⟩, hrest⟩
            · exact absurd ht hfails
            · rw [hs] at hnext
              cases hnext
              exact ⟨t, hrest, ht⟩

/-- Where the iterations of two loops correspond under `f`, so do the states they lead to. -/
theorem exists_leads_map {τ : Type*} {next' : τ → Option (τ × β)} {f : σ → τ}
    (corr : ∀ s, next' (f s) = (next s).map (Prod.map f id)) (P : τ → Prop) (s : σ) :
    (∃ t, Relation.ReflTransGen (Leads next) s t ∧ P (f t)) ↔
      ∃ t, Relation.ReflTransGen (Leads next') (f s) t ∧ P t := by
  constructor
  · rintro ⟨t, hpath, ht⟩
    have hlift : Relation.ReflTransGen (Leads next') (f s) (f t) := by
      refine Relation.ReflTransGen.lift f ?_ s t hpath
      rintro u v ⟨b, hnext⟩
      exact ⟨b, by rw [corr, hnext]; rfl⟩
    exact ⟨f t, hlift, ht⟩
  · rintro ⟨t', hpath, ht'⟩
    obtain ⟨t, ht, rfl⟩ : ∃ t, Relation.ReflTransGen (Leads next) s t ∧ f t = t' := by
      clear ht'
      induction hpath with
      | refl => exact ⟨s, .refl, rfl⟩
      | tail _ leads ih =>
          obtain ⟨t, ht, rfl⟩ := ih
          obtain ⟨b, hnext⟩ := leads
          rw [corr] at hnext
          obtain ⟨⟨u, b'⟩, hu, heq⟩ := Option.map_eq_some_iff.mp hnext
          cases heq
          exact ⟨u, ht.tail ⟨b', hu⟩, rfl⟩
    exact ⟨t, ht, ht'⟩

end Kulua.Foundation.Run
