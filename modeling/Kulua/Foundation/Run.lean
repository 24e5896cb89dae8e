import Mathlib.Tactic

/-! Finite runs of a deterministic step function, and loops that repeat a
partial step until it fails. Nothing here mentions a particular program: a
system supplies its state, its actions and one step, and obtains from one step
lemma what holds along every run. -/

namespace Kulua.Foundation.Run

variable {σ α β : Type*}

def run (step : σ → α → σ) (s : σ) (actions : List α) : σ :=
  actions.foldl step s

@[simp] theorem run_nil (step : σ → α → σ) (s : σ) : run step s [] = s := rfl

@[simp] theorem run_cons (step : σ → α → σ) (s : σ) (a : α) (actions : List α) :
    run step s (a :: actions) = run step (step s a) actions := rfl

theorem run_append (step : σ → α → σ) (s : σ) (as bs : List α) :
    run step s (as ++ bs) = run step (run step s as) bs := by
  simp [run, List.foldl_append]

/-- The condition `C` holds of every action in the state it is taken in. -/
def Along (step : σ → α → σ) (C : σ → α → Prop) : σ → List α → Prop
  | _, [] => True
  | s, a :: actions => C s a ∧ Along step C (step s a) actions

@[simp] theorem along_nil (step : σ → α → σ) (C : σ → α → Prop) (s : σ) :
    Along step C s [] := trivial

@[simp] theorem along_cons (step : σ → α → σ) (C : σ → α → Prop) (s : σ) (a : α)
    (actions : List α) :
    Along step C s (a :: actions) ↔ C s a ∧ Along step C (step s a) actions := Iff.rfl

theorem along_append (step : σ → α → σ) (C : σ → α → Prop) (s : σ) (as bs : List α) :
    Along step C s (as ++ bs) ↔ Along step C s as ∧ Along step C (run step s as) bs := by
  induction as generalizing s with
  | nil => simp
  | cons a as ih => simp [ih, and_assoc]

instance decidableAlong (step : σ → α → σ) (C : σ → α → Prop) [∀ s a, Decidable (C s a)] :
    (s : σ) → (actions : List α) → Decidable (Along step C s actions)
  | _, [] => .isTrue trivial
  | s, a :: actions =>
    have := decidableAlong step C (step s a) actions
    inferInstanceAs (Decidable (C s a ∧ _))

theorem along_of_forall {step : σ → α → σ} {C : α → Prop} {actions : List α} (s : σ)
    (h : ∀ a ∈ actions, C a) : Along step (fun _ a => C a) s actions := by
  induction actions generalizing s with
  | nil => trivial
  | cons a actions ih =>
    exact ⟨h a (List.mem_cons_self ..), ih _ fun b hb => h b (List.mem_cons_of_mem _ hb)⟩

/-- A measure that no step lowers stays below its bound all along a run that ends
below it. -/
theorem along_of_mono {step : σ → α → σ} {μ : σ → Nat} {bound : Nat}
    (mono : ∀ s a, μ s ≤ μ (step s a)) {s : σ} {actions : List α}
    (h : μ (run step s actions) < bound) : Along step (fun s _ => μ s < bound) s actions := by
  have mono_run : ∀ s actions, μ s ≤ μ (run step s actions) := by
    intro s actions
    induction actions generalizing s with
    | nil => exact le_rfl
    | cons a actions ih => exact (mono s a).trans (ih _)
  induction actions generalizing s with
  | nil => trivial
  | cons a actions ih => exact ⟨(mono_run s (a :: actions)).trans_lt h, ih h⟩

theorem along_and {step : σ → α → σ} {C D : σ → α → Prop} {s : σ} {actions : List α}
    (hC : Along step C s actions) (hD : Along step D s actions) :
    Along step (fun s a => C s a ∧ D s a) s actions := by
  induction actions generalizing s with
  | nil => trivial
  | cons a actions ih => exact ⟨⟨hC.1, hD.1⟩, ih hC.2 hD.2⟩

/-- The invariant rule: what one step preserves under `C`, a run along `C` preserves. -/
theorem invariant {step : σ → α → σ} {C : σ → α → Prop} {I : σ → Prop}
    (preserve : ∀ s a, I s → C s a → I (step s a)) {s : σ} {actions : List α}
    (start : I s) (along : Along step C s actions) : I (run step s actions) := by
  induction actions generalizing s with
  | nil => exact start
  | cons a actions ih => exact ih (preserve s a start along.1) along.2

/-- A condition holds along every run whose steps meet another one that keeps an invariant
and, under it, ensures the first. -/
theorem along_of_kept {step : σ → α → σ} {C D : σ → α → Prop} {I : σ → Prop}
    (preserve : ∀ s a, I s → D s a → I (step s a)) (ensure : ∀ s a, I s → D s a → C s a) {s : σ}
    {actions : List α} (start : I s) (along : Along step D s actions) :
    Along step C s actions := by
  induction actions generalizing s with
  | nil => trivial
  | cons a actions ih =>
    exact ⟨ensure s a start along.1, ih (preserve s a start along.1) along.2⟩

/-- Two conditions hold along the same runs if they agree wherever an invariant holds
that steps under the second one preserve. -/
theorem along_iff_of_kept {step : σ → α → σ} {C D : σ → α → Prop} {I : σ → Prop}
    (preserve : ∀ s a, I s → D s a → I (step s a)) (agree : ∀ s a, I s → (C s a ↔ D s a)) {s : σ}
    (start : I s) (actions : List α) : Along step C s actions ↔ Along step D s actions := by
  induction actions generalizing s with
  | nil => exact Iff.rfl
  | cons a actions ih =>
    rw [along_cons, along_cons, agree s a start]
    exact and_congr_right fun h => ih (preserve s a start h)

/-- Under an invariant, two conditions that agree hold along the same runs. -/
theorem along_iff {step : σ → α → σ} {C D : σ → α → Prop} {I : σ → Prop}
    (preserve : ∀ s a, I s → I (step s a)) (agree : ∀ s a, I s → (C s a ↔ D s a)) {s : σ}
    (start : I s) (actions : List α) : Along step C s actions ↔ Along step D s actions :=
  along_iff_of_kept (fun s a hs _ => preserve s a hs) agree start actions

/-- Among the runs that meet a condition, two others hold along the same ones if they agree
wherever an invariant holds that steps under the first preserve. -/
theorem along_iff_of_along {step : σ → α → σ} {C D E : σ → α → Prop} {I : σ → Prop}
    (preserve : ∀ s a, I s → E s a → I (step s a))
    (agree : ∀ s a, I s → E s a → (C s a ↔ D s a)) {s : σ} {actions : List α} (start : I s)
    (along : Along step E s actions) : Along step C s actions ↔ Along step D s actions := by
  induction actions generalizing s with
  | nil => exact Iff.rfl
  | cons a actions ih =>
    rw [along_cons, along_cons, agree s a start along.1]
    exact and_congr_right fun _ => ih (preserve s a start along.1) along.2

/-- The invariant rule for steps that need no condition. -/
theorem invariant_all {step : σ → α → σ} {I : σ → Prop}
    (preserve : ∀ s a, I s → I (step s a)) {s : σ} (start : I s) (actions : List α) :
    I (run step s actions) :=
  invariant (C := fun _ _ => True) (fun s a hs _ => preserve s a hs) start
    (along_of_forall (C := fun _ => True) s fun _ _ => trivial)

/-- The simulation rule: where each step is matched by some steps of another system, a run is. -/
theorem simulate {τ γ : Type*} {step : σ → α → σ} {step' : τ → γ → τ} {C : σ → α → Prop}
    {R : σ → τ → Prop}
    (corr : ∀ s t a, R s t → C s a → ∃ bs, R (step s a) (run step' t bs)) {s : σ} {t : τ}
    {actions : List α} (start : R s t) (along : Along step C s actions) :
    ∃ bs, R (run step s actions) (run step' t bs) := by
  induction actions generalizing s t with
  | nil => exact ⟨[], start⟩
  | cons a actions ih =>
    obtain ⟨bs, hbs⟩ := corr s t a start along.1
    obtain ⟨cs, hcs⟩ := ih hbs along.2
    refine ⟨bs ++ cs, ?_⟩
    rw [run_append]
    exact hcs

/-- Two systems that take corresponding steps stay related. -/
theorem related {τ γ : Type*} {step : σ → α → σ} {step' : τ → γ → τ} {f : α → γ}
    {C : σ → α → Prop} {R : σ → τ → Prop}
    (corr : ∀ s t a, R s t → C s a → R (step s a) (step' t (f a))) {s : σ} {t : τ}
    {actions : List α} (start : R s t) (along : Along step C s actions) :
    R (run step s actions) (run step' t (actions.map f)) := by
  induction actions generalizing s t with
  | nil => exact start
  | cons a actions ih => exact ih (corr s t a start along.1) along.2

/-- Repeat `next` until it fails, at most `fuel` times, and collect what it yields. -/
def drain (next : σ → Option (σ × β)) : Nat → σ → σ × List β
  | 0, s => (s, [])
  | fuel + 1, s =>
    match next s with
    | none => (s, [])
    | some (s', b) => ((drain next fuel s').1, b :: (drain next fuel s').2)

theorem drain_none {next : σ → Option (σ × β)} {s : σ} (h : next s = none) (fuel : Nat) :
    drain next fuel s = (s, []) := by
  cases fuel with
  | zero => rfl
  | succ fuel => simp [drain, h]

theorem drain_some {next : σ → Option (σ × β)} {s s' : σ} {b : β}
    (h : next s = some (s', b)) (fuel : Nat) :
    drain next (fuel + 1) s = ((drain next fuel s').1, b :: (drain next fuel s').2) := by
  simp [drain, h]

/-- Two loops whose steps keep a relation, and yield the same under it, stay related and
yield the same outputs. -/
theorem drain_related {τ : Type*} {next : σ → Option (σ × β)} {next' : τ → Option (τ × β)}
    {R : σ → τ → Prop}
    (corr : ∀ s t, R s t → Option.Rel (fun x y => R x.1 y.1 ∧ x.2 = y.2) (next s) (next' t))
    (fuel : Nat) {s : σ} {t : τ} (start : R s t) :
    R (drain next fuel s).1 (drain next' fuel t).1 ∧
      (drain next fuel s).2 = (drain next' fuel t).2 := by
  induction fuel generalizing s t with
  | zero => exact ⟨start, rfl⟩
  | succ fuel ih =>
      have hcorr := corr s t start
      rcases hs : next s with _ | ⟨s', b⟩ <;> rcases ht : next' t with _ | ⟨t', b'⟩ <;>
        rw [hs, ht] at hcorr
      · rw [drain_none hs, drain_none ht]
        exact ⟨start, rfl⟩
      · cases hcorr
      · cases hcorr
      · obtain ⟨hR, rfl⟩ := Option.rel_some_some.mp hcorr
        rw [drain_some hs, drain_some ht]
        exact ⟨(ih hR).1, congrArg _ (ih hR).2⟩

/-- Two loops whose steps correspond under `f` yield the same outputs. -/
theorem drain_map {τ : Type*} {next : σ → Option (σ × β)} {next' : τ → Option (τ × β)}
    {f : σ → τ} (corr : ∀ s, next' (f s) = (next s).map (Prod.map f id)) (fuel : Nat) (s : σ) :
    drain next' fuel (f s) = Prod.map f id (drain next fuel s) := by
  induction fuel generalizing s with
  | zero => rfl
  | succ fuel ih =>
      rcases h : next s with _ | ⟨s', b⟩
      · have h' : next' (f s) = none := by simp [corr, h]
        rw [drain_none h, drain_none h']
        rfl
      · have h' : next' (f s) = some (f s', b) := by simp [corr, h]
        rw [drain_some h, drain_some h', ih]
        rfl

/-- A measure that every step decreases bounds the number of iterations: with that
much fuel the loop has ended because `next` failed, not because the fuel ran out. -/
theorem drain_exhausted {next : σ → Option (σ × β)} (μ : σ → Nat)
    (decrease : ∀ s s' b, next s = some (s', b) → μ s' < μ s) (fuel : Nat) (s : σ)
    (enough : μ s ≤ fuel) : next (drain next fuel s).1 = none := by
  induction fuel generalizing s with
  | zero =>
    rcases h : next s with _ | ⟨s', b⟩
    · exact h
    · have := decrease s s' b h
      omega
  | succ fuel ih =>
    rcases h : next s with _ | ⟨s', b⟩
    · simpa only [drain_none h] using h
    · have := decrease s s' b h
      rw [drain_some h]
      exact ih s' (by omega)

/-- What one iteration preserves, the loop preserves. -/
theorem drain_invariant {next : σ → Option (σ × β)} {I : σ → Prop}
    (preserve : ∀ s s' b, I s → next s = some (s', b) → I s') (fuel : Nat) {s : σ} (start : I s) :
    I (drain next fuel s).1 := by
  induction fuel generalizing s with
  | zero => exact start
  | succ fuel ih =>
      rcases h : next s with _ | ⟨s', b⟩
      · rwa [drain_none h]
      · rw [drain_some h]
        exact ih (preserve s s' b start h)

/-- A loop whose `k`-th step yields entry `k` of `source` yields a contiguous block
of `source`. -/
theorem drain_source {next : σ → Option (σ × β)} {I : Nat → σ → Prop} (source : List β)
    (preserve : ∀ k s s' b, I k s → next s = some (s', b) → source[k]? = some b ∧ I (k + 1) s')
    (fuel k : Nat) (s : σ) (start : I k s) :
    ∃ n, I (k + n) (drain next fuel s).1 ∧
      source.take k ++ (drain next fuel s).2 = source.take (k + n) := by
  induction fuel generalizing k s with
  | zero => exact ⟨0, start, by simp [drain]⟩
  | succ fuel ih =>
      rcases h : next s with _ | ⟨s', b⟩
      · exact ⟨0, by simpa [drain_none h] using start, by simp [drain_none h]⟩
      · obtain ⟨hb, hI⟩ := preserve k s s' b start h
        obtain ⟨n, hn, hout⟩ := ih (k + 1) s' hI
        rw [drain_some h]
        refine ⟨n + 1, by simpa [Nat.add_assoc, Nat.add_comm 1] using hn, ?_⟩
        rw [show k + (n + 1) = k + 1 + n by omega, ← hout, List.take_add_one, hb]
        simp

end Kulua.Foundation.Run
