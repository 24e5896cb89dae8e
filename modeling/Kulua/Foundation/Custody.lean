import Mathlib.Tactic

/-! Resources in the custody of holders. A table names one live holder for a key; a holder has
room for one resource; a holder taken out of the table is kept in hand until its resource is
released. A resource leaks if it was put somewhere and no live holder, and not the one in hand,
has it before it was released. -/

namespace Kulua.Foundation

@[ext] structure Custody (κ ι ρ : Type*) where
  table : κ → Option ι
  key : ι → κ
  opened : ι → Prop
  holds : ι → Option ρ
  hand : Option ι
  given : ρ → Prop
  released : ρ → Nat

namespace Custody

variable {κ ι ρ : Type*}

inductive Move (κ ι ρ : Type*) where
  /-- A new holder for a key, in the place of any other. -/
  | create (k : κ) (i : ι)
  /-- A resource, or none, for the holder under the key; lost if there is no such holder. -/
  | put (k : κ) (o : Option ρ)
  /-- The holder under the key is removed and taken in hand. -/
  | take (k : κ)
  /-- The holder under the key is removed, and that is all. -/
  | drop (k : κ)
  | release

section
variable [DecidableEq κ] [DecidableEq ι] [DecidableEq ρ]

def move (c : Custody κ ι ρ) : Move κ ι ρ → Custody κ ι ρ
  | .create k i =>
    { c with
      table := Function.update c.table k (some i)
      key := Function.update c.key i k
      opened := fun j => j = i ∨ c.opened j
      holds := Function.update c.holds i none }
  | .put k o =>
    { c with
      given := fun r => o = some r ∨ c.given r
      holds := fun i => if c.table k = some i then o else c.holds i }
  | .take k => { c with table := Function.update c.table k none, hand := c.table k }
  | .drop k => { c with table := Function.update c.table k none }
  | .release =>
    { c with
      hand := none
      released := fun r =>
        if c.hand.bind c.holds = some r then c.released r + 1 else c.released r }

end

/-- Holders are created once, a resource is put once, and one holder is in hand at a time. -/
def Legal (c : Custody κ ι ρ) : Move κ ι ρ → Prop
  | .create _ i => ¬c.opened i
  | .put _ o => ∀ r, o = some r → ¬c.given r
  | .take _ => c.hand = none
  | .drop _ | .release => True

structure Inv (c : Custody κ ι ρ) : Prop where
  keyed : ∀ k i, c.table k = some i → c.opened i ∧ c.key i = k
  hand : ∀ i, c.hand = some i → c.opened i ∧ c.table (c.key i) ≠ some i
  unopened : ∀ i, ¬c.opened i → c.holds i = none
  given : ∀ i r, c.holds i = some r → c.given r
  unique : ∀ i j r, c.holds i = some r → c.holds j = some r → i = j
  fresh : ∀ r, ¬c.given r → c.released r = 0

/-- The holder is live, or in hand. -/
def Active (c : Custody κ ι ρ) (i : ι) : Prop := c.table (c.key i) = some i ∨ c.hand = some i

def Kept (c : Custody κ ι ρ) (r : ρ) : Prop := ∃ i, c.holds i = some r ∧ c.Active i

/-- What was put is kept, or was released exactly once. -/
def NoLeak (c : Custody κ ι ρ) : Prop :=
  ∀ r, c.given r → c.released r = 0 ∧ c.Kept r ∨ c.released r = 1 ∧ ¬c.Kept r

/-- The move gives up no resource. -/
def Careful (c : Custody κ ι ρ) : Move κ ι ρ → Prop
  | .create k _ | .drop k => ∀ j, c.table k = some j → c.holds j = none
  | .put k o => (c.table k = none → o = none) ∧ ∀ j, c.table k = some j → c.holds j = none
  | .take _ | .release => True

section
variable {c c' : Custody κ ι ρ}

theorem Inv.hand_ne (inv : c.Inv) {k : κ} {j : ι} (hlive : c.table k = some j) :
    c.hand ≠ some j := by
  intro hhand
  obtain ⟨-, hkey⟩ := inv.keyed k j hlive
  exact (inv.hand j hhand).2 (hkey ▸ hlive)

theorem Inv.given_of_kept (inv : c.Inv) {r : ρ} (h : c.Kept r) : c.given r := by
  obtain ⟨i, hi, -⟩ := h
  exact inv.given i r hi

/-- Who has a resource is the only one to have it. -/
theorem Inv.kept_iff (inv : c.Inv) {i : ι} {r : ρ} (hi : c.holds i = some r) :
    c.Kept r ↔ c.Active i := by
  constructor
  · rintro ⟨j, hj, hact⟩
    rwa [inv.unique i j r hi hj]
  · exact fun hact => ⟨i, hi, hact⟩

theorem NoLeak.released_of_kept (h : c.NoLeak) (inv : c.Inv) {r : ρ} (hr : c.Kept r) :
    c.released r = 0 := by
  obtain ⟨hzero, -⟩ | ⟨-, hnot⟩ := h r (inv.given_of_kept hr)
  · exact hzero
  · exact absurd hr hnot

/-- What was put and is kept no more was released exactly once. -/
theorem NoLeak.released_once (h : c.NoLeak) {r : ρ} (hgiven : c.given r) (hnot : ¬c.Kept r) :
    c.released r = 1 := by
  obtain ⟨-, hkept⟩ | ⟨hone, -⟩ := h r hgiven
  · exact absurd hkept hnot
  · exact hone

/-- A move that releases nothing leaks nothing if and only if all that was kept before it or is
put by it is kept after it. -/
theorem noLeak_iff_of_kept (inv : c.Inv) (h : c.NoLeak) (c' : Custody κ ι ρ) (new : ρ → Prop)
    (hnew : ∀ r, new r → ¬c.given r) (hgiven : ∀ r, c'.given r ↔ new r ∨ c.given r)
    (hreleased : c'.released = c.released) (hkept : ∀ r, c'.Kept r → new r ∨ c.Kept r) :
    c'.NoLeak ↔ ∀ r, new r ∨ c.Kept r → c'.Kept r := by
  constructor
  · intro h' r hr
    have hzero : c.released r = 0 := by
      rcases hr with hr | hr
      · exact inv.fresh r (hnew r hr)
      · exact h.released_of_kept inv hr
    have hgiven' : c'.given r := (hgiven r).mpr (hr.imp_right inv.given_of_kept)
    by_contra hnot
    have := h'.released_once hgiven' hnot
    rw [hreleased] at this
    omega
  · intro hall r hr
    rw [hreleased]
    rcases (hgiven r).mp hr with hr | hr
    · exact .inl ⟨inv.fresh r (hnew r hr), hall r (.inl hr)⟩
    · obtain ⟨hzero, hk⟩ | ⟨hone, hnot⟩ := h r hr
      · exact .inl ⟨hzero, hall r (.inr hk)⟩
      · refine .inr ⟨hone, fun hk => ?_⟩
        rcases hkept r hk with hk | hk
        · exact hnew r hk hr
        · exact hnot hk

/-- `c'` comes from `c` by the removal of the holder under a key: the others stay, and the one
in hand. -/
def Removed (c c' : Custody κ ι ρ) (k : κ) : Prop :=
  ∀ j r, (c'.holds j = some r ∧ c'.Active j) ↔
    c.holds j = some r ∧ (c.key j ≠ k ∧ c.table (c.key j) = some j ∨ c.hand = some j)

theorem Removed.kept {k : κ} (h : Removed c c' k) {r : ρ} (hr : c'.Kept r) : c.Kept r := by
  obtain ⟨j, hj⟩ := hr
  obtain ⟨hold, hact⟩ := (h j r).mp hj
  exact ⟨j, hold, hact.imp_left And.right⟩

theorem Removed.kept_iff {k : κ} (h : Removed c c' k) (inv : c.Inv) :
    (∀ r, c.Kept r → c'.Kept r) ↔ ∀ j, c.table k = some j → c.holds j = none := by
  constructor
  · intro hall j hlive
    by_contra hholds
    obtain ⟨r, hr⟩ := Option.ne_none_iff_exists'.mp hholds
    obtain ⟨-, hkey⟩ := inv.keyed k j hlive
    obtain ⟨j', hj'⟩ := hall r ⟨j, hr, .inl (hkey.symm ▸ hlive)⟩
    obtain ⟨hold, hact⟩ := (h j' r).mp hj'
    obtain rfl := inv.unique j j' r hr hold
    obtain ⟨hne, -⟩ | hhand := hact
    · exact hne hkey
    · exact inv.hand_ne hlive hhand
  · rintro hcareful r ⟨j, hj, hact⟩
    refine ⟨j, (h j r).mpr ⟨hj, hact.imp_left fun hlive => ⟨fun hk => ?_, hlive⟩⟩⟩
    have := hcareful j (hk ▸ hlive)
    simp [hj] at this

theorem Removed.noLeak_iff {k : κ} (hrem : Removed c c' k) (inv : c.Inv) (h : c.NoLeak)
    (hgiven : c'.given = c.given) (hreleased : c'.released = c.released) :
    c'.NoLeak ↔ ∀ j, c.table k = some j → c.holds j = none := by
  rw [noLeak_iff_of_kept inv h c' (fun _ => False) (fun _ => False.elim)
    (fun r => by simp [hgiven]) hreleased (fun r hr => .inr (hrem.kept hr))]
  simpa using hrem.kept_iff inv

end

section
variable [DecidableEq κ] [DecidableEq ι] [DecidableEq ρ] {c : Custody κ ι ρ}

theorem Inv.create (inv : c.Inv) {k : κ} {i : ι} (hi : ¬c.opened i) :
    (c.move (.create k i)).Inv where
  keyed k' j h := by
    simp only [move, Function.update_apply] at h ⊢
    split_ifs at h with hk
    · obtain rfl : i = j := Option.some.inj h
      simp [hk]
    · obtain ⟨hj, hkey⟩ := inv.keyed k' j h
      have hne : j ≠ i := fun hji => hi (hji ▸ hj)
      simp [hj, hkey, hne]
  hand j h := by
    obtain ⟨hj, hout⟩ := inv.hand j h
    have hne : j ≠ i := fun hji => hi (hji ▸ hj)
    simp only [move, Function.update_apply, hne, if_false]
    refine ⟨.inr hj, ?_⟩
    split_ifs
    · simpa using hne.symm
    · exact hout
  unopened j h := by
    simp only [move, Function.update_apply, not_or] at h ⊢
    rw [if_neg h.1]
    exact inv.unopened j h.2
  given j r h := by
    simp only [move, Function.update_apply] at h ⊢
    split_ifs at h
    exact inv.given j r h
  unique j j' r h h' := by
    simp only [move, Function.update_apply] at h h'
    split_ifs at h h'
    exact inv.unique j j' r h h'
  fresh := inv.fresh

theorem Inv.put (inv : c.Inv) {k : κ} {o : Option ρ} (ho : ∀ r, o = some r → ¬c.given r) :
    (c.move (.put k o)).Inv where
  keyed := inv.keyed
  hand := inv.hand
  unopened j h := by
    have hnot : c.table k ≠ some j := fun hk => h (inv.keyed k j hk).1
    simp only [move, hnot, if_false]
    exact inv.unopened j h
  given j r h := by
    simp only [move] at h ⊢
    split_ifs at h
    · exact .inl h
    · exact .inr (inv.given j r h)
  unique j j' r h h' := by
    simp only [move] at h h'
    split_ifs at h h' with hj hj' hj'
    · exact Option.some.inj (hj.symm.trans hj')
    · exact absurd (inv.given j' r h') (ho r h)
    · exact absurd (inv.given j r h) (ho r h')
    · exact inv.unique j j' r h h'
  fresh r h := inv.fresh r fun hr => h (.inr hr)

theorem Inv.take (inv : c.Inv) (k : κ) : (c.move (.take k)).Inv where
  keyed k' j h := by
    simp only [move, Function.update_apply] at h
    split_ifs at h
    exact inv.keyed k' j h
  hand j h := by
    obtain ⟨hj, hkey⟩ := inv.keyed k j h
    simp [move, hj, hkey]
  unopened := inv.unopened
  given := inv.given
  unique := inv.unique
  fresh := inv.fresh

theorem Inv.drop (inv : c.Inv) (k : κ) : (c.move (.drop k)).Inv where
  keyed k' j h := by
    simp only [move, Function.update_apply] at h
    split_ifs at h
    exact inv.keyed k' j h
  hand j h := by
    obtain ⟨hj, hout⟩ := inv.hand j h
    refine ⟨hj, ?_⟩
    simp only [move, Function.update_apply]
    split_ifs
    · exact nofun
    · exact hout
  unopened := inv.unopened
  given := inv.given
  unique := inv.unique
  fresh := inv.fresh

theorem Inv.release (inv : c.Inv) : (c.move .release).Inv where
  keyed := inv.keyed
  hand := nofun
  unopened := inv.unopened
  given := inv.given
  unique := inv.unique
  fresh r h := by
    have hnot : c.hand.bind c.holds ≠ some r := by
      intro hr
      obtain ⟨i, -, hi⟩ := Option.bind_eq_some_iff.mp hr
      exact h (inv.given i r hi)
    simp only [move, hnot, if_false]
    exact inv.fresh r h

theorem Inv.move (inv : c.Inv) {m : Move κ ι ρ} (legal : c.Legal m) : (c.move m).Inv := by
  cases m with
  | create k i => exact inv.create legal
  | put k o => exact inv.put legal
  | take k => exact inv.take k
  | drop k => exact inv.drop k
  | release => exact inv.release

theorem removed_drop (c : Custody κ ι ρ) (k : κ) : Removed c (c.move (.drop k)) k := by
  intro j r
  by_cases hk : c.key j = k <;> simp [Active, move, hk]

theorem removed_create (inv : c.Inv) {i : ι} (hi : ¬c.opened i) (k : κ) :
    Removed c (c.move (.create k i)) k := by
  intro j r
  by_cases hij : j = i
  · subst hij
    simp [move, inv.unopened j hi]
  · by_cases hk : c.key j = k <;> simp [Active, move, hk, hij, Ne.symm hij]

theorem noLeak_put_iff (inv : c.Inv) (h : c.NoLeak) {k : κ} {o : Option ρ}
    (ho : ∀ r, o = some r → ¬c.given r) :
    (c.move (.put k o)).NoLeak ↔ c.Careful (.put k o) := by
  have hother : ∀ j r, c.table k ≠ some j →
      ((c.move (.put k o)).holds j = some r ↔ c.holds j = some r) := by
    intro j r hj
    simp [move, hj]
  have hunder : ∀ j, c.table k = some j → (c.move (.put k o)).holds j = o := by
    intro j hj
    simp [move, hj]
  rw [noLeak_iff_of_kept inv h (c.move (.put k o)) (fun r => o = some r) ho (fun r => Iff.rfl) rfl]
  swap
  · rintro r ⟨j, hj, hact⟩
    by_cases hk : c.table k = some j
    · exact .inl ((hunder j hk).symm.trans hj)
    · exact .inr ⟨j, (hother j r hk).mp hj, hact⟩
  constructor
  · intro hall
    constructor
    · intro hnone
      by_contra hsome
      obtain ⟨r, hr⟩ := Option.ne_none_iff_exists'.mp hsome
      obtain ⟨j, hj, -⟩ := hall r (.inl hr)
      have hj' := (hother j r (by simp [hnone])).mp hj
      exact ho r hr (inv.given j r hj')
    · intro j hlive
      by_contra hholds
      obtain ⟨r, hr⟩ := Option.ne_none_iff_exists'.mp hholds
      obtain ⟨-, hkey⟩ := inv.keyed k j hlive
      -- the holder under the key has given up `r`, and no other had it
      obtain ⟨j', hj', -⟩ := hall r (.inr ⟨j, hr, .inl (hkey.symm ▸ hlive)⟩)
      by_cases hk : c.table k = some j'
      · exact ho r ((hunder j' hk).symm.trans hj') (inv.given j r hr)
      · obtain rfl := inv.unique j j' r hr ((hother j' r hk).mp hj')
        exact hk hlive
  · rintro ⟨hsome, hempty⟩ r (hr | ⟨j, hj, hact⟩)
    · cases hlive : c.table k with
      | none => simp [hsome hlive] at hr
      | some j =>
        obtain ⟨-, hkey⟩ := inv.keyed k j hlive
        exact ⟨j, (hunder j hlive).trans hr, .inl (by simpa [move, hkey] using hlive)⟩
    · have hk : c.table k ≠ some j := by
        intro hk
        have := hempty j hk
        simp [hj] at this
      exact ⟨j, (hother j r hk).mpr hj, hact⟩

/-- To take a holder in hand keeps what it has. -/
theorem noLeak_take (inv : c.Inv) (h : c.NoLeak) {k : κ} (hhand : c.hand = none) :
    (c.move (.take k)).NoLeak := by
  have hact : ∀ j, (c.move (.take k)).Active j ↔
      c.key j ≠ k ∧ c.table (c.key j) = some j ∨ c.table k = some j := by
    intro j
    by_cases hk : c.key j = k <;> simp [Active, move, hk]
  rw [noLeak_iff_of_kept inv h (c.move (.take k)) (fun _ => False) (fun _ => False.elim)
    (fun r => by simp [move]) rfl]
  · rintro r (hr | ⟨j, hj, hlive | hin⟩)
    · exact hr.elim
    · refine ⟨j, hj, (hact j).mpr ?_⟩
      by_cases hk : c.key j = k
      · exact .inr (hk ▸ hlive)
      · exact .inl ⟨hk, hlive⟩
    · simp [hhand] at hin
  · rintro r ⟨j, hj, hact'⟩
    refine .inr ⟨j, hj, .inl ?_⟩
    obtain ⟨-, hlive⟩ | hlive := (hact j).mp hact'
    · exact hlive
    · obtain ⟨-, hkey⟩ := inv.keyed k j hlive
      exact hkey.symm ▸ hlive

theorem noLeak_release (inv : c.Inv) (h : c.NoLeak) : (c.move .release).NoLeak := by
  intro r hr
  by_cases hin : c.hand.bind c.holds = some r
  · -- the resource in hand was not released before, and no live holder has it
    obtain ⟨i, hhand, hi⟩ := Option.bind_eq_some_iff.mp hin
    have hzero := h.released_of_kept inv ⟨i, hi, .inr hhand⟩
    refine .inr ⟨by simp [move, hin, hzero], ?_⟩
    rintro ⟨j, hj, hact⟩
    obtain rfl := inv.unique i j r hi hj
    obtain hlive | hhand' := hact
    · exact (inv.hand i hhand).2 hlive
    · simp [move] at hhand'
  · have hkept : (c.move .release).Kept r ↔ c.Kept r := by
      constructor
      · rintro ⟨j, hj, hact⟩
        refine ⟨j, hj, hact.imp_right fun hhand => ?_⟩
        simp [move] at hhand
      · rintro ⟨j, hj, hlive | hhand⟩
        · exact ⟨j, hj, .inl hlive⟩
        · simp [hhand, hj] at hin
    rw [hkept]
    simpa [move, hin] using h r hr

/-- A move leaks nothing if and only if it is careful. -/
theorem noLeak_move_iff (inv : c.Inv) (h : c.NoLeak) {m : Move κ ι ρ} (legal : c.Legal m) :
    (c.move m).NoLeak ↔ c.Careful m := by
  cases m with
  | create k i => exact (removed_create inv legal k).noLeak_iff inv h rfl rfl
  | put k o => exact noLeak_put_iff inv h legal
  | take k => exact iff_of_true (noLeak_take inv h legal) trivial
  | drop k => exact (removed_drop c k).noLeak_iff inv h rfl rfl
  | release => exact iff_of_true (noLeak_release inv h) trivial

end

end Custody
end Kulua.Foundation
