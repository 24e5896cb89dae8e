import Kulua.Display.Registry

/-! While no id is handed out twice (for the first `2 ^ 32` calls of `createDisplay` at least),
an id stands for one entry, one encoder and one virtual display. -/

namespace Kulua.Display
open Foundation

namespace System

/-- The next id was not handed out before. -/
def Fresh (s : System) (a : Action) : Prop :=
  a = .create → ∀ j < s.next, (s.entries j).id ≠ s.nextId

instance (s : System) (a : Action) : Decidable (s.Fresh a) := by
  unfold Fresh
  infer_instance

/-- The entry that a step takes out of the registry. -/
def removedBy (s : System) : Action → Option Nat
  | .take =>
    match s.lock with
    | some ⟨id :: _, none, _⟩ => s.registry id
    | _ => none
  | _ => none

theorem destroyed_step (s : System) (a : Action) (j : Nat) :
    (s.step a).destroyed j = true ↔ s.removedBy a = some j ∨ s.destroyed j = true := by
  cases a with
  | take =>
    rcases hlock : s.lock with _ | ⟨_ | ⟨id, ids⟩, _ | i, call⟩ <;>
      simp only [step, removedBy, hlock, reduceCtorEq, false_or]
    have hremove : ∀ i, (s.remove id i).destroyed j = true ↔ i = j ∨ s.destroyed j = true := by
      intro i
      by_cases hij : j = i
      · simp [remove, hij]
      · simp [remove, hij, Ne.symm hij]
    have hunlock : ∀ t : System, (t.unlock call).destroyed = t.destroyed := by
      intro t
      cases call <;> rfl
    unfold System.take
    split
    · simp_all [setLock]
    · rename_i i hi
      split
      · simp [hunlock, hremove, hi]
      · rw [setLock, stop, setEncoder]
        simp [hremove, hi]
  | _ =>
    simp only [step, removedBy, reduceCtorEq, false_or, attachEncoder, attachVirtualDisplay,
      finish, release, unlock, resizeDisplay]
    repeat' split
    all_goals rfl

/-- The moves that remove an entry. -/
theorem removedBy_eq (s : System) (a : Action) :
    s.removedBy a =
      match s.moveOf a with
      | some (.take id) | some (.drop id) => s.registry id
      | _ => none := by
  cases a with
  | take =>
    rcases hlock : s.lock with _ | ⟨_ | ⟨id, ids⟩, _ | i, call⟩ <;> simp [removedBy, moveOf, hlock]
    cases hj : s.registry id with
    | none => rfl
    | some j => cases he : (s.entries j).encoder <;> simp [hj, he]
  | create =>
    simp only [removedBy, moveOf]
    split <;> simp_all
  | finish joined =>
    rcases hlock : s.lock with _ | ⟨ids, _ | j, call⟩ <;> simp only [removedBy, moveOf, hlock]
    split <;> simp_all
  | attachVirtualDisplay k =>
    simp only [removedBy, moveOf]
    split <;> simp_all
  | _ => rfl

end System

/-- An id stands for one entry, in the registry unless it was destroyed; and a virtual display
that was attached before is that of its entry. -/
structure Ids (c : Custody U32 Nat Nat) (destroyed : Nat → Bool) : Prop where
  distinct : ∀ i j, c.opened i → c.opened j → c.key i = c.key j → i = j
  live : ∀ j, c.opened j → (c.table (c.key j) = some j ↔ destroyed j = false)
  unborn : ∀ j, ¬c.opened j → destroyed j = false
  own : ∀ k, c.given k → destroyed k = false → c.holds k = some k

namespace Ids

variable {c : Custody U32 Nat Nat} {destroyed : Nat → Bool}

theorem create (h : Ids c destroyed) {id : U32} {i : Nat} (hi : ¬c.opened i)
    (fresh : ∀ j, c.opened j → c.key j ≠ id) (hgiven : ∀ k, c.given k → c.opened k) :
    Ids (c.move (.create id i)) destroyed where
  distinct j j' hj hj' hkey := by
    simp only [Custody.move, Function.update_apply] at hj hj' hkey
    split_ifs at hkey with hji hji' hji'
    · rw [hji, hji']
    · exact absurd hkey.symm (fresh j' (hj'.resolve_left hji'))
    · exact absurd hkey (fresh j (hj.resolve_left hji))
    · exact h.distinct j j' (hj.resolve_left hji) (hj'.resolve_left hji') hkey
  live j hj := by
    by_cases hji : j = i
    · subst hji
      simp [Custody.move, h.unborn j hi]
    · have hopen := hj.resolve_left hji
      simp [Custody.move, hji, fresh j hopen, h.live j hopen]
  unborn j hj := h.unborn j fun hopen => hj (.inr hopen)
  own k hk hlive := by
    have hki : k ≠ i := fun hki => hi (hki ▸ hgiven k hk)
    simpa [Custody.move, hki] using h.own k hk hlive

/-- A resource goes to the entry of its own number, or is lost. -/
theorem put (h : Ids c destroyed) (inv : c.Inv) {id : U32} {k : Nat} {o : Option Nat}
    (hopen : c.opened k) (hkey : c.key k = id) (hk : ¬c.given k) (ho : ∀ v, o = some v → v = k) :
    Ids (c.move (.put id o)) destroyed where
  distinct := h.distinct
  live := h.live
  unborn := h.unborn
  own v hv hlive := by
    have htable : c.table id = some v → v = k := by
      intro htable
      obtain ⟨hv', hkey'⟩ := inv.keyed id v htable
      exact h.distinct v k hv' hopen (hkey'.trans hkey.symm)
    obtain rfl | hv := hv
    · obtain rfl := ho v rfl
      have := (h.live v hopen).mpr hlive
      simp [Custody.move, ← hkey, this]
    · have hne : c.table id ≠ some v := fun ht => hk (htable ht ▸ hv)
      simpa [Custody.move, hne] using h.own v hv hlive

theorem drop (h : Ids c destroyed) (inv : c.Inv) {id : U32} {destroyed' : Nat → Bool}
    (hmark : ∀ i, destroyed' i = true ↔ c.table id = some i ∨ destroyed i = true) :
    Ids (c.move (.drop id)) destroyed' where
  distinct := h.distinct
  live i hi := by
    have hmark' : destroyed' i = false ↔ c.table id ≠ some i ∧ destroyed i = false := by
      rw [← Bool.not_eq_true, hmark, not_or, Bool.not_eq_true]
    rw [hmark', ← h.live i hi]
    by_cases hkey : c.key i = id
    · simp [Custody.move, hkey]
    · have hne : c.table id ≠ some i := fun ht => hkey (inv.keyed id i ht).2
      simp [Custody.move, hkey, hne]
  unborn i hi := by
    rw [← Bool.not_eq_true, hmark, h.unborn i hi]
    rintro (ht | hfalse)
    · exact hi (inv.keyed id i ht).1
    · cases hfalse
  own k hk hlive := by
    rw [← Bool.not_eq_true, hmark, not_or, Bool.not_eq_true] at hlive
    exact h.own k hk hlive.2

theorem take (h : Ids c destroyed) (inv : c.Inv) {id : U32} {destroyed' : Nat → Bool}
    (hmark : ∀ i, destroyed' i = true ↔ c.table id = some i ∨ destroyed i = true) :
    Ids (c.move (.take id)) destroyed' :=
  have hdrop := h.drop inv hmark
  ⟨hdrop.distinct, hdrop.live, hdrop.unborn, hdrop.own⟩

end Ids

namespace System

variable {s : System}

theorem ids_init : Ids init.custody init.destroyed where
  distinct _ _ h := nomatch h
  live _ h := nomatch h
  unborn _ _ := rfl
  own _ h := nomatch h

theorem ids_step (h : Ids s.custody s.destroyed) (o : s.Ordered) (inv : s.custody.Inv) {a : Action}
    (fresh : s.Fresh a) : Ids (s.step a).custody (s.step a).destroyed := by
  rw [custody_of_prepared o]
  have hmark := s.destroyed_step a
  have hkept : s.removedBy a = none → (s.step a).destroyed = s.destroyed := by
    intro hnone
    funext j
    rw [Bool.eq_iff_iff, hmark, hnone]
    simp
  have hremoved := s.removedBy_eq a
  cases hmove : s.moveOf a with
  | none =>
    rw [hmove] at hremoved
    rw [hkept hremoved]
    exact h
  | some m =>
    rw [hmove] at hremoved
    have hlegal := legal_moveOf hmove
    cases m with
    | create id i =>
      rw [hkept hremoved]
      refine h.create hlegal ?_ fun k hk => o.lt_of_handed hk
      obtain ⟨rfl, hm⟩ | ⟨i', j, -, -, -, hm⟩ | ⟨joined, -, hm⟩ | ⟨k, -, -, hm⟩ := moveOf_cases hmove
      · cases hm
        exact fresh rfl
      · split at hm <;> cases hm
      · cases hm
      · cases hm
    | put id v =>
      obtain ⟨k, hattaching, hkey, hv⟩ := eq_attach_of_moveOf hmove
      rw [hkept hremoved]
      exact h.put inv (o.lt_of_attaching hattaching) hkey
        (by simp [custody, Encoder.handed, hattaching]) hv
    | take id => exact h.take inv fun j => by rw [hmark, hremoved]; rfl
    | drop id => exact h.drop inv fun j => by rw [hmark, hremoved]; rfl
    | release =>
      rw [hkept hremoved]
      exact ⟨h.distinct, h.live, h.unborn, h.own⟩

/-- The id of a call that has begun stays. -/
theorem id_step (o : s.Ordered) (a : Action) {j : Nat} (hj : j < s.next) :
    ((s.step a).entries j).id = (s.entries j).id := by
  have hkey := congrFun (congrArg Custody.key (custody_of_prepared o a)) j
  refine Eq.trans hkey ?_
  cases hmove : s.moveOf a with
  | none => rfl
  | some m =>
    have hlegal := legal_moveOf hmove
    cases m with
    | create id i =>
      have hne : j ≠ i := fun hji => hlegal (hji ▸ hj)
      simp [Custody.move, hne, custody]
    | _ => rfl

theorem next_step (s : System) (a : Action) :
    (s.step a).next = s.next ∧ (s.step a).nextId = s.nextId ∨
      a = .create ∧ s.step a = s.create := by
  cases a with
  | create =>
    simp only [step]
    split
    · exact .inr ⟨trivial, rfl⟩
    · exact .inl ⟨rfl, rfl⟩
  | _ =>
    left
    simp only [step, attachEncoder, attachVirtualDisplay, take, finish, release, unlock,
      resizeDisplay]
    repeat' split
    all_goals exact ⟨rfl, rfl⟩

/-- Ids are handed out in order, modulo `2 ^ 32`. -/
structure Counted (s : System) : Prop where
  ordered : s.Ordered
  next : s.nextId = BitVec.ofNat 32 (s.next + 1)
  id : ∀ j < s.next, (s.entries j).id = BitVec.ofNat 32 (j + 1)

theorem counted_init : init.Counted := ⟨ordered_init, rfl, nofun⟩

theorem Counted.step (h : s.Counted) (a : Action) : (s.step a).Counted := by
  obtain ⟨hnext, hnextId⟩ | ⟨rfl, hcreate⟩ := s.next_step a
  · refine ⟨h.ordered.step a, ?_, fun j hj => ?_⟩
    · rw [hnext, hnextId]
      exact h.next
    · rw [hnext] at hj
      rw [id_step h.ordered a hj]
      exact h.id j hj
  · refine ⟨h.ordered.step .create, ?_, fun j hj => ?_⟩
    · rw [hcreate]
      simp [create, h.next, BitVec.ofNat_add]
    · rw [hcreate] at hj ⊢
      obtain hj | rfl := Nat.lt_succ_iff_lt_or_eq.mp hj
      · simpa [create, hj.ne] using h.id j hj
      · simpa [create] using h.next

theorem Counted.fresh (h : s.Counted) (a : Action) (hfew : s.next < 2 ^ 32) : s.Fresh a := by
  rintro - j hj heq
  rw [h.id j hj, h.next] at heq
  have := congrArg BitVec.toNat heq
  simp only [BitVec.toNat_ofNat] at this
  omega

theorem next_run_le (s : System) (actions : List Action) :
    (Run.run step s actions).next ≤ s.next + actions.count .create := by
  induction actions generalizing s with
  | nil => simp
  | cons a actions ih =>
    refine (ih (s.step a)).trans ?_
    obtain ⟨hnext, -⟩ | ⟨rfl, hcreate⟩ := s.next_step a
    · rw [hnext]
      have := List.count_le_count_cons (a := Action.create) (b := a) (l := actions)
      omega
    · rw [hcreate]
      simp [create]
      omega

/-- For less than `2 ^ 32` calls of `createDisplay`, every id is fresh. -/
theorem fresh_of_count {actions : List Action} (h : actions.count .create < 2 ^ 32) :
    Run.Along step Fresh init actions := by
  have hmono : ∀ s a, s.next ≤ (step s a).next := by
    intro s a
    obtain ⟨hnext, -⟩ | ⟨rfl, hcreate⟩ := s.next_step a
    · exact hnext.ge
    · rw [hcreate]
      exact Nat.le_succ _
  have hend : (Run.run step init actions).next < 2 ^ 32 := by
    have hle : (Run.run step init actions).next ≤ 0 + actions.count .create :=
      next_run_le init actions
    omega
  exact Run.along_of_kept (I := Counted) (fun _ a h _ => h.step a) (fun _ a h hfew => h.fresh a hfew)
    counted_init (Run.along_of_mono hmono hend)

end System
end Kulua.Display
