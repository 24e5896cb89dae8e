import Kulua.Display.Ready

/-! When every virtual display is released: exactly where each one is attached while its entry
is in the registry. -/

namespace Kulua.Display
open Foundation

namespace System

/-- `destroy` has returned: the id is out of the registry, no entry of it is being destroyed,
and the encoder thread has ended. -/
def Settled (s : System) (k : Nat) : Prop :=
  s.registry (s.entries k).id = none ∧
    (∀ d j, s.lock = some d → d.current = some j → (s.entries j).id ≠ (s.entries k).id) ∧
    (s.encoders k).phase = .ended

/-- A virtual display that is settled was released exactly once. Before, nothing is out of reach:
what `attachVirtualDisplay` was called with was released once, or never and is with an entry
that is in the registry or in the hands of a destroy. -/
def NoLeak (s : System) : Prop :=
  (∀ k, s.Settled k → (s.encoders k).virtualDisplay = true → s.released k = 1) ∧ s.custody.NoLeak

/-- A virtual display is attached while its entry is in the registry, and has none. And no entry
that has one is replaced by `create`, or removed by a destroy that then throws. -/
def InTime (s : System) : Action → Prop
  | .attachVirtualDisplay k =>
    s.lock = none → (s.encoders k).attaching = true →
      ((s.encoders k).virtualDisplay = true → s.registry (s.entries k).id ≠ none) ∧
        ∀ j, s.registry (s.entries k).id = some j → (s.entries j).virtualDisplay = none
  | .create =>
    s.lock = none → ∀ j, s.registry s.nextId = some j → (s.entries j).virtualDisplay = none
  | .take =>
    match s.lock with
    | some ⟨id :: _, none, _⟩ =>
      ∀ j, s.registry id = some j → (s.entries j).encoder = none →
        (s.entries j).virtualDisplay = none
    | _ => True
  | _ => True

/-- A virtual display is attached to an entry of its id. -/
def Homed (s : System) : Prop :=
  ∀ j v, s.custody.holds j = some v → s.custody.key j = s.custody.key v

variable {s : System}

theorem Homed.step (h : s.Homed) (o : s.Ordered) (inv : s.custody.Inv) (a : Action) :
    (s.step a).Homed := by
  unfold Homed
  rw [custody_of_prepared o]
  cases hmove : s.moveOf a with
  | none => exact h
  | some m =>
    have hlegal := legal_moveOf hmove
    simp only [Option.elim_some]
    intro j v hj
    cases m with
    | create k i =>
      simp only [Custody.move, Function.update_apply] at hj ⊢
      split at hj
      · cases hj
      · have hv : v ≠ i := fun hvi => hlegal (hvi ▸ o.lt_of_handed (inv.given j v hj))
        rw [if_neg ‹_›, if_neg hv]
        exact h j v hj
    | put id o =>
      simp only [Custody.move] at hj ⊢
      split at hj
      · rename_i hlive
        obtain ⟨k, -, hkey, hput⟩ := eq_attach_of_moveOf hmove
        rw [(inv.keyed id j hlive).2, hput v hj, hkey]
      · exact h j v hj
    | take k => exact h j v hj
    | drop k => exact h j v hj
    | release => exact h j v hj

theorem inTime_iff (s : System) (a : Action) :
    s.InTime a ↔ ∀ m, s.moveOf a = some m → s.custody.Careful m := by
  cases a with
  | create =>
    by_cases h : s.lock = none <;> simp [InTime, moveOf, Custody.Careful, custody, h]
  | take =>
    rcases hlock : s.lock with _ | ⟨_ | ⟨id, ids⟩, _ | j, call⟩ <;> simp [InTime, moveOf, hlock]
    cases hj : s.registry id with
    | none => simp
    | some j => cases he : (s.entries j).encoder <;> simp [Custody.Careful, custody, hj, he]
  | finish joined =>
    rcases hlock : s.lock with _ | ⟨ids, _ | j, call⟩ <;>
      simp [InTime, moveOf, Custody.Careful, hlock]
  | attachVirtualDisplay k =>
    by_cases h : s.lock = none ∧ (s.encoders k).attaching = true
    · cases hv : (s.encoders k).virtualDisplay <;>
        simp [InTime, moveOf, Custody.Careful, custody, h, hv]
    · have := not_and.mp h
      simp_all [InTime, moveOf]
  | _ => simp [InTime, moveOf]

/-- What is put and settled is not kept any more. -/
theorem Settled.not_kept {k : Nat} (hset : s.Settled k) (home : s.Homed) :
    ¬s.custody.Kept k := by
  obtain ⟨hout, hhand, -⟩ := hset
  rintro ⟨j, hj, hlive | hin⟩
  · rw [home j k hj] at hlive
    exact absurd hlive (by simp [custody, hout])
  · obtain ⟨d, hd, hcurrent⟩ := Option.bind_eq_some_iff.mp hin
    exact hhand d j hd hcurrent (home j k hj)

theorem noLeak_iff (home : s.Homed) : s.NoLeak ↔ s.custody.NoLeak := by
  constructor
  · exact And.right
  · intro h
    refine ⟨fun k hset hvd => h.released_once ?_ (hset.not_kept home), h⟩
    simp [custody, Encoder.handed, Encoder.attaching, hset.2.2, hvd]

/-- What holds in every state reached without a leak. -/
structure Sound (s : System) : Prop where
  ordered : s.Ordered
  inv : s.custody.Inv
  home : s.Homed
  noLeak : s.custody.NoLeak

theorem noLeak_step_iff (h : s.Sound) (a : Action) : (s.step a).NoLeak ↔ s.InTime a := by
  rw [noLeak_iff (h.home.step h.ordered h.inv a), custody_of_prepared h.ordered, inTime_iff]
  cases hmove : s.moveOf a with
  | none => simpa using h.noLeak
  | some m =>
    simpa using Custody.noLeak_move_iff h.inv h.noLeak (legal_moveOf hmove)

theorem Sound.step (h : s.Sound) {a : Action} (hintime : s.InTime a) : (s.step a).Sound where
  ordered := h.ordered.step a
  inv := h.ordered.inv_step h.inv a
  home := h.home.step h.ordered h.inv a
  noLeak := ((noLeak_step_iff h a).mpr hintime).2

theorem sound_init : init.Sound where
  ordered := ordered_init
  inv := inv_init
  home _ _ h := nomatch h
  noLeak _ h := nomatch h

/-- In every interleaving, no virtual display leaks if and only if each is attached while its
entry is in the registry. -/
theorem no_leak_iff (actions : List Action) :
    Run.Along step (fun s a => (s.step a).NoLeak) init actions ↔ Run.Along step InTime init actions :=
  Run.along_iff_of_kept (I := Sound) (fun _ _ h hintime => h.step hintime)
    (fun _ a h => noLeak_step_iff h a) sound_init actions

theorem unlock_calls (s : System) (call : Option Nat) (k : Nat) :
    (s.unlock call).calls k = s.calls k ∨ (s.unlock call).calls k = .returned false := by
  cases call with
  | none => exact .inl rfl
  | some i =>
    by_cases hki : k = i
    · exact .inr (by simp [unlock, setCall, hki])
    · exact .inl (by simp [unlock, setCall, setLock, hki])

/-- A call goes on to attach its encoder first. -/
theorem created_step (s : System) (a : Action) {k : Nat} (h : s.calls k = .created) :
    (s.step a).calls k = .created ∨ a = .attachEncoder k ∨
      (s.step a).calls k = .returned false := by
  have hset : ∀ (t : System) i phase, t.calls = s.calls → s.calls i ≠ .created →
      (t.setCall i phase).calls k = .created := by
    intro t i phase ht hi
    have hne : k ≠ i := fun hki => hi (hki ▸ h)
    simpa [setCall, hne, ht] using h
  refine step_rule (P := fun t => t.calls k = .created ∨ a = .attachEncoder k ∨
    t.calls k = .returned false) (.inl h) fun t hstep => ?_
  cases hstep with
  | create free => by_cases hk : k = s.next <;> simp [create, hk, h]
  | @attachEncoder i free hcall =>
    by_cases hki : k = i
    · exact .inr (.inl (by rw [hki]))
    · exact .inl (by simp [setCall, hki, h])
  | start ok hcall => exact .inl (hset _ _ _ rfl (by simp [hcall]))
  | await inTime hcall => exact .inl (hset s _ _ rfl (by simp [hcall]))
  | readRunning hcall => exact .inl (hset s _ _ rfl (by simp [hcall]))
  | send hcall => exact .inl (hset s _ _ rfl (by simp [hcall]))
  | destroyFailed free hcall => exact .inl (hset _ _ _ rfl (by simp [hcall]))
  | @take id ids call hlock =>
    unfold System.take
    split
    · exact .inl h
    · rename_i j hj
      split
      · exact ((s.remove id j).unlock_calls call k).imp (·.trans h) .inr
      · exact .inl h
  | unlock hlock => exact (s.unlock_calls _ k).imp (·.trans h) .inr
  | destroy | destroyAll | thread => exact .inl h
  | finish | attachVirtualDisplay | resizeDisplay =>
    left
    simp only [attachVirtualDisplay, finish, release, resizeDisplay]
    repeat' split
    all_goals exact h

theorem attachEncoder_encoder (s : System) (id : U32) (k i : Nat) :
    ((s.attachEncoder id k).entries i).encoder =
      if s.registry id = some i then some k else (s.entries i).encoder := by
  unfold attachEncoder
  split
  · simp [*]
  · rename_i j hj
    by_cases hij : i = j
    · simp [setEntry, hj, hij]
    · simp [setEntry, hj, hij, Ne.symm hij]

theorem encoder_step (a : Action) {k : Nat} (hk : k < s.next)
    (h : (s.entries k).encoder ≠ none) : ((s.step a).entries k).encoder ≠ none := by
  refine step_rule (P := fun t => (t.entries k).encoder ≠ none) h fun t hstep => ?_
  cases hstep with
  | create free => simpa [create, hk.ne] using h
  | attachEncoder free hcall =>
    simp only [setCall, attachEncoder_encoder]
    split
    · simp
    · exact h
  | attachVirtualDisplay free hattaching =>
    unfold attachVirtualDisplay
    split
    · exact h
    · rename_i j hj
      by_cases hkj : k = j
      · simpa [setEncoder, setEntry, hkj] using hkj ▸ h
      · simpa [setEncoder, setEntry, hkj] using h
  | take | finish | unlock | resizeDisplay =>
    simp only [take, finish, release, unlock, resizeDisplay]
    repeat' split
    all_goals exact h
  | _ => exact h

/-- An entry in the registry has its encoder once its call is past `attachEncoder`. -/
def Equipped (s : System) : Prop :=
  ∀ k < s.next, s.calls k = .created ∨ s.destroyed k = true ∨ (s.entries k).encoder ≠ none

theorem Equipped.step (h : s.Equipped) (t : s.Tracked) {a : Action} (fresh : s.Fresh a) :
    (s.step a).Equipped := by
  have t' := t.step fresh
  intro k hk
  by_cases hold : k < s.next
  · obtain hcall | hgone | hencoder := h k hold
    · obtain hcall' | rfl | hret := s.created_step a hcall
      · exact .inl hcall'
      · cases hgone : s.destroyed k with
        | true => exact .inr (.inl ((s.destroyed_step _ k).mpr (.inr hgone)))
        | false =>
          have hlive : s.registry (s.entries k).id = some k := (t.ids.live k hold).mpr hgone
          by_cases hlock : s.lock = none
          · right
            right
            simp [System.step, hlock, hcall, setCall, attachEncoder_encoder, hlive]
          · exact .inl (by simp [System.step, hlock, hcall])
      · exact .inr (.inl (t'.returned.failed k hret))
    · exact .inr (.inl ((s.destroyed_step a k).mpr (.inr hgone)))
    · exact .inr (.inr (encoder_step a hold hencoder))
  · obtain ⟨hnext, -⟩ | ⟨rfl, hcreate⟩ := s.next_step a
    · omega
    · rw [hcreate] at hk ⊢
      have : k = s.next := by
        simp only [create] at hk
        omega
      simp [create, this]

/-- While ids are fresh, an entry holds the virtual display of its own encoder, if any. -/
theorem Tracked.own (t : s.Tracked) (home : s.Homed) {j v : Nat} (hj : j < s.next)
    (h : (s.entries j).virtualDisplay = some v) : v = j ∧ (s.encoders j).handed = true := by
  have hhanded := t.inv.given j v h
  obtain rfl := t.ids.distinct j v hj (t.ordered.lt_of_handed hhanded) (home j v h)
  exact ⟨rfl, hhanded⟩

theorem Tracked.eq_of_live (t : s.Tracked) {j k : Nat} (hk : k < s.next)
    (h : s.registry (s.entries k).id = some j) : j = k := by
  obtain ⟨hlt, hid⟩ := t.inv.keyed _ j h
  exact t.ids.distinct j k hlt hk hid

/-- Before the attachment, the entry has no virtual display. -/
theorem Tracked.empty (t : s.Tracked) (home : s.Homed) {j k : Nat}
    (hattaching : (s.encoders k).attaching = true) (h : s.registry (s.entries k).id = some j) :
    (s.entries j).virtualDisplay = none := by
  have hk := t.ordered.lt_of_attaching hattaching
  obtain rfl := t.eq_of_live hk h
  by_contra hsome
  obtain ⟨v, hv⟩ := Option.ne_none_iff_exists'.mp hsome
  obtain ⟨-, hhanded⟩ := t.own home hk hv
  simp [Encoder.handed, hattaching] at hhanded

/-- While ids are fresh, only the time of the attachment counts: the entry is not destroyed. -/
def AttachedInTime (s : System) (a : Action) : Prop :=
  ∀ k, a = .attachVirtualDisplay k → s.lock = none → (s.encoders k).attaching = true →
    (s.encoders k).virtualDisplay = true → s.destroyed k = false

theorem inTime_iff_of_fresh (t : s.Tracked) (home : s.Homed) (equipped : s.Equipped) {a : Action}
    (fresh : s.Fresh a) : s.InTime a ↔ s.AttachedInTime a := by
  cases a with
  | create =>
    refine iff_of_true (fun _ j hj => ?_) (by simp [AttachedInTime])
    obtain ⟨hlt, hid⟩ := t.inv.keyed _ j hj
    exact absurd hid (fresh rfl j hlt)
  | take =>
    refine iff_of_true ?_ (by simp [AttachedInTime])
    rcases hlock : s.lock with _ | ⟨_ | ⟨id, ids⟩, _ | i, call⟩ <;> simp only [InTime, hlock]
    intro j hj hnone
    obtain ⟨hlt, hid⟩ := t.inv.keyed _ j hj
    by_contra hsome
    obtain ⟨v, hv⟩ := Option.ne_none_iff_exists'.mp hsome
    obtain ⟨-, hhanded⟩ := t.own home hlt hv
    obtain hcall | hgone | hencoder := equipped j hlt
    · have := (t.ordered.unstarted j (by simp [hcall, CallPhase.unstarted])).not_handed
      simp [hhanded] at this
    · have hid' : (s.entries j).id = id := hid
      exact (destroyed_iff t.ids hlt).mp hgone (hid' ▸ hj)
    · exact hencoder hnone
  | attachVirtualDisplay k =>
    simp only [InTime, AttachedInTime, Action.attachVirtualDisplay.injEq, forall_eq']
    refine imp_congr_right fun _ => imp_congr_right fun hattaching => ?_
    have hk := t.ordered.lt_of_attaching hattaching
    rw [and_iff_left fun j hj => t.empty home hattaching hj, ← Bool.not_eq_true,
      destroyed_iff t.ids hk, not_not]
    refine imp_congr_right fun _ => ⟨fun hsome => ?_, fun hlive => by simp [hlive]⟩
    obtain ⟨j, hj⟩ := Option.ne_none_iff_exists'.mp hsome
    exact t.eq_of_live hk hj ▸ hj
  | _ => simp [InTime, AttachedInTime]

/-- While ids are fresh, no virtual display leaks if and only if none is attached behind the
destroy of its entry. -/
theorem no_leak_iff_of_fresh {actions : List Action} (fresh : Run.Along step Fresh init actions) :
    Run.Along step (fun s a => (s.step a).NoLeak) init actions ↔
      Run.Along step AttachedInTime init actions := by
  rw [no_leak_iff]
  refine Run.along_iff_of_along (I := fun s => s.Tracked ∧ s.Homed ∧ s.Equipped) ?_ ?_
    ⟨tracked_init, sound_init.home, fun _ h => nomatch h⟩ fresh
  · rintro s a ⟨t, home, equipped⟩ fresh
    exact ⟨t.step fresh, home.step t.ordered t.inv a, equipped.step t fresh⟩
  · rintro s a ⟨t, home, equipped⟩ fresh
    exact inTime_iff_of_fresh t home equipped fresh

/-- A close comes while the encoder thread is about to attach its virtual display. -/
def closedBeforeAttach : List Action :=
  [.create, .attachEncoder 0, .start 0 true, .thread 0 (.display true), .destroyAll [1], .take,
    .finish false, .unlock, .attachVirtualDisplay 0, .thread 0 .ready, .thread 0 .leave]

/-- The destroy has returned and the thread has ended, but the virtual display was never
released. -/
theorem no_leak_closed_before_attach :
    ¬Run.Along step (fun s a => (s.step a).NoLeak) init closedBeforeAttach := by
  intro h
  have hleak := (h.2.2.2.2.2.2.2.2.2.2.1).1 0 ⟨by decide, nofun, by decide⟩ (by decide)
  exact absurd hleak (by decide)

end System
end Kulua.Display
