import Kulua.Display.Ids

/-! When `createDisplay` is right to send `DisplayReady`: it reads one flag, which the encoder
thread clears only where `createCodec` throws an `IOException`, and it waits 2 s at most. -/

namespace Kulua.Display
open Foundation

namespace System

/-- The entry of a call that ends without `DisplayReady` is destroyed; the destroy that the call
waits for is that of its id. -/
structure Returned (s : System) : Prop where
  failed : ∀ k, s.calls k = .returned false → s.destroyed k = true
  lock : ∀ d k, s.lock = some d → d.call = some k →
    d.ids = [(s.entries k).id] ∨ d.ids = [] ∧ s.destroyed k = true

theorem returned_init : init.Returned where
  failed _ h := nomatch h
  lock _ _ h := nomatch h

variable {s t : System}

theorem Returned.of_same (r : s.Returned) (o : s.Ordered)
    (hcalls : ∀ k, t.calls k = .returned false → s.calls k = .returned false)
    (hlock : t.lock = s.lock) (hid : ∀ k < s.next, (t.entries k).id = (s.entries k).id)
    (hdestroyed : t.destroyed = s.destroyed) : t.Returned where
  failed k hk := by
    rw [hdestroyed]
    exact r.failed k (hcalls k hk)
  lock d k hd hk := by
    rw [hlock] at hd
    rw [hid k (o.locked d k hd hk), hdestroyed]
    exact r.lock d k hd hk

theorem Returned.setCall (r : s.Returned) (k : Nat) {phase : CallPhase}
    (h : phase = .returned false → s.destroyed k = true) : (s.setCall k phase).Returned where
  failed i hi := by
    by_cases hik : i = k
    · subst hik
      simp only [System.setCall, Function.update_self] at hi
      exact h hi
    · simp only [System.setCall, Function.update_of_ne hik] at hi
      exact r.failed i hi
  lock := r.lock

theorem Returned.setLock (r : s.Returned) {ids : List U32} {current call : Option Nat}
    (h : ∀ k, call = some k → ids = [(s.entries k).id] ∨ ids = [] ∧ s.destroyed k = true) :
    (s.setLock (some ⟨ids, current, call⟩)).Returned where
  failed := r.failed
  lock d k hd hk := by
    cases hd
    exact h k hk

theorem Returned.unlock (r : s.Returned) {call : Option Nat}
    (h : ∀ k, call = some k → s.destroyed k = true) : (s.unlock call).Returned := by
  have hfree : (s.setLock none).Returned := ⟨r.failed, by simp [System.setLock]⟩
  cases call with
  | none => exact hfree
  | some k => exact hfree.setCall k fun _ => h k rfl

theorem Returned.remove (r : s.Returned) (id : U32) (j : Nat) : (s.remove id j).Returned := by
  have hmono : ∀ k, s.destroyed k = true → (s.remove id j).destroyed k = true := by
    intro k hk
    by_cases hkj : k = j <;> simp [System.remove, hkj, hk]
  exact ⟨fun k hk => hmono k (r.failed k hk), fun d k hd hk =>
    (r.lock d k hd hk).imp_right fun h => ⟨h.1, hmono k h.2⟩⟩

/-- An entry is destroyed once its id does not lead to it any more. -/
theorem destroyed_iff (h : Ids s.custody s.destroyed) {k : Nat} (hk : k < s.next) :
    s.destroyed k = true ↔ s.registry (s.entries k).id ≠ some k := by
  rw [← Bool.not_eq_false, ← h.live k hk]
  rfl

theorem Returned.take (r : s.Returned) (o : s.Ordered) (h : Ids s.custody s.destroyed)
    {id : U32} {ids : List U32} {call : Option Nat}
    (hlock : s.lock = some ⟨id :: ids, none, call⟩) : (s.take id ids call).Returned := by
  -- the one id of a call that waits is that of its entry
  have hown : ∀ k, call = some k → ids = [] ∧ k < s.next ∧ (s.entries k).id = id := by
    intro k hk
    have hlt := o.locked _ k hlock hk
    obtain hids | ⟨hids, -⟩ := r.lock _ k hlock hk
    · simp only [List.cons.injEq] at hids
      exact ⟨hids.2, hlt, hids.1.symm⟩
    · cases hids
  unfold System.take
  split
  · rename_i hnone
    apply r.setLock
    intro k hk
    obtain ⟨hids, hlt, hid⟩ := hown k hk
    exact .inr ⟨hids, (destroyed_iff h hlt).mpr (by simp [hid, hnone])⟩
  · rename_i j hj
    have hremoved : ∀ k, call = some k → (s.remove id j).destroyed k = true := by
      intro k hk
      obtain ⟨-, hlt, hid⟩ := hown k hk
      by_cases hkj : k = j
      · simp [System.remove, hkj]
      · have hdestroyed := (destroyed_iff h hlt).mpr (by simp [hid, hj, Ne.symm hkj])
        simp [System.remove, hkj, hdestroyed]
    split
    · exact (r.remove id j).unlock hremoved
    · rename_i e he
      have hstop : ((s.remove id j).stop e).Returned :=
        ⟨(r.remove id j).failed, (r.remove id j).lock⟩
      exact hstop.setLock fun k hk => .inr ⟨(hown k hk).1, hremoved k hk⟩

theorem Returned.finish (r : s.Returned) (j : Nat) {ids : List U32} {current call : Option Nat}
    (hlock : s.lock = some ⟨ids, current, call⟩) : (s.finish j ids call).Returned := by
  have hids := fun k hk => r.lock _ k hlock hk
  unfold System.finish System.release
  split
  · exact r.setLock hids
  · exact ⟨r.failed, fun d k hd hk => by cases hd; exact hids k hk⟩

theorem Returned.setEncoder (r : s.Returned) (k : Nat) (c : Encoder) :
    (s.setEncoder k c).Returned := ⟨r.failed, r.lock⟩

theorem Returned.attachVirtualDisplay (r : s.Returned) (o : s.Ordered) (id : U32)
    (v : Option Nat) : (s.attachVirtualDisplay id v).Returned := by
  unfold System.attachVirtualDisplay
  split
  · exact r
  · rename_i j hj
    refine r.of_same o (fun _ hk => hk) rfl (fun k _ => ?_) rfl
    by_cases hkj : k = j
    · subst hkj
      simp [setEntry]
    · simp [setEntry, hkj]

theorem Returned.step (r : s.Returned) (o : s.Ordered) (h : Ids s.custody s.destroyed)
    (a : Action) : (s.step a).Returned := by
  refine step_rule r fun t hstep => ?_
  cases hstep with
  | create free =>
    refine r.of_same o (fun k hk => ?_) rfl (fun k hk => ?_) rfl
    · by_cases hnew : k = s.next
      · simp [System.create, hnew] at hk
      · simpa [System.create, hnew] using hk
    · simp [System.create, hk.ne]
  | @attachEncoder k free hcall =>
    refine Returned.setCall ?_ k (by simp)
    have hsame := attachEncoder_same s (s.entries k).id k
    refine r.of_same o (fun i hi => hsame.2.2.1 ▸ hi) hsame.2.2.2 (fun i _ => by simp) ?_
    unfold attachEncoder
    split <;> rfl
  | @start k ok hcall =>
    refine Returned.setCall ?_ k ?_
    · exact ⟨r.failed, r.lock⟩
    · cases ok <;> simp
  | @await k inTime hcall => exact r.setCall k (by simp)
  | @readRunning k hcall =>
    refine r.setCall k ?_
    split <;> simp
  | @send k hcall => exact r.setCall k (by simp)
  | @destroyFailed k free hcall =>
    refine Returned.setCall (r.setLock ?_) k (by simp)
    rintro i ⟨⟩
    exact .inl rfl
  | destroy id free => exact r.setLock (by simp)
  | destroyAll ids free => exact r.setLock (by simp)
  | take hlock => exact r.take o h hlock
  | @finish ids j call joined hlock => exact r.finish j hlock
  | unlock hlock =>
    refine r.unlock fun k hk => ?_
    obtain hids | ⟨-, hdestroyed⟩ := r.lock _ k hlock hk
    · cases hids
    · exact hdestroyed
  | thread k a => exact ⟨r.failed, r.lock⟩
  | @attachVirtualDisplay k free hattaching => exact (r.attachVirtualDisplay o _ _).setEncoder k _
  | resizeDisplay id free =>
    unfold System.resizeDisplay
    split
    · exact r
    · exact ⟨r.failed, r.lock⟩

/-- `DisplayReady` is sent only while the entry is in the registry with its virtual display
attached, and a call that ends without it has destroyed the entry. -/
def ReadySound (s : System) (a : Action) : Prop :=
  (∀ k, a = .send k → s.calls k = .sending →
    s.registry (s.entries k).id = some k ∧ (s.entries k).virtualDisplay = some k) ∧
  ∀ k, (s.step a).calls k = .returned false →
    (s.step a).registry ((s.step a).entries k).id ≠ some k

/-- When `createDisplay` comes to send, the encoder thread has been through
`attachVirtualDisplay` with a virtual display, and no destroy has taken the entry since. -/
def AttachedBefore (s : System) (a : Action) : Prop :=
  ∀ k, a = .send k → s.calls k = .sending →
    (s.encoders k).handed = true ∧ s.destroyed k = false

/-- What holds in every state reached while ids are fresh. -/
structure Tracked (s : System) : Prop where
  ordered : s.Ordered
  inv : s.custody.Inv
  ids : Ids s.custody s.destroyed
  returned : s.Returned

theorem tracked_init : init.Tracked := ⟨ordered_init, inv_init, ids_init, returned_init⟩

theorem Tracked.step (h : s.Tracked) {a : Action} (fresh : s.Fresh a) : (s.step a).Tracked where
  ordered := h.ordered.step a
  inv := h.ordered.inv_step h.inv a
  ids := ids_step h.ids h.ordered h.inv fresh
  returned := h.returned.step h.ordered h.ids a

theorem readySound_iff (h : s.Tracked) {a : Action} (fresh : s.Fresh a) :
    s.ReadySound a ↔ s.AttachedBefore a := by
  -- the entry of a call that fails is gone at once
  have hfailed : ∀ k, (s.step a).calls k = .returned false →
      (s.step a).registry ((s.step a).entries k).id ≠ some k := by
    intro k hk
    have h' := h.step fresh
    exact (destroyed_iff h'.ids (h'.ordered.lt_next (by simp [hk]))).mp (h'.returned.failed k hk)
  unfold ReadySound AttachedBefore
  rw [and_iff_left hfailed]
  refine forall_congr' fun k => imp_congr_right fun ha => imp_congr_right fun hcall => ?_
  have hk : k < s.next := h.ordered.lt_next (by simp [hcall])
  constructor
  · rintro ⟨hlive, hattached⟩
    exact ⟨h.inv.given k k hattached, (h.ids.live k hk).mp hlive⟩
  · rintro ⟨hhanded, hlive⟩
    exact ⟨(h.ids.live k hk).mpr hlive, h.ids.own k hhanded hlive⟩

/-- `createCodec` throws a `RuntimeException`. -/
def codecThrows : List Action :=
  [.create, .attachEncoder 0, .start 0 true, .thread 0 (.fail .runtime), .thread 0 .handle,
    .await 0 true, .readRunning 0, .send 0]

theorem fresh_codecThrows : Run.Along step Fresh init codecThrows := by decide

end System
end Kulua.Display
