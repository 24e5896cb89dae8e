import Kulua.Display.System
import Kulua.Foundation.Custody

/-! Who has the virtual displays: the entries of the registry keep them in custody, and a
destroy takes an entry in hand. -/

namespace Kulua.Display
open Foundation

namespace Encoder

/-- There is a virtual display, and `attachVirtualDisplay` has been called with it. -/
def handed (c : Encoder) : Bool := !c.attaching && c.virtualDisplay

@[simp] theorem handed_fail (c : Encoder) (e : CodecError) (resize : Bool) :
    (c.fail e resize).handed = c.virtualDisplay := by
  cases resize <;> simp [fail, handed, attaching]

/-- Only `attachVirtualDisplay` hands a virtual display over. -/
@[simp] theorem handed_step (c : Encoder) (a : ThreadAction) : (c.step a).handed = c.handed := by
  cases a with
  | fail e =>
    cases hphase : c.phase <;> simp only [step, hphase, handed_fail]
    all_goals simp [handed, attaching, hphase]
  | display ok =>
    cases hphase : c.phase <;> cases hvd : c.virtualDisplay <;>
      simp [step, handed, attaching, hphase, hvd]
  | ready =>
    cases hphase : c.phase <;> cases hvd : c.virtualDisplay <;>
      simp [step, handed, attaching, hphase, hvd]
  | handle =>
    cases hphase : c.phase with
    | thrown e => cases e <;> simp [step, handed, attaching, hphase]
    | _ => simp [step, handed, attaching, hphase]
  | resize =>
    simp only [step]
    split
    · rename_i h
      simp [handed, attaching, h.1]
    · rfl
  | leave =>
    simp only [step]
    split
    · rename_i h
      simp [handed, attaching, h]
    · rfl

theorem handed_attach (c : Encoder) : c.attach.handed = c.virtualDisplay := by
  cases hphase : c.phase <;> simp [attach, handed, attaching, hphase]

/-- The thread was not started, and there is no virtual display. -/
def Unstarted (c : Encoder) : Prop := c.phase = .idle ∧ c.virtualDisplay = false

theorem Unstarted.step {c : Encoder} (h : c.Unstarted) (a : ThreadAction) :
    (c.step a).Unstarted := by
  obtain ⟨hphase, hnone⟩ := h
  cases a <;> simp [Encoder.step, Unstarted, hphase, hnone]

theorem Unstarted.not_attaching {c : Encoder} (h : c.Unstarted) : c.attaching = false := by
  simp [attaching, h.1]

theorem Unstarted.not_handed {c : Encoder} (h : c.Unstarted) : c.handed = false := by
  simp [handed, h.2]

theorem Unstarted.handed_start {c : Encoder} (h : c.Unstarted) (ok : Bool) :
    (c.start ok).handed = false := by
  simp [start, handed, h.2]

end Encoder

/-- `encoder.start` has not been called. -/
def CallPhase.unstarted : CallPhase → Bool
  | .idle | .created | .prepared => true
  | _ => false

namespace System

def custody (s : System) : Custody U32 Nat Nat where
  table := s.registry
  key j := (s.entries j).id
  opened j := j < s.next
  holds j := (s.entries j).virtualDisplay
  hand := s.lock.bind Destroying.current
  given k := (s.encoders k).handed = true
  released := s.released

/-- What a step does to the custody of the virtual displays. -/
def moveOf (s : System) : Action → Option (Custody.Move U32 Nat Nat)
  | .create => if s.lock = none then some (.create s.nextId s.next) else none
  | .take =>
    match s.lock with
    | some ⟨id :: _, none, _⟩ =>
      match s.registry id with
      | none => none
      | some j => some (if (s.entries j).encoder = none then .drop id else .take id)
    | _ => none
  | .finish joined =>
    match s.lock with
    | some ⟨_, some j, _⟩ => if joined = true → ¬s.EncoderAlive j then some .release else none
    | _ => none
  | .attachVirtualDisplay k =>
    if s.lock = none ∧ (s.encoders k).attaching then
      some (.put (s.entries k).id (if (s.encoders k).virtualDisplay then some k else none))
    else none
  | _ => none

@[simp] theorem custody_setCall (s : System) (k : Nat) (phase : CallPhase) :
    (s.setCall k phase).custody = s.custody := rfl

theorem custody_setEncoder (s : System) {k : Nat} {c : Encoder}
    (h : c.handed = (s.encoders k).handed) : (s.setEncoder k c).custody = s.custody := by
  have hgiven : ∀ v, (Function.update s.encoders k c v).handed = (s.encoders v).handed := by
    intro v
    by_cases hv : v = k
    · subst hv
      simpa using h
    · simp [hv]
  simp [custody, setEncoder, hgiven]

theorem custody_setLock (s : System) (lock : Option Destroying) :
    (s.setLock lock).custody = { s.custody with hand := lock.bind Destroying.current } := rfl

/-- A change of the lock that leaves the hand as it is. -/
theorem custody_setLock_same (s : System) {lock : Option Destroying}
    (h : lock.bind Destroying.current = s.lock.bind Destroying.current) :
    (s.setLock lock).custody = s.custody := by
  rw [custody_setLock, h]
  rfl

theorem custody_unlock (s : System) (call : Option Nat)
    (h : s.lock.bind Destroying.current = none) : (s.unlock call).custody = s.custody := by
  have hlock : (s.setLock none).custody = s.custody := s.custody_setLock_same (by simp [h])
  cases call <;> simpa [unlock] using hlock

theorem custody_stop (s : System) (e : Nat) : (s.stop e).custody = s.custody :=
  s.custody_setEncoder rfl

theorem custody_remove (s : System) (id : U32) (j : Nat) :
    (s.remove id j).custody = s.custody.move (.drop id) := rfl

theorem custody_attachEncoder (s : System) (id : U32) (k : Nat) :
    (s.attachEncoder id k).custody = s.custody := by
  unfold attachEncoder
  split
  · rfl
  · rename_i j hj
    have hentry : ∀ i, (Function.update s.entries j { s.entries j with encoder := some k } i).id =
        (s.entries i).id ∧
        (Function.update s.entries j { s.entries j with encoder := some k } i).virtualDisplay =
          (s.entries i).virtualDisplay := by
      intro i
      by_cases hi : i = j
      · subst hi
        simp
      · simp [hi]
    simp [custody, setEntry, hentry]

@[simp] theorem attachEncoder_id (s : System) (id : U32) (k i : Nat) :
    ((s.attachEncoder id k).entries i).id = (s.entries i).id :=
  congrFun (congrArg Custody.key (s.custody_attachEncoder id k)) i

theorem custody_resizeDisplay (s : System) (id : U32) :
    (s.resizeDisplay id).custody = s.custody := by
  unfold resizeDisplay
  split
  · rfl
  · exact s.custody_setEncoder rfl

theorem custody_create (s : System) :
    s.create.custody = s.custody.move (.create s.nextId s.next) := by
  apply Custody.ext <;> try rfl
  · funext j
    by_cases hj : j = s.next <;> simp [custody, create, Custody.move, hj]
  · funext j
    simp only [custody, create, Custody.move, eq_iff_iff]
    omega
  · funext j
    by_cases hj : j = s.next <;> simp [custody, create, Custody.move, hj]

theorem custody_attachVirtualDisplay (s : System) {k : Nat} (h : (s.encoders k).attaching = true) :
    ((s.attachVirtualDisplay (s.entries k).id
        (if (s.encoders k).virtualDisplay then some k else none)).setEncoder k
          (s.encoders k).attach).custody =
      s.custody.move (.put (s.entries k).id
        (if (s.encoders k).virtualDisplay then some k else none)) := by
  have hgiven : ∀ v, (Function.update s.encoders k (s.encoders k).attach v).handed = true ↔
      (if (s.encoders k).virtualDisplay then some k else none) = some v ∨
        (s.encoders v).handed = true := by
    intro v
    by_cases hv : v = k
    · subst hv
      have hnot : (s.encoders v).handed = false := by simp [Encoder.handed, h]
      simp [Encoder.handed_attach, hnot]
    · simp [hv, Ne.symm hv]
  cases hj : s.registry (s.entries k).id with
  | none => simp [custody, attachVirtualDisplay, setEncoder, Custody.move, hj, hgiven]
  | some j =>
    have hentry : ∀ o i, (Function.update s.entries j { s.entries j with virtualDisplay := o } i).id =
        (s.entries i).id ∧
        (Function.update s.entries j { s.entries j with virtualDisplay := o } i).virtualDisplay =
          if j = i then o else (s.entries i).virtualDisplay := by
      intro o i
      by_cases hi : i = j
      · subst hi
        simp
      · simp [hi, Ne.symm hi]
    simp [custody, attachVirtualDisplay, setEncoder, setEntry, Custody.move, hj, hgiven, hentry]

theorem custody_take (s : System) {id : U32} {ids : List U32} {call : Option Nat}
    (h : s.lock.bind Destroying.current = none) :
    (s.take id ids call).custody =
      match s.registry id with
      | none => s.custody
      | some j =>
        s.custody.move (if (s.entries j).encoder = none then .drop id else .take id) := by
  unfold take
  cases hj : s.registry id with
  | none => exact s.custody_setLock_same (by simp [h])
  | some j =>
    cases he : (s.entries j).encoder with
    | none => simpa [he, custody_remove] using (s.remove id j).custody_unlock call h
    | some e =>
      simp only [he, custody_setLock, custody_stop, reduceCtorEq, if_false]
      rw [custody_remove]
      simp [Custody.move, custody, hj]

theorem custody_release (s : System) (o : Option Nat) :
    (s.release o).custody =
      { s.custody with
        released := fun r => if o = some r then s.released r + 1 else s.released r } := by
  cases o with
  | none => simp [release, custody]
  | some v =>
    apply Custody.ext <;> try rfl
    funext r
    by_cases hr : r = v
    · subst hr
      simp [release, custody]
    · simp [release, custody, hr, Ne.symm hr]

theorem custody_finish (s : System) {j : Nat} {ids : List U32} {call : Option Nat}
    (h : s.lock = some ⟨ids, some j, call⟩) :
    (s.finish j ids call).custody = s.custody.move .release := by
  rw [finish, custody_setLock, custody_release]
  simp [Custody.move, custody, h]

/-- Every step is its move, or does not touch what is in custody. -/
theorem custody_step (s : System) (a : Action)
    (hunstarted : ∀ k, s.calls k = .prepared → (s.encoders k).Unstarted) :
    (s.step a).custody = (s.moveOf a).elim s.custody s.custody.move := by
  cases a with
  | create =>
    simp only [step, moveOf]
    split
    · exact s.custody_create
    · rfl
  | attachEncoder k =>
    simp only [step, moveOf]
    split
    · exact s.custody_attachEncoder _ k
    · rfl
  | start k ok =>
    simp only [step, moveOf]
    split
    · rename_i hcall
      have hun := hunstarted k hcall
      exact s.custody_setEncoder (by rw [hun.handed_start, hun.not_handed])
    · rfl
  | await k inTime | readRunning k | send k =>
    simp only [step, moveOf]
    split <;> rfl
  | destroyFailed k =>
    simp only [step, moveOf]
    split
    · rename_i h
      rw [custody_setCall]
      exact s.custody_setLock_same (by simp [h.1])
    · rfl
  | destroy id =>
    simp only [step, moveOf]
    split
    · rename_i h
      exact s.custody_setLock_same (by simp [h])
    · rfl
  | destroyAll ids =>
    simp only [step, moveOf]
    split
    · rename_i h
      exact s.custody_setLock_same (by simp [h.1])
    · rfl
  | take =>
    rcases hlock : s.lock with _ | ⟨_ | ⟨id, ids⟩, _ | j, call⟩ <;>
      simp only [step, moveOf, hlock, Option.elim_none]
    rw [s.custody_take (by simp [hlock])]
    cases s.registry id <;> rfl
  | finish joined =>
    rcases hlock : s.lock with _ | ⟨ids, _ | j, call⟩ <;>
      simp only [step, moveOf, hlock, Option.elim_none]
    split
    · exact s.custody_finish hlock
    · rfl
  | unlock =>
    rcases hlock : s.lock with _ | ⟨_ | ⟨id, ids⟩, _ | j, call⟩ <;>
      simp only [step, moveOf, hlock, Option.elim_none]
    exact s.custody_unlock call (by simp [hlock])
  | thread k a => exact s.custody_setEncoder (by simp)
  | attachVirtualDisplay k =>
    simp only [step, moveOf]
    split
    · rename_i h
      exact s.custody_attachVirtualDisplay h.2
    · rfl
  | resizeDisplay id =>
    simp only [step, moveOf]
    split
    · exact s.custody_resizeDisplay id
    · rfl

/-- Calls are numbered as they come, and a thread is started by its call. -/
structure Ordered (s : System) : Prop where
  called : ∀ k, s.next ≤ k → s.calls k = .idle
  unstarted : ∀ k, (s.calls k).unstarted = true → (s.encoders k).Unstarted
  locked : ∀ h k, s.lock = some h → h.call = some k → k < s.next

theorem ordered_init : init.Ordered where
  called _ _ := rfl
  unstarted _ _ := ⟨rfl, rfl⟩
  locked _ _ h := nomatch h

section
variable {s : System}

theorem Ordered.lt_next (o : s.Ordered) {k : Nat} (h : s.calls k ≠ .idle) : k < s.next := by
  by_contra hle
  exact h (o.called k (not_lt.mp hle))

theorem Ordered.setCall (o : s.Ordered) {k : Nat} (hk : k < s.next) {phase : CallPhase}
    (h : phase.unstarted = true → (s.encoders k).Unstarted) : (s.setCall k phase).Ordered where
  called i hi := by
    have hne : i ≠ k := (hk.trans_le hi).ne'
    simpa [System.setCall, hne] using o.called i hi
  unstarted i hi := by
    by_cases hik : i = k
    · subst hik
      simp only [System.setCall, Function.update_self] at hi ⊢
      exact h hi
    · simp only [System.setCall, Function.update_of_ne hik] at hi ⊢
      exact o.unstarted i hi
  locked := o.locked

theorem Ordered.setEncoder (o : s.Ordered) {k : Nat} {c : Encoder}
    (h : (s.calls k).unstarted = true → c.Unstarted) : (s.setEncoder k c).Ordered where
  called := o.called
  unstarted i hi := by
    by_cases hik : i = k
    · subst hik
      simpa [System.setEncoder] using h hi
    · simpa [System.setEncoder, hik] using o.unstarted i hi
  locked := o.locked

theorem Ordered.setLock (o : s.Ordered) (ids : List U32) (current : Option Nat)
    {call : Option Nat} (h : ∀ k, call = some k → k < s.next) :
    (s.setLock (some ⟨ids, current, call⟩)).Ordered where
  called := o.called
  unstarted := o.unstarted
  locked d k hd hk := by
    cases hd
    exact h k hk

theorem Ordered.unlock (o : s.Ordered) {call : Option Nat} (h : ∀ k, call = some k → k < s.next) :
    (s.unlock call).Ordered := by
  have hfree : (s.setLock none).Ordered := ⟨o.called, o.unstarted, by simp [System.setLock]⟩
  cases call with
  | none => exact hfree
  | some k => exact hfree.setCall (h k rfl) (by simp [CallPhase.unstarted])

theorem Ordered.create (o : s.Ordered) : s.create.Ordered where
  called i hi := by
    have hne : i ≠ s.next := Nat.ne_of_gt hi
    simpa [System.create, hne] using o.called i (Nat.le_of_succ_le hi)
  unstarted i hi := by
    by_cases hik : i = s.next
    · subst hik
      exact o.unstarted s.next (by rw [o.called s.next le_rfl]; rfl)
    · simp only [System.create, Function.update_of_ne hik] at hi
      exact o.unstarted i hi
  locked d k hd hk := Nat.lt_succ_of_lt (o.locked d k hd hk)

theorem Ordered.take (o : s.Ordered) (id : U32) (ids : List U32) {call : Option Nat}
    (h : ∀ k, call = some k → k < s.next) : (s.take id ids call).Ordered := by
  unfold System.take
  split
  · exact o.setLock ids none h
  · rename_i j hj
    have hremove : (s.remove id j).Ordered := ⟨o.called, o.unstarted, o.locked⟩
    split
    · exact hremove.unlock h
    · rename_i e he
      have hstop : ((s.remove id j).stop e).Ordered := hremove.setEncoder (hremove.unstarted e)
      exact hstop.setLock ids (some j) h

theorem Ordered.finish (o : s.Ordered) (j : Nat) (ids : List U32) {call : Option Nat}
    (h : ∀ k, call = some k → k < s.next) : (s.finish j ids call).Ordered := by
  have hnext : ∀ v, (s.release v).next = s.next := by
    intro v
    cases v <;> rfl
  have hrelease : (s.release (s.entries j).virtualDisplay).Ordered := by
    cases (s.entries j).virtualDisplay with
    | none => exact o
    | some v => exact ⟨o.called, o.unstarted, o.locked⟩
  exact hrelease.setLock ids none fun k hk => (hnext _).symm ▸ h k hk

@[simp] theorem attachEncoder_same (s : System) (id : U32) (k : Nat) :
    (s.attachEncoder id k).next = s.next ∧ (s.attachEncoder id k).encoders = s.encoders ∧
      (s.attachEncoder id k).calls = s.calls ∧ (s.attachEncoder id k).lock = s.lock := by
  unfold attachEncoder
  split <;> simp [setEntry]

@[simp] theorem attachVirtualDisplay_same (s : System) (id : U32) (v : Option Nat) :
    (s.attachVirtualDisplay id v).next = s.next ∧
      (s.attachVirtualDisplay id v).encoders = s.encoders ∧
      (s.attachVirtualDisplay id v).calls = s.calls ∧
      (s.attachVirtualDisplay id v).lock = s.lock := by
  unfold attachVirtualDisplay
  split <;> simp [setEntry]

theorem Ordered.of_same {t : System} (o : s.Ordered)
    (h : t.next = s.next ∧ t.encoders = s.encoders ∧ t.calls = s.calls ∧ t.lock = s.lock) :
    t.Ordered := by
  obtain ⟨hnext, hencoders, hcalls, hlock⟩ := h
  constructor
  · rw [hnext, hcalls]
    exact o.called
  · rw [hcalls, hencoders]
    exact o.unstarted
  · rw [hlock, hnext]
    exact o.locked

theorem Ordered.step (o : s.Ordered) (a : Action) : (s.step a).Ordered := by
  refine step_rule o fun t hstep => ?_
  cases hstep with
  | create free => exact o.create
  | @attachEncoder k free hcall =>
    have hk : k < s.next := o.lt_next (by simp [hcall])
    have hun : (s.encoders k).Unstarted := o.unstarted k (by simp [hcall, CallPhase.unstarted])
    exact (o.of_same (attachEncoder_same ..)).setCall (by simpa using hk) fun _ => by
      simpa using hun
  | @start k ok hcall =>
    have hphase : (if ok then CallPhase.waiting else .failing).unstarted = false := by
      cases ok <;> rfl
    have hset : (s.setCall k (if ok then .waiting else .failing)).Ordered :=
      o.setCall (o.lt_next (by simp [hcall])) fun hun => by simp [hphase] at hun
    exact hset.setEncoder fun hun => by simp [System.setCall, hphase] at hun
  | await inTime hcall =>
    exact o.setCall (o.lt_next (by simp [hcall])) (by simp [CallPhase.unstarted])
  | readRunning hcall =>
    refine o.setCall (o.lt_next (by simp [hcall])) ?_
    split <;> simp [CallPhase.unstarted]
  | send hcall => exact o.setCall (o.lt_next (by simp [hcall])) (by simp [CallPhase.unstarted])
  | @destroyFailed k free hcall =>
    have hk : k < s.next := o.lt_next (by simp [hcall])
    refine (o.setLock [(s.entries k).id] none ?_).setCall hk (by simp [CallPhase.unstarted])
    rintro i ⟨⟩
    exact hk
  | destroy id free => exact o.setLock [id] none (by simp)
  | destroyAll ids free => exact o.setLock ids none (by simp)
  | @take id ids call hlock => exact o.take id ids fun k hk => o.locked _ k hlock hk
  | @finish ids j call joined hlock => exact o.finish j ids fun k hk => o.locked _ k hlock hk
  | unlock hlock => exact o.unlock fun k hk => o.locked _ k hlock hk
  | thread k a => exact o.setEncoder fun hun => (o.unstarted k hun).step a
  | @attachVirtualDisplay k free hattaching =>
    refine (o.of_same (attachVirtualDisplay_same ..)).setEncoder fun hun => ?_
    have := (o.unstarted k (by simpa using hun)).not_attaching
    simp [hattaching] at this
  | resizeDisplay id free =>
    unfold System.resizeDisplay
    split
    · exact o
    · rename_i e he
      exact o.setEncoder (o.unstarted e)

/-- The steps that move something. -/
theorem moveOf_cases {a : Action} {m : Custody.Move U32 Nat Nat} (h : s.moveOf a = some m) :
    a = .create ∧ m = .create s.nextId s.next ∨
      (∃ id j, a = .take ∧ s.lock.bind Destroying.current = none ∧ s.registry id = some j ∧
        m = if (s.entries j).encoder = none then .drop id else .take id) ∨
      (∃ joined, a = .finish joined ∧ m = .release) ∨
      ∃ k, a = .attachVirtualDisplay k ∧ (s.encoders k).attaching = true ∧
        m = .put (s.entries k).id (if (s.encoders k).virtualDisplay then some k else none) := by
  cases a with
  | create =>
    simp only [moveOf] at h
    split at h <;> cases h
    exact .inl ⟨rfl, rfl⟩
  | take =>
    rcases hlock : s.lock with _ | ⟨_ | ⟨id, ids⟩, _ | i, call⟩ <;>
      simp only [moveOf, hlock, reduceCtorEq] at h
    cases hj : s.registry id <;> simp only [hj, reduceCtorEq, Option.some.injEq] at h
    exact .inr (.inl ⟨id, _, rfl, rfl, hj, h.symm⟩)
  | finish joined =>
    rcases hlock : s.lock with _ | ⟨ids, _ | j, call⟩ <;>
      simp only [moveOf, hlock, reduceCtorEq] at h
    split at h <;> cases h
    exact .inr (.inr (.inl ⟨joined, rfl, rfl⟩))
  | attachVirtualDisplay k =>
    simp only [moveOf] at h
    split at h <;> cases h
    rename_i hguard
    exact .inr (.inr (.inr ⟨k, rfl, hguard.2, rfl⟩))
  | _ => simp [moveOf] at h

theorem legal_moveOf {a : Action} {m : Custody.Move U32 Nat Nat} (h : s.moveOf a = some m) :
    s.custody.Legal m := by
  obtain ⟨-, rfl⟩ | ⟨id, j, -, hfree, -, rfl⟩ | ⟨joined, -, rfl⟩ | ⟨k, -, hattaching, rfl⟩ :=
    moveOf_cases h
  · simp [Custody.Legal, custody]
  · split
    · trivial
    · exact hfree
  · trivial
  · intro r hr
    split at hr <;> cases hr
    simp [custody, Encoder.handed, hattaching]

/-- Only an encoder thread puts a virtual display, its own, and under its id. -/
theorem eq_attach_of_moveOf {a : Action} {id : U32} {o : Option Nat}
    (h : s.moveOf a = some (.put id o)) :
    ∃ k, (s.encoders k).attaching = true ∧ s.custody.key k = id ∧ ∀ v, o = some v → v = k := by
  obtain ⟨-, hm⟩ | ⟨i, j, -, -, -, hm⟩ | ⟨joined, -, hm⟩ | ⟨k, -, hattaching, hm⟩ := moveOf_cases h
  · cases hm
  · split at hm <;> cases hm
  · cases hm
  · cases hm
    refine ⟨k, hattaching, rfl, fun v hv => ?_⟩
    split at hv <;> cases hv
    rfl

theorem custody_of_prepared (o : s.Ordered) (a : Action) :
    (s.step a).custody = (s.moveOf a).elim s.custody s.custody.move :=
  s.custody_step a fun k hk => o.unstarted k (by simp [hk, CallPhase.unstarted])

theorem Ordered.inv_step (o : s.Ordered) (inv : s.custody.Inv) (a : Action) :
    (s.step a).custody.Inv := by
  rw [custody_of_prepared o]
  cases hmove : s.moveOf a with
  | none => exact inv
  | some m => exact inv.move (legal_moveOf hmove)

theorem Ordered.lt_of_attaching (o : s.Ordered) {k : Nat} (h : (s.encoders k).attaching = true) :
    k < s.next := by
  apply o.lt_next
  intro hidle
  have := (o.unstarted k (by rw [hidle]; rfl)).not_attaching
  simp [h] at this

theorem Ordered.lt_of_handed (o : s.Ordered) {k : Nat} (h : (s.encoders k).handed = true) :
    k < s.next := by
  apply o.lt_next
  intro hidle
  have := (o.unstarted k (by rw [hidle]; rfl)).not_handed
  simp [h] at this

theorem inv_init : init.custody.Inv where
  keyed _ _ h := nomatch h
  hand _ h := nomatch h
  unopened _ _ := rfl
  given _ _ h := nomatch h
  unique _ _ _ h := nomatch h
  fresh _ _ := rfl

end

end System
end Kulua.Display
