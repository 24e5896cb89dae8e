import Kulua.Foundation.Keyed
import Kulua.Ipc.Rpc

/-! Which call gets which answer. A call waits as long as its sender is in the command channel or
under its id among the pending ones, and then its request or the answer to it is on its way. -/

namespace Kulua.Ipc.Rpc
open Foundation Foundation.Run

/-- The id of the call `k`, before the counter comes round. -/
def idOf (k : Nat) : BitVec 64 := firstId + BitVec.ofNat 64 k

theorem toNat_idOf {k : Nat} (h : k + 3 < 2 ^ 64) : (idOf k).toNat = k + 3 := by
  have hk : (BitVec.ofNat 64 k).toNat = k := by
    rw [BitVec.toNat_ofNat]
    omega
  have hfirst : firstId.toNat = 3 := rfl
  rw [idOf, BitVec.toNat_add, hk, hfirst]
  omega

theorem idOf_inj {j k : Nat} (hj : j + 3 < 2 ^ 64) (hk : k + 3 < 2 ^ 64) (h : idOf j = idOf k) :
    j = k := by
  have := congrArg BitVec.toNat h
  rw [toNat_idOf hj, toNat_idOf hk] at this
  omega

theorem hello_id_ne_idOf {n k : Nat} (hk : k + 3 < 2 ^ 64) : (hello n).id ≠ idOf k := by
  intro h
  have htoNat := congrArg BitVec.toNat h
  have hsmall : (hello n).id.toNat ≤ 2 := by
    cases n with
    | zero => decide
    | succ n => exact le_rfl
  rw [toNat_idOf hk] at htoNat
  omega

/-- There are ids left. -/
def Roomy (s : State) : Prop := s.calls.length + 3 ≤ 2 ^ 64

structure Numbered (s : State) : Prop where
  next : s.nextId = idOf s.calls.length
  ids : ∀ {k q}, s.requestOf k = some q → q.id = idOf k

/-- The calls whose senders of the response are still there. -/
def State.holders (s : State) : List Nat := s.queue ++ s.pending.map Prod.snd

structure Held (s : State) : Prop where
  nodup : s.holders.Nodup
  waiting : ∀ k, k ∈ s.holders ↔ s.phaseOf k = some .waiting
  keys : ∀ p ∈ s.pending, ∃ q, s.requestOf p.2 = some q ∧ q.id = p.1
  closed : s.link = .closed → s.holders = []

theorem lt_of_requestOf {s : State} {k : Nat} {q : Proto.Request} (h : s.requestOf k = some q) :
    k < s.calls.length := by
  rw [State.requestOf, Option.map_eq_some_iff] at h
  obtain ⟨c, hc, -⟩ := h
  exact (List.getElem?_eq_some_iff.mp hc).1

theorem lt_of_phaseOf {s : State} {k : Nat} {p : Phase} (h : s.phaseOf k = some p) :
    k < s.calls.length := by
  rw [State.phaseOf, Option.map_eq_some_iff] at h
  obtain ⟨c, hc, -⟩ := h
  exact (List.getElem?_eq_some_iff.mp hc).1

namespace State
variable (s : State) (k : Nat) (ks : List Nat) (phase : Phase)

@[simp] theorem length_setPhase : (s.setPhase k phase).calls.length = s.calls.length := by
  simp [setPhase]

@[simp] theorem length_abandon : (s.abandon ks).calls.length = s.calls.length := by
  simp [abandon]

end State

variable {daemon : Daemon} {s s' : State} {a : Action}

/-- Only a new call changes what the calls have asked. -/
theorem Move.asked (move : Move daemon s a s') :
    (∃ method params, a = .call method params ∧ s' = s.draw method params) ∨
    (s'.nextId = s.nextId ∧ s'.calls.length = s.calls.length ∧
      ∀ k, s'.requestOf k = s.requestOf k) := by
  cases move with
  | call method params => exact .inl ⟨method, params, rfl, rfl⟩
  | refused => exact .inr ⟨rfl, by simp, by simp⟩
  | late => exact .inr ⟨rfl, by simp, by simp⟩
  | taken => exact .inr ⟨rfl, by simp, by simp⟩
  | queued => exact .inr ⟨rfl, s.length_setPhase _ _, fun k => s.requestOf_setPhase k _ _⟩
  | lost =>
    exact .inr ⟨rfl, State.length_abandon _ _, fun k => State.requestOf_abandon _ k _⟩
  | forwarded =>
    exact .inr ⟨rfl, State.length_abandon _ _, fun k => State.requestOf_abandon _ k _⟩
  | dropped => exact .inr ⟨rfl, State.length_abandon _ _, fun k => State.requestOf_abandon _ k _⟩
  | replied =>
    exact .inr ⟨rfl, State.length_setPhase _ _ _, fun j => State.requestOf_setPhase _ j _ _⟩
  | closed => exact .inr ⟨rfl, s.length_abandon _, fun k => s.requestOf_abandon k _⟩
  | _ => exact .inr ⟨rfl, rfl, fun _ => rfl⟩

theorem Numbered.move (h : Numbered s) (move : Move daemon s a s') : Numbered s' := by
  rcases move.asked with ⟨method, params, -, rfl⟩ | ⟨hnext, hlength, hasked⟩
  · refine ⟨?_, ?_⟩
    · simp [State.draw, h.next, idOf, BitVec.ofNat_add, BitVec.add_assoc]
    · intro k q hq
      rw [State.requestOf_draw] at hq
      split at hq
      · next hk =>
        obtain rfl := Option.some.inj hq
        rw [hk]
        exact h.next
      · exact h.ids hq
  · exact ⟨by rw [hnext, hlength, h.next], fun hq => h.ids ((hasked _).symm.trans hq)⟩

namespace Held

theorem snd_inj (h : Held s) {p q : BitVec 64 × Nat} (hp : p ∈ s.pending) (hq : q ∈ s.pending)
    (hk : p.2 = q.2) : p = q :=
  List.inj_on_of_nodup_map (List.nodup_append.mp h.nodup).2.1 hp hq hk

/-- The call under an id is the one that drew it. -/
theorem snd_eq (h : Held s) (numbered : Numbered s) (room : Roomy s) {p : BitVec 64 × Nat}
    (hp : p ∈ s.pending) {k : Nat} {q : Proto.Request} (hq : s.requestOf k = some q)
    (hid : p.1 = q.id) : p.2 = k := by
  obtain ⟨q', hq', hid'⟩ := h.keys p hp
  have hlt := lt_of_requestOf hq
  have hlt' := lt_of_requestOf hq'
  rw [Roomy] at room
  refine idOf_inj (by omega) (by omega) ?_
  rw [← numbered.ids hq, ← numbered.ids hq', hid', hid]

theorem not_mem_queue (h : Held s) {p : BitVec 64 × Nat} (hp : p ∈ s.pending) : p.2 ∉ s.queue :=
  fun hq => List.disjoint_of_nodup_append h.nodup hq (List.mem_map_of_mem hp)

theorem not_mem (h : Held s) {k : Nat} {phase : Phase} (hphase : s.phaseOf k = some phase)
    (hne : phase ≠ .waiting) : k ∉ s.holders := by
  intro hk
  rw [h.waiting, hphase, Option.some.injEq] at hk
  exact hne hk

/-- A call that nobody is to answer goes on to a phase in which it does not wait. -/
theorem setPhase (h : Held s) {k : Nat} (hk : k ∉ s.holders) {phase : Phase}
    (hne : phase ≠ .waiting) : Held (s.setPhase k phase) := by
  refine ⟨h.nodup, fun j => ?_, fun p hp => ?_, h.closed⟩
  · rw [State.phaseOf_setPhase]
    by_cases hj : j = k
    · subst hj
      rw [if_pos rfl]
      refine iff_of_false hk ?_
      cases s.phaseOf j <;> simp [hne]
    · rw [if_neg hj]
      exact h.waiting j
  · rw [State.requestOf_setPhase]
    exact h.keys p hp

theorem close (h : Held s) : Held s.close := by
  refine ⟨List.nodup_nil, fun j => ?_, fun p hp => absurd hp (List.not_mem_nil), fun _ => rfl⟩
  have hphase : s.close.phaseOf j = (s.abandon s.holders).phaseOf j := rfl
  refine iff_of_false List.not_mem_nil ?_
  rw [hphase, State.phaseOf_abandon]
  split
  · cases s.phaseOf j <;> simp
  · next hj => rwa [← h.waiting]

theorem queued (h : Held s) {k : Nat} (sending : s.phaseOf k = some .sending)
    (hopen : s.link ≠ .closed) : Held { s.setPhase k .waiting with queue := s.queue ++ [k] } := by
  have hk := h.not_mem sending (by simp)
  have hperm : (s.queue ++ [k] ++ s.pending.map Prod.snd).Perm (k :: s.holders) := by
    rw [List.append_assoc, List.singleton_append]
    exact List.perm_middle
  refine ⟨hperm.nodup_iff.mpr (List.nodup_cons.mpr ⟨hk, h.nodup⟩), fun j => ?_, fun p hp => ?_,
    fun hclosed => absurd hclosed hopen⟩
  · have hphase : { s.setPhase k .waiting with queue := s.queue ++ [k] }.phaseOf j =
        (s.setPhase k .waiting).phaseOf j := rfl
    rw [hphase, State.phaseOf_setPhase]
    refine hperm.mem_iff.trans ?_
    rw [List.mem_cons, h.waiting]
    by_cases hj : j = k
    · subst hj
      simp [sending]
    · simp [hj]
  · obtain ⟨q, hq, hid⟩ := h.keys p hp
    exact ⟨q, (s.requestOf_setPhase _ _ _).trans hq, hid⟩

/-- No sender is there under the id of a request that is forwarded. -/
theorem await_eq (h : Held s) (numbered : Numbered s) (room : Roomy s) {k : Nat}
    {queue : List Nat} {request : Proto.Request} (head : s.queue = k :: queue)
    (asked : s.requestOf k = some request) (sent : Sent) :
    (({ s with queue := queue }.transmit sent request).await request.id k) =
      { s with
        queue := queue
        toDaemon := s.toDaemon ++ sent.arriving request
        pending := (request.id, k) :: s.pending } := by
  have hfresh : ∀ p ∈ s.pending, p.1 ≠ request.id := by
    intro p hp hid
    have hk := h.snd_eq numbered room hp asked hid
    exact h.not_mem_queue hp (by rw [head, hk]; exact List.mem_cons_self ..)
  have hold : s.pending.filter (·.1 = request.id) = [] := by
    simpa [List.filter_eq_nil_iff] using hfresh
  have hkeep : s.pending.filter (·.1 ≠ request.id) = s.pending := by
    simpa [List.filter_eq_self] using hfresh
  simp only [State.await, State.transmit, hold, hkeep, List.map_nil, abandon_nil]

theorem forwarded (h : Held s) (numbered : Numbered s) (room : Roomy s) {k : Nat}
    {queue : List Nat} {request : Proto.Request} (serving : s.link = .serving)
    (head : s.queue = k :: queue) (asked : s.requestOf k = some request) (sent : Sent) :
    Held (({ s with queue := queue }.transmit sent request).await request.id k) := by
  have hperm : (queue ++ k :: s.pending.map Prod.snd).Perm s.holders := by
    rw [State.holders, head, List.cons_append]
    exact List.perm_middle
  rw [h.await_eq numbered room head asked sent]
  refine ⟨hperm.nodup_iff.mpr h.nodup, fun j => hperm.mem_iff.trans (h.waiting j), fun p hp => ?_,
    fun hclosed => ?_⟩
  · rcases List.mem_cons.mp hp with rfl | hp
    · exact ⟨request, asked, rfl⟩
    · exact h.keys p hp
  · rw [show s.link = .closed from hclosed] at serving
    cases serving

theorem dropped (h : Held s) {k : Nat} {queue : List Nat} {request : Proto.Request}
    (serving : s.link = .serving) (head : s.queue = k :: queue) (sent : Sent) :
    Held (({ s with queue := queue }.transmit sent request).abandon [k]) := by
  have hholders : s.holders = k :: (queue ++ s.pending.map Prod.snd) := by
    rw [State.holders, head, List.cons_append]
  have hnodup := h.nodup
  rw [hholders, List.nodup_cons] at hnodup
  refine ⟨hnodup.2, fun j => ?_, fun p hp => ?_, fun hclosed => ?_⟩
  · have hphase := s.phaseOf_abandon j [k]
    have hj := h.waiting j
    rw [hholders, List.mem_cons] at hj
    change j ∈ queue ++ s.pending.map Prod.snd ↔ (s.abandon [k]).phaseOf j = some .waiting
    rw [hphase]
    by_cases hjk : j = k
    · subst hjk
      rw [if_pos (List.mem_singleton_self j)]
      refine iff_of_false hnodup.1 ?_
      cases s.phaseOf j <;> simp
    · rw [if_neg (by simpa using hjk), ← hj]
      simp [hjk]
  · obtain ⟨q, hq, hid⟩ := h.keys p hp
    exact ⟨q, (State.requestOf_abandon _ _ _).trans hq, hid⟩
  · rw [show s.link = .closed from hclosed] at serving
    cases serving

theorem replied (h : Held s) (numbered : Numbered s) (room : Roomy s) {id i : BitVec 64} {k : Nat}
    (serving : s.link = .serving) (found : s.pending.find? (·.1 = id) = some (i, k))
    (result : Except Text.Str Proto.Response) (toUi : List Letter) :
    Held { ({ s with toUi := toUi }.setPhase k (.done result)) with
      pending := s.pending.filter (·.1 ≠ id) } := by
  have hmem := List.mem_of_find?_eq_some found
  have hid : i = id := by simpa using List.find?_some found
  obtain ⟨q, hq, hqid⟩ := h.keys _ hmem
  have hother : ∀ p ∈ s.pending, p.1 ≠ id ↔ p.2 ≠ k := by
    intro p hp
    refine not_congr ⟨fun hpid => ?_, fun hpk => ?_⟩
    · exact h.snd_eq numbered room hp hq (hpid.trans (hid.symm.trans hqid.symm))
    · rw [h.snd_inj hp hmem hpk, hid]
  have hholders : ∀ j, j ∈ s.queue ++ (s.pending.filter (·.1 ≠ id)).map Prod.snd ↔
      j ∈ s.holders ∧ j ≠ k := by
    intro j
    have hqueue : j ∈ s.queue → j ≠ k := by
      rintro hj rfl
      exact h.not_mem_queue hmem hj
    simp only [State.holders, List.mem_append, List.mem_map, List.mem_filter, decide_eq_true_eq]
    constructor
    · rintro (hj | ⟨p, ⟨hp, hpid⟩, rfl⟩)
      · exact ⟨.inl hj, hqueue hj⟩
      · exact ⟨.inr ⟨p, hp, rfl⟩, (hother p hp).mp hpid⟩
    · rintro ⟨hj | ⟨p, hp, rfl⟩, hjk⟩
      · exact .inl hj
      · exact .inr ⟨p, ⟨hp, (hother p hp).mpr hjk⟩, rfl⟩
  have hsub : (s.queue ++ (s.pending.filter (·.1 ≠ id)).map Prod.snd).Sublist s.holders :=
    (List.Sublist.refl _).append (List.filter_sublist.map _)
  refine ⟨hsub.nodup h.nodup, fun j => (hholders j).trans ?_, fun p hp => ?_, fun hclosed => ?_⟩
  · have hphase := s.phaseOf_setPhase j k (.done result)
    change _ ↔ (s.setPhase k (.done result)).phaseOf j = some .waiting
    rw [hphase, h.waiting]
    by_cases hj : j = k
    · subst hj
      cases s.phaseOf j <;> simp
    · simp [hj]
  · obtain ⟨q, hq, hid⟩ := h.keys p (List.mem_of_mem_filter hp)
    exact ⟨q, (s.requestOf_setPhase _ _ _).trans hq, hid⟩
  · rw [show s.link = .closed from hclosed] at serving
    cases serving

theorem move (h : Held s) (numbered : Numbered s) (room : Roomy s)
    (move : Move daemon s a s') : Held s' := by
  cases move with
  | call method params =>
    have hnew : s.calls.length ∉ s.holders := by
      intro hk
      have hlt := lt_of_phaseOf ((h.waiting _).mp hk)
      exact lt_irrefl _ hlt
    refine ⟨h.nodup, fun j => ?_, fun p hp => ?_, h.closed⟩
    · rw [State.phaseOf_draw]
      split
      · next hj => exact iff_of_false (hj ▸ hnew) (by simp)
      · exact h.waiting j
    · obtain ⟨q, hq, hid⟩ := h.keys p hp
      refine ⟨q, ?_, hid⟩
      rw [State.requestOf_draw, if_neg (lt_of_requestOf hq).ne]
      exact hq
  | refused drawn => exact h.setPhase (h.not_mem drawn (by simp)) (by simp)
  | late sending => exact h.setPhase (h.not_mem sending (by simp)) (by simp)
  | taken drawn => exact h.setPhase (h.not_mem drawn (by simp)) (by simp)
  | queued sending hopen => exact h.queued sending hopen
  | connected => exact ⟨h.nodup, h.waiting, h.keys, fun hclosed => by cases hclosed⟩
  | greeted greeting =>
    refine ⟨h.nodup, h.waiting, h.keys, fun hclosed => ?_⟩
    dsimp only at hclosed
    split at hclosed <;> cases hclosed
  | lost greeting fails =>
    rename_i n sent
    have hsent : Held (s.transmit sent (hello n)) := ⟨h.nodup, h.waiting, h.keys, h.closed⟩
    exact hsent.close
  | forwarded serving head asked => exact h.forwarded numbered room serving head asked .ok
  | dropped serving head => exact h.dropped serving head _
  | replied serving head reply found => exact h.replied numbered room serving found _ _
  | closed => exact h.close
  | _ => exact ⟨h.nodup, h.waiting, h.keys, h.closed⟩

end Held

/-- The requests that have come to the daemon or are on their way to it, in their order. -/
def State.requests (s : State) : List Proto.Request :=
  s.served.map Prod.fst ++ (s.serving.toList ++ s.toDaemon)

/-- The call has given its request away. -/
structure Gone (s : State) (k : Nat) : Prop where
  queue : k ∉ s.queue
  drawn : s.phaseOf k ≠ some .drawn
  sending : s.phaseOf k ≠ some .sending

theorem Gone.setPhase {j k : Nat} (h : Gone s j)
    (start : s.phaseOf k = some .drawn ∨ s.phaseOf k = some .sending) (phase : Phase)
    {queue : List Nat} (hqueue : ∀ i ∈ queue, i ∈ s.queue ∨ i = k) :
    Gone { s.setPhase k phase with queue := queue } j := by
  have hj : j ≠ k := by
    rintro rfl
    rcases start with start | start
    · exact h.drawn start
    · exact h.sending start
  have hphase : { s.setPhase k phase with queue := queue }.phaseOf j = s.phaseOf j := by
    change (s.setPhase k phase).phaseOf j = _
    rw [State.phaseOf_setPhase, if_neg hj]
  refine ⟨fun hmem => ?_, by rw [hphase]; exact h.drawn, by rw [hphase]; exact h.sending⟩
  rcases hqueue j hmem with hq | hk
  · exact h.queue hq
  · exact hj hk

theorem Gone.of_phase {j : Nat} (h : Gone s j) (hqueue : ∀ i ∈ s'.queue, i ∈ s.queue)
    (hphase : s'.phaseOf j = s.phaseOf j ∨ ∃ result, s'.phaseOf j = some (.done result)) :
    Gone s' j := by
  rcases hphase with hphase | ⟨result, hphase⟩
  · exact ⟨fun hj => h.queue (hqueue j hj), by rw [hphase]; exact h.drawn,
      by rw [hphase]; exact h.sending⟩
  · exact ⟨fun hj => h.queue (hqueue j hj), by simp [hphase], by simp [hphase]⟩

/-- Dropping senders changes a phase to the end of the call, or not at all. -/
theorem phaseOf_abandon_or (s : State) {ks : List Nat} {j : Nat} {q : Proto.Request}
    (hq : s.requestOf j = some q) :
    (s.abandon ks).phaseOf j = s.phaseOf j ∨
      ∃ result, (s.abandon ks).phaseOf j = some (.done result) := by
  rw [State.phaseOf_abandon]
  split
  · obtain ⟨c, hc, -⟩ := Option.map_eq_some_iff.mp hq
    exact .inr ⟨.error disconnected, by simp [State.phaseOf, hc]⟩
  · exact .inl rfl

theorem Gone.move {j : Nat} {q : Proto.Request} (h : Gone s j) (hq : s.requestOf j = some q)
    (move : Move daemon s a s') : Gone s' j := by
  cases move with
  | call method params =>
    refine h.of_phase (fun _ hi => hi) (.inl ?_)
    rw [State.phaseOf_draw, if_neg (lt_of_requestOf hq).ne]
  | refused drawn => exact h.setPhase (.inl drawn) _ fun _ hi => .inl hi
  | late sending => exact h.setPhase (.inr sending) _ fun _ hi => .inl hi
  | taken drawn => exact h.setPhase (.inl drawn) _ fun _ hi => .inl hi
  | queued sending => exact h.setPhase (.inr sending) _ fun i hi => by simpa using hi
  | lost => exact h.of_phase (fun _ hi => absurd hi List.not_mem_nil) (phaseOf_abandon_or _ hq)
  | forwarded serving head =>
    refine h.of_phase (fun i hi => ?_) (phaseOf_abandon_or s hq)
    rw [head]
    exact List.mem_cons_of_mem _ hi
  | dropped serving head =>
    refine h.of_phase (fun i hi => ?_) (phaseOf_abandon_or s hq)
    rw [head]
    exact List.mem_cons_of_mem _ hi
  | replied serving head reply found =>
    rename_i l rest r i k
    refine h.of_phase (fun _ hi => hi) ?_
    change (s.setPhase k (.done (.ok r))).phaseOf j = _ ∨ ∃ result,
      (s.setPhase k (.done (.ok r))).phaseOf j = _
    rw [State.phaseOf_setPhase]
    split
    · next hj =>
      obtain ⟨c, hc, -⟩ := Option.map_eq_some_iff.mp hq
      exact .inr ⟨.ok r, by simp [State.phaseOf, ← hj, hc]⟩
    · exact .inl rfl
  | closed => exact h.of_phase (fun _ hi => absurd hi List.not_mem_nil) (phaseOf_abandon_or s hq)
  | _ => exact h.of_phase (fun _ hi => hi) (.inl rfl)

/-- The requests of the beginning that have been sent. -/
def Greeted : Link → Nat → Prop
  | .connecting, _ => False
  | .greeting sent, n => n < sent
  | _, _ => True

theorem Greeted.move {n : Nat} (h : Greeted s.link n) (move : Move daemon s a s') :
    Greeted s'.link n := by
  cases move with
  | connected start =>
    rw [start] at h
    exact h.elim
  | greeted greeting =>
    rename_i m
    rw [greeting] at h
    cases m with
    | zero => exact absurd h (Nat.not_lt_zero n)
    | succ m => trivial
  | lost => trivial
  | closed => trivial
  | _ => exact h

theorem Move.requestOf (move : Move daemon s a s') {k : Nat} {q : Proto.Request}
    (hq : s.requestOf k = some q) : s'.requestOf k = some q := by
  rcases move.asked with ⟨method, params, -, rfl⟩ | ⟨-, -, hasked⟩
  · rw [State.requestOf_draw, if_neg (lt_of_requestOf hq).ne]
    exact hq
  · exact (hasked k).trans hq

structure Once (s : State) : Prop where
  nodup : (s.requests.map (·.id)).Nodup
  origin : ∀ q ∈ s.requests, (∃ n, q = hello n ∧ Greeted s.link n) ∨
    ∃ k, s.requestOf k = some q ∧ Gone s k
  early : ∀ n, s.link = .greeting n → n ≤ 1

namespace Once

/-- What is sent is asked for the first time. -/
theorem extend (h : Once s) (move : Move daemon s a s') {new : List Proto.Request}
    (hrequests : s'.requests = s.requests ++ new) (hnew : (new.map (·.id)).Nodup)
    (fresh : ∀ q ∈ new, ∀ q' ∈ s.requests, q'.id ≠ q.id)
    (horigin : ∀ q ∈ new, (∃ n, q = hello n ∧ Greeted s'.link n) ∨
      ∃ k, s'.requestOf k = some q ∧ Gone s' k)
    (hearly : ∀ n, s'.link = .greeting n → n ≤ 1) : Once s' := by
  refine ⟨?_, fun q hq => ?_, hearly⟩
  · rw [hrequests, List.map_append, List.nodup_append]
    refine ⟨h.nodup, hnew, fun a ha b hb => ?_⟩
    obtain ⟨q', hq', rfl⟩ := List.mem_map.mp ha
    obtain ⟨q, hq, rfl⟩ := List.mem_map.mp hb
    exact fresh q hq q' hq'
  · rw [hrequests] at hq
    rcases List.mem_append.mp hq with hq | hq
    · rcases h.origin q hq with ⟨n, hn, hgreeted⟩ | ⟨k, hk, gone⟩
      · exact .inl ⟨n, hn, hgreeted.move move⟩
      · exact .inr ⟨k, move.requestOf hk, gone.move hk move⟩
    · exact horigin q hq

theorem keep (h : Once s) (move : Move daemon s a s')
    (hrequests : s'.requests = s.requests) (hearly : ∀ n, s'.link = .greeting n → n ≤ 1) :
    Once s' :=
  h.extend move ((hrequests).trans (List.append_nil _).symm) List.nodup_nil
    (fun _ hq => absurd hq List.not_mem_nil) (fun _ hq => absurd hq List.not_mem_nil) hearly

theorem fresh_hello (h : Once s) (numbered : Numbered s) (room : Roomy s) {n : Nat}
    (greeting : s.link = .greeting n) : ∀ q' ∈ s.requests, q'.id ≠ (hello n).id := by
  intro q' hq' hid
  rcases h.origin q' hq' with ⟨m, rfl, hm⟩ | ⟨k, hk, -⟩
  · rw [greeting] at hm
    have hn := h.early n greeting
    obtain ⟨rfl, rfl⟩ : m = 0 ∧ n = 1 := by
      have hlt : m < n := hm
      omega
    exact absurd hid (by decide)
  · have hlt := lt_of_requestOf hk
    rw [Roomy] at room
    rw [numbered.ids hk] at hid
    exact hello_id_ne_idOf (by omega) hid.symm

theorem fresh_call (h : Once s) (numbered : Numbered s) (room : Roomy s) {k : Nat}
    {request : Proto.Request} (hk : k ∈ s.queue) (asked : s.requestOf k = some request) :
    ∀ q' ∈ s.requests, q'.id ≠ request.id := by
  intro q' hq' hid
  have hlt := lt_of_requestOf asked
  rw [Roomy] at room
  rw [numbered.ids asked] at hid
  rcases h.origin q' hq' with ⟨m, rfl, -⟩ | ⟨j, hj, gone⟩
  · exact hello_id_ne_idOf (by omega) hid
  · have hlt' := lt_of_requestOf hj
    rw [numbered.ids hj] at hid
    have hjk := idOf_inj (by omega) (by omega) hid
    exact gone.queue (hjk ▸ hk)

theorem forall_arriving {P : Proto.Request → Prop} {request : Proto.Request} (h : P request)
    (sent : Sent) : ∀ q ∈ sent.arriving request, P q := by
  intro q hq
  cases sent with
  | lost => exact absurd hq List.not_mem_nil
  | _ =>
    obtain rfl := List.mem_singleton.mp hq
    exact h

theorem nodup_arriving (sent : Sent) (request : Proto.Request) :
    ((sent.arriving request).map (·.id)).Nodup := by
  cases sent with
  | lost => exact List.nodup_nil
  | _ => exact List.nodup_singleton _

theorem append_requests (s : State) (new : List Proto.Request) :
    s.served.map Prod.fst ++ (s.serving.toList ++ (s.toDaemon ++ new)) = s.requests ++ new := by
  simp only [State.requests, List.append_assoc]

theorem move (h : Once s) (held : Held s) (numbered : Numbered s) (room : Roomy s)
    (move : Move daemon s a s') : Once s' := by
  have hmove := move
  have hkeep := h.keep move
  cases move with
  | connected =>
    refine hkeep rfl fun n hn => ?_
    cases hn
    exact Nat.zero_le 1
  | greeted greeting =>
    rename_i n
    have hgreeted : Greeted (if n = 0 then .greeting 1 else .serving) n := by
      split
      · next hn => simp [hn, Greeted]
      · trivial
    refine h.extend hmove (append_requests s _) (nodup_arriving .ok _)
      (forall_arriving (h.fresh_hello numbered room greeting) .ok)
      (forall_arriving (.inl ⟨n, rfl, hgreeted⟩) .ok) fun m hm => ?_
    dsimp only at hm
    split at hm
    · cases hm
      exact le_rfl
    · cases hm
  | lost greeting fails =>
    rename_i n sent
    exact h.extend hmove (append_requests s _) (nodup_arriving sent _)
      (forall_arriving (h.fresh_hello numbered room greeting) sent)
      (forall_arriving (.inl ⟨n, rfl, trivial⟩) sent) fun m hm => by cases hm
  | forwarded serving head asked =>
    rename_i k queue request
    have hk : k ∈ s.queue := by
      rw [head]
      exact List.mem_cons_self ..
    have gone : Gone (({ s with queue := queue }.transmit .ok request).await request.id k) k := by
      have hheld := held.forwarded numbered room serving head asked .ok
      have hwaiting := (hheld.waiting k).mp (by simp [State.holders, State.await])
      have hnodup := hheld.nodup
      refine ⟨fun hq => ?_, by simp [hwaiting], by simp [hwaiting]⟩
      exact List.disjoint_of_nodup_append hnodup hq (by simp [State.await])
    exact h.extend hmove (append_requests s _) (nodup_arriving .ok _)
      (forall_arriving (h.fresh_call numbered room hk asked) .ok)
      (forall_arriving (.inr ⟨k, hmove.requestOf asked, gone⟩) .ok) h.early
  | dropped serving head asked fails =>
    rename_i k queue request sent
    have hk : k ∈ s.queue := by
      rw [head]
      exact List.mem_cons_self ..
    have gone : Gone (({ s with queue := queue }.transmit sent request).abandon [k]) k := by
      have hnodup := held.nodup
      rw [State.holders, head, List.cons_append, List.nodup_cons] at hnodup
      obtain ⟨c, hc, -⟩ := Option.map_eq_some_iff.mp asked
      have hphase : (({ s with queue := queue }.transmit sent request).abandon [k]).phaseOf k =
          some (.done (.error disconnected)) := by
        rw [State.phaseOf_abandon, if_pos (List.mem_singleton_self k)]
        simp [State.phaseOf, State.transmit, hc]
      refine ⟨fun hq => hnodup.1 (List.mem_append_left _ hq), by simp [hphase], by simp [hphase]⟩
    exact h.extend hmove (append_requests s _) (nodup_arriving sent _)
      (forall_arriving (h.fresh_call numbered room hk asked) sent)
      (forall_arriving (.inr ⟨k, hmove.requestOf asked, gone⟩) sent) h.early
  | closed => exact hkeep rfl fun n hn => by cases hn
  | accepted idle head =>
    exact hkeep (by simp [State.requests, idle, head]) h.early
  | answered busy =>
    refine hkeep ?_ h.early
    simp [State.requests, State.write, busy]
  | _ => exact hkeep rfl h.early

end Once

def responses (ls : List Letter) : List Proto.Response :=
  ls.filterMap fun l => match l.content with
    | .response r => some r
    | .event _ => none

/-- The ids of the requests whose answer has not been read. -/
def State.outstanding (s : State) : List (BitVec 64) :=
  (responses s.toUi).map (·.id) ++ (s.serving.toList ++ s.toDaemon).map (·.id)

/-- The daemon gives this answer, in some surroundings and with some settings. -/
def Answers (daemon : Daemon) (q : Proto.Request) (r : Proto.Response) : Prop :=
  ∃ around disk, r = (Handlers.dispatchRequest daemon around q disk).response

@[simp] theorem responses_append (ls ls' : List Letter) :
    responses (ls ++ ls') = responses ls ++ responses ls' := List.filterMap_append

theorem responses_write_response (r : Proto.Response) :
    responses (s.write (.response r)).toUi = responses s.toUi ++ [r] := by
  simp [State.write, responses]

theorem responses_write_event (e : Proto.Event.Payload) :
    responses (s.write (.event e)).toUi = responses s.toUi := by
  simp [State.write, responses]

theorem mem_responses_tail {l : Letter} {rest : List Letter} {r : Proto.Response}
    (hr : r ∈ responses rest) : r ∈ responses (l :: rest) := by
  rw [← List.singleton_append, responses_append]
  exact List.mem_append_right _ hr

structure Answered (daemon : Daemon) (s : State) : Prop where
  due : ∀ p ∈ s.pending, p.1 ∈ s.outstanding
  reply : ∀ r ∈ responses s.toUi, ∃ q, (q, r) ∈ s.served
  truth : ∀ p ∈ s.served, Answers daemon p.1 p.2
  done : ∀ {k r}, s.phaseOf k = some (.done (.ok r)) → ∃ q, s.requestOf k = some q ∧ (q, r) ∈ s.served

/-- A call ends well only by reading a response to it. -/
theorem Move.done_ok (move : Move daemon s a s') {k : Nat} {r : Proto.Response}
    (hdone : s'.phaseOf k = some (.done (.ok r))) :
    s.phaseOf k = some (.done (.ok r)) ∨
      ∃ l rest i, s.toUi = l :: rest ∧ l.content = .response r ∧
        s.pending.find? (·.1 = r.id) = some (i, k) := by
  have habandon : ∀ ks, (s.abandon ks).phaseOf k = some (.done (.ok r)) →
      s.phaseOf k = some (.done (.ok r)) := by
    intro ks h
    rw [State.phaseOf_abandon] at h
    split at h
    · cases hk : s.phaseOf k <;> simp [hk] at h
    · exact h
  have hset : ∀ j phase, phase ≠ .done (.ok r) → (s.setPhase j phase).phaseOf k =
      some (.done (.ok r)) → s.phaseOf k = some (.done (.ok r)) := by
    intro j phase hne h
    rw [State.phaseOf_setPhase] at h
    split at h
    · cases s.phaseOf k <;> simp [hne] at h
    · exact h
  cases move with
  | call method params =>
    rw [State.phaseOf_draw] at hdone
    split at hdone
    · cases hdone
    · exact .inl hdone
  | refused => exact .inl (hset _ _ (by simp) hdone)
  | late => exact .inl (hset _ _ (by simp) hdone)
  | taken => exact .inl (hset _ _ (by simp) hdone)
  | queued => exact .inl (hset _ .waiting (by simp) hdone)
  | lost => exact .inl (habandon _ hdone)
  | forwarded => exact .inl (habandon _ hdone)
  | dropped => exact .inl (habandon _ hdone)
  | closed => exact .inl (habandon _ hdone)
  | replied serving head reply found =>
    rename_i l rest r' i j
    change (s.setPhase j (.done (.ok r'))).phaseOf k = _ at hdone
    by_cases hr : r' = r
    · subst hr
      rw [State.phaseOf_setPhase] at hdone
      split at hdone
      · next hk => exact .inr ⟨l, rest, i, head, reply, hk ▸ found⟩
      · exact .inl hdone
    · exact .inl (hset _ _ (by simp [hr]) hdone)
  | _ => exact .inl hdone

namespace Answered

/-- Nothing is answered twice, so the answer under the id of a call is the one to its request. -/
theorem own (h : Answered daemon s) (once : Once s) (held : Held s) (numbered : Numbered s)
    (room : Roomy s) {l : Letter} {rest : List Letter} {r : Proto.Response} {i : BitVec 64} {k : Nat}
    (head : s.toUi = l :: rest) (hl : l.content = .response r)
    (found : s.pending.find? (·.1 = r.id) = some (i, k)) :
    ∃ q, s.requestOf k = some q ∧ (q, r) ∈ s.served := by
  have hmem := List.mem_of_find?_eq_some found
  have hid : i = r.id := by simpa using List.find?_some found
  obtain ⟨q, hq, hqid⟩ := held.keys _ hmem
  have hr : r ∈ responses s.toUi := by simp [head, responses, hl]
  obtain ⟨q', hserved⟩ := h.reply r hr
  have hid' : r.id = q'.id := by
    obtain ⟨around, disk, hanswer⟩ : Answers daemon q' r := h.truth _ hserved
    rw [hanswer]
    exact Handlers.dispatchRequest_id
  have hrequests : q' ∈ s.requests :=
    List.mem_append_left _ (List.mem_map_of_mem hserved)
  have hlt := lt_of_requestOf hq
  rw [Roomy] at room
  have hk : q'.id = idOf k :=
    hid'.symm.trans (hid.symm.trans (hqid.symm.trans (numbered.ids hq)))
  rcases once.origin q' hrequests with ⟨n, rfl, -⟩ | ⟨j, hj, -⟩
  · exact absurd hk (hello_id_ne_idOf (by omega))
  · have hlt' := lt_of_requestOf hj
    have hjk : j = k := idOf_inj (by omega) (by omega) ((numbered.ids hj).symm.trans hk)
    exact ⟨q', hjk ▸ hj, hserved⟩

/-- What is pending after a step is still due. -/
theorem due_move (h : Answered daemon s) (move : Move daemon s a s') :
    ∀ p ∈ s'.pending, p.1 ∈ s'.outstanding := by
  have hsent : ∀ new, ∀ p ∈ s.pending, p.1 ∈ (responses s.toUi).map (·.id) ++
      (s.serving.toList ++ (s.toDaemon ++ new)).map (·.id) := by
    intro new p hp
    have hdue := h.due p hp
    simp only [State.outstanding, List.map_append, List.mem_append] at hdue ⊢
    tauto
  have hread : ∀ {l rest}, s.toUi = l :: rest → ∀ p ∈ s.pending,
      (∀ r, l.content = .response r → p.1 ≠ r.id) →
      p.1 ∈ (responses rest).map (·.id) ++ (s.serving.toList ++ s.toDaemon).map (·.id) := by
    intro l rest head p hp hother
    have hdue := h.due p hp
    rw [State.outstanding, head, responses, List.filterMap_cons] at hdue
    cases hl : l.content with
    | response r =>
      rw [hl, List.map_cons, List.cons_append, List.mem_cons] at hdue
      exact hdue.resolve_left (hother r hl)
    | event e =>
      rw [hl] at hdue
      exact hdue
  cases move with
  | greeted => exact hsent _
  | lost => exact fun p hp => absurd hp List.not_mem_nil
  | closed => exact fun p hp => absurd hp List.not_mem_nil
  | forwarded serving head asked =>
    intro p hp
    rcases List.mem_cons.mp hp with rfl | hp
    · simp [State.outstanding, State.await, State.abandon, State.transmit, Sent.arriving]
    · exact hsent _ p (List.mem_of_mem_filter hp)
  | dropped => exact hsent _
  | replied serving head reply found =>
    intro p hp
    obtain ⟨hp, hid⟩ := List.mem_filter.mp hp
    refine hread head p hp fun r' hr' => ?_
    rw [reply] at hr'
    cases hr'
    simpa using hid
  | heard serving head other =>
    intro p hp
    refine hread head p hp fun r hr => ?_
    have hfind := other r hr
    rw [List.find?_eq_none] at hfind
    simpa using hfind p hp
  | accepted idle head =>
    intro p hp
    have hdue := h.due p hp
    simpa [State.outstanding, idle, head] using hdue
  | answered busy given around merged =>
    rename_i request
    intro p hp
    have hdue := h.due p hp
    have hid : (Handlers.dispatchRequest daemon around request s.disk).response.id = request.id :=
      Handlers.dispatchRequest_id
    simp only [State.outstanding, busy] at hdue ⊢
    rw [responses_write_response]
    simp only [List.map_append, List.mem_append, Option.toList_some, Option.toList_none,
      List.map_cons, List.map_nil, List.nil_append, List.mem_singleton, hid] at hdue ⊢
    rw [or_assoc]
    exact hdue
  | notified =>
    intro p hp
    have hdue := h.due p hp
    rw [State.outstanding] at hdue ⊢
    rw [← responses_write_event (.deviceUpdated ⟨s.merged.value⟩)] at hdue
    exact hdue
  | told =>
    intro p hp
    have hdue := h.due p hp
    rw [State.outstanding] at hdue ⊢
    rw [responses_write_event]
    exact hdue
  | _ => exact h.due

/-- What the daemon has answered it has answered. -/
theorem served_move (move : Move daemon s a s') {p : Proto.Request × Proto.Response}
    (hp : p ∈ s.served) : p ∈ s'.served := by
  cases move with
  | answered => exact List.mem_append_left _ hp
  | _ => exact hp

theorem move (h : Answered daemon s) (once : Once s) (held : Held s) (numbered : Numbered s)
    (room : Roomy s) (move : Move daemon s a s') : Answered daemon s' := by
  have hold : ∀ r ∈ responses s.toUi, ∃ q, (q, r) ∈ s'.served := by
    intro r hr
    obtain ⟨q, hq⟩ := h.reply r hr
    exact ⟨q, served_move move hq⟩
  refine ⟨h.due_move move, ?_, ?_, fun hdone => ?_⟩
  · cases move with
    | replied serving head =>
      intro r hr
      refine h.reply r ?_
      rw [head]
      exact mem_responses_tail hr
    | heard serving head =>
      intro r hr
      refine h.reply r ?_
      rw [head]
      exact mem_responses_tail hr
    | answered busy given around merged =>
      rename_i request
      intro r hr
      have hr' := (responses_write_response (s := s) _) ▸ hr
      rcases List.mem_append.mp hr' with hr' | hr'
      · exact hold r hr'
      · refine ⟨request, List.mem_append_right _ ?_⟩
        rw [List.mem_singleton.mp hr']
        exact List.mem_singleton_self _
    | notified => exact fun r hr => hold r ((responses_write_event (s := s) _) ▸ hr)
    | told => exact fun r hr => hold r ((responses_write_event (s := s) _) ▸ hr)
    | _ => exact hold
  · cases move with
    | answered busy _ around =>
      intro p hp
      rcases List.mem_append.mp hp with hp | hp
      · exact h.truth p hp
      · obtain rfl := List.mem_singleton.mp hp
        exact ⟨around, s.disk, rfl⟩
    | _ => exact h.truth
  · obtain ⟨q, hq, hserved⟩ : ∃ q, s.requestOf _ = some q ∧ (q, _) ∈ s.served := by
      rcases move.done_ok hdone with hdone | ⟨l, rest, i, head, hl, found⟩
      · exact h.done hdone
      · exact h.own once held numbered room head hl found
    exact ⟨q, move.requestOf hq, served_move move hserved⟩

end Answered

/-- What holds along a run as long as there are ids left. -/
structure Inv (daemon : Daemon) (s : State) : Prop where
  numbered : Numbered s
  held : Held s
  once : Once s
  answered : Answered daemon s

theorem Inv.move (h : Inv daemon s) (room : Roomy s) (move : Move daemon s a s') : Inv daemon s' where
  numbered := h.numbered.move move
  held := h.held.move h.numbered room move
  once := h.once.move h.held h.numbered room move
  answered := h.answered.move h.once h.held h.numbered room move

theorem Inv.step (h : Inv daemon s) (room : Roomy s) (a : Action) : Inv daemon (step daemon s a) := by
  rcases move_of_step s a with ⟨idle, -⟩ | move
  · rwa [idle]
  · exact h.move room move

theorem length_le_step (s : State) (a : Action) :
    s.calls.length ≤ (step daemon s a).calls.length := by
  rcases move_of_step s a with ⟨idle, -⟩ | move
  · rw [idle]
  · rcases move.asked with ⟨method, params, -, h⟩ | ⟨-, h, -⟩
    · rw [h]
      exact (List.sublist_append_left _ _).length_le
    · exact h.ge

variable {published : List (List Proto.Device)} {devices : List Proto.Device} {seen : Nat}
  {disk : Disk} {actions : List Action}

theorem inv_init : Inv daemon (init published devices seen disk) where
  numbered := ⟨rfl, fun h => by cases h⟩
  held := ⟨List.nodup_nil, fun _ => iff_of_false List.not_mem_nil (by simp [State.phaseOf, init]),
    fun _ h => absurd h List.not_mem_nil, fun h => by cases h⟩
  once := ⟨List.nodup_nil, fun _ h => absurd h List.not_mem_nil, fun _ h => by cases h⟩
  answered := ⟨fun _ h => absurd h List.not_mem_nil, fun _ h => absurd h List.not_mem_nil,
    fun _ h => absurd h List.not_mem_nil, fun h => by cases h⟩

theorem roomy_along (room : Roomy (run (step daemon) s actions)) :
    Along (step daemon) (fun s _ => Roomy s) s actions := by
  have hlt : ∀ s : State, Roomy s ↔ s.calls.length < 2 ^ 64 - 2 := fun s => by
    rw [Roomy]
    omega
  simp only [hlt] at room ⊢
  exact along_of_mono length_le_step room

theorem inv_run (room : Roomy (run (step daemon) (init published devices seen disk) actions)) :
    Inv daemon (run (step daemon) (init published devices seen disk) actions) :=
  invariant (fun _ a h room => h.step room a) inv_init (roomy_along room)

/-- As long as there are ids left, a call ends well only with what the daemon answers to its own
request, and the daemon has got no other request under its id, nor got this one twice. -/
theorem call_result (room : Roomy (run (step daemon) (init published devices seen disk) actions))
    {k : Nat} {r : Proto.Response}
    (hdone : (run (step daemon) (init published devices seen disk) actions).phaseOf k =
      some (.done (.ok r))) :
    ∃ q, (run (step daemon) (init published devices seen disk) actions).requestOf k = some q ∧
      Answers daemon q r ∧
      (run (step daemon) (init published devices seen disk) actions).served.filter
        (·.1.id = q.id) = [(q, r)] := by
  have inv := inv_run room
  obtain ⟨q, hq, hserved⟩ := inv.answered.done hdone
  refine ⟨q, hq, inv.answered.truth _ hserved, ?_⟩
  have hnodup : ((run (step daemon) (init published devices seen disk) actions).served.map
      (·.1.id)).Nodup := by
    have h := inv.once.nodup
    rw [State.requests, List.map_append, List.map_map] at h
    exact (List.nodup_append.mp h).1
  exact Keyed.filter_key_eq hnodup hserved

def sampleDaemon : Daemon := ⟨⟨[], []⟩, true, fun _ => none⟩

def sampleAround : Surroundings :=
  ⟨[], [], some "text".toList, true, .dropped, .dropped, .done, none⟩

/-- The connection is made, the text of the clipboard is asked for, and the three requests are
answered. -/
def sampleRun : List Action :=
  [.connect, .greet .ok, .greet .ok, .call "clipboard.get".toList none, .takeSender 0, .enqueue 0,
    .forward .ok, .accept, .answer sampleAround, .accept, .answer sampleAround, .accept,
    .answer sampleAround, .receive, .receive, .receive]

theorem clipboard_call_result :
    ∃ q, (run (step sampleDaemon) (init [] [] 0 ⟨none, false⟩) sampleRun).requestOf 0 = some q ∧
      Answers sampleDaemon q ⟨3, some (.clipboardGet ⟨"text".toList⟩), none⟩ ∧
      (run (step sampleDaemon) (init [] [] 0 ⟨none, false⟩) sampleRun).served.filter
        (·.1.id = q.id) = [(q, ⟨3, some (.clipboardGet ⟨"text".toList⟩), none⟩)] :=
  call_result (by exact (show 1 + 3 ≤ 2 ^ 64 by decide)) rfl

end Kulua.Ipc.Rpc
