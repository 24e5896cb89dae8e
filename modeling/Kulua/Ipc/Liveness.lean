import Kulua.Foundation.Schedule
import Kulua.Ipc.Correlation

/-! Every call that waits comes to its end. The way of a request is through three queues, one behind
the other, and what comes behind it in a queue does not hold it up. -/

namespace Kulua.Ipc.Rpc
open Foundation

/-- There is nothing on its way before the connection has begun. -/
structure Linked (s : State) : Prop where
  connecting : s.link = .connecting → ∀ k, s.phaseOf k ≠ some .sending ∧ s.phaseOf k ≠ some .waiting
  pending : s.pending ≠ [] → s.link = .serving

variable {daemon : Daemon} {s s' : State} {a : Action} {j k : Nat}

theorem Linked.setPhase (h : Linked s) {phase : Phase} (hs : phase ≠ .sending)
    (hw : phase ≠ .waiting) : Linked (s.setPhase j phase) := by
  refine ⟨fun hlink i => ?_, h.pending⟩
  rw [State.phaseOf_setPhase]
  split
  · cases s.phaseOf j with
    | none => simp
    | some p => simp [hs, hw]
  · exact h.connecting hlink i

theorem Linked.move (h : Linked s) (move : Move daemon s a s') : Linked s' := by
  cases move with
  | call method params =>
    refine ⟨fun hlink i => ?_, h.pending⟩
    rw [State.phaseOf_draw]
    split
    · simp
    · exact h.connecting hlink i
  | refused => exact h.setPhase (by simp) (by simp)
  | late => exact h.setPhase (by simp) (by simp)
  | taken drawn started => exact ⟨fun hlink => absurd hlink started, h.pending⟩
  | queued sending => exact ⟨fun hlink => absurd sending (h.connecting hlink _).1, h.pending⟩
  | connected start =>
    refine ⟨fun hlink => (by cases hlink), fun hp => ?_⟩
    have hlink := h.pending hp
    rw [start] at hlink
    cases hlink
  | greeted greeting =>
    refine ⟨fun hlink => ?_, fun hp => ?_⟩
    · dsimp only at hlink
      split at hlink <;> cases hlink
    · have hlink := h.pending hp
      rw [greeting] at hlink
      cases hlink
  | lost => exact ⟨fun hlink => (by cases hlink), fun hp => absurd rfl hp⟩
  | closed => exact ⟨fun hlink => (by cases hlink), fun hp => absurd rfl hp⟩
  | forwarded serving head asked =>
    refine ⟨fun hlink => ?_, fun _ => serving⟩
    rw [show s.link = .connecting from hlink] at serving
    cases serving
  | dropped serving head asked =>
    refine ⟨fun hlink => ?_, fun _ => serving⟩
    rw [show s.link = .connecting from hlink] at serving
    cases serving
  | replied serving =>
    refine ⟨fun hlink => ?_, fun _ => serving⟩
    rw [show s.link = .connecting from hlink] at serving
    cases serving
  | _ => exact ⟨h.connecting, h.pending⟩

/-- What becomes of a call that waits. -/
theorem Move.waiting (move : Move daemon s a s') (held : Held s) (numbered : Numbered s)
    (room : Roomy s) (hk : s.phaseOf k = some .waiting) :
    s'.phaseOf k = some .waiting ∨ (∃ r, s'.phaseOf k = some (.done (.ok r))) ∨
      s'.phaseOf k = some (.done (.error disconnected)) ∧ a.Breaks := by
  have habandon : ∀ ks, (s.abandon ks).phaseOf k = some .waiting ∨
      (s.abandon ks).phaseOf k = some (.done (.error disconnected)) := by
    intro ks
    rw [State.phaseOf_abandon]
    split
    · exact .inr (by simp [hk])
    · exact .inl hk
  have hset : ∀ j phase, s.phaseOf j ≠ some .waiting →
      (s.setPhase j phase).phaseOf k = some .waiting := by
    intro j phase hj
    rw [State.phaseOf_setPhase, if_neg (by rintro rfl; exact hj hk)]
    exact hk
  cases move with
  | call method params => exact .inl (by rwa [State.phaseOf_draw, if_neg (lt_of_phaseOf hk).ne])
  | refused drawn => exact .inl (hset _ _ (by simp [drawn]))
  | taken drawn => exact .inl (hset _ _ (by simp [drawn]))
  | late sending => exact .inl (hset _ _ (by simp [sending]))
  | queued sending => exact .inl (hset _ .waiting (by simp [sending]))
  | lost greeting fails => exact (habandon _).imp_right fun h => .inr ⟨h, fails⟩
  | dropped serving head asked fails => exact (habandon _).imp_right fun h => .inr ⟨h, fails⟩
  | closed => exact (habandon _).imp_right fun h => .inr ⟨h, trivial⟩
  | forwarded serving head asked =>
    rw [held.await_eq numbered room head asked]
    exact .inl hk
  | replied serving head reply found =>
    rename_i l rest r i j
    change (s.setPhase j (.done (.ok r))).phaseOf k = _ ∨ (∃ r', (s.setPhase j
      (.done (.ok r))).phaseOf k = _) ∨ (s.setPhase j (.done (.ok r))).phaseOf k = _ ∧ _
    rw [State.phaseOf_setPhase]
    split
    · next hj => exact .inr (.inl ⟨r, by simp [← hj, hk]⟩)
    · exact .inl hk
  | _ => exact .inl hk

/-- The id of the request that a message answers. -/
def Letter.replyId (l : Letter) : Option (BitVec 64) :=
  match l.content with
  | .response r => some r.id
  | .event _ => none

theorem mem_responses_id {ls : List Letter} {id : BitVec 64} :
    id ∈ (responses ls).map (·.id) ↔ some id ∈ ls.map Letter.replyId := by
  induction ls with
  | nil => simp [responses]
  | cons l ls ih =>
    rw [← List.singleton_append, responses_append, List.map_append, List.map_append,
      List.mem_append, List.mem_append, ih]
    cases h : l.content <;> simp [responses, Letter.replyId, h]

/-- How far the request of a call is from the end of its way: the queue, and the place in it. -/
def place (queue : List Nat) (ids : List (BitVec 64)) (idle : Bool)
    (replies : List (Option (BitVec 64))) (k : Nat) : ℕ ×ₗ ℕ :=
  if k ∈ queue then toLex (2, queue.idxOf k)
  else if idOf k ∈ ids then toLex (1, 2 * ids.idxOf (idOf k) + if idle then 1 else 0)
  else toLex (0, replies.idxOf (some (idOf k)))

/-- The steps that bring a request on which is there. -/
def helpful (r : ℕ ×ₗ ℕ) : Action → Prop
  | .receive => (ofLex r).1 = 0
  | .answer _ => (ofLex r).1 = 1 ∧ (ofLex r).2 % 2 = 0
  | .accept => (ofLex r).1 = 1 ∧ (ofLex r).2 % 2 = 1
  | .forward _ => (ofLex r).1 = 2
  | .greet _ => 3 ≤ (ofLex r).1
  | _ => False

section Place
variable {queue : List Nat} {ids : List (BitVec 64)} {idle : Bool}
  {replies : List (Option (BitVec 64))}

theorem lex_lt {a b c d : ℕ} (h : a < c ∨ a = c ∧ b < d) : toLex (a, b) < toLex (c, d) :=
  Prod.Lex.toLex_lt_toLex.mpr h

theorem place_queue_append (hk : k ≠ j) :
    place (queue ++ [j]) ids idle replies k = place queue ids idle replies k := by
  unfold place
  by_cases hq : k ∈ queue
  · rw [if_pos hq, if_pos (List.mem_append_left _ hq), List.idxOf_append_of_mem hq]
  · rw [if_neg hq, if_neg (by simp [hq, hk])]

theorem place_forward {new : List (BitVec 64)} (hnew : k ≠ j → idOf k ∉ new) (hj : j ∉ queue)
    (sent : Sent) :
    place queue (ids ++ new) idle replies k < place (j :: queue) ids idle replies k ∨
      place queue (ids ++ new) idle replies k = place (j :: queue) ids idle replies k ∧
        ¬ helpful (place (j :: queue) ids idle replies k) (.forward sent) := by
  unfold place
  by_cases hkj : k = j
  · subst hkj
    rw [if_neg hj, if_pos (List.mem_cons_self ..)]
    refine .inl ?_
    split <;> exact lex_lt (by simp)
  · by_cases hq : k ∈ queue
    · rw [if_pos hq, if_pos (List.mem_cons_of_mem _ hq), List.idxOf_cons_ne _ (Ne.symm hkj)]
      exact .inl (lex_lt (by simp))
    · have hq' : k ∉ j :: queue := by simp [hkj, hq]
      rw [if_neg hq, if_neg hq']
      refine .inr ?_
      by_cases hid : idOf k ∈ ids
      · rw [if_pos hid, if_pos (List.mem_append_left _ hid), List.idxOf_append_of_mem hid]
        exact ⟨rfl, by simp [helpful]⟩
      · rw [if_neg hid, if_neg (by simp [hid, hnew hkj])]
        exact ⟨rfl, by simp [helpful]⟩

theorem place_receive {reply : Option (BitVec 64)}
    (hreply : k ∉ queue → some (idOf k) ≠ reply) :
    place queue ids idle replies k < place queue ids idle (reply :: replies) k ∨
      place queue ids idle replies k = place queue ids idle (reply :: replies) k ∧
        ¬ helpful (place queue ids idle (reply :: replies) k) .receive := by
  unfold place
  split
  · exact .inr ⟨rfl, by simp [helpful]⟩
  · next hq =>
    split
    · exact .inr ⟨rfl, by simp [helpful]⟩
    · rw [List.idxOf_cons_ne _ (hreply hq).symm]
      exact .inl (lex_lt (by simp))

theorem place_accept :
    place queue ids false replies k < place queue ids true replies k ∨
      place queue ids false replies k = place queue ids true replies k ∧
        ¬ helpful (place queue ids true replies k) .accept := by
  unfold place
  split
  · exact .inr ⟨rfl, by simp [helpful]⟩
  · split
    · exact .inl (lex_lt (by simp))
    · exact .inr ⟨rfl, by simp [helpful]⟩

theorem place_answer {id : BitVec 64} (hid : id ∉ ids)
    (hdue : k ∉ queue → idOf k ∉ id :: ids → some (idOf k) ∈ replies) (around : Surroundings) :
    place queue ids true (replies ++ [some id]) k < place queue (id :: ids) false replies k ∨
      place queue ids true (replies ++ [some id]) k = place queue (id :: ids) false replies k ∧
        ¬ helpful (place queue (id :: ids) false replies k) (.answer around) := by
  unfold place
  by_cases hq : k ∈ queue
  · rw [if_pos hq, if_pos hq]
    exact .inr ⟨rfl, by simp [helpful]⟩
  · rw [if_neg hq, if_neg hq]
    by_cases hk : idOf k = id
    · rw [if_neg (by rwa [hk]), if_pos (by simp [hk])]
      exact .inl (lex_lt (by simp))
    · by_cases hmem : idOf k ∈ ids
      · rw [if_pos hmem, if_pos (List.mem_cons_of_mem _ hmem), List.idxOf_cons_ne _ (Ne.symm hk)]
        exact .inl (lex_lt (.inr ⟨rfl, by simp; omega⟩))
      · have hmem' : idOf k ∉ id :: ids := by simp [hk, hmem]
        rw [if_neg hmem, if_neg hmem', List.idxOf_append_of_mem (hdue hq hmem')]
        exact .inr ⟨rfl, by simp [helpful]⟩

theorem place_event (hdue : k ∉ queue → idOf k ∉ ids → some (idOf k) ∈ replies) :
    place queue ids idle (replies ++ [none]) k = place queue ids idle replies k := by
  unfold place
  split
  · rfl
  · next hq =>
    split
    · rfl
    · next hid => rw [List.idxOf_append_of_mem (hdue hq hid)]

end Place

/-- The ids of the requests that the daemon has not answered. -/
def State.unanswered (s : State) : List (BitVec 64) :=
  (s.serving.toList ++ s.toDaemon).map (·.id)

def State.rank (s : State) (k : Nat) : ℕ ×ₗ ℕ :=
  match s.link with
  | .greeting n => toLex (3, 1 - n)
  | _ => place s.queue s.unanswered s.serving.isNone (s.toUi.map Letter.replyId) k

/-- What holds as long as the call waits. -/
structure Waits (daemon : Daemon) (s : State) (k : Nat) : Prop where
  inv : Inv daemon s
  linked : Linked s
  waiting : s.phaseOf k = some .waiting

theorem rank_greeting {n : Nat} (hlink : s.link = .greeting n) (k : Nat) :
    s.rank k = toLex (3, 1 - n) := by
  unfold State.rank
  rw [hlink]

theorem rank_serving (hlink : s.link = .serving) (k : Nat) :
    s.rank k = place s.queue s.unanswered s.serving.isNone (s.toUi.map Letter.replyId) k := by
  unfold State.rank
  rw [hlink]

theorem place_lt (queue : List Nat) (ids : List (BitVec 64)) (idle : Bool)
    (replies : List (Option (BitVec 64))) (k n : Nat) :
    place queue ids idle replies k < toLex (3, n) := by
  unfold place
  split
  · exact lex_lt (by simp)
  · split <;> exact lex_lt (by simp)

theorem requestOf_of_phaseOf {phase : Phase} (h : s.phaseOf k = some phase) :
    ∃ q, s.requestOf k = some q := by
  obtain ⟨c, hc, -⟩ := Option.map_eq_some_iff.mp h
  exact ⟨c.request, by simp [State.requestOf, hc]⟩

namespace Waits

theorem link (h : Waits daemon s k) : (∃ n, s.link = .greeting n) ∨ s.link = .serving := by
  have hk := (h.inv.held.waiting k).mpr h.waiting
  cases hlink : s.link with
  | connecting => exact absurd h.waiting (h.linked.connecting hlink k).2
  | greeting n => exact .inl ⟨n, rfl⟩
  | serving => exact .inr rfl
  | closed =>
    rw [h.inv.held.closed hlink] at hk
    cases hk

/-- A request that is not in the command channel is pending under its id. -/
theorem mem_pending (h : Waits daemon s k) (hq : k ∉ s.queue) : (idOf k, k) ∈ s.pending := by
  have hk := (h.inv.held.waiting k).mpr h.waiting
  rcases List.mem_append.mp hk with hk | hk
  · exact absurd hk hq
  · obtain ⟨⟨i, k'⟩, hp, rfl⟩ := List.mem_map.mp hk
    obtain ⟨q, hasked, hid⟩ := h.inv.held.keys _ hp
    have hi : i = idOf k' := hid.symm.trans (h.inv.numbered.ids hasked)
    rwa [← hi]

/-- What the daemon has answered is on its way back. -/
theorem due (h : Waits daemon s k) (hq : k ∉ s.queue) (hid : idOf k ∉ s.unanswered) :
    some (idOf k) ∈ s.toUi.map Letter.replyId := by
  have hdue := h.inv.answered.due _ (h.mem_pending hq)
  rcases List.mem_append.mp hdue with hdue | hdue
  · exact mem_responses_id.mp hdue
  · exact absurd hdue hid

/-- A step that would bring the request on, and is possible, is taken. -/
theorem enabled (h : Waits daemon s k) (help : helpful (s.rank k) a) : s.Enabled a := by
  rcases h.link with ⟨n, hlink⟩ | hlink
  · rw [rank_greeting hlink] at help
    cases a with
    | greet => exact ⟨n, hlink⟩
    | _ => simp [helpful] at help
  · rw [rank_serving hlink] at help
    have hstage := help
    unfold place at hstage
    cases a with
    | greet =>
      split at hstage
      · simp [helpful] at hstage
      · split at hstage <;> simp [helpful] at hstage
    | forward sent =>
      split at hstage
      · next hq =>
        obtain ⟨i, queue, head⟩ := List.exists_cons_of_ne_nil (List.ne_nil_of_mem hq)
        have hi : i ∈ s.holders := List.mem_append_left _ (by simp [head])
        obtain ⟨q, asked⟩ := requestOf_of_phaseOf ((h.inv.held.waiting i).mp hi)
        exact ⟨hlink, i, queue, q, head, asked⟩
      · split at hstage <;> simp [helpful] at hstage
    | accept =>
      split at hstage
      · simp [helpful] at hstage
      · split at hstage
        · next hid =>
          cases hserving : s.serving with
          | some q => simp [helpful, hserving] at hstage
          | none =>
            rw [State.unanswered, hserving] at hid
            cases head : s.toDaemon with
            | nil =>
              rw [head] at hid
              cases hid
            | cons q rest => exact ⟨hserving, q, rest, head⟩
        · simp [helpful] at hstage
    | answer around =>
      split at hstage
      · simp [helpful] at hstage
      · split at hstage
        · cases hserving : s.serving with
          | some q => exact ⟨q, hserving⟩
          | none => simp [helpful, hserving] at hstage
        · simp [helpful] at hstage
    | receive =>
      split at hstage
      · simp [helpful] at hstage
      · next hq =>
        split at hstage
        · simp [helpful] at hstage
        · next hid =>
          have hdue := h.due hq hid
          cases htoUi : s.toUi with
          | nil =>
            rw [htoUi] at hdue
            cases hdue
          | cons l rest => exact ⟨hlink, l, rest, htoUi⟩
    | _ => exact help

theorem rank_of_place (h : Waits daemon s k) (hlink : s'.link = s.link)
    (hgreet : ∀ sent, a ≠ .greet sent)
    (hplace : place s'.queue s'.unanswered s'.serving.isNone (s'.toUi.map Letter.replyId) k <
        place s.queue s.unanswered s.serving.isNone (s.toUi.map Letter.replyId) k ∨
      place s'.queue s'.unanswered s'.serving.isNone (s'.toUi.map Letter.replyId) k =
          place s.queue s.unanswered s.serving.isNone (s.toUi.map Letter.replyId) k ∧
        ¬ helpful (place s.queue s.unanswered s.serving.isNone (s.toUi.map Letter.replyId) k) a) :
    s'.rank k < s.rank k ∨ s'.rank k = s.rank k ∧ ¬ helpful (s.rank k) a := by
  rcases h.link with ⟨n, hn⟩ | hserving
  · rw [rank_greeting hn, rank_greeting (hlink.trans hn)]
    refine .inr ⟨rfl, ?_⟩
    cases a with
    | greet sent => exact absurd rfl (hgreet sent)
    | _ => simp [helpful]
  · rw [rank_serving hserving, rank_serving (hlink.trans hserving)]
    exact hplace

/-- No step takes the request back, and those that would bring it on do so. -/
theorem rank_move (h : Waits daemon s k) (room : Roomy s) (move : Move daemon s a s')
    (hk : s'.phaseOf k = some .waiting) :
    s'.rank k < s.rank k ∨ s'.rank k = s.rank k ∧ ¬ helpful (s.rank k) a := by
  have held := h.inv.held
  have numbered := h.inv.numbered
  have hclosed : s'.link ≠ .closed := by
    intro hlink
    have held' := held.move numbered room move
    have hmem := (held'.waiting k).mpr hk
    rw [held'.closed hlink] at hmem
    cases hmem
  have hid_ne : ∀ {j q}, s.requestOf j = some q → k ≠ j → idOf k ≠ q.id := by
    intro j q hq hne hid
    have hlt := lt_of_requestOf hq
    have hlt' := lt_of_phaseOf h.waiting
    rw [Roomy] at room
    exact hne (idOf_inj (by omega) (by omega) (hid.trans (numbered.ids hq)))
  have hhead : ∀ {j queue}, s.queue = j :: queue → j ∉ queue := by
    intro j queue head
    have hnodup := (List.nodup_append.mp held.nodup).1
    rw [head, List.nodup_cons] at hnodup
    exact hnodup.1
  have hunanswered : ∀ new : List Proto.Request,
      (s.serving.toList ++ (s.toDaemon ++ new)).map (·.id) =
        s.unanswered ++ new.map (·.id) := by
    intro new
    rw [State.unanswered, ← List.append_assoc, List.map_append]
  cases move with
  | queued sending =>
    refine h.rank_of_place rfl (by simp) (.inr ⟨place_queue_append ?_, id⟩)
    rintro rfl
    rw [h.waiting] at sending
    cases sending
  | connected start =>
    rcases h.link with ⟨n, hn⟩ | hn <;> rw [start] at hn <;> cases hn
  | greeted greeting =>
    rename_i n
    rw [rank_greeting greeting]
    cases n with
    | zero =>
      rw [rank_greeting (n := 1) rfl]
      exact .inl (lex_lt (by simp))
    | succ n =>
      rw [rank_serving rfl]
      exact .inl (place_lt ..)
  | lost => exact absurd rfl hclosed
  | closed => exact absurd rfl hclosed
  | forwarded serving head asked =>
    rename_i j queue request
    rw [held.await_eq numbered room head asked .ok]
    refine h.rank_of_place rfl (by simp) ?_
    rw [State.unanswered, hunanswered, head]
    exact place_forward (fun hne => by simpa [Sent.arriving] using hid_ne asked hne) (hhead head) _
  | dropped serving head asked fails =>
    rename_i j queue request sent
    refine h.rank_of_place rfl (by simp) ?_
    rw [head]
    change place queue ((s.serving.toList ++ (s.toDaemon ++ sent.arriving request)).map (·.id)) _
      _ k < _ ∨ place queue ((s.serving.toList ++ (s.toDaemon ++ sent.arriving request)).map (·.id))
      _ _ k = _ ∧ _
    rw [hunanswered]
    refine place_forward (fun hne hmem => ?_) (hhead head) _
    obtain ⟨q, hq, hid⟩ := List.mem_map.mp hmem
    have hq' := Once.forall_arriving (P := fun q => q = request) rfl sent q hq
    exact hid_ne asked hne (hq' ▸ hid.symm)
  | replied serving head reply found =>
    rename_i l rest r i j
    refine h.rank_of_place rfl (by simp) ?_
    rw [head, List.map_cons]
    refine place_receive fun _ hid => ?_
    have hkj : k ≠ j := by
      rintro rfl
      change (s.setPhase k (.done (.ok r))).phaseOf k = _ at hk
      rw [State.phaseOf_setPhase, if_pos rfl, h.waiting] at hk
      cases hk
    obtain ⟨q, hq, hqid⟩ := held.keys _ (List.mem_of_find?_eq_some found)
    have hi : i = r.id := by simpa using List.find?_some found
    refine hid_ne hq hkj ?_
    rw [hqid]
    simp only [Letter.replyId, reply, Option.some.injEq] at hid
    exact hid.trans hi.symm
  | heard serving head other news =>
    rename_i l rest d v p
    refine h.rank_of_place rfl (by simp) ?_
    rw [head, List.map_cons]
    refine place_receive fun hq hid => ?_
    cases hl : l.content with
    | event e => simp [Letter.replyId, hl] at hid
    | response r =>
      have hfind := List.find?_eq_none.mp (other r hl) _ (h.mem_pending hq)
      simp only [Letter.replyId, hl, Option.some.injEq] at hid
      exact hfind (by simpa using hid)
  | accepted idle head =>
    rename_i request rest
    refine h.rank_of_place rfl (by simp) ?_
    have hids : s.unanswered = (request :: rest).map (·.id) := by
      simp [State.unanswered, idle, head]
    rw [hids, idle]
    exact place_accept
  | answered busy given around merged =>
    rename_i request
    refine h.rank_of_place rfl (by simp) ?_
    have hids : s.unanswered = request.id :: s.toDaemon.map (·.id) := by
      simp [State.unanswered, busy]
    have hnew : request.id ∉ s.toDaemon.map (·.id) := by
      have hnodup := h.inv.once.nodup
      rw [State.requests, List.map_append, List.nodup_append] at hnodup
      have hdaemon := hnodup.2.1
      rw [← State.unanswered, hids, List.nodup_cons] at hdaemon
      exact hdaemon.1
    have hid : (Handlers.dispatchRequest daemon around request s.disk).response.id = request.id :=
      Handlers.dispatchRequest_id
    have hplace := @place_answer k s.queue _ _ _ hnew (fun hq hk => h.due hq (hids ▸ hk)) given
    rw [hids, busy]
    simpa [State.unanswered, State.write, Letter.replyId, hid] using hplace
  | notified idle =>
    refine h.rank_of_place rfl (by simp) (.inr ⟨?_, id⟩)
    exact List.map_append ▸ place_event fun hq hid => h.due hq hid
  | told idle =>
    refine h.rank_of_place rfl (by simp) (.inr ⟨?_, id⟩)
    exact List.map_append ▸ place_event fun hq hid => h.due hq hid
  | _ => exact .inr ⟨rfl, id⟩

theorem rank_step (h : Waits daemon s k) (room : Roomy s)
    (hk : (step daemon s a).phaseOf k = some .waiting) :
    (step daemon s a).rank k ≤ s.rank k ∧
      (helpful (s.rank k) a → (step daemon s a).rank k ≠ s.rank k) := by
  rcases move_of_step s a with ⟨idle, hnot⟩ | move
  · rw [idle]
    exact ⟨le_rfl, fun help => absurd (h.enabled help) hnot⟩
  · rcases h.rank_move room move hk with hlt | ⟨heq, hnot⟩
    · exact ⟨hlt.le, fun _ => hlt.ne⟩
    · exact ⟨heq.le, fun help => absurd help hnot⟩

end Waits

/-- The connection and the daemon go on with their work. -/
structure Fair (f : ℕ → Action) : Prop where
  greet : ∀ n, ∃ m, n ≤ m ∧ ∃ sent, f m = .greet sent
  forward : ∀ n, ∃ m, n ≤ m ∧ ∃ sent, f m = .forward sent
  accept : ∀ n, ∃ m, n ≤ m ∧ f m = .accept
  answer : ∀ n, ∃ m, n ≤ m ∧ ∃ around, f m = .answer around
  receive : ∀ n, ∃ m, n ≤ m ∧ f m = .receive

theorem Fair.helpful {f : ℕ → Action} (fair : Fair f) (r : ℕ ×ₗ ℕ) (n : ℕ) :
    ∃ m, n ≤ m ∧ helpful r (f m) := by
  by_cases h0 : (ofLex r).1 = 0
  · obtain ⟨m, hm, hf⟩ := fair.receive n
    exact ⟨m, hm, hf ▸ h0⟩
  by_cases h1 : (ofLex r).1 = 1
  · rcases Nat.mod_two_eq_zero_or_one (ofLex r).2 with heven | hodd
    · obtain ⟨m, hm, around, hf⟩ := fair.answer n
      exact ⟨m, hm, hf ▸ ⟨h1, heven⟩⟩
    · obtain ⟨m, hm, hf⟩ := fair.accept n
      exact ⟨m, hm, hf ▸ ⟨h1, hodd⟩⟩
  by_cases h2 : (ofLex r).1 = 2
  · obtain ⟨m, hm, sent, hf⟩ := fair.forward n
    exact ⟨m, hm, hf ▸ h2⟩
  · obtain ⟨m, hm, sent, hf⟩ := fair.greet n
    have h3 : 3 ≤ (ofLex r).1 := by omega
    exact ⟨m, hm, hf ▸ h3⟩

variable {published : List (List Proto.Device)} {devices : List Proto.Device} {seen : Nat}
  {disk : Disk} {f : ℕ → Action}

theorem linked_step (h : Linked s) : Linked (step daemon s a) := by
  rcases move_of_step s a with ⟨idle, -⟩ | move
  · rwa [idle]
  · exact h.move move

theorem inv_state
    (room : ∀ n, Roomy (Schedule.state (step daemon) (init published devices seen disk) f n))
    (n : ℕ) :
    Inv daemon (Schedule.state (step daemon) (init published devices seen disk) f n) ∧
      Linked (Schedule.state (step daemon) (init published devices seen disk) f n) := by
  induction n with
  | zero =>
    refine ⟨inv_init, fun _ i => ?_, fun h => absurd rfl h⟩
    simp [State.phaseOf, init]
  | succ n ih => exact ⟨ih.1.step (room n) _, linked_step ih.2⟩

/-- As long as there are ids left and the work goes on, a call that waits gets its answer, or the
error of a connection that was broken meanwhile, whatever else happens. -/
theorem call_ends
    (room : ∀ n, Roomy (Schedule.state (step daemon) (init published devices seen disk) f n))
    (fair : Fair f) {n k : ℕ}
    (waiting : (Schedule.state (step daemon) (init published devices seen disk) f n).phaseOf k =
      some .waiting) :
    ∃ m, n ≤ m ∧
      ((∃ r, (Schedule.state (step daemon) (init published devices seen disk) f m).phaseOf k =
          some (.done (.ok r))) ∨
        (Schedule.state (step daemon) (init published devices seen disk) f m).phaseOf k =
            some (.done (.error disconnected)) ∧
          ∃ i, n ≤ i ∧ (f i).Breaks) := by
  refine Schedule.eventually_of_fair (I := fun s => Waits daemon s k)
    (μ := fun s => s.rank k)
    (G := fun s => (∃ r, s.phaseOf k = some (.done (.ok r))) ∨
      s.phaseOf k = some (.done (.error disconnected)) ∧ ∃ i, n ≤ i ∧ (f i).Breaks)
    (C := fun s a => Roomy s ∧ (a.Breaks → ∃ i, n ≤ i ∧ (f i).Breaks))
    (fun s a h hC => ?_) (fun r n => fair.helpful r n) (fun m hm => ⟨room m, fun h => ⟨m, hm, h⟩⟩)
    ⟨(inv_state room n).1, (inv_state room n).2, waiting⟩
  have hcases : (step daemon s a).phaseOf k = some .waiting ∨
      (∃ r, (step daemon s a).phaseOf k = some (.done (.ok r))) ∨
        (step daemon s a).phaseOf k = some (.done (.error disconnected)) ∧ a.Breaks := by
    rcases move_of_step s a with ⟨idle, -⟩ | move
    · exact .inl (by rw [idle, h.waiting])
    · exact move.waiting h.inv.held h.inv.numbered hC.1 h.waiting
  rcases hcases with hk | hok | ⟨herror, breaks⟩
  · exact .inr ⟨⟨h.inv.step hC.1 a, linked_step h.linked, hk⟩, h.rank_step hC.1 hk⟩
  · exact .inl (.inl hok)
  · exact .inl (.inr ⟨herror, hC.2 breaks⟩)

/-- The text of the clipboard is asked for, and then everybody works in turn. -/
def sampleSchedule : ℕ → Action
  | 0 => .connect
  | 1 => .call "clipboard.get".toList none
  | 2 => .takeSender 0
  | 3 => .enqueue 0
  | n + 4 =>
    match n % 5 with
    | 0 => .greet .ok
    | 1 => .forward .ok
    | 2 => .accept
    | 3 => .answer sampleAround
    | _ => .receive

theorem fair_sampleSchedule : Fair sampleSchedule where
  greet n := ⟨5 * n + 4, by omega, .ok, by simp [sampleSchedule]⟩
  forward n := ⟨5 * n + 5, by omega, .ok, by simp [sampleSchedule, Nat.add_mod]⟩
  accept n := ⟨5 * n + 6, by omega, by simp [sampleSchedule, Nat.add_mod]⟩
  answer n := ⟨5 * n + 7, by omega, sampleAround, by simp [sampleSchedule, Nat.add_mod]⟩
  receive n := ⟨5 * n + 8, by omega, by simp [sampleSchedule, Nat.add_mod]⟩

/-- Only a call draws an id. -/
theorem length_step (s : State) (ha : ∀ method params, a ≠ .call method params) :
    (step daemon s a).calls.length = s.calls.length := by
  rcases move_of_step s a with ⟨idle, -⟩ | move
  · rw [idle]
  · rcases move.asked with ⟨method, params, h, -⟩ | ⟨-, h, -⟩
    · exact absurd h (ha method params)
    · exact h

theorem length_sampleSchedule (n : ℕ) :
    (Schedule.state (step sampleDaemon) (init [] [] 0 ⟨none, false⟩) sampleSchedule n).calls.length ≤
      1 := by
  match n with
  | 0 | 1 | 2 => decide
  | n + 3 =>
    induction n with
    | zero => decide
    | succ n ih =>
      rw [show n + 1 + 3 = n + 3 + 1 from rfl, Schedule.state_succ, length_step]
      · exact ih
      · intro method params
        cases n with
        | zero => simp [sampleSchedule]
        | succ n =>
          simp only [sampleSchedule]
          split <;> simp

theorem clipboard_call_ends :
    ∃ m, 4 ≤ m ∧
      ((∃ r, (Schedule.state (step sampleDaemon) (init [] [] 0 ⟨none, false⟩) sampleSchedule
          m).phaseOf 0 = some (.done (.ok r))) ∨
        (Schedule.state (step sampleDaemon) (init [] [] 0 ⟨none, false⟩) sampleSchedule
            m).phaseOf 0 = some (.done (.error disconnected)) ∧
          ∃ i, 4 ≤ i ∧ (sampleSchedule i).Breaks) :=
  call_ends
    (fun n => (Nat.add_le_add_right (length_sampleSchedule n) 3).trans (by decide))
    fair_sampleSchedule rfl

end Kulua.Ipc.Rpc
