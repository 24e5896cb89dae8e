import Kulua.Direct.Exchange
import Kulua.Foundation.Backoff
import Kulua.SenderEquivalence

/-! How long a control message can be on its way. Where the passes of the retransmission are never
more than `gap` apart, a fragment that is not acknowledged times out `lossLimit + 1` times within
`patience gap`, and the last of these gives the peer up. -/

namespace Kulua.Direct
open Foundation Foundation.Backoff Foundation.Segment Kulua.Stream
open ReliableSender (dueEntry rtoFor)

def timer (e : OutEntry) : Timer := ⟨e.lastSent, e.lossCount⟩

theorem timer_dueEntry (now : Nat) (e : OutEntry) :
    timer (dueEntry now e).1 = (timer e).check rtoFor now := by
  obtain h | h | h := ReliableSender.due_cases now e
  · have hwaits : ¬rtoFor e.lossCount ≤ now - e.lastSent := h
    simp [ReliableSender.dueEntry_idle h, timer, Timer.check, hwaits]
  · have hdue : rtoFor e.lossCount ≤ now - e.lastSent := h.1
    simp [ReliableSender.dueEntry_resent h, timer, Timer.check, hdue]
  · have hdue : rtoFor e.lossCount ≤ now - e.lastSent := h.1
    simp [ReliableSender.dueEntry_lost h, timer, Timer.check, hdue]

theorem rtoFor_pos (loss : Nat) : 0 < rtoFor loss := by
  have h : min loss 4 ≤ 4 := Nat.min_le_right ..
  unfold rtoFor
  interval_cases min loss 4 <;> decide

theorem lossCount_dueEntry {now : Nat} {e : OutEntry} (h : e.lossCount ≤ lossLimit)
    (kept : ¬Lost now e) : (dueEntry now e).1.lossCount ≤ lossLimit := by
  obtain hd | hd | hd := ReliableSender.due_cases now e
  · rwa [ReliableSender.dueEntry_idle hd]
  · rw [ReliableSender.dueEntry_resent hd]
    exact hd.2
  · exact absurd hd kept

/-- The time after which a message has arrived, or the peer is given up. -/
def patience (gap : Nat) : Nat := 11000000000 + 9 * gap

theorem budget_rtoFor (gap : Nat) : budget rtoFor gap (lossLimit + 1) = patience gap := by
  simp [budget, lossLimit, List.range_succ, rtoFor, initialRto, maxRto, patience]
  omega

variable {σ ρ : Type} (S : SenderModel σ) (R : ReceiverModel ρ) (gaveUp : σ → Bool)

/-- What becomes of the window's timers. `gaveUp` holds after the pass that gives the peer up. -/
structure Retransmits : Prop where
  send_window : ∀ s now id parts, S.muted s = false →
    S.window (S.sendSplit s now id parts).1 =
      S.window s ++ (S.sendSplit s now id parts).2.map (OutEntry.register now)
  onAck_window : ∀ s a, S.window (S.onAck s a) <:+ S.window s
  timeouts_window : ∀ s now, gaveUp (S.timeouts s now).1 = false →
    S.window (S.timeouts s now).1 = (S.window s).map fun e => (dueEntry now e).1
  kept : ∀ s now, gaveUp (S.timeouts s now).1 = false → ∀ e ∈ S.window s, ¬Lost now e

/-- The system with what is known of the time. -/
structure Clocked (σ ρ : Type) where
  wired : Wired σ ρ
  /-- The messages that the sender has taken, and when. -/
  posted : List (Nat × Msg)
  /-- The last pass of the retransmission. -/
  seen : Nat
  gaveUp : Bool

namespace Clocked

def step (room ackRoom : Nat) (s : Clocked σ ρ) (a : Action) : Clocked σ ρ :=
  { wired := s.wired.step S R room ackRoom a
    posted :=
      match a with
      | .send now msgId m =>
        if (S.send s.wired.sender now msgId (encodeCtrl m)).2 = [] then s.posted
        else s.posted ++ [(now, m)]
      | _ => s.posted
    seen :=
      match a with
      | .timeouts now => now
      | _ => s.seen
    gaveUp :=
      match a with
      | .timeouts now => s.gaveUp || gaveUp (S.timeouts s.wired.sender now).1
      | _ => s.gaveUp }

def init (start : Nat) : Clocked σ ρ := ⟨.init S R, [], start, false⟩

def exec (room ackRoom start : Nat) (actions : List Action) : Clocked σ ρ :=
  Run.run (step S R gaveUp room ackRoom) (init S R start) actions

/-- The time of each fragment, message by message. -/
def births (s : Clocked σ ρ) : List (List Nat) :=
  s.posted.map fun p => List.replicate (S.split (encodeCtrl p.2)).length p.1

end Clocked

/-- The passes are at most `gap` apart, and the clock does not go back. -/
def Action.InTime (gap : Nat) (s : Clocked σ ρ) : Action → Prop
  | .send now _ _ => s.seen ≤ now
  | .timeouts now => now ≤ s.seen + gap
  | _ => True

instance (gap : Nat) (s : Clocked σ ρ) : (a : Action) → Decidable (a.InTime gap s)
  | .send .. | .timeouts _ => inferInstanceAs (Decidable (_ ≤ _))
  | .deliver _ | .emitAck | .ack _ => .isTrue trivial

abbrev InTime (room ackRoom gap start : Nat) (actions : List Action) : Prop :=
  Run.Along (Clocked.step S R gaveUp room ackRoom) (fun s a => a.InTime gap s)
    (Clocked.init S R start) actions

/-- An entry of the window that was first sent at `birth`. -/
def Waits (gap seen : Nat) (e : OutEntry) (birth : Nat) : Prop :=
  e.lossCount ≤ lossLimit ∧ Punctual rtoFor gap birth seen (timer e)

structure OnTime (gap : Nat) (s : Clocked σ ρ) : Prop where
  posted : s.posted.map Prod.snd = s.wired.sent
  window : ∃ bs, bs <:+ (s.births S).flatten ∧
    List.Forall₂ (Waits gap s.seen) (S.window s.wired.sender) bs

variable {S R gaveUp} {gap room ackRoom : Nat} {s : Clocked σ ρ}

theorem forall₂_replicate {α β : Type} {P : α → β → Prop} {xs : List α} {b : β}
    (h : ∀ x ∈ xs, P x b) : List.Forall₂ P xs (List.replicate xs.length b) := by
  induction xs with
  | nil => exact .nil
  | cons x xs ih => exact .cons (h x (by simp)) (ih fun y hy => h y (List.mem_cons_of_mem _ hy))

theorem exists_of_forall₂ {α β : Type} {P : α → β → Prop} {xs : List α} {ys : List β}
    (h : List.Forall₂ P xs ys) {y : β} (hy : y ∈ ys) : ∃ x, P x y := by
  induction h with
  | nil => cases hy
  | cons hxy _ ih =>
    rcases List.mem_cons.mp hy with rfl | hy
    · exact ⟨_, hxy⟩
    · exact ih hy

theorem waits_register {now : Nat} (hnow : s.seen ≤ now) (f : Frame) :
    Waits gap s.seen (.register now f) now :=
  ⟨Nat.zero_le _, .start rtoFor_pos hnow⟩

theorem OnTime.send (hS : S.Lawful) (hT : Retransmits S gaveUp) (h : OnTime S gap s) {now : Nat}
    {msgId : U32} {m : Msg} (fits : S.Fits (encodeCtrl m)) (hnow : s.seen ≤ now) :
    OnTime S gap (s.step S R gaveUp room ackRoom (.send now msgId m)) := by
  have hsend := hS.send_eq s.wired.sender now msgId _ (hS.fits_valid _ fits)
  rcases hm : S.muted s.wired.sender with _ | _
  · obtain ⟨⟨id, hframes⟩, -, -⟩ :=
      hS.sendSplit_open s.wired.sender now msgId (S.split (encodeCtrl m)) hm
    have hwindow := hT.send_window s.wired.sender now msgId (S.split (encodeCtrl m)) hm
    rw [← hsend] at hframes hwindow
    have hout : (S.send s.wired.sender now msgId (encodeCtrl m)).2 ≠ [] := by
      rw [hframes]
      exact fun he => hS.split_ne_nil _ fits (encodeCtrl_ne_nil m)
        (by simpa using congrArg List.length he)
    obtain ⟨bs, hbs, hwaits⟩ := h.window
    have hbirths : (Clocked.births S (s.step S R gaveUp room ackRoom (.send now msgId m))).flatten =
        (s.births S).flatten ++ List.replicate (S.split (encodeCtrl m)).length now := by
      simp [Clocked.births, Clocked.step, hout]
    have hnew : List.Forall₂ (Waits gap s.seen)
        ((S.send s.wired.sender now msgId (encodeCtrl m)).2.map (OutEntry.register now))
        (List.replicate (S.split (encodeCtrl m)).length now) := by
      have hlen : (S.split (encodeCtrl m)).length = ((S.send s.wired.sender now msgId
          (encodeCtrl m)).2.map (OutEntry.register now)).length := by
        rw [hframes, List.length_map, length_fragments]
      rw [hlen]
      refine forall₂_replicate fun e he => ?_
      obtain ⟨f, -, rfl⟩ := List.mem_map.mp he
      exact waits_register hnow f
    constructor
    · simp [Clocked.step, Wired.step, hout, h.posted]
    · refine ⟨bs ++ List.replicate (S.split (encodeCtrl m)).length now, ?_, ?_⟩
      · rw [hbirths]
        obtain ⟨before, hbefore⟩ := hbs
        exact ⟨before, by rw [← hbefore, List.append_assoc]⟩
      · simp only [Clocked.step, Wired.step, hwindow]
        exact List.rel_append hwaits hnew
  · rw [hS.sendSplit_muted s.wired.sender now msgId _ hm] at hsend
    simp only [Clocked.step, Wired.step, hsend, if_true]
    exact ⟨h.posted, h.window⟩

theorem OnTime.timeouts (hT : Retransmits S gaveUp) (h : OnTime S gap s) {now : Nat}
    (hnow : now ≤ s.seen + gap) (kept : gaveUp (S.timeouts s.wired.sender now).1 = false) :
    OnTime S gap (s.step S R gaveUp room ackRoom (.timeouts now)) := by
  obtain ⟨bs, hbs, hwaits⟩ := h.window
  refine ⟨h.posted, bs, hbs, ?_⟩
  simp only [Clocked.step, Wired.step]
  rw [hT.timeouts_window _ _ kept, List.forall₂_map_left_iff]
  have hboth := (List.forall₂_and_left _ _).mpr ⟨hT.kept _ _ kept, hwaits⟩
  refine hboth.imp fun e birth h => ⟨lossCount_dueEntry h.2.1 h.1, ?_⟩
  rw [timer_dueEntry]
  exact h.2.2.check rtoFor_pos hnow

theorem OnTime.onAck (hT : Retransmits S gaveUp) (h : OnTime S gap s) (seq : U32) :
    ∃ bs, bs <:+ (s.births S).flatten ∧
      List.Forall₂ (Waits gap s.seen) (S.window (S.onAck s.wired.sender seq)) bs := by
  obtain ⟨bs, hbs, hwaits⟩ := h.window
  rw [List.suffix_iff_eq_drop.mp (hT.onAck_window s.wired.sender seq)]
  exact ⟨_, (List.drop_suffix _ _).trans hbs, List.forall₂_drop _ hwaits⟩

theorem OnTime.step (hS : S.Lawful) (hT : Retransmits S gaveUp) (h : OnTime S gap s) {a : Action}
    (fits : a.Fits S) (inTime : a.InTime gap s)
    (kept : (s.step S R gaveUp room ackRoom a).gaveUp = false) :
    OnTime S gap (s.step S R gaveUp room ackRoom a) := by
  cases a with
  | send now msgId m => exact h.send hS hT fits.1 inTime
  | timeouts now => exact h.timeouts hT inTime (Bool.or_eq_false_iff.mp kept).2
  | deliver i =>
    simp only [Clocked.step, Wired.step, Wired.onFrame]
    split
    · exact ⟨h.posted, h.window⟩
    · split <;> exact ⟨h.posted, h.window⟩
  | emitAck => exact ⟨h.posted, h.window⟩
  | ack i =>
    simp only [Clocked.step, Wired.step, Wired.onAck]
    split
    · exact ⟨h.posted, h.window⟩
    · split
      · exact ⟨h.posted, h.onAck hT _⟩
      · exact ⟨h.posted, h.window⟩

theorem gaveUp_step {a : Action} (h : (s.step S R gaveUp room ackRoom a).gaveUp = false) :
    s.gaveUp = false := by
  cases a with
  | timeouts now => exact (Bool.or_eq_false_iff.mp h).1
  | _ => exact h

theorem onTime_exec (hS : S.Lawful) (hT : Retransmits S gaveUp) {start : Nat}
    {actions : List Action} (fits : ∀ a ∈ actions, a.Fits S)
    (inTime : InTime S R gaveUp room ackRoom gap start actions)
    (kept : (Clocked.exec S R gaveUp room ackRoom start actions).gaveUp = false) :
    OnTime S gap (Clocked.exec S R gaveUp room ackRoom start actions) := by
  have begins : OnTime S gap (Clocked.init S R start) :=
    ⟨rfl, [], List.nil_suffix, by simp [Clocked.init, Wired.init, hS.window_new]⟩
  refine Run.invariant (I := fun s => s.gaveUp = false → OnTime S gap s) ?_ (fun _ => begins)
    (Run.along_and (Run.along_of_forall (C := Action.Fits S) _ fits) inTime) kept
  intro s a h ⟨hfits, hinTime⟩ hkept
  exact (h (gaveUp_step hkept)).step hS hT hfits hinTime hkept

theorem wired_run (s : Clocked σ ρ) (actions : List Action) :
    (Run.run (Clocked.step S R gaveUp room ackRoom) s actions).wired =
      Run.run (Wired.step S R room ackRoom) s.wired actions := by
  induction actions generalizing s with
  | nil => rfl
  | cons a actions ih => exact ih _

theorem offset_eq_sum {α : Type} (rows : List (List α)) (k : Nat) :
    offset rows k = ((rows.map List.length).take k).sum := by
  rw [offset, List.length_flatten, List.map_take]

/-- What the window no longer waits for, the other end has handled. -/
theorem OnTime.handled {n : Net σ ρ} (h : OnTime S gap s) (carries : Carries S s.wired n)
    (safe : Safe S R n) (kept : Kept S n n.delivered.length) {now : Nat}
    (hnow : now ≤ s.seen + gap) {i t : Nat} {m : Msg} (hi : s.posted[i]? = some (t, m))
    (late : t + patience gap ≤ now) : s.wired.handled[i]? = some (some m.canonical) := by
  have hsent : s.wired.sent[i]? = some m := by
    rw [← h.posted, List.getElem?_map, hi]
    rfl
  rcases Nat.lt_or_ge i n.delivered.length with hlt | hge
  · rw [carries.handled_eq safe, List.getElem?_map, List.getElem?_take_of_lt hlt, hsent]
    rfl
  · exfalso
    have hlengths : (s.births S).map List.length = (rows n.sent).map List.length := by
      rw [← carries.rows, ← h.posted]
      simp [Clocked.births]
    have hoffset : ∀ k, offset (s.births S) k = offset (rows n.sent) k := by
      intro k
      rw [offset_eq_sum, offset_eq_sum, hlengths]
    have hcount : (s.births S).flatten.length = (frames n.sent).length := by
      rw [List.length_flatten, hlengths, frames, List.length_flatten]
    have hrow : (s.births S)[i]? =
        some (List.replicate (S.split (encodeCtrl m)).length t) := by
      rw [Clocked.births, List.getElem?_map, hi]
      rfl
    -- a message that the sender has taken has a fragment
    have hpos : 0 < (S.split (encodeCtrl m)).length := by
      have hlength := congrArg (·[i]?) carries.rows
      simp only [List.getElem?_map, hsent, Option.map_some] at hlength
      obtain ⟨row, hrow, hlength⟩ := Option.map_eq_some_iff.mp hlength.symm
      obtain ⟨e, he, rfl⟩ := List.mem_map.mp (List.mem_of_getElem? hrow)
      have hne : e.2 ≠ [] := by simpa using (List.mem_filter.mp he).2
      rw [← hlength]
      exact List.length_pos_iff.mpr hne
    have hbirth := getElem?_flatten_offset hrow (i := 0) (by rwa [List.length_replicate])
    rw [Nat.add_zero, List.getElem?_replicate_of_lt hpos, hoffset] at hbirth
    -- its first fragment lies past the point up to which fragments have left the window
    obtain ⟨bs, hbs, hwaits⟩ := h.window
    have hwindow := kept.window.length_le
    rw [List.length_map, List.length_drop, SenderModel.keys, List.length_map, ← carries.sender,
      hwaits.length_eq, ← hcount] at hwindow
    have hmono := offset_mono (rows n.sent) hge
    have hmem : t ∈ bs := by
      rw [List.suffix_iff_eq_drop.mp hbs]
      refine List.mem_of_getElem? (i := offset (rows n.sent) i -
        ((s.births S).flatten.length - bs.length)) ?_
      rw [List.getElem?_drop, ← hbirth]
      congr 1
      omega
    obtain ⟨e, hcount, hpunctual⟩ := exists_of_forall₂ hwaits hmem
    have hdeadline := hpunctual.deadline hcount hnow
    rw [budget_rtoFor] at hdeadline
    omega

theorem handled_in_time (hS : S.Lawful) (hR : R.Lawful) (hT : Retransmits S gaveUp)
    (short : ∀ p, S.Fits p → ∀ c ∈ S.split p, c.length ≤ maxFragment) (hroom : pcBuffer ≤ room)
    (hack : pcBuffer ≤ ackRoom) {start : Nat} {actions : List Action}
    (fits : ∀ a ∈ actions, a.Fits S)
    (inTime : InTime S R gaveUp room ackRoom gap start actions)
    (few : (Clocked.exec S R gaveUp room ackRoom start actions).wired.fragmentCount S < 2 ^ 31)
    (hkept : (Clocked.exec S R gaveUp room ackRoom start actions).gaveUp = false) {now : Nat}
    (hnow : now ≤ (Clocked.exec S R gaveUp room ackRoom start actions).seen + gap) {i t : Nat}
    {m : Msg}
    (hi : (Clocked.exec S R gaveUp room ackRoom start actions).posted[i]? = some (t, m))
    (late : t + patience gap ≤ now) :
    (Clocked.exec S R gaveUp room ackRoom start actions).wired.handled[i]? =
      some (some m.canonical) := by
  have hwired : (Clocked.exec S R gaveUp room ackRoom start actions).wired =
      Wired.exec S R room ackRoom actions := wired_run _ actions
  rw [hwired] at few
  obtain ⟨n, carries, safe, kept⟩ := carries_exec hS hR short hroom hack fits few
  rw [← hwired] at carries
  exact (onTime_exec hS hT fits inTime hkept).handled carries safe kept hnow hi late

theorem rustSender_retransmits : Retransmits rustSender ReliableSender.isStalled where
  send_window s now id parts _ := by
    simp only [rustSender, ReliableSender.sendFragments_eq]
  onAck_window s a := List.dropWhile_suffix _
  timeouts_window s now _ := by
    simp [rustSender, ReliableSender.dueTimeouts]
  kept s now h e he hlost := by
    have hany := (Bool.or_eq_false_iff.mp h).2
    rw [List.any_map, List.any_eq_false] at hany
    exact hany e he (congrArg (·.2.2) (ReliableSender.dueEntry_lost hlost))

/-- A pass of the phone that gives nobody up has gone through the whole window. -/
theorem retransmit_kept {s : ReliableControl.Sender} {now : Nat}
    (h : (s.retransmit now).1.isStalled = false) :
    s.stalled = false ∧ (ReliableControl.Sender.scan now s.window).2.2 = false := by
  cases hs : s.stalled with
  | true =>
    rw [SenderPair.retransmit_stalled hs] at h
    exact absurd (hs.symm.trans h) (by decide)
  | false =>
    rw [SenderPair.retransmit_running hs] at h
    exact ⟨rfl, h⟩

theorem javaSender_retransmits : Retransmits javaSender ReliableControl.Sender.isStalled where
  send_window s now id parts hopen := by
    simp only [javaSender, ReliableControl.Sender.sendFragments_open hopen]
  onAck_window s a := List.dropWhile_suffix _
  timeouts_window s now h := by
    obtain ⟨hopen, hscan⟩ := retransmit_kept h
    simp only [javaSender, SenderPair.retransmit_running hopen,
      ReliableControl.Sender.scan_window hscan, List.map_map]
    rfl
  kept s now h e he hlost := by
    obtain ⟨-, hscan⟩ := retransmit_kept h
    rw [ReliableControl.Sender.scan_stalled, List.any_map, List.any_eq_false] at hscan
    exact hscan e he (congrArg (·.2.2) (ReliableSender.dueEntry_lost hlost))

def Action.post? : Action → Option (Nat × Msg)
  | .send now _ m => some (now, m)
  | _ => none

/-- The PC's sender takes every message at the time of the call. -/
theorem posted_rust (s : Clocked ReliableSender ρ) (actions : List Action) :
    (Run.run (Clocked.step rustSender R ReliableSender.isStalled room ackRoom) s actions).posted =
      s.posted ++ actions.filterMap Action.post? := by
  induction actions generalizing s with
  | nil => simp
  | cons a actions ih =>
    rw [Run.run_cons, ih]
    cases a with
    | send now msgId m =>
      have hout := send_rust_ne_nil s.wired.sender now msgId m
      simp [Clocked.step, hout, Action.post?]
    | _ => rfl

end Kulua.Direct
