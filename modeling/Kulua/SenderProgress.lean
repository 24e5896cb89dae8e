import Kulua.SenderEquivalence

/-! When `ReliableSender` gives its peer up. The limit is meant for timeouts in a row without
progress; the code counts timeouts, and an ACK takes none of them back. -/

namespace Kulua
open Foundation Foundation.Run Foundation.Segment

inductive SenderCall where
  | sendCtrlBytes (now : Nat) (msgId : U32) (payload : Bytes)
  | onAck (ackSeq : U32)
  | dueTimeouts (now : Nat)
  deriving DecidableEq, Repr

def SenderCall.time? : SenderCall → Option Nat
  | .sendCtrlBytes now .. | .dueTimeouts now => some now
  | .onAck _ => none

/-- The times of the calls do not decrease. -/
def InOrder (calls : List SenderCall) : Prop := (calls.filterMap SenderCall.time?).Pairwise (· ≤ ·)

instance (calls : List SenderCall) : Decidable (InOrder calls) :=
  inferInstanceAs (Decidable (List.Pairwise ..))

/-- What happens to a fragment in the window: it times out, or others are released. -/
inductive Mark where
  | timedOut
  | progress
  deriving DecidableEq, Repr

/-- The marks, newest first, from the `n`th last timeout on. -/
def lastTimeouts : Nat → List Mark → List Mark
  | 0, _ | _ + 1, [] => []
  | n + 1, .timedOut :: marks => .timedOut :: lastTimeouts n marks
  | n + 1, .progress :: marks => .progress :: lastTimeouts (n + 1) marks

/-- A fragment in the window with its marks. -/
abbrev Fate := OutEntry × List Mark

namespace Fate

def fresh (e : OutEntry) : Fate := (e, [])

def progress (x : Fate) : Fate := (x.1, .progress :: x.2)

def dueEntry (now : Nat) (x : Fate) : Fate :=
  ((ReliableSender.dueEntry now x.1).1, if Due now x.1 then .timedOut :: x.2 else x.2)

end Fate

structure Watched where
  sender : ReliableSender
  fates : List Fate
  tied : fates.map Prod.fst = sender.window

namespace Watched

def new : Watched := ⟨.new, [], rfl⟩

variable (self : Watched)

/-- The fragments that an ACK leaves in the window. -/
def left (ackSeq : U32) : List Fate :=
  self.fates.dropWhile fun x => ReliableSender.seqLe x.1.seq ackSeq

def releases (ackSeq : U32) : Bool :=
  self.sender.window.head?.any fun e => ReliableSender.seqLe e.seq ackSeq

theorem left_tied (ackSeq : U32) :
    (self.left ackSeq).map Prod.fst = (self.sender.onAck ackSeq).window := by
  rw [ReliableSender.onAck, ← self.tied, List.dropWhile_map]
  rfl

def step : SenderCall → Watched
  | .sendCtrlBytes now msgId payload =>
    let sender := (self.sender.sendCtrlBytes now msgId payload).1
    { sender := sender
      fates := self.fates ++ (sender.window.drop self.sender.window.length).map .fresh
      tied := by
        simp only [sender, ReliableSender.sendCtrlBytes_eq, ReliableSender.sendFragments_eq,
          List.drop_left, List.map_append, self.tied, List.map_map]
        rfl }
  | .onAck ackSeq =>
    { sender := self.sender.onAck ackSeq
      fates := if self.releases ackSeq then (self.left ackSeq).map .progress else self.left ackSeq
      tied := by
        rw [← self.left_tied]
        split
        · rw [List.map_map]
          rfl
        · rfl }
  | .dueTimeouts now =>
    { sender := (self.sender.dueTimeouts now).1
      fates := self.fates.map (.dueEntry now)
      tied := by
        simp only [ReliableSender.dueTimeouts, ← self.tied, List.map_map]
        rfl }

/-- The call declares the peer dead for no fragment that others were released during the last
timeouts of. -/
def StallsTruly : SenderCall → Prop
  | .dueTimeouts now => ∀ x ∈ self.fates, (ReliableSender.dueEntry now x.1).2.2 = true →
      .progress ∉ lastTimeouts (lossLimit + 1) (.timedOut :: x.2)
  | _ => True

instance : (call : SenderCall) → Decidable (self.StallsTruly call)
  | .dueTimeouts _ => inferInstanceAs (Decidable (∀ x ∈ _, _ → _))
  | .sendCtrlBytes .. | .onAck _ => .isTrue trivial

/-- An ACK that releases fragments leaves none in the window that has timed out. -/
def LeavesFresh : SenderCall → Prop
  | .onAck ackSeq => self.releases ackSeq = true → ∀ x ∈ self.left ackSeq, x.1.lossCount = 0
  | _ => True

theorem dueEntry_stalls (now : Nat) (e : OutEntry) :
    (ReliableSender.dueEntry now e).2.2 = true ↔ Lost now e := by
  obtain h | h | h := ReliableSender.due_cases now e
  · simp [ReliableSender.dueEntry_idle h, Lost, h]
  · simp [ReliableSender.dueEntry_resent h, Lost, Nat.not_le.mpr h.2]
  · simp [ReliableSender.dueEntry_lost h, h]

theorem dueEntry_due {now : Nat} {e : OutEntry} (h : Due now e) :
    (ReliableSender.dueEntry now e).1 =
      { e with lastSent := now, lossCount := e.lossCount + 1 } := by
  obtain hidle | hresent | hlost := ReliableSender.due_cases now e
  · exact absurd h hidle
  · rw [ReliableSender.dueEntry_resent hresent]
  · rw [ReliableSender.dueEntry_lost hlost]

variable {self}

/-- A call keeps what every mark-free entry has, and what each step keeps of one entry. -/
theorem fates_step {P : Fate → Prop} {call : SenderCall} (h : ∀ x ∈ self.fates, P x)
    (fresh : ∀ e : OutEntry, e.lossCount = 0 → P (.fresh e))
    (acked : ∀ ackSeq, call = .onAck ackSeq → self.releases ackSeq = true →
      ∀ x ∈ self.left ackSeq, P x → P (.progress x))
    (timed : ∀ now x, P x → P (.dueEntry now x)) : ∀ x ∈ (self.step call).fates, P x := by
  cases call with
  | sendCtrlBytes now msgId payload =>
    simp only [step, ReliableSender.sendCtrlBytes_eq, ReliableSender.sendFragments_eq,
      List.drop_left, List.map_map, List.forall_mem_append]
    refine ⟨h, fun x hx => ?_⟩
    obtain ⟨f, -, rfl⟩ := List.mem_map.mp hx
    exact fresh _ rfl
  | onAck ackSeq =>
    have hleft : ∀ x ∈ self.left ackSeq, P x := fun x hx =>
      h x ((List.dropWhile_suffix _).subset hx)
    simp only [step]
    split
    · rename_i hreleases
      intro x hx
      obtain ⟨y, hy, rfl⟩ := List.mem_map.mp hx
      exact acked ackSeq rfl hreleases y hy (hleft y hy)
    · exact hleft
  | dueTimeouts now =>
    intro x hx
    obtain ⟨y, hy, rfl⟩ := List.mem_map.mp hx
    exact timed now y (h y hy)

/-- The code counts all timeouts. -/
def Counted (x : Fate) : Prop := x.2.count .timedOut = x.1.lossCount

theorem counted_dueEntry (now : Nat) {x : Fate} (h : Counted x) : Counted (.dueEntry now x) := by
  unfold Counted Fate.dueEntry at *
  by_cases hdue : Due now x.1
  · simp [dueEntry_due hdue, hdue, h]
  · simpa [ReliableSender.dueEntry_idle hdue, hdue] using h

theorem counted_step (h : ∀ x ∈ self.fates, Counted x) (call : SenderCall) :
    ∀ x ∈ (self.step call).fates, Counted x := by
  refine fates_step h (fun e he => ?_) (fun _ _ _ x _ hx => ?_) (fun now x hx => ?_)
  · simp [Counted, Fate.fresh, he]
  · simpa [Counted, Fate.progress] using hx
  · exact counted_dueEntry now hx

theorem counted_run (calls : List SenderCall) : ∀ x ∈ (run step new calls).fates, Counted x :=
  invariant_all (I := fun w : Watched => ∀ x ∈ w.fates, Counted x) (fun _ call h => counted_step h call)
    (by simp [new]) calls

/-- No progress since the first timeout. -/
def Unbroken (x : Fate) : Prop :=
  ∃ n, x.2 = List.replicate x.1.lossCount .timedOut ++ List.replicate n .progress

theorem unbroken_step (h : ∀ x ∈ self.fates, Unbroken x) {call : SenderCall}
    (hfresh : self.LeavesFresh call) : ∀ x ∈ (self.step call).fates, Unbroken x := by
  refine fates_step h (fun e he => ⟨0, ?_⟩) (fun ackSeq hcall hreleases x hx hun => ?_)
    (fun now x hun => ?_)
  · simp [Fate.fresh, he]
  · subst hcall
    obtain ⟨n, hn⟩ := hun
    have hzero := hfresh hreleases x hx
    refine ⟨n + 1, ?_⟩
    simp [Fate.progress, hn, hzero, List.replicate_succ]
  · obtain ⟨n, hn⟩ := hun
    refine ⟨n, ?_⟩
    by_cases hdue : Due now x.1
    · simp [Fate.dueEntry, dueEntry_due hdue, hdue, hn, List.replicate_succ]
    · simp [Fate.dueEntry, ReliableSender.dueEntry_idle hdue, hdue, hn]

theorem lastTimeouts_replicate {n m : Nat} (h : n ≤ m) (marks : List Mark) :
    lastTimeouts n (List.replicate m .timedOut ++ marks) = List.replicate n .timedOut := by
  induction n generalizing m with
  | zero => simp [lastTimeouts]
  | succ n ih =>
    obtain ⟨m, rfl⟩ := Nat.exists_eq_add_of_le' (Nat.one_le_of_lt h)
    rw [List.replicate_succ, List.cons_append, lastTimeouts, ih (by omega), List.replicate_succ]

theorem progress_mem_lastTimeouts {n m : Nat} (h : m < n) (marks : List Mark) :
    .progress ∈ lastTimeouts n (List.replicate m .timedOut ++ .progress :: marks) := by
  induction m generalizing n with
  | zero =>
    obtain ⟨n, rfl⟩ := Nat.exists_eq_add_of_le' (Nat.one_le_of_lt h)
    exact List.mem_cons_self ..
  | succ m ih =>
    obtain ⟨n, rfl⟩ := Nat.exists_eq_add_of_le' (Nat.one_le_of_lt h)
    rw [List.replicate_succ, List.cons_append, lastTimeouts]
    exact List.mem_cons_of_mem _ (ih (by omega))

theorem stallsTruly_of_unbroken (h : ∀ x ∈ self.fates, Unbroken x) (call : SenderCall) :
    self.StallsTruly call := by
  cases call with
  | sendCtrlBytes | onAck => trivial
  | dueTimeouts now =>
    intro x hx hstalls
    obtain ⟨n, hn⟩ := h x hx
    have hlost := ((dueEntry_stalls now x.1).mp hstalls).2
    rw [hn, ← List.cons_append, ← List.replicate_succ, lastTimeouts_replicate (by omega)]
    simp

theorem rtoFor_le (loss : Nat) : ReliableSender.rtoFor loss ≤ maxRto := min_le_right ..

/-- Scans so far apart that every entry is due at each of them. -/
def scans (t n : Nat) : List SenderCall :=
  (List.range n).map fun i => .dueTimeouts (t + (i + 1) * maxRto)

theorem scans_succ (t n : Nat) :
    scans t (n + 1) = scans t n ++ [.dueTimeouts (t + (n + 1) * maxRto)] := by
  simp [scans, List.range_succ]

theorem due_scan {e : OutEntry} {t n : Nat} (h : e.lastSent ≤ t + n * maxRto) :
    Due (t + (n + 1) * maxRto) e := by
  have hrto := rtoFor_le e.lossCount
  unfold Due
  rw [Nat.succ_mul]
  omega

theorem run_scans {x : Fate} {t : Nat} (hx : x ∈ self.fates) (hsent : x.1.lastSent ≤ t) (n : Nat) :
    ∃ y ∈ (run step self (scans t n)).fates, y.2 = List.replicate n .timedOut ++ x.2 ∧
      y.1.lossCount = x.1.lossCount + n ∧ y.1.lastSent ≤ t + n * maxRto := by
  induction n with
  | zero => exact ⟨x, hx, rfl, rfl, by simpa using hsent⟩
  | succ n ih =>
    obtain ⟨y, hy, hmarks, hloss, hlast⟩ := ih
    have hdue := due_scan hlast
    rw [scans_succ, run_append]
    refine ⟨_, List.mem_map_of_mem hy, ?_, ?_, ?_⟩
    · rw [Fate.dueEntry, if_pos hdue, hmarks, List.replicate_succ, List.cons_append]
    · simp only [Fate.dueEntry, dueEntry_due hdue, hloss]
      rfl
    · simp only [Fate.dueEntry, dueEntry_due hdue]
      exact le_rfl

/-- An entry that has timed out before the last progress is given up all the same. -/
theorem not_stallsTruly_scans {x : Fate} {marks : List Mark} {t : Nat} (hx : x ∈ self.fates)
    (hmarks : x.2 = .progress :: marks) (hloss : x.1.lossCount ≠ 0) (hsent : x.1.lastSent ≤ t) :
    ¬Along step StallsTruly self (scans t lossLimit) := by
  intro along
  rw [lossLimit, scans_succ, along_append, along_cons] at along
  obtain ⟨y, hy, hlast, hcount, hsent'⟩ := run_scans hx hsent 7
  have hlost : Lost (t + 8 * maxRto) y.1 := ⟨due_scan hsent', by
    rw [hcount, lossLimit]
    omega⟩
  refine along.2.1 y hy ((dueEntry_stalls _ _).mpr hlost) ?_
  rw [hlast, hmarks, ← List.cons_append, ← List.replicate_succ]
  exact progress_mem_lastTimeouts (by decide) marks

theorem inOrder_scans {calls : List SenderCall} (ordered : InOrder calls) {t : Nat}
    (ht : ∀ s ∈ calls.filterMap SenderCall.time?, s ≤ t) (n : Nat) :
    InOrder (calls ++ scans t n) := by
  have htimes : (scans t n).filterMap SenderCall.time? =
      (List.range n).map fun i => t + (i + 1) * maxRto := by
    simp [scans, List.filterMap_map, Function.comp_def, SenderCall.time?]
  rw [InOrder, List.filterMap_append, htimes, List.pairwise_append]
  refine ⟨ordered, ?_, fun s hs u hu => ?_⟩
  · rw [List.pairwise_map]
    refine List.pairwise_lt_range.imp fun hlt => ?_
    gcongr
  · obtain ⟨i, -, rfl⟩ := List.mem_map.mp hu
    exact (ht s hs).trans (Nat.le_add_right ..)

theorem leavesFresh_of_scans {calls : List SenderCall} {call : SenderCall}
    (ordered : InOrder (calls ++ [call]))
    (h : ∀ t, InOrder (calls ++ [call] ++ scans t lossLimit) →
      Along step StallsTruly new (calls ++ [call] ++ scans t lossLimit)) :
    (run step new calls).LeavesFresh call := by
  cases call with
  | sendCtrlBytes | dueTimeouts => trivial
  | onAck ackSeq =>
    intro hreleases x hx
    by_contra hloss
    let t := (List.filterMap SenderCall.time? (calls ++ [.onAck ackSeq])).sum + x.1.lastSent
    have ht : ∀ s ∈ List.filterMap SenderCall.time? (calls ++ [.onAck ackSeq]), s ≤ t :=
      fun s hs => (List.le_sum_of_mem hs).trans (Nat.le_add_right ..)
    have along := h t (inOrder_scans ordered ht lossLimit)
    rw [along_append] at along
    refine not_stallsTruly_scans (x := x.progress) ?_ rfl hloss (Nat.le_add_left ..) along.2
    simp only [run_append, run_cons, run_nil, step, hreleases, if_true]
    exact List.mem_map_of_mem hx

theorem leavesFresh_timers (w : Watched) (timers : List Nat) :
    Along step LeavesFresh w (timers.map .dueTimeouts) := by
  induction timers generalizing w with
  | nil => trivial
  | cons now timers ih => exact ⟨trivial, ih _⟩

/-- Whatever part of the calls is made, followed by timer calls only, no peer is declared dead
that is acknowledging, if and only if no ACK that releases fragments leaves one in the window
that has timed out. -/
theorem stalls_truly_iff {calls : List SenderCall} (ordered : InOrder calls) :
    (∀ (made : List SenderCall) (timers : List Nat), made <+: calls →
        InOrder (made ++ timers.map .dueTimeouts) →
        Along step StallsTruly new (made ++ timers.map .dueTimeouts)) ↔
      Along step LeavesFresh new calls := by
  constructor
  · intro h
    induction calls using List.reverseRecOn with
    | nil => trivial
    | append_singleton calls call ih =>
      have hpre : calls <+: calls ++ [call] := List.prefix_append ..
      have hordered : InOrder calls := by
        rw [InOrder, List.filterMap_append] at ordered
        exact (List.pairwise_append.mp ordered).1
      rw [along_append]
      refine ⟨ih hordered fun made timers hmade => h made timers (hmade.trans hpre), ?_, trivial⟩
      refine leavesFresh_of_scans ordered fun t ht => ?_
      have hscans : scans t lossLimit =
          ((List.range lossLimit).map fun i => t + (i + 1) * maxRto).map .dueTimeouts := by
        rw [List.map_map]
        rfl
      rw [hscans] at ht ⊢
      exact h _ _ (List.prefix_refl _) ht
  · rintro along made timers ⟨rest, rfl⟩ -
    rw [along_append] at along
    refine along_of_kept (I := fun w : Watched => ∀ x ∈ w.fates, Unbroken x)
      (fun _ _ h hfresh => unbroken_step h hfresh)
      (fun _ call h _ => stallsTruly_of_unbroken h call) (by simp [new])
      ((along_append ..).mpr ⟨along.1, leavesFresh_timers _ timers⟩)

/-- Three fragments. The first is released after one timeout of the others, the second after
four more. -/
def slowPeer : List SenderCall :=
  [.sendCtrlBytes 0 1 [1], .sendCtrlBytes 0 2 [2], .sendCtrlBytes 0 3 [3],
    .dueTimeouts 1600000000, .onAck 1, .dueTimeouts 3200000000, .dueTimeouts 4800000000,
    .dueTimeouts 6400000000, .dueTimeouts 8000000000, .onAck 2]

/-- Four timeouts after the second ACK the peer is declared dead. -/
theorem stalls_despite_acks :
    InOrder (slowPeer ++ scans 8000000000 4) ∧
      (run step new (slowPeer ++ scans 8000000000 4)).sender.stalled = true ∧
      ¬Along step StallsTruly new (slowPeer ++ scans 8000000000 4) := by decide

/-- A peer that acknowledges in time. -/
theorem stalls_truly_iff_prompt :
    (∀ (made : List SenderCall) (timers : List Nat),
        made <+: [.sendCtrlBytes 0 1 [1], .sendCtrlBytes 0 2 [2], .onAck 1, .dueTimeouts 200000000] →
        InOrder (made ++ timers.map .dueTimeouts) →
        Along step StallsTruly new (made ++ timers.map .dueTimeouts)) ↔
      Along step LeavesFresh new
        [.sendCtrlBytes 0 1 [1], .sendCtrlBytes 0 2 [2], .onAck 1, .dueTimeouts 200000000] :=
  stalls_truly_iff (by decide)

end Watched
end Kulua
