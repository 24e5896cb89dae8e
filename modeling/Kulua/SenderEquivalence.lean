import Kulua.ReliableSender
import Kulua.ReliableControl
import Kulua.Foundation.Run
import Mathlib.Data.List.TakeWhile

/-! The two senders of the control stream side by side: the same calls are made to the
Rust and to the Java one, and what they send, keep and report is compared. The session
that owns the Rust sender numbers its messages; the Java sender does so itself. -/

namespace Kulua
open Foundation Foundation.Segment

/-- The bytes of a message; a Java array has fewer than `2 ^ 31` of them. -/
structure CtrlBytes where
  bytes : Bytes
  short : bytes.length < 2 ^ 31

inductive SenderOp where
  | send (now : Nat) (payload : CtrlBytes)
  | ack (ackSeq : U32)
  | tick (now : Nat)

structure SenderPair where
  rust : ReliableSender
  msgId : U32
  java : ReliableControl.Sender

namespace SenderPair

def new : SenderPair := ⟨.new, 1, .new⟩

def rustCall (p : SenderPair) : SenderOp → ReliableSender × List Frame
  | .send now payload => p.rust.sendCtrlBytes now p.msgId payload.bytes
  | .ack ackSeq => (p.rust.onAck ackSeq, [])
  | .tick now => p.rust.dueTimeouts now

def javaCall (p : SenderPair) : SenderOp → ReliableControl.Sender × List Frame
  | .send now payload => p.java.sendCtrlBytes now payload.bytes
  | .ack ackSeq => (p.java.onAck ackSeq, [])
  | .tick now => p.java.retransmit now

def nextMsgId (p : SenderPair) : SenderOp → U32
  | .send _ _ => p.msgId + 1
  | .ack _ | .tick _ => p.msgId

def step (p : SenderPair) (op : SenderOp) : SenderPair :=
  ⟨(p.rustCall op).1, p.nextMsgId op, (p.javaCall op).1⟩

/-- The call has both send the same frames, keep the same sequence numbers and report
the same about being stalled. -/
def Agrees (p : SenderPair) (op : SenderOp) : Prop :=
  (p.rustCall op).2 = (p.javaCall op).2 ∧
    (∀ seq, seq ∈ (p.rustCall op).1.window.map (·.seq) ↔
      seq ∈ (p.javaCall op).1.window.map (·.seq)) ∧
    (p.rustCall op).1.isStalled = (p.javaCall op).1.isStalled

end SenderPair

def Due (now : Nat) (e : OutEntry) : Prop :=
  ReliableSender.rtoFor e.lossCount ≤ now - e.lastSent

/-- The entry is due and is sent once more. -/
def Resent (now : Nat) (e : OutEntry) : Prop := Due now e ∧ e.lossCount < lossLimit

/-- The entry is due for the last time. -/
def Lost (now : Nat) (e : OutEntry) : Prop := Due now e ∧ lossLimit ≤ e.lossCount

instance (now : Nat) (e : OutEntry) : Decidable (Due now e) := inferInstanceAs (Decidable (_ ≤ _))
instance (now : Nat) (e : OutEntry) : Decidable (Resent now e) :=
  inferInstanceAs (Decidable (_ ∧ _))
instance (now : Nat) (e : OutEntry) : Decidable (Lost now e) := inferInstanceAs (Decidable (_ ∧ _))

namespace SenderPair

/-- Where the two treat a call alike: a message is not empty, its fragment count does not
overflow an `int` and the senders are not stalled; an ACK of a stalled sender releases
nothing or everything; a timer resends nothing behind a lost entry, and nothing at all when
the senders are stalled. -/
def Alike (p : SenderPair) : SenderOp → Prop
  | .send _ payload => payload.bytes ≠ [] ∧ payload.bytes.length + maxFragment ≤ 2 ^ 31 ∧
      p.rust.stalled = false
  | .ack ackSeq => p.rust.stalled = false ∨
      (∀ e, p.rust.window.head? = some e → ReliableSender.seqLe e.seq ackSeq = false) ∨
      ∀ e ∈ p.rust.window, ReliableSender.seqLe e.seq ackSeq = true
  | .tick now => if p.rust.stalled then ∀ e ∈ p.rust.window, ¬Resent now e
      else p.rust.window.Pairwise fun e e' => Lost now e → ¬Resent now e'

/-- The two senders hold the same fragments; their timers are the same until they stall. -/
structure Related (p : SenderPair) : Prop where
  nextSeq : p.rust.nextSeq = p.java.nextSeq
  msgId : p.msgId = p.java.nextMsgId
  keys : p.rust.window.map OutEntry.key = p.java.window.map OutEntry.key
  stalled : p.rust.stalled = p.java.stalled
  running : p.java.closed = false
  timers : p.rust.stalled = false → p.rust.window = p.java.window

theorem related_new : Related new := by
  constructor <;> simp [new, ReliableSender.new, ReliableControl.Sender.new]

end SenderPair

namespace ReliableSender

theorem dueEntry_idle {now : Nat} {e : OutEntry} (h : ¬Due now e) :
    dueEntry now e = (e, none, false) := by
  rw [dueEntry, if_neg (show ¬rtoFor e.lossCount ≤ now - e.lastSent from h)]

theorem dueEntry_resent {now : Nat} {e : OutEntry} (h : Resent now e) :
    dueEntry now e =
      ({ e with lastSent := now, lossCount := e.lossCount + 1 }, some e.wire, false) := by
  have hloss := h.2
  rw [dueEntry, if_pos (show rtoFor e.lossCount ≤ now - e.lastSent from h.1)]
  dsimp only
  rw [if_neg (by omega)]

theorem dueEntry_lost {now : Nat} {e : OutEntry} (h : Lost now e) :
    dueEntry now e =
      ({ e with lastSent := now, lossCount := e.lossCount + 1 }, none, true) := by
  have hloss := h.2
  rw [dueEntry, if_pos (show rtoFor e.lossCount ≤ now - e.lastSent from h.1)]
  dsimp only
  rw [if_pos (by omega)]

/-- An entry is idle, sent once more or lost. -/
theorem due_cases (now : Nat) (e : OutEntry) : ¬Due now e ∨ Resent now e ∨ Lost now e := by
  unfold Resent Lost
  by_cases h : Due now e
  · rcases Nat.lt_or_ge e.lossCount lossLimit with hloss | hloss
    · exact Or.inr (Or.inl ⟨h, hloss⟩)
    · exact Or.inr (Or.inr ⟨h, hloss⟩)
  · exact Or.inl h

theorem dueEntry_sends (now : Nat) (e : OutEntry) :
    (dueEntry now e).2.1 = none ↔ ¬Resent now e := by
  rcases due_cases now e with h | h | h
  · simp [dueEntry_idle h, Resent, h]
  · simp [dueEntry_resent h, h]
  · have hnot : ¬Resent now e := fun hr => absurd hr.2 (Nat.not_lt.mpr h.2)
    simp [dueEntry_lost h, hnot]

theorem resends_nothing (now : Nat) (es : List OutEntry) :
    (es.map (dueEntry now)).filterMap (·.2.1) = [] ↔ ∀ e ∈ es, ¬Resent now e := by
  simp [dueEntry_sends]

end ReliableSender

namespace ReliableControl.Sender
open ReliableSender

theorem scan_idle {now : Nat} {e : OutEntry} (h : ¬Due now e) (es : List OutEntry) :
    scan now (e :: es) = (e :: (scan now es).1, (scan now es).2) := by
  rw [scan, if_neg (show ¬rtoFor e.lossCount ≤ now - e.lastSent from h)]

theorem scan_resent {now : Nat} {e : OutEntry} (h : Resent now e) (es : List OutEntry) :
    scan now (e :: es) = ({ e with lastSent := now, lossCount := e.lossCount + 1 } ::
      (scan now es).1, e.wire :: (scan now es).2.1, (scan now es).2.2) := by
  have hloss := h.2
  rw [scan, if_pos (show rtoFor e.lossCount ≤ now - e.lastSent from h.1)]
  dsimp only
  rw [if_neg (by omega)]

theorem scan_lost {now : Nat} {e : OutEntry} (h : Lost now e) (es : List OutEntry) :
    scan now (e :: es) =
      ({ e with lastSent := now, lossCount := e.lossCount + 1 } :: es, [], true) := by
  have hloss := h.2
  rw [scan, if_pos (show rtoFor e.lossCount ≤ now - e.lastSent from h.1)]
  dsimp only
  rw [if_pos (by omega)]

/-- Both scans find out alike whether an entry is lost. -/
theorem scan_stalled (now : Nat) (es : List OutEntry) :
    (scan now es).2.2 = (es.map (dueEntry now)).any (·.2.2) := by
  induction es with
  | nil => rfl
  | cons e es ih =>
      rcases due_cases now e with h | h | h
      · simp [scan_idle h, dueEntry_idle h, ih]
      · simp [scan_resent h, dueEntry_resent h, ih]
      · simp [scan_lost h, dueEntry_lost h]

/-- The Java scan ends at a lost entry, so it sends the same only if nothing behind that
entry is to be resent. -/
theorem scan_sends_iff (now : Nat) (es : List OutEntry) :
    (es.map (dueEntry now)).filterMap (·.2.1) = (scan now es).2.1 ↔
      es.Pairwise fun e e' => Lost now e → ¬Resent now e' := by
  induction es with
  | nil => simp [scan]
  | cons e es ih =>
      rw [List.pairwise_cons]
      rcases due_cases now e with h | h | h
      · have hlost : ¬Lost now e := fun hl => h hl.1
        simp only [List.map_cons, dueEntry_idle h, scan_idle h, List.filterMap_cons, ih, hlost,
          false_implies, implies_true, true_and]
      · have hlost : ¬Lost now e := fun hl => absurd h.2 (Nat.not_lt.mpr hl.2)
        simp only [List.map_cons, dueEntry_resent h, scan_resent h, List.filterMap_cons, ih, hlost,
          List.cons.injEq, false_implies, implies_true, true_and]
      · simp only [List.map_cons, dueEntry_lost h, scan_lost h, List.filterMap_cons,
          resends_nothing, h, forall_const]
        exact ⟨fun hnone => ⟨hnone, List.pairwise_of_forall_mem_list fun _ _ e' he' _ =>
          hnone e' he'⟩, fun h => h.1⟩

/-- Without a lost entry both scans leave the same timers. -/
theorem scan_window {now : Nat} {es : List OutEntry} (h : (scan now es).2.2 = false) :
    (scan now es).1 = (es.map (dueEntry now)).map (·.1) := by
  induction es with
  | nil => rfl
  | cons e es ih =>
      rcases due_cases now e with hd | hd | hd
      · rw [scan_idle hd] at h ⊢
        simp [dueEntry_idle hd, ih h]
      · rw [scan_resent hd] at h ⊢
        simp [dueEntry_resent hd, ih h]
      · rw [scan_lost hd] at h
        cases h

end ReliableControl.Sender

namespace SenderPair
open ReliableControl

variable {p : SenderPair}

/-- What both send when neither is stalled. -/
theorem Related.send_calls (related : Related p) (now : Nat) (payload : CtrlBytes)
    (hrun : p.rust.stalled = false) :
    p.rustCall (.send now payload) =
      ({ nextSeq := p.rust.nextSeq +
            BitVec.ofNat 32 (chunks maxFragment payload.bytes).length
         window := p.rust.window ++ (fragments p.rust.nextSeq p.msgId
            (BitVec.ofNat 32 (chunks maxFragment payload.bytes).length)
            (chunks maxFragment payload.bytes)).map (OutEntry.register now)
         stalled := false },
        fragments p.rust.nextSeq p.msgId
          (BitVec.ofNat 32 (chunks maxFragment payload.bytes).length)
          (chunks maxFragment payload.bytes)) ∧
    p.javaCall (.send now payload) =
      ({ p.java with
          nextSeq := p.rust.nextSeq +
            BitVec.ofNat 32 (Sender.slices payload.bytes).length
          nextMsgId := p.msgId + 1
          window := p.rust.window ++ (fragments p.rust.nextSeq p.msgId
            (BitVec.ofNat 32 (Sender.slices payload.bytes).length)
            (Sender.slices payload.bytes)).map (OutEntry.register now) },
        fragments p.rust.nextSeq p.msgId
          (BitVec.ofNat 32 (Sender.slices payload.bytes).length)
          (Sender.slices payload.bytes)) := by
  have hopen : (p.java.closed || p.java.stalled) = false := by
    rw [related.running, ← related.stalled, hrun]
    rfl
  constructor
  · rw [rustCall, ReliableSender.sendCtrlBytes_eq, ReliableSender.sendFragments_eq]
  · rw [javaCall, Sender.sendCtrlBytes_eq _ _ payload.short, Sender.sendFragments_open hopen,
      related.nextSeq, related.msgId, related.timers hrun]

theorem Related.send_agrees_iff (related : Related p) (now : Nat) (payload : CtrlBytes) :
    Agrees p (.send now payload) ↔ Alike p (.send now payload) := by
  have lengths : ∀ {base id t t' : U32} {xs ys : List Bytes},
      fragments base id t xs = fragments base id t' ys → xs.length = ys.length := by
    intro base id t t' xs ys h
    simpa using congrArg List.length h
  by_cases hrun : p.rust.stalled = false
  · obtain ⟨hrust, hjava⟩ := related.send_calls now payload hrun
    unfold Agrees
    rw [hrust, hjava]
    constructor
    · rintro ⟨hframes, -, -⟩
      have hlen := lengths hframes
      have hne : payload.bytes ≠ [] := by
        intro hnil
        rw [hnil, chunks_nil, Sender.slices_nil] at hlen
        cases hlen
      refine ⟨hne, ?_, hrun⟩
      by_contra hover
      rw [Sender.slices_overflow (by omega) payload.short] at hlen
      have hpos := length_chunks_pos (show 0 < maxFragment by decide) hne
      rw [hlen] at hpos
      cases hpos
    · rintro ⟨hne, hfits, -⟩
      rw [Sender.slices_fits hne hfits]
      refine ⟨rfl, fun seq => Iff.rfl, ?_⟩
      exact (hrun.symm.trans related.stalled : false = p.java.stalled)
  · have hstalled : p.java.stalled = true := by
      rw [← related.stalled]
      simpa using hrun
    have hmuted : (p.java.closed || p.java.stalled) = true := by simp [hstalled]
    refine iff_of_false ?_ fun h => hrun h.2.2
    -- the Rust sender forgets that it was stalled, the Java sender does not
    rintro ⟨-, -, hreport⟩
    rw [rustCall, javaCall, ReliableSender.sendCtrlBytes_eq, ReliableSender.sendFragments_eq,
      Sender.sendCtrlBytes, Sender.sendFragments_muted hmuted] at hreport
    exact Bool.false_ne_true (hreport.trans hstalled)

theorem Related.send (related : Related p) {now : Nat} {payload : CtrlBytes}
    (alike : Alike p (.send now payload)) : Related (p.step (.send now payload)) := by
  obtain ⟨hne, hfits, hrun⟩ := alike
  obtain ⟨hrust, hjava⟩ := related.send_calls now payload hrun
  rw [Sender.slices_fits hne hfits] at hjava
  constructor
  · simp only [step, hrust, hjava]
  · simp only [step, hjava, nextMsgId]
  · simp only [step, hrust, hjava]
  · simp only [step, hrust, hjava, ← related.stalled, hrun]
  · simp only [step, hjava, related.running]
  · simp only [step, hrust, hjava, implies_true]

theorem java_seqLe (a b : U32) : ReliableControl.seqLe a b = ReliableSender.seqLe a b := rfl

theorem length_dropWhile_lt_iff {es : List OutEntry} {q : OutEntry → Bool} :
    (es.dropWhile q).length < es.length ↔ ∃ e, es.head? = some e ∧ q e = true := by
  cases es with
  | nil => simp
  | cons e es =>
      have := (List.dropWhile_suffix q (l := es)).length_le
      rcases h : q e with _ | _
      · simp [h]
      · simp [h]
        omega

/-- An ACK clears the mark of a stalled Rust sender if it releases some fragments only. -/
theorem onAck_stalled_iff (s : ReliableSender) (h : s.stalled = true) (a : U32) :
    (s.onAck a).stalled = true ↔
      (∀ e, s.window.head? = some e → ReliableSender.seqLe e.seq a = false) ∨
        ∀ e ∈ s.window, ReliableSender.seqLe e.seq a = true := by
  simp only [ReliableSender.onAck, h]
  split
  · rename_i hsome
    rw [length_dropWhile_lt_iff, Ne, List.dropWhile_eq_nil_iff] at hsome
    obtain ⟨⟨e, hhead, hle⟩, hrest⟩ := hsome
    refine iff_of_false (by simp) ?_
    rintro (hnone | hall)
    · rw [hnone e hhead] at hle
      cases hle
    · exact hrest hall
  · rename_i hnone
    rw [length_dropWhile_lt_iff, Ne, List.dropWhile_eq_nil_iff] at hnone
    refine iff_of_true rfl ?_
    by_cases hall : ∀ e ∈ s.window, ReliableSender.seqLe e.seq a = true
    · exact Or.inr hall
    · refine Or.inl fun e hhead => ?_
      by_contra hle
      exact hnone ⟨⟨e, hhead, by simpa using hle⟩, hall⟩

theorem onAck_running (s : ReliableSender) (h : s.stalled = false) (a : U32) :
    (s.onAck a).stalled = false := by
  simp [ReliableSender.onAck, h]

theorem Related.ack_keys (related : Related p) (a : U32) :
    (p.rust.onAck a).window.map OutEntry.key = (p.java.onAck a).window.map OutEntry.key := by
  have hrust := OutEntry.map_key_dropWhile (ReliableSender.seqLe · a) p.rust.window
  have hjava := OutEntry.map_key_dropWhile (ReliableSender.seqLe · a) p.java.window
  rw [related.keys] at hrust
  exact hrust.trans hjava.symm

theorem Related.ack_stalled_iff (related : Related p) (a : U32) :
    (p.rust.onAck a).stalled = p.java.stalled ↔ Alike p (.ack a) := by
  rw [← related.stalled, Alike]
  rcases h : p.rust.stalled with _ | _
  · simp [onAck_running p.rust h]
  · rw [onAck_stalled_iff p.rust h]
    simp

theorem Related.ack_agrees_iff (related : Related p) (a : U32) :
    Agrees p (.ack a) ↔ Alike p (.ack a) := by
  rw [← related.ack_stalled_iff a]
  have hseqs : (p.rust.onAck a).window.map (·.seq) = (p.java.onAck a).window.map (·.seq) := by
    have := congrArg (List.map Prod.fst) (related.ack_keys a)
    simpa [Function.comp_def, OutEntry.key] using this
  simp only [Agrees, rustCall, javaCall, hseqs, implies_true, true_and]
  rfl

theorem Related.ack (related : Related p) {a : U32} (alike : Alike p (.ack a)) :
    Related (p.step (.ack a)) where
  nextSeq := related.nextSeq
  msgId := related.msgId
  keys := related.ack_keys a
  stalled := (related.ack_stalled_iff a).mpr alike
  running := related.running
  timers h := by
    have hrun : p.rust.stalled = false := by
      rw [related.stalled]
      exact ((related.ack_stalled_iff a).mpr alike).symm.trans h
    have := related.timers hrun
    simp only [step, rustCall, javaCall, ReliableSender.onAck, Sender.onAck, this, java_seqLe]

theorem retransmit_running {s : Sender} (h : s.stalled = false) (now : Nat) :
    s.retransmit now = ({ s with
      window := (Sender.scan now s.window).1
      stalled := (Sender.scan now s.window).2.2 }, (Sender.scan now s.window).2.1) := by
  unfold Sender.retransmit
  by_cases hnil : s.window = []
  · simp only [hnil, List.isEmpty_nil, Bool.true_or, if_true, Sender.scan]
    cases s
    simp_all
  · have hne : (s.window.isEmpty || s.stalled) = false := by simp [hnil, h]
    rw [hne]
    rfl

theorem retransmit_stalled {s : Sender} (h : s.stalled = true) (now : Nat) :
    s.retransmit now = (s, []) := by
  simp [Sender.retransmit, h]

theorem Related.tick_keys (related : Related p) (now : Nat) :
    (p.rust.dueTimeouts now).1.window.map OutEntry.key =
      (p.java.retransmit now).1.window.map OutEntry.key := by
  rw [ReliableSender.dueTimeouts_keys, Sender.retransmit_keys, related.keys]

theorem Related.tick_stalled (related : Related p) (now : Nat) :
    (p.rust.dueTimeouts now).1.stalled = (p.java.retransmit now).1.stalled := by
  rcases h : p.rust.stalled with _ | _
  · rw [retransmit_running (related.stalled.symm.trans h), Sender.scan_stalled,
      ← related.timers h]
    simp [ReliableSender.dueTimeouts, h]
  · have hjava := related.stalled.symm.trans h
    rw [retransmit_stalled hjava, hjava]
    simp [ReliableSender.dueTimeouts, h]

theorem Related.tick_agrees_iff (related : Related p) (now : Nat) :
    Agrees p (.tick now) ↔ Alike p (.tick now) := by
  have hseqs : (p.rust.dueTimeouts now).1.window.map (·.seq) =
      (p.java.retransmit now).1.window.map (·.seq) := by
    have := congrArg (List.map Prod.fst) (related.tick_keys now)
    simpa [Function.comp_def, OutEntry.key] using this
  have hsends : (p.rust.dueTimeouts now).2 = (p.java.retransmit now).2 ↔
      Alike p (.tick now) := by
    rw [Alike]
    rcases h : p.rust.stalled with _ | _
    · rw [retransmit_running (related.stalled.symm.trans h), ← related.timers h]
      exact Sender.scan_sends_iff now p.rust.window
    · rw [retransmit_stalled (related.stalled.symm.trans h)]
      exact ReliableSender.resends_nothing now p.rust.window
  rw [← hsends]
  simp only [Agrees, rustCall, javaCall, hseqs, implies_true, true_and]
  exact and_iff_left (related.tick_stalled now)

theorem Related.tick (related : Related p) (now : Nat) : Related (p.step (.tick now)) where
  nextSeq := by
    have hjava : (p.java.retransmit now).1.nextSeq = p.java.nextSeq := by
      unfold Sender.retransmit
      split <;> rfl
    exact related.nextSeq.trans hjava.symm
  msgId := by
    have hjava : (p.java.retransmit now).1.nextMsgId = p.java.nextMsgId := by
      unfold Sender.retransmit
      split <;> rfl
    exact related.msgId.trans hjava.symm
  keys := related.tick_keys now
  stalled := related.tick_stalled now
  running := (Sender.retransmit_closed p.java now).trans related.running
  timers h := by
    have hrun : p.rust.stalled = false := by
      have hor : (p.rust.stalled || (p.rust.window.map (ReliableSender.dueEntry now)).any
        (·.2.2)) = false := h
      exact (Bool.or_eq_false_iff.mp hor).1
    have hjava := related.stalled.symm.trans hrun
    have hscan : (Sender.scan now p.rust.window).2.2 = false := by
      have := (related.tick_stalled now).symm.trans h
      rwa [retransmit_running hjava, ← related.timers hrun] at this
    simp only [step, rustCall, javaCall, retransmit_running hjava, ← related.timers hrun,
      Sender.scan_window hscan, ReliableSender.dueTimeouts]

theorem Related.agrees_iff (related : Related p) (op : SenderOp) : Agrees p op ↔ Alike p op := by
  cases op with
  | send now payload => exact related.send_agrees_iff now payload
  | ack a => exact related.ack_agrees_iff a
  | tick now => exact related.tick_agrees_iff now

theorem Related.step (related : Related p) {op : SenderOp} (alike : Alike p op) :
    Related (p.step op) := by
  cases op with
  | send now payload => exact related.send alike
  | ack a => exact related.ack alike
  | tick now => exact related.tick now

/-- The senders agree on every call of a run exactly when each is one they treat alike. -/
theorem senders_agree_iff (ops : List SenderOp) :
    Run.Along SenderPair.step Agrees new ops ↔ Run.Along SenderPair.step Alike new ops :=
  Run.along_iff_of_kept (I := Related) (fun _ _ related alike => related.step alike)
    (fun _ op related => related.agrees_iff op) related_new ops

/-- An empty message is one fragment of the Java sender and none of the Rust sender. -/
theorem senders_disagree_on_empty :
    ¬Run.Along SenderPair.step Agrees new [.send 0 ⟨[], by decide⟩] := by
  intro h
  have hlength := congrArg List.length h.1.1
  revert hlength
  decide

end SenderPair
end Kulua
