import Kulua.ReliableReceiver
import Kulua.ReliableControl

/-! The two receivers of the control stream side by side, given the same DATA frames.
Both are the intake with tests of their own for what it takes; as long as the tests
come out alike, they deliver, acknowledge and die alike. -/

namespace Kulua
open Foundation

/-- What a fragment holds, whatever it was compared with. -/
def RecvFragment.content {Below : U32 → U32 → Prop} (f : RecvFragment Below) :
    U32 × U32 × U32 × Bytes := (f.msgId, f.frag, f.total, f.data)

namespace Buffer

variable {Below Below' : U32 → U32 → Prop}

/-- The same fragments under the same sequence numbers. -/
def Similar (buf : Buffer Below) (buf' : Buffer Below') : Prop :=
  buf.size = buf'.size ∧
    ∀ q : U32, (buf[q]?).map RecvFragment.content = (buf'[q]?).map RecvFragment.content

variable {buf : Buffer Below} {buf' : Buffer Below'}

theorem Similar.isSome (similar : Similar buf buf') (q : U32) :
    (buf[q]?).isSome = (buf'[q]?).isSome := by
  simpa using congrArg Option.isSome (similar.2 q)

theorem Similar.contains (similar : Similar buf buf') (q : U32) :
    buf.contains q = buf'.contains q := by
  rw [Std.TreeMap.contains_eq_isSome_getElem?, Std.TreeMap.contains_eq_isSome_getElem?,
    similar.isSome]

theorem Similar.insert (similar : Similar buf buf') (seq : U32) {f : RecvFragment Below}
    {f' : RecvFragment Below'} (hf : f.content = f'.content) :
    Similar (buf.insert seq f) (buf'.insert seq f') := by
  constructor
  · simp only [Std.TreeMap.size_insert, similar.contains, similar.1]
  · intro q
    rw [Std.TreeMap.getElem?_insert, Std.TreeMap.getElem?_insert]
    split
    · simp [hf]
    · exact similar.2 q

theorem Similar.erase (similar : Similar buf buf') (seq : U32) :
    Similar (buf.erase seq) (buf'.erase seq) := by
  constructor
  · simp only [Std.TreeMap.size_erase, similar.contains, similar.1]
  · intro q
    rw [Std.TreeMap.getElem?_erase, Std.TreeMap.getElem?_erase]
    split
    · rfl
    · exact similar.2 q

theorem Similar.removeRun (similar : Similar buf buf') (start : U32) (n : Nat) :
    Similar (buf.removeRun start n) (buf'.removeRun start n) := by
  induction n with
  | zero => exact similar
  | succ n ih => exact ih.erase _

/-- Either both buffers have the fragment, with the same content, or neither has it. -/
theorem Similar.lookup (similar : Similar buf buf') (q : U32) :
    (buf[q]? = none ∧ buf'[q]? = none) ∨
      ∃ f f', buf[q]? = some f ∧ buf'[q]? = some f' ∧ f.content = f'.content := by
  have h := similar.2 q
  rcases hf : buf[q]? with _ | f <;> rcases hf' : buf'[q]? with _ | f' <;> simp_all

theorem Similar.pieces (similar : Similar buf buf') (start msgId : U32) (i n : Nat) :
    buf.pieces start msgId i n = buf'.pieces start msgId i n := by
  induction n generalizing i with
  | zero => rfl
  | succ n ih =>
      rw [Buffer.pieces, Buffer.pieces]
      rcases similar.lookup (start + BitVec.ofNat 32 i) with ⟨h, h'⟩ | ⟨f, f', h, h', hcontent⟩
      · simp only [h, h']
      · simp only [RecvFragment.content, Prod.mk.injEq] at hcontent
        simp only [h, h', hcontent, ih]

theorem Similar.collectRun (similar : Similar buf buf') (next : U32) :
    Option.Rel (fun x y => Similar x.1 y.1 ∧ x.2 = y.2) (buf.collectRun next)
      (buf'.collectRun next) := by
  unfold Buffer.collectRun
  rcases similar.lookup next with ⟨h, h'⟩ | ⟨f, f', h, h', hcontent⟩
  · simp only [h, h']
    exact .none
  · simp only [RecvFragment.content, Prod.mk.injEq] at hcontent
    obtain ⟨hmsg, hfrag, htotal, -⟩ := hcontent
    simp only [h, h', hmsg, hfrag, htotal, similar.pieces]
    split
    · exact .none
    · rcases buf'.pieces next f'.msgId 0 f'.total.toNat with _ | ps
      · exact .none
      · exact .some ⟨similar.removeRun .., rfl⟩

end Buffer

namespace Intake

variable {Below Below' : U32 → U32 → Prop}

/-- Two receivers in the same state, whatever their tests. -/
structure Similar (r : Intake Below) (r' : Intake Below') : Prop where
  nextSeq : r.nextSeq = r'.nextSeq
  buf : Buffer.Similar r.buf r'.buf
  dead : r.dead = r'.dead

variable {r : Intake Below} {r' : Intake Below'}

theorem similar_new : Similar (new : Intake Below) (new : Intake Below') :=
  ⟨rfl, ⟨rfl, fun _ => by simp [new]⟩, rfl⟩

theorem Similar.deliverNext (similar : Similar r r') :
    Option.Rel (fun x y => Similar x.1 y.1 ∧ x.2 = y.2) r.deliverNext r'.deliverNext := by
  unfold Intake.deliverNext
  have hrun := similar.buf.collectRun r.nextSeq
  rw [similar.nextSeq] at hrun ⊢
  rcases h : r.buf.collectRun r'.nextSeq with _ | x <;>
    rcases h' : r'.buf.collectRun r'.nextSeq with _ | x' <;> rw [h, h'] at hrun
  · exact .none
  · cases hrun
  · cases hrun
  · obtain ⟨hbuf, hx⟩ := Option.rel_some_some.mp hrun
    refine .some ⟨⟨?_, hbuf, similar.dead⟩, congrArg Prod.fst hx⟩
    exact congrArg (fun run : Bytes × U32 => r'.nextSeq + run.2) hx

theorem Similar.accept (similar : Similar r r') (seq : U32) {f : RecvFragment Below}
    {f' : RecvFragment Below'} (hf : f.content = f'.content) :
    Similar (r.accept seq f).1 (r'.accept seq f').1 ∧
      (r.accept seq f).2 = (r'.accept seq f').2 := by
  have hins := similar.buf.insert seq hf
  have stored : Similar { r with buf := r.buf.insert seq f }
      { r' with buf := r'.buf.insert seq f' } := ⟨similar.nextSeq, hins, similar.dead⟩
  have hdrain := Run.drain_related (fun _ _ h => h.deliverNext) (r.buf.insert seq f).size stored
  unfold Intake.accept deliver
  simp only [← hins.1]
  exact ⟨⟨hdrain.1.nextSeq, hdrain.1.buf, by rw [hdrain.1.dead, hdrain.1.buf.1]⟩, hdrain.2⟩

/-- The receiver takes the fragment of the frame. -/
def Takes (admits : U32 → U32 → Bool) (r : Intake Below) (frame : Frame) : Prop :=
  admits frame.seq r.nextSeq = true ∧ Below frame.frag frame.declaredTotal

theorem onFrame_not_takes {admits : U32 → U32 → Bool} [DecidableRel Below] {frame : Frame}
    (h : ¬r.Takes admits frame) : r.onFrame admits frame = (r, []) := by
  unfold Takes at h
  unfold Intake.onFrame
  split
  · rfl
  · split
    · split
      · rw [dif_neg fun hbelow => h ⟨by assumption, hbelow⟩]
      · rfl
    · rfl

/-- Receivers in the same state that both take a frame, or both do not, end up in the same
state and deliver the same. -/
theorem Similar.onFrame [DecidableRel Below] [DecidableRel Below'] (similar : Similar r r')
    (admits admits' : U32 → U32 → Bool) (frame : Frame)
    (alike : r.dead = false → (∃ data, frame.payload = some (.data data)) →
      (r.Takes admits frame ↔ r'.Takes admits' frame)) :
    Similar (r.onFrame admits frame).1 (r'.onFrame admits' frame).1 ∧
      (r.onFrame admits frame).2 = (r'.onFrame admits' frame).2 := by
  have hdead' := similar.dead
  rcases hdead : r.dead with _ | _
  · rw [hdead] at hdead'
    by_cases hdata : ∃ data, frame.payload = some (.data data)
    · have halike := alike hdead hdata
      obtain ⟨data, hdata⟩ := hdata
      by_cases htakes : r.Takes admits frame
      · have htakes' := halike.mp htakes
        rw [onFrame_accept admits hdead hdata htakes.1 htakes.2,
          onFrame_accept admits' hdead'.symm hdata htakes'.1 htakes'.2]
        exact similar.accept frame.seq rfl
      · rw [onFrame_not_takes htakes, onFrame_not_takes fun h => htakes (halike.mpr h)]
        exact ⟨similar, rfl⟩
    · rw [onFrame_not_data admits hdata, onFrame_not_data admits' hdata]
      exact ⟨similar, rfl⟩
  · rw [onFrame_dead admits hdead, onFrame_dead admits' (hdead'.symm.trans hdead)]
    exact ⟨similar, rfl⟩

end Intake

structure ReceiverPair where
  rust : ReliableReceiver
  java : ReliableControl.Receiver

namespace ReceiverPair

def new : ReceiverPair := ⟨.new, .new⟩

def step (p : ReceiverPair) (frame : Frame) : ReceiverPair :=
  ⟨(p.rust.onFrame frame).1, (p.java.onFrame frame).1⟩

/-- The frame has both deliver the same, acknowledge the same and die or live alike. -/
def Agrees (p : ReceiverPair) (frame : Frame) : Prop :=
  (p.rust.onFrame frame).2 = (p.java.onFrame frame).2 ∧
    (p.rust.onFrame frame).1.ackSeq = (p.java.onFrame frame).1.ackSeq ∧
    (p.rust.onFrame frame).1.isDead = (p.java.onFrame frame).1.isDead

/-- Unless they are dead, both receivers take the fragment or both refuse it: as far as the
tests go, the number is not below the next one exactly when it lies in the window of
`2 ^ 30` numbers from there, and index and total compare alike with and without a sign. -/
def Alike (p : ReceiverPair) (frame : Frame) : Prop :=
  p.rust.dead = true ∨
    ((¬frame.seq < p.rust.nextSeq ∧ frame.frag < frame.declaredTotal) ↔
      (ReliableControl.inWindow frame.seq p.rust.nextSeq = true ∧
        frame.frag.slt frame.declaredTotal = true))

instance (p : ReceiverPair) (frame : Frame) : Decidable (Alike p frame) :=
  inferInstanceAs (Decidable (_ ∨ _))

def Related (p : ReceiverPair) : Prop := Intake.Similar p.rust.intake p.java.intake

theorem related_new : Related new := Intake.similar_new

variable {p : ReceiverPair}

theorem Related.onFrame (related : Related p) {frame : Frame} (alike : Alike p frame) :
    Related (p.step frame) ∧ Agrees p frame := by
  have hframe := Intake.Similar.onFrame related ReliableReceiver.admits ReliableControl.inWindow
    frame fun halive _ => by
      have htakes := alike.resolve_left (by simpa [ReliableReceiver.intake] using halive)
      have hnext : p.rust.nextSeq = p.java.nextSeq := related.nextSeq
      rw [hnext] at htakes
      simpa [Intake.Takes, ReliableReceiver.admits, hnext] using htakes
  rw [ReliableReceiver.onFrame_intake, ReliableControl.Receiver.onFrame_intake] at hframe
  obtain ⟨hsimilar, hsame⟩ := hframe
  exact ⟨hsimilar, hsame, congrArg (· - 1) hsimilar.nextSeq, hsimilar.dead⟩

/-- The receivers agree on every frame of a run in which each frame is one they test alike. -/
theorem receivers_agree (frames : List Frame) (alike : Run.Along step Alike new frames) :
    Run.Along step Agrees new frames :=
  Run.along_of_kept (I := Related) (fun _ _ related alike => (related.onFrame alike).1)
    (fun _ _ related alike => (related.onFrame alike).2) related_new alike

/-- A message of two fragments that arrive in the wrong order, and once more. -/
theorem receivers_agree_reordered :
    let first := Frame.ctrlData 1 1 2 0 [1]
    let second := Frame.ctrlData 2 1 2 1 [2]
    Run.Along step Agrees new [second, first, second, first] :=
  receivers_agree _ (by decide)

/-- A total beyond the signed range on the second fragment: the Rust receiver delivers the
message, the Java receiver refuses the fragment. -/
theorem receivers_disagree_on_sign :
    let first := Frame.ctrlData 1 1 2 0 [1]
    let second := Frame.ctrlData 2 1 0x80000000 1 [2]
    ¬Run.Along step Agrees new [first, second] ∧
      ((step new first).rust.onFrame second).2 = [[1, 2]] ∧
      ((step new first).java.onFrame second).2 = [] := by
  have hrust : ((step new (Frame.ctrlData 1 1 2 0 [1])).rust.onFrame
      (Frame.ctrlData 2 1 0x80000000 1 [2])).2 = [[1, 2]] := by decide
  have hjava : ((step new (Frame.ctrlData 1 1 2 0 [1])).java.onFrame
      (Frame.ctrlData 2 1 0x80000000 1 [2])).2 = [] := by decide
  refine ⟨fun along => ?_, hrust, hjava⟩
  have hsame := along.2.1.1
  rw [hrust, hjava] at hsame
  cases hsame

end ReceiverPair
end Kulua
