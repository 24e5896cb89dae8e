import Kulua.Foundation.Run
import Kulua.Foundation.Stutter
import Kulua.Frame

/-! The loop of the encoder thread (`DisplayEncoder.java`). A frame that the encoder gives is sent
at once, and again while the encoder gives nothing; its configuration waits for the next frame. -/

namespace Kulua.Display.EncodeLoop
open Foundation Foundation.Run

/-- What `dequeueOutputBuffer` tells of a buffer, and what is in it; it may be gone. -/
structure Buffer where
  config : Bool
  keyFrame : Bool
  endOfStream : Bool
  presentationTimeUs : BitVec 64
  data : Option Bytes

inductive Dequeued where
  | buffer (b : Buffer)
  | timeout
  /-- The codec was stopped, or failed otherwise. -/
  | failed

/-- What a turn of the loop meets. -/
structure Turn where
  /-- A resize is asked for, and the new codec is created or not. -/
  resize : Option Bool
  resetMs : Int
  /-- The sequence numbers that are drawn elsewhere. -/
  others : Nat
  dequeued : Dequeued
  nowMs : Int
  nanoTime : Int

/-- What is given to the connection. When a frame goes, and whether it went before, is not sent. -/
inductive Message where
  | mediaConfig (data : Bytes)
  | media (seq : U32) (pts : BitVec 64) (flags : U32) (data : Bytes) (ms : Int) (again : Bool)
deriving DecidableEq

/-- A part of a stream: a configuration, or a frame. -/
inductive Part where
  | config (data : Bytes)
  | frame (flags : U32) (data : Bytes)
deriving DecidableEq

/-- A frame with the configuration in front of it. -/
abbrev Shown := Option Bytes × U32 × Bytes

structure Encoder where
  running : Bool
  /-- The thread is in its loop. -/
  looping : Bool
  codec : Bool
  lastFrameMs : Int
  lastFrameData : Option Bytes
  lastFrameFlags : U32
  pendingConfig : Option Bytes
  mediaSeq : U32
  sent : List Message
  /-- What the codecs have given so far; nobody reads it. -/
  given : List Part
  /-- How many sequence numbers were drawn; nobody reads it. -/
  drawn : Nat

def flagKeyFrame : U32 := 1 <<< 1

def resendIntervalMs : Int := 33

/-- The thread has created its codec. -/
def init (nowMs : Int) : Encoder := ⟨true, true, true, nowMs, none, 0, none, 1, [], [], 0⟩

namespace Encoder

def performResize (s : Encoder) (t : Turn) : Encoder :=
  match t.resize with
  | none => s
  | some created =>
    { s with
      running := s.running && created
      codec := created
      lastFrameMs := t.resetMs
      lastFrameData := none }

/-- `nextMediaSeq`, after those that others have drawn. -/
def draw (s : Encoder) (others : Nat) : U32 × Encoder :=
  let seq := s.mediaSeq + BitVec.ofNat 32 others
  (seq, { s with mediaSeq := seq + 1, drawn := s.drawn + others + 1 })

def resendLastFrameIfStarved (s : Encoder) (t : Turn) : Encoder :=
  match s.lastFrameData with
  | none => s
  | some data =>
    if t.nowMs - s.lastFrameMs < resendIntervalMs then s
    else
      let (seq, s) := s.draw t.others
      { s with
        sent := s.sent ++ [.media seq (BitVec.ofInt 64 (t.nanoTime.tdiv 1000)) s.lastFrameFlags data
          t.nowMs true]
        lastFrameMs := t.nowMs }

def sendConfig (s : Encoder) (data : Bytes) : Encoder :=
  { s with pendingConfig := some data, given := s.given ++ [.config data] }

def sendData (s : Encoder) (t : Turn) (pts : BitVec 64) (flags : U32) (data : Bytes) : Encoder :=
  let (seq, s) := s.draw t.others
  { s with
    sent := s.sent ++ (s.pendingConfig.map Message.mediaConfig).toList ++
      [.media seq pts flags data t.nowMs false]
    pendingConfig := none
    lastFrameData := some data
    lastFrameFlags := flags
    given := s.given ++ [.frame flags data] }

def onBuffer (s : Encoder) (t : Turn) (b : Buffer) : Encoder :=
  match b.data with
  | none => s
  | some data =>
    if b.config then s.sendConfig data
    else
      { s.sendData t b.presentationTimeUs (if b.keyFrame then flagKeyFrame else 0) data with
        lastFrameMs := t.nowMs }

def onDequeued (s : Encoder) (t : Turn) : Encoder :=
  match t.dequeued with
  | .failed => { s with looping := false }
  | .timeout => s.resendLastFrameIfStarved t
  | .buffer b =>
    if b.endOfStream then { s.onBuffer t b with looping := false } else s.onBuffer t b

/-- A turn of `encodeLoop`. -/
def turn (s : Encoder) (t : Turn) : Encoder :=
  if !s.looping then s
  else if !s.running then { s with looping := false }
  else
    let s := s.performResize t
    if s.codec then s.onDequeued t else s

/-- `stop`, up to the join. -/
def stop (s : Encoder) : Encoder := { s with running := false }

end Encoder

inductive Action where
  | turn (t : Turn)
  | stop

def step (s : Encoder) : Action → Encoder
  | .turn t => s.turn t
  | .stop => s.stop

/-- The frames of a stream, each with the configuration in front of it, and the last
configuration. -/
def frames : List Part → Option Bytes × List Shown :=
  List.foldl (fun (config, shown) part => match part with
    | .config data => (some data, shown)
    | .frame flags data => (config, shown ++ [(config, flags, data)])) (none, [])

def Message.part : Message → Part
  | .mediaConfig data => .config data
  | .media _ _ flags data _ _ => .frame flags data

/-- What a viewer makes of the messages in their order. -/
def viewed (sent : List Message) : Option Bytes × List Shown :=
  frames (sent.map Message.part)

@[simp] theorem frames_config (parts : List Part) (data : Bytes) :
    frames (parts ++ [.config data]) = (some data, (frames parts).2) := by
  simp [frames]

@[simp] theorem frames_frame (parts : List Part) (flags : U32) (data : Bytes) :
    frames (parts ++ [.frame flags data]) =
      ((frames parts).1, (frames parts).2 ++ [((frames parts).1, flags, data)]) := by
  simp [frames]

theorem viewed_media (sent : List Message) (seq : U32) (pts : BitVec 64) (flags : U32)
    (data : Bytes) (ms : Int) (again : Bool) :
    viewed (sent ++ [.media seq pts flags data ms again]) =
      ((viewed sent).1, (viewed sent).2 ++ [((viewed sent).1, flags, data)]) := by
  simp [viewed, Message.part]

/-- The configuration that waits goes in front of the next frame. -/
theorem viewed_flushed (sent : List Message) (pending : Option Bytes) :
    viewed (sent ++ (pending.map Message.mediaConfig).toList) =
      (pending.or (viewed sent).1, (viewed sent).2) := by
  cases pending <;> simp [viewed, Message.part]

/-- The viewer has the frames of the encoder, and the last of them is the one to be sent again. -/
structure Faithful (s : Encoder) : Prop where
  stutters : Stutters (frames s.given).2 (viewed s.sent).2
  config : (frames s.given).1 = s.pendingConfig.or (viewed s.sent).1
  last : ∀ data, s.lastFrameData = some data →
    (frames s.given).2.getLast? = some ((viewed s.sent).1, s.lastFrameFlags, data)

variable {s s' : Encoder}

/-- What a part of a turn does to what is sent and what is kept to be sent. -/
inductive Change (s : Encoder) : Encoder → Prop
  | quiet (running looping codec : Bool) (ms : Int) {kept : Option Bytes}
    (hkept : kept = none ∨ kept = s.lastFrameData) :
    Change s { s with
      running := running, looping := looping, codec := codec, lastFrameMs := ms
      lastFrameData := kept }
  | configured (data : Bytes) : Change s (s.sendConfig data)
  | fresh (t : Turn) (pts : BitVec 64) (flags : U32) (data : Bytes) (ms : Int) :
    Change s { s.sendData t pts flags data with lastFrameMs := ms }
  | again (others : Nat) (pts : BitVec 64) {data : Bytes} (hdata : s.lastFrameData = some data)
    (ms : Int) :
    Change s { (s.draw others).2 with
      sent := s.sent ++ [.media (s.draw others).1 pts s.lastFrameFlags data ms true]
      lastFrameMs := ms }

theorem Change.same (s : Encoder) : Change s s := .quiet _ _ _ _ (.inr rfl)

theorem change_performResize (s : Encoder) (t : Turn) : Change s (s.performResize t) := by
  unfold Encoder.performResize
  split
  · exact .same s
  · exact .quiet _ _ _ _ (.inl rfl)

theorem change_onBuffer (s : Encoder) (t : Turn) (b : Buffer) : Change s (s.onBuffer t b) := by
  unfold Encoder.onBuffer
  split
  · exact .same s
  · split
    · exact .configured _
    · exact .fresh t _ _ _ _

theorem change_resend (s : Encoder) (t : Turn) : Change s (s.resendLastFrameIfStarved t) := by
  unfold Encoder.resendLastFrameIfStarved
  split
  · exact .same s
  · next hdata =>
    split
    · exact .same s
    · exact .again t.others _ hdata _

/-- What every part of a turn preserves, a step preserves. -/
theorem step_induct {P : Encoder → Prop} (change : ∀ {s s'}, P s → Change s s' → P s')
    (h : P s) (a : Action) : P (step s a) := by
  have hend : ∀ {s : Encoder}, P s → P { s with looping := false } :=
    fun h => change h (.quiet _ _ _ _ (.inr rfl))
  cases a with
  | stop => exact change h (.quiet _ _ _ _ (.inr rfl))
  | turn t =>
    unfold step Encoder.turn
    dsimp only
    split
    · exact h
    · split
      · exact hend h
      · have hresize := change h (change_performResize s t)
        split
        · unfold Encoder.onDequeued
          split
          · exact hend hresize
          · exact change hresize (change_resend _ t)
          · next b _ =>
            have hbuffer := change hresize (change_onBuffer _ t b)
            split
            · exact hend hbuffer
            · exact hbuffer
        · exact hresize

theorem Faithful.change (h : Faithful s) (move : Change s s') : Faithful s' := by
  cases move with
  | quiet running looping codec ms hkept =>
    refine ⟨h.stutters, h.config, fun data hdata => ?_⟩
    rcases hkept with hnone | hsame
    · exact absurd (hnone.symm.trans hdata) (Option.some_ne_none data).symm
    · exact h.last data (hsame.symm.trans hdata)
  | configured data =>
    refine ⟨?_, ?_, fun last hlast => ?_⟩
    · simpa [Encoder.sendConfig] using h.stutters
    · simp [Encoder.sendConfig]
    · simpa [Encoder.sendConfig] using h.last last hlast
  | fresh t pts flags data ms =>
    have hviewed : viewed (s.sendData t pts flags data).sent =
        ((frames s.given).1, (viewed s.sent).2 ++ [((frames s.given).1, flags, data)]) := by
      change viewed (s.sent ++ (s.pendingConfig.map Message.mediaConfig).toList ++ [_]) = _
      rw [viewed_media, viewed_flushed, h.config]
    have hgiven : frames (s.sendData t pts flags data).given =
        ((frames s.given).1, (frames s.given).2 ++ [((frames s.given).1, flags, data)]) :=
      frames_frame s.given flags data
    refine ⟨?_, ?_, fun data' hdata' => ?_⟩
    · change Stutters (frames (s.sendData t pts flags data).given).2
        (viewed (s.sendData t pts flags data).sent).2
      rw [hviewed, hgiven]
      exact h.stutters.fresh _
    · change (frames (s.sendData t pts flags data).given).1 =
        none.or (viewed (s.sendData t pts flags data).sent).1
      rw [hviewed, hgiven]
      rfl
    · obtain rfl : data = data' := Option.some.inj hdata'
      change (frames (s.sendData t pts flags data).given).2.getLast? =
        some ((viewed (s.sendData t pts flags data).sent).1, flags, data)
      rw [hviewed, hgiven]
      simp
  | again others pts hdata ms =>
    -- the configuration that waits is not sent with it
    rename_i data
    have hlast := h.last data hdata
    refine ⟨?_, ?_, fun data' hdata' => ?_⟩
    · rw [viewed_media]
      exact h.stutters.again hlast
    · rw [viewed_media]
      exact h.config
    · rw [viewed_media]
      exact h.last data' hdata'

theorem faithful_init (nowMs : Int) : Faithful (init nowMs) :=
  ⟨.nil, rfl, fun _ h => by cases h⟩

def seqs (sent : List Message) : List U32 :=
  sent.filterMap fun m => match m with
    | .media seq .. => some seq
    | .mediaConfig _ => none

/-- The sequence numbers are drawn from a counter that others draw from, too. -/
structure Drawn (s : Encoder) : Prop where
  next : s.mediaSeq = BitVec.ofNat 32 (s.drawn + 1)
  seqs : ∃ ns : List Nat, seqs s.sent = ns.map (fun n => BitVec.ofNat 32 (n + 1)) ∧
    ns.Pairwise (· < ·) ∧ ∀ n ∈ ns, n < s.drawn

/-- A message is sent under the number that was drawn for it. -/
theorem Drawn.append (h : Drawn s) (others : Nat) {configs : List Message}
    (hconfigs : EncodeLoop.seqs configs = []) {pts : BitVec 64} {flags : U32} {data : Bytes}
    {ms : Int} {again : Bool}
    (hsent : s'.sent = s.sent ++ configs ++ [.media (s.draw others).1 pts flags data ms again])
    (hseq : s'.mediaSeq = (s.draw others).2.mediaSeq)
    (hdrawn : s'.drawn = (s.draw others).2.drawn) : Drawn s' := by
  obtain ⟨ns, hns, hpairwise, hlt⟩ := h.seqs
  have hdraw : (s.draw others).1 = BitVec.ofNat 32 (s.drawn + others + 1) := by
    simp only [Encoder.draw, h.next, ← BitVec.ofNat_add]
    congr 1
    omega
  have hseqs : EncodeLoop.seqs s'.sent = EncodeLoop.seqs s.sent ++ [(s.draw others).1] := by
    rw [hsent, EncodeLoop.seqs, List.filterMap_append, List.filterMap_append,
      ← EncodeLoop.seqs, ← EncodeLoop.seqs, hconfigs, List.append_nil]
    rfl
  refine ⟨?_, ns ++ [s.drawn + others], ?_, ?_, fun n hn => ?_⟩
  · rw [hseq, hdrawn]
    change (s.draw others).1 + 1 = _
    rw [hdraw]
    exact (BitVec.ofNat_add _ 1).symm
  · rw [hseqs, hns, hdraw, List.map_append]
    rfl
  · refine List.pairwise_append.mpr ⟨hpairwise, List.pairwise_singleton _ _, fun n hn m hm => ?_⟩
    rw [List.mem_singleton.mp hm]
    exact (hlt n hn).trans_le (Nat.le_add_right _ _)
  · rw [hdrawn]
    change n < s.drawn + others + 1
    rcases List.mem_append.mp hn with hn | hn
    · have := hlt n hn
      omega
    · rw [List.mem_singleton.mp hn]
      omega

theorem seqs_configs (pending : Option Bytes) :
    EncodeLoop.seqs (pending.map Message.mediaConfig).toList = [] := by
  cases pending <;> rfl

theorem Drawn.change (h : Drawn s) (move : Change s s') : Drawn s' := by
  cases move with
  | quiet => exact ⟨h.next, h.seqs⟩
  | configured => exact ⟨h.next, h.seqs⟩
  | fresh t => exact h.append t.others (seqs_configs s.pendingConfig) rfl rfl rfl
  | again others => exact h.append others rfl (by rw [List.append_nil]) rfl rfl

theorem drawn_init (nowMs : Int) : Drawn (init nowMs) :=
  ⟨rfl, [], rfl, List.Pairwise.nil, fun _ h => absurd h List.not_mem_nil⟩

/-- The viewer sees the frames that the encoder gives, all of them and in their order, each with the
configuration that was given before it and each once or more; and the sequence numbers rise until
the counter comes round. -/
theorem viewer_sees (nowMs : Int) (actions : List Action) :
    (∃ counts, counts.length = (frames (run step (init nowMs) actions).given).2.length ∧
      (viewed (run step (init nowMs) actions).sent).2 =
        expand (frames (run step (init nowMs) actions).given).2 counts) ∧
    ((run step (init nowMs) actions).drawn < 2 ^ 32 →
      (seqs (run step (init nowMs) actions).sent).Pairwise fun a b => a.toNat < b.toNat) := by
  have faithful : Faithful (run step (init nowMs) actions) :=
    invariant_all (I := Faithful) (fun _ a h => step_induct Faithful.change h a)
      (faithful_init nowMs) actions
  have drawn : Drawn (run step (init nowMs) actions) :=
    invariant_all (I := Drawn) (fun _ a h => step_induct Drawn.change h a) (drawn_init nowMs)
      actions
  refine ⟨faithful.stutters.exists_counts, fun hbound => ?_⟩
  obtain ⟨ns, hns, hpairwise, hlt⟩ := drawn.seqs
  rw [hns, List.pairwise_map]
  refine hpairwise.imp_of_mem fun {n m} hn hm hnm => ?_
  have hn' := hlt n hn
  have hm' := hlt m hm
  rw [BitVec.toNat_ofNat, BitVec.toNat_ofNat, Nat.mod_eq_of_lt (by omega),
    Nat.mod_eq_of_lt (by omega)]
  omega

/-- The encoder gives a frame in this turn, or nothing. -/
def Turn.Gives (t : Turn) : Prop :=
  t.resize = none ∧ (t.dequeued = .timeout ∨ ∃ b data, t.dequeued = .buffer b ∧
    b.data = some data ∧ b.config = false ∧ b.endOfStream = false)

/-- The frames follow each other within the interval and a turn of `δ`, and what is sent again has
waited for the interval. -/
def Spaced (δ prev : Int) : List Message → Prop
  | [] => True
  | .mediaConfig _ :: rest => Spaced δ prev rest
  | .media _ _ _ _ ms again :: rest =>
    prev ≤ ms ∧ ms < prev + resendIntervalMs + δ ∧ (again = true → prev + resendIntervalMs ≤ ms) ∧
      Spaced δ ms rest

theorem spaced_configs (δ prev : Int) (pending : Option Bytes) (rest : List Message) :
    Spaced δ prev ((pending.map Message.mediaConfig).toList ++ rest) ↔ Spaced δ prev rest := by
  cases pending <;> rfl

/-- There is a frame to be sent again, and the last one went not long ago. -/
structure Steady (s : Encoder) (nowMs : Int) : Prop where
  running : s.running = true
  looping : s.looping = true
  codec : s.codec = true
  kept : s.lastFrameData ≠ none
  past : s.lastFrameMs ≤ nowMs
  recent : nowMs < s.lastFrameMs + resendIntervalMs

theorem Steady.turn_eq {nowMs : Int} (h : Steady s nowMs) {t : Turn} (ht : t.resize = none) :
    s.turn t = s.onDequeued t := by
  have hresize : s.performResize t = s := by
    unfold Encoder.performResize
    rw [ht]
  simp [Encoder.turn, h.looping, h.running, hresize, h.codec]

theorem Steady.turn {nowMs δ : Int} (h : Steady s nowMs) {t : Turn} (gives : t.Gives)
    (hle : nowMs ≤ t.nowMs) (hδ : t.nowMs ≤ nowMs + δ) :
    Steady (s.turn t) t.nowMs ∧ ∃ new, (s.turn t).sent = s.sent ++ new ∧
      ∀ rest, Spaced δ (s.turn t).lastFrameMs rest → Spaced δ s.lastFrameMs (new ++ rest) := by
  have hpast := h.past
  have hrecent := h.recent
  have hinterval : resendIntervalMs = 33 := rfl
  rw [h.turn_eq gives.1]
  rcases gives.2 with htimeout | ⟨b, data, hbuffer, hdata, hconfig, hstream⟩
  · obtain ⟨data, hdata⟩ := Option.ne_none_iff_exists'.mp h.kept
    simp only [Encoder.onDequeued, htimeout, Encoder.resendLastFrameIfStarved, hdata]
    split
    · exact ⟨⟨h.running, h.looping, h.codec, h.kept, by omega, by omega⟩, [], by simp,
        fun rest hrest => hrest⟩
    · refine ⟨⟨h.running, h.looping, h.codec, h.kept, le_rfl, by simp [hinterval]⟩, _, rfl,
        fun rest hrest => ⟨by omega, by omega, fun _ => by omega, hrest⟩⟩
  · simp only [Encoder.onDequeued, hbuffer, hstream, Encoder.onBuffer, hdata, hconfig,
      Bool.false_eq_true, if_false]
    refine ⟨⟨h.running, h.looping, h.codec, Option.some_ne_none _, le_rfl, by simp [hinterval]⟩,
      _, List.append_assoc .., fun rest hrest => ?_⟩
    rw [List.append_assoc, spaced_configs]
    exact ⟨by omega, by omega, fun h => (by cases h), hrest⟩

/-- As long as the encoder gives frames or nothing, in turns of at most `δ`, the viewer gets a frame
within the interval and a turn, and none again before the interval is over. -/
theorem never_starves {nowMs δ : Int} {turns : List Turn} (h : Steady s nowMs)
    (gives : ∀ t ∈ turns, t.Gives)
    (clock : List.IsChain (fun a b => a ≤ b ∧ b ≤ a + δ) (nowMs :: turns.map Turn.nowMs)) :
    ∃ new, (run Encoder.turn s turns).sent = s.sent ++ new ∧ Spaced δ s.lastFrameMs new ∧
      Steady (run Encoder.turn s turns) ((turns.map Turn.nowMs).getLastD nowMs) := by
  induction turns generalizing s nowMs with
  | nil => exact ⟨[], (List.append_nil _).symm, trivial, h⟩
  | cons t turns ih =>
    rw [List.map_cons, List.isChain_cons_cons] at clock
    obtain ⟨hsteady, new, hsent, hspaced⟩ := h.turn (gives t (List.mem_cons_self ..)) clock.1.1
      clock.1.2
    obtain ⟨rest, hrest, hspaced', hsteady'⟩ := ih hsteady
      (fun t ht => gives t (List.mem_cons_of_mem _ ht)) clock.2
    refine ⟨new ++ rest, ?_, hspaced rest hspaced', ?_⟩
    · rw [run_cons, hrest, hsent, List.append_assoc]
    · rw [run_cons, List.map_cons, List.getLastD_cons]
      exact hsteady'

/-- A turn of ten milliseconds without a frame. -/
private def idleTurn (nowMs : Int) : Turn := ⟨none, 0, 0, .timeout, nowMs, nowMs * 1000000⟩

private def firstFrame : Encoder :=
  run step (init 0)
    [.turn ⟨none, 0, 0, .buffer ⟨true, false, false, 0, some [1]⟩, 5, 0⟩,
      .turn ⟨none, 0, 0, .buffer ⟨false, true, false, 7000, some [2]⟩, 10, 0⟩]

private theorem steady_firstFrame : Steady firstFrame 10 :=
  ⟨rfl, rfl, rfl, by decide, by decide, by decide⟩

theorem never_starves_idle :
    ∃ new, (run Encoder.turn firstFrame ([20, 30, 40, 50, 60].map idleTurn)).sent =
        firstFrame.sent ++ new ∧ Spaced 10 firstFrame.lastFrameMs new ∧
      Steady (run Encoder.turn firstFrame ([20, 30, 40, 50, 60].map idleTurn))
        ((([20, 30, 40, 50, 60].map idleTurn).map Turn.nowMs).getLastD 10) := by
  refine never_starves steady_firstFrame (fun t ht => ?_) (by decide)
  obtain ⟨nowMs, -, rfl⟩ := List.mem_map.mp ht
  exact ⟨rfl, .inl rfl⟩

end Kulua.Display.EncodeLoop
