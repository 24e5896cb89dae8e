import Kulua.Audio.Link
import Kulua.Foundation.History
import Kulua.Media.Reassembler

/-! The audio task of `spawn_audio_task`. A step of its loop observes a plan or handles one
event of its queue. The plan, the config and the player are reset apart from each other;
whatever is fed agrees with the plan that was observed last. -/

namespace Kulua.Audio
open Foundation Foundation.Run Foundation.History Media

def AudioCodec.needsConfig : AudioCodec → Bool
  | .aac | .flac => true
  | .opus | .raw => false

def AudioPlan.accepts (self : AudioPlan) (revision : Nat) : Bool :=
  self.enabled && decide (revision = self.revision)

theorem AudioPlan.accepts_iff {self : AudioPlan} {revision : Nat} :
    self.accepts revision = true ↔ self.enabled = true ∧ revision = self.revision := by
  simp [AudioPlan.accepts]

def mediaFlagConfig : U32 := 1
def mediaFlagSession : U32 := 4

def flagged (frame : AssembledMedia) (flag : U32) : Bool := frame.flags &&& flag != 0

def audioBufferMaxMs : Nat := 150

inductive AudioEvent where
  | config (revision : Nat) (data : Bytes)
  | frame (revision : Nat) (frame : AssembledMedia)
  deriving DecidableEq, Repr

/-- A player by the arguments of `AudioPlayer::new`; decoder and sink are the device's. -/
structure AudioPlayer where
  codec : AudioCodec
  config : Option Bytes
  volume : BitVec 16
  deriving DecidableEq, Repr

/-- What the task meets around one frame: whether `AudioPlayer::new` and `feed_frame` succeed,
the volume at its two loads, and `buffer_ms` before the frame. -/
structure Surroundings where
  opens : Bool
  firstVolume : BitVec 16
  volume : BitVec 16
  bufferMs : Nat
  decodes : Bool
  deriving DecidableEq, Repr

/-- A call of `feed_frame`. -/
structure Feed where
  revision : Nat
  player : AudioPlayer
  /-- The backlog was cleared before. -/
  cleared : Bool
  data : Bytes
  success : Bool
  deriving DecidableEq, Repr

structure AudioTask where
  plan : AudioPlan
  codecConfig : Option Bytes
  player : Option AudioPlayer
  lastVol : BitVec 16
  warnedMissingConfig : Bool
  deriving DecidableEq, Repr

inductive TaskStep where
  | changed (plan : AudioPlan)
  | recv (event : AudioEvent) (around : Surroundings)
  deriving DecidableEq, Repr

namespace AudioTask

def start (plan : AudioPlan) (volume : BitVec 16) : AudioTask where
  plan := plan
  codecConfig := none
  player := none
  lastVol := volume
  warnedMissingConfig := false

variable (self : AudioTask)

def observe (plan : AudioPlan) : AudioTask :=
  { self with plan := plan, player := none, codecConfig := none, warnedMissingConfig := false }

def onConfig (revision : Nat) (data : Bytes) : AudioTask :=
  if self.plan.accepts revision then
    { self with codecConfig := some data, player := none, warnedMissingConfig := false }
  else self

/-- The decoder waits for its config. -/
def Lacks : Prop := (codecOf self.plan.codec).needsConfig = true ∧ self.codecConfig = none

instance : Decidable self.Lacks := inferInstanceAs (Decidable (_ ∧ _))

/-- The player, which is made first if there is none. -/
def ensurePlayer (around : Surroundings) : AudioTask × Option AudioPlayer :=
  match self.player with
  | some player => (self, some player)
  | none =>
    if self.Lacks then ({ self with warnedMissingConfig := true }, none)
    else if around.opens then
      let player : AudioPlayer := ⟨codecOf self.plan.codec, self.codecConfig, around.firstVolume⟩
      ({ self with player := some player }, some player)
    else (self, none)

/-- From the synchronised volume on. -/
def play (player : AudioPlayer) (revision : Nat) (frame : AssembledMedia)
    (around : Surroundings) : AudioTask × Feed :=
  let player :=
    if around.volume ≠ self.lastVol then { player with volume := around.volume } else player
  ({ self with player := some player, lastVol := around.volume },
    ⟨revision, player, decide (audioBufferMaxMs < around.bufferMs), frame.data, around.decodes⟩)

def onFrame (revision : Nat) (frame : AssembledMedia) (around : Surroundings) :
    AudioTask × Option Feed :=
  if self.plan.accepts revision then
    if flagged frame mediaFlagSession then (self, none)
    else if flagged frame mediaFlagConfig then
      ({ self with codecConfig := some frame.data, player := none }, none)
    else
      match self.ensurePlayer around with
      | (next, none) => (next, none)
      | (next, some player) =>
        let (last, feed) := next.play player revision frame around
        (last, some feed)
  else (self, none)

def step : TaskStep → AudioTask × Option Feed
  | .changed plan => (self.observe plan, none)
  | .recv (.config revision data) _ => (self.onConfig revision data, none)
  | .recv (.frame revision frame) around => self.onFrame revision frame around

def next (step : TaskStep) : AudioTask := (self.step step).1

end AudioTask

namespace TaskStep

def plan? : TaskStep → Option AudioPlan
  | .changed plan => some plan
  | .recv .. => none

/-- A config of the revision, by `MediaConfig` or as a frame with the config flag. Session
metadata are no config. -/
def config? (revision : Nat) : TaskStep → Option Bytes
  | .changed _ => none
  | .recv (.config of data) _ => if of = revision then some data else none
  | .recv (.frame of frame) _ =>
    if of = revision ∧ flagged frame mediaFlagSession = false ∧ flagged frame mediaFlagConfig = true
    then some frame.data else none

end TaskStep

def lastPlan (initial : AudioPlan) (steps : List TaskStep) : AudioPlan :=
  (latest TaskStep.plan? steps).getD initial

def lastConfig (revision : Nat) (steps : List TaskStep) : Option Bytes :=
  latest (TaskStep.config? revision) steps

namespace AudioTask

variable (self : AudioTask)

/-- The step makes a player of the codec and the config. -/
def Makes (codec : AudioCodec) (config : Option Bytes) (step : TaskStep) : Prop :=
  self.player = none ∧ ∃ player ∈ (self.next step).player,
    player.codec = codec ∧ player.config = config

/-- The step leaves the plan and the player in place. -/
def Keeps (step : TaskStep) : Prop :=
  step.plan? = none ∧ self.player.isSome = true ∧ (self.next step).player.isSome = true

/-- The player has been in use since it was made, and no plan has been observed since. -/
def InUse (initial : AudioTask) (player : AudioPlayer) (steps : List TaskStep) : Prop :=
  Since next (fun task step => task.Makes player.codec player.config step) Keeps initial steps

@[simp] theorem play_fst (player : AudioPlayer) (revision : Nat) (frame : AssembledMedia)
    (around : Surroundings) :
    (self.play player revision frame around).1 =
      { self with
        player := some (self.play player revision frame around).2.player
        lastVol := around.volume } := rfl

theorem play_player (player : AudioPlayer) (revision : Nat) (frame : AssembledMedia)
    (around : Surroundings) :
    (self.play player revision frame around).2.player.codec = player.codec ∧
      (self.play player revision frame around).2.player.config = player.config := by
  simp only [play]
  split <;> exact ⟨rfl, rfl⟩

/-- The player in use, or a new one that has its config. -/
theorem ensurePlayer_cases (around : Surroundings) :
    (∃ player, self.player = some player ∧ self.ensurePlayer around = (self, some player)) ∨
      (∃ warned, self.player = none ∧
        self.ensurePlayer around = ({ self with warnedMissingConfig := warned }, none)) ∨
      ∃ player, self.player = none ∧ ¬self.Lacks ∧ player.codec = codecOf self.plan.codec ∧
        player.config = self.codecConfig ∧
        self.ensurePlayer around = ({ self with player := some player }, some player) := by
  unfold ensurePlayer
  cases hplayer : self.player with
  | some player => exact .inl ⟨player, rfl, rfl⟩
  | none =>
    by_cases hlacks : self.Lacks
    · exact .inr (.inl ⟨true, rfl, by simp [hlacks]⟩)
    · cases hopens : around.opens with
      | false =>
        refine .inr (.inl ⟨self.warnedMissingConfig, rfl, ?_⟩)
        simp [hlacks, ← hplayer]
      | true =>
        refine .inr (.inr ⟨⟨codecOf self.plan.codec, self.codecConfig, around.firstVolume⟩, rfl,
          hlacks, rfl, rfl, ?_⟩)
        simp [hlacks]

/-- What handling an event comes to: nothing or a warning, a new config, or a fed frame. -/
theorem recv_cases (event : AudioEvent) (around : Surroundings) :
    (∃ warned, self.step (.recv event around) = ({ self with warnedMissingConfig := warned }, none) ∧
        (self.plan.enabled = true →
          TaskStep.config? self.plan.revision (.recv event around) = none)) ∨
      (∃ data warned, self.step (.recv event around) =
          ({ self with codecConfig := some data, player := none, warnedMissingConfig := warned },
            none) ∧
        self.plan.enabled = true ∧
        TaskStep.config? self.plan.revision (.recv event around) = some data) ∨
      ∃ feed, self.step (.recv event around) =
          ({ self with player := some feed.player, lastVol := around.volume }, some feed) ∧
        self.plan.accepts feed.revision = true ∧
        TaskStep.config? self.plan.revision (.recv event around) = none ∧
        ((∃ player ∈ self.player, feed.player.codec = player.codec ∧
            feed.player.config = player.config) ∨
          self.player = none ∧ ¬self.Lacks ∧ feed.player.codec = codecOf self.plan.codec ∧
            feed.player.config = self.codecConfig) := by
  cases event with
  | config revision data =>
    by_cases h : self.plan.accepts revision = true
    · obtain ⟨henabled, hrevision⟩ := AudioPlan.accepts_iff.mp h
      refine .inr (.inl ⟨data, false, ?_, henabled, ?_⟩)
      · simp [step, onConfig, h]
      · simp [TaskStep.config?, hrevision]
    · refine .inl ⟨self.warnedMissingConfig, by simp [step, onConfig, h], fun henabled => ?_⟩
      have hne : revision ≠ self.plan.revision := fun heq =>
        h (AudioPlan.accepts_iff.mpr ⟨henabled, heq⟩)
      simp [TaskStep.config?, hne]
  | frame revision frame =>
    by_cases h : self.plan.accepts revision = true
    swap
    · refine .inl ⟨self.warnedMissingConfig, by simp [step, onFrame, h], fun henabled => ?_⟩
      have hne : revision ≠ self.plan.revision := fun heq =>
        h (AudioPlan.accepts_iff.mpr ⟨henabled, heq⟩)
      simp [TaskStep.config?, hne]
    obtain ⟨henabled, hrevision⟩ := AudioPlan.accepts_iff.mp h
    by_cases hsession : flagged frame mediaFlagSession = true
    · exact .inl ⟨self.warnedMissingConfig, by simp [step, onFrame, h, hsession],
        fun _ => by simp [TaskStep.config?, hsession]⟩
    by_cases hconfig : flagged frame mediaFlagConfig = true
    · exact .inr (.inl ⟨frame.data, self.warnedMissingConfig,
        by simp [step, onFrame, h, hsession, hconfig], henabled,
        by simp [TaskStep.config?, hrevision, hsession, hconfig]⟩)
    have hnone : TaskStep.config? self.plan.revision (.recv (.frame revision frame) around) = none := by
      simp [TaskStep.config?, hconfig]
    obtain ⟨player, hplayer, heq⟩ | ⟨warned, hplayer, heq⟩ |
        ⟨player, hplayer, hlacks, hcodec, hmade, heq⟩ := self.ensurePlayer_cases around
    · have hkeep := self.play_player player revision frame around
      exact .inr (.inr ⟨(self.play player revision frame around).2,
        by simp [step, onFrame, h, hsession, hconfig, heq], h, hnone,
        .inl ⟨player, hplayer, hkeep⟩⟩)
    · exact .inl ⟨warned, by simp [step, onFrame, h, hsession, hconfig, heq], fun _ => hnone⟩
    · have hkeep := ({ self with player := some player } : AudioTask).play_player player revision
        frame around
      refine .inr (.inr ⟨(({ self with player := some player } : AudioTask).play player revision
        frame around).2, by simp [step, onFrame, h, hsession, hconfig, heq], h, hnone,
        .inr ⟨hplayer, hlacks, ?_, ?_⟩⟩)
      · rw [hkeep.1, hcodec]
      · rw [hkeep.2, hmade]

/-- A frame is fed for the plan at hand, to the player that is there afterwards. -/
theorem feed_spec {self : AudioTask} {step : TaskStep} {feed : Feed}
    (h : (self.step step).2 = some feed) :
    self.plan.accepts feed.revision = true ∧ feed.player ∈ (self.next step).player := by
  cases step with
  | changed new => cases h
  | recv event around =>
    obtain ⟨warned, heq, -⟩ | ⟨data, warned, heq, -⟩ | ⟨found, heq, haccepts, -⟩ :=
      self.recv_cases event around <;> rw [heq] at h
    · cases h
    · cases h
    · obtain rfl : found = feed := Option.some.inj h
      rw [next, heq]
      exact ⟨haccepts, rfl⟩

theorem feed_revision {self : AudioTask} {step : TaskStep} {feed : Feed}
    (h : (self.step step).2 = some feed) : feed.revision = self.plan.revision :=
  (AudioPlan.accepts_iff.mp (feed_spec h).1).2

/-- The invariant: config and player are of the plan observed last. -/
structure Tuned (plan : AudioPlan) (volume : BitVec 16) (steps : List TaskStep) (task : AudioTask) :
    Prop where
  observed : task.plan = lastPlan plan steps
  config : ∀ data ∈ task.codecConfig,
    task.plan.enabled = true ∧ lastConfig task.plan.revision steps = some data
  player : ∀ player ∈ task.player, player.codec = codecOf task.plan.codec ∧
    player.config = task.codecConfig ∧ ¬task.Lacks ∧ InUse (start plan volume) player steps

theorem lastPlan_recv (plan : AudioPlan) (steps : List TaskStep) (event : AudioEvent)
    (around : Surroundings) :
    lastPlan plan (steps ++ [.recv event around]) = lastPlan plan steps := by
  simp [lastPlan, TaskStep.plan?]

theorem lastConfig_extend {revision : Nat} {steps : List TaskStep} {step : TaskStep}
    (h : step.config? revision = none) :
    lastConfig revision (steps ++ [step]) = lastConfig revision steps := by
  simp [lastConfig, h]

@[simp] theorem next_recv_plan (event : AudioEvent) (around : Surroundings) :
    (self.next (.recv event around)).plan = self.plan := by
  obtain ⟨warned, heq, -⟩ | ⟨data, warned, heq, -⟩ | ⟨feed, heq, -⟩ :=
    self.recv_cases event around <;> rw [next, heq]

theorem next_recv_config {event : AudioEvent} {around : Surroundings} {data : Bytes}
    (h : data ∈ (self.next (.recv event around)).codecConfig) :
    (self.plan.enabled = true ∧
        TaskStep.config? self.plan.revision (.recv event around) = some data) ∨
      data ∈ self.codecConfig ∧ (self.plan.enabled = true →
        TaskStep.config? self.plan.revision (.recv event around) = none) := by
  obtain ⟨warned, heq, hnone⟩ | ⟨other, warned, heq, henabled, hsome⟩ | ⟨feed, heq, -, hnone, -⟩ :=
    self.recv_cases event around <;> rw [next, heq] at h
  · exact .inr ⟨h, hnone⟩
  · obtain rfl : other = data := by simpa using h
    exact .inl ⟨henabled, hsome⟩
  · exact .inr ⟨h, fun _ => hnone⟩

/-- A player that is there afterwards was there before, or was made with the config at hand. -/
theorem next_recv_player {event : AudioEvent} {around : Surroundings} {player : AudioPlayer}
    (h : player ∈ (self.next (.recv event around)).player) :
    (self.next (.recv event around)).codecConfig = self.codecConfig ∧
      ((∃ old ∈ self.player, player.codec = old.codec ∧ player.config = old.config) ∨
        self.player = none ∧ ¬self.Lacks ∧ player.codec = codecOf self.plan.codec ∧
          player.config = self.codecConfig) := by
  obtain ⟨warned, heq, -⟩ | ⟨data, warned, heq, -⟩ | ⟨feed, heq, -, -, hmade⟩ :=
    self.recv_cases event around <;> rw [next, heq] at h ⊢
  · exact ⟨rfl, .inl ⟨player, h, rfl, rfl⟩⟩
  · simp at h
  · obtain rfl : feed.player = player := by simpa using h
    exact ⟨rfl, hmade⟩

theorem tuned_run (plan : AudioPlan) (volume : BitVec 16) (steps : List TaskStep) :
    Tuned plan volume steps (run next (start plan volume) steps) := by
  refine induct (I := Tuned plan volume) ⟨rfl, by simp [start], by simp [start]⟩ ?_ steps
  intro steps step ih
  cases step with
  | changed new =>
    exact ⟨by simp [next, AudioTask.step, observe, lastPlan, TaskStep.plan?],
      by simp [next, AudioTask.step, observe], by simp [next, AudioTask.step, observe]⟩
  | recv event around =>
    refine
      { observed := ?_
        config := fun data hdata => ?_
        player := fun player hplayer => ?_ }
    · rw [next_recv_plan, lastPlan_recv]
      exact ih.observed
    · rw [next_recv_plan]
      obtain ⟨henabled, hsome⟩ | ⟨hold, hnone⟩ := next_recv_config _ hdata
      · exact ⟨henabled, by simp [lastConfig, hsome]⟩
      · obtain ⟨henabled, hlast⟩ := ih.config data hold
        exact ⟨henabled, (lastConfig_extend (hnone henabled)).trans hlast⟩
    · obtain ⟨hconfig, ⟨old, hold, hcodec, hmade⟩ | ⟨hnone, hlacks, hcodec, hmade⟩⟩ :=
        next_recv_player _ hplayer
      · obtain ⟨hcodec', hmade', hlacks, huse⟩ := ih.player old hold
        rw [Lacks, next_recv_plan, hconfig, hcodec, hmade]
        refine ⟨hcodec', hmade', hlacks, ?_⟩
        rw [InUse, hcodec, hmade]
        exact Since.keep huse ⟨rfl, Option.isSome_of_mem hold, Option.isSome_of_mem hplayer⟩
      · rw [Lacks, next_recv_plan, hconfig]
        exact ⟨hcodec, hmade, hlacks, since_now ⟨hnone, player, hplayer, rfl, rfl⟩⟩

/-- What is fed to a player that agrees with the plan at hand. -/
theorem Tuned.feed {plan : AudioPlan} {volume : BitVec 16} {steps : List TaskStep}
    {task : AudioTask} (h : Tuned plan volume steps task) {step : TaskStep} {feed : Feed}
    (hfeed : (task.step step).2 = some feed) :
    feed.player.codec = codecOf task.plan.codec ∧ feed.player.config = task.codecConfig ∧
      ¬task.Lacks := by
  cases step with
  | changed new => cases hfeed
  | recv event around =>
    obtain ⟨hconfig, ⟨old, hold, hcodec, hmade⟩ | ⟨-, hlacks, hcodec, hmade⟩⟩ :=
      next_recv_player _ (feed_spec hfeed).2
    · obtain ⟨hcodec', hmade', hlacks, -⟩ := h.player old hold
      exact ⟨hcodec.trans hcodec', hmade.trans hmade', hlacks⟩
    · exact ⟨hcodec, hmade, hlacks⟩

/-- Whatever is fed has the revision of the plan observed last, which is enabled, through a
player made since then for its codec, and from the last config of the revision where the codec
needs one. -/
theorem fed_in_tune (plan : AudioPlan) (volume : BitVec 16) (steps : List TaskStep)
    (step : TaskStep) (feed : Feed)
    (hfeed : ((run next (start plan volume) steps).step step).2 = some feed) :
    feed.revision = (lastPlan plan steps).revision ∧ (lastPlan plan steps).enabled = true ∧
      feed.player.codec = codecOf (lastPlan plan steps).codec ∧
      (feed.player.codec.needsConfig = true → ∃ data, feed.player.config = some data ∧
        lastConfig feed.revision steps = some data) ∧
      InUse (start plan volume) feed.player (steps ++ [step]) := by
  have htuned := tuned_run plan volume steps
  obtain ⟨haccepts, hplayer⟩ := feed_spec hfeed
  obtain ⟨henabled, hrevision⟩ := AudioPlan.accepts_iff.mp haccepts
  obtain ⟨hcodec, hconfig, hlacks⟩ := htuned.feed hfeed
  rw [← htuned.observed]
  refine ⟨hrevision, henabled, hcodec, fun hneeds => ?_, ?_⟩
  · obtain ⟨data, hdata⟩ : ∃ data, (run next (start plan volume) steps).codecConfig = some data :=
      Option.ne_none_iff_exists'.mp fun hnone => hlacks ⟨hcodec ▸ hneeds, hnone⟩
    refine ⟨data, hconfig.trans hdata, ?_⟩
    rw [hrevision]
    exact (htuned.config data hdata).2
  · have hlast := tuned_run plan volume (steps ++ [step])
    rw [run_append, run_cons, run_nil] at hlast
    exact (hlast.player feed.player hplayer).2.2.2

/-- The phone's AAC config comes before the frame, one of an older revision between them. -/
def aacSession : List TaskStep :=
  let around : Surroundings := ⟨true, 100, 80, 0, true⟩
  [.changed ⟨1, true, 2⟩, .recv (.config 1 [17, 144]) around,
    .recv (.frame 0 ⟨0, 0, 0, [1]⟩) around]

theorem fed_in_tune_aac :
    let feed : Feed := ⟨1, ⟨.aac, some [17, 144], 80⟩, false, [2], true⟩
    let step : TaskStep := .recv (.frame 1 ⟨0, 1, 0, [2]⟩) ⟨true, 100, 80, 0, true⟩
    feed.revision = (lastPlan ⟨0, false, 0⟩ aacSession).revision ∧
      (lastPlan ⟨0, false, 0⟩ aacSession).enabled = true ∧
      feed.player.codec = codecOf (lastPlan ⟨0, false, 0⟩ aacSession).codec ∧
      (feed.player.codec.needsConfig = true → ∃ data, feed.player.config = some data ∧
        lastConfig feed.revision aacSession = some data) ∧
      InUse (start ⟨0, false, 0⟩ 100) feed.player (aacSession ++ [step]) :=
  fed_in_tune ⟨0, false, 0⟩ 100 aacSession (.recv (.frame 1 ⟨0, 1, 0, [2]⟩) ⟨true, 100, 80, 0, true⟩)
    ⟨1, ⟨.aac, some [17, 144], 80⟩, false, [2], true⟩ (by decide)

end AudioTask

end Kulua.Audio
