import Kulua.Audio.Session

/-! The config of a codec is sent once, on the queue; the plan that accepts it goes through
another channel. What orders the two is that a select of the task polls the plan first. -/

namespace Kulua.Audio.Session
open Foundation Foundation.Run

/-- The config that the step throws away: one that the plan at hand does not accept, or the one
that was kept for the plan observed before. -/
def discards (s : Session) (a : Action) : Option Nat :=
  match a, s.phase, s.queue with
  | .pollRecv _, .polled, .config revision _ :: _ =>
    if s.task.plan.accepts revision then none else some revision
  | .borrow, .changed, _ => if s.task.codecConfig = none then none else some s.task.plan.revision
  | _, _, _ => none

/-- The queue is polled with the config of a plan that was published after the same select's
poll of the plan. -/
def overtakes (s : Session) (a : Action) : Bool :=
  match a, s.phase, s.queue with
  | .pollRecv _, .polled, .config revision _ :: _ =>
    decide (s.plan.version ≠ s.seen ∧ revision = s.plan.value.revision)
  | _, _, _ => false

/-- A config that the link accepts is forwarded after its plan was published. -/
def followsPlan (s : Session) (a : Action) : Bool :=
  match a, s.runner with
  | .mediaConfig revision _, .waiting =>
    decide (s.link.plan.accepts revision = true → s.plan.value = s.link.plan)
  | _, _ => true

/-- A config on its way to the task. -/
def Forwarded (s : Session) (revision : Nat) : Prop :=
  ∃ data, .config revision data ∈ s.queue ∨ s.runner = .forwarding (.config revision data)

/-- The plan of the task is the published one if no change is to be seen, and an older one
otherwise. -/
def Lags (s : Session) : Prop :=
  (s.plan.version = s.seen → s.task.plan = s.plan.value) ∧
    (s.plan.version ≠ s.seen → s.task.plan.revision < s.plan.value.revision)

/-- The invariant: a config is of the published plan or older, and so is the task's plan. A
plan may be observed twice, but not with a config of it in between. -/
structure Carried (s : Session) : Prop where
  ordered : s.Ordered
  forwarded : ∀ revision, s.Forwarded revision → revision ≤ s.plan.value.revision ∧
    (revision = s.plan.value.revision → s.plan.value.enabled = true)
  seen : s.seen ≤ s.plan.version
  follows : s.phase ≠ .starting → s.phase ≠ .changed → s.plan.Follows s.seen s.task.plan
  lags : s.phase = .polled ∨ s.task.codecConfig ≠ none → s.phase ≠ .changed → s.Lags
  outdated : s.phase = .changed → s.task.codecConfig ≠ none →
    s.task.plan.revision < s.plan.value.revision

theorem carried_init (target : AudioTarget) (now : Nat) : (init target now).Carried where
  ordered := ordered_init target now
  forwarded := by simp [Forwarded, init]
  seen := le_rfl
  follows := by simp [init]
  lags := by simp [init, AudioTask.start]
  outdated := by simp [init]

variable {s : Session}

/-- A step that only takes from the queue, and takes no config at hand. -/
theorem Forwarded.before {next : Session} {revision : Nat} (h : next.Forwarded revision)
    (hqueue : next.queue ⊆ s.queue)
    (hrunner : ∀ data, next.runner = .forwarding (.config revision data) →
      s.runner = next.runner) : s.Forwarded revision := by
  obtain ⟨data, hmem | hforwarding⟩ := h
  · exact ⟨data, .inl (hqueue hmem)⟩
  · exact ⟨data, .inr ((hrunner _ hforwarding).trans hforwarding)⟩

/-- A newer plan is published. -/
theorem Carried.publish (h : s.Carried) {issue : Issue} {runner : Runner} {now frames : Nat}
    (hrunner : s.runner = .publishing now frames issue)
    (hnext : runner = .waiting ∨ runner = .polling now frames)
    (hordered : Ordered { s with plan := s.plan.send issue.plan, runner := runner }) :
    Carried { s with plan := s.plan.send issue.plan, runner := runner } := by
  obtain ⟨hplan, hnewer⟩ := h.ordered.issued issue (by rw [hrunner]; rfl)
  rw [← hplan] at hnewer
  have hseen := h.seen
  refine
    { ordered := hordered
      forwarded := ?_
      seen := Nat.le_succ_of_le h.seen
      follows := fun hstarting hchanged => (h.follows hstarting hchanged).send _
      lags := fun hpolled hchanged => ?_
      outdated := fun hchanged hconfig => (h.outdated hchanged hconfig).trans hnewer }
  · rintro revision ⟨data, hqueue | hforwarding⟩
    · have hlt := ((h.forwarded revision ⟨data, .inl hqueue⟩).1).trans_lt hnewer
      exact ⟨hlt.le, fun heq => absurd heq hlt.ne⟩
    · rcases hnext with rfl | rfl <;> cases hforwarding
  · obtain ⟨hcurrent, holder⟩ := h.lags hpolled hchanged
    refine ⟨fun heq => ?_, fun _ => ?_⟩
    · change s.plan.version + 1 = s.seen at heq
      omega
    · change s.task.plan.revision < issue.plan.revision
      by_cases hsame : s.plan.version = s.seen
      · rwa [hcurrent hsame]
      · exact (holder hsame).trans hnewer

theorem carried_act (h : s.Carried) {a : Action} (ha : s.followsPlan a = true) :
    (s.act a).Carried := by
  have hordered := ordered_act h.ordered a
  have hmove := s.moves a
  generalize s.act a = next at hmove hordered ⊢
  cases hmove with
  | publish hrunner hnext => exact h.publish hrunner hnext hordered
  | mediaConfig hrunner haccepts =>
    refine ⟨hordered, ?_, h.seen, h.follows, h.lags, h.outdated⟩
    rintro revision ⟨data, hqueue | hforwarding⟩
    · exact h.forwarded revision ⟨data, .inl hqueue⟩
    · simp only [followsPlan, hrunner, decide_eq_true_eq] at ha
      simp only [Runner.forwarding.injEq, AudioEvent.config.injEq] at hforwarding
      obtain ⟨rfl, -⟩ := hforwarding
      have hpublished := ha haccepts
      obtain ⟨henabled, hrevision⟩ := AudioPlan.accepts_iff.mp (hpublished ▸ haccepts)
      exact ⟨hrevision.le, fun _ => henabled⟩
  | forward hrunner hroom =>
    refine ⟨hordered, ?_, h.seen, h.follows, h.lags, h.outdated⟩
    rintro revision ⟨data, hqueue | hforwarding⟩
    · rcases List.mem_append.mp hqueue with hold | hnew
      · exact h.forwarded revision ⟨data, .inl hold⟩
      · refine h.forwarded revision ⟨data, .inr ?_⟩
        rw [hrunner, List.mem_singleton.mp hnew]
    · cases hforwarding
  | startTask hphase =>
    exact ⟨hordered, h.forwarded, h.seen, fun _ _ => Watch.follows_copy h.seen,
      by simp [AudioTask.start], by simp⟩
  | pollPending hphase hsame =>
    have hfollows := h.follows (by simp [hphase]) (by simp [hphase])
    rw [← hsame] at hfollows
    exact ⟨hordered, h.forwarded, h.seen, fun _ _ => hsame ▸ hfollows,
      fun _ _ => ⟨fun _ => hfollows.current, fun hne => absurd hsame hne⟩, by simp⟩
  | pollReady hphase hnew =>
    refine ⟨hordered, h.forwarded, le_rfl, by simp, by simp, fun _ hconfig => ?_⟩
    exact (h.lags (.inr hconfig) (by simp [hphase])).2 hnew
  | borrow hphase =>
    exact ⟨hordered, h.forwarded, h.seen, fun _ _ => Watch.follows_copy h.seen,
      by simp [AudioTask.next, AudioTask.step, AudioTask.observe], by simp⟩
  | recvEmpty hphase hqueue =>
    exact ⟨hordered, h.forwarded, h.seen, fun _ _ => h.follows (by simp [hphase]) (by simp [hphase]),
      fun _ _ => h.lags (.inl hphase) (by simp [hphase]), by simp⟩
  | recvFed hphase hqueue | recvUnfed hphase hqueue =>
    have hlags := h.lags (.inl hphase) (by simp [hphase])
    refine ⟨hordered, fun revision hr => ?_, h.seen, fun _ _ => ?_, fun _ _ => ?_, by simp⟩
    · exact h.forwarded revision (hr.before (by simp [hqueue]) fun _ _ => rfl)
    · rw [AudioTask.next_recv_plan]
      exact h.follows (by simp [hphase]) (by simp [hphase])
    · unfold Lags
      rwa [AudioTask.next_recv_plan]
  | count hphase =>
    exact ⟨hordered, h.forwarded, h.seen, fun _ _ => h.follows (by simp [hphase]) (by simp [hphase]),
      fun hconfig _ => h.lags (.inr (by simpa using hconfig)) (by simp [hphase]), by simp⟩
  | idle => exact h
  | tick | driveIssue | driveQuiet | sent | passedOver | cutOff | retryIssue | retryQuiet | audio
  | stop =>
    refine ⟨hordered, fun revision hr => ?_, h.seen, h.follows, h.lags, h.outdated⟩
    exact h.forwarded revision (hr.before (List.Subset.refl _) (by simp))
  | audioState hrunner => exact ⟨hordered, h.forwarded, h.seen, h.follows, h.lags, h.outdated⟩

/-- A config at the head of the queue is refused for being old, unless its plan came between
the two polls. -/
theorem Carried.refused_iff (h : s.Carried) {revision : Nat} {data : Bytes}
    {rest : List AudioEvent} (hphase : s.phase = .polled)
    (hqueue : s.queue = .config revision data :: rest) :
    (s.task.plan.accepts revision = false → revision < s.plan.value.revision) ↔
      ¬(s.plan.version ≠ s.seen ∧ revision = s.plan.value.revision) := by
  obtain ⟨hle, henabled⟩ := h.forwarded revision ⟨data, .inl (by rw [hqueue]; simp)⟩
  obtain ⟨hcurrent, holder⟩ := h.lags (.inl hphase) (by simp [hphase])
  constructor
  · rintro hold ⟨hnew, heq⟩
    have hne : revision ≠ s.task.plan.revision := heq ▸ (holder hnew).ne'
    have hrefused : s.task.plan.accepts revision = false :=
      Bool.eq_false_iff.mpr fun haccepts => hne (AudioPlan.accepts_iff.mp haccepts).2
    exact (hold hrefused).ne heq
  · intro hnot hrefused
    refine lt_of_le_of_ne hle fun heq => ?_
    have hsame : s.plan.version = s.seen := by_contra fun hnew => hnot ⟨hnew, heq⟩
    have haccepts : s.task.plan.accepts revision = true := by
      rw [hcurrent hsame]
      exact AudioPlan.accepts_iff.mpr ⟨henabled heq, heq⟩
    rw [haccepts] at hrefused
    cases hrefused

/-- What is thrown away is old, unless its plan came between the two polls. -/
theorem Carried.discards_iff (h : s.Carried) (a : Action) :
    (∀ revision ∈ s.discards a, revision < s.plan.value.revision) ↔ s.overtakes a = false := by
  by_cases hpolled : ∃ around revision data rest, a = .pollRecv around ∧ s.phase = .polled ∧
      s.queue = .config revision data :: rest
  · obtain ⟨around, revision, data, rest, rfl, hphase, hqueue⟩ := hpolled
    have hrefused := h.refused_iff hphase hqueue
    cases haccepts : s.task.plan.accepts revision <;>
      simpa [discards, overtakes, hphase, hqueue, haccepts] using hrefused
  · have hovertakes : s.overtakes a = false := by
      unfold overtakes
      split
      · exact absurd ⟨_, _, _, _, rfl, ‹_›, ‹_›⟩ hpolled
      · rfl
    simp only [hovertakes, iff_true]
    unfold discards
    split
    · exact absurd ⟨_, _, _, _, rfl, ‹_›, ‹_›⟩ hpolled
    · rename_i hphase
      by_cases hconfig : s.task.codecConfig = none
      · simp [hconfig]
      · simpa [hconfig] using h.outdated hphase hconfig
    · simp

/-- A forwarded config is thrown away only for a newer plan, as long as no select finds the
config of a plan that was published between its two polls, and only then. -/
theorem config_discarded_iff (target : AudioTarget) (now : Nat) (actions : List Action)
    (hfollows : Along act (fun s a => s.followsPlan a = true) (init target now) actions) :
    Along act (fun s a => ∀ revision ∈ s.discards a, revision < s.plan.value.revision)
        (init target now) actions ↔
      Along act (fun s a => s.overtakes a = false) (init target now) actions :=
  along_iff_of_along (I := Carried) (fun _ _ h ha => carried_act h ha)
    (fun _ a h _ => h.discards_iff a) (carried_init target now) hfollows

/-- The audio is switched on, and the task sees the plan before it takes the config. -/
def planFirst : List Action :=
  [.startTask 100, .tick 0 ⟨true, 2⟩, .drive, .sendCtrl true, .publish, .pollStallRetry,
    .mediaConfig 1 [17, 144], .forward, .pollChanged, .borrow, .pollChanged,
    .pollRecv ⟨true, 100, 100, 0, true⟩]

theorem config_discarded_iff_plan_first :
    Along act (fun s a => ∀ revision ∈ s.discards a, revision < s.plan.value.revision)
        (init ⟨false, 2⟩ 0) planFirst ↔
      Along act (fun s a => s.overtakes a = false) (init ⟨false, 2⟩ 0) planFirst :=
  config_discarded_iff ⟨false, 2⟩ 0 planFirst (by decide)

/-- The audio is switched on, its plan published and its config forwarded, all while a select of
the task is between its two polls. -/
def betweenPolls : List Action :=
  [.startTask 100, .pollChanged, .tick 0 ⟨true, 2⟩, .drive, .sendCtrl true, .publish,
    .pollStallRetry, .mediaConfig 1 [17, 144], .forward, .pollRecv ⟨true, 100, 100, 0, true⟩]

theorem config_discarded_between_polls :
    Along act (fun s a => s.followsPlan a = true) (init ⟨false, 2⟩ 0) betweenPolls ∧
      ¬Along act (fun s a => ∀ revision ∈ s.discards a, revision < s.plan.value.revision)
        (init ⟨false, 2⟩ 0) betweenPolls := by
  decide

end Kulua.Audio.Session
