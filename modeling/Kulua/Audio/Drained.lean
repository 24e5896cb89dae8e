import Kulua.Audio.AudioLifecycle
import Kulua.Foundation.History
import Kulua.Foundation.Newest

/-! What the phone's audio has come to when the executor has nothing left to do: the settings of
the command with the greatest revision and its capture, or no capture after a `close`. -/

namespace Kulua.Audio
open Foundation Foundation.Run Foundation.History

def SetAudio.command (m : SetAudio) : Command := ⟨m.enabled, codecNameForIndex m.codec, m.revision⟩

/-- The capture that the settings ask for. -/
def Command.capture (bitRate : Nat) (c : Command) : Option AudioCapture :=
  if c.enabled then some ⟨c.name, bitRate, c.revision⟩ else none

def Task.command? : Task → Option Command
  | .apply enabled name revision => some ⟨enabled, name, revision⟩
  | .stop => none

/-- The command that has not taken effect yet. -/
def Position.pending : Position → Option Command
  | .checking command | .updating command => some command
  | .stopping command => command
  | .finishing _ => none

namespace AudioLifecycle

/-- A stop is still to come, or there is nothing to stop. -/
def Covered (s : AudioLifecycle) : Prop :=
  Task.stop ∈ s.link.executor ∨ s.position = some (.stopping none) ∨
    s.link.capture = none ∧ ∀ p ∈ s.position, ∃ command, p = .checking command

/-- The invariant of every state. -/
structure Sound (s : AudioLifecycle) : Prop where
  running : s.running = s.link.capture.toList
  released : ∀ command, s.position = some (.updating command) ∨
    s.position = some (.finishing command) → s.link.capture = none
  closed : s.link.shutdown = true ∨ Task.stop ∈ s.link.executor ∨
    s.position = some (.stopping none) ∨ (∃ closer ∈ s.closers, closer ≠ .entered) →
    s.link.closed = true
  covered : s.link.shutdown = true ∨ (∃ closer ∈ s.closers, closer ≠ .entered ∧ closer ≠ .marked) →
    s.Covered

variable {s : AudioLifecycle}

theorem Sound.closed_of_covered (h : s.Sound)
    (hcovered : s.link.shutdown = true ∨
      ∃ closer ∈ s.closers, closer ≠ .entered ∧ closer ≠ .marked) : s.link.closed = true := by
  rcases hcovered with hshutdown | ⟨closer, hmem, hentered, -⟩
  · exact h.closed (.inl hshutdown)
  · exact h.closed (.inr (.inr (.inr ⟨closer, hmem, hentered⟩)))

theorem sound_init (wantAudio : Bool) (bitRate : Nat) (codecName : AudioCodec) :
    (init wantAudio bitRate codecName).Sound := by
  refine { running := rfl, released := by simp [init], closed := ?_, covered := ?_ } <;>
    cases wantAudio <;>
    simp [init, AudioLink.init, AudioLink.start, AudioLink.startCapture]

theorem Sound.stopAudio_eq (h : s.Sound) :
    s.stopAudio = { s with link := { s.link with capture := none }, running := [] } := by
  have hrunning := h.running
  unfold AudioLifecycle.stopAudio
  cases hcapture : s.link.capture with
  | none =>
    have hlink : ({ s.link with capture := none } : AudioLink) = s.link := by rw [← hcapture]
    rw [hcapture, Option.toList_none] at hrunning
    rw [hlink, ← hrunning]
  | some current => simp [AudioLink.stopAudio, hrunning, hcapture]

/-- A task that does not stop leaves the stop in the queue. -/
theorem Covered.queued (h : s.Covered) {position : Position} (hposition : s.position = some position)
    (hchecking : ∀ command, position ≠ .checking command) (hstopping : position ≠ .stopping none) :
    Task.stop ∈ s.link.executor := by
  rcases h with hqueued | hstop | ⟨-, hidle⟩
  · exact hqueued
  · exact absurd (Option.some.inj (hposition.symm.trans hstop)) hstopping
  · obtain ⟨command, hcheck⟩ := hidle position hposition
    exact absurd hcheck (hchecking command)

theorem sound_advance (h : s.Sound) {position : Position} (hposition : s.position = some position) :
    (s.advance position).Sound := by
  have hclosed := h.closed
  cases position with
  | checking command =>
    rw [hposition] at hclosed
    simp only [advance]
    split
    · refine { running := h.running, released := by simp, closed := ?_, covered := fun hc => ?_ }
      · intro hany
        exact hclosed (by simpa using hany)
      · rcases h.covered hc with hqueued | hstop | ⟨hnone, -⟩
        · exact .inl hqueued
        · rw [hposition] at hstop
          cases hstop
        · exact .inr (.inr ⟨hnone, by simp⟩)
    · rename_i hguard
      refine { running := h.running, released := by simp, closed := ?_, covered := fun hc => ?_ }
      · intro hany
        exact hclosed (by simpa using hany)
      · exact absurd (.inl (h.closed_of_covered hc)) hguard
  | stopping command =>
    simp only [advance, h.stopAudio_eq]
    refine
      { running := rfl
        released := fun _ _ => rfl
        closed := fun hany => hclosed ?_
        covered := fun hc => ?_ }
    · rcases hany with hshutdown | hqueued | hstop | hclosers
      · exact .inl hshutdown
      · exact .inr (.inl hqueued)
      · simp at hstop
      · exact .inr (.inr (.inr hclosers))
    · rcases h.covered hc with hqueued | hstop | ⟨-, hidle⟩
      · exact .inl hqueued
      · rw [hposition] at hstop
        cases hstop
        exact .inr (.inr ⟨rfl, by simp⟩)
      · obtain ⟨other, hcheck⟩ := hidle _ hposition
        cases hcheck
  | updating command =>
    refine
      { running := h.running
        released := fun _ _ => h.released command (.inl hposition)
        closed := fun hany => hclosed ?_
        covered := fun hc => .inl ((h.covered hc).queued hposition (by simp) (by simp)) }
    simpa [advance, update, hposition] using hany
  | finishing command =>
    have hnone := h.released command (.inr hposition)
    have hrunning := h.running
    rw [hnone, Option.toList_none] at hrunning
    simp only [advance, finish]
    split
    · refine
        { running := by simp [hrunning, AudioLink.startCapture]
          released := by simp
          closed := fun hany => hclosed ?_
          covered := fun hc => .inl ((h.covered hc).queued hposition (by simp) (by simp)) }
      simpa [AudioLink.startCapture, hposition] using hany
    · refine
        { running := by simpa [hnone] using hrunning
          released := by simp
          closed := fun hany => hclosed ?_
          covered := fun hc => .inl ((h.covered hc).queued hposition (by simp) (by simp)) }
      simpa [hposition] using hany

/-- The next task is begun. -/
theorem sound_begin (h : s.Sound) (hidle : s.position = none) {task : Task} {rest : List Task}
    (hqueue : s.link.executor = task :: rest) :
    Sound { s with link := { s.link with executor := rest }, position := some task.position } where
  running := h.running
  released := by cases task <;> simp [Task.position]
  closed := by
    rintro (hshutdown | hqueued | hstop | hclosers)
    · exact h.closed (.inl hshutdown)
    · exact h.closed (.inr (.inl (hqueue ▸ List.mem_cons_of_mem _ hqueued)))
    · cases task with
      | apply enabled name revision => simp [Task.position] at hstop
      | stop => exact h.closed (.inr (.inl (hqueue ▸ List.mem_cons_self)))
    · exact h.closed (.inr (.inr (.inr hclosers)))
  covered hc := by
    cases task with
    | stop => exact .inr (.inl rfl)
    | apply enabled name revision =>
      rcases h.covered hc with hqueued | hstop | ⟨hnone, -⟩
      · rw [hqueue] at hqueued
        exact .inl (by simpa using hqueued)
      · rw [hidle] at hstop
        cases hstop
      · exact .inr (.inr ⟨hnone, by simp [Task.position]⟩)

theorem sound_executorStep (h : s.Sound) : s.executorStep.Sound := by
  unfold executorStep
  split
  · exact ⟨h.running, h.released, h.closed, h.covered⟩
  · split
    · exact sound_advance h ‹_›
    · rename_i hidle
      split
      · exact h
      · rename_i task rest hqueue
        exact sound_begin h hidle hqueue

/-- Only the list of threads is written. -/
theorem captureStep_fst (link : AudioLink) (i : Nat) (event : CaptureEvent) :
    ∃ threads, (link.captureStep i event).1 = { link with threads := threads } := by
  unfold AudioLink.captureStep
  split
  · exact ⟨link.threads, rfl⟩
  · exact ⟨_, rfl⟩

theorem sound_closer (h : s.Sound) {i : Nat} {closer : Closer} (hi : s.closers[i]? = some closer) :
    Sound { s.closeStep closer with closers := s.closers.set i closer.next } := by
  have hset : ∀ {other}, other ∈ s.closers.set i closer.next → other ∈ s.closers ∨
      other = closer.next := List.mem_or_eq_of_mem_set
  have hmem : closer ∈ s.closers := List.mem_of_getElem? hi
  have hclosed : closer ≠ .entered → s.link.closed = true :=
    fun hne => h.closed (.inr (.inr (.inr ⟨closer, hmem, hne⟩)))
  have hcovered : closer ≠ .entered → closer ≠ .marked → s.Covered :=
    fun hentered hmarked => h.covered (.inr ⟨closer, hmem, hentered, hmarked⟩)
  cases closer with
  | entered =>
    refine ⟨h.running, h.released, fun _ => rfl, fun hc => h.covered ?_⟩
    rcases hc with hshutdown | ⟨other, hother, hentered, hmarked⟩
    · exact .inl hshutdown
    · exact .inr ⟨other, (hset hother).resolve_right hmarked, hentered, hmarked⟩
  | marked =>
    simp only [closeStep]
    split
    · exact ⟨h.running, h.released, fun _ => hclosed (by simp), fun _ => h.covered (.inl ‹_›)⟩
    · exact ⟨h.running, h.released, fun _ => hclosed (by simp), fun _ => .inl (by simp)⟩
  | queued | shut | returned =>
    exact ⟨h.running, h.released, fun _ => hclosed (by simp),
      fun _ => hcovered (by simp) (by simp)⟩

theorem sound_act (h : s.Sound) (a : Action) : (s.act a).Sound := by
  cases a with
  | applyAudio m =>
    simp only [act, AudioLink.applyAudio]
    split
    · exact h
    · refine ⟨h.running, h.released, fun hany => h.closed (by simpa using hany), fun hc => ?_⟩
      rcases h.covered hc with hqueued | hrest
      · exact .inl (List.mem_append_left _ hqueued)
      · exact .inr hrest
  | executor => exact sound_executorStep h
  | capture i event =>
    obtain ⟨threads, heq⟩ := captureStep_fst s.link i event
    simp only [act, heq]
    exact ⟨h.running, h.released, h.closed, h.covered⟩
  | close =>
    simp only [act]
    split
    · exact h
    · refine ⟨h.running, h.released, fun hany => h.closed ?_, fun hc => h.covered ?_⟩
      · simpa using hany
      · simpa using hc
  | closer i =>
    simp only [act]
    split
    · exact h
    · exact sound_closer h ‹_›

def Action.command? : Action → Option Command
  | .applyAudio m => some m.command
  | _ => none

def commands (actions : List Action) : List Command := actions.filterMap Action.command?

/-- The commands that have not taken effect yet, in the order in which they will. -/
def pending (s : AudioLifecycle) : List Command :=
  (s.position.bind Position.pending).toList ++ s.link.executor.filterMap Task.command?

def settings (s : AudioLifecycle) : Command :=
  ⟨s.link.enabled, s.link.codecName, s.link.currentRevision⟩

/-- The invariant of an open connection: the settings are the newest of the commands executed,
and between two tasks the capture is the one they ask for. -/
structure Following (start : Command) (bitRate : Nat) (actions : List Action) (s : AudioLifecycle) :
    Prop where
  rate : s.link.bitRate = bitRate
  history : ∃ executed, commands actions = executed ++ s.pending ∧
    s.settings = newest Command.revision start executed
  ahead : ∀ command, s.position = some (.stopping (some command)) ∨
    s.position = some (.updating command) → s.link.currentRevision < command.revision
  finishing : ∀ command, s.position = some (.finishing command) → s.settings = command
  settled : (∀ p ∈ s.position, ∃ command, p = .checking command) →
    s.link.capture = s.settings.capture bitRate

variable {start : Command} {bitRate : Nat} {actions : List Action}

theorem following_init (wantAudio : Bool) (bitRate : Nat) (codecName : AudioCodec) :
    Following ⟨wantAudio, codecName, 0⟩ bitRate [] (init wantAudio bitRate codecName) := by
  refine
    { rate := ?_, history := ⟨[], ?_, ?_⟩, ahead := by simp [init], finishing := by simp [init],
      settled := fun _ => ?_ } <;>
    cases wantAudio <;> rfl

/-- A command at the check is dropped, or goes on to be executed. -/
theorem following_checking (h : Following start bitRate actions s)
    (hopen : s.link.closed = false) {command : Command}
    (hposition : s.position = some (.checking command)) :
    Following start bitRate actions (s.advance (.checking command)) := by
  obtain ⟨executed, hcommands, hsettings⟩ := h.history
  have hcapture := h.settled (by simp [hposition])
  simp only [advance, hopen, Bool.false_eq_true, false_or]
  split
  · rename_i hold
    refine
      { rate := h.rate
        history := ⟨executed ++ [command], ?_, ?_⟩
        ahead := by simp
        finishing := by simp
        settled := fun _ => hcapture }
    · simpa [pending, hposition, Position.pending] using hcommands
    · rw [newest_append_singleton, overwrite, ← hsettings]
      exact (if_pos hold).symm
  · rename_i hnew
    refine
      { rate := h.rate
        history := ⟨executed, ?_, hsettings⟩
        ahead := fun other hother => ?_
        finishing := by simp
        settled := by simp }
    · simpa [pending, hposition, Position.pending] using hcommands
    · obtain rfl : command = other := by simpa using hother
      exact not_le.mp hnew

theorem following_stopping (h : Following start bitRate actions s) (hsound : s.Sound)
    (hopen : s.link.closed = false) {command : Option Command}
    (hposition : s.position = some (.stopping command)) :
    Following start bitRate actions (s.advance (.stopping command)) := by
  obtain ⟨executed, hcommands, hsettings⟩ := h.history
  cases command with
  | none =>
    -- the task that `close` has queued
    rw [hsound.closed (.inr (.inr (.inl hposition)))] at hopen
    cases hopen
  | some command =>
    have hahead := h.ahead command (.inl hposition)
    simp only [advance, hsound.stopAudio_eq, Option.map_some]
    refine
      { rate := h.rate
        history := ⟨executed, ?_, hsettings⟩
        ahead := fun other hother => ?_
        finishing := by simp
        settled := by simp }
    · simpa [pending, hposition, Position.pending] using hcommands
    · obtain rfl : command = other := by simpa using hother
      exact hahead

theorem following_updating (h : Following start bitRate actions s) {command : Command} (hposition : s.position = some (.updating command)) :
    Following start bitRate actions (s.advance (.updating command)) := by
  obtain ⟨executed, hcommands, hsettings⟩ := h.history
  have hahead := h.ahead command (.inr hposition)
  refine
    { rate := h.rate
      history := ⟨executed ++ [command], ?_, ?_⟩
      ahead := by simp [advance]
      finishing := fun other hother => ?_
      settled := by simp [advance] }
  · simpa [advance, update, pending, hposition, Position.pending] using hcommands
  · rw [newest_append_singleton, overwrite, ← hsettings]
    exact (if_neg (not_le.mpr hahead)).symm
  · obtain rfl : command = other := by simpa [advance] using hother
    rfl

theorem following_finishing (h : Following start bitRate actions s) (hsound : s.Sound)
    {command : Command} (hposition : s.position = some (.finishing command)) :
    Following start bitRate actions (s.advance (.finishing command)) := by
  obtain ⟨executed, hcommands, hsettings⟩ := h.history
  have hcurrent := h.finishing command hposition
  have hnone := hsound.released command (.inr hposition)
  simp only [advance, finish]
  split
  · rename_i henabled
    refine
      { rate := h.rate
        history := ⟨executed, ?_, hsettings⟩
        ahead := by simp
        finishing := by simp
        settled := fun _ => ?_ }
    · simpa [AudioLink.startCapture, pending, hposition, Position.pending] using hcommands
    · change some _ = s.settings.capture bitRate
      rw [hcurrent, Command.capture, if_pos henabled, h.rate]
  · rename_i hdisabled
    refine
      { rate := h.rate
        history := ⟨executed, ?_, hsettings⟩
        ahead := by simp
        finishing := by simp
        settled := fun _ => ?_ }
    · simpa [pending, hposition, Position.pending] using hcommands
    · change s.link.capture = s.settings.capture bitRate
      rw [hcurrent, Command.capture, if_neg hdisabled, hnone]

/-- The next task is begun; only a closed connection has a stop in its queue. -/
theorem following_begin (h : Following start bitRate actions s) (hsound : s.Sound)
    (hopen : s.link.closed = false) (hidle : s.position = none) {task : Task} {rest : List Task}
    (hqueue : s.link.executor = task :: rest) :
    Following start bitRate actions
      { s with link := { s.link with executor := rest }, position := some task.position } := by
  obtain ⟨executed, hcommands, hsettings⟩ := h.history
  cases task with
  | stop =>
    rw [hsound.closed (.inr (.inl (by simp [hqueue])))] at hopen
    cases hopen
  | apply enabled name revision =>
    refine
      { rate := h.rate
        history := ⟨executed, ?_, hsettings⟩
        ahead := by simp [Task.position]
        finishing := by simp [Task.position]
        settled := fun _ => h.settled (by simp [hidle]) }
    simpa [pending, hidle, hqueue, Task.position, Position.pending, Task.command?] using hcommands

theorem following_executorStep (h : Following start bitRate actions s) (hsound : s.Sound)
    (hopen : s.link.closed = false) : Following start bitRate actions s.executorStep := by
  unfold executorStep
  split
  · exact ⟨h.rate, h.history, h.ahead, h.finishing, h.settled⟩
  · split
    · rename_i position hposition
      cases position with
      | checking command => exact following_checking h hopen hposition
      | stopping command => exact following_stopping h hsound hopen hposition
      | updating command => exact following_updating h hposition
      | finishing command => exact following_finishing h hsound hposition
    · split
      · exact h
      · exact following_begin h hsound hopen ‹_› ‹_›

/-- A command is queued, since an open connection has not shut its executor down. -/
theorem following_applyAudio (h : Following start bitRate actions s) (hsound : s.Sound)
    (hopen : s.link.closed = false) (m : SetAudio) :
    Following start bitRate (actions ++ [.applyAudio m]) (s.act (.applyAudio m)) := by
  obtain ⟨executed, hcommands, hsettings⟩ := h.history
  have hrunning : ¬s.link.shutdown = true := fun hshutdown => by
    rw [hsound.closed (.inl hshutdown)] at hopen
    cases hopen
  simp only [act, AudioLink.applyAudio, if_neg hrunning]
  refine ⟨h.rate, ⟨executed, ?_, hsettings⟩, h.ahead, h.finishing, h.settled⟩
  simp only [commands, pending] at hcommands ⊢
  simp [hcommands, Action.command?, SetAudio.command, Task.command?]

/-- Steps that queue no command and execute none. -/
theorem Following.unchanged (h : Following start bitRate actions s) {a : Action}
    (ha : a.command? = none) : Following start bitRate (actions ++ [a]) s := by
  refine ⟨h.rate, ?_, h.ahead, h.finishing, h.settled⟩
  obtain ⟨executed, hcommands, hsettings⟩ := h.history
  exact ⟨executed, by simpa [commands, ha] using hcommands, hsettings⟩

theorem executorStep_closed (s : AudioLifecycle) : s.executorStep.link.closed = s.link.closed := by
  unfold executorStep
  split
  · rfl
  · split
    · rename_i position _
      cases position with
      | checking command =>
        simp only [advance]
        split <;> rfl
      | stopping command => simp [advance, stopAudio_link, AudioLink.stopAudio]
      | updating command => rfl
      | finishing command =>
        simp only [advance, finish_link]
        split <;> rfl
    · split <;> rfl

theorem following_act (hsound : s.Sound)
    (h : s.link.closed = false → Following start bitRate actions s) (a : Action)
    (hopen : (s.act a).link.closed = false) :
    Following start bitRate (actions ++ [a]) (s.act a) := by
  cases a with
  | applyAudio m =>
    have hbefore : s.link.closed = false := by
      rw [← hopen]
      simp only [act, AudioLink.applyAudio]
      split <;> rfl
    exact following_applyAudio (h hbefore) hsound hbefore m
  | executor =>
    have hbefore : s.link.closed = false := (executorStep_closed s).symm.trans hopen
    exact (following_executorStep (h hbefore) hsound hbefore).unchanged rfl
  | capture i event =>
    obtain ⟨threads, heq⟩ := captureStep_fst s.link i event
    simp only [act, heq] at hopen ⊢
    have hkept := (h hopen).unchanged (a := .capture i event) rfl
    exact ⟨hkept.rate, hkept.history, hkept.ahead, hkept.finishing, hkept.settled⟩
  | close =>
    simp only [act] at hopen ⊢
    split at hopen
    · rw [if_pos ‹_›]
      exact (h hopen).unchanged rfl
    · rw [if_neg ‹_›]
      have hkept := (h hopen).unchanged (a := .close) rfl
      exact ⟨hkept.rate, hkept.history, hkept.ahead, hkept.finishing, hkept.settled⟩
  | closer i =>
    simp only [act] at hopen ⊢
    split at hopen
    · exact (h hopen).unchanged rfl
    · rename_i closer hi
      -- the first step of a closer closes the connection
      have hclosed := (sound_closer hsound hi).closed (.inr (.inr (.inr ⟨closer.next,
        List.mem_set (List.getElem?_eq_some_iff.mp hi).1 _,
        by cases closer <;> simp [Closer.next]⟩)))
      rw [hclosed] at hopen
      cases hopen

theorem sound_following_run (wantAudio : Bool) (bitRate : Nat) (codecName : AudioCodec)
    (actions : List Action) :
    (run act (init wantAudio bitRate codecName) actions).Sound ∧
      ((run act (init wantAudio bitRate codecName) actions).link.closed = false →
        Following ⟨wantAudio, codecName, 0⟩ bitRate actions
          (run act (init wantAudio bitRate codecName) actions)) := by
  refine induct (I := fun actions s =>
    s.Sound ∧ (s.link.closed = false → Following ⟨wantAudio, codecName, 0⟩ bitRate actions s))
    ⟨sound_init .., fun _ => following_init ..⟩ ?_ actions
  intro actions a ⟨hsound, hfollowing⟩
  exact ⟨sound_act hsound a, following_act hsound hfollowing a⟩

/-- The settings and the captures of an open connection with nothing left to do. -/
theorem Following.drained (h : Following start bitRate actions s) (hsound : s.Sound)
    (hdrained : s.Drained) :
    s.settings = newest Command.revision start (commands actions) ∧
      s.running = (s.settings.capture bitRate).toList := by
  obtain ⟨hqueue, hposition, -⟩ := hdrained
  obtain ⟨executed, hcommands, hsettings⟩ := h.history
  have hall : commands actions = executed := by
    simpa [pending, hposition, hqueue] using hcommands
  refine ⟨hall ▸ hsettings, ?_⟩
  rw [hsound.running, h.settled (by simp [hposition])]

theorem mem_commands {command : Command} :
    command ∈ commands actions ↔ ∃ m, .applyAudio m ∈ actions ∧ m.command = command := by
  rw [commands, List.mem_filterMap]
  constructor
  · rintro ⟨a, ha, hcommand⟩
    cases a with
    | applyAudio m => exact ⟨m, ha, Option.some.inj hcommand⟩
    | executor | capture | close | closer => cases hcommand
  · rintro ⟨m, hm, rfl⟩
    exact ⟨_, hm, rfl⟩

/-- The newest command comes first, and again at the end; the executor works in between. -/
def outOfOrder : List Action :=
  [.applyAudio ⟨true, 2, 3⟩, .executor, .applyAudio ⟨false, 0, 1⟩, .executor, .executor, .executor,
    .executor, .applyAudio ⟨true, 1, 2⟩, .applyAudio ⟨true, 2, 3⟩, .executor, .executor, .executor,
    .executor, .executor, .executor]

/-- A command passes the check, and then the connection is closed. -/
def closedUnderWay : List Action :=
  [.applyAudio ⟨true, 2, 1⟩, .executor, .executor, .close, .closer 0, .executor, .executor,
    .executor, .closer 0, .closer 0, .executor, .executor]

end AudioLifecycle

end Kulua.Audio
