import Kulua.App.Handlers

/-! The audio switch of a device is kept twice: in its configuration and in the target that
its session reads. The commands keep the two together, but a target is only written while
the session's task is there to receive it. -/

namespace Kulua.App
open Foundation Foundation.Keyed
open DeviceMerge (WellFormed)

/-- The target of the session, if there is one, is what the user asked for. -/
def DeviceEntry.Coherent (e : DeviceEntry) : Prop :=
  ∀ h, e.session = some h → h.audioTarget.enabled = e.config.audioEnabled

instance (e : DeviceEntry) : Decidable e.Coherent :=
  inferInstanceAs (Decidable (∀ h ∈ e.session, h.audioTarget.enabled = e.config.audioEnabled))

namespace DeviceEntry

@[simp] theorem mapSession_config (g : Handle → Handle) (e : DeviceEntry) :
    (e.mapSession g).config = e.config := rfl

theorem coherent_new (device : Device) : (DeviceEntry.new device).Coherent := by
  intro h hsession
  cases hsession

theorem coherent_take (e : DeviceEntry) : e.take.Coherent := by
  intro h hsession
  cases hsession

theorem coherent_install (c : Core) (device : Device) (e : DeviceEntry) :
    (c.install device e).Coherent := by
  intro h hsession
  obtain rfl := Option.some.inj hsession
  rfl

theorem Coherent.touch {e : DeviceEntry} (coherent : e.Coherent) (a : String) (st : DeviceState) :
    (e.touch a st).Coherent := coherent

theorem Coherent.rename {e : DeviceEntry} (coherent : e.Coherent) (name : String) :
    (e.rename name).Coherent := coherent

theorem Coherent.mapSession {e : DeviceEntry} (coherent : e.Coherent) {g : Handle → Handle}
    (keep : ∀ h, (g h).audioTarget = h.audioTarget) : (e.mapSession g).Coherent := by
  intro h hsession
  obtain ⟨h', hsession', rfl⟩ := Option.map_eq_some_iff.mp hsession
  rw [keep]
  exact coherent h' hsession'

theorem Coherent.hotSwap {e : DeviceEntry} (coherent : e.Coherent) (codec : Audio.AudioCodec) :
    (Core.hotSwap codec e).Coherent := by
  unfold Core.hotSwap
  split
  · rename_i h hsession
    split
    · intro h' hsession'
      obtain rfl := Option.some.inj hsession'
      have := coherent h hsession
      unfold Handle.sendAudioTarget
      split <;> exact this
    · exact coherent
  · exact coherent

/-- A new setting reaches the session unless its task has ended. -/
theorem Coherent.configure_iff {e : DeviceEntry} (coherent : e.Coherent)
    (clipboardSync notificationSync audioSync : Bool) (volume : BitVec 16) :
    (e.configure clipboardSync notificationSync audioSync volume).Coherent ↔
      (e.config.audioEnabled ≠ audioSync → ∀ h, e.session = some h → h.finished = false) := by
  rcases hsession : e.session with _ | h
  · refine iff_of_true (fun h hconfigured => ?_) (by simp)
    simp [configure, hsession] at hconfigured
  · have hbefore := coherent h hsession
    have hafter : (e.configure clipboardSync notificationSync audioSync volume).Coherent ↔
        ((if e.config.audioEnabled ≠ audioSync ∧ h.finished = false then audioSync
          else h.audioTarget.enabled) = audioSync) := by
      simp only [Coherent, configure, hsession, Option.map_some, Option.some.injEq, forall_eq',
        Handle.sendAudioTarget]
      by_cases hchange : e.config.audioEnabled = audioSync <;> cases hfinished : h.finished <;>
        simp [hchange]
    rw [hafter, hbefore]
    by_cases hchange : e.config.audioEnabled = audioSync <;> cases hfinished : h.finished <;>
      simp [hchange, hfinished]

end DeviceEntry

theorem Handle.onTask_audioTarget (h : Handle) (event : TaskEvent) :
    (h.onTask event).audioTarget = h.audioTarget := by
  cases event <;> simp only [Handle.onTask]
  all_goals split <;> rfl

namespace Core

def Coherent (c : Core) : Prop := ∀ e ∈ c.devices, e.Coherent

instance (c : Core) : Decidable c.Coherent :=
  inferInstanceAs (Decidable (∀ e ∈ c.devices, e.Coherent))

variable {c : Core}

theorem Coherent.map (coherent : c.Coherent) {f : DeviceEntry → DeviceEntry}
    (keep : ∀ e, e.Coherent → (f e).Coherent) :
    Coherent { c with devices := c.devices.map f } := by
  intro e he
  obtain ⟨x, hx, rfl⟩ := List.mem_map.mp he
  exact keep x (coherent x hx)

theorem Coherent.update (coherent : c.Coherent) {f : DeviceEntry → DeviceEntry}
    (keep : ∀ e, e.Coherent → (f e).Coherent) (uuid : Nat) : (c.update uuid f).Coherent := by
  refine coherent.map fun e he => ?_
  split
  · exact keep e he
  · exact he

theorem Coherent.takeAndStop (coherent : c.Coherent) (uuid : Nat) :
    (c.takeAndStop uuid).Coherent := by
  unfold Core.takeAndStop
  split
  · exact coherent
  · exact coherent.update (fun e _ => e.coherent_take) uuid

theorem Coherent.startSession (coherent : c.Coherent) (device : Device) :
    (c.startSession device).Coherent := by
  unfold Core.startSession
  split
  · exact coherent
  · dsimp only
    split
    · exact coherent
    · exact Coherent.update (c := { c with portCounter := _, starts := _, trace := _ }) coherent
        (fun e _ => e.coherent_install c device) device.uuid

theorem Coherent.insertDevice (coherent : c.Coherent) (getprop : String → Option String)
    (a : String) (st : DeviceState) : (c.insertDevice getprop a st).Coherent := by
  intro e he
  rcases insertDevice_cases getprop c a st with
    ⟨p, devices, hfirst, hins⟩ | ⟨device, -, hins⟩ <;> rw [hins] at he
  · rcases mem_modifyFirst hfirst he with he | ⟨x, hx, rfl⟩
    · exact coherent e he
    · exact (coherent x hx).touch a st
  · rcases List.mem_append.mp he with he | he
    · exact coherent e he
    · obtain rfl := List.mem_singleton.mp he
      exact DeviceEntry.coherent_new device

theorem Coherent.checkDeadSessions (coherent : c.Coherent) : c.checkDeadSessions.Coherent := by
  refine coherent.map fun e he => he.mapSession fun h => ?_
  unfold Handle.checkDead
  split <;> rfl

theorem Coherent.onDeviceName (coherent : c.Coherent) (serial name : String) :
    (c.onDeviceName serial name).Coherent := by
  rcases onDeviceName_cases c serial name with h | ⟨p, devices, hfirst, h⟩ <;> rw [h]
  · exact coherent
  · intro e he
    rcases mem_modifyFirst hfirst he with he | ⟨x, hx, rfl⟩
    · exact coherent e he
    · exact (coherent x hx).rename name

theorem Coherent.onTask (coherent : c.Coherent) (session : Nat) (event : TaskEvent) :
    (c.onTask session event).Coherent := by
  refine coherent.map fun e he => he.mapSession fun h => ?_
  split
  · exact h.onTask_audioTarget event
  · rfl

/-- A session gets its target from the configuration, and nothing else writes either. -/
theorem kept_coherent : Kept Coherent where
  insert _ coherent getprop a := coherent.insertDevice getprop a .device
  take _ coherent uuid := coherent.takeAndStop uuid
  drop coherent _ := coherent
  start _ coherent device := coherent.startSession device
  swap coherent := coherent.map fun _ he => he.hotSwap _
  dead coherent := coherent.checkDeadSessions
  push coherent := coherent
  rename _ coherent serial name := coherent.onDeviceName serial name
  task coherent session event := coherent.onTask session event
  track coherent _ := coherent
  settings coherent _ := coherent
  rehash _ coherent order e he := coherent e ((rehash_perm _ order).mem_iff.mp he)

/-- A new setting reaches the session of the device unless its task has ended. -/
theorem Coherent.cmdUpdateConfig_iff (coherent : c.Coherent) (uuid : Nat)
    (clipboardSync notificationSync audioSync : Bool) (volume : BitVec 16) :
    (c.cmdUpdateConfig uuid clipboardSync notificationSync audioSync volume).Coherent ↔
      ∀ e ∈ c.devices, e.device.uuid = uuid → e.config.audioEnabled ≠ audioSync →
        ∀ h, e.session = some h → h.finished = false := by
  constructor
  · intro after e he huuid
    have hmem : e.configure clipboardSync notificationSync audioSync volume ∈
        (c.cmdUpdateConfig uuid clipboardSync notificationSync audioSync volume).devices :=
      List.mem_map.mpr ⟨e, he, if_pos huuid⟩
    exact ((coherent e he).configure_iff ..).mp (after _ hmem)
  · intro listening e he
    obtain ⟨x, hx, rfl⟩ := List.mem_map.mp he
    split
    · rename_i huuid
      exact ((coherent x hx).configure_iff ..).mpr (listening x hx huuid)
    · exact coherent x hx

/-! The user's setting. -/

/-- The audio switch in the configuration of a device; a device that is not known yet will
have the default. -/
def switch (c : Core) (uuid : Nat) : Bool :=
  ((c.entry uuid).map (·.config.audioEnabled)).getD SessionConfig.default.audioEnabled

theorem switch_of_mem (wf : WellFormed c.index) {e : DeviceEntry} (he : e ∈ c.devices) :
    c.switch e.device.uuid = e.config.audioEnabled := by
  rw [switch, entry_of_mem wf he]
  rfl

theorem switch_map {f : DeviceEntry → DeviceEntry} (keep : ∀ e, (f e).device = e.device)
    (enabled : ∀ e, (f e).config.audioEnabled = e.config.audioEnabled) (v : Nat) :
    switch { c with devices := c.devices.map f } v = c.switch v := by
  rw [switch, entry_map keep, switch, Option.map_map]
  simp only [Function.comp_def, enabled]

theorem switch_mapSession (g : Handle → Handle) (v : Nat) :
    switch { c with devices := c.devices.map (.mapSession g) } v = c.switch v :=
  switch_map (DeviceEntry.mapSession_device g) (fun e => congrArg _ (e.mapSession_config g)) v

theorem hotSwap_audioEnabled (codec : Audio.AudioCodec) (e : DeviceEntry) :
    (hotSwap codec e).config.audioEnabled = e.config.audioEnabled := by
  unfold hotSwap
  split
  · split <;> rfl
  · rfl

theorem switch_takeAndStop (c : Core) (uuid v : Nat) :
    (c.takeAndStop uuid).switch v = c.switch v := by
  rw [switch, entry_takeAndStop, switch]
  split
  · rw [Option.map_map]
    rfl
  · rfl

theorem switch_startSession (wf : WellFormed c.index) (device : Device) (v : Nat) :
    (c.startSession device).switch v = c.switch v := by
  rw [switch, entry_startSession wf, switch]
  split
  · rw [Option.map_map]
    rfl
  · rfl

theorem switch_insertDevice (wf : WellFormed c.index) (getprop : String → Option String)
    (a : String) (st : DeviceState) (v : Nat) :
    (c.insertDevice getprop a st).switch v = c.switch v := by
  rcases entry_insertDevice wf getprop a st v with h | ⟨e, he, h⟩ | ⟨hnone, device, h⟩
  · rw [switch, h, switch]
  · rw [switch, h, switch, he]
    rfl
  · rw [switch, h, switch, hnone]
    rfl

theorem switch_onDeviceName (wf : WellFormed c.index) (serial name : String) (v : Nat) :
    (c.onDeviceName serial name).switch v = c.switch v := by
  rcases entry_onDeviceName wf serial name v with h | ⟨e, he, h⟩
  · rw [switch, h, switch]
  · rw [switch, h, switch, he]
    rfl

/-- Only `UpdateConfig` changes the configuration of a device. -/
theorem kept_switch (v : Nat) (b : Bool) : Kept fun c => c.switch v = b where
  insert sound h getprop a := (switch_insertDevice sound.index getprop a .device v).trans h
  take _ h uuid := (switch_takeAndStop _ uuid v).trans h
  drop h _ := h
  start sound h device := (switch_startSession sound.index device v).trans h
  swap h := (switch_map (hotSwap_device _) (hotSwap_audioEnabled _) v).trans h
  dead h := (switch_mapSession _ v).trans h
  push h := h
  rename sound h serial name := (switch_onDeviceName sound.index serial name v).trans h
  task h _ _ := (switch_mapSession _ v).trans h
  track h _ := h
  settings h _ := h
  rehash sound h order := by
    rw [switch, entry_rehash sound.index]
    exact h

theorem switch_cmdUpdateConfig (c : Core) (uuid : Nat)
    (clipboardSync notificationSync audioSync : Bool) (volume : BitVec 16) {e : DeviceEntry}
    {v : Nat} (he : (c.cmdUpdateConfig uuid clipboardSync notificationSync audioSync
      volume).entry v = some e) :
    e.config.audioEnabled = if uuid = v then audioSync else c.switch v := by
  rw [cmdUpdateConfig, entry_update (DeviceEntry.configure_device _ _ _ _)] at he
  by_cases hv : v = uuid
  · rw [if_pos hv] at he
    obtain ⟨e', -, rfl⟩ := Option.map_eq_some_iff.mp he
    rw [if_pos hv.symm]
    rfl
  · rw [if_neg hv] at he
    rw [if_neg fun h => hv h.symm, switch, he]
    rfl

end Core

/-- The last setting of the user, from that before the command on. -/
def setting (c : Core) (uuid : Nat) : Action → Bool
  | .updateConfig target _ _ audioSync _ => if target = uuid then audioSync else c.switch uuid
  | _ => c.switch uuid

/-- After the step every target is what the configuration says, which is the last setting
of the user; and so is what a tick tells the UI. -/
def Upheld (c : Core) (a : Action) : Prop :=
  (step c a).Coherent ∧
  (c.cancelled = false →
    (∀ e ∈ (step c a).devices, e.config.audioEnabled = setting c e.device.uuid a) ∧
    ∀ getprop, a = .tick getprop → ∀ s ∈ (step c a).sessionWatch,
      s.audioEnabled = setting c s.uuid a)

/-- No command switches the audio of a session whose task has ended. -/
def Listening (c : Core) : Action → Prop
  | .updateConfig uuid _ _ audioSync _ => c.cancelled = true ∨
      ∀ e ∈ c.devices, e.device.uuid = uuid → e.config.audioEnabled ≠ audioSync →
        ∀ h, e.session = some h → h.finished = false
  | _ => True

theorem coherent_step_iff {c : Core} (sound : c.Sound) (coherent : c.Coherent) (a : Action) :
    (step c a).Coherent ↔ Listening c a := by
  cases a with
  | updateConfig uuid clipboardSync notificationSync audioSync volume =>
      rw [step, Listening]
      by_cases hcancelled : c.cancelled = true
      · rw [if_pos hcancelled]
        exact iff_of_true coherent (Or.inl hcancelled)
      · rw [if_neg hcancelled, or_iff_right hcancelled]
        exact coherent.cmdUpdateConfig_iff uuid clipboardSync notificationSync audioSync volume
  | _ =>
      refine iff_of_true (Core.kept_coherent.step sound coherent _ nofun fun _ e he => ?_) trivial
      cases he

/-- The configuration follows the user. -/
theorem setting_step {c : Core} (sound : c.Sound) (a : Action) (running : c.cancelled = false)
    {e : DeviceEntry} (he : e ∈ (step c a).devices) :
    e.config.audioEnabled = setting c e.device.uuid a := by
  have after := (sound.step a).index
  cases a with
  | updateConfig uuid clipboardSync notificationSync audioSync volume =>
      have hentry := Core.entry_of_mem after he
      simp only [step, running, Bool.false_eq_true, if_false] at hentry
      exact Core.switch_cmdUpdateConfig c _ _ _ _ _ hentry
  | shutdown =>
      simp only [step, running, Bool.false_eq_true, if_false] at he
      cases he
  | _ =>
      rw [← Core.switch_of_mem after he]
      exact (Core.kept_switch _ _).step sound rfl _ nofun nofun

theorem upheld_iff {c : Core} (sound : c.Sound) (coherent : c.Coherent) (a : Action) :
    Upheld c a ↔ Listening c a := by
  rw [← coherent_step_iff sound coherent a]
  refine ⟨And.left, fun after => ⟨after, fun running => ⟨fun e he => setting_step sound a running he,
    ?_⟩⟩⟩
  rintro getprop rfl s hs
  have hpushed : (step c (.tick getprop)).sessionWatch = (step c (.tick getprop)).summaries := by
    simp only [step, running, Bool.false_eq_true, if_false, Core.onTick, Core.pushSessionList_eq]
    rfl
  rw [hpushed] at hs
  obtain ⟨e, he, hsummary⟩ := List.mem_filterMap.mp hs
  obtain ⟨h, hsession, rfl⟩ := Option.map_eq_some_iff.mp hsummary
  rw [← setting_step sound _ running he]
  exact after e he h hsession

/-- Over any sequence of commands, ticks and events of the session tasks, the switch that
the sessions act on, and that the UI is shown, is the last setting of the user exactly when
no `UpdateConfig` switches the audio of a device whose session's task has ended. -/
theorem audio_preference_iff (actions : List Action) :
    Run.Along step Upheld init actions ↔ Run.Along step Listening init actions := by
  refine Run.along_iff_of_kept (I := fun c => c.Sound ∧ c.Coherent) (fun c a h listening => ?_)
    (fun c a h => upheld_iff h.1 h.2 a) ⟨Core.sound_init, fun e he => by cases he⟩ actions
  exact ⟨h.1.step a, (coherent_step_iff h.1 h.2 a).mpr listening⟩

/-- The user switches the audio off after the session's task has ended: the UI still shows
it as on. -/
theorem audio_preference_lost :
    let getprop : String → Option String := fun _ => some "D1"
    let actions : List Action := [.track ⟨[("D1", .device)], by decide⟩,
      .startSession getprop "D1", .task 0 .ended, .updateConfig 0 true true false 80,
      .tick getprop]
    ¬Run.Along step Upheld init actions ∧
      (Run.run step init actions).devices.map (·.config.audioEnabled) = [false] ∧
      (Run.run step init actions).sessionWatch.map (·.audioEnabled) = [true] := by
  refine ⟨fun h => ?_, by decide, by decide⟩
  obtain ⟨-, -, -, ⟨coherent, -⟩, -⟩ := h
  exact absurd coherent (by decide)

end Kulua.App
