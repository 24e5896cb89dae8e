import Kulua.App.Effects

/-! Along all handlers of `Core` the record of the sessions stays sound: a session is
started for a device that has none, and a handle that is taken out of its entry is
stopped before anything else happens to the device. -/

namespace Kulua.App
open Foundation Foundation.Keyed
open DeviceMerge (WellFormed)

namespace Handle

/-- The same session later on, when nothing stopped it. -/
def Continues (h h' : Handle) : Prop := h'.session = h.session ∧ (h.Tombstone → h'.Tombstone)

theorem Continues.refl (h : Handle) : Continues h h := ⟨rfl, id⟩

theorem continues_sendAudioTarget (h : Handle) (target : Audio.AudioTarget) :
    Continues h (h.sendAudioTarget target) := by
  unfold sendAudioTarget
  split
  · exact .refl h
  · exact ⟨rfl, id⟩

theorem continues_onTask (h : Handle) (event : TaskEvent) : Continues h (h.onTask event) := by
  cases event with
  | running =>
      simp only [onTask]
      split
      · rename_i hconnecting
        refine ⟨rfl, fun tombstone => ?_⟩
        rcases tombstone with failed | ⟨finished, -⟩
        · rw [hconnecting.1] at failed
          cases failed
        · exact absurd finished hconnecting.2
      · exact .refl h
  | failed =>
      simp only [onTask]
      split
      · exact ⟨rfl, fun _ => Or.inl rfl⟩
      · exact .refl h
  | ended => exact ⟨rfl, fun tombstone => tombstone.imp_right fun ended => ⟨rfl, ended.2⟩⟩
  | audio latency runtime =>
      simp only [onTask]
      split
      · exact .refl h
      · exact ⟨rfl, id⟩

theorem continues_checkDead (h : Handle) : Continues h h.checkDead := by
  unfold checkDead
  split
  · exact ⟨rfl, fun _ => Or.inl rfl⟩
  · exact .refl h

end Handle

namespace Core
variable {c c' : Core}

/-- Every entry goes on with the session it has, if any. -/
def Continues (c c' : Core) : Prop :=
  ∀ uuid, Option.Rel Handle.Continues (c.held uuid) (c'.held uuid)

theorem rel_refl (h : Option Handle) : Option.Rel Handle.Continues h h := by
  cases h with
  | none => exact .none
  | some h => exact .some (.refl h)

theorem Continues.of_held (h : ∀ uuid, c'.held uuid = c.held uuid) : Continues c c' := by
  intro uuid
  rw [h]
  exact rel_refl _

theorem continues_map {f : DeviceEntry → DeviceEntry} (keep : ∀ e, (f e).device = e.device)
    (session : ∀ e, Option.Rel Handle.Continues e.session (f e).session) :
    Continues c { c with devices := c.devices.map f } := by
  intro uuid
  rw [held, held, entry_map keep]
  rcases c.entry uuid with _ | e
  · exact .none
  · exact session e

theorem continues_update {f : DeviceEntry → DeviceEntry} (keep : ∀ e, (f e).device = e.device)
    (session : ∀ e, Option.Rel Handle.Continues e.session (f e).session) (uuid : Nat) :
    Continues c (c.update uuid f) := by
  refine continues_map (fun e => ?_) fun e => ?_
  · split
    · exact keep e
    · rfl
  · split
    · exact session e
    · exact rel_refl _

theorem rel_map {g : Handle → Handle} (keep : ∀ h, Handle.Continues h (g h)) (h : Option Handle) :
    Option.Rel Handle.Continues h (h.map g) := by
  cases h with
  | none => exact .none
  | some h => exact .some (keep h)

theorem Continues.ledger (h : Continues c c') (starts : c'.starts = c.starts)
    (trace : c'.trace = c.trace) : c'.ledger = c.ledger := by
  ext1
  · funext uuid
    have hrel := h uuid
    simp only [Core.ledger]
    rcases hc : c.held uuid with _ | a <;> rcases hc' : c'.held uuid with _ | b <;>
      rw [hc, hc'] at hrel <;> cases hrel
    rename_i hsame
    exact congrArg some hsame.1
  · simp [Core.ledger, starts]
  · exact trace

/-- The index is one, and the record of the sessions agrees with what the entries hold. -/
structure Sound (c : Core) : Prop where
  index : WellFormed c.index
  ledger : c.ledger.Sound

theorem sound_init : Sound init where
  index := by
    have h : init.index = DeviceMerge.init := rfl
    exact h ▸ DeviceMerge.wellFormed_init
  ledger := by
    have h : init.ledger = .empty := rfl
    exact h ▸ Lease.Ledger.sound_empty

theorem Sound.of_continues (sound : Sound c) (index : WellFormed c'.index)
    (h : Continues c c') (starts : c'.starts = c.starts) (trace : c'.trace = c.trace) :
    Sound c' := ⟨index, h.ledger starts trace ▸ sound.ledger⟩

theorem Sound.insertDevice (sound : Sound c) (getprop : String → Option String) (a : String)
    (st : DeviceState) : Sound (c.insertDevice getprop a st) :=
  ⟨wellFormed_insertDevice sound.index getprop a st,
    ledger_insertDevice sound.index getprop a st ▸ sound.ledger⟩

theorem Sound.takeAndStop (sound : Sound c) (uuid : Nat) : Sound (c.takeAndStop uuid) :=
  ⟨wellFormed_takeAndStop sound.index uuid, ledger_takeAndStop c uuid ▸ sound.ledger.close uuid⟩

theorem Sound.discard (sound : Sound c) (uuid : Nat) : Sound (c.discard uuid) :=
  ⟨wellFormed_discard sound.index uuid, ledger_discard c uuid ▸ sound.ledger.discard uuid⟩

theorem Sound.startSession (sound : Sound c) {device : Device}
    (present : (c.entry device.uuid).isSome) : Sound (c.startSession device) := by
  rcases hheld : c.held device.uuid with _ | h
  · refine ⟨wellFormed_startSession sound.index device, ?_⟩
    rw [ledger_startSession sound.index hheld present]
    exact sound.ledger.acquire (by simp [Core.ledger, hheld])
  · rwa [startSession_of_held sound.index (by simp [hheld])]

/-! Several devices in turn. -/

theorem Sound.discards (sound : Sound c) (uuids : List Nat) :
    Sound (uuids.foldl Core.discard c) := by
  induction uuids generalizing c with
  | nil => exact sound
  | cons uuid uuids ih => exact ih (sound.discard uuid)

theorem entry_discards (c : Core) (uuids : List Nat) (v : Nat) :
    (uuids.foldl Core.discard c).entry v =
      if v ∈ uuids then (c.entry v).map .take else c.entry v := by
  induction uuids generalizing c with
  | nil => simp
  | cons uuid uuids ih =>
      rw [List.foldl_cons, ih, entry_discard]
      by_cases hv : v = uuid
      · by_cases hmem : v ∈ uuids <;> simp [hv, Function.comp_def]
      · simp [hv]

theorem held_discards (c : Core) (uuids : List Nat) (v : Nat) :
    (uuids.foldl Core.discard c).held v = if v ∈ uuids then none else c.held v := by
  rw [held, entry_discards]
  split
  · rcases c.entry v with _ | e <;> rfl
  · rfl

theorem isSome_entry_startSession (wf : WellFormed c.index) (device : Device) (v : Nat) :
    ((c.startSession device).entry v).isSome = (c.entry v).isSome := by
  rw [entry_startSession wf]
  split
  · rw [Option.isSome_map]
  · rfl

/-- A session that is there stays as it is. -/
theorem held_startSession_of_some (wf : WellFormed c.index) (device : Device) {v : Nat} {h : Handle}
    (hheld : c.held v = some h) : (c.startSession device).held v = some h := by
  rw [held_startSession wf, if_neg, hheld]
  rintro ⟨-, hnone⟩
  rw [hheld] at hnone
  cases hnone

theorem Sound.starts (sound : Sound c) {devices : List Device}
    (present : ∀ d ∈ devices, (c.entry d.uuid).isSome) :
    Sound (devices.foldl Core.startSession c) := by
  induction devices generalizing c with
  | nil => exact sound
  | cons device devices ih =>
      refine ih (sound.startSession (present device (List.mem_cons_self ..))) fun d hd => ?_
      rw [isSome_entry_startSession sound.index]
      exact present d (List.mem_cons_of_mem device hd)

/-- Each device of the list ends up with a session. -/
theorem held_starts (wf : WellFormed c.index) {devices : List Device} {v : Nat}
    (h : (c.held v).isSome ∨ (c.entry v).isSome ∧ ∃ d ∈ devices, d.uuid = v) :
    ((devices.foldl Core.startSession c).held v).isSome := by
  induction devices generalizing c with
  | nil => simpa using h
  | cons device devices ih =>
      have wf' := wellFormed_startSession wf device
      refine ih wf' ?_
      rcases hheld : c.held v with _ | held
      · rw [hheld] at h
        obtain ⟨present, d, hd, rfl⟩ := h.resolve_left (by simp)
        rcases List.mem_cons.mp hd with rfl | hd
        · refine Or.inl ?_
          rw [held_startSession wf, if_pos ⟨rfl, hheld⟩, Option.isSome_map]
          exact present
        · refine Or.inr ⟨?_, d, hd, rfl⟩
          rwa [isSome_entry_startSession wf]
      · exact Or.inl (by rw [held_startSession_of_some wf device hheld]; rfl)

/-! The handlers. -/

theorem Sound.cmdDisconnect (sound : Sound c) (serial : String) : Sound (c.cmdDisconnect serial) := by
  unfold Core.cmdDisconnect
  split
  · exact sound
  · exact sound.discard _

theorem trace_startSession_sub (c : Core) (device : Device) {ev : Lease.Event Nat}
    (h : ev ∈ c.trace) : ev ∈ (c.startSession device).trace := by
  unfold Core.startSession
  split
  · exact h
  · split <;> simp [emit, update, h]

@[simp] theorem deviceWatch_takeAndStop (c : Core) (uuid : Nat) :
    (c.takeAndStop uuid).deviceWatch = c.deviceWatch := by
  unfold takeAndStop
  split <;> rfl

/-- `Retry` does nothing, or stops a session that has failed and starts another one where
the device is online. -/
theorem cmdRetry_cases (c : Core) (uuid : Nat) :
    (c.cmdRetry uuid = c ∧ ∀ h, c.held uuid = some h → h.isFailed = false) ∨
    ∃ e h, c.entry uuid = some e ∧ e.session = some h ∧ h.isFailed = true ∧
      c.cmdRetry uuid = (if e.device.serial ∈ c.deviceWatch.online
        then (c.takeAndStop uuid).startSession e.device
        else c.takeAndStop uuid).emit (.dropped h.session) := by
  unfold Core.cmdRetry
  rcases he : c.entry uuid with _ | e
  · exact Or.inl ⟨rfl, fun h hheld => by simp [held, he] at hheld⟩
  · rcases hsession : e.session with _ | h
    · refine Or.inl ⟨by simp [hsession], fun h hheld => ?_⟩
      simp [held, he, hsession] at hheld
    · rcases hfailed : h.isFailed with _ | _
      · refine Or.inl ⟨by simp [hsession, hfailed], fun h' hheld => ?_⟩
        simp only [held, he, Option.bind_some, hsession, Option.some.injEq] at hheld
        rwa [← hheld]
      · refine Or.inr ⟨e, h, rfl, hsession, hfailed, ?_⟩
        simp only [hsession, hfailed, if_true, deviceWatch_takeAndStop, Watch.get_eq_device]

theorem Sound.cmdRetry (sound : Sound c) (uuid : Nat) : Sound (c.cmdRetry uuid) := by
  rcases cmdRetry_cases c uuid with ⟨h, -⟩ | ⟨e, h, he, hsession, -, hretry⟩
  · rwa [h]
  · have hheld : c.held uuid = some h := held_eq_some.mpr ⟨e, he, hsession⟩
    have stopped := sound.takeAndStop uuid
    have closed : .closed h.session ∈ (c.takeAndStop uuid).trace := by
      simp [Core.takeAndStop, hheld, emit]
    have present : ((c.takeAndStop uuid).entry e.device.uuid).isSome := by
      obtain rfl := (mem_of_entry he).2
      simp [entry_takeAndStop, he]
    rw [hretry]
    split
    · have started := stopped.startSession present
      exact ⟨started.index, started.ledger.drop (trace_startSession_sub _ _ closed)⟩
    · exact ⟨stopped.index, stopped.ledger.drop closed⟩

theorem hotSwap_device (codec : Audio.AudioCodec) (e : DeviceEntry) :
    (hotSwap codec e).device = e.device := by
  unfold hotSwap
  split
  · split <;> rfl
  · rfl

theorem continues_hotSwap (codec : Audio.AudioCodec) (e : DeviceEntry) :
    Option.Rel Handle.Continues e.session (hotSwap codec e).session := by
  unfold hotSwap
  split
  · rename_i h hsession
    split
    · rw [hsession]
      exact .some (Handle.continues_sendAudioTarget h _)
    · exact rel_refl _
  · exact rel_refl _

theorem continues_swapped (c : Core) : Continues c c.swapped :=
  continues_map (hotSwap_device _) (continues_hotSwap _)

theorem Sound.swapped (sound : Sound c) : Sound c.swapped :=
  sound.of_continues (filing_map (hotSwap_device _) sound.index) (continues_swapped c) rfl rfl

theorem isSome_entry_stopped (wf : WellFormed c.index) {device : Device}
    (h : device ∈ c.restarting) :
    (((c.restarting.map (·.uuid)).foldl Core.discard c.swapped).entry device.uuid).isSome := by
  obtain ⟨e, he, rfl⟩ := List.mem_map.mp h
  have hentry := entry_of_mem wf (List.mem_filter.mp he).1
  rw [entry_discards, Core.swapped, entry_map (hotSwap_device _), hentry]
  split <;> rfl

theorem Sound.cmdRestartAllSessions (sound : Sound c) : Sound c.cmdRestartAllSessions :=
  (sound.swapped.discards _).starts fun _ hd => isSome_entry_stopped sound.index hd

theorem Sound.listed (sound : Sound c) (getprop : String → Option String) (serial : String) :
    Sound (c.listed getprop serial) := by
  unfold Core.listed
  split
  · exact sound
  · split
    · exact sound.insertDevice getprop serial .device
    · exact sound

theorem held_listed (wf : WellFormed c.index) (getprop : String → Option String) (serial : String)
    (v : Nat) : (c.listed getprop serial).held v = c.held v := by
  unfold Core.listed
  split
  · rfl
  · split
    · exact held_insertDevice wf getprop serial .device v
    · rfl

/-- `StartSession` does nothing more, or rebuilds the session of one device that has none
that is active. -/
theorem cmdStartSession_cases (getprop : String → Option String) (c : Core) (serial : String) :
    c.cmdStartSession getprop serial = c.listed getprop serial ∨
    ∃ e ∈ (c.listed getprop serial).devices, (∀ h, e.session = some h → h.isFailed = true) ∧
      c.cmdStartSession getprop serial =
        ((c.listed getprop serial).discard e.device.uuid).startSession e.device := by
  unfold Core.cmdStartSession
  dsimp only
  split
  · exact Or.inl rfl
  · rename_i e he
    split
    · exact Or.inl rfl
    · rename_i hactive
      split
      · refine Or.inr ⟨e, List.mem_of_find?_eq_some he, fun h hsession => ?_, rfl⟩
        simpa [hsession] using hactive
      · exact Or.inl rfl

theorem Sound.cmdStartSession (sound : Sound c) (getprop : String → Option String)
    (serial : String) : Sound (c.cmdStartSession getprop serial) := by
  have listed := sound.listed getprop serial
  rcases cmdStartSession_cases getprop c serial with h | ⟨e, he, -, h⟩ <;> rw [h]
  · exact listed
  · refine (listed.discard _).startSession ?_
    rw [entry_discard, entry_of_mem listed.index he]
    split <;> rfl

theorem continues_cmdUpdateConfig (c : Core) (uuid : Nat)
    (clipboardSync notificationSync audioSync : Bool) (volume : BitVec 16) :
    Continues c (c.cmdUpdateConfig uuid clipboardSync notificationSync audioSync volume) := by
  refine continues_update (DeviceEntry.configure_device _ _ _ _)
    (fun e => rel_map (fun h => ?_) e.session) uuid
  dsimp only
  split
  · exact Handle.continues_sendAudioTarget _ _
  · exact ⟨rfl, id⟩

theorem continues_checkDeadSessions (c : Core) : Continues c c.checkDeadSessions :=
  continues_map (DeviceEntry.mapSession_device _) fun e =>
    rel_map Handle.continues_checkDead e.session

theorem continues_onTask (c : Core) (session : Nat) (event : TaskEvent) :
    Continues c (c.onTask session event) := by
  refine continues_map (DeviceEntry.mapSession_device _) fun e => rel_map (fun h => ?_) e.session
  split
  · exact Handle.continues_onTask h event
  · exact .refl h

theorem onDeviceName_cases (c : Core) (serial name : String) :
    c.onDeviceName serial name = c ∨ ∃ p devices,
      modifyFirst p (.rename name) c.devices = some devices ∧
        c.onDeviceName serial name = { c with devices := devices } := by
  unfold Core.onDeviceName
  rcases h : modifyFirst (fun e : DeviceEntry => e.device.serial = serial) (.rename name)
    c.devices with _ | devices
  · exact Or.inl rfl
  · exact Or.inr ⟨_, devices, h, rfl⟩

theorem entry_onDeviceName (wf : WellFormed c.index) (serial name : String) (v : Nat) :
    (c.onDeviceName serial name).entry v = c.entry v ∨ ∃ e, c.entry v = some e ∧
      (c.onDeviceName serial name).entry v = some (e.rename name) := by
  rcases onDeviceName_cases c serial name with h | ⟨p, devices, hfirst, h⟩ <;> rw [h]
  · exact Or.inl rfl
  · have keep : ∀ e, p e = true → (e.rename name).device.uuid = e.device.uuid :=
      fun e _ => DeviceEntry.rename_uuid name e
    obtain ⟨e, he, hlook⟩ := lookup_modifyFirst keep (uuids_nodup wf) hfirst
    simp only [entry, hlook v]
    split
    · rename_i huuid
      subst huuid
      exact Or.inr ⟨e, entry_of_mem wf (List.mem_of_find?_eq_some he), rfl⟩
    · exact Or.inl rfl

theorem continues_onDeviceName (wf : WellFormed c.index) (serial name : String) :
    Continues c (c.onDeviceName serial name) := by
  refine .of_held fun v => ?_
  rcases entry_onDeviceName wf serial name v with h | ⟨e, he, h⟩
  · rw [held, h, held]
  · rw [held, h, held, he]
    rfl

theorem Sound.onDeviceName (sound : Sound c) (serial name : String) :
    Sound (c.onDeviceName serial name) := by
  have continues := continues_onDeviceName sound.index serial name
  rcases onDeviceName_cases c serial name with h | ⟨p, devices, hfirst, h⟩ <;> rw [h] at continues ⊢
  · exact sound
  · have keep : ∀ e, p e = true → (e.rename name).view.filing = e.view.filing :=
      fun e _ => DeviceEntry.rename_filing name e
    have filings : devices.map (fun e => e.view.filing) = c.devices.map fun e => e.view.filing :=
      modifyFirst_keys keep hfirst
    refine sound.of_continues (sound.index.of_perm (List.Perm.of_eq ?_) rfl) continues rfl rfl
    simpa only [Core.index, List.map_map, Function.comp_def] using filings

theorem rehash_perm (c : Core) (order : List Nat) : (c.rehash order).devices.Perm c.devices := by
  unfold rehash
  dsimp only
  split
  · rename_i h
    exact h
  · exact .refl _

theorem rehash_eq (c : Core) (order : List Nat) :
    c.rehash order = { c with devices := (c.rehash order).devices } := by
  unfold rehash
  dsimp only
  split <;> rfl

theorem entry_rehash (wf : WellFormed c.index) (order : List Nat) (v : Nat) :
    (c.rehash order).entry v = c.entry v :=
  (lookup_perm (uuids_nodup wf) (rehash_perm c order).symm v).symm

theorem continues_rehash (wf : WellFormed c.index) (order : List Nat) :
    Continues c (c.rehash order) :=
  .of_held fun v => by rw [held, entry_rehash wf, held]

theorem Sound.rehash (sound : Sound c) (order : List Nat) : Sound (c.rehash order) := by
  have continues := continues_rehash sound.index order
  have filings := (rehash_perm c order).map fun e => e.view.filing
  rw [rehash_eq] at continues ⊢
  refine sound.of_continues (sound.index.of_perm ?_ rfl) continues rfl rfl
  simpa only [Core.index, List.map_map, Function.comp_def] using filings

theorem Sound.mergeOnline (sound : Sound c) (getprop : String → Option String)
    (online : List String) : Sound (c.mergeOnline getprop online) := by
  induction online generalizing c with
  | nil => exact sound
  | cons a online ih => exact ih (sound.insertDevice getprop a .device)

theorem Sound.checkDeadSessions (sound : Sound c) : Sound c.checkDeadSessions :=
  sound.of_continues (filing_map (DeviceEntry.mapSession_device _) sound.index)
    (continues_checkDeadSessions c) rfl rfl

theorem pushSessionList_eq (c : Core) :
    c.pushSessionList = { c with sessionWatch := c.summaries } := by
  unfold pushSessionList
  split
  · rfl
  · rename_i h
    rw [not_not] at h
    rw [← h]

theorem Sound.pushSessionList (sound : Sound c) : Sound c.pushSessionList := by
  rw [pushSessionList_eq]
  exact ⟨sound.index, sound.ledger⟩

theorem Sound.onTick (sound : Sound c) (getprop : String → Option String) :
    Sound (c.onTick getprop) :=
  (((sound.mergeOnline getprop _).checkDeadSessions).discards _).pushSessionList

theorem Sound.stopAll (sound : Sound c) : Sound c.stopAll := by
  have discarded := sound.discards (c.devices.map (·.device.uuid))
  have hledger : c.stopAll.ledger =
      ((c.devices.map (·.device.uuid)).foldl Core.discard c).ledger := by
    ext1
    · funext v
      have hnone : ((c.devices.map (·.device.uuid)).foldl Core.discard c).held v = none := by
        rw [held_discards]
        split
        · rfl
        · rename_i hv
          have : c.entry v = none := lookup_eq_none.mpr fun e he huuid =>
            hv (huuid ▸ List.mem_map_of_mem he)
          rw [held, this]
          rfl
      simp only [Core.ledger, hnone]
      rfl
    · rfl
    · rfl
  refine ⟨⟨?_, ?_, ?_, ?_, ?_⟩, hledger ▸ discarded.ledger⟩ <;>
    simp [Core.index, Core.stopAll]

theorem Sound.step (sound : Sound c) (a : Action) : Sound (step c a) := by
  unfold App.step
  split
  · exact sound
  · cases a with
    | tick getprop => exact sound.onTick getprop
    | disconnect serial => exact sound.cmdDisconnect serial
    | retry uuid => exact sound.cmdRetry uuid
    | restartAllSessions => exact sound.cmdRestartAllSessions
    | startSession getprop serial => exact sound.cmdStartSession getprop serial
    | updateConfig uuid clipboardSync notificationSync audioSync volume =>
        exact sound.of_continues
          (wellFormed_update (DeviceEntry.configure_device _ _ _ _) sound.index uuid)
          (continues_cmdUpdateConfig c _ _ _ _ _) rfl rfl
    | deviceName serial name => exact sound.onDeviceName serial name
    | shutdown => exact sound.stopAll
    | task session event =>
        exact sound.of_continues (filing_map (DeviceEntry.mapSession_device _) sound.index)
          (continues_onTask c session event) rfl rfl
    | track watch => exact ⟨sound.index, sound.ledger⟩
    | settings audioCodec => exact ⟨sound.index, sound.ledger⟩
    | rehash order => exact sound.rehash order

end Core
end Kulua.App
