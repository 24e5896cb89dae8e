import Kulua.App.Ledger

/-! The handlers of `Core` as sequences of a few operations: a property that each of these
keeps is kept by all handlers. What `UpdateConfig` does to the configuration and what is
left after the shutdown is for each property to say. -/

namespace Kulua.App
open Foundation

/-- The property is kept by the operations that the handlers are made of. -/
structure Kept (P : Core → Prop) : Prop where
  insert : ∀ {c : Core}, c.Sound → P c → ∀ getprop a, P (c.insertDevice getprop a .device)
  take : ∀ {c : Core}, c.Sound → P c → ∀ uuid, P (c.takeAndStop uuid)
  drop : ∀ {c : Core}, P c → ∀ n, P (c.emit (.dropped n))
  start : ∀ {c : Core}, c.Sound → P c → ∀ device, P (c.startSession device)
  swap : ∀ {c : Core}, P c → P c.swapped
  dead : ∀ {c : Core}, P c → P c.checkDeadSessions
  push : ∀ {c : Core}, P c → P { c with sessionWatch := c.summaries }
  rename : ∀ {c : Core}, c.Sound → P c → ∀ serial name, P (c.onDeviceName serial name)
  task : ∀ {c : Core}, P c → ∀ session event, P (c.onTask session event)
  track : ∀ {c : Core}, P c → ∀ watch, P { c with deviceWatch := watch }
  settings : ∀ {c : Core}, P c → ∀ codec, P { c with audioCodec := codec }
  rehash : ∀ {c : Core}, c.Sound → P c → ∀ order, P (c.rehash order)

namespace Kept
variable {P : Core → Prop} {c : Core}

theorem discard (kept : Kept P) (sound : c.Sound) (h : P c) (uuid : Nat) : P (c.discard uuid) := by
  unfold Core.discard
  split
  · exact h
  · exact kept.drop (kept.take sound h uuid) _

theorem discards (kept : Kept P) (sound : c.Sound) (h : P c) (uuids : List Nat) :
    P (uuids.foldl Core.discard c) := by
  induction uuids generalizing c with
  | nil => exact h
  | cons uuid uuids ih => exact ih (sound.discard uuid) (kept.discard sound h uuid)

theorem starts (kept : Kept P) (sound : c.Sound) (h : P c) {devices : List Device}
    (present : ∀ d ∈ devices, (c.entry d.uuid).isSome) :
    P (devices.foldl Core.startSession c) := by
  induction devices generalizing c with
  | nil => exact h
  | cons device devices ih =>
      refine ih (sound.startSession (present device (List.mem_cons_self ..)))
        (kept.start sound h device) fun d hd => ?_
      rw [Core.isSome_entry_startSession sound.index]
      exact present d (List.mem_cons_of_mem device hd)

theorem mergeOnline (kept : Kept P) (sound : c.Sound) (h : P c) (getprop : String → Option String)
    (online : List String) : P (c.mergeOnline getprop online) := by
  induction online generalizing c with
  | nil => exact h
  | cons a online ih => exact ih (sound.insertDevice getprop a .device) (kept.insert sound h getprop a)

theorem onTick (kept : Kept P) (sound : c.Sound) (h : P c) (getprop : String → Option String) :
    P (c.onTick getprop) := by
  have merged := kept.mergeOnline sound h getprop c.deviceWatch.online
  have dead := (sound.mergeOnline getprop c.deviceWatch.online).checkDeadSessions
  rw [Core.onTick, Core.pushSessionList_eq]
  exact kept.push (kept.discards dead (kept.dead merged) _)

theorem cmdDisconnect (kept : Kept P) (sound : c.Sound) (h : P c) (serial : String) :
    P (c.cmdDisconnect serial) := by
  unfold Core.cmdDisconnect
  split
  · exact h
  · exact kept.discard sound h _

theorem cmdRetry (kept : Kept P) (sound : c.Sound) (h : P c) (uuid : Nat) :
    P (c.cmdRetry uuid) := by
  rcases Core.cmdRetry_cases c uuid with ⟨hsame, -⟩ | ⟨e, handle, -, -, -, hretry⟩
  · rwa [hsame]
  · have stopped := kept.take sound h uuid
    rw [hretry]
    split
    · exact kept.drop (kept.start (sound.takeAndStop uuid) stopped e.device) _
    · exact kept.drop stopped _

theorem cmdRestartAllSessions (kept : Kept P) (sound : c.Sound) (h : P c) :
    P c.cmdRestartAllSessions :=
  kept.starts (sound.swapped.discards _) (kept.discards sound.swapped (kept.swap h) _)
    fun _ hd => Core.isSome_entry_stopped sound.index hd

theorem listed (kept : Kept P) (sound : c.Sound) (h : P c) (getprop : String → Option String)
    (serial : String) : P (c.listed getprop serial) := by
  unfold Core.listed
  split
  · exact h
  · split
    · exact kept.insert sound h getprop serial
    · exact h

theorem cmdStartSession (kept : Kept P) (sound : c.Sound) (h : P c)
    (getprop : String → Option String) (serial : String) :
    P (c.cmdStartSession getprop serial) := by
  have listed := kept.listed sound h getprop serial
  have sound' := sound.listed getprop serial
  rcases Core.cmdStartSession_cases getprop c serial with hcmd | ⟨e, -, -, hcmd⟩ <;> rw [hcmd]
  · exact listed
  · exact kept.start (sound'.discard e.device.uuid) (kept.discard sound' listed _) e.device

/-- The handlers other than `UpdateConfig` and the shutdown. -/
theorem step (kept : Kept P) (sound : c.Sound) (h : P c) (a : Action)
    (update : ∀ uuid clipboardSync notificationSync audioSync volume,
      a = .updateConfig uuid clipboardSync notificationSync audioSync volume →
        P (c.cmdUpdateConfig uuid clipboardSync notificationSync audioSync volume))
    (shutdown : a = .shutdown → P c.stopAll) : P (step c a) := by
  unfold App.step
  split
  · exact h
  · cases a with
    | tick getprop => exact kept.onTick sound h getprop
    | disconnect serial => exact kept.cmdDisconnect sound h serial
    | retry uuid => exact kept.cmdRetry sound h uuid
    | restartAllSessions => exact kept.cmdRestartAllSessions sound h
    | startSession getprop serial => exact kept.cmdStartSession sound h getprop serial
    | updateConfig uuid clipboardSync notificationSync audioSync volume => exact update _ _ _ _ _ rfl
    | deviceName serial name => exact kept.rename sound h serial name
    | shutdown => exact shutdown rfl
    | task session event => exact kept.task h session event
    | track watch => exact kept.track h watch
    | settings audioCodec => exact kept.settings h audioCodec
    | rehash order => exact kept.rehash sound h order

end Kept
end Kulua.App
