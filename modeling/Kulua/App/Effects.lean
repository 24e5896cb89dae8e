import Kulua.App.Core

/-! What the operations of `Core` do, seen through lookup by UUID: to the entries, to the
index of addresses, and to the record of which sessions were started and stopped. -/

namespace Kulua.App
open Foundation Foundation.Keyed
open DeviceMerge (WellFormed)

namespace DeviceEntry

@[simp] theorem touch_session (a : String) (st : DeviceState) (e : DeviceEntry) :
    (e.touch a st).session = e.session := rfl

@[simp] theorem touch_config (a : String) (st : DeviceState) (e : DeviceEntry) :
    (e.touch a st).config = e.config := rfl

@[simp] theorem touch_id (a : String) (st : DeviceState) (e : DeviceEntry) :
    (e.touch a st).device.id = e.device.id := rfl

@[simp] theorem touch_uuid (a : String) (st : DeviceState) (e : DeviceEntry) :
    (e.touch a st).device.uuid = e.device.uuid := rfl

@[simp] theorem take_device (e : DeviceEntry) : e.take.device = e.device := rfl

@[simp] theorem mapSession_device (g : Handle → Handle) (e : DeviceEntry) :
    (e.mapSession g).device = e.device := rfl

@[simp] theorem configure_device (clipboardSync notificationSync audioSync : Bool)
    (volume : BitVec 16) (e : DeviceEntry) :
    (e.configure clipboardSync notificationSync audioSync volume).device = e.device := rfl

@[simp] theorem rename_uuid (name : String) (e : DeviceEntry) :
    (e.rename name).device.uuid = e.device.uuid := rfl

@[simp] theorem rename_filing (name : String) (e : DeviceEntry) :
    (e.rename name).view.filing = e.view.filing := rfl

@[simp] theorem take_take (e : DeviceEntry) : e.take.take = e.take := rfl

theorem take_of_none {e : DeviceEntry} (h : e.session = none) : e.take = e := by
  cases e
  simp_all [take]

end DeviceEntry

namespace Core

/-- The devices as an index of addresses. -/
def index (c : Core) : DeviceMerge.Devices := ⟨c.devices.map (·.view), c.nextUuid⟩

/-- Who has which session, and the record of it. -/
def ledger (c : Core) : Lease.Ledger Nat :=
  ⟨fun uuid => (c.held uuid).map (·.session), c.starts.length, c.trace⟩

variable {c : Core}

theorem mem_of_entry {uuid : Nat} {e : DeviceEntry} (h : c.entry uuid = some e) :
    e ∈ c.devices ∧ e.device.uuid = uuid := by
  have huuid := key_of_lookup h
  exact ⟨mem_of_lookup h, huuid⟩

theorem held_eq_some {uuid : Nat} {h : Handle} :
    c.held uuid = some h ↔ ∃ e, c.entry uuid = some e ∧ e.session = some h :=
  Option.bind_eq_some_iff

theorem uuids_nodup (wf : WellFormed c.index) : (c.devices.map (·.device.uuid)).Nodup := by
  have := wf.uuids
  simpa only [index, List.map_map, Function.comp_def, DeviceEntry.view] using this

theorem entry_of_mem (wf : WellFormed c.index) {e : DeviceEntry} (he : e ∈ c.devices) :
    c.entry e.device.uuid = some e := lookup_of_mem (uuids_nodup wf) he

/-- A change that is made entry by entry. -/
theorem entry_map {f : DeviceEntry → DeviceEntry} (keep : ∀ e, (f e).device = e.device)
    (uuid : Nat) :
    ({ c with devices := c.devices.map f } : Core).entry uuid = (c.entry uuid).map f :=
  lookup_map (fun e => by rw [keep]) c.devices uuid

theorem filing_map {f : DeviceEntry → DeviceEntry} (keep : ∀ e, (f e).device = e.device)
    (wf : WellFormed c.index) :
    WellFormed ({ c with devices := c.devices.map f } : Core).index := by
  refine wf.of_perm (List.Perm.of_eq ?_) rfl
  simp [index, Function.comp_def, DeviceEntry.view, DeviceMerge.DeviceEntry.filing, keep]

theorem entry_update {f : DeviceEntry → DeviceEntry} (keep : ∀ e, (f e).device = e.device)
    (uuid v : Nat) :
    (c.update uuid f).entry v = if v = uuid then (c.entry v).map f else c.entry v := by
  have hkeep : ∀ e : DeviceEntry, (if e.device.uuid = uuid then f e else e).device = e.device := by
    intro e
    split
    · exact keep e
    · rfl
  rw [update, entry_map hkeep]
  rcases h : c.entry v with _ | e
  · simp
  · obtain rfl := key_of_lookup h
    split <;> simp_all

@[simp] theorem entry_emit (c : Core) (ev : Lease.Event Nat) (uuid : Nat) :
    (c.emit ev).entry uuid = c.entry uuid := rfl

@[simp] theorem held_emit (c : Core) (ev : Lease.Event Nat) (uuid : Nat) :
    (c.emit ev).held uuid = c.held uuid := rfl

@[simp] theorem index_emit (c : Core) (ev : Lease.Event Nat) : (c.emit ev).index = c.index := rfl

theorem wellFormed_update {f : DeviceEntry → DeviceEntry} (keep : ∀ e, (f e).device = e.device)
    (wf : WellFormed c.index) (uuid : Nat) : WellFormed (c.update uuid f).index := by
  refine filing_map (fun e => ?_) wf
  split
  · exact keep e
  · rfl

/-! Taking a session out of its entry. -/

theorem entry_takeAndStop (c : Core) (uuid v : Nat) :
    (c.takeAndStop uuid).entry v = if v = uuid then (c.entry v).map .take else c.entry v := by
  unfold takeAndStop
  split
  · rename_i hnone
    split
    · rename_i hv
      subst hv
      rcases he : c.entry v with _ | e
      · rfl
      · rw [held, he] at hnone
        rw [Option.map_some, DeviceEntry.take_of_none hnone]
    · rfl
  · rw [entry_emit, entry_update DeviceEntry.take_device]

theorem entry_discard (c : Core) (uuid v : Nat) :
    (c.discard uuid).entry v = if v = uuid then (c.entry v).map .take else c.entry v := by
  rw [← entry_takeAndStop]
  rcases hheld : c.held uuid with _ | h
  · simp [discard, takeAndStop, hheld]
  · simp [discard, hheld]

theorem held_takeAndStop (c : Core) (uuid v : Nat) :
    (c.takeAndStop uuid).held v = if v = uuid then none else c.held v := by
  rw [held, entry_takeAndStop]
  split
  · rcases c.entry v with _ | e <;> rfl
  · rfl

theorem held_discard (c : Core) (uuid v : Nat) :
    (c.discard uuid).held v = if v = uuid then none else c.held v := by
  rw [← held_takeAndStop, held, entry_discard, ← entry_takeAndStop]
  rfl

theorem wellFormed_takeAndStop (wf : WellFormed c.index) (uuid : Nat) :
    WellFormed (c.takeAndStop uuid).index := by
  unfold takeAndStop
  split
  · exact wf
  · exact wellFormed_update DeviceEntry.take_device wf uuid

theorem wellFormed_discard (wf : WellFormed c.index) (uuid : Nat) :
    WellFormed (c.discard uuid).index := by
  unfold discard
  split
  · exact wf
  · exact wellFormed_takeAndStop wf uuid

theorem ledger_takeAndStop (c : Core) (uuid : Nat) :
    (c.takeAndStop uuid).ledger = c.ledger.close uuid := by
  rcases hheld : c.held uuid with _ | h
  · simp [takeAndStop, Lease.Ledger.close, ledger, hheld]
  · ext1
    · funext v
      simp only [ledger, held_takeAndStop, Lease.Ledger.close, hheld, Option.map_some]
      by_cases hv : v = uuid <;> simp [hv]
    · simp [ledger, takeAndStop, Lease.Ledger.close, hheld, emit, update]
    · simp [ledger, takeAndStop, Lease.Ledger.close, hheld, emit, update]

theorem ledger_emit_dropped (c : Core) (n : Nat) :
    (c.emit (.dropped n)).ledger = c.ledger.drop n := rfl

theorem ledger_discard (c : Core) (uuid : Nat) :
    (c.discard uuid).ledger = c.ledger.discard uuid := by
  rcases hheld : c.held uuid with _ | h
  · simp [discard, Lease.Ledger.discard, ledger, hheld]
  · have hholds : c.ledger.holds uuid = some h.session := by simp [ledger, hheld]
    simp only [discard, hheld]
    rw [ledger_emit_dropped, ledger_takeAndStop, Lease.Ledger.discard, hholds]

/-! Starting a session. -/

@[simp] theorem install_device (c : Core) (device : Device) (e : DeviceEntry) :
    (c.install device e).device = e.device := rfl

theorem startSession_guard (wf : WellFormed c.index) (device : Device) :
    (c.devices.any fun e => e.session.isSome && e.device.uuid = device.uuid) =
      (c.held device.uuid).isSome := by
  rw [Bool.eq_iff_iff, List.any_eq_true, Option.isSome_iff_exists]
  simp only [Bool.and_eq_true, decide_eq_true_eq, Option.isSome_iff_exists, held_eq_some]
  constructor
  · rintro ⟨e, he, ⟨h, hsession⟩, huuid⟩
    exact ⟨h, e, huuid ▸ entry_of_mem wf he, hsession⟩
  · rintro ⟨h, e, he, hsession⟩
    exact ⟨e, (mem_of_entry he).1, ⟨h, hsession⟩, (mem_of_entry he).2⟩

theorem startSession_of_held (wf : WellFormed c.index) {device : Device}
    (hheld : (c.held device.uuid).isSome) : c.startSession device = c := by
  rw [startSession, startSession_guard wf, if_pos hheld]

theorem startSession_of_free (wf : WellFormed c.index) {device : Device}
    (free : c.held device.uuid = none) (present : (c.entry device.uuid).isSome) :
    c.startSession device =
      ({ c with
        portCounter := c.portCounter + 1
        starts := c.starts ++ [⟨device.uuid, c.portCounter⟩]
        trace := c.trace ++ [.opened c.starts.length device.uuid] } : Core).update device.uuid
          (c.install device) := by
  obtain ⟨e, he⟩ := Option.isSome_iff_exists.mp present
  rw [startSession, startSession_guard wf, free]
  simp [he]

theorem entry_startSession (wf : WellFormed c.index) (device : Device) (v : Nat) :
    (c.startSession device).entry v =
      if v = device.uuid ∧ c.held v = none then (c.entry v).map (c.install device)
      else c.entry v := by
  rcases hheld : c.held device.uuid with _ | h
  · rcases hentry : c.entry device.uuid with _ | e
    · rw [startSession, startSession_guard wf, hheld]
      simp only [Option.isSome_none, Bool.false_eq_true, if_false, hentry]
      split
      · rename_i hv
        rw [hv.1]
        exact hentry.trans (by rw [hentry, Option.map_none])
      · rfl
    · rw [startSession_of_free wf hheld (by simp [hentry]), entry_update (install_device c device)]
      by_cases hv : v = device.uuid
      · subst hv
        simp only [if_true, hheld, and_self]
        rfl
      · simp only [hv, if_false, false_and]
        rfl
  · rw [startSession_of_held wf (by simp [hheld]), if_neg]
    rintro ⟨rfl, hnone⟩
    rw [hheld] at hnone
    cases hnone

theorem wellFormed_startSession (wf : WellFormed c.index) (device : Device) :
    WellFormed (c.startSession device).index := by
  unfold startSession
  split
  · exact wf
  · split
    · exact wf
    · exact wellFormed_update (install_device c device) wf device.uuid

theorem held_startSession (wf : WellFormed c.index) (device : Device) (v : Nat) :
    (c.startSession device).held v =
      if v = device.uuid ∧ c.held v = none then
        (c.entry v).map fun e => c.newHandle device { e.config with audioCodec := c.audioCodec }
      else c.held v := by
  rw [held, entry_startSession wf]
  split
  · rcases c.entry v with _ | e <;> rfl
  · rfl

theorem ledger_startSession (wf : WellFormed c.index) {device : Device}
    (free : c.held device.uuid = none) (present : (c.entry device.uuid).isSome) :
    (c.startSession device).ledger = c.ledger.acquire device.uuid := by
  ext1
  · funext v
    simp only [ledger, held_startSession wf, Lease.Ledger.acquire]
    by_cases hv : v = device.uuid
    · subst hv
      obtain ⟨e, he⟩ := Option.isSome_iff_exists.mp present
      simp [free, he, newHandle]
    · simp [hv]
  · simp [ledger, startSession_of_free wf free present, Lease.Ledger.acquire, update]
  · simp [ledger, startSession_of_free wf free present, Lease.Ledger.acquire, update]

/-! Merging an address into the index. -/

theorem index_insertDevice (getprop : String → Option String) (c : Core) (a : String)
    (st : DeviceState) :
    (c.insertDevice getprop a st).index = DeviceMerge.insertDevice getprop c.index a st := by
  have home := modifyFirst_map (p := fun e => e.device.identity.containsAddr a)
    (f := DeviceEntry.touch a st) (q := fun e => e.device.identity.containsAddr a)
    (g := DeviceMerge.DeviceEntry.touch a st) DeviceEntry.view (fun _ => rfl) (fun _ => rfl)
    c.devices
  have same := modifyFirst_map
    (p := fun e => decide (e.device.id = DeviceMerge.deviceId getprop a st))
    (f := DeviceEntry.touch a st)
    (q := fun e => decide (e.device.id = DeviceMerge.deviceId getprop a st))
    (g := DeviceMerge.DeviceEntry.touch a st) DeviceEntry.view (fun _ => rfl) (fun _ => rfl)
    c.devices
  rcases hfirst : modifyFirst (fun e => e.device.identity.containsAddr a)
    (DeviceEntry.touch a st) c.devices with _ | devices
  · rw [hfirst, Option.map_none] at home
    rcases hsecond : modifyFirst (fun e => decide (e.device.id = DeviceMerge.deviceId getprop a st))
      (DeviceEntry.touch a st) c.devices with _ | devices
    · rw [hsecond, Option.map_none] at same
      simp only [insertDevice, DeviceMerge.insertDevice, index, hfirst, home, hsecond, same]
      simp [DeviceEntry.new, DeviceEntry.view, DeviceMerge.newEntry]
    · rw [hsecond, Option.map_some] at same
      simp only [insertDevice, DeviceMerge.insertDevice, index, hfirst, home, hsecond, same]
  · rw [hfirst, Option.map_some] at home
    simp only [insertDevice, DeviceMerge.insertDevice, index, hfirst, home]

/-- The entry that is found is touched, or a new one is made. -/
theorem insertDevice_cases (getprop : String → Option String) (c : Core) (a : String)
    (st : DeviceState) :
    (∃ p devices, modifyFirst p (.touch a st) c.devices = some devices ∧
      c.insertDevice getprop a st = { c with devices := devices }) ∨
    (∃ device : Device, device.uuid = c.nextUuid ∧ c.insertDevice getprop a st =
      { c with devices := c.devices ++ [.new device], nextUuid := c.nextUuid + 1 }) := by
  unfold insertDevice
  split
  · rename_i devices hfirst
    exact Or.inl ⟨_, devices, hfirst, rfl⟩
  · dsimp only
    split
    · rename_i devices hsecond
      exact Or.inl ⟨_, devices, hsecond, rfl⟩
    · exact Or.inr ⟨_, rfl, rfl⟩

/-- An entry stays, or is touched, or is new and has no session. -/
theorem entry_insertDevice (wf : WellFormed c.index) (getprop : String → Option String)
    (a : String) (st : DeviceState) (v : Nat) :
    (c.insertDevice getprop a st).entry v = c.entry v ∨
    (∃ e, c.entry v = some e ∧ (c.insertDevice getprop a st).entry v = some (e.touch a st)) ∨
    (c.entry v = none ∧ ∃ device, (c.insertDevice getprop a st).entry v = some (.new device)) := by
  rcases insertDevice_cases getprop c a st with
    ⟨p, devices, hfirst, hins⟩ | ⟨device, huuid, hins⟩ <;> rw [hins]
  · have keep : ∀ e, p e = true → (e.touch a st).device.uuid = e.device.uuid :=
      fun e _ => DeviceEntry.touch_uuid a st e
    obtain ⟨e, he, hlook⟩ := lookup_modifyFirst keep (uuids_nodup wf) hfirst
    simp only [entry, hlook v]
    split
    · rename_i huuid
      subst huuid
      exact Or.inr (Or.inl ⟨e, entry_of_mem wf (List.mem_of_find?_eq_some he), rfl⟩)
    · exact Or.inl rfl
  · simp only [entry, lookup_concat]
    rcases lookup (fun e : DeviceEntry => e.device.uuid) c.devices v with _ | e
    · by_cases hnew : (DeviceEntry.new device).device.uuid = v
      · exact Or.inr (Or.inr ⟨rfl, device, by simp [hnew]⟩)
      · exact Or.inl (by simp [hnew])
    · exact Or.inl rfl

theorem held_insertDevice (wf : WellFormed c.index) (getprop : String → Option String)
    (a : String) (st : DeviceState) (v : Nat) :
    (c.insertDevice getprop a st).held v = c.held v := by
  rcases entry_insertDevice wf getprop a st v with h | ⟨e, he, h⟩ | ⟨hnone, device, h⟩
  · rw [held, h, held]
  · rw [held, h, held, he]
    rfl
  · rw [held, h, held, hnone]
    rfl

theorem wellFormed_insertDevice (wf : WellFormed c.index) (getprop : String → Option String)
    (a : String) (st : DeviceState) : WellFormed (c.insertDevice getprop a st).index :=
  index_insertDevice getprop c a st ▸ wf.insertDevice getprop a st

@[simp] theorem starts_insertDevice (getprop : String → Option String) (c : Core) (a : String)
    (st : DeviceState) : (c.insertDevice getprop a st).starts = c.starts := by
  rcases insertDevice_cases getprop c a st with ⟨p, devices, -, h⟩ | ⟨device, -, h⟩ <;> rw [h]

@[simp] theorem trace_insertDevice (getprop : String → Option String) (c : Core) (a : String)
    (st : DeviceState) : (c.insertDevice getprop a st).trace = c.trace := by
  rcases insertDevice_cases getprop c a st with ⟨p, devices, -, h⟩ | ⟨device, -, h⟩ <;> rw [h]

theorem ledger_insertDevice (wf : WellFormed c.index) (getprop : String → Option String)
    (a : String) (st : DeviceState) : (c.insertDevice getprop a st).ledger = c.ledger := by
  simp only [ledger, held_insertDevice wf, starts_insertDevice, trace_insertDevice]

end Core
end Kulua.App
