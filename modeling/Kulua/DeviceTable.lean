import Kulua.Device
import Kulua.Foundation.Keyed
import Kulua.Foundation.Run

/-! The device table of `sync-core/src/app.rs` and the only function that writes it.
The table is a hash map in the source; at most one of its entries can match an
address, so the order in which it is searched does not matter. `getprop` stands for
`adb shell getprop ro.serialno`, decoded and trimmed; none where the call fails. -/

namespace Kulua.DeviceMerge
open Foundation Foundation.Keyed

structure DeviceEntry where
  device : Device
  /-- A session is running for the device. -/
  session : Bool
  deriving DecidableEq, Repr

structure Devices where
  entries : List DeviceEntry
  nextUuid : Nat
  deriving DecidableEq, Repr

/-- Whether `serial` replaces `current` as the address used for adb commands. -/
def outranks (serial current : String) : Bool :=
  decide ((DeviceAddrKind.classify current).priority < (DeviceAddrKind.classify serial).priority) &&
    !containsText serial "._tcp"

/-- What `insert_device` does to the entry it finds. -/
def DeviceEntry.touch (serial : String) (state : DeviceState) (e : DeviceEntry) : DeviceEntry :=
  { e with device := { e.device with
    identity := e.device.identity.merge (.ofAddr serial)
    state := state
    serial := if outranks serial e.device.serial then serial else e.device.serial } }

def deviceId (getprop : String → Option String) (serial : String) (state : DeviceState) : String :=
  if state = .device then
    match getprop serial with
    | some realId => if realId ≠ "" then realId else serial
    | none => serial
  else serial

def newEntry (uuid : Nat) (id serial : String) (state : DeviceState) : DeviceEntry :=
  ⟨⟨uuid, id, serial, state, "", .ofAddr serial⟩, false⟩

def insertDevice (getprop : String → Option String) (ds : Devices) (serial : String)
    (state : DeviceState) : Devices :=
  match modifyFirst (fun e => e.device.identity.containsAddr serial) (.touch serial state)
      ds.entries with
  | some entries => { ds with entries := entries }
  | none =>
    let id := deviceId getprop serial state
    match modifyFirst (fun e => e.device.id = id) (.touch serial state) ds.entries with
    | some entries => { ds with entries := entries }
    | none => ⟨ds.entries ++ [newEntry ds.nextUuid id serial state], ds.nextUuid + 1⟩


def init : Devices := ⟨[], 0⟩

abbrev entryOf (ds : Devices) (id : String) : Option DeviceEntry :=
  lookup (fun e : DeviceEntry => e.device.id) ds.entries id

/-- The entry whose identity has the address. -/
def home (ds : Devices) (addr : String) : Option DeviceEntry :=
  ds.entries.find? fun e => e.device.identity.containsAddr addr

/-- The id of the entry that an address goes to. -/
def idFor (getprop : String → Option String) (ds : Devices) (serial : String)
    (state : DeviceState) : String :=
  match home ds serial with
  | some e => e.device.id
  | none => deviceId getprop serial state

/-- The UUID that `insert_device` returns. -/
def insertedUuid (getprop : String → Option String) (ds : Devices) (serial : String)
    (state : DeviceState) : Nat :=
  match home ds serial with
  | some e => e.device.uuid
  | none =>
    match entryOf ds (deviceId getprop serial state) with
    | some e => e.device.uuid
    | none => ds.nextUuid

variable {getprop : String → Option String} {ds : Devices}

@[simp] theorem touch_id (a : String) (st : DeviceState) (e : DeviceEntry) :
    (e.touch a st).device.id = e.device.id := rfl

@[simp] theorem touch_uuid (a : String) (st : DeviceState) (e : DeviceEntry) :
    (e.touch a st).device.uuid = e.device.uuid := rfl

@[simp] theorem touch_identity (a : String) (st : DeviceState) (e : DeviceEntry) :
    (e.touch a st).device.identity = e.device.identity.merge (.ofAddr a) := rfl

theorem home_mem {a : String} {e : DeviceEntry} (h : home ds a = some e) : e ∈ ds.entries :=
  List.mem_of_find?_eq_some h

theorem home_contains {a : String} {e : DeviceEntry} (h : home ds a = some e) :
    e.device.identity.containsAddr a = true := by
  simpa using List.find?_some h

theorem home_eq_none {a : String} :
    home ds a = none ↔ ∀ e ∈ ds.entries, e.device.identity.containsAddr a = false := by
  simp [home]

theorem entryOf_id {id : String} {e : DeviceEntry} (h : entryOf ds id = some e) :
    e.device.id = id := by
  have := key_of_lookup h
  exact this

/-- An address goes to the entry with its id, or makes one. -/
theorem insertDevice_cases (getprop : String → Option String)
    (distinct : (ds.entries.map (·.device.id)).Nodup) (a : String) (st : DeviceState) :
    (∃ es e, insertDevice getprop ds a st = { ds with entries := es } ∧
      es.map (·.device.id) = ds.entries.map (·.device.id) ∧
      es.map (·.device.uuid) = ds.entries.map (·.device.uuid) ∧
      entryOf ds (idFor getprop ds a st) = some e ∧
      insertedUuid getprop ds a st = e.device.uuid ∧
      ∀ id, lookup (·.device.id) es id =
        if idFor getprop ds a st = id then some (e.touch a st) else entryOf ds id) ∨
    (home ds a = none ∧ entryOf ds (idFor getprop ds a st) = none ∧
      insertedUuid getprop ds a st = ds.nextUuid ∧
      insertDevice getprop ds a st =
        ⟨ds.entries ++ [newEntry ds.nextUuid (idFor getprop ds a st) a st], ds.nextUuid + 1⟩) := by
  have keepId : ∀ p : DeviceEntry → Bool, ∀ e, p e = true →
      (e.touch a st).device.id = e.device.id := fun _ e _ => touch_id a st e
  have keepUuid : ∀ p : DeviceEntry → Bool, ∀ e, p e = true →
      (e.touch a st).device.uuid = e.device.uuid := fun _ e _ => touch_uuid a st e
  unfold insertDevice
  rcases hfirst : modifyFirst (fun e => e.device.identity.containsAddr a)
    (DeviceEntry.touch a st) ds.entries with _ | es
  · have hhome : home ds a = none := home_eq_none.mpr (modifyFirst_eq_none.mp hfirst)
    have hid : idFor getprop ds a st = deviceId getprop a st := by simp [idFor, hhome]
    rcases hsecond : modifyFirst (fun e => decide (e.device.id = deviceId getprop a st))
      (DeviceEntry.touch a st) ds.entries with _ | es
    · have hnone : entryOf ds (deviceId getprop a st) = none :=
        lookup_eq_none.mpr fun e he => by simpa using modifyFirst_eq_none.mp hsecond e he
      exact Or.inr ⟨hhome, by rw [hid, hnone], by simp [insertedUuid, hhome, hnone],
        by simp only [hfirst, hsecond, hid]⟩
    · obtain ⟨e, he, hlook⟩ := lookup_modifyFirst (keepId _) distinct hsecond
      have hentry : entryOf ds (deviceId getprop a st) = some e := he
      refine Or.inl ⟨es, e, by simp only [hfirst, hsecond], modifyFirst_keys (keepId _) hsecond,
        modifyFirst_keys (keepUuid _) hsecond, by rw [hid, hentry],
        by simp [insertedUuid, hhome, hentry], fun id => ?_⟩
      rw [hlook, hid, key_of_lookup hentry]
  · obtain ⟨e, he, hlook⟩ := lookup_modifyFirst (keepId _) distinct hfirst
    have hhome : home ds a = some e := he
    have hid : idFor getprop ds a st = e.device.id := by simp [idFor, hhome]
    refine Or.inl ⟨es, e, by simp only [hfirst], modifyFirst_keys (keepId _) hfirst,
      modifyFirst_keys (keepUuid _) hfirst, ?_, by simp [insertedUuid, hhome], fun id => ?_⟩
    · rw [hid]
      exact lookup_of_mem distinct (home_mem hhome)
    · rw [hlook, hid]

theorem entryOf_insertDevice (distinct : (ds.entries.map (·.device.id)).Nodup) (a : String)
    (st : DeviceState) (id : String) :
    entryOf (insertDevice getprop ds a st) id =
      if idFor getprop ds a st = id then
        some (((entryOf ds id).map (.touch a st)).getD (newEntry ds.nextUuid id a st))
      else entryOf ds id := by
  rcases insertDevice_cases getprop distinct a st with
    ⟨es, e, hins, -, -, he, -, hlook⟩ | ⟨-, hnone, -, hins⟩
  · rw [hins]
    simp only [entryOf, hlook id]
    split
    · rename_i hid
      subst hid
      simp only [entryOf] at he
      simp [he]
    · rfl
  · rw [hins]
    simp only [entryOf, lookup_concat]
    by_cases hid : idFor getprop ds a st = id
    · subst hid
      simp only [entryOf] at hnone
      simp [hnone, newEntry]
    · simp [hid, newEntry]

theorem nodup_insertDevice (distinct : (ds.entries.map (·.device.id)).Nodup) (a : String)
    (st : DeviceState) :
    ((insertDevice getprop ds a st).entries.map (·.device.id)).Nodup := by
  rcases insertDevice_cases getprop distinct a st with
    ⟨es, e, hins, hids, -⟩ | ⟨-, hnone, -, hins⟩
  · rw [hins]
    exact hids ▸ distinct
  · rw [hins, List.map_append, List.nodup_append]
    refine ⟨distinct, by simp, fun id hid id' hid' => ?_⟩
    obtain ⟨e', he', rfl⟩ := List.mem_map.mp hid
    simp only [List.map_cons, List.map_nil, List.mem_singleton, newEntry] at hid'
    rw [hid']
    exact lookup_eq_none.mp hnone e' he'

/-- Where an entry of the table after an insertion comes from. -/
theorem mem_insertDevice (distinct : (ds.entries.map (·.device.id)).Nodup) {a : String}
    {st : DeviceState} {e : DeviceEntry} (h : e ∈ (insertDevice getprop ds a st).entries) :
    (e ∈ ds.entries ∧ e.device.id ≠ idFor getprop ds a st) ∨
    (∃ old ∈ ds.entries, old.device.id = idFor getprop ds a st ∧ e = old.touch a st) ∨
    (entryOf ds (idFor getprop ds a st) = none ∧
      e = newEntry ds.nextUuid (idFor getprop ds a st) a st) := by
  have hget := lookup_of_mem (nodup_insertDevice distinct a st) h
  rw [← entryOf, entryOf_insertDevice distinct] at hget
  split at hget
  · rename_i hid
    rw [← hid] at hget
    rcases hold : entryOf ds (idFor getprop ds a st) with _ | old
    · rw [hold] at hget
      exact Or.inr (Or.inr ⟨rfl, (Option.some.inj hget).symm⟩)
    · rw [hold] at hget
      exact Or.inr (Or.inl ⟨old, mem_of_lookup hold, entryOf_id hold,
        (Option.some.inj hget).symm⟩)
  · rename_i hid
    exact Or.inl ⟨mem_of_lookup hget, fun he => hid he.symm⟩

end Kulua.DeviceMerge
