import Kulua.DeviceTable

/-! The ticks of `sync-core/src/app.rs`: what a tick does with the addresses that adb
reports as online. The online map is a hash map; its order is any list. -/

namespace Kulua.DeviceMerge
open Foundation Foundation.Keyed

/-- The addresses in state `Device` of what adb tracks. -/
def onlineOf (track : List (String × DeviceState)) : List String :=
  (track.filter fun d => d.2 = .device).map Prod.fst

/-- The merge loop of `on_tick`. -/
def mergeOnline (getprop : String → Option String) (ds : Devices) (online : List String) :
    Devices :=
  online.foldl (fun ds serial => insertDevice getprop ds serial .device) ds

def stopDisconnectedSessions (ds : Devices) (online : List String) : Devices :=
  { ds with entries := ds.entries.map fun e =>
      if e.session ∧ e.device.serial ∉ online then { e with session := false } else e }

def onTick (getprop : String → Option String) (ds : Devices)
    (track : List (String × DeviceState)) : Devices :=
  stopDisconnectedSessions (mergeOnline getprop ds (onlineOf track)) (onlineOf track)

/-- A session is set up for the device with this id. -/
def startSession (ds : Devices) (id : String) : Devices :=
  { ds with entries := ds.entries.map fun e =>
      if e.device.id = id then { e with session := true } else e }

inductive Action where
  | tick (track : List (String × DeviceState))
  | startSession (id : String)
  deriving DecidableEq, Repr

def step (getprop : String → Option String) (ds : Devices) : Action → Devices
  | .tick track => onTick getprop ds track
  | .startSession id => startSession ds id

/-- `getprop` answers every address with the hardware serial of the device behind it. -/
def Answers (getprop : String → Option String) (hw : String → String) : Prop :=
  ∀ a, getprop a = some (hw a) ∧ hw a ≠ ""

/-- The entry's device is behind one of the online addresses. -/
def Owns (hw : String → String) (online : List String) (e : DeviceEntry) : Prop :=
  ∃ a ∈ online, hw a = e.device.id

instance (hw : String → String) (online : List String) (e : DeviceEntry) :
    Decidable (Owns hw online e) := inferInstanceAs (Decidable (∃ a ∈ online, hw a = e.device.id))

/-- One entry per device, and every address of an entry is one of its device. -/
structure Tidy (hw : String → String) (ds : Devices) : Prop where
  distinct : (ds.entries.map fun e => e.device.id).Nodup
  own : ∀ e ∈ ds.entries, ∀ a, e.device.identity.containsAddr a = true → hw a = e.device.id

variable {getprop : String → Option String} {hw : String → String} {ds : Devices}

theorem deviceId_online (answers : Answers getprop hw) (a : String) :
    deviceId getprop a .device = hw a := by
  simp [deviceId, answers a]

/-- In a tidy table every online address goes to the entry of its device. -/
theorem Tidy.idFor (answers : Answers getprop hw) (tidy : Tidy hw ds) (a : String) :
    idFor getprop ds a .device = hw a := by
  unfold DeviceMerge.idFor
  split
  · rename_i e he
    exact (tidy.own e (home_mem he) a (home_contains he)).symm
  · exact deviceId_online answers a

theorem Tidy.insertDevice (answers : Answers getprop hw) (tidy : Tidy hw ds) (a : String) :
    Tidy hw (insertDevice getprop ds a .device) := by
  refine ⟨nodup_insertDevice tidy.distinct a .device, fun e he x hx => ?_⟩
  rcases mem_insertDevice tidy.distinct he with ⟨he, -⟩ | ⟨old, hold, hid, rfl⟩ | ⟨-, rfl⟩
  · exact tidy.own e he x hx
  · rcases DeviceIdentity.containsAddr_merge hx with rfl | hx
    · rw [touch_id, hid, tidy.idFor answers]
    · exact tidy.own old hold x hx
  · obtain rfl := DeviceIdentity.containsAddr_ofAddr hx
    exact (tidy.idFor answers x).symm

theorem tidy_mergeOnline (answers : Answers getprop hw) (tidy : Tidy hw ds)
    (online : List String) : Tidy hw (mergeOnline getprop ds online) := by
  induction online generalizing ds with
  | nil => exact tidy
  | cons a online ih => exact ih (tidy.insertDevice answers a)

/-- The address in use after one more address of the same device. -/
def upgrade (current : Option String) (a : String) : Option String :=
  some (match current with
    | none => a
    | some serial => if outranks a serial then a else serial)

abbrev serialAt (ds : Devices) (id : String) : Option String :=
  (entryOf ds id).map (·.device.serial)

theorem serialAt_filed (distinct : (ds.entries.map (·.device.id)).Nodup) (a id : String) :
    serialAt (insertDevice getprop ds a .device) id =
      if idFor getprop ds a .device = id then upgrade (serialAt ds id) a else serialAt ds id := by
  rw [serialAt, entryOf_insertDevice distinct]
  split
  · rcases h : entryOf ds id with _ | e <;>
      simp [upgrade, serialAt, h, newEntry, DeviceEntry.touch]
  · rfl

theorem serialAt_insertDevice (answers : Answers getprop hw) (tidy : Tidy hw ds) (a id : String) :
    serialAt (insertDevice getprop ds a .device) id =
      if hw a = id then upgrade (serialAt ds id) a else serialAt ds id := by
  rw [serialAt_filed tidy.distinct, tidy.idFor answers]

/-- Each device's address is upgraded by its own online addresses, in their order. -/
theorem serialAt_mergeOnline (answers : Answers getprop hw) (tidy : Tidy hw ds)
    (online : List String) (id : String) :
    serialAt (mergeOnline getprop ds online) id =
      (online.filter fun a => hw a = id).foldl upgrade (serialAt ds id) := by
  induction online generalizing ds with
  | nil => rfl
  | cons a online ih =>
      have hstep := ih (tidy.insertDevice answers a)
      rw [serialAt_insertDevice answers tidy] at hstep
      rw [mergeOnline, List.foldl_cons, ← mergeOnline, hstep]
      by_cases h : hw a = id <;> simp [h]

/-- After upgrades by `own`, the address is the old one or one of `own`. -/
theorem foldl_upgrade_mem (own : List String) (serial : String) :
    ∃ now, own.foldl upgrade (some serial) = some now ∧ (now = serial ∨ now ∈ own) := by
  induction own generalizing serial with
  | nil => exact ⟨serial, rfl, Or.inl rfl⟩
  | cons a own ih =>
      obtain ⟨now, hnow, hmem⟩ := ih (if outranks a serial then a else serial)
      refine ⟨now, hnow, ?_⟩
      split at hmem
      · exact Or.inr (List.mem_cons.mpr hmem)
      · exact hmem.imp_right (List.mem_cons_of_mem a)

/-- The address is exchanged exactly when one of `own` outranks it. -/
theorem foldl_upgrade_new (own : List String) (serial : String) :
    (∃ a ∈ own, outranks a serial = true) →
      ∃ now ∈ own, own.foldl upgrade (some serial) = some now := by
  induction own generalizing serial with
  | nil => simp
  | cons a own ih =>
      rintro ⟨b, hb, hrank⟩
      by_cases ha : outranks a serial = true
      · obtain ⟨now, hnow, hmem⟩ := foldl_upgrade_mem own a
        refine ⟨now, List.mem_cons.mpr hmem, ?_⟩
        simpa [upgrade, ha] using hnow
      · have hb : b ∈ own := (List.mem_cons.mp hb).resolve_left (by rintro rfl; exact ha hrank)
        obtain ⟨now, hmem, hnow⟩ := ih serial ⟨b, hb, hrank⟩
        refine ⟨now, List.mem_cons_of_mem a hmem, ?_⟩
        simpa [upgrade, ha] using hnow

theorem foldl_upgrade_same (own : List String) (serial : String)
    (h : ∀ a ∈ own, outranks a serial = false) :
    own.foldl upgrade (some serial) = some serial := by
  induction own with
  | nil => rfl
  | cons a own ih =>
      rw [List.foldl_cons, upgrade]
      simp only [h a (List.mem_cons_self ..), Bool.false_eq_true, if_false]
      exact ih fun b hb => h b (List.mem_cons_of_mem a hb)

/-- Every entry whose device is online uses an address that is online. -/
def Fresh (hw : String → String) (online : List String) (ds : Devices) : Prop :=
  ∀ e ∈ ds.entries, Owns hw online e → e.device.serial ∈ online

/-- No session of a device that is online is stopped. -/
def SessionsKept (hw : String → String) (online : List String) (ds : Devices) : Prop :=
  ∀ e ∈ ds.entries, Owns hw online e → e ∈ (stopDisconnectedSessions ds online).entries

/-- Every known device that is online is still reachable under its address in use, or an
online address of it outranks that one. -/
def Reconnected (hw : String → String) (online : List String) (ds : Devices) : Prop :=
  ∀ e ∈ ds.entries, Owns hw online e → e.device.serial ∈ online ∨
    ∃ a ∈ online, hw a = e.device.id ∧ outranks a e.device.serial = true

instance (hw : String → String) (online : List String) (ds : Devices) :
    Decidable (Fresh hw online ds) := inferInstanceAs (Decidable (∀ e ∈ ds.entries, _))

instance (hw : String → String) (online : List String) (ds : Devices) :
    Decidable (Reconnected hw online ds) := inferInstanceAs (Decidable (∀ e ∈ ds.entries, _))

theorem fresh_iff_serialAt (tidy : Tidy hw ds) (online : List String) :
    Fresh hw online ds ↔ ∀ id serial, serialAt ds id = some serial →
      (∃ a ∈ online, hw a = id) → serial ∈ online := by
  constructor
  · intro h id serial hserial howns
    obtain ⟨e, he, rfl⟩ := Option.map_eq_some_iff.mp hserial
    refine h e (mem_of_lookup he) ?_
    rwa [Owns, key_of_lookup he]
  · intro h e he howns
    refine h e.device.id _ ?_ howns
    rw [serialAt, entryOf, lookup_of_mem tidy.distinct he]
    rfl

/-- The merge loop leaves all addresses fresh exactly when they were reconnected before. -/
theorem fresh_mergeOnline_iff (answers : Answers getprop hw) (tidy : Tidy hw ds)
    (online : List String) :
    Fresh hw online (mergeOnline getprop ds online) ↔ Reconnected hw online ds := by
  rw [fresh_iff_serialAt (tidy_mergeOnline answers tidy online)]
  constructor
  · intro h e he howns
    have hserial : serialAt ds e.device.id = some e.device.serial := by
      rw [serialAt, entryOf, lookup_of_mem tidy.distinct he]
      rfl
    by_contra hstale
    push Not at hstale
    have hsame := foldl_upgrade_same (online.filter fun a => hw a = e.device.id) e.device.serial
      fun a ha => by
        simp only [List.mem_filter, decide_eq_true_eq] at ha
        simpa using hstale.2 a ha.1 ha.2
    rw [← hserial, ← serialAt_mergeOnline answers tidy] at hsame
    exact hstale.1 (h e.device.id e.device.serial (hsame.trans hserial) howns)
  · intro h id serial hserial howns
    rw [serialAt_mergeOnline answers tidy] at hserial
    have own : ∀ b ∈ online.filter fun a => hw a = id, b ∈ online :=
      fun b hb => (List.mem_filter.mp hb).1
    rcases hentry : entryOf ds id with _ | e
    · -- a device that was not known yet starts out under an online address
      obtain ⟨a, ha, hid⟩ := howns
      have hmem : a ∈ online.filter fun a => hw a = id := List.mem_filter.mpr ⟨ha, by simpa⟩
      rw [serialAt, hentry, Option.map_none] at hserial
      rcases hlist : online.filter fun a => hw a = id with _ | ⟨b, rest⟩
      · simp [hlist] at hmem
      · rw [hlist] at hserial own
        obtain ⟨now, hnow, hin⟩ := foldl_upgrade_mem rest b
        obtain rfl : serial = now := Option.some.inj (hserial.symm.trans hnow)
        exact own serial (List.mem_cons.mpr hin)
    · rw [serialAt, hentry, Option.map_some] at hserial
      obtain rfl := key_of_lookup hentry
      rcases h e (mem_of_lookup hentry) howns with hold | ⟨a, ha, hid, hrank⟩
      · obtain ⟨now, hnow, hin⟩ := foldl_upgrade_mem
          (online.filter fun a => hw a = e.device.id) e.device.serial
        obtain rfl : serial = now := Option.some.inj (hserial.symm.trans hnow)
        rcases hin with rfl | hin
        · exact hold
        · exact own serial hin
      · obtain ⟨now, hin, hnow⟩ := foldl_upgrade_new
          (online.filter fun a => hw a = e.device.id) e.device.serial
          ⟨a, List.mem_filter.mpr ⟨ha, by simpa using hid⟩, hrank⟩
        obtain rfl : serial = now := Option.some.inj (hserial.symm.trans hnow)
        exact own serial hin

theorem sessionsKept_of_fresh {online : List String} (fresh : Fresh hw online ds) :
    SessionsKept hw online ds := by
  intro e he howns
  refine List.mem_map.mpr ⟨e, he, if_neg ?_⟩
  simp [fresh e he howns]

/-- Session marks are no part of what makes the table tidy. -/
private theorem Tidy.map (tidy : Tidy hw ds) {f : DeviceEntry → DeviceEntry}
    (keep : ∀ e, (f e).device = e.device) : Tidy hw { ds with entries := ds.entries.map f } where
  distinct := by
    have := tidy.distinct
    simpa only [List.map_map, Function.comp_def, keep] using this
  own e he a ha := by
    obtain ⟨e', he', rfl⟩ := List.mem_map.mp he
    rw [keep] at ha ⊢
    exact tidy.own e' he' a ha

theorem Tidy.step (answers : Answers getprop hw) (tidy : Tidy hw ds) (a : Action) :
    Tidy hw (step getprop ds a) := by
  cases a with
  | tick track =>
      exact (tidy_mergeOnline answers tidy (onlineOf track)).map fun e => by
        split <;> rfl
  | startSession id =>
      exact tidy.map fun e => by
        split <;> rfl

/-- `P` of the online addresses and the table before the tick, where the action is one. -/
def AtTick (P : List String → Devices → Prop) (ds : Devices) : Action → Prop
  | .tick track => P (onlineOf track) ds
  | .startSession _ => True

instance (P : List String → Devices → Prop) [∀ online ds, Decidable (P online ds)] (ds : Devices) :
    (a : Action) → Decidable (AtTick P ds a)
  | .tick track => inferInstanceAs (Decidable (P (onlineOf track) ds))
  | .startSession _ => .isTrue trivial

/-- Over any sequence of ticks: after every merge loop each device that is online is
reached under an online address, and keeps its session, exactly when before every
tick each of them was reached under an address that is still online or an online
address of it outranks the stale one. -/
theorem connection_address_fresh_iff (answers : Answers getprop hw) (actions : List Action) :
    Run.Along (step getprop) (AtTick fun online ds =>
        Fresh hw online (mergeOnline getprop ds online) ∧
          SessionsKept hw online (mergeOnline getprop ds online)) init actions ↔
      Run.Along (step getprop) (AtTick (Reconnected hw)) init actions := by
  have start : Tidy hw init := ⟨List.nodup_nil, by simp [init]⟩
  refine Run.along_iff (I := Tidy hw) (fun ds a tidy => tidy.step answers a)
    (fun ds a tidy => ?_) start actions
  cases a with
  | tick track =>
      simp only [AtTick, ← fresh_mergeOnline_iff answers tidy]
      exact and_iff_left_of_imp sessionsKept_of_fresh
  | startSession id => exact Iff.rfl

/-- A device on WiFi that is plugged in as well changes over to USB. -/
theorem connection_address_fresh_plugged_in :
    let getprop : String → Option String := fun _ => some "D1"
    let actions : List Action := [.tick [("192.168.1.5:5555", .device)], .startSession "D1",
      .tick [("192.168.1.5:5555", .device), ("D1", .device)], .tick [("D1", .device)]]
    Run.Along (step getprop) (AtTick fun online ds =>
      Fresh (fun _ => "D1") online (mergeOnline getprop ds online) ∧
        SessionsKept (fun _ => "D1") online (mergeOnline getprop ds online)) init actions :=
  (connection_address_fresh_iff (fun _ => ⟨rfl, by decide⟩) _).mpr (by decide)

/-- Unplugged while it stays online over WiFi, the same device keeps its USB address: the
WiFi address does not outrank it, and the running session is stopped. -/
theorem connection_address_stale_unplugged :
    let getprop : String → Option String := fun _ => some "D1"
    let ds := Run.run (step getprop) init [.tick [("D1", .device)], .startSession "D1"]
    ¬Fresh (fun _ => "D1") ["192.168.1.5:5555"] (mergeOnline getprop ds ["192.168.1.5:5555"]) ∧
      ds.entries.map (·.session) = [true] ∧
      (onTick getprop ds [("192.168.1.5:5555", .device)]).entries.map
        (fun e => (e.device.serial, e.session)) = [("D1", false)] := by decide

end Kulua.DeviceMerge
