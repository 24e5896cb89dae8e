import Kulua.DeviceTable

/-! The device table as an index of addresses: after any calls of `insert_device` no
address is in two entries, no two entries share an id, and what the caller gets back
names the entry that holds the address. A call brings its own answer of `getprop`. -/

namespace Kulua

namespace DeviceIdentity

def slot (self : DeviceIdentity) : DeviceAddrKind → Option String
  | .usb => self.usb
  | .mdns => self.mdns
  | .ip => self.ip

/-- Every slot holds an address of its own kind. -/
def Filed (self : DeviceIdentity) : Prop :=
  ∀ kind addr, self.slot kind = some addr → DeviceAddrKind.classify addr = kind

@[simp] theorem slot_merge_ofAddr (self : DeviceIdentity) (addr : String) (kind : DeviceAddrKind) :
    (self.merge (ofAddr addr)).slot kind =
      if DeviceAddrKind.classify addr = kind then some addr else self.slot kind := by
  unfold ofAddr
  cases hk : DeviceAddrKind.classify addr <;> cases kind <;>
    simp [setByKind, merge, slot, empty]

@[simp] theorem slot_ofAddr (addr : String) (kind : DeviceAddrKind) :
    (ofAddr addr).slot kind = if DeviceAddrKind.classify addr = kind then some addr else none := by
  unfold ofAddr
  cases hk : DeviceAddrKind.classify addr <;> cases kind <;> simp [setByKind, slot, empty]

theorem ext_slot {i j : DeviceIdentity} (h : ∀ kind, i.slot kind = j.slot kind) : i = j := by
  cases i
  cases j
  have husb := h .usb
  have hmdns := h .mdns
  have hip := h .ip
  simp only [slot] at husb hmdns hip
  simp [husb, hmdns, hip]

theorem containsAddr_iff_exists (self : DeviceIdentity) (addr : String) :
    self.containsAddr addr = true ↔ ∃ kind, self.slot kind = some addr := by
  simp only [containsAddr, Bool.or_eq_true, decide_eq_true_eq]
  constructor
  · rintro ((h | h) | h)
    · exact ⟨.usb, h⟩
    · exact ⟨.mdns, h⟩
    · exact ⟨.ip, h⟩
  · rintro ⟨kind, h⟩
    cases kind with
    | usb => exact Or.inl (Or.inl h)
    | mdns => exact Or.inl (Or.inr h)
    | ip => exact Or.inr h

/-- In a filed identity an address can only be in the slot of its kind. -/
theorem Filed.containsAddr_iff {self : DeviceIdentity} (filed : self.Filed) (addr : String) :
    self.containsAddr addr = true ↔ self.slot (DeviceAddrKind.classify addr) = some addr := by
  rw [containsAddr_iff_exists]
  constructor
  · rintro ⟨kind, h⟩
    rwa [filed kind addr h]
  · exact fun h => ⟨_, h⟩

theorem filed_ofAddr (addr : String) : (ofAddr addr).Filed := by
  intro kind other h
  rw [slot_ofAddr] at h
  split at h
  · rename_i hk
    rwa [← Option.some.inj h]
  · cases h

theorem Filed.merge_ofAddr {self : DeviceIdentity} (filed : self.Filed) (addr : String) :
    (self.merge (ofAddr addr)).Filed := by
  intro kind other h
  rw [slot_merge_ofAddr] at h
  split at h
  · rename_i hk
    rwa [← Option.some.inj h]
  · exact filed kind other h

theorem merge_ofAddr_self (self : DeviceIdentity) (addr : String) :
    (self.merge (ofAddr addr)).merge (ofAddr addr) = self.merge (ofAddr addr) := by
  refine ext_slot fun kind => ?_
  simp only [slot_merge_ofAddr]
  split <;> rfl

@[simp] theorem containsAddr_merge_ofAddr (self : DeviceIdentity) (addr : String) :
    (self.merge (ofAddr addr)).containsAddr addr = true :=
  (containsAddr_iff_exists _ _).mpr ⟨DeviceAddrKind.classify addr, by simp⟩

@[simp] theorem containsAddr_ofAddr_self (addr : String) : (ofAddr addr).containsAddr addr = true :=
  (containsAddr_iff_exists _ _).mpr ⟨DeviceAddrKind.classify addr, by simp⟩

end DeviceIdentity

namespace DeviceMerge
open Foundation Foundation.Keyed DeviceIdentity

/-- The device table keyed by id and by address. -/
structure WellFormed (ds : Devices) : Prop where
  ids : (ds.entries.map (·.device.id)).Nodup
  uuids : (ds.entries.map (·.device.uuid)).Nodup
  issued : ∀ e ∈ ds.entries, e.device.uuid < ds.nextUuid
  filed : ∀ e ∈ ds.entries, e.device.identity.Filed
  disjoint : ∀ e ∈ ds.entries, ∀ e' ∈ ds.entries, ∀ a,
    e.device.identity.containsAddr a = true → e'.device.identity.containsAddr a = true →
      e.device.id = e'.device.id

structure Call where
  serial : String
  state : DeviceState
  getprop : Option String
  deriving DecidableEq, Repr

def call (ds : Devices) (c : Call) : Devices :=
  insertDevice (fun _ => c.getprop) ds c.serial c.state

/-- The UUID that the call returns. -/
def calledUuid (ds : Devices) (c : Call) : Nat :=
  insertedUuid (fun _ => c.getprop) ds c.serial c.state

variable {getprop : String → Option String} {ds : Devices}

theorem wellFormed_init : WellFormed init := by
  constructor <;> simp [init]

/-- What the index is about. -/
def DeviceEntry.filing (e : DeviceEntry) : String × Nat × DeviceIdentity :=
  (e.device.id, e.device.uuid, e.device.identity)

/-- Neither the order of the entries nor their other fields matter. -/
theorem WellFormed.of_perm {ds' : Devices} (wf : WellFormed ds)
    (perm : (ds'.entries.map (·.filing)).Perm (ds.entries.map (·.filing)))
    (uuid : ds'.nextUuid = ds.nextUuid) : WellFormed ds' := by
  have source : ∀ e ∈ ds'.entries, ∃ x ∈ ds.entries, x.filing = e.filing := fun e he =>
    List.mem_map.mp (perm.mem_iff.mp (List.mem_map_of_mem he))
  have fields : ∀ {x e : DeviceEntry}, x.filing = e.filing → x.device.id = e.device.id ∧
      x.device.uuid = e.device.uuid ∧ x.device.identity = e.device.identity := by
    intro x e h
    simpa only [DeviceEntry.filing, Prod.mk.injEq] using h
  have ids := perm.map Prod.fst
  have uuids := perm.map fun f => f.2.1
  simp only [List.map_map, Function.comp_def, DeviceEntry.filing] at ids uuids
  refine ⟨ids.nodup_iff.mpr wf.ids, uuids.nodup_iff.mpr wf.uuids, fun e he => ?_, fun e he => ?_,
    fun e he e' he' a ha ha' => ?_⟩
  · obtain ⟨x, hx, hfiling⟩ := source e he
    rw [uuid, ← (fields hfiling).2.1]
    exact wf.issued x hx
  · obtain ⟨x, hx, hfiling⟩ := source e he
    rw [← (fields hfiling).2.2]
    exact wf.filed x hx
  · obtain ⟨x, hx, hfiling⟩ := source e he
    obtain ⟨x', hx', hfiling'⟩ := source e' he'
    rw [← (fields hfiling).2.2] at ha
    rw [← (fields hfiling').2.2] at ha'
    rw [← (fields hfiling).1, ← (fields hfiling').1]
    exact wf.disjoint x hx x' hx' a ha ha'

theorem WellFormed.eq_of_id (wf : WellFormed ds) {e e' : DeviceEntry} (he : e ∈ ds.entries)
    (he' : e' ∈ ds.entries) (hid : e.device.id = e'.device.id) : e = e' := by
  have hget := lookup_of_mem wf.ids he
  rw [hid, lookup_of_mem wf.ids he'] at hget
  exact (Option.some.inj hget).symm

/-- At most one entry holds an address. -/
theorem WellFormed.home_eq_some (wf : WellFormed ds) {e : DeviceEntry} {a : String} :
    home ds a = some e ↔ e ∈ ds.entries ∧ e.device.identity.containsAddr a = true := by
  constructor
  · exact fun h => ⟨home_mem h, home_contains h⟩
  · rintro ⟨he, ha⟩
    rcases hhome : home ds a with _ | e'
    · rw [home_eq_none.mp hhome e he] at ha
      cases ha
    · rw [wf.eq_of_id (home_mem hhome) he
        (wf.disjoint e' (home_mem hhome) e he a (home_contains hhome) ha)]

theorem WellFormed.idFor_of_contains (wf : WellFormed ds) {e : DeviceEntry} (he : e ∈ ds.entries)
    {a : String} (ha : e.device.identity.containsAddr a = true) (st : DeviceState) :
    idFor getprop ds a st = e.device.id := by
  simp [idFor, wf.home_eq_some.mpr ⟨he, ha⟩]

/-- Where an address of an entry comes from. -/
theorem WellFormed.containsAddr_insertDevice (wf : WellFormed ds) {a x : String} {st : DeviceState}
    {e : DeviceEntry} (he : e ∈ (insertDevice getprop ds a st).entries)
    (hx : e.device.identity.containsAddr x = true) :
    (x = a ∧ e.device.id = idFor getprop ds a st) ∨
      ∃ old ∈ ds.entries, old.device.id = e.device.id ∧
        old.device.identity.containsAddr x = true := by
  rcases mem_insertDevice wf.ids he with ⟨he, -⟩ | ⟨old, hold, hid, rfl⟩ | ⟨-, rfl⟩
  · exact Or.inr ⟨e, he, rfl, hx⟩
  · rcases containsAddr_merge hx with rfl | hx
    · exact Or.inl ⟨rfl, hid⟩
    · exact Or.inr ⟨old, hold, rfl, hx⟩
  · exact Or.inl ⟨containsAddr_ofAddr hx, rfl⟩

theorem WellFormed.insertDevice (wf : WellFormed ds) (getprop : String → Option String)
    (a : String) (st : DeviceState) : WellFormed (insertDevice getprop ds a st) where
  ids := nodup_insertDevice wf.ids a st
  uuids := by
    rcases insertDevice_cases getprop wf.ids a st with
      ⟨es, e, hins, -, huuids, -⟩ | ⟨-, -, -, hins⟩
    · rw [hins]
      exact huuids ▸ wf.uuids
    · rw [hins, List.map_append, List.nodup_append]
      refine ⟨wf.uuids, by simp, fun u hu u' hu' => ?_⟩
      obtain ⟨e, he, rfl⟩ := List.mem_map.mp hu
      simp only [List.map_cons, List.map_nil, List.mem_singleton, newEntry] at hu'
      have := wf.issued e he
      omega
  issued e he := by
    have mono : ds.nextUuid ≤ (DeviceMerge.insertDevice getprop ds a st).nextUuid := by
      rcases insertDevice_cases getprop wf.ids a st with
        ⟨es, e, hins, -⟩ | ⟨-, -, -, hins⟩ <;> simp [hins]
    rcases mem_insertDevice wf.ids he with ⟨he, -⟩ | ⟨old, hold, -, rfl⟩ | ⟨hnone, rfl⟩
    · exact (wf.issued e he).trans_le mono
    · exact (wf.issued old hold).trans_le mono
    · rcases insertDevice_cases getprop wf.ids a st with
        ⟨es, e, -, -, -, hsome, -⟩ | ⟨-, -, -, hins⟩
      · rw [hnone] at hsome
        cases hsome
      · simp [hins, newEntry]
  filed e he := by
    rcases mem_insertDevice wf.ids he with ⟨he, -⟩ | ⟨old, hold, -, rfl⟩ | ⟨-, rfl⟩
    · exact wf.filed e he
    · exact (wf.filed old hold).merge_ofAddr a
    · exact filed_ofAddr a
  disjoint e he e' he' x hx hx' := by
    rcases wf.containsAddr_insertDevice he hx with ⟨rfl, hid⟩ | ⟨old, hold, hid, hox⟩
    · rcases wf.containsAddr_insertDevice he' hx' with ⟨-, hid'⟩ | ⟨old', hold', hid', hox'⟩
      · rw [hid, hid']
      · rw [hid, wf.idFor_of_contains hold' hox', hid']
    · rcases wf.containsAddr_insertDevice he' hx' with ⟨rfl, hid'⟩ | ⟨old', hold', hid', hox'⟩
      · rw [hid', wf.idFor_of_contains hold hox, hid]
      · rw [← hid, ← hid', wf.disjoint old hold old' hold' x hox hox']

theorem wellFormed_run (calls : List Call) : WellFormed (Run.run call init calls) :=
  Run.invariant_all (fun _ c wf => wf.insertDevice _ c.serial c.state) wellFormed_init calls

@[simp] theorem outranks_self (a : String) : outranks a a = false := by simp [outranks]

theorem touch_touch (a : String) (st : DeviceState) (e : DeviceEntry) :
    (e.touch a st).touch a st = e.touch a st := by
  simp only [DeviceEntry.touch, merge_ofAddr_self]
  by_cases h : outranks a e.device.serial = true <;> simp [h]

theorem touch_newEntry (uuid : Nat) (id a : String) (st : DeviceState) :
    (newEntry uuid id a st).touch a st = newEntry uuid id a st := by
  have hmerge : (ofAddr a).merge (ofAddr a) = ofAddr a := by
    refine ext_slot fun kind => ?_
    simp only [slot_merge_ofAddr, slot_ofAddr]
    split <;> rfl
  simp [DeviceEntry.touch, newEntry, hmerge]

/-- The inserted address is held by the entry whose UUID is returned, and inserting it
again would not change that entry. -/
theorem WellFormed.home_insertDevice (wf : WellFormed ds) (getprop : String → Option String)
    (a : String) (st : DeviceState) :
    ∃ e, home (DeviceMerge.insertDevice getprop ds a st) a = some e ∧
      e.device.id = idFor getprop ds a st ∧
      e.device.uuid = insertedUuid getprop ds a st ∧ e.touch a st = e := by
  rcases insertDevice_cases getprop wf.ids a st with
    ⟨es, old, hins, -, -, hold, huuid, hlook⟩ | ⟨-, -, huuid, hins⟩
  · have hmem : old.touch a st ∈ (DeviceMerge.insertDevice getprop ds a st).entries := by
      have hget := hlook (idFor getprop ds a st)
      rw [if_pos rfl] at hget
      rw [hins]
      exact mem_of_lookup hget
    refine ⟨old.touch a st, (wf.insertDevice getprop a st).home_eq_some.mpr ⟨hmem, by simp⟩, ?_, ?_,
      touch_touch a st old⟩
    · rw [touch_id, entryOf_id hold]
    · rw [touch_uuid, huuid]
  · have hmem : newEntry ds.nextUuid (idFor getprop ds a st) a st ∈
        (DeviceMerge.insertDevice getprop ds a st).entries := by simp [hins]
    exact ⟨_, (wf.insertDevice getprop a st).home_eq_some.mpr ⟨hmem, containsAddr_ofAddr_self a⟩, rfl,
      huuid.symm, touch_newEntry ..⟩

/-- A repeated call finds the address at home, whatever `getprop` answers this time. -/
theorem WellFormed.insertDevice_again (wf : WellFormed ds) (a : String) (st : DeviceState)
    (getprop' : String → Option String) :
    DeviceMerge.insertDevice getprop' (DeviceMerge.insertDevice getprop ds a st) a st =
        DeviceMerge.insertDevice getprop ds a st ∧
      insertedUuid getprop' (DeviceMerge.insertDevice getprop ds a st) a st =
        insertedUuid getprop ds a st := by
  obtain ⟨e, hhome, -, huuid, hfixed⟩ := wf.home_insertDevice getprop a st
  constructor
  · conv_lhs => rw [DeviceMerge.insertDevice]
    rw [modifyFirst_fixed hhome hfixed]
  · rw [insertedUuid, hhome]
    exact huuid

/-- An entry keeps its UUID and its id. -/
theorem WellFormed.entry_kept (wf : WellFormed ds) (getprop : String → Option String)
    (a : String) (st : DeviceState) {e : DeviceEntry} (he : e ∈ ds.entries) :
    ∃ e' ∈ (DeviceMerge.insertDevice getprop ds a st).entries,
      e'.device.uuid = e.device.uuid ∧ e'.device.id = e.device.id := by
  have hget : entryOf (DeviceMerge.insertDevice getprop ds a st) e.device.id = _ :=
    entryOf_insertDevice wf.ids a st e.device.id
  simp only [entryOf, lookup_of_mem wf.ids he] at hget
  split at hget
  · exact ⟨e.touch a st, mem_of_lookup hget, rfl, rfl⟩
  · exact ⟨e, mem_of_lookup hget, rfl, rfl⟩

theorem entry_kept_run (calls : List Call) (wf : WellFormed ds) {e : DeviceEntry}
    (he : e ∈ ds.entries) :
    ∃ e' ∈ (Run.run call ds calls).entries,
      e'.device.uuid = e.device.uuid ∧ e'.device.id = e.device.id := by
  induction calls generalizing ds e with
  | nil => exact ⟨e, he, rfl, rfl⟩
  | cons c calls ih =>
      obtain ⟨e', he', huuid, hid⟩ :=
        wf.entry_kept (fun _ => c.getprop) c.serial c.state he
      obtain ⟨e'', he'', huuid', hid'⟩ := ih (wf.insertDevice _ c.serial c.state) he'
      exact ⟨e'', he'', huuid'.trans huuid, hid'.trans hid⟩

/-- After any calls of `insert_device`: entries share no address, no id and no UUID; they
keep id and UUID through all later calls; a call returns the UUID of the entry that then
has the address, and repeating it returns the same and changes nothing. -/
theorem device_index_well_formed (calls later : List Call) (c : Call) :
    let ds := Run.run call init calls
    (∀ e ∈ ds.entries, ∀ e' ∈ ds.entries, ∀ a, e.device.identity.containsAddr a = true →
      e'.device.identity.containsAddr a = true → e = e') ∧
    (ds.entries.map (·.device.id)).Nodup ∧ (ds.entries.map (·.device.uuid)).Nodup ∧
    (∀ e ∈ ds.entries, ∃ e' ∈ (Run.run call ds later).entries,
      e'.device.uuid = e.device.uuid ∧ e'.device.id = e.device.id) ∧
    (∃ e ∈ (call ds c).entries, e.device.uuid = calledUuid ds c ∧
      e.device.identity.containsAddr c.serial = true) ∧
    call (call ds c) c = call ds c ∧ calledUuid (call ds c) c = calledUuid ds c := by
  intro ds
  have wf : WellFormed ds := wellFormed_run calls
  obtain ⟨e, hhome, -, huuid, -⟩ :=
    wf.home_insertDevice (fun _ => c.getprop) c.serial c.state
  refine ⟨fun e he e' he' a ha ha' => wf.eq_of_id he he' (wf.disjoint e he e' he' a ha ha'),
    wf.ids, wf.uuids, fun e he => entry_kept_run later wf he,
    ⟨e, home_mem hhome, huuid, home_contains hhome⟩, ?_⟩
  exact wf.insertDevice_again c.serial c.state _

end DeviceMerge
end Kulua
