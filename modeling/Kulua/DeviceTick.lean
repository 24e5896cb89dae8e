import Kulua.DeviceSlots

/-! What a tick leaves behind, whatever the order in which the hash map of online
addresses is listed: which addresses share an entry, and which entries have an address
that is online. -/

namespace Kulua.DeviceMerge
open Foundation Foundation.Keyed DeviceIdentity

variable {getprop : String → Option String} {ds : Devices} {a b : String}

/-- A tick with what `getprop` answers during it. -/
structure Tick where
  getprop : String → Option String
  track : List (String × DeviceState)

def tick (ds : Devices) (t : Tick) : Devices := onTick t.getprop ds t.track

@[simp] theorem devices_stopDisconnectedSessions (ds : Devices) (online : List String) :
    (stopDisconnectedSessions ds online).entries.map (·.device) =
      ds.entries.map (·.device) := by
  rw [stopDisconnectedSessions, List.map_map]
  refine List.map_congr_left fun e _ => ?_
  simp only [Function.comp_apply]
  split <;> rfl

/-- Only the devices of the entries matter for the index. -/
theorem WellFormed.congr {ds' : Devices} (wf : WellFormed ds)
    (devices : ds'.entries.map (·.device) = ds.entries.map (·.device))
    (uuid : ds'.nextUuid = ds.nextUuid) : WellFormed ds' := by
  refine wf.of_perm (List.Perm.of_eq ?_) uuid
  have := congrArg (List.map fun d : Device => (d.id, d.uuid, d.identity)) devices
  simpa only [List.map_map, Function.comp_def, DeviceEntry.filing] using this

theorem wellFormed_ticks (history : List Tick) : WellFormed (Run.run tick init history) :=
  Run.invariant_all
    (fun _ t wf => (wf.mergeOnline t.getprop (onlineOf t.track)).congr
      (devices_stopDisconnectedSessions ..) rfl)
    wellFormed_init history

/-- The two addresses belong to the same entry. -/
def Together (ds : Devices) (a b : String) : Prop :=
  ∃ e ∈ ds.entries, e.device.identity.containsAddr a = true ∧
    e.device.identity.containsAddr b = true

instance (ds : Devices) (a b : String) : Decidable (Together ds a b) :=
  inferInstanceAs (Decidable (∃ e ∈ ds.entries, _))

theorem together_iff_slotAt (wf : WellFormed ds) :
    Together ds a b ↔ ∃ id, slotAt ds id (.classify a) = some a ∧
      slotAt ds id (.classify b) = some b := by
  constructor
  · rintro ⟨e, he, ha, hb⟩
    exact ⟨e.device.id, (wf.contains_iff_slotAt he).mp ha, (wf.contains_iff_slotAt he).mp hb⟩
  · rintro ⟨id, ha, hb⟩
    obtain ⟨e, he, rfl⟩ := slotAt_mem ha
    exact ⟨e, he, (wf.contains_iff_slotAt he).mpr ha, (wf.contains_iff_slotAt he).mpr hb⟩

theorem together_onTick (getprop : String → Option String) (ds : Devices)
    (track : List (String × DeviceState)) (a b : String) :
    Together (onTick getprop ds track) a b ↔
      Together (mergeOnline getprop ds (onlineOf track)) a b := by
  have h : ∀ ds : Devices, Together ds a b ↔ ∃ d ∈ ds.entries.map (·.device),
      d.identity.containsAddr a = true ∧ d.identity.containsAddr b = true := by
    simp [Together]
  rw [h, h, onTick, devices_stopDisconnectedSessions]

theorem onlineOf_online (order : List String) :
    onlineOf (order.map fun a => (a, .device)) = order := by
  induction order with
  | nil => rfl
  | cons a order ih =>
      simp only [onlineOf, List.map_cons, List.filter_cons] at ih ⊢
      simp [ih]

/-- At the end of a tick, in whatever order the online addresses were inserted, these are
sorted into entries by hardware exactly when before it no two of them contended for one
slot and those that were to be filed under one id were those of one hardware. -/
theorem device_identity_iff (history : List Tick) (getprop : String → Option String)
    (hw : String → String) (online : Finset String) :
    let ds := Run.run tick init history
    (∀ track, Listing online (onlineOf track) → ∀ a ∈ online, ∀ b ∈ online,
      (Together (onTick getprop ds track) a b ↔ hw a = hw b)) ↔
    Apart getprop ds online ∧ ∀ a ∈ online, ∀ b ∈ online,
      (idFor getprop ds a .device = idFor getprop ds b .device ↔ hw a = hw b) := by
  intro ds
  have wf : WellFormed ds := wellFormed_ticks history
  have sorted : Apart getprop ds online → ∀ order, Listing online order → ∀ a ∈ online,
      ∀ b ∈ online, (Together (mergeOnline getprop ds order) a b ↔
        idFor getprop ds a .device = idFor getprop ds b .device) := by
    intro apart order listing a ha b hb
    simp only [together_iff_slotAt (wf.mergeOnline getprop order), apart.filed wf listing ha,
      apart.filed wf listing hb]
    exact ⟨fun ⟨id, hid, hid'⟩ => hid.trans hid'.symm, fun h => ⟨_, h, rfl⟩⟩
  constructor
  · intro h
    have atEnd : ∀ order, Listing online order → ∀ a ∈ online, ∀ b ∈ online,
        (Together (mergeOnline getprop ds order) a b ↔ hw a = hw b) := by
      intro order listing a ha b hb
      have := h (order.map fun a => (a, .device))
      rw [onlineOf_online] at this
      rw [← this listing a ha b hb, together_onTick, onlineOf_online]
    have apart : Apart getprop ds online := by
      intro a ha b hb hne clash
      obtain ⟨x, hx, order, listing, stray⟩ := exists_stray wf ha hb hne clash
      have hin := (atEnd order listing x hx x hx).mpr rfl
      obtain ⟨id, hslot, -⟩ := (together_iff_slotAt (wf.mergeOnline getprop order)).mp hin
      exact stray id hslot
    refine ⟨apart, fun a ha b hb => ?_⟩
    obtain ⟨order, listing, -⟩ := exists_listing online List.nodup_nil (by simp)
    rw [← sorted apart _ listing a ha b hb]
    exact atEnd _ listing a ha b hb
  · rintro ⟨apart, same⟩ track listing a ha b hb
    rw [together_onTick, sorted apart _ listing a ha b hb]
    exact same a ha b hb

/-- An address that failed to answer once is taken for a device of its own from then on. -/
theorem device_identity_split :
    let getprop : String → Option String := fun _ => some "D1"
    let ds := Run.run tick init [⟨fun _ => none, [("192.168.1.5:5555", .device)]⟩]
    let track : List (String × DeviceState) := [("192.168.1.5:5555", .device), ("D1", .device)]
    Listing {"192.168.1.5:5555", "D1"} (onlineOf track) ∧
      ¬Together (onTick getprop ds track) "192.168.1.5:5555" "D1" ∧
      getprop "192.168.1.5:5555" = getprop "D1" := by decide

/-- Some address in the entry with this id is online. -/
def Served (ds : Devices) (online : Finset String) (id : String) : Prop :=
  ∃ a ∈ online, slotAt ds id (.classify a) = some a

theorem served_insertDevice (wf : WellFormed ds) {online : Finset String} (ha : a ∈ online) :
    Served (insertDevice getprop ds a .device) online (idFor getprop ds a .device) :=
  ⟨a, ha, slotAt_inserted wf a .device⟩

theorem Served.insertDevice (wf : WellFormed ds) {online : Finset String} (ha : a ∈ online)
    {id : String} (served : Served ds online id) :
    Served (insertDevice getprop ds a .device) online id := by
  by_cases hid : idFor getprop ds a .device = id
  · exact hid ▸ served_insertDevice wf ha
  · obtain ⟨b, hb, hslot⟩ := served
    refine ⟨b, hb, ?_⟩
    rw [slotAt_insertDevice wf, if_neg fun h => hid h.1, hslot]

theorem Served.mergeOnline (wf : WellFormed ds) {online : Finset String} {as : List String}
    (sub : ∀ a ∈ as, a ∈ online) {id : String} (served : Served ds online id) :
    Served (mergeOnline getprop ds as) online id := by
  induction as generalizing ds with
  | nil => exact served
  | cons a as ih =>
      exact ih (wf.insertDevice getprop a .device) (fun b hb => sub b (List.mem_cons_of_mem a hb))
        (served.insertDevice wf (sub a (List.mem_cons_self ..)))

/-- An entry that an online address is filed under before the tick is served after it, even
if another address takes the slot. -/
theorem served_of_idFor (wf : WellFormed ds) {online : Finset String} {as : List String}
    (sub : ∀ a ∈ as, a ∈ online) (ha : a ∈ as) :
    Served (mergeOnline getprop ds as) online (idFor getprop ds a .device) := by
  induction as generalizing ds with
  | nil => cases ha
  | cons b as ih =>
      have hsub : ∀ c ∈ as, c ∈ online := fun c hc => sub c (List.mem_cons_of_mem b hc)
      have wf' := wf.insertDevice getprop b .device
      by_cases hid : idFor getprop ds b .device = idFor getprop ds a .device
      · rw [← hid]
        exact (served_insertDevice wf (sub b (List.mem_cons_self ..))).mergeOnline wf' hsub
      · have hne : b ≠ a := by
          rintro rfl
          exact hid rfl
        rw [← idFor_insertDevice wf hne (Or.inr fun clash => hid clash.1)]
        exact ih wf' hsub ((List.mem_cons.mp ha).resolve_left hne.symm)

/-- So is every entry that the tick makes. -/
theorem served_of_new (wf : WellFormed ds) {online : Finset String} {as : List String}
    (sub : ∀ a ∈ as, a ∈ online) {id : String} (old : entryOf ds id = none)
    (new : entryOf (mergeOnline getprop ds as) id ≠ none) :
    Served (mergeOnline getprop ds as) online id := by
  induction as generalizing ds with
  | nil => exact absurd old new
  | cons a as ih =>
      have hsub : ∀ c ∈ as, c ∈ online := fun c hc => sub c (List.mem_cons_of_mem a hc)
      have wf' := wf.insertDevice getprop a .device
      by_cases hid : idFor getprop ds a .device = id
      · rw [← hid]
        exact (served_insertDevice wf (sub a (List.mem_cons_self ..))).mergeOnline wf' hsub
      · refine ih wf' hsub ?_ new
        rw [entryOf_insertDevice wf.ids, if_neg hid, old]

/-- All entries are in the state of a device that is connected. -/
def AllOnline (ds : Devices) : Prop := ∀ d ∈ ds.entries.map (·.device), d.state = .device

theorem AllOnline.mergeOnline (wf : WellFormed ds) (h : AllOnline ds) (as : List String) :
    AllOnline (mergeOnline getprop ds as) := by
  induction as generalizing ds with
  | nil => exact h
  | cons a as ih =>
      refine ih (wf.insertDevice getprop a .device) fun d hd => ?_
      obtain ⟨e, he, rfl⟩ := List.mem_map.mp hd
      rcases mem_insertDevice wf.ids he with ⟨he, -⟩ | ⟨old, -, -, rfl⟩ | ⟨-, rfl⟩
      · exact h _ (List.mem_map_of_mem he)
      · rfl
      · rfl

theorem allOnline_ticks (history : List Tick) : AllOnline (Run.run tick init history) := by
  refine (Run.invariant_all (I := fun ds => WellFormed ds ∧ AllOnline ds)
    (fun ds t h => ?_) ⟨wellFormed_init, by simp [AllOnline, init]⟩ history).2
  refine ⟨(h.1.mergeOnline t.getprop _).congr (devices_stopDisconnectedSessions ..) rfl, ?_⟩
  rw [AllOnline, tick, onTick, devices_stopDisconnectedSessions]
  exact h.2.mergeOnline h.1 _

/-- The entries whose state says connected are those with an address that is online. -/
def Accurate (ds : Devices) (online : Finset String) : Prop :=
  ∀ d ∈ ds.entries.map (·.device),
    d.state = .device ↔ ∃ a ∈ online, d.identity.containsAddr a = true

instance (ds : Devices) (online : Finset String) : Decidable (Accurate ds online) :=
  inferInstanceAs (Decidable (∀ d ∈ ds.entries.map (·.device),
    (d.state = .device ↔ ∃ a ∈ online, d.identity.containsAddr a = true)))

theorem accurate_iff_served (wf : WellFormed ds) (all : AllOnline ds) (online : Finset String) :
    Accurate ds online ↔ ∀ e ∈ ds.entries, Served ds online e.device.id := by
  have hserved : ∀ e ∈ ds.entries, Served ds online e.device.id ↔
      ∃ a ∈ online, e.device.identity.containsAddr a = true := by
    intro e he
    simp only [Served, wf.contains_iff_slotAt he]
  constructor
  · intro h e he
    exact (hserved e he).mpr ((h _ (List.mem_map_of_mem he)).mp (all _ (List.mem_map_of_mem he)))
  · intro h d hd
    obtain ⟨e, he, rfl⟩ := List.mem_map.mp hd
    exact iff_of_true (all _ hd) ((hserved e he).mp (h e he))

theorem mergeOnline_entry_kept (getprop : String → Option String) (wf : WellFormed ds)
    (as : List String) {id : String} (h : ∃ e ∈ ds.entries, e.device.id = id) :
    ∃ e ∈ (mergeOnline getprop ds as).entries, e.device.id = id := by
  induction as generalizing ds with
  | nil => exact h
  | cons a as ih =>
      obtain ⟨e, he, rfl⟩ := h
      obtain ⟨e', he', -, hid⟩ := wf.entry_kept getprop a .device he
      exact ih (wf.insertDevice getprop a .device) ⟨e', he', hid⟩

/-- An order in which no address loses its slot before its turn: first those that have one. -/
theorem exists_follows (getprop : String → Option String) (wf : WellFormed ds)
    (online : Finset String) : ∃ order, Listing online order ∧
      Follows getprop (idFor getprop ds · .device) ds order := by
  classical
  obtain ⟨rest, listing, hrest⟩ := exists_listing online
    ((Finset.nodup_toList online).filter fun a => ¬Stray ds a)
    fun a ha => Finset.mem_toList.mp (List.mem_filter.mp ha).1
  refine ⟨_, listing, follows_of_pairwise wf listing.1 ?_⟩
  have strays : ∀ b ∈ rest, Stray ds b := by
    intro b hb
    have hin : b ∈ online := listing.mem.mp (List.mem_append_right _ hb)
    by_contra hstray
    exact hrest b (List.mem_filter.mpr ⟨Finset.mem_toList.mpr hin, by simpa using hstray⟩) hb
  rw [List.pairwise_append]
  refine ⟨?_, List.pairwise_of_forall_mem_list fun a _ b hb => Or.inl (strays b hb),
    fun a _ b hb => Or.inl (strays b hb)⟩
  refine (List.nodup_append.mp listing.1).1.imp_of_mem fun {a b} ha hb hne => Or.inr fun clash => ?_
  obtain ⟨id, hslot⟩ := not_stray_iff.mp (by simpa using (List.mem_filter.mp ha).2)
  obtain ⟨id', hslot'⟩ := not_stray_iff.mp (by simpa using (List.mem_filter.mp hb).2)
  have hid : id = id' := by
    rw [← wf.idFor_of_slotAt getprop hslot .device, clash.1, wf.idFor_of_slotAt getprop hslot']
  rw [hid, clash.2, hslot'] at hslot
  exact hne (Option.some.inj hslot).symm

/-- At the end of a tick the states are accurate, in whatever order the online addresses
were inserted, exactly when every entry known before the tick has an online address that
was to be filed under it. -/
theorem online_state_accurate_iff (history : List Tick) (getprop : String → Option String)
    (online : Finset String) :
    let ds := Run.run tick init history
    (∀ track, Listing online (onlineOf track) → Accurate (onTick getprop ds track) online) ↔
    ∀ e ∈ ds.entries, ∃ a ∈ online, idFor getprop ds a .device = e.device.id := by
  intro ds
  have wf : WellFormed ds := wellFormed_ticks history
  have all : AllOnline ds := allOnline_ticks history
  have accurate_iff : ∀ track, Accurate (onTick getprop ds track) online ↔
      ∀ e ∈ (mergeOnline getprop ds (onlineOf track)).entries,
        Served (mergeOnline getprop ds (onlineOf track)) online e.device.id := by
    intro track
    rw [← accurate_iff_served (wf.mergeOnline getprop _) (all.mergeOnline wf _), Accurate, Accurate,
      onTick, devices_stopDisconnectedSessions]
  constructor
  · intro h e he
    obtain ⟨order, listing, follows⟩ := exists_follows getprop wf online
    have hacc := (accurate_iff _).mp (h (order.map fun a => (a, .device))
      (by rwa [onlineOf_online]))
    rw [onlineOf_online] at hacc
    obtain ⟨e', he', hid⟩ := mergeOnline_entry_kept getprop wf order ⟨e, he, rfl⟩
    obtain ⟨a, ha, hslot⟩ := hacc e' he'
    refine ⟨a, ha, ?_⟩
    rw [slotAt_mergeOnline wf follows, Option.or_eq_some_iff, hid] at hslot
    rcases hslot with hlast | ⟨-, hold⟩
    · have := List.mem_of_getLast? hlast
      simp only [List.mem_filter, decide_eq_true_eq] at this
      exact this.2.1
    · exact wf.idFor_of_slotAt getprop hold .device
  · intro h track listing
    refine (accurate_iff track).mpr fun e he => ?_
    have sub : ∀ a ∈ onlineOf track, a ∈ online := fun a ha => listing.mem.mp ha
    rcases hold : entryOf ds e.device.id with _ | old
    · refine served_of_new wf sub hold ?_
      rw [entryOf, lookup_of_mem (wf.mergeOnline getprop _).ids he]
      exact Option.some_ne_none e
    · obtain ⟨a, ha, hid⟩ := h old (mem_of_lookup hold)
      rw [entryOf_id hold] at hid
      exact hid ▸ served_of_idFor wf sub (listing.mem.mpr ha)

/-- A device that is unplugged stays in the state of one that is connected. -/
theorem online_state_stale :
    let getprop : String → Option String := fun _ => some "D1"
    let ds := Run.run tick init [⟨getprop, [("D1", .device)]⟩]
    Listing ∅ (onlineOf []) ∧ ¬Accurate (onTick getprop ds []) ∅ ∧
      (onTick getprop ds []).entries.map (·.device.state) = [.device] := by decide

end Kulua.DeviceMerge
