import Kulua.DeviceSlots

/-! Whether the merge loop of a tick depends on the order in which the hash map of
online addresses is listed. Touching an entry with addresses of different kinds
commutes; what can differ is which of two addresses keeps a slot, and which address a
new entry starts out with. -/

namespace Kulua.DeviceMerge
open Foundation Foundation.Keyed DeviceIdentity

variable {getprop : String → Option String} {ds : Devices} {a b : String}

/-- An entry without its UUID, if that was drawn after the first `n`. -/
def DeviceEntry.anonymous (n : Nat) (e : DeviceEntry) : DeviceEntry :=
  if e.device.uuid < n then e else { e with device := { e.device with uuid := n } }

/-- The same entries up to the choice of UUIDs after the first `n`. -/
def Same (n : Nat) (ds ds' : Devices) : Prop :=
  (ds.entries.map (DeviceEntry.anonymous n)).Perm (ds'.entries.map (DeviceEntry.anonymous n))

instance (n : Nat) (ds ds' : Devices) : Decidable (Same n ds ds') :=
  inferInstanceAs (Decidable
    ((ds.entries.map (DeviceEntry.anonymous n)).Perm (ds'.entries.map (DeviceEntry.anonymous n))))

/-- No new entry is to be made for an mDNS address with `._tcp` and an IP address without
a USB address beside them. -/
def Unraced (getprop : String → Option String) (ds : Devices) (online : Finset String) : Prop :=
  ∀ a ∈ online, ∀ b ∈ online, idFor getprop ds a .device = idFor getprop ds b .device →
    entryOf ds (idFor getprop ds a .device) = none → containsText a "._tcp" = true →
    DeviceAddrKind.classify b = .ip →
      ∃ c ∈ online, idFor getprop ds c .device = idFor getprop ds a .device ∧
        DeviceAddrKind.classify c = .usb

theorem classify_of_tcp (h : containsText a "._tcp" = true) : DeviceAddrKind.classify a = .mdns := by
  simp [DeviceAddrKind.classify, h]

/-- A USB address replaces any other. -/
theorem outranks_of_usb (hb : DeviceAddrKind.classify b = .usb)
    (ha : DeviceAddrKind.classify a ≠ .usb) : outranks b a = true := by
  have htcp : containsText b "._tcp" = false := by
    by_contra htcp
    rw [classify_of_tcp (by simpa using htcp)] at hb
    cases hb
  cases hk : DeviceAddrKind.classify a <;>
    simp_all [outranks, DeviceAddrKind.priority]

theorem priority_inj {k k' : DeviceAddrKind} (h : k.priority = k'.priority) : k = k' := by
  cases k <;> cases k' <;> simp_all [DeviceAddrKind.priority]

theorem touch_comm (hkind : DeviceAddrKind.classify a ≠ DeviceAddrKind.classify b)
    (st : DeviceState) (e : DeviceEntry) :
    (e.touch a st).touch b st = (e.touch b st).touch a st := by
  have identity : (e.device.identity.merge (.ofAddr a)).merge (.ofAddr b) =
      (e.device.identity.merge (.ofAddr b)).merge (.ofAddr a) := by
    refine ext_slot fun kind => ?_
    simp only [slot_merge_ofAddr]
    by_cases ha : DeviceAddrKind.classify a = kind
    · have hb : DeviceAddrKind.classify b ≠ kind := fun hb => hkind (ha.trans hb.symm)
      simp [ha, hb]
    · simp [ha]
  have ranks : (DeviceAddrKind.classify a).priority ≠ (DeviceAddrKind.classify b).priority :=
    fun h => hkind (priority_inj h)
  -- of two addresses that outrank the one in use, the higher of them is used in the end
  have serial : (if outranks b (if outranks a e.device.serial then a else e.device.serial) then b
        else if outranks a e.device.serial then a else e.device.serial) =
      if outranks a (if outranks b e.device.serial then b else e.device.serial) then a
        else if outranks b e.device.serial then b else e.device.serial := by
    simp only [outranks, Bool.and_eq_true, decide_eq_true_eq, Bool.not_eq_true']
    grind
  exact congrArg₂ (fun s i => ({ e with device := { e.device with
    identity := i, state := st, serial := s } } : DeviceEntry)) serial identity

/-- What one address does to an entry that is anonymous, or not there yet. -/
def visit (n : Nat) (id : String) (e : Option DeviceEntry) (a : String) : Option DeviceEntry :=
  some ((e.map (.touch a .device)).getD (newEntry n id a .device))

theorem anonymous_touch (n : Nat) (a : String) (st : DeviceState) (e : DeviceEntry) :
    (e.touch a st).anonymous n = (e.anonymous n).touch a st := by
  unfold DeviceEntry.anonymous
  rw [touch_uuid]
  split <;> rfl

theorem anonymous_newEntry {n uuid : Nat} (h : n ≤ uuid) (id a : String) (st : DeviceState) :
    (newEntry uuid id a st).anonymous n = newEntry n id a st := by
  unfold DeviceEntry.anonymous
  rw [if_neg (by simpa [newEntry] using h)]
  rfl

/-- The entry with an id is visited by the addresses that go there, in their order. -/
theorem entryOf_mergeOnline {κ : String → String} (wf : WellFormed ds) {as : List String}
    (follows : Follows getprop κ ds as) {n : Nat} (hn : n ≤ ds.nextUuid) (id : String) :
    (entryOf (mergeOnline getprop ds as) id).map (.anonymous n) =
      (as.filter fun a => κ a = id).foldl (visit n id) ((entryOf ds id).map (.anonymous n)) := by
  induction as generalizing ds with
  | nil => rfl
  | cons a as ih =>
      have hstep : (entryOf (insertDevice getprop ds a .device) id).map (.anonymous n) =
          if κ a = id then visit n id ((entryOf ds id).map (.anonymous n)) a
          else (entryOf ds id).map (.anonymous n) := by
        rw [entryOf_insertDevice wf.ids, follows.1]
        by_cases hid : κ a = id
        · rw [if_pos hid, if_pos hid, visit]
          rcases entryOf ds id with _ | e
          · simp [anonymous_newEntry hn]
          · simp [anonymous_touch]
        · rw [if_neg hid, if_neg hid]
      have hmono : n ≤ (insertDevice getprop ds a .device).nextUuid := by
        rcases insertDevice_cases getprop wf.ids a .device with
          ⟨es, e, hins, -⟩ | ⟨-, -, -, hins⟩ <;> rw [hins]
        · exact hn
        · exact Nat.le_succ_of_le hn
      rw [mergeOnline_cons, ih (wf.insertDevice getprop a .device) follows.2 hmono, hstep]
      by_cases hid : κ a = id
      · simp [hid]
      · simp [hid]

theorem foldl_visit_some (n : Nat) (id : String) (as : List String) (e : DeviceEntry) :
    as.foldl (visit n id) (some e) = some (as.foldl (fun e a => e.touch a .device) e) := by
  induction as generalizing e with
  | nil => rfl
  | cons a as ih => exact ih (e.touch a .device)

/-- Addresses of pairwise different kinds may touch an entry in any order. -/
theorem foldl_touch_perm {as bs : List String} (perm : as.Perm bs)
    (kinds : as.Pairwise fun a b => DeviceAddrKind.classify a ≠ DeviceAddrKind.classify b)
    (e : DeviceEntry) :
    as.foldl (fun e a => e.touch a .device) e = bs.foldl (fun e a => e.touch a .device) e := by
  refine perm.foldl_eq' (fun a ha b hb e => ?_) e
  by_cases hab : a = b
  · rw [hab]
  · have : Std.Symm fun a b => DeviceAddrKind.classify a ≠ DeviceAddrKind.classify b :=
      ⟨fun _ _ => Ne.symm⟩
    exact touch_comm (kinds.forall ha hb hab) .device e

/-- The address that a new entry ends up with, whichever of the addresses comes first. -/
def Champion (as : List String) (c : String) : Prop :=
  c ∈ as ∧ ∀ a ∈ as, a ≠ c → outranks c a = true

theorem Champion.founds {as : List String} {c : String} (champion : Champion as c)
    (kinds : as.Pairwise fun a b => DeviceAddrKind.classify a ≠ DeviceAddrKind.classify b)
    (n : Nat) (id : String) :
    as.foldl (visit n id) none =
      some (as.foldl (fun e a => e.touch a .device) (newEntry n id c .device)) := by
  cases as with
  | nil => exact absurd champion.1 (List.not_mem_nil)
  | cons a as =>
      have hvisit : visit n id none a = some (newEntry n id a .device) := rfl
      rw [List.foldl_cons, hvisit, foldl_visit_some, List.foldl_cons]
      by_cases hac : a = c
      · rw [hac, touch_newEntry]
      · -- the founder gives way to the champion, who would not have given way to it
        have hrank := champion.2 a (List.mem_cons_self ..) hac
        have hc : c ∈ as := (List.mem_cons.mp champion.1).resolve_left (Ne.symm hac)
        have hkind := (List.pairwise_cons.mp kinds).1 c hc
        have swap : (newEntry n id a .device).touch c .device =
            (newEntry n id c .device).touch a .device := by
          have hback : outranks a c = false := by
            simp only [outranks, Bool.and_eq_true, decide_eq_true_eq] at hrank
            simp only [outranks, Bool.and_eq_false_iff, decide_eq_false_iff_not]
            exact Or.inl (by omega)
          have identity : (ofAddr a).merge (ofAddr c) = (ofAddr c).merge (ofAddr a) := by
            refine ext_slot fun kind => ?_
            simp only [slot_merge_ofAddr, slot_ofAddr]
            by_cases ha : DeviceAddrKind.classify a = kind
            · have hc : DeviceAddrKind.classify c ≠ kind := fun hc => hkind (ha.trans hc.symm)
              simp [ha, hc]
            · simp [ha]
          simp [DeviceEntry.touch, newEntry, hrank, hback, identity]
        have hperm := List.perm_cons_erase hc
        have hkinds := (List.pairwise_cons.mp kinds).2
        rw [foldl_touch_perm hperm hkinds, foldl_touch_perm hperm hkinds, List.foldl_cons,
          List.foldl_cons, swap, touch_comm hkind, touch_newEntry]

theorem Apart.kinds {online : Finset String} {order : List String}
    (apart : Apart getprop ds online) (listing : Listing online order) (id : String) :
    (order.filter fun a => idFor getprop ds a .device = id).Pairwise
      fun a b => DeviceAddrKind.classify a ≠ DeviceAddrKind.classify b := by
  refine (listing.1.filter _).imp_of_mem fun {a b} ha hb hne hkind => ?_
  simp only [List.mem_filter, decide_eq_true_eq] at ha hb
  exact apart a (listing.mem.mp ha.1) b (listing.mem.mp hb.1) hne ⟨ha.2.trans hb.2.symm, hkind⟩

/-- Of the addresses that make a new entry, one outranks all others. -/
theorem Unraced.champion {online : Finset String} {order : List String}
    (unraced : Unraced getprop ds online) (apart : Apart getprop ds online)
    (listing : Listing online order) {id : String} (new : entryOf ds id = none)
    (some_go : (order.filter fun a => idFor getprop ds a .device = id) ≠ []) :
    ∃ c, Champion (order.filter fun a => idFor getprop ds a .device = id) c := by
  have kinds := apart.kinds listing id
  have hmem : ∀ a, a ∈ (order.filter fun a => idFor getprop ds a .device = id) ↔
      a ∈ online ∧ idFor getprop ds a .device = id := by
    intro a
    rw [List.mem_filter, listing.mem, decide_eq_true_eq]
  generalize (order.filter fun a => idFor getprop ds a .device = id) = own at *
  have differ : ∀ a ∈ own, ∀ b ∈ own, a ≠ b →
      DeviceAddrKind.classify a ≠ DeviceAddrKind.classify b := by
    have : Std.Symm fun a b => DeviceAddrKind.classify a ≠ DeviceAddrKind.classify b :=
      ⟨fun _ _ => Ne.symm⟩
    exact fun a ha b hb hab => kinds.forall ha hb hab
  by_cases husb : ∃ c ∈ own, DeviceAddrKind.classify c = .usb
  · obtain ⟨c, hc, husb⟩ := husb
    refine ⟨c, hc, fun a ha hac => ?_⟩
    exact outranks_of_usb husb (husb ▸ differ a ha c hc hac)
  · have nousb : ∀ a ∈ own, DeviceAddrKind.classify a ≠ .usb := fun a ha h => husb ⟨a, ha, h⟩
    by_cases hmdns : ∃ c ∈ own, DeviceAddrKind.classify c = .mdns
    · obtain ⟨c, hc, hmdns⟩ := hmdns
      refine ⟨c, hc, fun a ha hac => ?_⟩
      have hip : DeviceAddrKind.classify a = .ip := by
        have h1 := differ a ha c hc hac
        have h2 := nousb a ha
        cases hk : DeviceAddrKind.classify a <;> simp_all
      have htcp : containsText c "._tcp" = false := by
        by_contra htcp
        obtain ⟨hcon, hcid⟩ := (hmem c).mp hc
        obtain ⟨haon, haid⟩ := (hmem a).mp ha
        obtain ⟨u, hu, huid, huk⟩ := unraced c hcon a haon (hcid.trans haid.symm)
          (by rwa [hcid]) (by simpa using htcp) hip
        exact nousb u ((hmem u).mpr ⟨hu, huid.trans hcid⟩) huk
      simp [outranks, hmdns, hip, htcp, DeviceAddrKind.priority]
    · obtain ⟨c, hc⟩ := List.exists_mem_of_ne_nil own some_go
      refine ⟨c, hc, fun a ha hac => absurd ?_ (differ a ha c hc hac)⟩
      have ips : ∀ a ∈ own, DeviceAddrKind.classify a = .ip := by
        intro a ha
        have h1 := nousb a ha
        have h2 : DeviceAddrKind.classify a ≠ .mdns := fun h => hmdns ⟨a, ha, h⟩
        cases hk : DeviceAddrKind.classify a <;> simp_all
      rw [ips a ha, ips c hc]

theorem entryOf_anonymous (n : Nat) (ds : Devices) (id : String) :
    lookup (fun e : DeviceEntry => e.device.id) (ds.entries.map (DeviceEntry.anonymous n)) id =
      (entryOf ds id).map (DeviceEntry.anonymous n) := by
  have keep : ∀ e : DeviceEntry, (e.anonymous n).device.id = e.device.id := by
    intro e
    unfold DeviceEntry.anonymous
    split <;> rfl
  simp [lookup, List.find?_map, keep]

theorem ids_anonymous (n : Nat) (ds : Devices) :
    (ds.entries.map (DeviceEntry.anonymous n)).map (·.device.id) =
      ds.entries.map (·.device.id) := by
  rw [List.map_map]
  refine List.map_congr_left fun e _ => ?_
  simp only [Function.comp_apply, DeviceEntry.anonymous]
  split <;> rfl

theorem same_iff {ds ds' : Devices} (wf : WellFormed ds) (wf' : WellFormed ds') (n : Nat) :
    Same n ds ds' ↔ ∀ id, (entryOf ds id).map (DeviceEntry.anonymous n) =
      (entryOf ds' id).map (DeviceEntry.anonymous n) := by
  have distinct := ids_anonymous n ds ▸ wf.ids
  have distinct' := ids_anonymous n ds' ▸ wf'.ids
  simp only [← entryOf_anonymous]
  exact ⟨fun same id => lookup_perm distinct same id, perm_of_lookup distinct distinct'⟩

theorem Same.slotAt {ds ds' : Devices} {n : Nat} (wf : WellFormed ds) (wf' : WellFormed ds')
    (same : Same n ds ds') (id : String) (kind : DeviceAddrKind) :
    slotAt ds id kind = slotAt ds' id kind := by
  have keep : ∀ ds : Devices, DeviceMerge.slotAt ds id kind =
      ((entryOf ds id).map (DeviceEntry.anonymous n)).bind fun e => e.device.identity.slot kind := by
    intro ds
    unfold DeviceMerge.slotAt
    rcases entryOf ds id with _ | e
    · rfl
    · simp only [Option.bind_some, Option.map_some, DeviceEntry.anonymous]
      split <;> rfl
  rw [keep, keep, (same_iff wf wf' n).mp same id]

theorem serial_race (hk : DeviceAddrKind.classify b = .ip) (htcp : containsText a "._tcp" = true)
    (n : Nat) (id : String) :
    [a, b].foldl (visit n id) none ≠ [b, a].foldl (visit n id) none := by
  have hkind := classify_of_tcp htcp
  have hne : a ≠ b := by
    rintro rfl
    rw [hk] at hkind
    cases hkind
  have hab : outranks b a = false := by simp [outranks, hk, hkind, DeviceAddrKind.priority]
  have hba : outranks a b = false := by simp [outranks, htcp]
  intro h
  refine hne ?_
  have hserial := congrArg (Option.map fun e : DeviceEntry => e.device.serial) h
  simpa [visit, DeviceEntry.touch, newEntry, hab, hba] using hserial

/-- The merge loop leaves the same entries behind for every two orders of the online map. -/
def Independent (getprop : String → Option String) (ds : Devices) (online : Finset String) :
    Prop :=
  ∀ order order', Listing online order → Listing online order' →
    Same ds.nextUuid (mergeOnline getprop ds order) (mergeOnline getprop ds order')

/-- Of two addresses that contend for a slot, the last one stays. -/
theorem Independent.apart {online : Finset String}
    (wf : WellFormed ds) (h : Independent getprop ds online) : Apart getprop ds online := by
  have wfm : ∀ order, WellFormed (mergeOnline getprop ds order) := wf.mergeOnline getprop
  intro a ha b hb hne clash
  obtain ⟨x, hx, order, listing, stray⟩ := exists_stray wf ha hb hne clash
  -- with `x` as the last address, it is in an entry at the end
  have hlast : Listing online (order.erase x ++ [x]) := by
    have hperm : order.Perm (order.erase x ++ [x]) :=
      (List.perm_cons_erase (listing.mem.mpr hx)).trans (List.perm_append_singleton x _).symm
    exact ⟨hperm.nodup_iff.mp listing.1, by rw [← List.toFinset_eq_of_perm _ _ hperm, listing.2]⟩
  have hsame := h _ _ hlast listing
  refine stray (idFor getprop (mergeOnline getprop ds (order.erase x)) x .device) ?_
  rw [← hsame.slotAt (wfm _) (wfm _), mergeOnline, List.foldl_append]
  exact slotAt_inserted (wfm _) x .device

/-- Without a USB address, a `._tcp` name and an IP address are all that goes to their
entry, and either may come first. -/
theorem Apart.exists_pair {online : Finset String}
    (apart : Apart getprop ds online) (ha : a ∈ online) (hb : b ∈ online)
    (hid : idFor getprop ds b .device = idFor getprop ds a .device)
    (hmdns : DeviceAddrKind.classify a = .mdns) (hip : DeviceAddrKind.classify b = .ip)
    (hnousb : ¬∃ c ∈ online, idFor getprop ds c .device = idFor getprop ds a .device ∧
      DeviceAddrKind.classify c = .usb)
    {x y : String} (hxy : (x = a ∧ y = b) ∨ (x = b ∧ y = a)) :
    ∃ order, Listing online order ∧
      (order.filter fun c => idFor getprop ds c .device = idFor getprop ds a .device) =
        [x, y] := by
  have hne : a ≠ b := by
    rintro rfl
    rw [hip] at hmdns
    cases hmdns
  obtain ⟨rest, listing, hrest⟩ := exists_listing online
    (show [x, y].Nodup by grind) (by grind)
  refine ⟨_, listing, ?_⟩
  have hnone : (rest.filter fun c =>
      idFor getprop ds c .device = idFor getprop ds a .device) = [] := by
    rw [List.filter_eq_nil_iff]
    intro c hc hcid
    have hcon : c ∈ online := listing.mem.mp (List.mem_append_right _ hc)
    have hca : c ≠ a := by grind
    have hcb : c ≠ b := by grind
    have hcid : idFor getprop ds c .device = idFor getprop ds a .device := by simpa using hcid
    have h1 : DeviceAddrKind.classify c ≠ .mdns := fun hk =>
      apart c hcon a ha hca ⟨hcid, hk.trans hmdns.symm⟩
    have h2 : DeviceAddrKind.classify c ≠ .ip := fun hk =>
      apart c hcon b hb hcb ⟨hcid.trans hid.symm, hk.trans hip.symm⟩
    refine hnousb ⟨c, hcon, hcid, ?_⟩
    cases hk : DeviceAddrKind.classify c <;> simp_all
  rw [List.filter_append, hnone]
  rcases hxy with ⟨rfl, rfl⟩ | ⟨rfl, rfl⟩ <;> simp [hid]

/-- The two make different entries, by which came first. -/
theorem Independent.unraced {online : Finset String} (wf : WellFormed ds)
    (h : Independent getprop ds online) : Unraced getprop ds online := by
  have apart := h.apart wf
  have wfm : ∀ order, WellFormed (mergeOnline getprop ds order) := wf.mergeOnline getprop
  intro a ha b hb hid hnew htcp hip
  by_contra hnousb
  have hkind := classify_of_tcp htcp
  obtain ⟨order, listing, hown⟩ :=
    apart.exists_pair ha hb hid.symm hkind hip hnousb (Or.inl ⟨rfl, rfl⟩)
  obtain ⟨order', listing', hown'⟩ :=
    apart.exists_pair ha hb hid.symm hkind hip hnousb (Or.inr ⟨rfl, rfl⟩)
  have hview := (same_iff (wfm order) (wfm order') _).mp (h _ _ listing listing')
    (idFor getprop ds a .device)
  rw [entryOf_mergeOnline wf (apart.follows wf listing) le_rfl,
    entryOf_mergeOnline wf (apart.follows wf listing') le_rfl, hown, hown', hnew] at hview
  exact serial_race hip htcp _ _ hview

/-- Each entry is founded by the same address in both orders and takes up the same ones. -/
theorem Apart.independent {online : Finset String} (wf : WellFormed ds)
    (apart : Apart getprop ds online) (unraced : Unraced getprop ds online) :
    Independent getprop ds online := by
  intro order order' listing listing'
  have wfm : ∀ order, WellFormed (mergeOnline getprop ds order) := wf.mergeOnline getprop
  refine (same_iff (wfm order) (wfm order') _).mpr fun id => ?_
  rw [entryOf_mergeOnline wf (apart.follows wf listing) le_rfl,
    entryOf_mergeOnline wf (apart.follows wf listing') le_rfl]
  have hperm : order.Perm order' := by
    rw [List.perm_ext_iff_of_nodup listing.1 listing'.1]
    exact fun a => listing.mem.trans listing'.mem.symm
  have hown := hperm.filter fun a => idFor getprop ds a .device = id
  have kinds := apart.kinds listing id
  have kinds' := apart.kinds listing' id
  rcases hold : entryOf ds id with _ | e
  · by_cases hnil : (order.filter fun a => idFor getprop ds a .device = id) = []
    · rw [hnil] at hown ⊢
      rw [List.nil_perm.mp hown]
    · obtain ⟨c, champion⟩ := unraced.champion apart listing hold hnil
      have champion' : Champion (order'.filter fun a => idFor getprop ds a .device = id) c :=
        ⟨hown.mem_iff.mp champion.1, fun a ha => champion.2 a (hown.mem_iff.mpr ha)⟩
      rw [Option.map_none, champion.founds kinds, champion'.founds kinds',
        foldl_touch_perm hown kinds]
  · rw [Option.map_some, foldl_visit_some, foldl_visit_some, foldl_touch_perm hown kinds]

/-- The merge loop leaves the same entries behind, up to the choice of fresh UUIDs, for
every two orders of the online map exactly when no two online addresses contend for one
slot and no new entry is raced for by a `._tcp` name and an IP address. -/
theorem merge_order_independent_iff (history : List Call) (getprop : String → Option String)
    (online : Finset String) :
    let ds := Run.run call init history
    (∀ order order', Listing online order → Listing online order' →
      Same ds.nextUuid (mergeOnline getprop ds order) (mergeOnline getprop ds order')) ↔
    Apart getprop ds online ∧ Unraced getprop ds online := by
  intro ds
  have wf : WellFormed ds := wellFormed_run history
  constructor
  · intro h
    exact ⟨Independent.apart wf h, Independent.unraced wf h⟩
  · rintro ⟨apart, unraced⟩
    exact apart.independent wf unraced

/-- A new device on WiFi, found under its mDNS name and its IP address, is reached under
whichever of the two came first. -/
theorem merge_order_matters :
    let getprop : String → Option String := fun _ => some "D1"
    let name := "adb-D1._adb-tls-connect._tcp"
    let ip := "192.168.1.5:5555"
    Listing {name, ip} [name, ip] ∧ Listing {name, ip} [ip, name] ∧
      (mergeOnline getprop init [name, ip]).entries.map (·.device.serial) = [name] ∧
      (mergeOnline getprop init [ip, name]).entries.map (·.device.serial) = [ip] ∧
      ¬Same 0 (mergeOnline getprop init [name, ip]) (mergeOnline getprop init [ip, name]) := by
  decide

end Kulua.DeviceMerge
