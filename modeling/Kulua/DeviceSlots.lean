import Kulua.DeviceIndex
import Kulua.DeviceMerge

/-! The device table seen through the slots of its entries. An address goes to the slot
of its kind in the entry it is filed under, and takes it from the address that was there;
what that means for a whole online map depends on the order in which it is listed. -/

namespace Kulua.DeviceMerge
open Foundation Foundation.Keyed DeviceIdentity

/-- The address in a slot of the entry with the given id. -/
def slotAt (ds : Devices) (id : String) (kind : DeviceAddrKind) : Option String :=
  (entryOf ds id).bind fun e => e.device.identity.slot kind

/-- No entry has the address. -/
def Stray (ds : Devices) (a : String) : Prop := ∀ id, slotAt ds id (.classify a) ≠ some a

/-- Two addresses of one kind that go to the same entry: the later takes the slot. -/
def Clash (getprop : String → Option String) (ds : Devices) (a b : String) : Prop :=
  idFor getprop ds a .device = idFor getprop ds b .device ∧
    DeviceAddrKind.classify a = DeviceAddrKind.classify b

variable {getprop : String → Option String} {ds : Devices} {a b : String}

theorem slotAt_insertDevice (wf : WellFormed ds) (a : String) (st : DeviceState) (id : String)
    (kind : DeviceAddrKind) :
    slotAt (insertDevice getprop ds a st) id kind =
      if idFor getprop ds a st = id ∧ DeviceAddrKind.classify a = kind then some a
      else slotAt ds id kind := by
  rw [slotAt, entryOf_insertDevice wf.ids]
  by_cases hid : idFor getprop ds a st = id
  · rw [if_pos hid, slotAt]
    rcases entryOf ds id with _ | e
    · simp [newEntry, hid]
    · simp [hid]
  · simp [hid, slotAt]

theorem WellFormed.contains_iff_slotAt (wf : WellFormed ds) {e : DeviceEntry} (he : e ∈ ds.entries) :
    e.device.identity.containsAddr a = true ↔ slotAt ds e.device.id (.classify a) = some a := by
  rw [(wf.filed e he).containsAddr_iff, slotAt, entryOf, lookup_of_mem wf.ids he, Option.bind_some]

theorem slotAt_mem {id : String} {kind : DeviceAddrKind} (h : slotAt ds id kind = some a) :
    ∃ e ∈ ds.entries, e.device.id = id := by
  obtain ⟨e, he, -⟩ := Option.bind_eq_some_iff.mp h
  exact ⟨e, mem_of_lookup he, entryOf_id he⟩

theorem WellFormed.idFor_of_slotAt (wf : WellFormed ds) (getprop : String → Option String)
    {id : String} (h : slotAt ds id (.classify a) = some a) (st : DeviceState) :
    idFor getprop ds a st = id := by
  obtain ⟨e, he, rfl⟩ := slotAt_mem h
  exact wf.idFor_of_contains he ((wf.contains_iff_slotAt he).mpr h) st

theorem WellFormed.idFor_of_stray (wf : WellFormed ds) (stray : Stray ds a) (st : DeviceState) :
    idFor getprop ds a st = deviceId getprop a st := by
  have hhome : home ds a = none := by
    refine home_eq_none.mpr fun e he => ?_
    by_contra hcontains
    exact stray e.device.id ((wf.contains_iff_slotAt he).mp (by simpa using hcontains))
  simp [idFor, hhome]

theorem not_stray_iff : ¬Stray ds a ↔ ∃ id, slotAt ds id (.classify a) = some a := by
  simp [Stray]

/-- An inserted address is where it was filed. -/
theorem slotAt_inserted (wf : WellFormed ds) (a : String) (st : DeviceState) :
    slotAt (insertDevice getprop ds a st) (idFor getprop ds a st) (.classify a) = some a := by
  simp [slotAt_insertDevice wf]

theorem Stray.insertDevice (wf : WellFormed ds) (stray : Stray ds b) (hne : a ≠ b)
    (st : DeviceState) : Stray (insertDevice getprop ds a st) b := by
  intro id h
  rw [slotAt_insertDevice wf] at h
  split at h
  · exact hne (Option.some.inj h)
  · exact stray id h

/-- The slot that an address was in is lost to the next one that goes there. -/
theorem stray_of_clash (wf : WellFormed ds) (hne : a ≠ b) (clash : Clash getprop ds a b) :
    Stray (insertDevice getprop ds a .device) b := by
  intro id h
  rw [slotAt_insertDevice wf] at h
  split at h
  · exact hne (Option.some.inj h)
  · rename_i hother
    exact hother ⟨clash.1.trans (wf.idFor_of_slotAt getprop h .device), clash.2⟩

/-- Any other insertion leaves an address where it is, or would be, filed. -/
theorem idFor_insertDevice (wf : WellFormed ds) (hne : a ≠ b)
    (h : Stray ds b ∨ ¬Clash getprop ds a b) :
    idFor getprop (insertDevice getprop ds a .device) b .device = idFor getprop ds b .device := by
  have wf' := wf.insertDevice getprop a .device
  by_cases hstray : Stray ds b
  · rw [wf.idFor_of_stray hstray, wf'.idFor_of_stray (hstray.insertDevice wf hne .device)]
  · obtain ⟨id, hslot⟩ := not_stray_iff.mp hstray
    have hid := wf.idFor_of_slotAt getprop hslot .device
    rw [hid]
    refine wf'.idFor_of_slotAt getprop ?_ .device
    rw [slotAt_insertDevice wf, if_neg, hslot]
    rintro ⟨hsame, hkind⟩
    exact h.resolve_left hstray ⟨hsame.trans hid.symm, hkind⟩

/-- Every address of the list goes where it would have gone before the tick. -/
def Follows (getprop : String → Option String) (κ : String → String) : Devices → List String → Prop
  | _, [] => True
  | ds, a :: as =>
    idFor getprop ds a .device = κ a ∧ Follows getprop κ (insertDevice getprop ds a .device) as

theorem Follows.congr {κ κ' : String → String} {as : List String} (h : ∀ a ∈ as, κ a = κ' a)
    (follows : Follows getprop κ ds as) : Follows getprop κ' ds as := by
  induction as generalizing ds with
  | nil => trivial
  | cons a as ih =>
      exact ⟨follows.1.trans (h a (List.mem_cons_self ..)),
        ih (fun b hb => h b (List.mem_cons_of_mem a hb)) follows.2⟩

/-- So it is when no address loses its slot before its turn. -/
theorem follows_of_pairwise (wf : WellFormed ds) {as : List String} (nodup : as.Nodup)
    (kept : as.Pairwise fun a b => Stray ds b ∨ ¬Clash getprop ds a b) :
    Follows getprop (idFor getprop ds · .device) ds as := by
  induction as generalizing ds with
  | nil => trivial
  | cons a as ih =>
      rw [List.nodup_cons] at nodup
      rw [List.pairwise_cons] at kept
      have hne : ∀ b ∈ as, a ≠ b := fun b hb h => nodup.1 (h ▸ hb)
      have same : ∀ b ∈ as, idFor getprop (insertDevice getprop ds a .device) b .device =
          idFor getprop ds b .device := fun b hb => idFor_insertDevice wf (hne b hb) (kept.1 b hb)
      refine ⟨rfl, (ih (wf.insertDevice getprop a .device) nodup.2 ?_).congr same⟩
      refine kept.2.imp_of_mem fun {b c} hb hc hpair => ?_
      rw [Clash, same b hb, same c hc]
      exact hpair.imp_left fun stray => stray.insertDevice wf (hne c hc) .device

theorem mergeOnline_cons (getprop : String → Option String) (ds : Devices) (a : String)
    (as : List String) :
    mergeOnline getprop ds (a :: as) = mergeOnline getprop (insertDevice getprop ds a .device) as :=
  rfl

theorem WellFormed.mergeOnline (wf : WellFormed ds) (getprop : String → Option String)
    (as : List String) :
    WellFormed (mergeOnline getprop ds as) := by
  induction as generalizing ds with
  | nil => exact wf
  | cons a as ih => exact ih (wf.insertDevice getprop a .device)

theorem Stray.mergeOnline (wf : WellFormed ds) (stray : Stray ds b) {as : List String}
    (hb : b ∉ as) : Stray (mergeOnline getprop ds as) b := by
  induction as generalizing ds with
  | nil => exact stray
  | cons a as ih =>
      rw [List.mem_cons, not_or] at hb
      exact ih (wf.insertDevice getprop a .device) (stray.insertDevice wf (Ne.symm hb.1) .device) hb.2

/-- Each slot ends up with the last address of the list that went there. -/
theorem slotAt_mergeOnline {κ : String → String} (wf : WellFormed ds) {as : List String}
    (follows : Follows getprop κ ds as) (id : String) (kind : DeviceAddrKind) :
    slotAt (mergeOnline getprop ds as) id kind =
      ((as.filter fun a => κ a = id ∧ DeviceAddrKind.classify a = kind).getLast?).or
        (slotAt ds id kind) := by
  induction as generalizing ds with
  | nil => rfl
  | cons a as ih =>
      rw [mergeOnline_cons, ih (wf.insertDevice getprop a .device) follows.2, slotAt_insertDevice wf,
        follows.1, List.filter_cons]
      by_cases h : κ a = id ∧ DeviceAddrKind.classify a = kind
      · rcases hrest : (as.filter fun a => κ a = id ∧ DeviceAddrKind.classify a = kind) with
          _ | ⟨b, bs⟩ <;> simp [h, List.getLast?_cons]
      · simp [h]

/-- The order in which a hash map of online addresses is iterated. -/
def Listing (online : Finset String) (order : List String) : Prop :=
  order.Nodup ∧ order.toFinset = online

instance (online : Finset String) (order : List String) : Decidable (Listing online order) :=
  inferInstanceAs (Decidable (_ ∧ _))

theorem Listing.mem {online : Finset String} {order : List String} (h : Listing online order) :
    a ∈ order ↔ a ∈ online := by
  rw [← h.2, List.mem_toFinset]

/-- Any addresses of an online map may come first. -/
theorem exists_listing (online : Finset String) {first : List String} (nodup : first.Nodup)
    (sub : ∀ a ∈ first, a ∈ online) :
    ∃ rest, Listing online (first ++ rest) ∧ ∀ a ∈ first, a ∉ rest := by
  refine ⟨(online \ first.toFinset).toList, ⟨?_, ?_⟩, fun a ha => by simp [ha]⟩
  · refine List.nodup_append.mpr ⟨nodup, Finset.nodup_toList _, fun a ha b hb => ?_⟩
    simp only [Finset.mem_toList, Finset.mem_sdiff, List.mem_toFinset] at hb
    rintro rfl
    exact hb.2 ha
  · ext a
    simp only [List.toFinset_append, Finset.toList_toFinset, Finset.mem_union, List.mem_toFinset,
      Finset.mem_sdiff]
    have := sub a
    tauto

/-- No two online addresses contend for one slot. -/
def Apart (getprop : String → Option String) (ds : Devices) (online : Finset String) : Prop :=
  ∀ a ∈ online, ∀ b ∈ online, a ≠ b → ¬Clash getprop ds a b

theorem Apart.follows {online : Finset String} {order : List String} (wf : WellFormed ds)
    (apart : Apart getprop ds online) (listing : Listing online order) :
    Follows getprop (idFor getprop ds · .device) ds order := by
  refine follows_of_pairwise wf listing.1 (listing.1.imp_of_mem fun {a b} ha hb hne => Or.inr ?_)
  exact apart a (listing.mem.mp ha) b (listing.mem.mp hb) hne

/-- Then every online address ends up where it was to be filed. -/
theorem Apart.filed {online : Finset String} {order : List String} (wf : WellFormed ds)
    (apart : Apart getprop ds online) (listing : Listing online order) (ha : a ∈ online)
    (id : String) :
    slotAt (DeviceMerge.mergeOnline getprop ds order) id (.classify a) = some a ↔
      idFor getprop ds a .device = id := by
  have mine : slotAt (DeviceMerge.mergeOnline getprop ds order) (idFor getprop ds a .device)
      (.classify a) = some a := by
    rw [slotAt_mergeOnline wf (apart.follows wf listing)]
    rcases hlast : (order.filter fun b => idFor getprop ds b .device = idFor getprop ds a .device ∧
      DeviceAddrKind.classify b = DeviceAddrKind.classify a).getLast? with _ | b
    · rw [List.getLast?_eq_none_iff, List.filter_eq_nil_iff] at hlast
      have := hlast a (listing.mem.mpr ha)
      simp at this
    · have hb := List.mem_of_getLast? hlast
      simp only [List.mem_filter, decide_eq_true_eq] at hb
      by_contra hne
      refine apart b (listing.mem.mp hb.1) a ha ?_ hb.2
      rintro rfl
      exact hne rfl
  constructor
  · intro h
    have wf' := wf.mergeOnline getprop order
    rw [← wf'.idFor_of_slotAt getprop h .device]
    exact (wf'.idFor_of_slotAt getprop mine .device).symm
  · rintro rfl
    exact mine

/-- A clash is lost by one of the two in some order: it ends up in no entry. -/
theorem exists_stray {online : Finset String} (wf : WellFormed ds) (ha : a ∈ online)
    (hb : b ∈ online) (hne : a ≠ b) (clash : Clash getprop ds a b) :
    ∃ x ∈ online, ∃ order, Listing online order ∧ Stray (mergeOnline getprop ds order) x := by
  -- at most one of them has the slot now; the other one takes it
  have taken : ∀ x y, x ∈ online → y ∈ online → y ≠ x → Stray ds x → Clash getprop ds x y →
      ∃ order, Listing online order ∧ Stray (mergeOnline getprop ds order) y := by
    intro x y hx hy hyx stray clash
    obtain ⟨rest, listing, hrest⟩ := exists_listing online
      (show [y, x].Nodup by simp [hyx]) (by simp [hx, hy])
    refine ⟨[y, x] ++ rest, listing, ?_⟩
    have wf' := wf.insertDevice getprop y .device
    refine Stray.mergeOnline (wf'.insertDevice getprop x .device) ?_ (hrest y (by simp))
    refine stray_of_clash wf' hyx.symm ⟨?_, clash.2⟩
    rw [idFor_insertDevice wf hyx (Or.inl stray), clash.1]
    exact (wf'.idFor_of_slotAt getprop (slotAt_inserted wf y .device) .device).symm
  by_cases hstray : Stray ds a
  · exact ⟨b, hb, taken a b ha hb hne.symm hstray clash⟩
  · refine ⟨a, ha, taken b a hb ha hne ?_ ⟨clash.1.symm, clash.2.symm⟩⟩
    intro id hslot
    obtain ⟨id', hslot'⟩ := not_stray_iff.mp hstray
    have hid : id = id' := by
      rw [← wf.idFor_of_slotAt getprop hslot .device,
        ← wf.idFor_of_slotAt getprop hslot' .device, clash.1]
    rw [hid, ← clash.2, hslot'] at hslot
    exact hne (Option.some.inj hslot)

end Kulua.DeviceMerge
