import Kulua.DeviceTick

/-! The addresses that a tick files under one entry, and what they do to it: they may
change the address in use, and the entry has an online address afterwards exactly when
there are any. -/

namespace Kulua.DeviceMerge
open Foundation Foundation.Keyed DeviceIdentity

/-- The online addresses that the merge loop files under the entry with this id. -/
def visitors (getprop : String → Option String) : Devices → List String → String → List String
  | _, [], _ => []
  | ds, a :: as, id =>
    let later := visitors getprop (insertDevice getprop ds a .device) as id
    if idFor getprop ds a .device = id then a :: later else later

variable {getprop : String → Option String} {ds : Devices} {as : List String} {id : String}

theorem visitors_sub {a : String} (h : a ∈ visitors getprop ds as id) : a ∈ as := by
  induction as generalizing ds with
  | nil => cases h
  | cons b as ih =>
      simp only [visitors] at h
      split at h
      · rcases List.mem_cons.mp h with rfl | h
        · exact List.mem_cons_self ..
        · exact List.mem_cons_of_mem b (ih h)
      · exact List.mem_cons_of_mem b (ih h)

/-- The address in use is upgraded by the visitors, in turn. -/
theorem serialAt_visited (wf : WellFormed ds) :
    serialAt (mergeOnline getprop ds as) id =
      (visitors getprop ds as id).foldl upgrade (serialAt ds id) := by
  induction as generalizing ds with
  | nil => rfl
  | cons a as ih =>
      rw [mergeOnline_cons, ih (wf.insertDevice getprop a .device), serialAt_filed wf.ids]
      simp only [visitors]
      split <;> rfl

theorem slotAt_of_unvisited (wf : WellFormed ds) (h : visitors getprop ds as id = [])
    (kind : DeviceAddrKind) : slotAt (mergeOnline getprop ds as) id kind = slotAt ds id kind := by
  induction as generalizing ds with
  | nil => rfl
  | cons a as ih =>
      simp only [visitors] at h
      split at h
      · cases h
      · rename_i hother
        rw [mergeOnline_cons, ih (wf.insertDevice getprop a .device) h, slotAt_insertDevice wf,
          if_neg fun hid => hother hid.1]

/-- An address of the entry visits it, unless another one took its slot before. -/
theorem visited_of_slotAt (wf : WellFormed ds) {a : String} (ha : a ∈ as)
    (hslot : slotAt ds id (.classify a) = some a) : visitors getprop ds as id ≠ [] := by
  induction as generalizing ds with
  | nil => cases ha
  | cons b as ih =>
      simp only [visitors]
      split
      · exact List.cons_ne_nil _ _
      · rename_i hother
        have hne : a ≠ b := by
          rintro rfl
          exact hother (wf.idFor_of_slotAt getprop hslot .device)
        refine ih (wf.insertDevice getprop b .device) ((List.mem_cons.mp ha).resolve_left hne) ?_
        rw [slotAt_insertDevice wf, if_neg fun hid => hother hid.1, hslot]

theorem served_iff_visited (getprop : String → Option String) (wf : WellFormed ds)
    (as : List String) (id : String) :
    Served (mergeOnline getprop ds as) as.toFinset id ↔ visitors getprop ds as id ≠ [] := by
  constructor
  · rintro ⟨a, ha, hslot⟩ hnone
    rw [slotAt_of_unvisited wf hnone] at hslot
    exact visited_of_slotAt wf (List.mem_toFinset.mp ha) hslot hnone
  · have general : ∀ online : Finset String, (∀ a ∈ as, a ∈ online) →
        visitors getprop ds as id ≠ [] → Served (mergeOnline getprop ds as) online id := by
      induction as generalizing ds with
      | nil => exact fun _ _ h => absurd rfl h
      | cons a as ih =>
          intro online sub hvisited
          have wf' := wf.insertDevice getprop a .device
          have sub' : ∀ b ∈ as, b ∈ online := fun b hb => sub b (List.mem_cons_of_mem a hb)
          simp only [visitors] at hvisited
          split at hvisited
          · rename_i hid
            rw [mergeOnline_cons, ← hid]
            exact (served_insertDevice wf (sub a (List.mem_cons_self ..))).mergeOnline wf' sub'
          · exact ih wf' online sub' hvisited
    exact general _ fun a ha => List.mem_toFinset.mpr ha

/-- The entry is reached under an online address after the tick exactly when it was before
or a visitor outranks the address it had. -/
theorem reached_iff (getprop : String → Option String) (wf : WellFormed ds) (as : List String)
    {e : DeviceEntry} (he : e ∈ ds.entries) :
    (∃ now ∈ as, serialAt (mergeOnline getprop ds as) e.device.id = some now) ↔
      e.device.serial ∈ as ∨
        ∃ a ∈ visitors getprop ds as e.device.id, outranks a e.device.serial = true := by
  have hserial : serialAt ds e.device.id = some e.device.serial := by
    rw [serialAt, entryOf, lookup_of_mem wf.ids he]
    rfl
  rw [serialAt_visited wf, hserial]
  constructor
  · rintro ⟨now, hmem, hnow⟩
    by_contra hnot
    push Not at hnot
    have hsame := foldl_upgrade_same (visitors getprop ds as e.device.id) e.device.serial
      fun a ha => by simpa using hnot.2 a ha
    rw [hsame] at hnow
    obtain rfl := Option.some.inj hnow
    exact hnot.1 hmem
  · rintro (hold | hrank)
    · obtain ⟨now, hnow, hin⟩ := foldl_upgrade_mem (visitors getprop ds as e.device.id)
        e.device.serial
      rcases hin with rfl | hin
      · exact ⟨_, hold, hnow⟩
      · exact ⟨now, visitors_sub hin, hnow⟩
    · obtain ⟨now, hin, hnow⟩ := foldl_upgrade_new _ _ hrank
      exact ⟨now, visitors_sub hin, hnow⟩

end Kulua.DeviceMerge
