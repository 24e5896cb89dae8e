import Kulua.DeviceRefresh

/-! When the loop over the `track-devices` frames sends a map: the comparison with the last one
is over whole devices, and each frame gives its devices new UUIDs. -/

namespace Kulua.DeviceRefresh
open Foundation Foundation.Keyed

/-- The frame makes the loop call `device_tx.send`. -/
def Sends (st : Refresh) (f : WireFrame) : Prop :=
  f.payload ≠ [] ∧ ∃ devices, parseDevices st.nextUuid f.payload = some devices ∧
    sameMap (deviceMap devices) st.last = false

/-- The devices of the frame as they are parsed. -/
def WireFrame.devices (f : WireFrame) (nextUuid : Nat) : List Device :=
  (listing f.text).mapIdx fun i pair => deviceOf (nextUuid + i) pair

theorem parseDevices_wire (f : WireFrame) (nextUuid : Nat) :
    parseDevices nextUuid f.payload = some (f.devices nextUuid) := by
  rw [parseDevices, f.utf8]
  rfl

theorem sends_iff {st : Refresh} {f : WireFrame} :
    Sends st f ↔ f.payload ≠ [] ∧ sameMap (deviceMap (f.devices st.nextUuid)) st.last = false := by
  simp only [Sends, parseDevices_wire, Option.some.injEq, exists_eq_left']

/-- What is sent is published; no other frame changes what the watchers see. -/
theorem onFrame_published (st : Refresh) (f : WireFrame) :
    Sends st f ∧ (onFrame st f).published = deviceMap (f.devices st.nextUuid) ∨
      ¬Sends st f ∧ (onFrame st f).published = st.published := by
  rw [sends_iff, onFrame, refresh, parseDevices_wire]
  by_cases hempty : f.payload = []
  · rw [if_pos hempty]
    exact .inr ⟨fun h => h.1 hempty, rfl⟩
  · rw [if_neg hempty]
    dsimp only
    cases hsame : sameMap (deviceMap (f.devices st.nextUuid)) st.last with
    | true => exact .inr ⟨fun h => Bool.noConfusion h.2, rfl⟩
    | false => exact .inl ⟨⟨hempty, rfl⟩, rfl⟩

/-- The UUIDs of the last map are used up. -/
structure Spent (st : Refresh) : Prop where
  last : st.last = st.published
  uuid : ∀ d ∈ st.last, d.uuid < st.nextUuid

theorem uuid_devices {f : WireFrame} {nextUuid : Nat} {d : Device} (h : d ∈ f.devices nextUuid) :
    nextUuid ≤ d.uuid ∧ d.uuid < nextUuid + (f.devices nextUuid).length := by
  obtain ⟨i, hi, rfl⟩ := List.mem_mapIdx.mp h
  rw [WireFrame.devices, List.length_mapIdx]
  dsimp only [deviceOf]
  omega

theorem mem_of_mem_deviceMap {devices : List Device} {d : Device} (h : d ∈ deviceMap devices) :
    d ∈ devices :=
  List.mem_reverse.mp (List.mem_of_find?_eq_some (mem_deviceMap_iff.mp h))

/-- Maps of two frames are the same only if both are empty. -/
theorem Spent.sameMap_iff {st : Refresh} (spent : Spent st) (f : WireFrame) :
    sameMap (deviceMap (f.devices st.nextUuid)) st.last = true ↔
      listing f.text = [] ∧ st.last = [] := by
  constructor
  · intro hsame
    have hmem := sameMap_mem hsame
    have hnone : ∀ d, d ∉ st.last := by
      intro d hd
      have hnew := uuid_devices (mem_of_mem_deviceMap ((hmem d).mpr hd))
      have hold := spent.uuid d hd
      omega
    have hmap : deviceMap (f.devices st.nextUuid) = [] :=
      List.eq_nil_iff_forall_not_mem.mpr fun d hd => hnone d ((hmem d).mp hd)
    exact ⟨List.mapIdx_eq_nil_iff.mp (deviceMap_eq_nil.mp hmap),
      List.eq_nil_iff_forall_not_mem.mpr hnone⟩
  · rintro ⟨hlisting, hlast⟩
    rw [hlast, WireFrame.devices, hlisting]
    rfl

theorem Spent.onFrame {st : Refresh} (spent : Spent st) (f : WireFrame) :
    Spent (onFrame st f) := by
  rw [DeviceRefresh.onFrame, refresh, parseDevices_wire]
  split
  · exact spent
  · dsimp only
    split
    · exact ⟨spent.last, fun d hd => (spent.uuid d hd).trans_le (Nat.le_add_right ..)⟩
    · exact ⟨rfl, fun d hd => (uuid_devices (mem_of_mem_deviceMap hd)).2⟩

/-- The frame lists the pairs of the map published last. -/
def Repeats (st : Refresh) (f : WireFrame) : Prop := Lists st.published (listing f.text)

/-- A frame that repeats the list sends nothing exactly where it lists nothing. -/
theorem Spent.silent_iff {st : Refresh} (spent : Spent st) (f : WireFrame) :
    (Repeats st f → ¬Sends st f) ↔ (Repeats st f → listing f.text = []) := by
  refine imp_congr_right fun hrepeats => ?_
  rw [sends_iff, ← Bool.not_eq_true, spent.sameMap_iff, not_and_not_right]
  constructor
  · intro h
    by_cases hempty : f.payload = []
    · have htext := f.utf8
      rw [hempty] at htext
      rw [← Option.some.inj htext]
      rfl
    · exact (h hempty).1
  · intro hlisting _
    rw [Repeats, hlisting, lists_nil] at hrepeats
    exact ⟨hlisting, spent.last.trans hrepeats⟩

/-- Repeated lists wake no watcher along a run exactly where all of them are empty. -/
theorem device_list_dedup_iff (fs : List WireFrame) :
    Run.Along onFrame (fun st f => Repeats st f → ¬Sends st f) init fs ↔
      Run.Along onFrame (fun st f => Repeats st f → listing f.text = []) init fs :=
  Run.along_iff (I := Spent) (fun _ f spent => spent.onFrame f) (fun _ f spent => spent.silent_iff f)
    ⟨rfl, fun d hd => by cases hd⟩ fs

/-- The frame that lists one device, `u`. -/
private def oneDevice : WireFrame where
  header := [0x30, 0x30, 0x30, 0x38]
  payload := [0x75, 0x09, 0x64, 0x65, 0x76, 0x69, 0x63, 0x65]
  text := "u\tdevice"
  header_length := rfl
  header_value := by decide
  utf8 := by decide

/-- The same list is sent again when it comes again. -/
theorem repeated_list_sent :
    ¬∀ fs, Run.Along onFrame (fun st f => Repeats st f → ¬Sends st f) init fs := by
  intro h
  have hsecond := (h [oneDevice, oneDevice]).2.1
  have hlisting : listing oneDevice.text = [("u", .device)] := by decide
  have hpublished : (onFrame init oneDevice).published = [deviceOf 0 ("u", .device)] := by decide
  refine hsecond ?_ ⟨List.cons_ne_nil _ _, _, parseDevices_wire _ _, by decide⟩
  intro serial state
  rw [hpublished, hlisting]
  simp [deviceOf, eq_comm]

end Kulua.DeviceRefresh
