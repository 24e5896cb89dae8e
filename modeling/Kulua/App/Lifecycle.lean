import Kulua.App.Ledger
import Kulua.DeviceVisits

/-! The life of a session between the commands of the user and the ticks of `Core`: no
device has two, one that is being set up or running is left alone, whatever is taken out
of an entry has been stopped, and one that has failed stays until somebody asks for
another one or its device is gone. -/

namespace Kulua.App
open Foundation Foundation.Keyed
open DeviceMerge (WellFormed Served visitors outranks serialAt)

/-- No device has two handles that have not been stopped. -/
def Single (trace : List (Lease.Event Nat)) : Prop :=
  ∀ uuid n m, .opened n uuid ∈ trace → .opened m uuid ∈ trace → .closed n ∉ trace →
    .closed m ∉ trace → n = m

/-- A handle that is not in its entry any more has been stopped. -/
def Accounted (c : Core) : Prop :=
  ∀ n uuid, .opened n uuid ∈ c.trace →
    .closed n ∈ c.trace ∨ ∃ h, c.held uuid = some h ∧ h.session = n

/-- `StartSession` and `Retry` leave a session alone that is being set up or running. -/
def Untouched (c c' : Core) : Action → Prop
  | .startSession .. | .retry _ => ∀ uuid h, c.held uuid = some h →
      h.sessionState = .connecting ∨ h.sessionState = .running → c'.held uuid = some h
  | _ => True

/-- The commands that put a new session in the place of one that has failed. -/
def Action.Rebuilds : Action → Prop
  | .startSession .. | .retry _ | .restartAllSessions => True
  | _ => False

def Action.Stops : Action → Prop
  | .disconnect _ | .shutdown => True
  | _ => False

/-- No address of the device is online. -/
def Offline (online : List String) (c : Core) (uuid : Nat) : Prop :=
  ∀ e, c.entry uuid = some e → ∀ a ∈ online, e.device.identity.containsAddr a = false

/-- What may happen to a session that has failed. -/
def Fate (c c' : Core) (a : Action) : Prop :=
  ∀ uuid h, c.held uuid = some h → h.Tombstone →
    (∀ h', c'.held uuid = some h' → h.Continues h' ∨ a.Rebuilds) ∧
    (c'.held uuid = none → a.Stops ∨ Offline c.deviceWatch.online c' uuid)

/-- The life cycle is kept by this step. -/
def Managed (c : Core) (a : Action) : Prop :=
  Single (step c a).trace ∧ Untouched c (step c a) a ∧
    (Lease.Orderly (step c a).trace ∧ Accounted (step c a)) ∧ Fate c (step c a) a

/-- At a tick: of the online addresses none goes to a device whose session has failed, or
its address in use is one of them, or one of those that go to it outranks that. At a
`Retry`: the address in use is online, or no other one of the device is. -/
def Attended (c : Core) : Action → Prop
  | .tick getprop => c.cancelled = true ∨
      ∀ e ∈ c.devices, ∀ h, e.session = some h → h.Tombstone →
        visitors getprop c.index c.deviceWatch.online e.device.id = [] ∨
        e.device.serial ∈ c.deviceWatch.online ∨
        ∃ a ∈ visitors getprop c.index c.deviceWatch.online e.device.id,
          outranks a e.device.serial = true
  | .retry uuid => c.cancelled = true ∨
      ∀ e, c.entry uuid = some e → ∀ h, e.session = some h → h.isFailed = true →
        e.device.serial ∈ c.deviceWatch.online ∨
        ∀ a ∈ c.deviceWatch.online, e.device.identity.containsAddr a = false
  | _ => True

namespace Core
variable {c c' : Core}

theorem Sound.single (sound : Sound c) : Single c.trace :=
  fun _ _ _ hn hm openN openM => sound.ledger.single hn hm openN openM

theorem Sound.accounted (sound : Sound c) : Accounted c := by
  intro n uuid h
  refine (sound.ledger.settled n uuid h).imp_right fun hold => ?_
  simpa [Core.ledger] using hold

theorem Continues.fate (h : Continues c c') (a : Action) : Fate c c' a := by
  intro uuid held hheld _
  have hrel := h uuid
  rw [hheld] at hrel
  refine ⟨fun held' hheld' => ?_, fun hnone => ?_⟩
  · rw [hheld'] at hrel
    cases hrel
    rename_i hcont
    exact Or.inl hcont
  · rw [hnone] at hrel
    cases hrel

/-- The fate of a session that is removed while its device is online. -/
theorem not_fate {a : Action} (uuid : Nat) (addr : String) (keeps : ¬a.Stops)
    (tombstone : ∃ h ∈ c.held uuid, h.Tombstone) (removed : c'.held uuid = none)
    (online : addr ∈ c.deviceWatch.online)
    (known : ∃ e ∈ c'.entry uuid, e.device.identity.containsAddr addr = true) : ¬Fate c c' a := by
  intro fate
  obtain ⟨h, hheld, tombstone⟩ := tombstone
  obtain ⟨e, he, hknown⟩ := known
  have offline := ((fate uuid h hheld tombstone).2 removed).resolve_left keeps e he addr online
  rw [hknown] at offline
  cases offline

/-- A command that rebuilds sessions leaves none of them out. -/
theorem fate_of_isSome {a : Action} (rebuilds : a.Rebuilds)
    (h : ∀ uuid, (c.held uuid).isSome → (c'.held uuid).isSome) : Fate c c' a := by
  intro uuid held hheld _
  refine ⟨fun _ _ => Or.inr rebuilds, fun hnone => ?_⟩
  have := h uuid (by simp [hheld])
  simp [hnone] at this

/-! The commands. -/

theorem fate_cmdDisconnect (c : Core) (serial : String) :
    Fate c (c.cmdDisconnect serial) (.disconnect serial) := by
  intro uuid h hheld _
  refine ⟨fun h' hheld' => Or.inl ?_, fun _ => Or.inl trivial⟩
  unfold cmdDisconnect at hheld'
  split at hheld'
  · rw [hheld] at hheld'
    exact Option.some.inj hheld' ▸ .refl h
  · rw [held_discard] at hheld'
    split at hheld'
    · cases hheld'
    · rw [hheld] at hheld'
      exact Option.some.inj hheld' ▸ .refl h

theorem fate_stopAll (c : Core) : Fate c c.stopAll .shutdown := by
  have none : ∀ uuid, c.stopAll.held uuid = none := fun _ => rfl
  intro uuid h _ _
  refine ⟨fun h' hheld' => ?_, fun _ => Or.inl trivial⟩
  rw [none] at hheld'
  cases hheld'

theorem fate_cmdRestartAllSessions (sound : Sound c) :
    Fate c c.cmdRestartAllSessions .restartAllSessions := by
  refine fate_of_isSome trivial fun uuid hsome => ?_
  refine held_starts (sound.swapped.discards _).index ?_
  by_cases hmem : ∃ d ∈ c.restarting, d.uuid = uuid
  · obtain ⟨d, hd, rfl⟩ := hmem
    exact Or.inr ⟨isSome_entry_stopped sound.index hd, d, hd, rfl⟩
  · refine Or.inl ?_
    have hrel := continues_swapped c uuid
    obtain ⟨h, hheld⟩ := Option.isSome_iff_exists.mp hsome
    rw [hheld] at hrel
    rw [held_discards, if_neg (by simpa using hmem)]
    rcases hswapped : c.swapped.held uuid with _ | h'
    · rw [hswapped] at hrel
      cases hrel
    · rfl

/-- A session that `StartSession` finds stays as it is unless it has failed. -/
theorem held_cmdStartSession (sound : Sound c) (getprop : String → Option String) (serial : String)
    {uuid : Nat} {h : Handle} (hheld : c.held uuid = some h) :
    (c.cmdStartSession getprop serial).held uuid = some h ∨
      h.isFailed = true ∧ ((c.cmdStartSession getprop serial).held uuid).isSome := by
  have listed := sound.listed getprop serial
  have hlisted : (c.listed getprop serial).held uuid = some h := by
    rw [held_listed sound.index, hheld]
  rcases cmdStartSession_cases getprop c serial with hcmd | ⟨e, he, hfailed, hcmd⟩ <;> rw [hcmd]
  · exact Or.inl hlisted
  · have hentry := entry_of_mem listed.index he
    have wf := (listed.discard e.device.uuid).index
    by_cases hv : uuid = e.device.uuid
    · subst hv
      refine Or.inr ⟨hfailed h ?_, ?_⟩
      · simpa [held, hentry] using hlisted
      · rw [held_startSession wf, if_pos ⟨rfl, by simp [held_discard]⟩, entry_discard, if_pos rfl,
          hentry]
        rfl
    · refine Or.inl ?_
      rw [held_startSession wf, if_neg fun h => hv h.1, held_discard, if_neg hv, hlisted]

theorem fate_cmdStartSession (sound : Sound c) (getprop : String → Option String)
    (serial : String) :
    Fate c (c.cmdStartSession getprop serial) (.startSession getprop serial) := by
  refine fate_of_isSome trivial fun uuid hsome => ?_
  obtain ⟨h, hheld⟩ := Option.isSome_iff_exists.mp hsome
  rcases held_cmdStartSession sound getprop serial hheld with hsame | ⟨-, hsome⟩
  · rw [hsame]
    rfl
  · exact hsome

theorem untouched_cmdStartSession (sound : Sound c) (getprop : String → Option String)
    (serial : String) :
    Untouched c (c.cmdStartSession getprop serial) (.startSession getprop serial) := by
  intro uuid h hheld hactive
  refine (held_cmdStartSession sound getprop serial hheld).resolve_right fun hfailed => ?_
  have hstate : h.sessionState = .failed := by simpa [Handle.isFailed] using hfailed.1
  rw [hstate] at hactive
  simp at hactive

/-- A session that is retried makes room for another one where its device is online under
the address in use; the others stay as they are. -/
theorem held_cmdRetry (sound : Sound c) {e : DeviceEntry} {h : Handle}
    (he : c.entry e.device.uuid = some e) (hsession : e.session = some h)
    (hfailed : h.isFailed = true) :
    (((c.cmdRetry e.device.uuid).held e.device.uuid).isSome ↔
      e.device.serial ∈ c.deviceWatch.online) ∧
    ((c.cmdRetry e.device.uuid).entry e.device.uuid).map (·.device) = some e.device ∧
    ∀ uuid, uuid ≠ e.device.uuid → (c.cmdRetry e.device.uuid).held uuid = c.held uuid := by
  have hheld : c.held e.device.uuid = some h := held_eq_some.mpr ⟨e, he, hsession⟩
  rcases cmdRetry_cases c e.device.uuid with ⟨-, hactive⟩ | ⟨e', h', he', -, -, hretry⟩
  · rw [hactive h hheld] at hfailed
    cases hfailed
  · obtain rfl : e = e' := Option.some.inj (he.symm.trans he')
    have wf := wellFormed_takeAndStop sound.index e.device.uuid
    rw [hretry, held_emit, entry_emit]
    split
    · rename_i honline
      refine ⟨iff_of_true ?_ honline, ?_, fun uuid hne => ?_⟩
      · rw [held_startSession wf, if_pos ⟨rfl, by simp [held_takeAndStop]⟩, entry_takeAndStop,
          if_pos rfl, he]
        rfl
      · rw [entry_startSession wf, if_pos ⟨rfl, by simp [held_takeAndStop]⟩, entry_takeAndStop,
          if_pos rfl, he]
        rfl
      · rw [held_emit, held_startSession wf, if_neg fun h => hne h.1, held_takeAndStop, if_neg hne]
    · rename_i honline
      refine ⟨iff_of_false ?_ honline, ?_, fun uuid hne => ?_⟩
      · simp [held_takeAndStop]
      · rw [entry_takeAndStop, if_pos rfl, he]
        rfl
      · rw [held_emit, held_takeAndStop, if_neg hne]

theorem untouched_cmdRetry (sound : Sound c) (uuid : Nat) :
    Untouched c (c.cmdRetry uuid) (.retry uuid) := by
  intro v h hheld hactive
  rcases cmdRetry_cases c uuid with ⟨hsame, -⟩ | ⟨e, h', he, hsession, hfailed, -⟩
  · rw [hsame, hheld]
  · obtain rfl := (mem_of_entry he).2
    by_cases hv : v = e.device.uuid
    · subst hv
      have hheld' : c.held e.device.uuid = some h' := held_eq_some.mpr ⟨e, he, hsession⟩
      obtain rfl := Option.some.inj (hheld.symm.trans hheld')
      have hstate : h.sessionState = .failed := by simpa [Handle.isFailed] using hfailed
      rw [hstate] at hactive
      simp at hactive
    · rw [(held_cmdRetry sound he hsession hfailed).2.2 v hv, hheld]

theorem fate_cmdRetry_iff (sound : Sound c) (uuid : Nat) :
    Fate c (c.cmdRetry uuid) (.retry uuid) ↔
      ∀ e, c.entry uuid = some e → ∀ h, e.session = some h → h.isFailed = true →
        e.device.serial ∈ c.deviceWatch.online ∨
        ∀ a ∈ c.deviceWatch.online, e.device.identity.containsAddr a = false := by
  rcases cmdRetry_cases c uuid with ⟨hsame, hactive⟩ | ⟨e, h, he, hsession, hfailed, -⟩
  · refine iff_of_true ?_ fun e he h hsession hfailed => ?_
    · rw [hsame]
      exact (Continues.of_held fun _ => rfl).fate _
    · rw [hactive h (held_eq_some.mpr ⟨e, he, hsession⟩)] at hfailed
      cases hfailed
  · obtain rfl := (mem_of_entry he).2
    obtain ⟨hsome, hdevice, hother⟩ := held_cmdRetry sound he hsession hfailed
    have hheld : c.held e.device.uuid = some h := held_eq_some.mpr ⟨e, he, hsession⟩
    constructor
    · intro fate e' he' h' _ _
      obtain rfl : e = e' := Option.some.inj (he.symm.trans he')
      refine or_iff_not_imp_left.mpr fun honline => ?_
      have hnone : (c.cmdRetry e.device.uuid).held e.device.uuid = none := by
        rw [← hsome] at honline
        simpa using honline
      have hfailed' : h.sessionState = .failed := by simpa [Handle.isFailed] using hfailed
      rcases (fate e.device.uuid h hheld (Or.inl hfailed')).2 hnone with stops | offline
      · exact stops.elim
      · obtain ⟨e₁, he₁, hdevice₁⟩ := Option.map_eq_some_iff.mp hdevice
        rw [← hdevice₁]
        exact offline e₁ he₁
    · intro cond v h' hheld' _
      by_cases hv : v = e.device.uuid
      · subst hv
        refine ⟨fun _ _ => Or.inr trivial, fun hnone => Or.inr fun e₁ he₁ => ?_⟩
        have honline : e.device.serial ∉ c.deviceWatch.online := by
          rw [← hsome, hnone]
          simp
        rw [he₁, Option.map_some, Option.some.injEq] at hdevice
        rw [hdevice]
        exact (cond e he h hsession hfailed).resolve_left honline
      · rw [hother v hv, hheld']
        refine ⟨fun h'' heq => Or.inl ?_, fun hnone => by cases hnone⟩
        exact Option.some.inj heq ▸ .refl h'

/-! The tick. -/

theorem index_mergeOnline (getprop : String → Option String) (c : Core) (online : List String) :
    (c.mergeOnline getprop online).index = DeviceMerge.mergeOnline getprop c.index online := by
  induction online generalizing c with
  | nil => rfl
  | cons a online ih =>
      rw [mergeOnline, List.foldl_cons, ← mergeOnline, ih, index_insertDevice,
        DeviceMerge.mergeOnline_cons]

theorem held_mergeOnline (sound : Sound c) (getprop : String → Option String)
    (online : List String) (v : Nat) : (c.mergeOnline getprop online).held v = c.held v := by
  induction online generalizing c with
  | nil => rfl
  | cons a online ih =>
      rw [mergeOnline, List.foldl_cons, ← mergeOnline, ih (sound.insertDevice getprop a .device),
        held_insertDevice sound.index]

/-- The merge loop keeps the entries and their ids. -/
theorem entry_mergeOnline (sound : Sound c) (getprop : String → Option String)
    (online : List String) {v : Nat} {e : DeviceEntry} (he : c.entry v = some e) :
    ∃ e', (c.mergeOnline getprop online).entry v = some e' ∧ e'.device.id = e.device.id := by
  induction online generalizing c e with
  | nil => exact ⟨e, he, rfl⟩
  | cons a online ih =>
      have sound' := sound.insertDevice getprop a .device
      rcases entry_insertDevice sound.index getprop a .device v with
        h | ⟨e', he', h⟩ | ⟨hnone, -⟩
      · exact ih sound' (h.trans he)
      · obtain rfl := Option.some.inj (he.symm.trans he')
        obtain ⟨e'', he'', hid⟩ := ih sound' h
        exact ⟨e'', he'', hid⟩
      · rw [he] at hnone
        cases hnone

theorem serialAt_index (wf : WellFormed c.index) {e : DeviceEntry} (he : e ∈ c.devices) :
    serialAt c.index e.device.id = some e.device.serial := by
  have hmem : e.view ∈ c.index.entries := List.mem_map_of_mem he
  have := lookup_of_mem wf.ids hmem
  rw [serialAt, DeviceMerge.entryOf]
  exact congrArg _ this

theorem served_index (wf : WellFormed c.index) {e : DeviceEntry} (he : e ∈ c.devices)
    (online : Finset String) :
    Served c.index online e.device.id ↔
      ∃ a ∈ online, e.device.identity.containsAddr a = true := by
  have hmem : e.view ∈ c.index.entries := List.mem_map_of_mem he
  have := fun a => wf.contains_iff_slotAt (a := a) hmem
  exact exists_congr fun a => and_congr_right fun _ => (this a).symm

theorem mem_toStop (wf : WellFormed c.index) (online : List String) {v : Nat} :
    v ∈ (c.devices.filter fun e =>
      e.session.isSome && decide (e.device.serial ∉ online)).map (·.device.uuid) ↔
    ∃ e, c.entry v = some e ∧ e.session.isSome ∧ e.device.serial ∉ online := by
  simp only [List.mem_map, List.mem_filter, Bool.and_eq_true, decide_eq_true_eq]
  constructor
  · rintro ⟨e, ⟨he, hsession, hserial⟩, rfl⟩
    exact ⟨e, entry_of_mem wf he, hsession, hserial⟩
  · rintro ⟨e, he, hsession, hserial⟩
    exact ⟨e, ⟨(mem_of_entry he).1, hsession, hserial⟩, (mem_of_entry he).2⟩

/-- After the merge loop a session goes on if the address in use is online, and is stopped
if it is not. -/
theorem held_onTick (sound : Sound c) (getprop : String → Option String) {v : Nat}
    {e : DeviceEntry} (he : (c.mergeOnline getprop c.deviceWatch.online).entry v = some e) :
    ((c.onTick getprop).entry v).map (·.device) = some e.device ∧
    (e.device.serial ∈ c.deviceWatch.online →
      Option.Rel Handle.Continues (c.held v) ((c.onTick getprop).held v)) ∧
    (e.device.serial ∉ c.deviceWatch.online → (c.onTick getprop).held v = none) := by
  have dead := (sound.mergeOnline getprop c.deviceWatch.online).checkDeadSessions
  have hdead : (c.mergeOnline getprop c.deviceWatch.online).checkDeadSessions.entry v =
      some (e.mapSession .checkDead) := by
    rw [checkDeadSessions, entry_map (DeviceEntry.mapSession_device _), he]
    rfl
  have hrel := continues_checkDeadSessions (c.mergeOnline getprop c.deviceWatch.online) v
  rw [held_mergeOnline sound] at hrel
  have hstop := mem_toStop dead.index c.deviceWatch.online (v := v)
  rw [onTick, pushSessionList_eq]
  refine ⟨?_, fun honline => ?_, fun honline => ?_⟩
  · change ((List.foldl discard _ _).entry v).map _ = _
    rw [entry_discards, hdead]
    split <;> rfl
  · change Option.Rel _ _ ((List.foldl discard _ _).held v)
    rw [held_discards, if_neg]
    · exact hrel
    · rw [hstop]
      rintro ⟨e', he', -, hserial⟩
      obtain rfl := Option.some.inj (hdead.symm.trans he')
      exact hserial honline
  · change (List.foldl discard _ _).held v = none
    rw [held_discards]
    split
    · rfl
    · rename_i hkept
      rw [hstop] at hkept
      rcases hsession : (e.mapSession .checkDead).session with _ | h
      · rw [held, hdead]
        exact hsession
      · exact absurd ⟨_, hdead, by simp [hsession], honline⟩ hkept

/-- The entry that the merge loop leaves: whether its address in use is online, and whether
any of its addresses is. -/
theorem entry_after_merge (sound : Sound c) (getprop : String → Option String)
    (online : List String) {e : DeviceEntry} (he : e ∈ c.devices) :
    ∃ e', (c.mergeOnline getprop online).entry e.device.uuid = some e' ∧
      (e'.device.serial ∈ online ↔ e.device.serial ∈ online ∨
        ∃ a ∈ visitors getprop c.index online e.device.id, outranks a e.device.serial = true) ∧
      ((∀ a ∈ online, e'.device.identity.containsAddr a = false) ↔
        visitors getprop c.index online e.device.id = []) := by
  have merged := (sound.mergeOnline getprop online).index
  obtain ⟨e', he', hid⟩ := entry_mergeOnline sound getprop online (entry_of_mem sound.index he)
  have hmem := (mem_of_entry he').1
  have hserial := serialAt_index merged hmem
  have hserved := served_index merged hmem online.toFinset
  have hvisited := DeviceMerge.served_iff_visited getprop sound.index online e.device.id
  rw [hid, index_mergeOnline] at hserial hserved
  refine ⟨e', he', ?_, ?_⟩
  · have hreached := DeviceMerge.reached_iff getprop sound.index online
      (List.mem_map_of_mem (f := DeviceEntry.view) he)
    refine Iff.trans ?_ hreached
    constructor
    · exact fun honline => ⟨_, honline, hserial⟩
    · rintro ⟨now, honline, hnow⟩
      obtain rfl := Option.some.inj (hserial.symm.trans hnow)
      exact honline
  · rw [← not_iff_not, ← ne_eq (visitors ..), ← hvisited, hserved]
    simp

/-- A session that has failed survives the tick, or its device is gone, exactly when no
online address was filed under it or the address in use was or came to be online. -/
theorem fate_onTick_iff (sound : Sound c) (getprop : String → Option String) :
    Fate c (c.onTick getprop) (.tick getprop) ↔
      ∀ e ∈ c.devices, ∀ h, e.session = some h → h.Tombstone →
        visitors getprop c.index c.deviceWatch.online e.device.id = [] ∨
        e.device.serial ∈ c.deviceWatch.online ∨
        ∃ a ∈ visitors getprop c.index c.deviceWatch.online e.device.id,
          outranks a e.device.serial = true := by
  constructor
  · intro fate e he h hsession tombstone
    obtain ⟨e', he', hreached, hgone⟩ :=
      entry_after_merge sound getprop c.deviceWatch.online he
    have hheld : c.held e.device.uuid = some h :=
      held_eq_some.mpr ⟨e, entry_of_mem sound.index he, hsession⟩
    obtain ⟨hdevice, -, hstopped⟩ := held_onTick sound getprop he'
    rw [← hreached, ← hgone]
    refine or_iff_not_imp_right.mpr fun honline => ?_
    rcases (fate _ h hheld tombstone).2 (hstopped honline) with stops | offline
    · exact stops.elim
    · obtain ⟨e₁, he₁, hdevice₁⟩ := Option.map_eq_some_iff.mp hdevice
      rw [← hdevice₁]
      exact offline e₁ he₁
  · intro cond v h hheld tombstone
    obtain ⟨e, he, hsession⟩ := held_eq_some.mp hheld
    obtain ⟨hmem, rfl⟩ := mem_of_entry he
    obtain ⟨e', he', hreached, hgone⟩ :=
      entry_after_merge sound getprop c.deviceWatch.online hmem
    obtain ⟨hdevice, hgoes, hstopped⟩ := held_onTick sound getprop he'
    have hcond := cond e hmem h hsession tombstone
    rw [← hreached, ← hgone] at hcond
    refine ⟨fun h' hheld' => Or.inl ?_, fun hnone => Or.inr fun e₁ he₁ => ?_⟩
    · by_cases honline : e'.device.serial ∈ c.deviceWatch.online
      · have hrel := hgoes honline
        rw [hheld, hheld'] at hrel
        cases hrel
        rename_i hcont
        exact hcont
      · rw [hstopped honline] at hheld'
        cases hheld'
    · rw [he₁, Option.map_some, Option.some.injEq] at hdevice
      rw [hdevice]
      refine hcond.resolve_right fun honline => ?_
      have hrel := hgoes honline
      rw [hheld, hnone] at hrel
      cases hrel

end Core

theorem managed_iff_attended {c : Core} (sound : c.Sound) (a : Action) :
    Managed c a ↔ Attended c a := by
  have after := sound.step a
  have always : Managed c a ↔ Untouched c (step c a) a ∧ Fate c (step c a) a := by
    constructor
    · exact fun h => ⟨h.2.1, h.2.2.2⟩
    · exact fun h => ⟨after.single, h.1, ⟨after.ledger.orderly, after.accounted⟩, h.2⟩
  rw [always]
  unfold step
  by_cases hcancelled : c.cancelled = true
  · rw [if_pos hcancelled]
    refine iff_of_true ⟨?_, (Core.Continues.of_held fun _ => rfl).fate a⟩ ?_
    · cases a <;> simp only [Untouched] <;> exact fun _ _ hheld _ => hheld
    · cases a <;> simp only [Attended] <;> exact Or.inl hcancelled
  · rw [if_neg hcancelled]
    cases a with
    | tick getprop =>
        rw [Attended, or_iff_right hcancelled, ← Core.fate_onTick_iff sound getprop]
        exact and_iff_right trivial
    | retry uuid =>
        rw [Attended, or_iff_right hcancelled, ← Core.fate_cmdRetry_iff sound uuid]
        exact and_iff_right (Core.untouched_cmdRetry sound uuid)
    | disconnect serial => exact iff_of_true ⟨trivial, Core.fate_cmdDisconnect c serial⟩ trivial
    | restartAllSessions =>
        exact iff_of_true ⟨trivial, Core.fate_cmdRestartAllSessions sound⟩ trivial
    | startSession getprop serial =>
        exact iff_of_true ⟨Core.untouched_cmdStartSession sound getprop serial,
          Core.fate_cmdStartSession sound getprop serial⟩ trivial
    | updateConfig uuid clipboardSync notificationSync audioSync volume =>
        exact iff_of_true ⟨trivial, (Core.continues_cmdUpdateConfig c _ _ _ _ _).fate _⟩ trivial
    | deviceName serial name =>
        exact iff_of_true ⟨trivial, (Core.continues_onDeviceName sound.index serial name).fate _⟩
          trivial
    | shutdown => exact iff_of_true ⟨trivial, Core.fate_stopAll c⟩ trivial
    | task session event =>
        exact iff_of_true ⟨trivial, (Core.continues_onTask c session event).fate _⟩ trivial
    | track watch =>
        exact iff_of_true ⟨trivial, (Core.Continues.of_held fun _ => rfl).fate _⟩ trivial
    | settings audioCodec =>
        exact iff_of_true ⟨trivial, (Core.Continues.of_held fun _ => rfl).fate _⟩ trivial
    | rehash order =>
        exact iff_of_true ⟨trivial, (Core.continues_rehash sound.index order).fate _⟩ trivial

/-- Over any sequence of commands, ticks and events of the session tasks, the life cycle of
the sessions is kept by every step exactly when at every tick and every `Retry` the devices
whose session has failed are reached under an address that is online, if any of theirs is. -/
theorem session_lifecycle_iff (actions : List Action) :
    Run.Along step Managed init actions ↔ Run.Along step Attended init actions :=
  Run.along_iff (I := Core.Sound) (fun _ a sound => sound.step a)
    (fun _ a sound => managed_iff_attended sound a) Core.sound_init actions

/-- A session that has failed is removed while its device is online over WiFi: the address
in use is the USB one, which has gone. -/
theorem session_lifecycle_unplugged :
    let getprop : String → Option String := fun _ => some "D1"
    ¬Run.Along step Managed init [
      .track ⟨[("D1", .device), ("192.168.1.5:5555", .device)], by decide⟩, .tick getprop,
      .startSession getprop "D1", .task 0 .failed,
      .track ⟨[("192.168.1.5:5555", .device)], by decide⟩, .tick getprop] := by
  intro getprop h
  obtain ⟨-, -, -, -, -, ⟨-, -, -, fate⟩, -⟩ := h
  exact Core.not_fate 0 "192.168.1.5:5555" id (by decide) (by decide) (by decide) (by decide) fate

end Kulua.App
