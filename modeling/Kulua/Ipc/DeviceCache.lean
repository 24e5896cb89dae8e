import Kulua.Ipc.Correlation

/-! The device list of the UI. It comes with the answer to the first request and with the news, and
each of them carries the list of the moment in which it was written. -/

namespace Kulua.Ipc.Rpc
open Foundation Foundation.Run

/-- The device list in a message that updates the one of the UI. -/
def Letter.devices? (l : Letter) : Option (List Proto.Device) :=
  match l.content with
  | .event (.deviceUpdated m) => some m.devices
  | .response ⟨1, some (.deviceList m), none⟩ => some m.devices
  | _ => none

/-- The versions of the device list that the UI shows and is going to show. -/
def State.dates (s : State) : List Nat :=
  s.shown.toList ++ (s.toUi.filter (·.devices?.isSome)).map (·.asOf)

structure Cached (s : State) : Prop where
  length : s.published.length = s.merged.version + 1
  current : s.published[s.merged.version]? = some s.merged.value
  lists : ∀ l ∈ s.toUi, ∀ ds, l.devices? = some ds → s.published[l.asOf]? = some ds
  ordered : (s.dates ++ [s.merged.version]).Pairwise (· ≤ ·)
  shows : ∀ v, s.shown = some v →
    ∃ ds, s.published[v]? = some ds ∧ s.devices = ds.map deviceToInfo
  unseen : s.shown = none → s.devices = []
  seen : s.seen ≤ s.merged.version
  told : ∀ r, (hello 0, r) ∈ s.served → ∃ d ∈ s.dates.getLast?, s.seen ≤ d

variable {daemon : Daemon} {s s' : State} {a : Action}

theorem dates_write (c : Content) :
    (s.write c).dates =
      s.dates ++ if (Letter.mk c s.merged.version).devices?.isSome then [s.merged.version] else [] := by
  simp only [State.dates, State.write, List.filter_append, List.map_append, List.append_assoc]
  by_cases h : (Letter.mk c s.merged.version).devices?.isSome <;> simp [h]

theorem last_write {c : Content} (h : (Letter.mk c s.merged.version).devices?.isSome = true) :
    s.merged.version ∈ (s.write c).dates.getLast? := by
  rw [dates_write, if_pos h]
  simp

/-- What a message does that no call waits for. -/
theorem onLetter_devices {l : Letter} {t : State}
    (other : ∀ r, l.content = .response r → t.pending.find? (·.1 = r.id) = none) :
    (t.onLetter l).devices = (l.devices?.map fun ds => ds.map deviceToInfo).getD t.devices ∧
      (t.onLetter l).shown = (l.devices?.map fun _ => l.asOf).or t.shown := by
  obtain ⟨content, asOf⟩ := l
  cases content with
  | response r =>
    simp only [State.onLetter, State.onResponse, other r rfl, Letter.devices?]
    unfold State.onHello
    split
    · exact ⟨rfl, rfl⟩
    · exact ⟨rfl, rfl⟩
    · next hdevices _ =>
      split
      · next h => cases h
      · next m h =>
        cases h
        exact absurd rfl (hdevices m)
      · exact ⟨rfl, rfl⟩
  | event e =>
    cases e with
    | deviceUpdated m => exact ⟨rfl, rfl⟩
    | _ => exact ⟨rfl, rfl⟩

namespace Cached

theorem le_version (h : Cached s) {d : Nat} (hd : d ∈ s.dates) : d ≤ s.merged.version :=
  (List.pairwise_append.mp h.ordered).2.2 d hd _ (List.mem_singleton_self _)

/-- A message with the list of this moment, or without one, is sent. -/
theorem write (h : Cached s) {c : Content}
    (hlist : ∀ ds, (Letter.mk c s.merged.version).devices? = some ds → ds = s.merged.value) :
    Cached (s.write c) := by
  have hlast : ∀ d ∈ s.dates.getLast?, s.seen ≤ d →
      ∃ d ∈ (s.write c).dates.getLast?, s.seen ≤ d := by
    intro d hd hle
    rw [dates_write]
    split
    · exact ⟨s.merged.version, by simp, h.seen⟩
    · exact ⟨d, by simpa using hd, hle⟩
  refine ⟨h.length, h.current, fun l hl ds hds => ?_, ?_, h.shows, h.unseen, h.seen,
    fun r hr => ?_⟩
  · rcases List.mem_append.mp hl with hl | hl
    · exact h.lists l hl ds hds
    · obtain rfl := List.mem_singleton.mp hl
      rw [hlist ds hds]
      exact h.current
  · rw [dates_write]
    split
    · refine List.pairwise_append.mpr ⟨h.ordered, List.pairwise_singleton _ _, fun d hd v hv => ?_⟩
      obtain rfl := List.mem_singleton.mp hv
      rcases List.mem_append.mp hd with hd | hd
      · exact h.le_version hd
      · exact (List.mem_singleton.mp hd).le
    · rw [List.append_nil]
      exact h.ordered
  · obtain ⟨d, hd, hle⟩ := h.told r hr
    exact hlast d hd hle

/-- The connection reads a message. -/
theorem read (h : Cached s) {l : Letter} {rest : List Letter} (head : s.toUi = l :: rest)
    {t : State} (hpublished : t.published = s.published) (hmerged : t.merged = s.merged)
    (hseen : t.seen = s.seen) (hserved : t.served = s.served) (htoUi : t.toUi = rest)
    (hdevices : t.devices = (l.devices?.map fun ds => ds.map deviceToInfo).getD s.devices)
    (hshown : t.shown = (l.devices?.map fun _ => l.asOf).or s.shown) : Cached t := by
  have hdates : s.dates = s.shown.toList ++
      ((l.devices?.map fun _ => l.asOf).toList ++ (rest.filter (·.devices?.isSome)).map (·.asOf)) := by
    rw [State.dates, head, List.filter_cons]
    cases l.devices? <;> simp
  have hdates' : t.dates = ((l.devices?.map fun _ => l.asOf).or s.shown).toList ++
      (rest.filter (·.devices?.isSome)).map (·.asOf) := by
    rw [State.dates, htoUi, hshown]
  have hl : ∀ ds, l.devices? = some ds → s.published[l.asOf]? = some ds :=
    h.lists l (by rw [head]; exact List.mem_cons_self ..)
  refine ⟨?_, ?_, fun l' hl' ds hds => ?_, ?_, fun v hv => ?_, fun hnone => ?_, ?_, fun r hr => ?_⟩
  · rw [hpublished, hmerged]
    exact h.length
  · rw [hpublished, hmerged]
    exact h.current
  · rw [hpublished]
    refine h.lists l' ?_ ds hds
    rw [head]
    exact List.mem_cons_of_mem _ (htoUi ▸ hl')
  · refine h.ordered.sublist ?_
    rw [hmerged, hdates, hdates']
    refine List.Sublist.append ?_ (List.Sublist.refl _)
    cases l.devices? with
    | none => exact List.Sublist.refl _
    | some ds => exact List.sublist_append_right _ _
  · cases hds : l.devices? with
    | none =>
      simp only [hds, Option.map_none, Option.none_or, Option.getD_none] at hdevices hshown
      rw [hpublished, hdevices]
      exact h.shows v (hshown.symm.trans hv)
    | some ds =>
      simp only [hds, Option.map_some, Option.some_or, Option.getD_some] at hdevices hshown
      obtain rfl := Option.some.inj (hshown.symm.trans hv)
      exact ⟨ds, by rw [hpublished, hl ds hds], hdevices⟩
  · cases hds : l.devices? with
    | none =>
      simp only [hds, Option.map_none, Option.none_or, Option.getD_none] at hdevices hshown
      rw [hdevices, h.unseen (hshown.symm.trans hnone)]
    | some ds => simp [hshown, hds] at hnone
  · rw [hseen, hmerged]
    exact h.seen
  · obtain ⟨d, hd, hle⟩ := h.told r (hserved ▸ hr)
    refine ⟨d, ?_, hseen ▸ hle⟩
    rw [hdates]  at hd
    rw [hdates']
    cases hds : l.devices? with
    | none => simpa [hds] using hd
    | some ds =>
      rw [hds, Option.map_some, Option.toList_some, List.singleton_append,
        List.getLast?_append_of_ne_nil _ (List.cons_ne_nil _ _)] at hd
      simpa using hd

/-- The news of the device list are the answer to the first request. -/
theorem answered (h : Cached s) {around : Surroundings} (merged : around.merged = s.merged.value)
    (request : Proto.Request) (disk' : Disk) :
    Cached { s.write
        (.response (Handlers.dispatchRequest daemon around request s.disk).response) with
      serving := none
      disk := disk'
      served := s.served ++
        [(request, (Handlers.dispatchRequest daemon around request s.disk).response)] } := by
  have hanswer : Handlers.Answer around.merged request.id
      (Handlers.dispatchRequest daemon around request s.disk).response :=
    Handlers.answer_dispatchRequest
  have hwrite := h.write (c := .response
      (Handlers.dispatchRequest daemon around request s.disk).response) fun ds hds => by
    unfold Letter.devices? at hds
    split at hds
    · next hc => cases hc
    · next m hc =>
      cases hds
      rw [← merged]
      refine hanswer.devices_eq ?_
      rw [Content.response.inj hc]
    · cases hds
  refine ⟨hwrite.length, hwrite.current, hwrite.lists, hwrite.ordered, hwrite.shows, hwrite.unseen,
    hwrite.seen, fun r hr => ?_⟩
  rcases List.mem_append.mp hr with hr | hr
  · exact hwrite.told r hr
  · obtain ⟨rfl, -⟩ := Prod.mk.inj (List.mem_singleton.mp hr)
    have hlist : (Letter.mk (.response (Handlers.dispatchRequest daemon around (hello 0)
        s.disk).response) s.merged.version).devices? = some around.merged := rfl
    exact ⟨s.merged.version, last_write (Option.isSome_of_eq_some hlist), h.seen⟩

theorem published (h : Cached s) (devices : List Proto.Device) :
    Cached { s with merged := s.merged.send devices, published := s.published ++ [devices] } := by
  have hold : ∀ {v : Nat} {ds : List Proto.Device}, s.published[v]? = some ds →
      (s.published ++ [devices])[v]? = some ds := by
    intro v ds hv
    rw [List.getElem?_append_left (List.getElem?_eq_some_iff.mp hv).1]
    exact hv
  refine ⟨?_, ?_, fun l hl ds hds => hold (h.lists l hl ds hds), ?_, fun v hv => ?_, h.unseen,
    Nat.le_succ_of_le h.seen, h.told⟩
  · rw [List.length_append, h.length]
    rfl
  · change (s.published ++ [devices])[s.merged.version + 1]? = some devices
    rw [← h.length]
    simp
  · refine List.pairwise_append.mpr ⟨(List.pairwise_append.mp h.ordered).1,
      List.pairwise_singleton _ _, fun d hd v hv => ?_⟩
    obtain rfl := List.mem_singleton.mp hv
    exact Nat.le_succ_of_le (h.le_version hd)
  · obtain ⟨ds, hds, hdevices⟩ := h.shows v hv
    exact ⟨ds, hold hds, hdevices⟩

theorem move (h : Cached s) (held : Held s) (numbered : Numbered s) (room : Roomy s)
    (move : Move daemon s a s') : Cached s' := by
  cases move with
  | replied serving head reply found =>
    rename_i l rest r i k
    -- the ids of the calls are not those of the requests of the beginning
    have hdevices : l.devices? = none := by
      obtain ⟨q, hq, hqid⟩ := held.keys _ (List.mem_of_find?_eq_some found)
      have hi : i = r.id := by simpa using List.find?_some found
      have hlt := lt_of_requestOf hq
      rw [Roomy] at room
      have hid : r.id ≠ 1 := by
        rw [← hi, show i = idOf k from hqid.symm.trans (numbered.ids hq)]
        exact (hello_id_ne_idOf (n := 0) (by omega)).symm
      unfold Letter.devices?
      rw [reply]
      split
      · next hc => cases hc
      · next m hc =>
        cases hc
        exact absurd rfl hid
      · rfl
    exact h.read head rfl rfl rfl rfl rfl (by rw [hdevices]; rfl) (by rw [hdevices]; rfl)
  | heard serving head other news =>
    rename_i l rest d v p
    have hnews := onLetter_devices (t := { s with toUi := rest }) other
    rw [news] at hnews
    exact h.read head rfl rfl rfl rfl rfl hnews.1 hnews.2
  | answered busy given around merged => exact h.answered merged _ _
  | published devices => exact h.published devices
  | notified idle known =>
    have hwrite := h.write (c := .event (.deviceUpdated ⟨s.merged.value⟩)) fun ds hds => by
      cases hds
      rfl
    have hlast := last_write (s := s) (c := .event (.deviceUpdated ⟨s.merged.value⟩)) rfl
    exact ⟨hwrite.length, hwrite.current, hwrite.lists, hwrite.ordered, hwrite.shows,
      hwrite.unseen, known, fun r _ => ⟨s.merged.version, hlast, known⟩⟩
  | told idle other =>
    rename_i e
    refine h.write fun ds hds => ?_
    cases e with
    | deviceUpdated m => exact absurd rfl (other m)
    | _ => cases hds
  | _ =>
    exact ⟨h.length, h.current, h.lists, h.ordered, h.shows, h.unseen, h.seen, h.told⟩

/-- The list that is shown is not replaced by an older one. -/
theorem shown_le (h : Cached s) (move : Move daemon s a s') {v : Nat} (hv : s.shown = some v) :
    ∃ w, s'.shown = some w ∧ v ≤ w := by
  cases move with
  | heard serving head other news =>
    rename_i l rest d w p
    have hnews := onLetter_devices (t := { s with toUi := rest }) other
    rw [news] at hnews
    have hw : w = (l.devices?.map fun _ => l.asOf).or s.shown := hnews.2
    cases hds : l.devices? with
    | none => exact ⟨v, by rw [hw, hds, ← hv]; rfl, le_rfl⟩
    | some ds =>
      refine ⟨l.asOf, by rw [hw, hds]; rfl, ?_⟩
      have hordered := (List.pairwise_append.mp h.ordered).1
      rw [State.dates, hv, head, List.filter_cons_of_pos (by simp [hds])] at hordered
      exact (List.pairwise_cons.mp hordered).1 _ (List.mem_cons_self ..)
  | _ => exact ⟨v, hv, le_rfl⟩

end Cached

variable {published : List (List Proto.Device)} {devices : List Proto.Device} {seen : Nat}
  {disk : Disk} {actions more : List Action}

theorem cached_init (h : seen ≤ published.length) : Cached (init published devices seen disk) where
  length := by simp [init]
  current := by simp [init]
  lists := fun _ hl => absurd hl List.not_mem_nil
  ordered := List.pairwise_singleton _ _
  shows := fun _ hv => by cases hv
  unseen := fun _ => rfl
  seen := h
  told := fun _ hr => absurd hr List.not_mem_nil

theorem cached_step (h : Inv daemon s ∧ Cached s) (room : Roomy s) (a : Action) :
    Inv daemon (step daemon s a) ∧ Cached (step daemon s a) := by
  refine ⟨h.1.step room a, ?_⟩
  rcases move_of_step s a with ⟨idle, -⟩ | move
  · rw [idle]
    exact h.2
  · exact h.2.move h.1.held h.1.numbered room move

theorem shown_step (h : Cached s) {v w : Nat} (hw : s.shown = some w) (hle : v ≤ w) (a : Action) :
    ∃ w, (step daemon s a).shown = some w ∧ v ≤ w := by
  rcases move_of_step s a with ⟨idle, -⟩ | move
  · rw [idle]
    exact ⟨w, hw, hle⟩
  · obtain ⟨w', hw', hle'⟩ := h.shown_le move hw
    exact ⟨w', hw', hle.trans hle'⟩

/-- The list that the UI shows is one that the daemon has published, and no older one takes its
place; when everything has come that the daemon had to tell, it is the last one. -/
theorem device_cache (hseen : seen ≤ published.length)
    (room : Roomy (run (step daemon) (init published devices seen disk) (actions ++ more))) :
    let s := run (step daemon) (init published devices seen disk) actions
    let t := run (step daemon) (init published devices seen disk) (actions ++ more)
    (∀ v, s.shown = some v → ∃ w, t.shown = some w ∧ v ≤ w) ∧
      (t.devices = [] ∧ t.shown = none ∨
        ∃ v ds, t.shown = some v ∧ t.published[v]? = some ds ∧ t.devices = ds.map deviceToInfo) ∧
      (t.toUi = [] → t.seen = t.merged.version → (∃ r, (hello 0, r) ∈ t.served) →
        t.devices = t.merged.value.map deviceToInfo) := by
  intro s t
  have along := roomy_along room
  rw [along_append] at along
  have hs : Inv daemon s ∧ Cached s :=
    invariant (I := fun u => Inv daemon u ∧ Cached u) (fun _ a h room => cached_step h room a)
      ⟨inv_init, cached_init hseen⟩ along.1
  have ht : t = run (step daemon) s more := run_append _ _ _ _
  have hcached : Cached t := by
    rw [ht]
    exact (invariant (I := fun u => Inv daemon u ∧ Cached u)
      (fun _ a h room => cached_step h room a) hs along.2).2
  refine ⟨fun v hv => ?_, ?_, fun htoUi hversion ⟨r, hr⟩ => ?_⟩
  · have hrun := invariant (C := fun s _ => Roomy s)
      (I := fun u => (Inv daemon u ∧ Cached u) ∧ ∃ w, u.shown = some w ∧ v ≤ w)
      (fun _ a h room => ⟨cached_step h.1 room a,
        h.2.elim fun w hw => shown_step h.1.2 hw.1 hw.2 a⟩) ⟨hs, v, hv, le_rfl⟩ along.2
    rw [ht]
    exact hrun.2
  · cases hshown : t.shown with
    | none => exact .inl ⟨hcached.unseen hshown, rfl⟩
    | some v =>
      obtain ⟨ds, hds, hdevices⟩ := hcached.shows v hshown
      exact .inr ⟨v, ds, rfl, hds, hdevices⟩
  · obtain ⟨d, hd, hle⟩ := hcached.told r hr
    have hdates : t.dates = t.shown.toList := by simp [State.dates, htoUi]
    have hmem := List.mem_of_mem_getLast? hd
    have hbound := hcached.le_version hmem
    rw [hdates, Option.mem_toList] at hmem
    obtain ⟨ds, hds, hdevices⟩ := hcached.shows d hmem
    have hd' : d = t.merged.version := by omega
    rw [hd', hcached.current, Option.some.injEq] at hds
    rw [hdevices, hds]

def sampleDevice : Proto.Device := ⟨['u'], ['i'], ['s'], ['d'], ['n'], none⟩

/-- The answer to the first request, before a device comes, and the news of it. -/
theorem device_cache_news :
    (run (step sampleDaemon) (init [] [] 0 ⟨none, false⟩)
        ([.connect, .greet .ok, .greet .ok, .accept, .answer sampleAround, .receive] ++
          [.publish [sampleDevice], .notify 1, .accept, .answer sampleAround, .receive,
            .receive])).devices = [⟨['u'], ['s'], ['d'], ['n']⟩] :=
  (device_cache (Nat.le_refl 0) (by exact (show 0 + 3 ≤ 2 ^ 64 by decide))).2.2 rfl rfl ⟨_, by
    exact List.mem_cons_self ..⟩

end Kulua.Ipc.Rpc
