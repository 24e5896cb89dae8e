import Kulua.App.Lifecycle
import Kulua.App.Handlers
import Kulua.Apps.AppList

/-! `AppCache` of `apps.rs` and the handler of `app.list`: what is answered from the cache, and
what a device going away has to do with it. -/

namespace Kulua.App
open Foundation Foundation.Keyed Apps
open DeviceMerge (visitors outranks)

/-- `APP_CACHE_TTL`, one minute. -/
def appCacheTtl : Nat := 60000000000

structure CacheEntry where
  apps : List AppInfo
  fetchedAt : Nat
  deriving DecidableEq, Repr

/-- The lists by the UUID of the device. -/
structure AppCache where
  entries : Nat → Option CacheEntry

namespace AppCache

def new : AppCache := ⟨fun _ => none⟩

def get (self : AppCache) (now uuid : Nat) : Option (List AppInfo) :=
  (self.entries uuid).bind fun e => if now - e.fetchedAt ≤ appCacheTtl then some e.apps else none

def put (self : AppCache) (now uuid : Nat) (apps : List AppInfo) : AppCache :=
  ⟨Function.update self.entries uuid (some ⟨apps, now⟩)⟩

def invalidate (self : AppCache) (uuid : Nat) : AppCache :=
  ⟨Function.update self.entries uuid none⟩

theorem get_eq_some {cache : AppCache} {now uuid : Nat} {apps : List AppInfo} :
    cache.get now uuid = some apps ↔ ∃ fetchedAt,
      cache.entries uuid = some ⟨apps, fetchedAt⟩ ∧ now ≤ fetchedAt + appCacheTtl := by
  simp only [get, Option.bind_eq_some_iff, Option.ite_none_right_eq_some, Option.some.injEq]
  constructor
  · rintro ⟨⟨held, fetchedAt⟩, he, hin, rfl⟩
    dsimp only at hin
    exact ⟨fetchedAt, he, by omega⟩
  · rintro ⟨fetchedAt, he, hin⟩
    exact ⟨_, he, by dsimp only; omega, rfl⟩

theorem entries_invalidates (cache : AppCache) (uuids : List Nat) (v : Nat) :
    (uuids.foldl invalidate cache).entries v = if v ∈ uuids then none else cache.entries v := by
  induction uuids generalizing cache with
  | nil => simp
  | cons uuid uuids ih =>
    rw [List.foldl_cons, ih]
    by_cases hv : v = uuid
    · subst hv
      simp [invalidate]
    · simp [invalidate, hv]

end AppCache

namespace Core

/-- The known devices whose address in use is not online. -/
def missing (c : Core) (online : List String) : List Nat :=
  (c.devices.filter fun e => decide (e.device.serial ∉ online)).map (·.device.uuid)

/-- Those of them that have a session: `to_stop`. -/
def toStop (c : Core) (online : List String) : List Nat :=
  (c.devices.filter fun e =>
    e.session.isSome && decide (e.device.serial ∉ online)).map (·.device.uuid)

/-- The devices as `stop_disconnected_sessions` finds them. -/
def atStop (c : Core) (getprop : String → Option String) : Core :=
  (c.mergeOnline getprop c.deviceWatch.online).checkDeadSessions

theorem onTick_atStop (c : Core) (getprop : String → Option String) :
    c.onTick getprop = (((c.atStop getprop).toStop c.deviceWatch.online).foldl discard
      (c.atStop getprop)).pushSessionList := rfl

/-- The address in use is online once the online addresses have been filed. -/
def Reached (c : Core) (getprop : String → Option String) (e : DeviceEntry) : Prop :=
  e.device.serial ∈ c.deviceWatch.online ∨
    ∃ a ∈ visitors getprop c.index c.deviceWatch.online e.device.id,
      outranks a e.device.serial = true

variable {c : Core}

theorem mem_missing (wf : DeviceMerge.WellFormed c.index) (online : List String) {v : Nat} :
    v ∈ c.missing online ↔ ∃ e, c.entry v = some e ∧ e.device.serial ∉ online := by
  simp only [missing, List.mem_map, List.mem_filter, decide_eq_true_eq]
  constructor
  · rintro ⟨e, ⟨he, hserial⟩, rfl⟩
    exact ⟨e, entry_of_mem wf he, hserial⟩
  · rintro ⟨e, he, hserial⟩
    exact ⟨e, ⟨(mem_of_entry he).1, hserial⟩, (mem_of_entry he).2⟩

theorem Sound.atStop (sound : Sound c) (getprop : String → Option String) :
    Sound (c.atStop getprop) := (sound.mergeOnline getprop _).checkDeadSessions

theorem entry_atStop (sound : Sound c) (getprop : String → Option String) {e : DeviceEntry}
    (he : e ∈ c.devices) : ∃ e', (c.atStop getprop).entry e.device.uuid = some e' ∧
      (e'.device.serial ∈ c.deviceWatch.online ↔ c.Reached getprop e) ∧
      e'.session.isSome = e.session.isSome := by
  obtain ⟨e', he', hreached, -⟩ := entry_after_merge sound getprop c.deviceWatch.online he
  refine ⟨e'.mapSession .checkDead, ?_, hreached, ?_⟩
  · rw [Core.atStop, checkDeadSessions, entry_map (DeviceEntry.mapSession_device _), he']
    rfl
  · have hheld := held_mergeOnline sound getprop c.deviceWatch.online e.device.uuid
    rw [held, he', held, entry_of_mem sound.index he] at hheld
    rw [DeviceEntry.mapSession, Option.isSome_map]
    exact congrArg Option.isSome hheld

/-- Which known devices the tick misses, and which of them it stops. -/
theorem tick_known (sound : Sound c) (getprop : String → Option String) {e : DeviceEntry}
    (he : e ∈ c.devices) :
    (e.device.uuid ∈ (c.atStop getprop).missing c.deviceWatch.online ↔ ¬c.Reached getprop e) ∧
      (e.device.uuid ∈ (c.atStop getprop).toStop c.deviceWatch.online ↔
        e.session.isSome ∧ ¬c.Reached getprop e) := by
  obtain ⟨e', he', hreached, hsession⟩ := entry_atStop sound getprop he
  have wf := (sound.atStop getprop).index
  rw [mem_missing wf, toStop, mem_toStop wf, ← hsession, ← hreached]
  constructor
  · constructor
    · rintro ⟨e₁, he₁, hserial⟩
      obtain rfl := Option.some.inj (he'.symm.trans he₁)
      exact hserial
    · exact fun hserial => ⟨e', he', hserial⟩
  · constructor
    · rintro ⟨e₁, he₁, hsome, hserial⟩
      obtain rfl := Option.some.inj (he'.symm.trans he₁)
      exact ⟨hsome, hserial⟩
    · exact fun ⟨hsome, hserial⟩ => ⟨e', he', hsome, hserial⟩

/-- The device is known, and known to be online. -/
def Listed (c : Core) (uuid : Nat) : Prop := (c.entry uuid).map (·.device.state) = some .device

instance (c : Core) (uuid : Nat) : Decidable (c.Listed uuid) := inferInstanceAs (Decidable (_ = _))

theorem listed_map {f : DeviceEntry → DeviceEntry} (keep : ∀ e, (f e).device = e.device)
    {v : Nat} (h : c.Listed v) : Listed { c with devices := c.devices.map f } v := by
  rw [Listed] at h ⊢
  rw [entry_map keep, Option.map_map]
  simpa only [Function.comp_def, keep] using h

/-- No handler marks a device as anything but online. -/
theorem kept_listed (v : Nat) : Kept fun c => c.Listed v where
  insert {c} sound h getprop a := by
    rcases entry_insertDevice sound.index getprop a .device v with hsame | ⟨e, -, he⟩ | ⟨hnone, -⟩
    · rwa [Listed, hsame]
    · rw [Listed, he]
      rfl
    · rw [Listed, hnone] at h
      cases h
  take {c} _ h uuid := by
    rw [Listed, entry_takeAndStop]
    split
    · rw [Option.map_map]
      exact h
    · exact h
  drop h _ := h
  start {c} sound h device := by
    rw [Listed, entry_startSession sound.index]
    split
    · rw [Option.map_map]
      exact h
    · exact h
  swap h := listed_map (hotSwap_device _) h
  dead h := listed_map (DeviceEntry.mapSession_device _) h
  push h := h
  rename {c} sound h serial name := by
    rcases entry_onDeviceName sound.index serial name v with hsame | ⟨e, he, hrenamed⟩
    · rwa [Listed, hsame]
    · rw [Listed, he] at h
      rw [Listed, hrenamed]
      exact h
  task h _ _ := listed_map (DeviceEntry.mapSession_device _) h
  track h _ := h
  settings h _ := h
  rehash {c} sound h order := by rwa [Listed, entry_rehash sound.index]

/-- Only the shutdown cancels the main loop. -/
theorem kept_running : Kept fun c => c.cancelled = false where
  insert {c} _ h getprop a := by
    rcases insertDevice_cases getprop c a .device with ⟨p, devices, -, hc⟩ | ⟨device, -, hc⟩ <;>
      rwa [hc]
  take {c} _ h uuid := by
    unfold takeAndStop
    split <;> exact h
  drop h _ := h
  start {c} _ h device := by
    unfold startSession
    split
    · exact h
    · dsimp only
      split <;> exact h
  swap h := h
  dead h := h
  push h := h
  rename _ h _ _ := h
  task h _ _ := h
  track h _ := h
  settings h _ := h
  rehash {c} _ h order := by rwa [rehash_eq]

theorem listed_step (sound : Sound c) {v : Nat} (h : c.Listed v) (a : Action) :
    (step c a).cancelled = true ∨ (step c a).Listed v := by
  rcases hcancelled : c.cancelled with _ | _
  · cases a with
    | shutdown =>
      left
      simp [App.step, hcancelled, stopAll]
    | updateConfig uuid clipboardSync notificationSync audioSync volume =>
      right
      refine (kept_listed v).step sound h _ (fun _ _ _ _ _ _ => ?_) (fun he => by cases he)
      rw [cmdUpdateConfig, Listed, entry_update (DeviceEntry.configure_device _ _ _ _)]
      split
      · rw [Option.map_map]
        exact h
      · exact h
    | _ =>
      right
      exact (kept_listed v).step sound h _ (fun _ _ _ _ _ he => by cases he) fun he => by cases he
  · left
    unfold App.step
    rwa [if_pos hcancelled]

end Core

/-- What the enumeration of a device's applications comes to. -/
inductive Listing where
  | listed (apps : List AppInfo)
  | failed (error : String)
  | panicked (error : String)
  deriving DecidableEq, Repr

structure AppListReply where
  apps : List AppInfo
  fusionSupported : Bool
  deriving DecidableEq, Repr

/-- A list was put into the cache, or a tick missed a device. -/
inductive CacheEvent where
  | fetched (uuid : Nat) (apps : List AppInfo) (now : Nat)
  | absent (uuid : Nat)
  deriving DecidableEq, Repr

/-- `Core` with its cache and the time. -/
structure CachedCore where
  core : Core
  appCache : AppCache
  now : Nat
  /-- What happened; no handler reads it. -/
  log : List CacheEvent

namespace CachedCore

def init : CachedCore := ⟨App.init, .new, 0, []⟩

inductive Input where
  | core (a : Action)
  /-- The enumeration, if there is one, takes some time. -/
  | listApps (uuid : Nat) (force : Bool) (took : Nat) (listing : Listing)
  | wait (elapsed : Nat)

def handleListApps (s : CachedCore) (uuid : Nat) (force : Bool) (took : Nat) (listing : Listing) :
    CachedCore × Except String AppListReply :=
  match (s.core.entry uuid).filter fun e => e.device.state = .device with
  | none => (s, .error "设备不在线")
  | some _ =>
    match if force then none else s.appCache.get s.now uuid with
    | some apps => (s, .ok ⟨apps, true⟩)
    | none =>
      let s := { s with now := s.now + took }
      match listing with
      | .listed apps =>
        ({ s with
            appCache := s.appCache.put s.now uuid apps
            log := s.log ++ [.fetched uuid apps s.now] }, .ok ⟨apps, true⟩)
      | .failed error => (s, .error ("枚举应用失败: " ++ error))
      | .panicked error => (s, .error ("应用枚举任务异常: " ++ error))

def step (s : CachedCore) : Input → CachedCore
  | .wait elapsed => { s with now := s.now + elapsed }
  | .listApps uuid force took listing =>
    if s.core.cancelled then s else (s.handleListApps uuid force took listing).1
  | .core a =>
    let next := { s with core := App.step s.core a }
    match a with
    | .tick getprop =>
      if s.core.cancelled then next
      else
        let online := s.core.deviceWatch.online
        let found := s.core.atStop getprop
        { next with
          appCache := (found.toStop online).foldl .invalidate s.appCache
          log := s.log ++ (found.missing online).map .absent }
    | _ => next

/-- A request that is not forced would be answered from the cache. -/
def Answers (s : CachedCore) (uuid : Nat) (apps : List AppInfo) : Prop :=
  s.core.cancelled = false ∧ s.core.Listed uuid ∧ s.appCache.get s.now uuid = some apps

/-- It is answered so whatever an enumeration would come to. -/
theorem answers_iff {s : CachedCore} (running : s.core.cancelled = false) {uuid : Nat}
    {apps : List AppInfo} : s.Answers uuid apps ↔ ∀ took listing,
      s.handleListApps uuid false took listing = (s, .ok ⟨apps, true⟩) := by
  constructor
  · rintro ⟨-, hlisted, hget⟩ took listing
    obtain ⟨e, he, hstate⟩ := Option.map_eq_some_iff.mp hlisted
    simp [handleListApps, he, hstate, Option.filter, hget]
  · intro h
    have hreply := congrArg Prod.snd (h 0 (.failed ""))
    rcases hdevice : (s.core.entry uuid).filter fun e => e.device.state = .device with _ | e
    · simp [handleListApps, hdevice] at hreply
    · obtain ⟨he, hstate⟩ := Option.filter_eq_some_iff.mp hdevice
      refine ⟨running, ?_, ?_⟩
      · rw [Core.Listed, he, Option.map_some, of_decide_eq_true hstate]
      · rcases hget : s.appCache.get s.now uuid with _ | held
        · simp [handleListApps, hdevice, hget] at hreply
        · simp [handleListApps, hdevice, hget] at hreply
          rw [hreply]

/-- Whatever the cache answers now was fetched at most a minute ago, and no tick has missed
the device since. -/
def Fresh (s : CachedCore) : Prop :=
  ∀ uuid apps, s.Answers uuid apps → ∃ before fetchedAt after,
    s.log = before ++ .fetched uuid apps fetchedAt :: after ∧
      s.now ≤ fetchedAt + appCacheTtl ∧ .absent uuid ∉ after

/-- At a tick that misses a device, the device has a session or the cache has no list for it
that is still good. -/
def Guarded (s : CachedCore) : Input → Prop
  | .core (.tick getprop) => s.core.cancelled = true ∨
      ∀ e ∈ s.core.devices, s.core.Reached getprop e ∨ e.session.isSome = true ∨
        s.appCache.get s.now e.device.uuid = none
  | _ => True

/-- Each list in the cache was fetched, and is too old if a tick has missed its device since. -/
structure Tracked (s : CachedCore) : Prop where
  sound : s.core.Sound
  known : s.core.cancelled = true ∨
    ∀ uuid, (s.appCache.entries uuid).isSome → s.core.Listed uuid
  fetched : ∀ uuid entry, s.appCache.entries uuid = some entry → ∃ before after,
    s.log = before ++ .fetched uuid entry.apps entry.fetchedAt :: after ∧
      (.absent uuid ∈ after → entry.fetchedAt + appCacheTtl < s.now)

theorem tracked_init : Tracked init where
  sound := Core.sound_init
  known := .inr fun _ h => by cases h
  fetched _ _ h := by cases h

variable {s : CachedCore}

theorem Tracked.fresh (h : Tracked s) : Fresh s := by
  rintro uuid apps ⟨-, -, hget⟩
  obtain ⟨fetchedAt, hentry, hin⟩ := AppCache.get_eq_some.mp hget
  obtain ⟨before, after, hlog, hold⟩ := h.fetched uuid _ hentry
  refine ⟨before, fetchedAt, after, hlog, hin, fun hgone => ?_⟩
  have := hold hgone
  dsimp only at this
  omega

theorem Tracked.wait (h : Tracked s) (elapsed : Nat) :
    Tracked { s with now := s.now + elapsed } :=
  { h with
    fetched := fun uuid entry hentry => by
      obtain ⟨before, after, hlog, hold⟩ := h.fetched uuid entry hentry
      exact ⟨before, after, hlog, fun hgone => (hold hgone).trans_le (Nat.le_add_right ..)⟩ }

theorem Tracked.put (h : Tracked s) {uuid : Nat} (hlisted : s.core.Listed uuid)
    (apps : List AppInfo) : Tracked { s with
      appCache := s.appCache.put s.now uuid apps
      log := s.log ++ [.fetched uuid apps s.now] } where
  sound := h.sound
  known := h.known.imp_right fun hknown v hv => by
    by_cases hsame : v = uuid
    · rwa [hsame]
    · exact hknown v (by simpa [AppCache.put, hsame] using hv)
  fetched v entry hentry := by
    by_cases hsame : v = uuid
    · subst hsame
      obtain rfl : ⟨apps, s.now⟩ = entry := by simpa [AppCache.put] using hentry
      exact ⟨s.log, [], rfl, fun hgone => by cases hgone⟩
    · obtain ⟨before, after, hlog, hold⟩ := h.fetched v entry (by
        simpa [AppCache.put, hsame] using hentry)
      refine ⟨before, after ++ [.fetched uuid apps s.now], by simp [hlog], fun hgone => ?_⟩
      exact hold (by simpa using hgone)

theorem Tracked.handleListApps (h : Tracked s) (uuid : Nat) (force : Bool) (took : Nat)
    (listing : Listing) : Tracked (s.handleListApps uuid force took listing).1 := by
  unfold CachedCore.handleListApps
  split
  · exact h
  · rename_i e he
    obtain ⟨he, hstate⟩ := Option.filter_eq_some_iff.mp he
    have hlisted : s.core.Listed uuid := by
      rw [Core.Listed, he, Option.map_some, of_decide_eq_true hstate]
    split
    · exact h
    · cases listing with
      | listed apps => exact (h.wait took).put hlisted apps
      | failed error => exact h.wait took
      | panicked error => exact h.wait took

theorem Tracked.core (h : Tracked s) (a : Action) : Tracked { s with core := App.step s.core a } where
  sound := h.sound.step a
  known := by
    rcases h.known with hcancelled | hknown
    · left
      unfold App.step
      rwa [if_pos hcancelled]
    · by_cases hcancelled : (App.step s.core a).cancelled = true
      · exact .inl hcancelled
      · exact .inr fun uuid hv =>
          (Core.listed_step h.sound (hknown uuid hv) a).resolve_left hcancelled
  fetched := h.fetched

/-- The log of a tick ends with the devices it missed. -/
private theorem absent_after (log : List CacheEvent) (uuids : List Nat)
    {before after : List CacheEvent} {uuid v t : Nat} {apps : List AppInfo}
    (h : log ++ uuids.map .absent = before ++ .fetched v apps t :: after)
    (hmem : uuid ∈ uuids) : .absent uuid ∈ after := by
  rw [List.append_eq_append_iff] at h
  rcases h with ⟨mid, -, habsent⟩ | ⟨mid, -, hlater⟩
  · have hfetched : CacheEvent.fetched v apps t ∈ uuids.map CacheEvent.absent := by
      rw [habsent]
      simp
    simp at hfetched
  · cases mid with
    | nil =>
      have hfetched : CacheEvent.fetched v apps t ∈ uuids.map CacheEvent.absent := by
        rw [← List.nil_append (uuids.map _), ← hlater]
        simp
      simp at hfetched
    | cons e mid =>
      rw [List.cons_append, List.cons.injEq] at hlater
      rw [hlater.2]
      exact List.mem_append_right _ (List.mem_map_of_mem hmem)

theorem step_tick (s : CachedCore) (getprop : String → Option String)
    (running : s.core.cancelled = false) :
    s.step (.core (.tick getprop)) =
      { core := s.core.onTick getprop
        appCache := ((s.core.atStop getprop).toStop s.core.deviceWatch.online).foldl .invalidate
          s.appCache
        now := s.now
        log := s.log ++ ((s.core.atStop getprop).missing s.core.deviceWatch.online).map .absent } := by
  simp [step, App.step, running]

theorem Tracked.tick (h : Tracked s) (getprop : String → Option String)
    (running : s.core.cancelled = false)
    (guarded : ∀ e ∈ s.core.devices, s.core.Reached getprop e ∨ e.session.isSome = true ∨
      s.appCache.get s.now e.device.uuid = none) : Tracked (s.step (.core (.tick getprop))) := by
  have hcore := h.core (.tick getprop)
  have hstep : App.step s.core (.tick getprop) = s.core.onTick getprop := by
    simp [App.step, running]
  rw [hstep] at hcore
  rw [step_tick s getprop running]
  constructor
  · exact hcore.sound
  · refine hcore.known.imp_right fun hknown v hv => ?_
    rw [AppCache.entries_invalidates] at hv
    split at hv
    · cases hv
    · exact hknown v hv
  · intro v entry hentry
    rw [AppCache.entries_invalidates] at hentry
    split at hentry
    · cases hentry
    · rename_i hkept
      obtain ⟨before, after, hlog, hold⟩ := h.fetched v entry hentry
      refine ⟨before, after ++
        ((s.core.atStop getprop).missing s.core.deviceWatch.online).map .absent, by simp [hlog],
        fun hgone => ?_⟩
      rcases List.mem_append.mp hgone with hgone | hgone
      · exact hold hgone
      · have hmissing : v ∈ (s.core.atStop getprop).missing s.core.deviceWatch.online := by
          simpa using hgone
        -- the tick misses the device and leaves its list: the device has no session
        have hlisted := (h.known.resolve_left (by simp [running])) v (by simp [hentry])
        obtain ⟨e, he, -⟩ := Option.map_eq_some_iff.mp hlisted
        obtain ⟨hmem, rfl⟩ := Core.mem_of_entry he
        obtain ⟨hmiss, hstop⟩ := Core.tick_known h.sound getprop hmem
        have hreached := hmiss.mp hmissing
        rcases guarded e hmem with hin | hsession | hexpired
        · exact absurd hin hreached
        · exact absurd (hstop.mpr ⟨hsession, hreached⟩) hkept
        · show entry.fetchedAt + appCacheTtl < s.now
          by_contra hlate
          have hget : s.appCache.get s.now e.device.uuid = some entry.apps :=
            AppCache.get_eq_some.mpr ⟨entry.fetchedAt, hentry, by omega⟩
          rw [hexpired] at hget
          cases hget

/-- A list that is still good outlives the absence of a device without a session. -/
theorem not_fresh_tick (h : Tracked s) (getprop : String → Option String)
    (running : s.core.cancelled = false) {e : DeviceEntry} (he : e ∈ s.core.devices)
    (hmissed : ¬s.core.Reached getprop e) (hsession : e.session.isSome = false)
    {apps : List AppInfo} (hget : s.appCache.get s.now e.device.uuid = some apps) :
    ¬Fresh (s.step (.core (.tick getprop))) := by
  obtain ⟨hmiss, hstop⟩ := Core.tick_known h.sound getprop he
  obtain ⟨fetchedAt, hentry, hin⟩ := AppCache.get_eq_some.mp hget
  have hlisted := (h.known.resolve_left (by simp [running])) e.device.uuid (by simp [hentry])
  have hlisted' : (s.core.onTick getprop).Listed e.device.uuid :=
    (Core.kept_listed _).onTick h.sound hlisted getprop
  have hrunning := Core.kept_running.onTick h.sound running getprop
  rw [step_tick s getprop running]
  intro fresh
  obtain ⟨before, t, after, hlog, -, hnever⟩ := fresh e.device.uuid apps
    ⟨hrunning, hlisted', AppCache.get_eq_some.mpr ⟨fetchedAt, by
      rw [AppCache.entries_invalidates, if_neg, hentry]
      rw [hstop, hsession]
      simp, hin⟩⟩
  exact hnever (absent_after _ _ hlog (hmiss.mpr hmissed))

theorem Tracked.step (h : Tracked s) {a : Input} (guarded : s.Guarded a) : Tracked (s.step a) := by
  cases a with
  | wait elapsed => exact h.wait elapsed
  | listApps uuid force took listing =>
    simp only [CachedCore.step]
    split
    · exact h
    · exact h.handleListApps uuid force took listing
  | core a =>
    by_cases htick : ∃ getprop, a = .tick getprop
    · obtain ⟨getprop, rfl⟩ := htick
      rcases hcancelled : s.core.cancelled with _ | _
      · exact h.tick getprop hcancelled (guarded.resolve_left (by simp [hcancelled]))
      · have hstep : s.step (.core (.tick getprop)) =
            { s with core := App.step s.core (.tick getprop) } := by
          simp [CachedCore.step, hcancelled]
        rw [hstep]
        exact h.core (.tick getprop)
    · have hstep : s.step (.core a) = { s with core := App.step s.core a } := by
        cases a with
        | tick getprop => exact absurd ⟨getprop, rfl⟩ htick
        | _ => rfl
      rw [hstep]
      exact h.core a

theorem fresh_step_iff (h : Tracked s) (a : Input) : Fresh (s.step a) ↔ s.Guarded a := by
  refine ⟨fun fresh => ?_, fun guarded => (h.step guarded).fresh⟩
  cases a with
  | core a =>
    cases a with
    | tick getprop =>
      refine or_iff_not_imp_left.mpr fun running e he => ?_
      rw [Bool.not_eq_true] at running
      by_contra hunguarded
      simp only [not_or, Bool.not_eq_true] at hunguarded
      obtain ⟨hmissed, hsession, hget⟩ := hunguarded
      obtain ⟨apps, hget⟩ := Option.ne_none_iff_exists'.mp hget
      exact not_fresh_tick h getprop running he hmissed hsession hget fresh
    | _ => trivial
  | _ => trivial

end CachedCore

/-- Over any sequence of ticks, commands and requests, what the cache would answer is always
fresh exactly when every tick that misses a device with a list that is still good finds it
with a session. -/
theorem app_cache_fresh_iff (inputs : List CachedCore.Input) :
    Run.Along CachedCore.step (fun s a => (s.step a).Fresh) .init inputs ↔
      Run.Along CachedCore.step CachedCore.Guarded .init inputs :=
  Run.along_iff_of_kept (I := CachedCore.Tracked) (fun _ _ h guarded => h.step guarded)
    (fun _ a h => CachedCore.fresh_step_iff h a) CachedCore.tracked_init inputs

private def someApp : AppInfo := ⟨"com.a".toList, "A".toList, false⟩

/-- The device is unplugged before a session is started, and plugged in again: the list from
before is returned. -/
theorem app_cache_outlives_unplugging :
    let getprop : String → Option String := fun _ => none
    let s := Run.run CachedCore.step .init [
      .core (.track ⟨[("D1", .device)], by decide⟩), .core (.tick getprop),
      .listApps 0 false 0 (.listed [someApp]),
      .core (.track ⟨[], by decide⟩), .core (.tick getprop),
      .core (.track ⟨[("D1", .device)], by decide⟩), .core (.tick getprop)]
    s.log = [.fetched 0 [someApp] 0, .absent 0] ∧
      (s.handleListApps 0 false 0 (.listed [])).2 = .ok ⟨[someApp], true⟩ ∧ ¬s.Fresh := by
  intro getprop s
  have hlog : s.log = [.fetched 0 [someApp] 0, .absent 0] := by decide
  refine ⟨hlog, by decide, fun fresh => ?_⟩
  obtain ⟨before, t, after, hsplit, -, hnever⟩ := fresh 0 [someApp] ⟨by decide, by decide, by decide⟩
  rw [hlog] at hsplit
  exact hnever (CachedCore.absent_after [.fetched 0 [someApp] 0] [0] hsplit List.mem_cons_self)

end Kulua.App
