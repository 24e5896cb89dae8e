import Kulua.Foundation.History
import Kulua.Ipc.Handlers

/-! The settings over the life of the daemon: each has the value that was given last, until a write
is cut off. -/

namespace Kulua.Ipc.SettingsHistory
open Foundation Foundation.Run Foundation.Text Settings

/-- What happens to the settings and to the entry of the system. -/
inductive Event where
  | serve (around : Surroundings) (request : Proto.Request)
  | restart (failure : Option Str)
  /-- The user sets or removes the entry by hand. -/
  | editEntry (entry : Bool)

variable (daemon : Daemon)

def handle (disk : Disk) : Event → Disk
  | .serve around request => (Handlers.dispatchRequest daemon around request disk).disk
  | .restart failure =>
    { disk with
      entry := Autostart.reconcile daemon.autostartSupported failure (read disk.config) disk.entry }
  | .editEntry entry => { disk with entry := entry }

/-- No field is given. -/
def nothing : ConfigFile := ⟨none, none, none, none, none, none, none⟩

def askedAutostart : Option Proto.Request.Payload → Option ConfigFile
  | some (.setAutostart m) => some { nothing with autostartEnabled := some m.enabled }
  | _ => none

def askedScrcpyParams : Option Proto.Request.Payload → Option ConfigFile
  | some (.setScrcpyParams m) =>
    if m.audioCodec.all Handlers.audioCodecs.contains then
      some ⟨none, m.videoBitRate, m.videoMaxSize, m.videoMaxFps, m.audioBitRate, m.audioCodec, none⟩
    else none
  | _ => none

def askedIconTheme : Option Proto.Request.Payload → Option ConfigFile
  | some (.setIconTheme m) =>
    if Handlers.iconThemes.contains m.iconTheme then
      some { nothing with iconTheme := some m.iconTheme }
    else none
  | _ => none

/-- The fields that a request is to change, if it is one of those that change the settings and is
not refused for what it asks. -/
def asked (request : Proto.Request) : Option ConfigFile :=
  match String.ofList request.method with
  | "settings.set_autostart" => askedAutostart request.params
  | "settings.set_scrcpy_params" => askedScrcpyParams request.params
  | "settings.set_icon_theme" => askedIconTheme request.params
  | _ => none

/-- The fields that are given take the place of those before. -/
def overlay (given : ConfigFile) (config : AppConfig) : AppConfig :=
  ⟨given.autostartEnabled.getD config.autostartEnabled,
    given.videoBitRate.getD config.videoBitRate, given.videoMaxSize.getD config.videoMaxSize,
    given.videoMaxFps.getD config.videoMaxFps, given.audioBitRate.getD config.audioBitRate,
    given.audioCodec.getD config.audioCodec, given.iconTheme.getD config.iconTheme⟩

section Step
variable {daemon} {around : Surroundings} {request : Proto.Request} {disk : Disk}

/-- The settings and the entry after a request. The entry is set only when the file was written. -/
def accept (daemon : Daemon) (around : Surroundings) (disk : Disk) : Option ConfigFile → Disk
  | none => disk
  | some given =>
    match write around.write disk.config (overlay given (read disk.config)) with
    | (file, none) =>
      ⟨file, match given.autostartEnabled with
        | some enabled => (Autostart.setPlatformEntry daemon.autostartSupported around.entryFailure
            disk.entry enabled).1
        | none => disk.entry⟩
    | (file, some _) => ⟨file, disk.entry⟩

theorem disk_send (command : Command) (response : Proto.Response) :
    (Handlers.send around request disk command response).disk = disk := by
  rw [Handlers.send]
  split <;> rfl

theorem disk_serialCommand (missing : String) (params : Option Proto.Request.DeviceSerial)
    (command : Str → Command) :
    (Handlers.serialCommand around request disk missing params command).disk = disk := by
  unfold Handlers.serialCommand
  split
  · rfl
  · split
    · rfl
    · exact disk_send _ _

theorem disk_uuidCommand (uuid : Str) (command : Uuid → Command) :
    (Handlers.uuidCommand daemon around request disk uuid command).disk = disk := by
  unfold Handlers.uuidCommand
  split
  · rfl
  · split
    · exact disk_send _ _
    · rfl

theorem disk_setAutostart :
    (Handlers.settingsSetAutostart daemon around request disk).disk =
      accept daemon around disk (askedAutostart request.params) := by
  unfold Handlers.settingsSetAutostart
  cases request.params with
  | none => rfl
  | some p =>
    cases p with
    | setAutostart m =>
      have hoverlay : overlay { nothing with autostartEnabled := some m.enabled }
          (read disk.config) = { read disk.config with autostartEnabled := m.enabled } := rfl
      simp only [askedAutostart, accept, hoverlay]
      split
      · next h => simp only [h]; rfl
      · next h =>
        simp only [h]
        split
        · next hentry => rw [hentry]; rfl
        · next hentry => rw [hentry]; rfl
    | _ => rfl

theorem disk_setScrcpyParams :
    (Handlers.settingsSetScrcpyParams daemon around request disk).disk =
      accept daemon around disk (askedScrcpyParams request.params) := by
  unfold Handlers.settingsSetScrcpyParams
  cases request.params with
  | none => rfl
  | some p =>
    cases p with
    | setScrcpyParams m =>
      have hoverlay : overlay ⟨none, m.videoBitRate, m.videoMaxSize, m.videoMaxFps,
          m.audioBitRate, m.audioCodec, none⟩ (read disk.config) =
            Handlers.applyParams (read disk.config) m := rfl
      by_cases hcodec : m.audioCodec.all Handlers.audioCodecs.contains = true
      · have hallowed : m.audioCodec.filter (!Handlers.audioCodecs.contains ·) = none := by
          cases hc : m.audioCodec with
          | none => rfl
          | some codec =>
            rw [hc, Option.all_some] at hcodec
            simp only [Option.filter, hcodec, Bool.not_true, Bool.false_eq_true, if_false]
        simp only [askedScrcpyParams, accept, hallowed, if_pos hcodec, hoverlay]
        split
        · next h => simp only [h]; rfl
        · next h => rw [disk_send]; simp only [h]
      · cases hc : m.audioCodec with
        | none =>
          rw [hc] at hcodec
          exact absurd rfl hcodec
        | some codec =>
          have hrefused : (some codec).filter (!Handlers.audioCodecs.contains ·) = some codec := by
            rw [hc, Option.all_some, Bool.not_eq_true] at hcodec
            simp only [Option.filter, hcodec, Bool.not_false, if_true]
          rw [hc] at hcodec
          simp only [askedScrcpyParams, accept, hc, hrefused, if_neg hcodec]
          rfl
    | _ => rfl

theorem disk_setIconTheme :
    (Handlers.settingsSetIconTheme daemon around request disk).disk =
      accept daemon around disk (askedIconTheme request.params) := by
  unfold Handlers.settingsSetIconTheme
  cases request.params with
  | none => rfl
  | some p =>
    cases p with
    | setIconTheme m =>
      have hoverlay : overlay { nothing with iconTheme := some m.iconTheme } (read disk.config) =
          { read disk.config with iconTheme := m.iconTheme } := rfl
      simp only [askedIconTheme]
      cases htheme : Handlers.iconThemes.contains m.iconTheme with
      | false => rfl
      | true =>
        simp only [Bool.not_true, Bool.false_eq_true, if_false, if_true, accept, hoverlay]
        split
        · next h => simp only [h]; rfl
        · next h => simp only [h]; rfl
    | _ => rfl

/-- A request changes the settings by what it asks, and nothing else does. -/
theorem disk_dispatchRequest :
    (Handlers.dispatchRequest daemon around request disk).disk =
      accept daemon around disk (asked request) := by
  have hasked : ∀ {method}, String.ofList request.method = method → asked request =
      match method with
      | "settings.set_autostart" => askedAutostart request.params
      | "settings.set_scrcpy_params" => askedScrcpyParams request.params
      | "settings.set_icon_theme" => askedIconTheme request.params
      | _ => none := by
    rintro _ rfl
    rfl
  unfold Handlers.dispatchRequest
  split
  case h_3 h => exact (hasked h) ▸ disk_serialCommand _ _ _
  case h_4 h => exact (hasked h) ▸ disk_serialCommand _ _ _
  case h_7 h =>
    rw [hasked h]
    unfold Handlers.sessionUpdate
    split
    · exact disk_uuidCommand _ _
    · rfl
  case h_8 h =>
    rw [hasked h]
    unfold Handlers.sessionRetry
    split
    · exact disk_uuidCommand _ _
    · rfl
  case h_9 h => exact (hasked h) ▸ disk_serialCommand _ _ _
  case h_10 h =>
    rw [hasked h]
    unfold Handlers.appList
    split
    · split
      · rfl
      · exact disk_send _ _
    · rfl
  case h_11 h =>
    rw [hasked h]
    unfold Handlers.appOpen
    split
    · split
      · rfl
      · split
        · rfl
        · exact disk_send _ _
    · rfl
  case h_13 h => exact (hasked h) ▸ disk_setAutostart
  case h_14 h => exact (hasked h) ▸ disk_setScrcpyParams
  case h_15 h => exact (hasked h) ▸ disk_setIconTheme
  case h_16 =>
    unfold asked
    split
    · next h => contradiction
    · next h => contradiction
    · next h => contradiction
    · rfl
  case h_1 h => rw [hasked h]; rfl
  case h_2 h => rw [hasked h]; rfl
  case h_5 h => rw [hasked h]; rfl
  case h_6 h => rw [hasked h]; rfl
  case h_12 h => rw [hasked h]; rfl

end Step

/-- The fields that an event changes. -/
def kept : Event → Option ConfigFile
  | .serve around request =>
    match around.write with
    | .done => asked request
    | _ => none
  | _ => none

/-- The file is cut off by a write that fails. -/
def Loses : Event → Prop
  | .serve around request => (∃ error, around.write = .torn error) ∧ asked request ≠ none
  | _ => False

/-- Each field as it was given last. -/
def given (events : List Event) : ConfigFile :=
  ⟨History.latest (fun e => (kept e).bind (·.autostartEnabled)) events,
    History.latest (fun e => (kept e).bind (·.videoBitRate)) events,
    History.latest (fun e => (kept e).bind (·.videoMaxSize)) events,
    History.latest (fun e => (kept e).bind (·.videoMaxFps)) events,
    History.latest (fun e => (kept e).bind (·.audioBitRate)) events,
    History.latest (fun e => (kept e).bind (·.audioCodec)) events,
    History.latest (fun e => (kept e).bind (·.iconTheme)) events⟩

@[simp] theorem overlay_nothing (config : AppConfig) : overlay nothing config = config := rfl

theorem overlay_given (events : List Event) (e : Event) (config : AppConfig) :
    overlay (given (events ++ [e])) config =
      overlay ((kept e).getD nothing) (overlay (given events) config) := by
  have hlast : ∀ {α : Type} (f : ConfigFile → Option α) (a : α), f nothing = none →
      (History.latest (fun e => (kept e).bind f) (events ++ [e])).getD a =
        (f ((kept e).getD nothing)).getD
          ((History.latest (fun e => (kept e).bind f) events).getD a) := by
    intro α f a hf
    rw [History.latest_append_singleton]
    cases kept e with
    | none => simp [hf]
    | some file => cases h : f file <;> simp [h]
  simp only [overlay, given]
  congr 1 <;> exact hlast _ _ rfl

variable {daemon} {disk : Disk}

theorem read_step {e : Event} (h : ¬ Loses e) :
    read (handle daemon disk e).config = overlay ((kept e).getD nothing) (read disk.config) := by
  cases e with
  | serve around request =>
    rw [handle, disk_dispatchRequest]
    cases hasked : asked request with
    | none => cases hwrite : around.write <;> simp [kept, accept, hasked, hwrite]
    | some given =>
      cases hwrite : around.write with
      | done => simp [kept, accept, hasked, hwrite, write]
      | refused error => simp [kept, accept, hwrite, write]
      | torn error => exact absurd ⟨⟨error, hwrite⟩, by simp [hasked]⟩ h
  | restart failure => rfl
  | editEntry entry => rfl

theorem read_lost {e : Event} (h : Loses e) : read (handle daemon disk e).config = .default := by
  cases e with
  | serve around request =>
    obtain ⟨⟨error, hwrite⟩, hasked⟩ := h
    obtain ⟨given, hgiven⟩ := Option.ne_none_iff_exists'.mp hasked
    simp only [handle, disk_dispatchRequest, accept, hgiven, hwrite, write]
    rfl
  | restart failure => exact h.elim
  | editEntry entry => exact h.elim

/-- The settings that no check refuses. -/
structure Valid (config : AppConfig) : Prop where
  audioCodec : config.audioCodec ∈ Handlers.audioCodecs
  iconTheme : config.iconTheme ∈ Handlers.iconThemes

theorem valid_default : Valid .default :=
  ⟨List.mem_cons_self .., List.mem_cons_self ..⟩

theorem valid_overlay {request : Proto.Request} {file : ConfigFile} (h : asked request = some file)
    {config : AppConfig} (valid : Valid config) : Valid (overlay file config) := by
  unfold asked at h
  split at h
  · unfold askedAutostart at h
    split at h
    · cases h
      exact ⟨valid.audioCodec, valid.iconTheme⟩
    · cases h
  · unfold askedScrcpyParams at h
    split at h
    · next m hparams =>
      split at h
      · next hcodec =>
        cases h
        refine ⟨?_, valid.iconTheme⟩
        change m.audioCodec.getD config.audioCodec ∈ Handlers.audioCodecs
        cases hc : m.audioCodec with
        | none => exact valid.audioCodec
        | some codec =>
          rw [hc, Option.all_some] at hcodec
          exact List.contains_iff_mem.mp hcodec
      · cases h
    · cases h
  · unfold askedIconTheme at h
    split at h
    · next m hparams =>
      split at h
      · next htheme =>
        cases h
        exact ⟨valid.audioCodec, List.contains_iff_mem.mp htheme⟩
      · cases h
    · cases h
  · cases h

theorem valid_step (valid : Valid (read disk.config)) (e : Event) :
    Valid (read (handle daemon disk e).config) := by
  by_cases hlost : Loses e
  · rw [read_lost hlost]
    exact valid_default
  · rw [read_step hlost]
    cases e with
    | serve around request =>
      cases hasked : asked request with
      | none => cases hwrite : around.write <;> simpa [kept, hasked, hwrite] using valid
      | some file =>
        cases hwrite : around.write with
        | done => simpa [kept, hasked, hwrite] using valid_overlay hasked valid
        | _ => simpa [kept, hwrite] using valid
    | restart failure => exact valid
    | editEntry entry => exact valid

/-- The entry of the system is as the settings want it. -/
def Agree (disk : Disk) : Prop := disk.entry = (read disk.config).autostartEnabled

/-- The entry is set to what the settings say. -/
def Repairs : Event → Prop
  | .restart failure => failure = none
  | .serve around request => around.write = .done ∧ around.entryFailure = none ∧
      ∃ file, asked request = some file ∧ file.autostartEnabled ≠ none
  | .editEntry _ => False

/-- The entry is changed by hand, or the settings without the entry. -/
def Strays : Event → Prop
  | .serve around request => (∃ error, around.write = .torn error) ∧ asked request ≠ none ∨
      around.write = .done ∧ around.entryFailure ≠ none ∧
        ∃ file, asked request = some file ∧ file.autostartEnabled ≠ none
  | .editEntry _ => True
  | .restart _ => False

theorem agree_repair (supported : daemon.autostartSupported = true) {e : Event} (h : Repairs e) :
    Agree (handle daemon disk e) := by
  cases e with
  | restart failure =>
    cases h
    simp [Agree, handle, Autostart.reconcile, Autostart.setPlatformEntry, supported]
  | serve around request =>
    obtain ⟨hwrite, hentry, file, hasked, hgiven⟩ := h
    obtain ⟨enabled, hen⟩ := Option.ne_none_iff_exists'.mp hgiven
    rw [Agree, handle, disk_dispatchRequest]
    simp [accept, hasked, hwrite, write, hen, Autostart.setPlatformEntry, supported, hentry,
      overlay]
  | editEntry entry => exact h.elim

theorem agree_step (supported : daemon.autostartSupported = true) {e : Event} (agree : Agree disk) (h : ¬ Strays e) :
    Agree (handle daemon disk e) := by
  cases e with
  | restart failure =>
    cases failure with
    | none => exact agree_repair supported rfl
    | some error =>
      simp only [Agree, handle, Autostart.reconcile, Autostart.setPlatformEntry, supported, if_true]
      exact agree
  | serve around request =>
    rw [Agree, handle, disk_dispatchRequest]
    cases hasked : asked request with
    | none => exact agree
    | some file =>
      cases hwrite : around.write with
      | refused error =>
        simp only [accept, hwrite, write]
        exact agree
      | torn error => exact absurd (.inl ⟨⟨error, hwrite⟩, by simp [hasked]⟩) h
      | done =>
        cases hen : file.autostartEnabled with
        | none =>
          simp only [accept, hwrite, write, hen, read_file, overlay, Option.getD_none]
          exact agree
        | some enabled =>
          cases hentry : around.entryFailure with
          | none =>
            have hrepair : Agree (handle daemon disk (.serve around request)) :=
              agree_repair supported ⟨hwrite, hentry, file, hasked, by simp [hen]⟩
            rwa [Agree, handle, disk_dispatchRequest, hasked] at hrepair
          | some error =>
            exact absurd (.inr ⟨hwrite, by simp [hentry], file, hasked, by simp [hen]⟩) h
  | editEntry entry => exact absurd trivial h

/-- A daemon on a system that can start it, and requests whose writes fare like this. -/
def sampleDaemon : Daemon := ⟨⟨[], []⟩, true, fun _ => none⟩

def sampleEvent (write : Write) (method : String) (params : Proto.Request.Payload) : Event :=
  .serve ⟨[], [], none, true, .dropped, .dropped, write, none⟩ ⟨3, method.toList, some params⟩

def bitRate : Event :=
  sampleEvent .done "settings.set_scrcpy_params"
    (.setScrcpyParams ⟨some 4000000, none, none, none, some "aac".toList⟩)

def tornTheme : Event :=
  sampleEvent (.torn "disk full".toList) "settings.set_icon_theme" (.setIconTheme ⟨"light".toList⟩)

def frameRate : Event :=
  sampleEvent .done "settings.set_scrcpy_params"
    (.setScrcpyParams ⟨none, none, some 30, none, none⟩)

end Kulua.Ipc.SettingsHistory
