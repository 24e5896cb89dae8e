import Kulua.Ipc.Proto
import Kulua.Ipc.Request
import Kulua.Ipc.Settings

/-! What the daemon answers to a request, what it asks of the core and what it does to the settings
(`dispatch_request` of `server.rs`, `handlers.rs`). -/

namespace Kulua.Ipc
open Foundation Foundation.Text Settings

/-- `uuid::Uuid`. -/
abbrev Uuid := BitVec 128

/-- `Command` of `app.rs`, without the ends over which the core replies. -/
inductive Command where
  | connect (serial : Str)
  | disconnect (serial : Str)
  | retry (uuid : Uuid)
  | startSession (serial : Str)
  | restartAllSessions
  | updateConfig (uuid : Uuid) (clipboardSync notificationSync audioSync : Bool)
      (volume : BitVec 16)
  | listApps (uuid : Uuid) (force : Bool)
  | openApp (uuid : Uuid) (packageName : Str)
deriving DecidableEq

structure WirelessPairing where
  dnsId : Str
  psk : Str

def WirelessPairing.getInfo (p : WirelessPairing) : Str :=
  "WIFI:T:ADB;S:".toList ++ p.dnsId ++ ";P:".toList ++ p.psk ++ ";;".toList

structure AppListReply where
  apps : List Proto.AppInfo
  fusionSupported : Bool

/-- What a handler that waits for the core comes to: an answer, the end of the core, or the end of
its patience. -/
inductive Reply (α : Type) where
  | answer (value : α)
  | refusal (message : Str)
  | dropped
  | elapsed

/-- What does not change while the daemon runs. -/
structure Daemon where
  pairInfo : WirelessPairing
  /-- `platform_supported` of `autostart.rs`. -/
  autostartSupported : Bool
  /-- `str::parse::<Uuid>`. -/
  parseUuid : Str → Option Uuid

/-- What a request can change, beside what it asks of the core. -/
structure Disk where
  config : Option ConfigFile
  /-- The entry by which the system starts the daemon. -/
  entry : Bool
deriving DecidableEq

/-- What a handler meets outside of it. -/
structure Surroundings where
  merged : List Proto.Device
  adb : List Proto.Device
  clipboard : Option Str
  coreOpen : Bool
  appList : Reply AppListReply
  appOpen : Reply (BitVec 64 × Str)
  write : Write
  entryFailure : Option Str

structure Outcome where
  response : Proto.Response
  commands : List Command
  disk : Disk

def errorCode : BitVec 32 := -1

def makeResult (id : BitVec 64) (result : Proto.Response.Payload) : Proto.Response :=
  ⟨id, some result, none⟩

def makeOk (id : BitVec 64) : Proto.Response := ⟨id, none, none⟩

def makeError (id : BitVec 64) (message : Str) : Proto.Response :=
  ⟨id, none, some ⟨errorCode, message⟩⟩

namespace Handlers

variable (daemon : Daemon) (around : Surroundings) (req : Proto.Request) (disk : Disk)

/-- A handler that asks nothing of the core and leaves the settings alone. -/
def say (response : Proto.Response) : Outcome := ⟨response, [], disk⟩

def fail (message : String) : Outcome := say disk (makeError req.id message.toList)

/-- `cmd_tx.send`, and what is done when the core has taken the command. -/
def send (command : Command) (response : Proto.Response) : Outcome :=
  if around.coreOpen then ⟨response, [command], disk⟩ else fail req disk "core 正在关闭"

def deviceList : Outcome := say disk (makeResult req.id (.deviceList ⟨around.merged⟩))

def deviceAdbList : Outcome := say disk (makeResult req.id (.adbList ⟨around.adb⟩))

/-- A command for the device of a serial: `missing` is the text for parameters of another kind. -/
def serialCommand (missing : String) (params : Option Proto.Request.DeviceSerial)
    (command : Str → Command) : Outcome :=
  match params with
  | none => fail req disk missing
  | some params =>
    if params.serial = [] then fail req disk "缺少 serial 参数"
    else send around req disk (command params.serial) (makeOk req.id)

def deviceConnect : Outcome :=
  serialCommand around req disk "缺少 device.connect 参数"
    (match req.params with | some (.deviceConnect m) => some m | _ => none) .connect

def deviceDisconnect : Outcome :=
  serialCommand around req disk "缺少 device.disconnect 参数"
    (match req.params with | some (.deviceDisconnect m) => some m | _ => none) .disconnect

def sessionStart : Outcome :=
  serialCommand around req disk "缺少 session.start 参数"
    (match req.params with | some (.sessionStart m) => some m | _ => none) .startSession

def clipboardGet : Outcome :=
  say disk (makeResult req.id (.clipboardGet ⟨around.clipboard.getD []⟩))

def pairingInfo : Outcome :=
  say disk (makeResult req.id
    (.pairingInfo ⟨daemon.pairInfo.dnsId, daemon.pairInfo.psk, daemon.pairInfo.getInfo⟩))

/-- A command for the session of a UUID. -/
def uuidCommand (uuid : Str) (command : Uuid → Command) : Outcome :=
  if uuid = [] then fail req disk "缺少 uuid 参数"
  else match daemon.parseUuid uuid with
    | some parsed => send around req disk (command parsed) (makeOk req.id)
    | none => fail req disk "无效 uuid 格式"

/-- The volume is at most 100, so that its cut to 16 bits loses nothing. -/
def sessionUpdate : Outcome :=
  match req.params with
  | some (.sessionUpdate params) =>
    uuidCommand daemon around req disk params.uuid fun uuid =>
      .updateConfig uuid (params.clipboardSync.getD true) (params.notificationSync.getD true)
        (params.audioSync.getD false) (BitVec.ofNat 16 (min (params.volume.getD 80).toNat 100))
  | _ => fail req disk "缺少 session.update 参数"

def sessionRetry : Outcome :=
  match req.params with
  | some (.sessionRetry params) => uuidCommand daemon around req disk params.uuid .retry
  | _ => fail req disk "缺少 session.retry 参数"

/-- The command has gone to the core; what comes of the wait for its reply. -/
def awaitReply {α : Type} (reply : Reply α) (late : String) (result : α → Proto.Response.Payload) :
    Proto.Response :=
  match reply with
  | .answer value => makeResult req.id (result value)
  | .refusal message => makeError req.id message
  | .dropped => makeError req.id "core 正在关闭".toList
  | .elapsed => makeError req.id late.toList

def appList : Outcome :=
  match req.params with
  | some (.appListParams params) =>
    match daemon.parseUuid params.uuid with
    | none => fail req disk "无效 uuid 格式"
    | some uuid =>
      send around req disk (.listApps uuid params.force)
        (awaitReply req around.appList "应用枚举超时" fun reply =>
          .appList ⟨reply.apps, reply.fusionSupported⟩)
  | _ => fail req disk "缺少 app.list 参数"

def appOpen : Outcome :=
  match req.params with
  | some (.appOpenParams params) =>
    match daemon.parseUuid params.uuid with
    | none => fail req disk "无效 uuid 格式"
    | some uuid =>
      if params.packageName = [] then fail req disk "缺少 package_name 参数"
      else send around req disk (.openApp uuid params.packageName)
        (awaitReply req around.appOpen "打开应用超时" fun (windowId, addr) =>
          .appOpen ⟨windowId, addr⟩)
  | _ => fail req disk "缺少 app.open 参数"

/-- The settings are read again for the answer. -/
def settingsPayload (state : Autostart.AutostartState) : Proto.Response.Settings :=
  let config := read disk.config
  ⟨state.enabled, state.supported, config.videoBitRate, config.videoMaxSize, config.videoMaxFps,
    config.audioBitRate, config.audioCodec, config.iconTheme⟩

/-- `autostart::current_state`. -/
def currentState : Autostart.AutostartState :=
  ⟨(read disk.config).autostartEnabled, daemon.autostartSupported⟩

/-- The answer that tells the settings as they are. -/
def tellSettings : Proto.Response :=
  makeResult req.id (.settings (settingsPayload disk (currentState daemon disk)))

def settingsGet : Outcome := say disk (tellSettings daemon req disk)

/-- `autostart::set_enabled`: the file first, the entry of the system after it. -/
def settingsSetAutostart : Outcome :=
  match req.params with
  | some (.setAutostart params) =>
    let config := { read disk.config with autostartEnabled := params.enabled }
    let failed (disk : Disk) (error : Str) : Outcome :=
      say disk (makeError req.id ("设置自启动失败: ".toList ++ error))
    match write around.write disk.config config with
    | (file, some error) => failed { disk with config := file } error
    | (file, none) =>
      match Autostart.setPlatformEntry daemon.autostartSupported around.entryFailure disk.entry
        params.enabled with
      | (entry, some error) => failed ⟨file, entry⟩ error
      | (entry, none) =>
        say ⟨file, entry⟩ (makeResult req.id (.settings
          (settingsPayload ⟨file, entry⟩ ⟨params.enabled, daemon.autostartSupported⟩)))
  | _ => fail req disk "缺少 settings.set_autostart 参数"

def audioCodecs : List Str := ["opus".toList, "aac".toList, "flac".toList, "raw".toList]

/-- The fields that are given take the place of those in the file. -/
def applyParams (config : AppConfig) (params : Proto.Request.SetScrcpyParams) : AppConfig :=
  { config with
    videoBitRate := params.videoBitRate.getD config.videoBitRate
    videoMaxSize := params.videoMaxSize.getD config.videoMaxSize
    videoMaxFps := params.videoMaxFps.getD config.videoMaxFps
    audioBitRate := params.audioBitRate.getD config.audioBitRate
    audioCodec := params.audioCodec.getD config.audioCodec }

def settingsSetScrcpyParams : Outcome :=
  match req.params with
  | some (.setScrcpyParams params) =>
    match params.audioCodec.filter (!audioCodecs.contains ·) with
    | some codec => say disk (makeError req.id ("不支持的音频编码器: ".toList ++ codec))
    | none =>
      match write around.write disk.config (applyParams (read disk.config) params) with
      | (file, some error) =>
        say { disk with config := file } (makeError req.id ("保存 scrcpy 参数失败: ".toList ++ error))
      | (file, none) =>
        send around req { disk with config := file } .restartAllSessions
          (tellSettings daemon req { disk with config := file })
  | _ => fail req disk "缺少 settings.set_scrcpy_params 参数"

def iconThemes : List Str := ["dark".toList, "light".toList]

def settingsSetIconTheme : Outcome :=
  match req.params with
  | some (.setIconTheme params) =>
    if !iconThemes.contains params.iconTheme then
      say disk (makeError req.id ("不支持的图标主题: ".toList ++ params.iconTheme))
    else
      match write around.write disk.config { read disk.config with iconTheme := params.iconTheme } with
      | (file, some error) =>
        say { disk with config := file } (makeError req.id ("保存图标主题失败: ".toList ++ error))
      | (file, none) =>
        say { disk with config := file } (tellSettings daemon req { disk with config := file })
  | _ => fail req disk "缺少 settings.set_icon_theme 参数"

/-- The names of the methods and their handlers. -/
def dispatchRequest : Outcome :=
  match String.ofList req.method with
  | "device.list" => deviceList around req disk
  | "device.adb_list" => deviceAdbList around req disk
  | "device.connect" => deviceConnect around req disk
  | "device.disconnect" => deviceDisconnect around req disk
  | "clipboard.get" => clipboardGet around req disk
  | "pairing.info" => pairingInfo daemon req disk
  | "session.update" => sessionUpdate daemon around req disk
  | "session.retry" => sessionRetry daemon around req disk
  | "session.start" => sessionStart around req disk
  | "app.list" => appList daemon around req disk
  | "app.open" => appOpen daemon around req disk
  | "settings.get" => settingsGet daemon req disk
  | "settings.set_autostart" => settingsSetAutostart daemon around req disk
  | "settings.set_scrcpy_params" => settingsSetScrcpyParams daemon around req disk
  | "settings.set_icon_theme" => settingsSetIconTheme daemon around req disk
  | _ => say disk (makeError req.id ("未知方法: ".toList ++ req.method))

section Answers
variable {daemon : Daemon} {around : Surroundings} {req : Proto.Request} {disk : Disk}

/-- What an answer can be. The device list in one is the one that was published last. -/
inductive Answer (merged : List Proto.Device) (id : BitVec 64) : Proto.Response → Prop
  | ok : Answer merged id (makeOk id)
  | error (message : Str) : Answer merged id (makeError id message)
  | result (result : Proto.Response.Payload) (devices : ∀ m, result = .deviceList m →
      m.devices = merged) : Answer merged id (makeResult id result)

variable {merged : List Proto.Device}

theorem answer_send {command : Command} {response : Proto.Response}
    (h : Answer merged req.id response) :
    Answer merged req.id (send around req disk command response).response := by
  rw [send]
  split
  · exact h
  · exact .error _

theorem answer_serialCommand (missing : String) (params : Option Proto.Request.DeviceSerial)
    (command : Str → Command) :
    Answer merged req.id (serialCommand around req disk missing params command).response := by
  unfold serialCommand
  split
  · exact .error _
  · split
    · exact .error _
    · exact answer_send .ok

theorem answer_uuidCommand (uuid : Str) (command : Uuid → Command) :
    Answer merged req.id (uuidCommand daemon around req disk uuid command).response := by
  unfold uuidCommand
  split
  · exact .error _
  · split
    · exact answer_send .ok
    · exact .error _

theorem answer_awaitReply {α : Type} (reply : Reply α) (late : String)
    {result : α → Proto.Response.Payload} (h : ∀ value m, result value ≠ .deviceList m) :
    Answer merged req.id (awaitReply req reply late result) := by
  cases reply with
  | answer value => exact .result _ fun m hm => absurd hm (h value m)
  | _ => exact .error _

theorem answer_dispatchRequest :
    Answer around.merged req.id (dispatchRequest daemon around req disk).response := by
  unfold dispatchRequest
  split
  case h_1 => exact .result _ fun m hm => by cases hm; rfl
  case h_3 => exact answer_serialCommand _ _ _
  case h_4 => exact answer_serialCommand _ _ _
  case h_7 =>
    unfold sessionUpdate
    split
    · exact answer_uuidCommand _ _
    · exact .error _
  case h_8 =>
    unfold sessionRetry
    split
    · exact answer_uuidCommand _ _
    · exact .error _
  case h_9 => exact answer_serialCommand _ _ _
  case h_10 =>
    unfold appList
    split
    · split
      · exact .error _
      · exact answer_send (answer_awaitReply _ _ (by simp))
    · exact .error _
  case h_11 =>
    unfold appOpen
    split
    · split
      · exact .error _
      · split
        · exact .error _
        · exact answer_send (answer_awaitReply _ _ (by simp))
    · exact .error _
  case h_13 =>
    unfold settingsSetAutostart
    split
    · dsimp only
      split
      · exact .error _
      · split
        · exact .error _
        · exact .result _ (by simp)
    · exact .error _
  case h_14 =>
    unfold settingsSetScrcpyParams
    split
    · split
      · exact .error _
      · split
        · exact .error _
        · exact answer_send (.result _ (by simp))
    · exact .error _
  case h_15 =>
    unfold settingsSetIconTheme
    split
    · split
      · exact .error _
      · split
        · exact .error _
        · exact .result _ (by simp)
    · exact .error _
  case h_16 => exact .error _
  all_goals exact .result _ (by simp)

theorem Answer.id_eq {id : BitVec 64} {response : Proto.Response}
    (h : Answer merged id response) : response.id = id := by
  cases h <;> rfl

theorem Answer.devices_eq {id : BitVec 64} {response : Proto.Response}
    (h : Answer merged id response) {m : Proto.Response.DeviceList}
    (hm : response.result = some (.deviceList m)) : m.devices = merged := by
  cases h with
  | result result devices => exact devices m (Option.some.inj hm)
  | _ => cases hm

/-- A request is answered under its own id. -/
theorem dispatchRequest_id : (dispatchRequest daemon around req disk).response.id = req.id :=
  answer_dispatchRequest.id_eq

end Answers

end Handlers
end Kulua.Ipc
