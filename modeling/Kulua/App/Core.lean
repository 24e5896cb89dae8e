import Kulua.App.Handle
import Kulua.DeviceTick
import Kulua.Foundation.Lease

/-! `sync-core/src/app.rs`: the devices of `Core`, their sessions, and every handler that
starts or stops one. Lists stand for hash maps, in the order in which these happen to be
iterated. While a handler waits for a session to stop no other handler runs; what the
other tasks do in the meantime is ordered before or after it. -/

namespace Kulua.App
open Foundation Foundation.Keyed Audio
open DeviceMerge (deviceId)

structure DeviceEntry where
  device : Device
  session : Option Handle
  config : SessionConfig
  deriving DecidableEq, Repr

def DeviceEntry.new (device : Device) : DeviceEntry := ⟨device, none, .default⟩

/-- What the UI is told of a session; the states are sent as text. -/
structure SessionSummary where
  uuid : Nat
  id : String
  serial : String
  name : String
  state : DeviceState
  sessionState : SessionState
  audioBufferMs : Nat
  clipboardSync : Bool
  notificationSync : Bool
  audioEnabled : Bool
  audioState : RunState
  audioError : String
  volume : BitVec 16
  deriving DecidableEq, Repr

/-- The map of the devices that adb lists, with their states. -/
structure Watch where
  entries : List (String × DeviceState)
  distinct : (entries.map Prod.fst).Nodup
  deriving DecidableEq

namespace Watch

def get (w : Watch) (serial : String) : Option DeviceState :=
  (lookup Prod.fst w.entries serial).map Prod.snd

def online (w : Watch) : List String := DeviceMerge.onlineOf w.entries

theorem get_eq_device {w : Watch} {serial : String} :
    w.get serial = some .device ↔ serial ∈ w.online := by
  simp only [get, Option.map_eq_some_iff, lookup_eq_some_iff w.distinct, online,
    DeviceMerge.onlineOf, List.mem_map, List.mem_filter, decide_eq_true_eq]
  tauto

end Watch

/-- The device and the port of a session that was started. -/
structure Start where
  uuid : Nat
  port : BitVec 16
  deriving DecidableEq, Repr

structure Core where
  devices : List DeviceEntry
  nextUuid : Nat
  portCounter : BitVec 16
  deviceWatch : Watch
  /-- `audio_codec` of the settings file. -/
  audioCodec : String
  sessionWatch : List SessionSummary
  cancelled : Bool
  /-- The sessions started so far; no handler reads them. -/
  starts : List Start
  /-- What became of their handles: `closed` is a call of `stop`. -/
  trace : List (Lease.Event Nat)
  deriving DecidableEq

def init : Core :=
  ⟨[], 0, 27183, ⟨[], List.nodup_nil⟩, defaultAudioCodec, [], false, [], []⟩

namespace DeviceEntry

/-- The entry as `insert_device` sees it. -/
def view (e : DeviceEntry) : DeviceMerge.DeviceEntry := ⟨e.device, e.session.isSome⟩

def touch (serial : String) (state : DeviceState) (e : DeviceEntry) : DeviceEntry :=
  { e with device := (e.view.touch serial state).device }

def take (e : DeviceEntry) : DeviceEntry := { e with session := none }

def mapSession (g : Handle → Handle) (e : DeviceEntry) : DeviceEntry :=
  { e with session := e.session.map g }

def rename (name : String) (e : DeviceEntry) : DeviceEntry :=
  { e with device := { e.device with name := name } }

/-- What `UpdateConfig` does to its entry. -/
def configure (clipboardSync notificationSync audioSync : Bool) (volume : BitVec 16)
    (e : DeviceEntry) : DeviceEntry :=
  { e with
    config := ⟨clipboardSync, notificationSync, audioSync, volume, e.config.audioCodec⟩
    session := e.session.map fun h =>
      let set := { h with
        clipboardEnabled := clipboardSync
        notificationEnabled := notificationSync
        volume := volume }
      if e.config.audioEnabled ≠ audioSync then
        set.sendAudioTarget ⟨audioSync, h.audioTarget.codec⟩
      else set }

/-- The test by which `Disconnect` and `StartSession` find a device. -/
def answersTo (serial : String) (e : DeviceEntry) : Bool :=
  e.device.serial = serial || e.device.id = serial || e.device.identity.containsAddr serial

end DeviceEntry

namespace Core

/-- `devices.get(&uuid)`. -/
def entry (c : Core) (uuid : Nat) : Option DeviceEntry :=
  lookup (fun e : DeviceEntry => e.device.uuid) c.devices uuid

def held (c : Core) (uuid : Nat) : Option Handle := (c.entry uuid).bind (·.session)

/-- `devices.get_mut(&uuid)`. -/
def update (c : Core) (uuid : Nat) (f : DeviceEntry → DeviceEntry) : Core :=
  { c with devices := c.devices.map fun e => if e.device.uuid = uuid then f e else e }

def emit (c : Core) (e : Lease.Event Nat) : Core := { c with trace := c.trace ++ [e] }

def insertDevice (getprop : String → Option String) (c : Core) (serial : String)
    (state : DeviceState) : Core :=
  match modifyFirst (fun e => e.device.identity.containsAddr serial) (.touch serial state)
      c.devices with
  | some devices => { c with devices := devices }
  | none =>
    let id := deviceId getprop serial state
    match modifyFirst (fun e => e.device.id = id) (.touch serial state) c.devices with
    | some devices => { c with devices := devices }
    | none =>
      { c with
        devices := c.devices ++
          [.new ⟨c.nextUuid, id, serial, state, "", .ofAddr serial⟩]
        nextUuid := c.nextUuid + 1 }

/-- The handle of a session that is being started. -/
def newHandle (c : Core) (device : Device) (cfg : SessionConfig) : Handle where
  session := c.starts.length
  device := device
  port := c.portCounter
  finished := false
  clipboardEnabled := cfg.clipboardSync
  notificationEnabled := cfg.notificationSync
  volume := cfg.volume
  sessionState := .connecting
  audioLatency := 0
  audioTarget := ⟨cfg.audioEnabled, (AudioCodec.fromName cfg.audioCodec).handshakeByte⟩
  audioRuntime := ⟨0, .off, 0, ""⟩

/-- What `start_session` writes into the entry. -/
def install (c : Core) (device : Device) (e : DeviceEntry) : DeviceEntry :=
  let cfg := { e.config with audioCodec := c.audioCodec }
  { e with session := some (c.newHandle device cfg), config := cfg }

def startSession (c : Core) (device : Device) : Core :=
  if c.devices.any fun e => e.session.isSome && e.device.uuid = device.uuid then c
  else
    let next : Core :=
      { c with
        portCounter := c.portCounter + 1
        starts := c.starts ++ [⟨device.uuid, c.portCounter⟩]
        trace := c.trace ++ [.opened c.starts.length device.uuid] }
    match c.entry device.uuid with
    | none => next.emit (.dropped c.starts.length)
    | some _ => next.update device.uuid (c.install device)

/-- `entry.session.take()`, and `stop` of what was there. -/
def takeAndStop (c : Core) (uuid : Nat) : Core :=
  match c.held uuid with
  | none => c
  | some h => (c.update uuid .take).emit (.closed h.session)

/-- Afterwards the handle goes out of scope. -/
def discard (c : Core) (uuid : Nat) : Core :=
  match c.held uuid with
  | none => c
  | some h => (c.takeAndStop uuid).emit (.dropped h.session)

def cmdDisconnect (c : Core) (serial : String) : Core :=
  match c.devices.find? fun e => e.answersTo serial && e.session.isSome with
  | none => c
  | some e => c.discard e.device.uuid

/-- Here the handle goes out of scope after the new session is started. -/
def cmdRetry (c : Core) (uuid : Nat) : Core :=
  match c.entry uuid with
  | none => c
  | some e =>
    match e.session with
    | none => c
    | some h =>
      if h.isFailed then
        let stopped := c.takeAndStop uuid
        let next :=
          if stopped.deviceWatch.get e.device.serial = some .device then stopped.startSession e.device
          else stopped
        next.emit (.dropped h.session)
      else c

/-- A running session gets the new codec and keeps its switch; the others stay as they are. -/
def hotSwap (codec : AudioCodec) (e : DeviceEntry) : DeviceEntry :=
  match e.session with
  | some h =>
    if h.sessionState = .running then
      { e with
        session := some (h.sendAudioTarget ⟨h.audioTarget.enabled, codec.handshakeByte⟩)
        config := { e.config with audioCodec := codec.name } }
    else e
  | none => e

def needsRestart (e : DeviceEntry) : Bool :=
  match e.session with
  | some h => h.sessionState ≠ .running
  | none => false

/-- The devices whose sessions are built anew. -/
def restarting (c : Core) : List Device := (c.devices.filter needsRestart).map (·.device)

def swapped (c : Core) : Core :=
  { c with devices := c.devices.map (hotSwap (AudioCodec.fromName c.audioCodec)) }

def cmdRestartAllSessions (c : Core) : Core :=
  c.restarting.foldl startSession ((c.restarting.map (·.uuid)).foldl discard c.swapped)

/-- An entry that is missing is made from what adb lists. -/
def listed (getprop : String → Option String) (c : Core) (serial : String) : Core :=
  if c.devices.any (·.answersTo serial) then c
  else if (c.deviceWatch.get serial).getD .offline = .device then
    c.insertDevice getprop serial .device
  else c

def cmdStartSession (getprop : String → Option String) (c : Core) (serial : String) : Core :=
  let listed := c.listed getprop serial
  match listed.devices.find? (·.answersTo serial) with
  | none => listed
  | some e =>
    if e.session.any (!·.isFailed) then listed
    else if e.device.state = .device then (listed.discard e.device.uuid).startSession e.device
    else listed

def cmdUpdateConfig (c : Core) (uuid : Nat) (clipboardSync notificationSync audioSync : Bool)
    (volume : BitVec 16) : Core :=
  c.update uuid (.configure clipboardSync notificationSync audioSync volume)

def checkDeadSessions (c : Core) : Core :=
  { c with devices := c.devices.map (.mapSession .checkDead) }

def stopDisconnectedSessions (c : Core) (adbDevices : List String) : Core :=
  let toStop := (c.devices.filter fun e =>
    e.session.isSome && decide (e.device.serial ∉ adbDevices)).map (·.device.uuid)
  toStop.foldl discard c

def summaries (c : Core) : List SessionSummary :=
  c.devices.filterMap fun e => e.session.map fun h =>
    { uuid := e.device.uuid
      id := e.device.id
      serial := e.device.serial
      name := e.device.name
      state := e.device.state
      sessionState := h.sessionState
      audioBufferMs := h.audioLatency
      clipboardSync := e.config.clipboardSync
      notificationSync := e.config.notificationSync
      audioEnabled := h.audioTarget.enabled
      audioState := h.audioRuntime.state
      audioError := h.audioRuntime.error
      volume := e.config.volume }

def pushSessionList (c : Core) : Core :=
  if c.sessionWatch ≠ c.summaries then { c with sessionWatch := c.summaries } else c

/-- The merge loop of `on_tick`. -/
def mergeOnline (getprop : String → Option String) (c : Core) (online : List String) : Core :=
  online.foldl (fun c serial => c.insertDevice getprop serial .device) c

def onTick (getprop : String → Option String) (c : Core) : Core :=
  let online := c.deviceWatch.online
  (((c.mergeOnline getprop online).checkDeadSessions).stopDisconnectedSessions online).pushSessionList

def onDeviceName (c : Core) (serial name : String) : Core :=
  { c with devices :=
      (modifyFirst (fun e => e.device.serial = serial) (.rename name) c.devices).getD c.devices }

def stopAll (c : Core) : Core :=
  { (c.devices.map (·.device.uuid)).foldl discard c with devices := [], cancelled := true }

/-- The task of one session does something. -/
def onTask (c : Core) (session : Nat) (event : TaskEvent) : Core :=
  { c with devices := c.devices.map (.mapSession fun h =>
      if h.session = session then h.onTask event else h) }

/-- Another order in which the hash map of the devices is iterated. -/
def rehash (c : Core) (order : List Nat) : Core :=
  let devices := order.filterMap c.entry
  if devices.Perm c.devices then { c with devices := devices } else c

end Core

inductive Action where
  | tick (getprop : String → Option String)
  | disconnect (serial : String)
  | retry (uuid : Nat)
  | restartAllSessions
  | startSession (getprop : String → Option String) (serial : String)
  | updateConfig (uuid : Nat) (clipboardSync notificationSync audioSync : Bool)
      (volume : BitVec 16)
  | deviceName (serial name : String)
  | shutdown
  | task (session : Nat) (event : TaskEvent)
  /-- What adb lists changes, or is iterated in another order. -/
  | track (watch : Watch)
  | settings (audioCodec : String)
  | rehash (order : List Nat)

/-- The main loop of `run`: once the token is cancelled nothing is handled any more. -/
def step (c : Core) (a : Action) : Core :=
  if c.cancelled then c
  else
    match a with
    | .tick getprop => c.onTick getprop
    | .disconnect serial => c.cmdDisconnect serial
    | .retry uuid => c.cmdRetry uuid
    | .restartAllSessions => c.cmdRestartAllSessions
    | .startSession getprop serial => c.cmdStartSession getprop serial
    | .updateConfig uuid clipboardSync notificationSync audioSync volume =>
      c.cmdUpdateConfig uuid clipboardSync notificationSync audioSync volume
    | .deviceName serial name => c.onDeviceName serial name
    | .shutdown => c.stopAll
    | .task session event => c.onTask session event
    | .track watch => { c with deviceWatch := watch }
    | .settings audioCodec => { c with audioCodec := audioCodec }
    | .rehash order => c.rehash order

end Kulua.App
