import Kulua.Foundation.Protobuf

/-! The messages from the daemon to the UI (`proto.rs`), with their fields in the order of the
tags, in which they are written. -/

namespace Kulua.Ipc.Proto
open Foundation Foundation.Text Foundation.Protobuf

structure DeviceIdentity where
  usb : Option Str
  mdns : Option Str
  ip : Option Str

def DeviceIdentity.fields (m : DeviceIdentity) : List Field :=
  optionalString 1 m.usb ++ optionalString 2 m.mdns ++ optionalString 3 m.ip

structure Device where
  uuid : Str
  id : Str
  serial : Str
  state : Str
  name : Str
  identity : Option DeviceIdentity

def Device.fields (m : Device) : List Field :=
  string 1 m.uuid ++ string 2 m.id ++ string 3 m.serial ++ string 4 m.state ++
    string 5 m.name ++ optionalMessage 6 (m.identity.map DeviceIdentity.fields)

structure DeviceListData where
  devices : List Device

def DeviceListData.fields (m : DeviceListData) : List Field :=
  repeatedMessage 1 (m.devices.map Device.fields)

structure SessionSummary where
  uuid : Str
  id : Str
  serial : Str
  name : Str
  state : Str
  sessionState : Str
  clipboardSync : Bool
  notificationSync : Bool
  audioEnabled : Bool
  volume : BitVec 32
  audioBufferMs : BitVec 64
  audioState : Str
  audioError : Str

def SessionSummary.fields (m : SessionSummary) : List Field :=
  string 1 m.uuid ++ string 2 m.id ++ string 3 m.serial ++ string 4 m.name ++
    string 5 m.state ++ string 6 m.sessionState ++ boolean 7 m.clipboardSync ++
    boolean 8 m.notificationSync ++ boolean 9 m.audioEnabled ++ uint32 10 m.volume ++
    uint64 11 m.audioBufferMs ++ string 12 m.audioState ++ string 13 m.audioError

structure SessionListData where
  sessions : List SessionSummary

def SessionListData.fields (m : SessionListData) : List Field :=
  repeatedMessage 1 (m.sessions.map SessionSummary.fields)

structure ClipboardData where
  text : Str
  serial : Str

def ClipboardData.fields (m : ClipboardData) : List Field := string 1 m.text ++ string 2 m.serial

structure NotificationData where
  serial : Str
  title : Str
  text : Str
  app : Str

def NotificationData.fields (m : NotificationData) : List Field :=
  string 1 m.serial ++ string 2 m.title ++ string 3 m.text ++ string 4 m.app

structure AppInfo where
  packageName : Str
  label : Str
  system : Bool

def AppInfo.fields (m : AppInfo) : List Field :=
  string 1 m.packageName ++ string 2 m.label ++ boolean 3 m.system

namespace Response

structure DeviceList where
  devices : List Device

def DeviceList.fields (m : DeviceList) : List Field :=
  repeatedMessage 1 (m.devices.map Device.fields)

structure ClipboardGet where
  text : Str

def ClipboardGet.fields (m : ClipboardGet) : List Field := string 1 m.text

structure PairingInfo where
  dnsId : Str
  psk : Str
  wifiString : Str

def PairingInfo.fields (m : PairingInfo) : List Field :=
  string 1 m.dnsId ++ string 2 m.psk ++ string 3 m.wifiString

structure Settings where
  autostartEnabled : Bool
  autostartSupported : Bool
  videoBitRate : BitVec 32
  videoMaxSize : BitVec 32
  videoMaxFps : BitVec 32
  audioBitRate : BitVec 32
  audioCodec : Str
  iconTheme : Str

def Settings.fields (m : Settings) : List Field :=
  boolean 1 m.autostartEnabled ++ boolean 2 m.autostartSupported ++ uint32 3 m.videoBitRate ++
    uint32 4 m.videoMaxSize ++ uint32 5 m.videoMaxFps ++ uint32 6 m.audioBitRate ++
    string 7 m.audioCodec ++ string 8 m.iconTheme

structure AppList where
  apps : List AppInfo
  fusionSupported : Bool

def AppList.fields (m : AppList) : List Field :=
  repeatedMessage 1 (m.apps.map AppInfo.fields) ++ boolean 2 m.fusionSupported

structure AppOpen where
  windowId : BitVec 64
  addr : Str

def AppOpen.fields (m : AppOpen) : List Field := uint64 1 m.windowId ++ string 2 m.addr

inductive Payload where
  | deviceList (m : DeviceList)
  | adbList (m : DeviceList)
  | clipboardGet (m : ClipboardGet)
  | pairingInfo (m : PairingInfo)
  | settings (m : Settings)
  | appList (m : AppList)
  | appOpen (m : AppOpen)

def Payload.field : Payload → Field
  | .deviceList m => .message 10 m.fields
  | .adbList m => .message 11 m.fields
  | .clipboardGet m => .message 12 m.fields
  | .pairingInfo m => .message 13 m.fields
  | .settings m => .message 14 m.fields
  | .appList m => .message 15 m.fields
  | .appOpen m => .message 16 m.fields

end Response

structure RpcError where
  code : BitVec 32
  message : Str

def RpcError.fields (m : RpcError) : List Field := int32 1 m.code ++ string 2 m.message

structure Response where
  id : BitVec 64
  result : Option Response.Payload
  error : Option RpcError

def Response.fields (m : Response) : List Field :=
  uint64 1 m.id ++ optionalMessage 3 (m.error.map RpcError.fields) ++
    (m.result.map Response.Payload.field).toList

namespace Event

inductive Payload where
  | deviceUpdated (m : DeviceListData)
  | adbUpdated (m : DeviceListData)
  | sessionUpdated (m : SessionListData)
  | clipboardChanged (m : ClipboardData)
  | notification (m : NotificationData)

def Payload.field : Payload → Field
  | .deviceUpdated m => .message 10 m.fields
  | .adbUpdated m => .message 11 m.fields
  | .sessionUpdated m => .message 12 m.fields
  | .clipboardChanged m => .message 13 m.fields
  | .notification m => .message 14 m.fields

end Event

structure Event where
  data : Option Event.Payload

def Event.fields (m : Event) : List Field := (m.data.map Event.Payload.field).toList

end Kulua.Ipc.Proto
