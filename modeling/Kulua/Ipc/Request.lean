import Kulua.Foundation.Protobuf

/-! The messages from the UI to the daemon (`proto.rs`), with their fields in the order of the
tags, in which they are written. -/

namespace Kulua.Ipc.Proto
open Foundation Foundation.Text Foundation.Protobuf

namespace Request

structure DeviceSerial where
  serial : Str
deriving DecidableEq

def DeviceSerial.fields (m : DeviceSerial) : List Field := string 1 m.serial

structure UuidParam where
  uuid : Str
deriving DecidableEq

def UuidParam.fields (m : UuidParam) : List Field := string 1 m.uuid

/-- A switch or a volume that is not given stands apart from one that is off or 0. -/
structure SessionUpdate where
  uuid : Str
  clipboardSync : Option Bool
  notificationSync : Option Bool
  audioSync : Option Bool
  volume : Option (BitVec 32)
deriving DecidableEq

def SessionUpdate.fields (m : SessionUpdate) : List Field :=
  string 1 m.uuid ++ optionalBoolean 2 m.clipboardSync ++ optionalBoolean 3 m.notificationSync ++
    optionalBoolean 4 m.audioSync ++ optionalUint32 5 m.volume

structure SetAutostart where
  enabled : Bool
deriving DecidableEq

def SetAutostart.fields (m : SetAutostart) : List Field := boolean 1 m.enabled

/-- What is not given stays as it is. -/
structure SetScrcpyParams where
  videoBitRate : Option (BitVec 32)
  videoMaxSize : Option (BitVec 32)
  videoMaxFps : Option (BitVec 32)
  audioBitRate : Option (BitVec 32)
  audioCodec : Option Str
deriving DecidableEq

def SetScrcpyParams.fields (m : SetScrcpyParams) : List Field :=
  optionalUint32 1 m.videoBitRate ++ optionalUint32 2 m.videoMaxSize ++
    optionalUint32 3 m.videoMaxFps ++ optionalUint32 4 m.audioBitRate ++
    optionalString 5 m.audioCodec

structure SetIconTheme where
  iconTheme : Str
deriving DecidableEq

def SetIconTheme.fields (m : SetIconTheme) : List Field := string 1 m.iconTheme

structure AppListParams where
  uuid : Str
  force : Bool
deriving DecidableEq

def AppListParams.fields (m : AppListParams) : List Field := string 1 m.uuid ++ boolean 2 m.force

structure AppOpenParams where
  uuid : Str
  packageName : Str
deriving DecidableEq

def AppOpenParams.fields (m : AppOpenParams) : List Field :=
  string 1 m.uuid ++ string 2 m.packageName

inductive Payload where
  | deviceConnect (m : DeviceSerial)
  | deviceDisconnect (m : DeviceSerial)
  | sessionUpdate (m : SessionUpdate)
  | sessionRetry (m : UuidParam)
  | sessionStart (m : DeviceSerial)
  | setAutostart (m : SetAutostart)
  | setScrcpyParams (m : SetScrcpyParams)
  | setIconTheme (m : SetIconTheme)
  | appListParams (m : AppListParams)
  | appOpenParams (m : AppOpenParams)
deriving DecidableEq

def Payload.field : Payload → Field
  | .deviceConnect m => .message 10 m.fields
  | .deviceDisconnect m => .message 11 m.fields
  | .sessionUpdate m => .message 12 m.fields
  | .sessionRetry m => .message 13 m.fields
  | .sessionStart m => .message 14 m.fields
  | .setAutostart m => .message 15 m.fields
  | .setScrcpyParams m => .message 16 m.fields
  | .setIconTheme m => .message 19 m.fields
  | .appListParams m => .message 17 m.fields
  | .appOpenParams m => .message 18 m.fields

end Request

structure Request where
  id : BitVec 64
  method : Str
  params : Option Request.Payload
deriving DecidableEq

def Request.fields (m : Request) : List Field :=
  uint64 1 m.id ++ string 2 m.method ++ (m.params.map Request.Payload.field).toList

end Kulua.Ipc.Proto
