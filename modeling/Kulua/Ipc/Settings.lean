import Kulua.Foundation.Text

/-! The settings of the application (`settings.rs`) and the entry by which the system starts the
daemon (`autostart.rs`). The text of the file is JSON; here it is the fields that the text has. -/

namespace Kulua.Ipc
open Foundation.Text

namespace Settings

def defaultVideoBitRate : BitVec 32 := 8000000
def defaultAudioBitRate : BitVec 32 := 128000
def defaultAudioCodec : Str := "opus".toList
def defaultIconTheme : Str := "dark".toList

structure AppConfig where
  autostartEnabled : Bool
  videoBitRate : BitVec 32
  videoMaxSize : BitVec 32
  videoMaxFps : BitVec 32
  audioBitRate : BitVec 32
  audioCodec : Str
  iconTheme : Str
deriving DecidableEq

def AppConfig.default : AppConfig :=
  ⟨false, defaultVideoBitRate, 0, 0, defaultAudioBitRate, defaultAudioCodec, defaultIconTheme⟩

/-- The fields in the text of a file; the file of an earlier version lacks some of them. -/
structure ConfigFile where
  autostartEnabled : Option Bool
  videoBitRate : Option (BitVec 32)
  videoMaxSize : Option (BitVec 32)
  videoMaxFps : Option (BitVec 32)
  audioBitRate : Option (BitVec 32)
  audioCodec : Option Str
  iconTheme : Option Str
deriving DecidableEq

/-- Every field has a default of its own. -/
def ConfigFile.parse (f : ConfigFile) : AppConfig :=
  ⟨f.autostartEnabled.getD false, f.videoBitRate.getD defaultVideoBitRate, f.videoMaxSize.getD 0,
    f.videoMaxFps.getD 0, f.audioBitRate.getD defaultAudioBitRate,
    f.audioCodec.getD defaultAudioCodec, f.iconTheme.getD defaultIconTheme⟩

def AppConfig.file (c : AppConfig) : ConfigFile :=
  ⟨some c.autostartEnabled, some c.videoBitRate, some c.videoMaxSize, some c.videoMaxFps,
    some c.audioBitRate, some c.audioCodec, some c.iconTheme⟩

/-- There may be no file, or one that does not parse. -/
def read (file : Option ConfigFile) : AppConfig := (file.map ConfigFile.parse).getD .default

@[simp] theorem read_file (c : AppConfig) : read (some c.file) = c := rfl

/-- How a write goes: it may fail before the file is touched, or after it was cut off. -/
inductive Write where
  | done
  | refused (error : Str)
  | torn (error : Str)

/-- The file after a write, and the error. -/
def write (w : Write) (file : Option ConfigFile) (c : AppConfig) : Option ConfigFile × Option Str :=
  match w with
  | .done => (some c.file, none)
  | .refused error => (file, some error)
  | .torn error => (none, some error)

end Settings

namespace Autostart

structure AutostartState where
  enabled : Bool
  supported : Bool
deriving DecidableEq

/-- The entry of the system, when it can be set, is there or is not. -/
def setPlatformEntry (supported : Bool) (failure : Option Str) (entry enabled : Bool) :
    Bool × Option Str :=
  if supported then
    match failure with
    | none => (enabled, none)
    | some error => (entry, some error)
  else (entry, none)

/-- At the start of the daemon the entry is made to agree with the settings; a failure is only
logged. -/
def reconcile (supported : Bool) (failure : Option Str) (config : Settings.AppConfig)
    (entry : Bool) : Bool :=
  if supported then (setPlatformEntry supported failure entry config.autostartEnabled).1 else entry

end Autostart
end Kulua.Ipc
