import Kulua.Foundation.ProtobufDecode
import Kulua.Ipc.Proto
import Kulua.Ipc.Request

/-! How the two ends read the messages of `proto.rs`: what each message does with a field, by the
tags of its attributes. -/

namespace Kulua.Ipc.Proto
open Foundation Foundation.Text Foundation.Protobuf

def DeviceIdentity.merge : Merge DeviceIdentity := fun m field =>
  match field with
  | (1, w) => w.string.map fun v => { m with usb := some v }
  | (2, w) => w.string.map fun v => { m with mdns := some v }
  | (3, w) => w.string.map fun v => { m with ip := some v }
  | _ => some m

theorem DeviceIdentity.takeUp_fields (m : DeviceIdentity) :
    takeUp merge ⟨none, none, none⟩ m.fields = some m := by
  rw [fields, takeUp_append, takeUp_append,
    takeUp_optionalString (fun v => (⟨v, none, none⟩ : DeviceIdentity)) (by simp [merge]),
    Option.bind_some,
    takeUp_optionalString (fun v => (⟨m.usb, v, none⟩ : DeviceIdentity)) (by simp [merge]),
    Option.bind_some,
    takeUp_optionalString (fun v => (⟨m.usb, m.mdns, v⟩ : DeviceIdentity)) (by simp [merge])]

instance : Message DeviceIdentity where
  default := ⟨none, none, none⟩
  fields := DeviceIdentity.fields
  merge := DeviceIdentity.merge
  sound m := by simp [DeviceIdentity.fields]
  takeUp_fields m _ := m.takeUp_fields

def Device.merge : Merge Device := fun m field =>
  match field with
  | (1, w) => w.string.map fun v => { m with uuid := v }
  | (2, w) => w.string.map fun v => { m with id := v }
  | (3, w) => w.string.map fun v => { m with serial := v }
  | (4, w) => w.string.map fun v => { m with state := v }
  | (5, w) => w.string.map fun v => { m with name := v }
  | (6, w) => (w.message DeviceIdentity.merge (m.identity.getD default)).map
      fun v => { m with identity := some v }
  | _ => some m

theorem Device.takeUp_fields (m : Device) (hlen : encodedLen m.fields < 2 ^ 64) :
    takeUp merge ⟨[], [], [], [], [], none⟩ m.fields = some m := by
  have hidentity : ∀ x, m.identity = some x →
      merge ⟨m.uuid, m.id, m.serial, m.state, m.name, none⟩ (6, .bytes (encode x.fields)) =
        some ⟨m.uuid, m.id, m.serial, m.state, m.name, some x⟩ := by
    intro x hx
    have hmem : Field.message 6 x.fields ∈ m.fields := by simp [fields, optionalMessage, hx]
    have hx' := lt_of_le_of_lt (encodedLen_le_of_mem hmem) hlen
    exact Message.map_message_fields hx' _
  have htake := takeUp_optionalMessage
    (fun v => (⟨m.uuid, m.id, m.serial, m.state, m.name, v⟩ : Device)) DeviceIdentity.fields
    m.identity hidentity
  have hscalars : takeUp merge ⟨[], [], [], [], [], none⟩ (string 1 m.uuid ++ string 2 m.id ++
      string 3 m.serial ++ string 4 m.state ++ string 5 m.name) =
      some ⟨m.uuid, m.id, m.serial, m.state, m.name, none⟩ := by
    simp [takeUp_append, takeUp_string, merge]
  rw [fields, takeUp_append, hscalars, Option.bind_some, htake]

instance : Message Device where
  default := ⟨[], [], [], [], [], none⟩
  fields := Device.fields
  merge := Device.merge
  sound m := by simp [Device.fields]
  takeUp_fields := Device.takeUp_fields

def DeviceListData.merge : Merge DeviceListData := fun m field =>
  match field with
  | (1, w) => (w.message Device.merge default).map
      fun v => { m with devices := m.devices ++ [v] }
  | _ => some m

theorem DeviceListData.takeUp_fields (m : DeviceListData)
    (hlen : encodedLen m.fields < 2 ^ 64) : takeUp merge ⟨[]⟩ m.fields = some m := by
  have hpush : ∀ x ∈ m.devices, ∀ done,
      merge ⟨done⟩ (1, .bytes (encode x.fields)) = some ⟨done ++ [x]⟩ := by
    intro x hx done
    have hx' : encodedLen x.fields < 2 ^ 64 :=
      lt_of_le_of_lt (encodedLen_le_of_mem (mem_repeatedMessage hx)) hlen
    exact Message.map_message_fields (m := x) hx' _
  exact takeUp_repeatedMessage DeviceListData.mk Device.fields m.devices hpush []

instance : Message DeviceListData where
  default := ⟨[]⟩
  fields := DeviceListData.fields
  merge := DeviceListData.merge
  sound m := by simp [DeviceListData.fields]
  takeUp_fields := DeviceListData.takeUp_fields

def SessionSummary.merge : Merge SessionSummary := fun m field =>
  match field with
  | (1, w) => w.string.map fun v => { m with uuid := v }
  | (2, w) => w.string.map fun v => { m with id := v }
  | (3, w) => w.string.map fun v => { m with serial := v }
  | (4, w) => w.string.map fun v => { m with name := v }
  | (5, w) => w.string.map fun v => { m with state := v }
  | (6, w) => w.string.map fun v => { m with sessionState := v }
  | (7, w) => w.boolean.map fun v => { m with clipboardSync := v }
  | (8, w) => w.boolean.map fun v => { m with notificationSync := v }
  | (9, w) => w.boolean.map fun v => { m with audioEnabled := v }
  | (10, w) => w.uint32.map fun v => { m with volume := v }
  | (11, w) => w.uint64.map fun v => { m with audioBufferMs := v }
  | (12, w) => w.string.map fun v => { m with audioState := v }
  | (13, w) => w.string.map fun v => { m with audioError := v }
  | _ => some m

theorem SessionSummary.sound (m : SessionSummary) : Sound m.fields := by simp [fields]

theorem SessionSummary.takeUp_fields (m : SessionSummary) :
    takeUp merge ⟨[], [], [], [], [], [], false, false, false, 0, 0, [], []⟩ m.fields =
      some m := by
  simp only [fields, takeUp_append]
  simp [takeUp_boolean, takeUp_string, takeUp_uint32, takeUp_uint64, merge]

instance : Message SessionSummary where
  default := ⟨[], [], [], [], [], [], false, false, false, 0, 0, [], []⟩
  fields := SessionSummary.fields
  merge := SessionSummary.merge
  sound := SessionSummary.sound
  takeUp_fields m _ := m.takeUp_fields

def SessionListData.merge : Merge SessionListData := fun m field =>
  match field with
  | (1, w) => (w.message SessionSummary.merge default).map
      fun v => { m with sessions := m.sessions ++ [v] }
  | _ => some m

theorem SessionListData.takeUp_fields (m : SessionListData)
    (hlen : encodedLen m.fields < 2 ^ 64) : takeUp merge ⟨[]⟩ m.fields = some m := by
  have hpush : ∀ x ∈ m.sessions, ∀ done,
      merge ⟨done⟩ (1, .bytes (encode x.fields)) = some ⟨done ++ [x]⟩ := by
    intro x hx done
    have hx' : encodedLen x.fields < 2 ^ 64 :=
      lt_of_le_of_lt (encodedLen_le_of_mem (mem_repeatedMessage hx)) hlen
    exact Message.map_message_fields (m := x) hx' _
  exact takeUp_repeatedMessage SessionListData.mk SessionSummary.fields m.sessions hpush []

instance : Message SessionListData where
  default := ⟨[]⟩
  fields := SessionListData.fields
  merge := SessionListData.merge
  sound m := by simp [SessionListData.fields]
  takeUp_fields := SessionListData.takeUp_fields

def ClipboardData.merge : Merge ClipboardData := fun m field =>
  match field with
  | (1, w) => w.string.map fun v => { m with text := v }
  | (2, w) => w.string.map fun v => { m with serial := v }
  | _ => some m

instance : Message ClipboardData where
  default := ⟨[], []⟩
  fields := ClipboardData.fields
  merge := ClipboardData.merge
  sound m := by simp [ClipboardData.fields]
  takeUp_fields m _ := by
    simp only [ClipboardData.fields, takeUp_append]
    simp [takeUp_string, ClipboardData.merge]

def NotificationData.merge : Merge NotificationData := fun m field =>
  match field with
  | (1, w) => w.string.map fun v => { m with serial := v }
  | (2, w) => w.string.map fun v => { m with title := v }
  | (3, w) => w.string.map fun v => { m with text := v }
  | (4, w) => w.string.map fun v => { m with app := v }
  | _ => some m

instance : Message NotificationData where
  default := ⟨[], [], [], []⟩
  fields := NotificationData.fields
  merge := NotificationData.merge
  sound m := by simp [NotificationData.fields]
  takeUp_fields m _ := by
    simp only [NotificationData.fields, takeUp_append]
    simp [takeUp_string, NotificationData.merge]

def AppInfo.merge : Merge AppInfo := fun m field =>
  match field with
  | (1, w) => w.string.map fun v => { m with packageName := v }
  | (2, w) => w.string.map fun v => { m with label := v }
  | (3, w) => w.boolean.map fun v => { m with system := v }
  | _ => some m

instance : Message AppInfo where
  default := ⟨[], [], false⟩
  fields := AppInfo.fields
  merge := AppInfo.merge
  sound m := by simp [AppInfo.fields]
  takeUp_fields m _ := by
    simp only [AppInfo.fields, takeUp_append]
    simp [takeUp_boolean, takeUp_string, AppInfo.merge]

def RpcError.merge : Merge RpcError := fun m field =>
  match field with
  | (1, w) => w.int32.map fun v => { m with code := v }
  | (2, w) => w.string.map fun v => { m with message := v }
  | _ => some m

instance : Message RpcError where
  default := ⟨0, []⟩
  fields := RpcError.fields
  merge := RpcError.merge
  sound m := by simp [RpcError.fields]
  takeUp_fields m _ := by
    simp only [RpcError.fields, takeUp_append]
    simp [takeUp_int32, takeUp_string, RpcError.merge]

def Response.DeviceList.merge : Merge Response.DeviceList := fun m field =>
  match field with
  | (1, w) => (w.message Device.merge default).map
      fun v => { m with devices := m.devices ++ [v] }
  | _ => some m

theorem Response.DeviceList.takeUp_fields (m : Response.DeviceList)
    (hlen : encodedLen m.fields < 2 ^ 64) : takeUp merge ⟨[]⟩ m.fields = some m := by
  have hpush : ∀ x ∈ m.devices, ∀ done,
      merge ⟨done⟩ (1, .bytes (encode x.fields)) = some ⟨done ++ [x]⟩ := by
    intro x hx done
    have hx' : encodedLen x.fields < 2 ^ 64 :=
      lt_of_le_of_lt (encodedLen_le_of_mem (mem_repeatedMessage hx)) hlen
    exact Message.map_message_fields (m := x) hx' _
  exact takeUp_repeatedMessage Response.DeviceList.mk Device.fields m.devices hpush []

instance : Message Response.DeviceList where
  default := ⟨[]⟩
  fields := Response.DeviceList.fields
  merge := Response.DeviceList.merge
  sound m := by simp [Response.DeviceList.fields]
  takeUp_fields := Response.DeviceList.takeUp_fields

def Response.ClipboardGet.merge : Merge Response.ClipboardGet := fun m field =>
  match field with
  | (1, w) => w.string.map fun v => { m with text := v }
  | _ => some m

instance : Message Response.ClipboardGet where
  default := ⟨[]⟩
  fields := Response.ClipboardGet.fields
  merge := Response.ClipboardGet.merge
  sound m := by simp [Response.ClipboardGet.fields]
  takeUp_fields m _ := by
    simp [Response.ClipboardGet.fields, takeUp_string, Response.ClipboardGet.merge]

def Response.PairingInfo.merge : Merge Response.PairingInfo := fun m field =>
  match field with
  | (1, w) => w.string.map fun v => { m with dnsId := v }
  | (2, w) => w.string.map fun v => { m with psk := v }
  | (3, w) => w.string.map fun v => { m with wifiString := v }
  | _ => some m

instance : Message Response.PairingInfo where
  default := ⟨[], [], []⟩
  fields := Response.PairingInfo.fields
  merge := Response.PairingInfo.merge
  sound m := by simp [Response.PairingInfo.fields]
  takeUp_fields m _ := by
    simp only [Response.PairingInfo.fields, takeUp_append]
    simp [takeUp_string, Response.PairingInfo.merge]

def Response.Settings.merge : Merge Response.Settings := fun m field =>
  match field with
  | (1, w) => w.boolean.map fun v => { m with autostartEnabled := v }
  | (2, w) => w.boolean.map fun v => { m with autostartSupported := v }
  | (3, w) => w.uint32.map fun v => { m with videoBitRate := v }
  | (4, w) => w.uint32.map fun v => { m with videoMaxSize := v }
  | (5, w) => w.uint32.map fun v => { m with videoMaxFps := v }
  | (6, w) => w.uint32.map fun v => { m with audioBitRate := v }
  | (7, w) => w.string.map fun v => { m with audioCodec := v }
  | (8, w) => w.string.map fun v => { m with iconTheme := v }
  | _ => some m

instance : Message Response.Settings where
  default := ⟨false, false, 0, 0, 0, 0, [], []⟩
  fields := Response.Settings.fields
  merge := Response.Settings.merge
  sound m := by simp [Response.Settings.fields]
  takeUp_fields m _ := by
    simp only [Response.Settings.fields, takeUp_append]
    simp [takeUp_boolean, takeUp_string, takeUp_uint32, Response.Settings.merge]

def Response.AppList.merge : Merge Response.AppList := fun m field =>
  match field with
  | (1, w) => (w.message AppInfo.merge default).map fun v => { m with apps := m.apps ++ [v] }
  | (2, w) => w.boolean.map fun v => { m with fusionSupported := v }
  | _ => some m

theorem Response.AppList.takeUp_fields (m : Response.AppList)
    (hlen : encodedLen m.fields < 2 ^ 64) : takeUp merge ⟨[], false⟩ m.fields = some m := by
  have happs : takeUp merge ⟨[], false⟩ (repeatedMessage 1 (m.apps.map AppInfo.fields)) =
      some ⟨m.apps, false⟩ :=
    takeUp_repeatedMessage (fun v => (⟨v, false⟩ : AppList)) AppInfo.fields m.apps
      (fun _ hx _ => Message.map_message_fields
        (lt_of_le_of_lt (encodedLen_le_of_mem
          (List.mem_append_left _ (mem_repeatedMessage hx))) hlen) _) []
  rw [fields, takeUp_append, happs, Option.bind_some, takeUp_boolean (by simp [merge])]
  simp [merge]

instance : Message Response.AppList where
  default := ⟨[], false⟩
  fields := Response.AppList.fields
  merge := Response.AppList.merge
  sound m := by simp [Response.AppList.fields]
  takeUp_fields := Response.AppList.takeUp_fields

def Response.AppOpen.merge : Merge Response.AppOpen := fun m field =>
  match field with
  | (1, w) => w.uint64.map fun v => { m with windowId := v }
  | (2, w) => w.string.map fun v => { m with addr := v }
  | _ => some m

instance : Message Response.AppOpen where
  default := ⟨0, []⟩
  fields := Response.AppOpen.fields
  merge := Response.AppOpen.merge
  sound m := by simp [Response.AppOpen.fields]
  takeUp_fields m _ := by
    simp only [Response.AppOpen.fields, takeUp_append]
    simp [takeUp_string, takeUp_uint64, Response.AppOpen.merge]

def Request.DeviceSerial.merge : Merge Request.DeviceSerial := fun m field =>
  match field with
  | (1, w) => w.string.map fun v => { m with serial := v }
  | _ => some m

instance : Message Request.DeviceSerial where
  default := ⟨[]⟩
  fields := Request.DeviceSerial.fields
  merge := Request.DeviceSerial.merge
  sound m := by simp [Request.DeviceSerial.fields]
  takeUp_fields m _ := by
    simp [Request.DeviceSerial.fields, takeUp_string, Request.DeviceSerial.merge]

def Request.UuidParam.merge : Merge Request.UuidParam := fun m field =>
  match field with
  | (1, w) => w.string.map fun v => { m with uuid := v }
  | _ => some m

instance : Message Request.UuidParam where
  default := ⟨[]⟩
  fields := Request.UuidParam.fields
  merge := Request.UuidParam.merge
  sound m := by simp [Request.UuidParam.fields]
  takeUp_fields m _ := by
    simp [Request.UuidParam.fields, takeUp_string, Request.UuidParam.merge]

def Request.SessionUpdate.merge : Merge Request.SessionUpdate := fun m field =>
  match field with
  | (1, w) => w.string.map fun v => { m with uuid := v }
  | (2, w) => w.boolean.map fun v => { m with clipboardSync := some v }
  | (3, w) => w.boolean.map fun v => { m with notificationSync := some v }
  | (4, w) => w.boolean.map fun v => { m with audioSync := some v }
  | (5, w) => w.uint32.map fun v => { m with volume := some v }
  | _ => some m

theorem Request.SessionUpdate.takeUp_fields (m : Request.SessionUpdate) :
    takeUp merge ⟨[], none, none, none, none⟩ m.fields = some m := by
  obtain ⟨uuid, clipboard, notification, audio, volume⟩ := m
  have huuid : takeUp merge ⟨[], none, none, none, none⟩ (string 1 uuid) =
      some ⟨uuid, none, none, none, none⟩ := by
    simp [takeUp_string, merge]
  simp only [fields, takeUp_append, huuid, Option.bind_some]
  rw [takeUp_optionalBoolean (fun v => (⟨uuid, v, none, none, none⟩ : SessionUpdate))
      (by simp [merge]), Option.bind_some,
    takeUp_optionalBoolean (fun v => (⟨uuid, clipboard, v, none, none⟩ : SessionUpdate))
      (by simp [merge]), Option.bind_some,
    takeUp_optionalBoolean (fun v => (⟨uuid, clipboard, notification, v, none⟩ : SessionUpdate))
      (by simp [merge]), Option.bind_some,
    takeUp_optionalUint32 (fun v => (⟨uuid, clipboard, notification, audio, v⟩ : SessionUpdate))
      (by simp [merge])]

instance : Message Request.SessionUpdate where
  default := ⟨[], none, none, none, none⟩
  fields := Request.SessionUpdate.fields
  merge := Request.SessionUpdate.merge
  sound m := by simp [Request.SessionUpdate.fields]
  takeUp_fields m _ := m.takeUp_fields

def Request.SetAutostart.merge : Merge Request.SetAutostart := fun m field =>
  match field with
  | (1, w) => w.boolean.map fun v => { m with enabled := v }
  | _ => some m

instance : Message Request.SetAutostart where
  default := ⟨false⟩
  fields := Request.SetAutostart.fields
  merge := Request.SetAutostart.merge
  sound m := by simp [Request.SetAutostart.fields]
  takeUp_fields m _ := by
    simp [Request.SetAutostart.fields, takeUp_boolean, Request.SetAutostart.merge]

def Request.SetScrcpyParams.merge : Merge Request.SetScrcpyParams := fun m field =>
  match field with
  | (1, w) => w.uint32.map fun v => { m with videoBitRate := some v }
  | (2, w) => w.uint32.map fun v => { m with videoMaxSize := some v }
  | (3, w) => w.uint32.map fun v => { m with videoMaxFps := some v }
  | (4, w) => w.uint32.map fun v => { m with audioBitRate := some v }
  | (5, w) => w.string.map fun v => { m with audioCodec := some v }
  | _ => some m

theorem Request.SetScrcpyParams.takeUp_fields (m : Request.SetScrcpyParams) :
    takeUp merge ⟨none, none, none, none, none⟩ m.fields = some m := by
  obtain ⟨bitRate, size, fps, audio, codec⟩ := m
  simp only [fields, takeUp_append]
  rw [takeUp_optionalUint32 (fun v => (⟨v, none, none, none, none⟩ : SetScrcpyParams))
      (by simp [merge]), Option.bind_some,
    takeUp_optionalUint32 (fun v => (⟨bitRate, v, none, none, none⟩ : SetScrcpyParams))
      (by simp [merge]), Option.bind_some,
    takeUp_optionalUint32 (fun v => (⟨bitRate, size, v, none, none⟩ : SetScrcpyParams))
      (by simp [merge]), Option.bind_some,
    takeUp_optionalUint32 (fun v => (⟨bitRate, size, fps, v, none⟩ : SetScrcpyParams))
      (by simp [merge]), Option.bind_some,
    takeUp_optionalString (fun v => (⟨bitRate, size, fps, audio, v⟩ : SetScrcpyParams))
      (by simp [merge])]

instance : Message Request.SetScrcpyParams where
  default := ⟨none, none, none, none, none⟩
  fields := Request.SetScrcpyParams.fields
  merge := Request.SetScrcpyParams.merge
  sound m := by simp [Request.SetScrcpyParams.fields]
  takeUp_fields m _ := m.takeUp_fields

def Request.SetIconTheme.merge : Merge Request.SetIconTheme := fun m field =>
  match field with
  | (1, w) => w.string.map fun v => { m with iconTheme := v }
  | _ => some m

instance : Message Request.SetIconTheme where
  default := ⟨[]⟩
  fields := Request.SetIconTheme.fields
  merge := Request.SetIconTheme.merge
  sound m := by simp [Request.SetIconTheme.fields]
  takeUp_fields m _ := by
    simp [Request.SetIconTheme.fields, takeUp_string, Request.SetIconTheme.merge]

def Request.AppListParams.merge : Merge Request.AppListParams := fun m field =>
  match field with
  | (1, w) => w.string.map fun v => { m with uuid := v }
  | (2, w) => w.boolean.map fun v => { m with force := v }
  | _ => some m

instance : Message Request.AppListParams where
  default := ⟨[], false⟩
  fields := Request.AppListParams.fields
  merge := Request.AppListParams.merge
  sound m := by simp [Request.AppListParams.fields]
  takeUp_fields m _ := by
    simp only [Request.AppListParams.fields, takeUp_append]
    simp [takeUp_boolean, takeUp_string, Request.AppListParams.merge]

def Request.AppOpenParams.merge : Merge Request.AppOpenParams := fun m field =>
  match field with
  | (1, w) => w.string.map fun v => { m with uuid := v }
  | (2, w) => w.string.map fun v => { m with packageName := v }
  | _ => some m

instance : Message Request.AppOpenParams where
  default := ⟨[], []⟩
  fields := Request.AppOpenParams.fields
  merge := Request.AppOpenParams.merge
  sound m := by simp [Request.AppOpenParams.fields]
  takeUp_fields m _ := by
    simp only [Request.AppOpenParams.fields, takeUp_append]
    simp [takeUp_string, Request.AppOpenParams.merge]

def Response.Payload.merge (o : Option Response.Payload) : Nat × Wire → Option Response.Payload
  | (10, w) =>
    let m := match o with | some (.deviceList m) => m | _ => default
    (w.message DeviceList.merge m).map .deviceList
  | (11, w) =>
    let m := match o with | some (.adbList m) => m | _ => default
    (w.message DeviceList.merge m).map .adbList
  | (12, w) =>
    let m := match o with | some (.clipboardGet m) => m | _ => default
    (w.message ClipboardGet.merge m).map .clipboardGet
  | (13, w) =>
    let m := match o with | some (.pairingInfo m) => m | _ => default
    (w.message PairingInfo.merge m).map .pairingInfo
  | (14, w) =>
    let m := match o with | some (.settings m) => m | _ => default
    (w.message Settings.merge m).map .settings
  | (15, w) =>
    let m := match o with | some (.appList m) => m | _ => default
    (w.message AppList.merge m).map .appList
  | (16, w) =>
    let m := match o with | some (.appOpen m) => m | _ => default
    (w.message AppOpen.merge m).map .appOpen
  -- no other tag comes here
  | _ => none

/-- A variant that takes the place of nothing is read from its own default. -/
theorem Response.Payload.merge_field {p : Response.Payload} {gs : List Field}
    (hmem : p.field ∈ gs) (hlen : encodedLen gs < 2 ^ 64) : Payload.merge none p.field.wire = some p := by
  cases p <;> exact Message.map_message_fields
    (lt_of_le_of_lt (encodedLen_le_of_mem hmem) hlen) _

def Response.merge : Merge Response := fun m (tag, w) =>
  if 10 ≤ tag ∧ tag ≤ 16 then
    (Payload.merge m.result (tag, w)).map fun v => { m with result := some v }
  else match tag with
  | 1 => w.uint64.map fun v => { m with id := v }
  | 3 => (w.message RpcError.merge (m.error.getD default)).map fun v => { m with error := some v }
  | _ => some m

theorem Response.takeUp_fields (m : Response) (hlen : encodedLen m.fields < 2 ^ 64) :
    takeUp merge ⟨0, none, none⟩ m.fields = some m := by
  have hid : takeUp merge ⟨0, none, none⟩ (uint64 1 m.id) = some ⟨m.id, none, none⟩ := by
    rw [takeUp_uint64 (by simp [merge])]
    simp [merge]
  have herror : ∀ x, m.error = some x →
      merge ⟨m.id, none, none⟩ (3, .bytes (encode x.fields)) = some ⟨m.id, none, some x⟩ := by
    intro x hx
    have hmem : Field.message 3 x.fields ∈ m.fields := by simp [fields, optionalMessage, hx]
    have hx' := lt_of_le_of_lt (encodedLen_le_of_mem hmem) hlen
    exact Message.map_message_fields hx' _
  have htake := takeUp_optionalMessage (fun v => (⟨m.id, none, v⟩ : Response)) RpcError.fields
    m.error herror
  have hresult : takeUp merge ⟨m.id, none, m.error⟩ (m.result.map Payload.field).toList =
      some m := by
    obtain ⟨id, result, error⟩ := m
    cases result with
    | none => rfl
    | some p =>
        have hp := Payload.merge_field (p := p) (by simp [fields]) hlen
        rw [Option.map_some, Option.toList_some, takeUp_singleton]
        cases p <;> exact congrArg (Option.map _) hp
  rw [fields, takeUp_append, takeUp_append, hid, Option.bind_some, htake, Option.bind_some, hresult]

instance : Message Response where
  default := ⟨0, none, none⟩
  fields := Response.fields
  merge := Response.merge
  sound m := by
    have hresult : Sound (m.result.map Response.Payload.field).toList := by
      cases m.result with
      | none => exact sound_nil
      | some p => cases p <;> exact sound_message (by decide) _
    simp [Response.fields, hresult]
  takeUp_fields := Response.takeUp_fields

def Request.Payload.merge (o : Option Request.Payload) : Nat × Wire → Option Request.Payload
  | (10, w) =>
    let m := match o with | some (.deviceConnect m) => m | _ => default
    (w.message DeviceSerial.merge m).map .deviceConnect
  | (11, w) =>
    let m := match o with | some (.deviceDisconnect m) => m | _ => default
    (w.message DeviceSerial.merge m).map .deviceDisconnect
  | (12, w) =>
    let m := match o with | some (.sessionUpdate m) => m | _ => default
    (w.message SessionUpdate.merge m).map .sessionUpdate
  | (13, w) =>
    let m := match o with | some (.sessionRetry m) => m | _ => default
    (w.message UuidParam.merge m).map .sessionRetry
  | (14, w) =>
    let m := match o with | some (.sessionStart m) => m | _ => default
    (w.message DeviceSerial.merge m).map .sessionStart
  | (15, w) =>
    let m := match o with | some (.setAutostart m) => m | _ => default
    (w.message SetAutostart.merge m).map .setAutostart
  | (16, w) =>
    let m := match o with | some (.setScrcpyParams m) => m | _ => default
    (w.message SetScrcpyParams.merge m).map .setScrcpyParams
  | (17, w) =>
    let m := match o with | some (.appListParams m) => m | _ => default
    (w.message AppListParams.merge m).map .appListParams
  | (18, w) =>
    let m := match o with | some (.appOpenParams m) => m | _ => default
    (w.message AppOpenParams.merge m).map .appOpenParams
  | (19, w) =>
    let m := match o with | some (.setIconTheme m) => m | _ => default
    (w.message SetIconTheme.merge m).map .setIconTheme
  -- no other tag comes here
  | _ => none

/-- A variant that takes the place of nothing is read from its own default. -/
theorem Request.Payload.merge_field {p : Request.Payload} {gs : List Field}
    (hmem : p.field ∈ gs) (hlen : encodedLen gs < 2 ^ 64) : Payload.merge none p.field.wire = some p := by
  cases p <;> exact Message.map_message_fields
    (lt_of_le_of_lt (encodedLen_le_of_mem hmem) hlen) _

def Request.merge : Merge Request := fun m (tag, w) =>
  if 10 ≤ tag ∧ tag ≤ 19 then
    (Payload.merge m.params (tag, w)).map fun v => { m with params := some v }
  else match tag with
  | 1 => w.uint64.map fun v => { m with id := v }
  | 2 => w.string.map fun v => { m with method := v }
  | _ => some m

theorem Request.takeUp_fields (m : Request) (hlen : encodedLen m.fields < 2 ^ 64) :
    takeUp merge ⟨0, [], none⟩ m.fields = some m := by
  have hscalars : takeUp merge ⟨0, [], none⟩ (uint64 1 m.id ++ string 2 m.method) =
      some ⟨m.id, m.method, none⟩ := by
    simp [takeUp_append, takeUp_uint64, takeUp_string, merge]
  have hparams : takeUp merge ⟨m.id, m.method, none⟩ (m.params.map Payload.field).toList =
      some m := by
    obtain ⟨id, method, params⟩ := m
    cases params with
    | none => rfl
    | some p =>
        have hp := Payload.merge_field (p := p) (by simp [fields]) hlen
        rw [Option.map_some, Option.toList_some, takeUp_singleton]
        cases p <;> exact congrArg (Option.map _) hp
  rw [fields, takeUp_append, hscalars, Option.bind_some, hparams]

instance : Message Request where
  default := ⟨0, [], none⟩
  fields := Request.fields
  merge := Request.merge
  sound m := by
    have hparams : Sound (m.params.map Request.Payload.field).toList := by
      cases m.params with
      | none => exact sound_nil
      | some p => cases p <;> exact sound_message (by decide) _
    simp [Request.fields, hparams]
  takeUp_fields := Request.takeUp_fields

def Event.Payload.merge (o : Option Event.Payload) : Nat × Wire → Option Event.Payload
  | (10, w) =>
    let m := match o with | some (.deviceUpdated m) => m | _ => default
    (w.message DeviceListData.merge m).map .deviceUpdated
  | (11, w) =>
    let m := match o with | some (.adbUpdated m) => m | _ => default
    (w.message DeviceListData.merge m).map .adbUpdated
  | (12, w) =>
    let m := match o with | some (.sessionUpdated m) => m | _ => default
    (w.message SessionListData.merge m).map .sessionUpdated
  | (13, w) =>
    let m := match o with | some (.clipboardChanged m) => m | _ => default
    (w.message ClipboardData.merge m).map .clipboardChanged
  | (14, w) =>
    let m := match o with | some (.notification m) => m | _ => default
    (w.message NotificationData.merge m).map .notification
  -- 15 is declared and has no variant: the reader panics
  | _ => none

/-- A variant that takes the place of nothing is read from its own default. -/
theorem Event.Payload.merge_field {p : Event.Payload} {gs : List Field}
    (hmem : p.field ∈ gs) (hlen : encodedLen gs < 2 ^ 64) : Payload.merge none p.field.wire = some p := by
  cases p <;> exact Message.map_message_fields
    (lt_of_le_of_lt (encodedLen_le_of_mem hmem) hlen) _

def Event.merge : Merge Event := fun m (tag, w) =>
  if 10 ≤ tag ∧ tag ≤ 15 then
    (Payload.merge m.data (tag, w)).map fun v => { m with data := some v }
  else some m

theorem Event.takeUp_fields (m : Event) (hlen : encodedLen m.fields < 2 ^ 64) :
    takeUp merge ⟨none⟩ m.fields = some m := by
  obtain ⟨data⟩ := m
  cases data with
  | none => rfl
  | some p =>
      have hp := Payload.merge_field (p := p) (by simp [fields]) hlen
      rw [fields, Option.map_some, Option.toList_some, takeUp_singleton]
      cases p <;> exact congrArg (Option.map _) hp

instance : Message Event where
  default := ⟨none⟩
  fields := Event.fields
  merge := Event.merge
  sound m := by
    obtain ⟨data⟩ := m
    cases data with
    | none => exact sound_nil
    | some p => cases p <;> exact sound_message (by decide) _
  takeUp_fields := Event.takeUp_fields

end Kulua.Ipc.Proto
