import Kulua.Foundation.Run
import Kulua.Foundation.Schedule
import Kulua.Foundation.History
import Kulua.Foundation.Attempt
import Kulua.Foundation.Segment
import Kulua.Foundation.Serial
import Kulua.Foundation.BigEndian
import Kulua.Foundation.Keyed
import Kulua.Foundation.Lease
import Kulua.Foundation.Framing
import Kulua.Foundation.Text
import Kulua.Foundation.Protobuf
import Kulua.Foundation.Binary64
import Kulua.Foundation.Custody
import Kulua.Foundation.Watch
import Kulua.Foundation.Newest
import Kulua.Frame
import Kulua.ReassemblyBuffer
import Kulua.Intake
import Kulua.IntakeFeed
import Kulua.ReliableSender
import Kulua.SenderProgress
import Kulua.AckWindow
import Kulua.ReliableReceiver
import Kulua.ReliableControl
import Kulua.SenderEquivalence
import Kulua.ReceiverEquivalence
import Kulua.Stream.Endpoints
import Kulua.Stream.History
import Kulua.Stream.Net
import Kulua.Stream.Safety
import Kulua.Stream.Lockstep
import Kulua.Stream.Lossless
import Kulua.Stream.Wrap
import Kulua.ClientConnection
import Kulua.UdpServer
import Kulua.ServerLoop
import Kulua.UdpSession
import Kulua.SendFailure
import Kulua.Restart.System
import Kulua.Restart.Holding
import Kulua.Restart.Session
import Kulua.Presize.Chain
import Kulua.Presize.Receivers
import Kulua.Presize.Harmless
import Kulua.Media.Datagram
import Kulua.Media.Header
import Kulua.Media.Message
import Kulua.Media.Reassembler
import Kulua.Media.Soundness
import Kulua.Media.Completeness
import Kulua.Media.Reader
import Kulua.Device
import Kulua.DeviceRefresh
import Kulua.DeviceRepublish
import Kulua.DeviceTable
import Kulua.DeviceIndex
import Kulua.DeviceMerge
import Kulua.DeviceSlots
import Kulua.DeviceTick
import Kulua.DeviceOrder
import Kulua.DeviceVisits
import Kulua.Clipboard
import Kulua.ClipboardEcho
import Kulua.ClipboardFailure
import Kulua.DisplayRegistry
import Kulua.ControlChannel
import Kulua.Display.System
import Kulua.Display.Registry
import Kulua.Display.Ids
import Kulua.Display.Ready
import Kulua.Display.Release
import Kulua.Display.Refinement
import Kulua.Audio.Link
import Kulua.Audio.AudioLink
import Kulua.Audio.Agreement
import Kulua.Audio.Watchdog
import Kulua.Audio.Report
import Kulua.Audio.Timeline
import Kulua.Audio.Stall
import Kulua.Audio.Transition
import Kulua.Audio.AudioTask
import Kulua.Audio.Session
import Kulua.Audio.Published
import Kulua.Audio.FrameProgress
import Kulua.Audio.ConfigDelivery
import Kulua.Audio.AudioLifecycle
import Kulua.Audio.Drained
import Kulua.App.Handle
import Kulua.App.Core
import Kulua.App.Effects
import Kulua.App.Ledger
import Kulua.App.Handlers
import Kulua.App.Ports
import Kulua.App.AudioPreference
import Kulua.App.Lifecycle
import Kulua.Fusion.System
import Kulua.Fusion.Ownership
import Kulua.Fusion.Orphan
import Kulua.Fusion.Coords
import Kulua.Fusion.Pointer
import Kulua.Ipc.FrameCodec
import Kulua.Apps.AppList
import Kulua.Apps.RoundTrip
import Kulua.App.AppCache
import Kulua.Notification.Detail
import Kulua.Notification.Fidelity
import Kulua.Notification.Poller
import Kulua.Ipc.Proto
import Kulua.Ipc.Server
import Kulua.Foundation.ProtobufDecode
import Kulua.Ipc.Decode
import Kulua.Ipc.Envelope
import Kulua.Ipc.Handlers
import Kulua.Ipc.Rpc
import Kulua.Ipc.Correlation
import Kulua.Ipc.Liveness
import Kulua.Ipc.DeviceCache
import Kulua.Ipc.SettingsHistory
import Kulua.Display.EncodeLoop
import Kulua.Direct.Proto
import Kulua.Direct.Datagram
import Kulua.Direct.Exchange
import Kulua.Direct.Deadline
import Kulua.ServerLifetime
import Kulua.Deploy
import Kulua.Media.Plane
