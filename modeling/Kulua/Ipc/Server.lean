import Kulua.Ipc.FrameCodec
import Kulua.Ipc.Proto
import Kulua.Notification.Detail

/-! What `handle_ipc_connection` (`server.rs`) sends to the UI, and what of it the event loop of
`connect_daemon` (`lib.rs`) reads. The writer has no limit on a frame, the reader has one. -/

namespace Kulua.Ipc
open Foundation Foundation.Text Foundation.Framing

def frameTypeResponse : BitVec 8 := 0x01
def frameTypeEvent : BitVec 8 := 0x02

/-- An arm of the loop with what it has received: the answer to a request, or news to tell. -/
inductive Wakeup where
  | request (response : Proto.Response)
  | merged (devices : List Proto.Device)
  | device (devices : List Proto.Device)
  | session (sessions : List Proto.SessionSummary)
  | clip (text : Str)
  | notif (info : Notification.NotifInfo)

namespace Wakeup

/-- The frame type and the message that the arm encodes. -/
def message : Wakeup → BitVec 8 × List Protobuf.Field
  | .request response => (frameTypeResponse, response.fields)
  | .merged devices => (frameTypeEvent, Proto.Event.fields ⟨some (.deviceUpdated ⟨devices⟩)⟩)
  | .device devices => (frameTypeEvent, Proto.Event.fields ⟨some (.adbUpdated ⟨devices⟩)⟩)
  | .session sessions => (frameTypeEvent, Proto.Event.fields ⟨some (.sessionUpdated ⟨sessions⟩)⟩)
  | .clip text => (frameTypeEvent, Proto.Event.fields ⟨some (.clipboardChanged ⟨text, []⟩)⟩)
  | .notif info =>
    (frameTypeEvent, Proto.Event.fields ⟨some (.notification
      ⟨info.serial, info.title.getD [], info.body.getD [], info.package⟩)⟩)

def item (w : Wakeup) : Item := (w.message.1, Protobuf.encode w.message.2)

def encodedLen (w : Wakeup) : Nat := Protobuf.encodedLen w.message.2

theorem length_item (w : Wakeup) : w.item.2.length = w.encodedLen :=
  Protobuf.length_encode w.message.2

theorem encodedLen_clip {text : Str} (h : text ≠ []) :
    (clip text).encodedLen =
      (Protobuf.varintLength (1 + Protobuf.varintLength (utf8Length text) + utf8Length text) + 1) +
        (1 + Protobuf.varintLength (utf8Length text) + utf8Length text) := by
  have htext : Protobuf.varintLength (Protobuf.key 1 .lengthDelimited) = 1 := by decide
  have hdata : Protobuf.varintLength (Protobuf.key 13 .lengthDelimited) = 1 := by decide
  simp only [encodedLen, message, Proto.Event.fields, Proto.Event.Payload.field,
    Proto.ClipboardData.fields, Option.map_some, Option.toList_some, Protobuf.string, if_neg h,
    if_true, List.append_nil, Protobuf.encodedLen, Protobuf.Field.encodedLen, length_utf8, htext,
    hdata, Nat.add_zero]
  omega

/-- The texts that the other end accepts: the headers of the two messages around a long text
take ten bytes. -/
theorem clip_within (text : Str) :
    (clip text).encodedLen ≤ maxFrameSize ↔ utf8Length text + 10 ≤ maxFrameSize := by
  by_cases hempty : text = []
  · subst hempty
    decide
  · rw [encodedLen_clip hempty, maxFrameSize]
    rcases Nat.lt_or_ge (utf8Length text + 5) (128 ^ 4) with hlo | hhi
    · have htext := Protobuf.varintLength_le (show utf8Length text < 128 ^ 4 by omega)
      have hdata := Protobuf.varintLength_le
        (show 1 + Protobuf.varintLength (utf8Length text) + utf8Length text < 128 ^ 4 by omega)
      refine ⟨fun h => ?_, fun h => by omega⟩
      by_contra hlong
      have htext' := Protobuf.lt_varintLength (show 128 ^ 3 ≤ utf8Length text by omega)
      have hdata' := Protobuf.lt_varintLength
        (show 128 ^ 3 ≤ 1 + Protobuf.varintLength (utf8Length text) + utf8Length text by omega)
      omega
    · omega

end Wakeup

/-- The two ends agree on the frames of a connection: no length is cut, no frame is refused, and
from the bytes, in whatever chunks they come, the UI reads one frame after the other. -/
structure Agreed (sent : List Wakeup) (chunks : List Bytes) : Prop where
  whole : ∀ w ∈ sent, (BitVec.ofNat 32 w.item.2.length).toNat = w.item.2.length
  accepted : ∀ w ∈ sent, ∀ e, FrameCodec.decode (FrameCodec.encode w.item) ≠ .error e
  received : feed FrameCodec.decode ([], []) chunks = .ok (sent.map Wakeup.item, [])

/-- They do as long as every message stays within the limit of the reader. -/
theorem agreed_iff (sent : List Wakeup) (chunks : List Bytes)
    (hstream : chunks.flatten = encodeAll FrameCodec.encode (sent.map Wakeup.item)) :
    Agreed sent chunks ↔ ∀ w ∈ sent, w.encodedLen ≤ maxFrameSize := by
  constructor
  · intro h w hw
    rw [← w.length_item]
    exact feed_good FrameCodec.fits_of_decode (List.forall_mem_nil _) h.received w.item
      (List.mem_map_of_mem hw)
  · intro h
    have fits : ∀ w ∈ sent, FrameCodec.Fits w.item := by
      intro w hw
      rw [FrameCodec.Fits, w.length_item]
      exact h w hw
    have valid : ∀ item ∈ sent.map Wakeup.item, FrameCodec.Fits item :=
      List.forall_mem_map.mpr fits
    refine ⟨fun w hw => ?_, fun w hw e he => ?_, FrameCodec.lawful.feed_all valid hstream⟩
    · rw [BitVec.toNat_ofNat, FrameCodec.declared_of_fits (fits w hw)]
    · have hdecode := FrameCodec.lawful.decode_encode w.item [] (fits w hw)
      rw [List.append_nil, he] at hdecode
      cases hdecode

/-- A notification without a title and the answer to a request. -/
private def news : List Wakeup :=
  [.notif ⟨[], ['p'], none, some ['b'], ['s']⟩, .request ⟨7, none, none⟩]

/-- Their bytes, cut inside the first length. -/
private def newsChunks : List Bytes :=
  [(encodeAll FrameCodec.encode (news.map Wakeup.item)).take 3,
    (encodeAll FrameCodec.encode (news.map Wakeup.item)).drop 3]

private theorem flatten_newsChunks :
    newsChunks.flatten = encodeAll FrameCodec.encode (news.map Wakeup.item) := by
  rw [newsChunks, List.flatten_cons, List.flatten_singleton, List.take_append_drop]

theorem agreed_iff_news :
    newsChunks.flatten = encodeAll FrameCodec.encode (news.map Wakeup.item) ∧
      (Agreed news newsChunks ↔ ∀ w ∈ news, w.encodedLen ≤ maxFrameSize) :=
  ⟨flatten_newsChunks, agreed_iff news newsChunks flatten_newsChunks⟩

/-- A copied text of sixteen mebibytes. -/
private def longText : Str := List.replicate (2 ^ 24) 'a'

private theorem encodedLen_longText : (Wakeup.clip longText).encodedLen = 16777226 := by
  have hlen : utf8Length longText = 16777216 := by
    rw [utf8Length, longText, List.map_replicate, List.sum_replicate]
    decide
  have hne : longText ≠ [] := by
    intro h
    rw [h] at hlen
    cases hlen
  rw [Wakeup.encodedLen_clip hne, hlen]
  decide

/-- The UI refuses the frame with the copied text. -/
theorem clip_refused :
    FrameCodec.decode (FrameCodec.encode (Wakeup.clip longText).item) =
        .error "frame too large: 16777226 > 16777216" ∧
      ¬∀ (sent : List Wakeup) (chunks : List Bytes),
        chunks.flatten = encodeAll FrameCodec.encode (sent.map Wakeup.item) →
          Agreed sent chunks := by
  have hdecode : FrameCodec.decode (FrameCodec.encode (Wakeup.clip longText).item) =
      .error "frame too large: 16777226 > 16777216" := by
    rw [FrameCodec.encode, FrameCodec.decode_declared, Wakeup.length_item, encodedLen_longText]
    rfl
  refine ⟨hdecode, fun h => ?_⟩
  have hagreed := h [.clip longText] [FrameCodec.encode (Wakeup.clip longText).item] rfl
  exact hagreed.accepted _ (List.mem_singleton_self _) _ hdecode

end Kulua.Ipc
