import Kulua.Ipc.Decode
import Kulua.Ipc.Server

/-! The messages of a connection in both directions, from the value that one end sends to the value
that the other reads. -/

namespace Kulua.Ipc
open Foundation Foundation.Framing Foundation.Protobuf

def frameTypeRequest : BitVec 8 := 0x00

inductive Envelope where
  | request (m : Proto.Request)
  | response (m : Proto.Response)
  | event (m : Proto.Event)

namespace Envelope

def frameType : Envelope → BitVec 8
  | .request _ => frameTypeRequest
  | .response _ => frameTypeResponse
  | .event _ => frameTypeEvent

def fields : Envelope → List Field
  | .request m => m.fields
  | .response m => m.fields
  | .event m => m.fields

/-- What is given to the codec. -/
def item (e : Envelope) : Item := (e.frameType, Protobuf.encode e.fields)

/-- What the arm for the frame type reads: `on_frame` of the daemon has one for requests, the loop
of `connect_daemon` one for responses and one for events. -/
def ofItem (item : Item) : Option Envelope :=
  if item.1 = frameTypeRequest then (Message.decode item.2).map .request
  else if item.1 = frameTypeResponse then (Message.decode item.2).map .response
  else if item.1 = frameTypeEvent then (Message.decode item.2).map .event
  else none

def Fits (e : Envelope) : Prop := encodedLen e.fields ≤ maxFrameSize

theorem fits_item {e : Envelope} (h : e.Fits) : FrameCodec.Fits e.item := by
  rw [FrameCodec.Fits, item, length_encode]
  exact h

theorem ofItem_item {e : Envelope} (h : e.Fits) : ofItem e.item = some e := by
  have hlen : encodedLen e.fields < 2 ^ 64 := lt_of_le_of_lt h (by decide)
  cases e with
  | request m =>
      have hm : Message.decode (Protobuf.encode m.fields) = some m := Message.decode_encode hlen
      simp [item, ofItem, frameType, fields, hm]
  | response m =>
      have hm : Message.decode (Protobuf.encode m.fields) = some m := Message.decode_encode hlen
      simp [item, ofItem, frameType, fields, hm, frameTypeRequest, frameTypeResponse]
  | event m =>
      have hm : Message.decode (Protobuf.encode m.fields) = some m := Message.decode_encode hlen
      simp [item, ofItem, frameType, fields, hm, frameTypeRequest, frameTypeResponse,
        frameTypeEvent]

theorem map_ofItem {sent : List Envelope} (fits : ∀ e ∈ sent, e.Fits) :
    (sent.map item).map ofItem = sent.map some := by
  rw [List.map_map]
  exact List.map_congr_left fun e he => ofItem_item (fits e he)

/-- Whatever part of the stream has come, in whatever chunks: the reader has the first messages as
they were sent, and no error. When everything has come, it has all of them. -/
theorem read_sent (sent : List Envelope) (fits : ∀ e ∈ sent, e.Fits) (chunks : List Bytes)
    (hstream : chunks.flatten <+: encodeAll FrameCodec.encode (sent.map item)) :
    ∃ items rest, feed FrameCodec.decode ([], []) chunks = .ok (items, rest) ∧
      (∃ later, sent.map some = items.map ofItem ++ later) ∧
      (chunks.flatten = encodeAll FrameCodec.encode (sent.map item) →
        items.map ofItem = sent.map some ∧ rest = []) := by
  have hitems : ∀ i ∈ sent.map item, FrameCodec.Fits i :=
    List.forall_mem_map.mpr fun e he => fits_item (fits e he)
  obtain ⟨done, later, rest, hsplit, -, -, hfeed⟩ := FrameCodec.lawful.feed_prefix hitems
    (FrameCodec.lawful.part_nil (sent.map item)) (show [] ++ chunks.flatten <+: _ from hstream) []
  have hread := map_ofItem fits
  refine ⟨done, rest, hfeed, ⟨later.map ofItem, ?_⟩, fun hwhole => ?_⟩
  · rw [← hread, hsplit, List.map_append]
  · have hall := FrameCodec.lawful.feed_all hitems hwhole
    rw [hfeed] at hall
    obtain ⟨rfl, rfl⟩ := Prod.mk.inj (Except.ok.inj hall)
    exact ⟨hread, rfl⟩

/-- A session is asked for, and the text for a UUID that does not parse is answered. -/
private def talk : List Envelope :=
  [.request ⟨3, "session.start".toList, some (.sessionStart ⟨"emulator-5554".toList⟩)⟩,
    .response ⟨4, none, some ⟨-1, "无效 uuid 格式".toList⟩⟩]

private theorem fits_talk : ∀ e ∈ talk, e.Fits := by
  intro e he
  have hlen : ∀ e ∈ talk, encodedLen e.fields ≤ 60 := by decide +kernel
  exact (hlen e he).trans (by decide)

/-- The first five bytes, and twenty of those that come after them. -/
private def talkChunks : List Bytes :=
  [(encodeAll FrameCodec.encode (talk.map item)).take 5,
    ((encodeAll FrameCodec.encode (talk.map item)).drop 5).take 20]

private theorem flatten_talkChunks :
    talkChunks.flatten <+: encodeAll FrameCodec.encode (talk.map item) := by
  rw [talkChunks, List.flatten_cons, List.flatten_singleton]
  refine ⟨((encodeAll FrameCodec.encode (talk.map item)).drop 5).drop 20, ?_⟩
  rw [List.append_assoc, List.take_append_drop, List.take_append_drop]

theorem read_sent_talk :
    ∃ items rest, feed FrameCodec.decode ([], []) talkChunks = .ok (items, rest) ∧
      (∃ later, talk.map some = items.map ofItem ++ later) ∧
      (talkChunks.flatten = encodeAll FrameCodec.encode (talk.map item) →
        items.map ofItem = talk.map some ∧ rest = []) :=
  read_sent talk fits_talk talkChunks flatten_talkChunks

end Envelope
end Kulua.Ipc
