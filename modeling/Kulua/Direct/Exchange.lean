import Kulua.Direct.Datagram
import Kulua.Direct.Proto
import Kulua.Stream.Safety

/-! One direction of the control stream from message to message. Between the two ends there are
datagrams, any of which may be lost, repeated, delayed and reordered. -/

namespace Kulua.Direct
open Foundation Foundation.Segment Kulua.Stream

/-- The buffer of the reader thread. -/
def pcBuffer : Nat := 1472

/-- The buffer of `UdpServer.loop`. -/
def phoneBuffer : Nat := 65536

structure Wired (σ ρ : Type) where
  sender : σ
  receiver : ρ
  /-- The messages that the sender has taken. -/
  sent : List Msg
  /-- Every datagram of the sender. -/
  datagrams : List Bytes
  /-- Every datagram that acknowledges. -/
  acks : List Bytes
  handled : List CtrlMsg

inductive Action where
  | send (now : Nat) (msgId : U32) (m : Msg)
  | timeouts (now : Nat)
  | deliver (i : Nat)
  | emitAck
  | ack (i : Nat)

variable {σ ρ : Type} (S : SenderModel σ) (R : ReceiverModel ρ)

namespace Wired

def init : Wired σ ρ := ⟨S.new, R.new, [], [], [], []⟩

def onFrame (w : Wired σ ρ) (f : Frame) : Wired σ ρ :=
  if f.type = .data ∧ f.stream = .ctrl then
    let (receiver, msgs) := R.onFrame w.receiver f
    { w with receiver := receiver, handled := w.handled ++ msgs.filterMap decodeCtrl }
  else w

def onAck (w : Wired σ ρ) (f : Frame) : Wired σ ρ :=
  match f.type, f.payload with
  | .ack, some (.ackSeq seq) => { w with sender := S.onAck w.sender seq }
  | _, _ => w

/-- What does not fit into the buffer that a datagram is received in is cut off, and what cannot be
read is ignored. -/
def step (room ackRoom : Nat) (w : Wired σ ρ) : Action → Wired σ ρ
  | .send now msgId m =>
    let (sender, out) := S.send w.sender now msgId (encodeCtrl m)
    { w with
      sender := sender
      sent := if out = [] then w.sent else w.sent ++ [m]
      datagrams := w.datagrams ++ out.map Frame.encode }
  | .timeouts now =>
    let (sender, out) := S.timeouts w.sender now
    { w with sender := sender, datagrams := w.datagrams ++ out.map Frame.encode }
  | .deliver i =>
    match (w.datagrams[i]?).bind fun datagram => Frame.decode (datagram.take room) with
    | none => w
    | some f => w.onFrame R f
  | .emitAck =>
    let (receiver, ack) := R.emitAck w.receiver
    { w with
      receiver := receiver
      acks := w.acks ++ ack.toList.map fun seq => (Frame.ctrlAck seq).encode }
  | .ack i =>
    match (w.acks[i]?).bind fun datagram => Frame.decode (datagram.take ackRoom) with
    | none => w
    | some f => w.onAck S f

def exec (room ackRoom : Nat) (actions : List Action) : Wired σ ρ :=
  Run.run (step S R room ackRoom) (init S R) actions

/-- The number of fragments that the messages are cut into. -/
def fragmentCount (w : Wired σ ρ) : Nat :=
  (w.sent.map fun m => (S.split (encodeCtrl m)).length).sum

end Wired

namespace Action

/-- The same step of the frames. -/
def plain : Action → Stream.Action
  | send now msgId m => .send now msgId (encodeCtrl m)
  | timeouts now => .timeouts now
  | deliver i => .deliver i
  | emitAck => .emitAck
  | ack i => .ack i

def message? : Action → Option Msg
  | send _ _ m => some m
  | _ => none

/-- The length of the message is one that both languages have. -/
def Fits : Action → Prop
  | send _ _ m => S.Fits (encodeCtrl m) ∧ (encodeCtrl m).length < 2 ^ 64
  | _ => True

end Action

/-- A fragment as the senders make them. -/
def Fragment (f : Frame) : Prop :=
  ∃ seq msgId total i chunk, f = Frame.ctrlData seq msgId total i chunk ∧
    chunk.length ≤ maxFragment

theorem Fragment.decode_take {f : Frame} (h : Fragment f) {room : Nat} (hroom : pcBuffer ≤ room) :
    Frame.decode (f.encode.take room) = some f := by
  obtain ⟨seq, msgId, total, i, chunk, rfl, hchunk⟩ := h
  have hlen := Frame.length_encode_ctrlData seq msgId total i hchunk
  rw [pcBuffer] at hroom
  rw [List.take_of_length_le (by omega)]
  exact Frame.decode_encode (Frame.canonical_ctrlData ..) (by omega)

theorem decode_take_ctrlAck (seq : U32) {room : Nat} (hroom : pcBuffer ≤ room) :
    Frame.decode ((Frame.ctrlAck seq).encode.take room) = some (Frame.ctrlAck seq) := by
  have hlen := Frame.length_encode_ctrlAck seq
  rw [pcBuffer] at hroom
  rw [List.take_of_length_le (by omega)]
  exact Frame.decode_encode (Frame.canonical_ctrlAck seq) (by omega)

theorem encodeCtrl_ne_nil (m : Msg) : encodeCtrl m ≠ [] := by
  simp [encodeCtrl, Protobuf.encode, Protobuf.encode_ne_nil]

/-- The datagrams carry the frames of the other system, and the messages its payloads. -/
structure Carries (w : Wired σ ρ) (n : Net σ ρ) : Prop where
  sender : w.sender = n.sender
  receiver : w.receiver = n.receiver
  sent : w.sent.map encodeCtrl = payloads n.sent
  length : ∀ m ∈ w.sent, (encodeCtrl m).length < 2 ^ 64
  rows : (w.sent.map fun m => (S.split (encodeCtrl m)).length) = (rows n.sent).map List.length
  datagrams : w.datagrams = n.wire.map Frame.encode
  fragments : ∀ f ∈ frames n.sent, Fragment f
  acks : w.acks = n.acks.map fun seq => (Frame.ctrlAck seq).encode
  handled : w.handled = n.delivered.filterMap decodeCtrl

variable {S R}

theorem carries_init : Carries S (Wired.init S R) (Net.init S R) where
  sender := rfl
  receiver := rfl
  sent := rfl
  length m h := by cases h
  rows := rfl
  datagrams := rfl
  fragments f h := by cases h
  acks := rfl
  handled := rfl

variable {w : Wired σ ρ} {n : Net σ ρ}

theorem Carries.count (h : Carries S w n) : w.fragmentCount S = n.fragmentCount := by
  rw [Wired.fragmentCount, h.rows, Net.fragmentCount, frames, List.length_flatten]

theorem Carries.send (hS : S.Lawful) (short : ∀ p, S.Fits p → ∀ c ∈ S.split p, c.length ≤ maxFragment)
    (h : Carries S w n) {now : Nat} {msgId : U32} {m : Msg} (fits : S.Fits (encodeCtrl m))
    (hlen : (encodeCtrl m).length < 2 ^ 64) (room ackRoom : Nat) :
    Carries S (w.step S R room ackRoom (.send now msgId m))
      (n.step S R (.send now msgId (encodeCtrl m))) := by
  have hsend := hS.send_eq n.sender now msgId _ (hS.fits_valid _ fits)
  rcases hm : S.muted n.sender with _ | _
  · simp only [Wired.step, Net.step, h.sender]
    obtain ⟨⟨id, hframes⟩, -, -⟩ :=
      hS.sendSplit_open n.sender now msgId (S.split (encodeCtrl m)) hm
    rw [← hsend] at hframes
    have hsplit := hS.split_ne_nil _ fits (encodeCtrl_ne_nil m)
    have hout : (S.send n.sender now msgId (encodeCtrl m)).2 ≠ [] := by
      rw [hframes]
      exact fun he => hsplit (by simpa using congrArg List.length he)
    have hsent := sent_emit n (encodeCtrl m) (S.send n.sender now msgId (encodeCtrl m))
    rw [if_neg hout] at hsent
    have hall : frames (n.emit (encodeCtrl m) (S.send n.sender now msgId (encodeCtrl m))).sent =
        frames n.sent ++ (S.send n.sender now msgId (encodeCtrl m)).2 := by
      rw [hsent, frames_append]
      simp [frames, Stream.rows]
    rw [if_neg hout]
    exact {
      sender := rfl
      receiver := h.receiver
      sent := by
        rw [hsent, payloads_append, List.map_append, h.sent]
        rfl
      length := by
        intro m' hm'
        rcases List.mem_append.mp hm' with hm' | hm'
        · exact h.length m' hm'
        · rwa [List.mem_singleton.mp hm']
      rows := by
        rw [hsent, rows_append, List.map_append, List.map_append, h.rows]
        simp [Stream.rows, hframes]
      datagrams := by
        rw [h.datagrams, ← List.map_append]
        rfl
      fragments := by
        intro f hf
        rw [hall] at hf
        rcases List.mem_append.mp hf with hf | hf
        · exact h.fragments f hf
        · rw [hframes] at hf
          obtain ⟨i, hi⟩ := List.getElem?_of_mem hf
          rw [getElem?_fragments] at hi
          obtain ⟨chunk, hchunk, rfl⟩ := Option.map_eq_some_iff.mp hi
          exact ⟨_, _, _, _, chunk, rfl, short _ fits chunk (List.mem_of_getElem? hchunk)⟩
      acks := h.acks
      handled := h.handled }
  · rw [hS.sendSplit_muted n.sender now msgId _ hm] at hsend
    simp only [Wired.step, Net.step, h.sender, hsend, if_true, List.map_nil, List.append_nil]
    have hsent := sent_emit n (encodeCtrl m) (n.sender, [])
    rw [if_pos rfl, List.append_nil] at hsent
    exact {
      sender := rfl
      receiver := h.receiver
      sent := by rw [hsent, h.sent]
      length := h.length
      rows := by rw [hsent, h.rows]
      datagrams := by rw [h.datagrams, Net.emit, List.append_nil]
      fragments := by
        rw [hsent]
        exact h.fragments
      acks := h.acks
      handled := h.handled }

theorem Carries.step (hS : S.Lawful)
    (short : ∀ p, S.Fits p → ∀ c ∈ S.split p, c.length ≤ maxFragment) (h : Carries S w n)
    (safe : Safe S R n) {room ackRoom : Nat} (hroom : pcBuffer ≤ room) (hack : pcBuffer ≤ ackRoom)
    {a : Action} (fits : a.Fits S) :
    Carries S (w.step S R room ackRoom a) (n.step S R a.plain) := by
  cases a with
  | send now msgId m => exact h.send hS short fits.1 fits.2 room ackRoom
  | timeouts now =>
    simp only [Wired.step, Net.step, Action.plain, h.sender, h.datagrams, ← List.map_append]
    exact { h with sender := rfl, datagrams := rfl }
  | deliver i =>
    simp only [Wired.step, Net.step, Action.plain, h.datagrams, List.getElem?_map]
    cases hf : n.wire[i]? with
    | none => exact h
    | some f =>
      have hfragment := h.fragments f (safe.wire f (List.mem_of_getElem? hf))
      rw [Option.map_some, Option.bind_some, hfragment.decode_take hroom]
      obtain ⟨seq, msgId, total, i, chunk, rfl, -⟩ := hfragment
      have hdata : (Frame.ctrlData seq msgId total i chunk).type = .data ∧
          (Frame.ctrlData seq msgId total i chunk).stream = .ctrl := ⟨rfl, rfl⟩
      simp only [Wired.onFrame, if_pos hdata, h.receiver]
      exact { h with receiver := rfl, handled := by rw [h.handled, List.filterMap_append] }
  | emitAck =>
    simp only [Wired.step, Net.step, Action.plain, h.receiver, h.acks, ← List.map_append]
    exact { h with receiver := rfl, acks := rfl }
  | ack i =>
    simp only [Wired.step, Net.step, Action.plain, h.acks, List.getElem?_map]
    cases ha : n.acks[i]? with
    | none => exact h
    | some seq =>
      rw [Option.map_some, Option.bind_some, decode_take_ctrlAck seq hack]
      exact { h with sender := congrArg (S.onAck · seq) h.sender }

theorem fragmentCount_step (w : Wired σ ρ) (room ackRoom : Nat) (a : Action) :
    w.fragmentCount S ≤ (w.step S R room ackRoom a).fragmentCount S := by
  cases a with
  | send now msgId m =>
    simp only [Wired.step, Wired.fragmentCount]
    split
    · exact le_rfl
    · simp
  | timeouts now => exact le_rfl
  | deliver i =>
    simp only [Wired.step, Wired.onFrame]
    split
    · exact le_rfl
    · split <;> exact le_rfl
  | emitAck => exact le_rfl
  | ack i =>
    simp only [Wired.step, Wired.onAck]
    split
    · exact le_rfl
    · split <;> exact le_rfl

theorem Action.sends_plain (hS : S.Lawful) {a : Action} (fits : a.Fits S) :
    a.plain.Sends S.Valid := by
  cases a with
  | send now msgId m => exact hS.fits_valid _ fits.1
  | _ => trivial

/-- Every run of the datagrams is one of the frames. -/
theorem carries_exec (hS : S.Lawful) (hR : R.Lawful)
    (short : ∀ p, S.Fits p → ∀ c ∈ S.split p, c.length ≤ maxFragment) {room ackRoom : Nat}
    (hroom : pcBuffer ≤ room) (hack : pcBuffer ≤ ackRoom) {actions : List Action}
    (fits : ∀ a ∈ actions, a.Fits S)
    (few : (Wired.exec S R room ackRoom actions).fragmentCount S < 2 ^ 31) :
    ∃ n, Carries S (Wired.exec S R room ackRoom actions) n ∧ Safe S R n ∧
      Kept S n n.delivered.length := by
  have along : Run.Along (Wired.step S R room ackRoom)
      (fun w a => a.Fits S ∧ w.fragmentCount S < 2 ^ 31) (Wired.init S R) actions :=
    Run.along_and (Run.along_of_forall (C := Action.Fits S) _ fits)
      (Run.along_of_mono (fun w a => fragmentCount_step w room ackRoom a) few)
  have hboth : Carries S (Wired.exec S R room ackRoom actions)
      (Net.exec S R (actions.map Action.plain)) ∧
        Safe S R (Net.exec S R (actions.map Action.plain)) := by
    refine Run.related (R := fun w n => Carries S w n ∧ Safe S R n) ?_
      ⟨carries_init, safe_init hS hR⟩ along
    intro w n a ⟨h, safe⟩ ⟨hfits, hcount⟩
    exact ⟨h.step hS short safe hroom hack hfits,
      safe.step hS hR (Action.sends_plain hS hfits) (h.count ▸ hcount)⟩
  refine ⟨_, hboth.1, hboth.2, kept_exec hS hR ?_ ?_ (hboth.1.count ▸ few)⟩
  · intro a ha
    obtain ⟨b, hb, rfl⟩ := List.mem_map.mp ha
    exact Action.sends_plain hS (fits b hb)
  · intro q hq
    obtain ⟨b, -, hb⟩ := List.mem_map.mp hq
    cases b <;> cases hb

/-- Payloads that the sender made decode to the messages they were made of. -/
theorem filterMap_decodeCtrl {msgs : List Msg} (h : ∀ m ∈ msgs, (encodeCtrl m).length < 2 ^ 64) :
    (msgs.map encodeCtrl).filterMap decodeCtrl = msgs.map fun m => some m.canonical := by
  induction msgs with
  | nil => rfl
  | cons m msgs ih =>
    rw [List.map_cons, List.filterMap_cons_some (decodeCtrl_encodeCtrl (h m (by simp))),
      ih fun m' hm' => h m' (List.mem_cons_of_mem _ hm'), List.map_cons]

theorem Carries.handled_eq (h : Carries S w n) (safe : Safe S R n) :
    w.handled = (w.sent.take n.delivered.length).map fun m => some m.canonical := by
  have hdelivered : n.delivered = (w.sent.take n.delivered.length).map encodeCtrl := by
    rw [List.map_take, h.sent]
    exact safe.delivered
  calc w.handled = n.delivered.filterMap decodeCtrl := h.handled
    _ = ((w.sent.take n.delivered.length).map encodeCtrl).filterMap decodeCtrl :=
      congrArg _ hdelivered
    _ = _ := filterMap_decodeCtrl fun m hm => h.length m (List.mem_of_mem_take hm)

/-- What was handled is what was sent first, and nothing is missing once the window is empty. -/
theorem exchanged (hS : S.Lawful) (hR : R.Lawful)
    (short : ∀ p, S.Fits p → ∀ c ∈ S.split p, c.length ≤ maxFragment) {room ackRoom : Nat}
    (hroom : pcBuffer ≤ room) (hack : pcBuffer ≤ ackRoom) {actions : List Action}
    (fits : ∀ a ∈ actions, a.Fits S)
    (few : (Wired.exec S R room ackRoom actions).fragmentCount S < 2 ^ 31) :
    let w := Wired.exec S R room ackRoom actions
    w.handled <+: w.sent.map (fun m => some m.canonical) ∧
      (S.window w.sender = [] → w.handled = w.sent.map fun m => some m.canonical) := by
  intro w
  obtain ⟨n, h, safe, kept⟩ := carries_exec hS hR short hroom hack fits few
  have hhandled := h.handled_eq safe
  constructor
  · rw [hhandled]
    exact (List.take_prefix _ _).map _
  · intro hempty
    have hdrop : n.sent.drop n.delivered.length = [] := by
      rw [List.eq_nil_iff_forall_not_mem]
      intro e he
      have hne : e.2 ≠ [] := by
        have := (List.mem_filter.mp (List.mem_of_mem_drop he)).2
        simpa using this
      obtain ⟨f, hf⟩ := List.exists_mem_of_ne_nil _ hne
      have hwindow := kept.in_window e he f hf
      rw [← h.sender, hempty] at hwindow
      cases hwindow
    have hlen : w.sent.length ≤ n.delivered.length := by
      have hsent := congrArg List.length h.sent
      rw [List.length_map, payloads, List.length_map] at hsent
      exact hsent ▸ List.drop_eq_nil_iff.mp hdrop
    rw [hhandled, List.take_of_length_le hlen]

theorem send_rust_ne_nil (s : ReliableSender) (now : Nat) (msgId : U32) (m : Msg) :
    (rustSender.send s now msgId (encodeCtrl m)).2 ≠ [] := by
  rw [rustSender_lawful.send_eq _ _ _ _ trivial]
  obtain ⟨⟨id, hframes⟩, -, -⟩ :=
    rustSender_lawful.sendSplit_open s now msgId (rustSender.split (encodeCtrl m)) rfl
  rw [hframes]
  intro he
  exact rustSender_lawful.split_ne_nil _ trivial (encodeCtrl_ne_nil m)
    (by simpa using congrArg List.length he)

/-- The PC's sender takes every message. -/
theorem sent_rust (room ackRoom : Nat) (w : Wired ReliableSender ρ) (actions : List Action) :
    (Run.run (Wired.step rustSender R room ackRoom) w actions).sent =
      w.sent ++ actions.filterMap Action.message? := by
  induction actions generalizing w with
  | nil => simp
  | cons a actions ih =>
    rw [Run.run_cons, ih]
    cases a with
    | send now msgId m =>
      have hout := send_rust_ne_nil w.sender now msgId m
      simp [Wired.step, hout, Action.message?]
    | timeouts now => rfl
    | deliver i =>
      rw [List.filterMap_cons_none rfl]
      congr 1
      simp only [Wired.step, Wired.onFrame]
      split
      · rfl
      · split <;> rfl
    | emitAck => rfl
    | ack i =>
      rw [List.filterMap_cons_none rfl]
      congr 1
      simp only [Wired.step, Wired.onAck]
      split
      · rfl
      · split <;> rfl

theorem rustSender_short (p : Bytes) : ∀ c ∈ rustSender.split p, c.length ≤ maxFragment :=
  fun _ hc => length_le_of_mem_chunks hc

theorem javaSender_short (p : Bytes) (fits : javaSender.Fits p) :
    ∀ c ∈ javaSender.split p, c.length ≤ maxFragment := by
  intro c hc
  simp only [javaSender] at hc fits
  rcases eq_or_ne p [] with rfl | hne
  · rw [ReliableControl.Sender.slices_nil, List.mem_singleton] at hc
    simp [hc]
  · rw [ReliableControl.Sender.slices_fits hne fits] at hc
    exact length_le_of_mem_chunks hc

/-- Both directions, over datagrams that the network may lose, repeat, delay and reorder. -/
theorem messages_arrive (actions : List Action) :
    ((∀ a ∈ actions, a.Fits rustSender) →
      let w := Wired.exec rustSender javaReceiver phoneBuffer pcBuffer actions
      w.fragmentCount rustSender < 2 ^ 31 →
      w.sent = actions.filterMap Action.message? ∧
        w.handled <+: w.sent.map (fun m => some m.canonical) ∧
        (w.sender.window = [] → w.handled = w.sent.map fun m => some m.canonical)) ∧
    ((∀ a ∈ actions, a.Fits javaSender) →
      let w := Wired.exec javaSender rustReceiver pcBuffer phoneBuffer actions
      w.fragmentCount javaSender < 2 ^ 31 →
      w.handled <+: w.sent.map (fun m => some m.canonical) ∧
        (w.sender.window = [] → w.handled = w.sent.map fun m => some m.canonical)) := by
  constructor
  · intro fits w few
    refine ⟨?_, exchanged rustSender_lawful javaReceiver_lawful (fun p _ => rustSender_short p)
      (by decide) le_rfl fits few⟩
    exact (sent_rust phoneBuffer pcBuffer (Wired.init rustSender javaReceiver) actions).trans
      (List.nil_append _)
  · intro fits w few
    exact exchanged javaSender_lawful rustReceiver_lawful javaSender_short le_rfl (by decide)
      fits few

/-- Two messages that arrive in the other order, one of them twice, and the ACK of both. -/
theorem messages_arrive_swapped :
    let actions : List Action := [.send 0 1 (.destroyDisplay ⟨3⟩), .send 0 2 (.setAudio ⟨true, 0, 5⟩),
      .deliver 1, .deliver 0, .deliver 0, .emitAck, .ack 0]
    let w := Wired.exec rustSender javaReceiver phoneBuffer pcBuffer actions
    w.sender.window = [] ∧
      w.handled = [some (.destroyDisplay ⟨3⟩), some (.setAudio ⟨true, 0, 5⟩)] := by
  intro actions
  have hfits : ∀ a ∈ actions, a.Fits rustSender := by
    simp [actions, Action.Fits, rustSender]
    decide +kernel
  have hwindow : (Wired.exec rustSender javaReceiver phoneBuffer pcBuffer
      actions).sender.window = [] := by decide +kernel
  obtain ⟨hsent, -, hall⟩ := (messages_arrive actions).1 hfits (by decide +kernel)
  refine ⟨hwindow, (hall hwindow).trans ?_⟩
  rw [hsent]
  rfl

end Kulua.Direct
