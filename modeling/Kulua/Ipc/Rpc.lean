import Kulua.Foundation.Run
import Kulua.Foundation.Watch
import Kulua.Ipc.Handlers

/-! The requests of the UI and the answers of the daemon: the commands of the UI (`ipc_request`), its
connection (`connect_daemon` of `lib.rs`) and the loop of the daemon for it (`handle_ipc_connection`
of `server.rs`), in any interleaving. What is between the two are the messages that were sent and
not yet read. -/

namespace Kulua.Ipc.Rpc
open Foundation Foundation.Text

/-- How far a call of `ipc_request` has come. -/
inductive Phase where
  /-- It has its id, and has not looked for the connection. -/
  | drawn
  /-- It has the sender of the command channel, in which there was no room yet. -/
  | sending
  | waiting
  | done (result : Except Str Proto.Response)

structure Call where
  request : Proto.Request
  phase : Phase

def notConnected : Str := "未连接 daemon".toList
def disconnected : Str := "daemon 已断开".toList

/-- The task of `connect_daemon`: the sender is there from the first moment of a connection on. -/
inductive Link where
  | connecting
  | greeting (sent : Nat)
  | serving
  | closed
deriving DecidableEq

/-- How a message fares that the connection sends: an error of the socket may come after the bytes
have gone. -/
inductive Sent where
  | ok
  | lost
  | failedLate
deriving DecidableEq

def Sent.arriving (sent : Sent) (request : Proto.Request) : List Proto.Request :=
  if sent = .lost then [] else [request]

structure DeviceInfo where
  uuid : Str
  serial : Str
  state : Str
  name : Str
deriving DecidableEq

def deviceToInfo (device : Proto.Device) : DeviceInfo :=
  ⟨device.uuid, device.serial, device.state, device.name⟩

inductive Content where
  | response (m : Proto.Response)
  | event (m : Proto.Event.Payload)

/-- A message to the UI. `asOf` is the version of the device list when it was written; nobody reads
it. -/
structure Letter where
  content : Content
  asOf : Nat

structure State where
  /-- The calls in the order in which they drew their ids. -/
  calls : List Call
  nextId : BitVec 64
  link : Link
  /-- The command channel: the calls whose senders of the response are in it. -/
  queue : List Nat
  pending : List (BitVec 64 × Nat)
  devices : List DeviceInfo
  /-- The version that `devices` shows; nobody reads it. -/
  shown : Option Nat
  pairingInfo : Option Proto.Response.PairingInfo
  toDaemon : List Proto.Request
  toUi : List Letter
  /-- The request that the daemon is about. -/
  serving : Option Proto.Request
  merged : Watch (List Proto.Device)
  seen : Nat
  disk : Disk
  /-- What the daemon has answered so far; nobody reads it. -/
  served : List (Proto.Request × Proto.Response)
  /-- The device lists so far; nobody reads them. -/
  published : List (List Proto.Device)

/-- The two requests of the beginning; their ids are those that no call draws. -/
def hello : Nat → Proto.Request
  | 0 => ⟨1, "device.list".toList, none⟩
  | _ => ⟨2, "pairing.info".toList, none⟩

def firstId : BitVec 64 := 3

/-- At the start the daemon has published `devices` and the settings are `disk`. The receiver of a
new connection has not seen what was published after `seen`. -/
def init (published : List (List Proto.Device)) (devices : List Proto.Device) (seen : Nat)
    (disk : Disk) : State :=
  ⟨[], firstId, .connecting, [], [], [], none, none, [], [], none,
    ⟨devices, published.length⟩, seen, disk, [], published ++ [devices]⟩

namespace State

def phaseOf (s : State) (k : Nat) : Option Phase := (s.calls[k]?).map Call.phase
def requestOf (s : State) (k : Nat) : Option Proto.Request := (s.calls[k]?).map Call.request

def draw (s : State) (method : Str) (params : Option Proto.Request.Payload) : State :=
  { s with
    calls := s.calls ++ [⟨⟨s.nextId, method, params⟩, .drawn⟩]
    nextId := s.nextId + 1 }

/-- The senders of the response of these calls are dropped. -/
def abandon (s : State) (ks : List Nat) : State :=
  { s with calls := s.calls.mapIdx fun k c =>
      if k ∈ ks then { c with phase := .done (.error disconnected) } else c }

def setPhase (s : State) (k : Nat) (phase : Phase) : State :=
  { s with calls := s.calls.modify k fun c => { c with phase := phase } }

/-- The task ends: what is in the channel and what is pending is dropped. -/
def close (s : State) : State :=
  { s.abandon (s.queue ++ s.pending.map Prod.snd) with link := .closed, queue := [], pending := [] }

def transmit (s : State) (sent : Sent) (request : Proto.Request) : State :=
  { s with toDaemon := s.toDaemon ++ sent.arriving request }

/-- `pending.insert`: a sender that was there under the id is dropped. -/
def await (s : State) (id : BitVec 64) (k : Nat) : State :=
  { s.abandon ((s.pending.filter (·.1 = id)).map Prod.snd) with
    pending := (id, k) :: s.pending.filter (·.1 ≠ id) }

/-- `update_device_cache`. -/
def cache (s : State) (devices : List Proto.Device) (asOf : Nat) : State :=
  { s with devices := devices.map deviceToInfo, shown := some asOf }

/-- A response that no call waits for may be one to a request of the beginning. -/
def onHello (s : State) (r : Proto.Response) (asOf : Nat) : State :=
  match r with
  | ⟨1, some (.deviceList m), none⟩ => s.cache m.devices asOf
  | ⟨2, some (.pairingInfo m), none⟩ => { s with pairingInfo := some m }
  | _ => s

def onResponse (s : State) (r : Proto.Response) (asOf : Nat) : State :=
  match s.pending.find? (·.1 = r.id) with
  | some (_, k) =>
    { s.setPhase k (.done (.ok r)) with pending := s.pending.filter (·.1 ≠ r.id) }
  | none => s.onHello r asOf

def onEvent (s : State) (e : Proto.Event.Payload) (asOf : Nat) : State :=
  match e with
  | .deviceUpdated m => s.cache m.devices asOf
  | _ => s

def onLetter (s : State) (l : Letter) : State :=
  match l.content with
  | .response r => s.onResponse r l.asOf
  | .event e => s.onEvent e l.asOf

def write (s : State) (c : Content) : State :=
  { s with toUi := s.toUi ++ [⟨c, s.merged.version⟩] }

end State

inductive Action where
  -- the commands of the UI
  | call (method : Str) (params : Option Proto.Request.Payload)
  | takeSender (k : Nat)
  | enqueue (k : Nat)
  -- the connection of the UI
  | connect
  | greet (sent : Sent)
  | forward (sent : Sent)
  | receive
  | hangUp
  -- the daemon
  | accept
  | answer (around : Surroundings)
  | publish (devices : List Proto.Device)
  /-- Another connection or the user changes the settings. -/
  | edit (disk : Disk)
  /-- The device list is sent again. What was polled may be older than what is sent. -/
  | notify (polled : Nat)
  /-- News that are not those of the device list. -/
  | tell (e : Proto.Event.Payload)

/-- The places in the command channel. -/
def capacity : Nat := 32

namespace State
variable (s : State) (j k : Nat) (ks : List Nat) (phase : Phase)

theorem requestOf_draw (method : Str) (params : Option Proto.Request.Payload) :
    (s.draw method params).requestOf k =
      if k = s.calls.length then some ⟨s.nextId, method, params⟩ else s.requestOf k := by
  simp only [requestOf, draw]
  split
  · next h => simp [h]
  · next h =>
    rcases Nat.lt_or_gt_of_ne h with hlt | hgt
    · rw [List.getElem?_append_left hlt]
    · rw [List.getElem?_eq_none (by simp; omega), List.getElem?_eq_none (by omega)]

theorem phaseOf_draw (method : Str) (params : Option Proto.Request.Payload) :
    (s.draw method params).phaseOf k =
      if k = s.calls.length then some .drawn else s.phaseOf k := by
  simp only [phaseOf, draw]
  split
  · next h => simp [h]
  · next h =>
    rcases Nat.lt_or_gt_of_ne h with hlt | hgt
    · rw [List.getElem?_append_left hlt]
    · rw [List.getElem?_eq_none (by simp; omega), List.getElem?_eq_none (by omega)]

@[simp] theorem requestOf_setPhase : (s.setPhase k phase).requestOf j = s.requestOf j := by
  simp only [requestOf, setPhase, List.getElem?_modify]
  cases s.calls[j]? with
  | none => rfl
  | some c => by_cases h : k = j <;> simp [h]

theorem phaseOf_setPhase :
    (s.setPhase k phase).phaseOf j =
      if j = k then (s.phaseOf k).map fun _ => phase else s.phaseOf j := by
  simp only [phaseOf, setPhase, List.getElem?_modify]
  by_cases h : j = k
  · subst h
    cases s.calls[j]? <;> simp
  · cases s.calls[j]? <;> simp [h, Ne.symm h]

@[simp] theorem requestOf_abandon : (s.abandon ks).requestOf j = s.requestOf j := by
  simp only [requestOf, abandon, List.getElem?_mapIdx]
  cases s.calls[j]? with
  | none => rfl
  | some c => by_cases h : j ∈ ks <;> simp [h]

theorem phaseOf_abandon :
    (s.abandon ks).phaseOf j =
      if j ∈ ks then (s.phaseOf j).map fun _ => .done (.error disconnected) else s.phaseOf j := by
  simp only [phaseOf, abandon, List.getElem?_mapIdx]
  cases s.calls[j]? with
  | none => simp
  | some c => by_cases h : j ∈ ks <;> simp [h]

/-- A message to the UI ends a call, or leaves the calls alone. -/
theorem onLetter_cases (l : Letter) :
    (∃ r i k, l.content = .response r ∧ s.pending.find? (·.1 = r.id) = some (i, k) ∧
      s.onLetter l = { s.setPhase k (.done (.ok r)) with
        pending := s.pending.filter (·.1 ≠ r.id) }) ∨
    ((∀ r, l.content = .response r → s.pending.find? (·.1 = r.id) = none) ∧
      ∃ d v p, s.onLetter l = { s with devices := d, shown := v, pairingInfo := p }) := by
  obtain ⟨content, asOf⟩ := l
  cases content with
  | response r =>
    simp only [onLetter, onResponse]
    cases h : s.pending.find? (·.1 = r.id) with
    | some p => exact .inl ⟨r, p.1, p.2, rfl, h, rfl⟩
    | none =>
      refine .inr ⟨fun r' hr' => ?_, ?_⟩
      · cases hr'
        exact h
      · dsimp only
        unfold onHello
        split <;> exact ⟨_, _, _, rfl⟩
  | event e =>
    refine .inr ⟨fun r hr => (by cases hr), ?_⟩
    simp only [onLetter, onEvent]
    split <;> exact ⟨_, _, _, rfl⟩

end State

variable (daemon : Daemon)

def step (s : State) : Action → State
  | .call method params => s.draw method params
  | .takeSender k =>
    match s.phaseOf k with
    | some .drawn =>
      if s.link = .connecting then s.setPhase k (.done (.error notConnected))
      else s.setPhase k .sending
    | _ => s
  | .enqueue k =>
    match s.phaseOf k with
    | some .sending =>
      if s.link = .closed then s.setPhase k (.done (.error disconnected))
      else if s.queue.length < capacity then
        { s.setPhase k .waiting with queue := s.queue ++ [k] }
      else s
    | _ => s
  | .connect => if s.link = .connecting then { s with link := .greeting 0 } else s
  | .greet sent =>
    match s.link with
    | .greeting n =>
      let s' := s.transmit sent (hello n)
      if sent = .ok then { s' with link := if n = 0 then .greeting 1 else .serving }
      else s'.close
    | _ => s
  | .forward sent =>
    match s.link, s.queue with
    | .serving, k :: queue =>
      match s.requestOf k with
      | some request =>
        let s' := { s with queue := queue }.transmit sent request
        if sent = .ok then s'.await request.id k else s'.abandon [k]
      | none => s
    | _, _ => s
  | .receive =>
    match s.link, s.toUi with
    | .serving, l :: rest => { s with toUi := rest }.onLetter l
    | _, _ => s
  | .hangUp => if s.link = .serving then s.close else s
  | .accept =>
    match s.serving, s.toDaemon with
    | none, request :: rest => { s with serving := some request, toDaemon := rest }
    | _, _ => s
  | .answer around =>
    match s.serving with
    | some request =>
      let o := Handlers.dispatchRequest daemon { around with merged := s.merged.value } request
        s.disk
      { s.write (.response o.response) with
        serving := none
        disk := o.disk
        served := s.served ++ [(request, o.response)] }
    | none => s
  | .publish devices =>
    { s with merged := s.merged.send devices, published := s.published ++ [devices] }
  | .edit disk => { s with disk := disk }
  | .notify polled =>
    if s.serving = none ∧ s.seen < polled ∧ polled ≤ s.merged.version then
      { s.write (.event (.deviceUpdated ⟨s.merged.value⟩)) with seen := polled }
    else s
  | .tell (.deviceUpdated _) => s
  | .tell e => if s.serving = none then s.write (.event e) else s

/-- An action by which the connection, or a request on it, is lost. -/
def Action.Breaks : Action → Prop
  | .greet sent | .forward sent => sent ≠ .ok
  | .hangUp => True
  | _ => False

/-- The steps that carry a request on and its answer back, when they find something to carry. -/
def State.Enabled (s : State) : Action → Prop
  | .greet _ => ∃ n, s.link = .greeting n
  | .forward _ => s.link = .serving ∧
    ∃ k queue q, s.queue = k :: queue ∧ s.requestOf k = some q
  | .receive => s.link = .serving ∧ ∃ l rest, s.toUi = l :: rest
  | .accept => s.serving = none ∧ ∃ q rest, s.toDaemon = q :: rest
  | .answer _ => ∃ q, s.serving = some q
  | _ => False

/-- What a step can do, with what it has found. -/
inductive Move (s : State) : Action → State → Prop
  | call (method : Str) (params : Option Proto.Request.Payload) :
    Move s (.call method params) (s.draw method params)
  | refused {k : Nat} (drawn : s.phaseOf k = some .drawn) :
    Move s (.takeSender k) (s.setPhase k (.done (.error notConnected)))
  | taken {k : Nat} (drawn : s.phaseOf k = some .drawn) (started : s.link ≠ .connecting) :
    Move s (.takeSender k) (s.setPhase k .sending)
  | late {k : Nat} (sending : s.phaseOf k = some .sending) :
    Move s (.enqueue k) (s.setPhase k (.done (.error disconnected)))
  | queued {k : Nat} (sending : s.phaseOf k = some .sending) (open' : s.link ≠ .closed) :
    Move s (.enqueue k) { s.setPhase k .waiting with queue := s.queue ++ [k] }
  | connected (start : s.link = .connecting) : Move s .connect { s with link := .greeting 0 }
  | greeted {n : Nat} (greeting : s.link = .greeting n) :
    Move s (.greet .ok)
      { s.transmit .ok (hello n) with link := if n = 0 then .greeting 1 else .serving }
  | lost {n : Nat} (greeting : s.link = .greeting n) {sent : Sent} (fails : sent ≠ .ok) :
    Move s (.greet sent) (s.transmit sent (hello n)).close
  | forwarded {k : Nat} {queue : List Nat} {request : Proto.Request} (serving : s.link = .serving)
    (head : s.queue = k :: queue) (asked : s.requestOf k = some request) :
    Move s (.forward .ok) (({ s with queue := queue }.transmit .ok request).await request.id k)
  | dropped {k : Nat} {queue : List Nat} {request : Proto.Request} (serving : s.link = .serving)
    (head : s.queue = k :: queue) (asked : s.requestOf k = some request) {sent : Sent}
    (fails : sent ≠ .ok) :
    Move s (.forward sent) (({ s with queue := queue }.transmit sent request).abandon [k])
  | replied {l : Letter} {rest : List Letter} {r : Proto.Response} {i : BitVec 64} {k : Nat}
    (serving : s.link = .serving) (head : s.toUi = l :: rest) (reply : l.content = .response r)
    (found : s.pending.find? (·.1 = r.id) = some (i, k)) :
    Move s .receive { { s with toUi := rest }.setPhase k (.done (.ok r)) with
      pending := s.pending.filter (·.1 ≠ r.id) }
  | heard {l : Letter} {rest : List Letter} {d : List DeviceInfo} {v : Option Nat}
    {p : Option Proto.Response.PairingInfo} (serving : s.link = .serving)
    (head : s.toUi = l :: rest)
    (other : ∀ r, l.content = .response r → s.pending.find? (·.1 = r.id) = none)
    (news : { s with toUi := rest }.onLetter l =
      { s with toUi := rest, devices := d, shown := v, pairingInfo := p }) :
    Move s .receive { s with toUi := rest, devices := d, shown := v, pairingInfo := p }
  | closed (serving : s.link = .serving) : Move s .hangUp s.close
  | accepted {request : Proto.Request} {rest : List Proto.Request} (idle : s.serving = none)
    (head : s.toDaemon = request :: rest) :
    Move s .accept { s with serving := some request, toDaemon := rest }
  | answered {request : Proto.Request} (busy : s.serving = some request)
    (around around' : Surroundings) (merged : around'.merged = s.merged.value) :
    Move s (.answer around) { s.write
        (.response (Handlers.dispatchRequest daemon around' request s.disk).response) with
      serving := none
      disk := (Handlers.dispatchRequest daemon around' request s.disk).disk
      served := s.served ++
        [(request, (Handlers.dispatchRequest daemon around' request s.disk).response)] }
  | published (devices : List Proto.Device) :
    Move s (.publish devices)
      { s with merged := s.merged.send devices, published := s.published ++ [devices] }
  | edited (disk : Disk) : Move s (.edit disk) { s with disk := disk }
  | notified (idle : s.serving = none) {polled : Nat} (known : polled ≤ s.merged.version) :
    Move s (.notify polled)
      { s.write (.event (.deviceUpdated ⟨s.merged.value⟩)) with seen := polled }
  | told {e : Proto.Event.Payload} (idle : s.serving = none)
    (other : ∀ m, e ≠ .deviceUpdated m) : Move s (.tell e) (s.write (.event e))

variable {daemon}

theorem move_of_step (s : State) (a : Action) :
    step daemon s a = s ∧ ¬ s.Enabled a ∨ Move daemon s a (step daemon s a) := by
  cases a with
  | call method params => exact .inr (.call method params)
  | takeSender k =>
    rw [step]
    split
    · next drawn =>
      split
      · exact .inr (.refused drawn)
      · next started => exact .inr (.taken drawn started)
    · exact .inl ⟨rfl, id⟩
  | enqueue k =>
    rw [step]
    split
    · next sending =>
      split
      · exact .inr (.late sending)
      · next hopen =>
        split
        · exact .inr (.queued sending hopen)
        · exact .inl ⟨rfl, id⟩
    · exact .inl ⟨rfl, id⟩
  | connect =>
    rw [step]
    split
    · next start => exact .inr (.connected start)
    · exact .inl ⟨rfl, id⟩
  | greet sent =>
    rw [step]
    split
    · next greeting =>
      by_cases hsent : sent = .ok
      · subst hsent
        exact .inr (.greeted greeting)
      · simp only [if_neg hsent]
        exact .inr (.lost greeting hsent)
    · next other => exact .inl ⟨rfl, fun ⟨n, h⟩ => other n h⟩
  | forward sent =>
    rw [step]
    split
    · next k queue serving head =>
      split
      · next asked =>
        by_cases hsent : sent = .ok
        · subst hsent
          exact .inr (.forwarded serving head asked)
        · simp only [if_neg hsent]
          exact .inr (.dropped serving head asked hsent)
      · next unknown =>
        refine .inl ⟨rfl, fun ⟨_, j, queue', q, hqueue, hq⟩ => ?_⟩
        rw [head, List.cons.injEq] at hqueue
        rw [← hqueue.1, unknown] at hq
        cases hq
    · next other => exact .inl ⟨rfl, fun ⟨serving, k, queue, q, head, _⟩ => other k queue serving head⟩
  | receive =>
    rw [step]
    split
    · next l rest serving head =>
      rcases State.onLetter_cases { s with toUi := rest } l with
        ⟨r, i, k, reply, found, h⟩ | ⟨other, d, v, p, h⟩
      · rw [h]
        exact .inr (.replied serving head reply found)
      · rw [h]
        exact .inr (.heard serving head other h)
    · next other => exact .inl ⟨rfl, fun ⟨serving, l, rest, head⟩ => other l rest serving head⟩
  | hangUp =>
    rw [step]
    split
    · next serving => exact .inr (.closed serving)
    · exact .inl ⟨rfl, id⟩
  | accept =>
    rw [step]
    split
    · next idle head => exact .inr (.accepted idle head)
    · next other => exact .inl ⟨rfl, fun ⟨idle, q, rest, head⟩ => other q rest idle head⟩
  | answer around =>
    rw [step]
    split
    · next busy => exact .inr (.answered busy around { around with merged := s.merged.value } rfl)
    · next idle =>
      refine .inl ⟨rfl, fun ⟨q, busy⟩ => ?_⟩
      rw [idle] at busy
      cases busy
  | publish devices => exact .inr (.published devices)
  | edit disk => exact .inr (.edited disk)
  | notify polled =>
    rw [step]
    split
    · next h => exact .inr (.notified h.1 h.2.2)
    · exact .inl ⟨rfl, id⟩
  | tell e =>
    cases e with
    | deviceUpdated m => exact .inl ⟨rfl, id⟩
    | _ =>
      rw [step]
      split
      · next idle => exact .inr (.told idle (by simp))
      · exact .inl ⟨rfl, id⟩
      · simp

theorem abandon_nil (s : State) : s.abandon [] = s := by
  have hcalls : s.calls.mapIdx (fun k c =>
      if k ∈ ([] : List Nat) then { c with phase := .done (.error disconnected) } else c) =
        s.calls := by
    refine List.ext_getElem (by simp) fun k hk hk' => ?_
    simp
  rw [State.abandon, hcalls]

end Kulua.Ipc.Rpc
