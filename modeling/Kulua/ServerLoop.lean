import Kulua.UdpServer
import Kulua.Foundation.Run

/-! The control loop of `UdpServer.java` with its heartbeat patrol, and the other threads
that work on its clients: the retransmission timers, the watchdogs and the media ports.
Every thread takes its steps whenever it likes; each step brings its own time. -/

namespace Kulua
open Foundation

def sessionTimeoutNanos : Nat := 60000000000
def tickIntervalNanos : Nat := 5000000000
def maxHeartbeatMiss : Nat := 10
def startupIdleNanos : Nat := 30000000000

namespace UdpServer

/-- The patrol of the clients. Closing a client removes it. -/
def tickClients (self : UdpServer) : UdpServer :=
  { self with clients := self.clients.filterMap fun _ client =>
      let (client, misses) := client.tickHeartbeat
      if maxHeartbeatMiss < misses then none else some client }

/-- The patrol, and whether the server should exit. -/
def tick (self : UdpServer) (startNanos now : Nat) : UdpServer × Bool :=
  (self.tickClients,
    self.clients.isEmpty && (self.hadClient || decide (startupIdleNanos ≤ now - startNanos)))

/-- Clients that have not been heard for the time of a session are closed. -/
def sweepIdle (self : UdpServer) (now : Nat) : UdpServer :=
  { self with clients := self.clients.filterMap fun _ client =>
      if sessionTimeoutNanos ≤ now - client.lastActivityNanos then none else some client }

/-- One turn of a client's watchdog thread. -/
def watchdog (self : UdpServer) (src : InetSocketAddress) (now : Nat) : UdpServer :=
  match self.clients[src]? with
  | none => self
  | some client =>
    if sessionTimeoutNanos ≤ now - client.lastActivityNanos then
      { self with clients := self.clients.erase src }
    else self

end UdpServer

/-- The server process; it ends when the control loop returns. -/
structure ServerLoop where
  server : UdpServer
  startNanos : Nat
  lastTickNanos : Nat
  exited : Bool

namespace ServerLoop

inductive Action where
  | markIteration (now : Nat)
  | receive (src : InetSocketAddress) (now : Nat) (frame : Frame)
  | sweepIdle (now : Nat)
  | watchdog (src : InetSocketAddress) (now : Nat)
  | retransmit (src : InetSocketAddress) (now : Nat)
  /-- A media datagram with the client id of the client at `src`. -/
  | media (src : InetSocketAddress) (now : Nat)
  | sendCtrlMsg (src : InetSocketAddress) (now : Nat) (msg : Bytes)
  deriving DecidableEq

def init (options : Options) (now : Nat) : ServerLoop := ⟨.new options, now, now, false⟩

/-- Each iteration of the control loop; every five seconds there is a patrol. -/
def markIteration (self : ServerLoop) (now : Nat) : ServerLoop :=
  if now - self.lastTickNanos < tickIntervalNanos then self
  else
    let (server, exit) := self.server.tick self.startNanos now
    { self with server := server, lastTickNanos := now, exited := exit }

def step (self : ServerLoop) (a : Action) : ServerLoop :=
  if self.exited then self
  else
    match a with
    | .markIteration now => self.markIteration now
    | .receive src now frame => { self with server := (self.server.receive src now frame).1 }
    | .sweepIdle now => { self with server := self.server.sweepIdle now }
    | .watchdog src now => { self with server := self.server.watchdog src now }
    | .retransmit src now =>
      { self with server := (self.server.withClient src fun c => c.retransmit now).1 }
    | .media src now =>
      { self with server := (self.server.withClient src fun c => (c.touch now, [])).1 }
    | .sendCtrlMsg src now msg =>
      { self with server := (self.server.withClient src fun c => c.sendCtrlMsg now msg).1 }

/-- The action brings a patrol. -/
def Ticks (self : ServerLoop) : Action → Prop
  | .markIteration now => self.exited = false ∧ tickIntervalNanos ≤ now - self.lastTickNanos
  | _ => False

def AfterTick (P : UdpServer → Prop) (self : ServerLoop) (a : Action) : Prop :=
  self.Ticks a → P (self.step a).server

def BeforeTick (P : UdpServer → Prop) (self : ServerLoop) (a : Action) : Prop :=
  self.Ticks a → P self.server

end ServerLoop

/-- The connection drops every control message that it is given. -/
def ClientConnection.Discards (self : ClientConnection) : Prop :=
  ∀ now msg, self.sendCtrlMsg now msg = (self, [])

namespace UdpServer

/-- No open client has a stalled sender, and none discards what it is to send. -/
def NoZombies (self : UdpServer) : Prop :=
  ∀ (src : InetSocketAddress) (c : ClientConnection), self.clients[src]? = some c →
    c.closed = false → c.ctrlSender.isStalled = false ∧ ¬c.Discards

/-- Every client with a stalled sender is one that the next patrol closes: no heartbeat
since the last one, and ten patrols missed. -/
def Condemned (self : UdpServer) : Prop :=
  ∀ (src : InetSocketAddress) (c : ClientConnection), self.clients[src]? = some c →
    c.closed = false → c.ctrlSender.isStalled = true →
      c.heartbeatSeen = false ∧ maxHeartbeatMiss ≤ c.heartbeatMisses

/-- The clients of the map are open, and so are their senders. -/
def AllOpen (self : UdpServer) : Prop :=
  ∀ (src : InetSocketAddress) (c : ClientConnection), self.clients[src]? = some c →
    c.closed = false ∧ c.ctrlSender.closed = false

/-- Every client of the map has the property. -/
def Each (P : ClientConnection → Prop) (self : UdpServer) : Prop :=
  ∀ (src : InetSocketAddress) (c : ClientConnection), self.clients[src]? = some c → P c

end UdpServer

/-- New connections have the property, and no call on a connection that stays open loses it. -/
structure ClientConnection.Kept (P : ClientConnection → Prop) : Prop where
  new : ∀ now clientId wantAudio options,
    P (ClientConnection.new now clientId wantAudio options).1
  onFrame : ∀ c now frame, P c → (c.onFrame now frame).1.closed = false →
    P (c.onFrame now frame).1
  tickHeartbeat : ∀ c, P c → P c.tickHeartbeat.1
  touch : ∀ c now, P c → P (c.touch now)
  retransmit : ∀ c now, P c → P (c.retransmit now).1
  sendCtrlMsg : ∀ c now msg, P c → P (c.sendCtrlMsg now msg).1

namespace ClientConnection

variable {self : ClientConnection}

theorem tickHeartbeat_sender (self : ClientConnection) :
    self.tickHeartbeat.1.ctrlSender = self.ctrlSender ∧
      self.tickHeartbeat.1.closed = self.closed := by
  unfold tickHeartbeat
  split <;> exact ⟨rfl, rfl⟩

theorem tickHeartbeat_misses (self : ClientConnection) :
    maxHeartbeatMiss < self.tickHeartbeat.2 ↔
      self.heartbeatSeen = false ∧ maxHeartbeatMiss ≤ self.heartbeatMisses := by
  unfold tickHeartbeat
  rcases self.heartbeatSeen with _ | _
  · simp
  · simp

/-- What is to be sent is lost exactly when the sender is closed or stalled. -/
theorem discards_iff :
    self.Discards ↔ (self.ctrlSender.closed || self.ctrlSender.stalled) = true := by
  constructor
  · intro discards
    by_contra hlive
    have hframes := congrArg (fun x => x.2.length) (discards 0 [0])
    have hone : ReliableControl.Sender.slices [0] ≠ [] := by decide
    simp [sendCtrlMsg, ReliableControl.Sender.sendCtrlBytes,
      ReliableControl.Sender.sendFragments_open (Bool.eq_false_iff.mpr hlive)] at hframes
    exact hone hframes
  · intro hmuted now msg
    simp [sendCtrlMsg, ReliableControl.Sender.sendCtrlBytes,
      ReliableControl.Sender.sendFragments_muted hmuted]

/-- A connection that a frame leaves open has an open sender. -/
theorem onFrame_sender_open (hsender : self.ctrlSender.closed = false) (now : Nat) (frame : Frame)
    (hlive : (self.onFrame now frame).1.closed = false) :
    (self.onFrame now frame).1.ctrlSender.closed = false := by
  by_cases hclosed : self.closed = true
  · simp [onFrame, hclosed] at hlive
  · by_cases hbye : frame.type = .bye
    · simp [onFrame, hclosed, hbye, close, touch] at hlive
    · by_cases hdata : frame.type = .data ∧ frame.stream = .ctrl
      · rcases hdead : (self.ctrlReceiver.onFrame frame).1.dead with _ | _
        · rw [onFrame_data (by simpa using hclosed) now hdata.1 hdata.2 hdead]
          exact hsender
        · simp [onFrame, hclosed, hdata.1, onData, hdata.2, touch, close,
            ReliableControl.Receiver.isDead, hdead] at hlive
      · obtain ⟨c, out, hframe, -, -, hs, -⟩ :=
          onFrame_other (by simpa using hclosed) now hbye hdata
        rw [hframe]
        rcases hs with hs | hs
        · rw [hs, hsender]
        · rw [hs]
          exact hsender

end ClientConnection

namespace UdpServer

variable {self : UdpServer}

variable {P : ClientConnection → Prop}

theorem each_new (options : Options) : (new options).Each P := by
  intro src c h
  simp [new] at h

theorem Each.insert (h : self.Each P) {src : InetSocketAddress} {c : ClientConnection}
    (hc : P c) : Each P { self with clients := self.clients.insert src c } := by
  intro src' c' hget
  rw [Std.TreeMap.getElem?_insert] at hget
  split at hget
  · cases hget
    exact hc
  · exact h src' c' hget

theorem Each.erase (h : self.Each P) (src : InetSocketAddress) :
    Each P { self with clients := self.clients.erase src } := by
  intro src' c' hget
  rw [Std.TreeMap.getElem?_erase] at hget
  split at hget
  · cases hget
  · exact h src' c' hget

theorem Each.filterMap (h : self.Each P)
    {f : InetSocketAddress → ClientConnection → Option ClientConnection}
    (keep : ∀ src c c', f src c = some c' → P c → P c') :
    Each P { self with clients := self.clients.filterMap f } := by
  intro src c' hget
  rw [Std.TreeMap.getElem?_filterMap'] at hget
  obtain ⟨c, hc, hf⟩ := Option.bind_eq_some_iff.mp hget
  exact keep src c c' hf (h src c hc)

theorem Each.withClient (h : self.Each P) (src : InetSocketAddress)
    {call : ClientConnection → ClientConnection × List Frame} (keep : ∀ c, P c → P (call c).1) :
    (self.withClient src call).1.Each P := by
  unfold UdpServer.withClient
  split
  · exact h
  · rename_i c hc
    exact h.insert (keep c (h src c hc))

theorem Each.dispatch (h : self.Each P) (kept : ClientConnection.Kept P)
    (src : InetSocketAddress) {c : ClientConnection} (hc : P c) (now : Nat) (frame : Frame) :
    (self.dispatch src c now frame).1.Each P := by
  unfold UdpServer.dispatch
  rcases hclosed : (c.onFrame now frame).1.closed with _ | _
  · simp only [hclosed]
    exact h.insert (kept.onFrame c now frame hc hclosed)
  · simp only [hclosed]
    exact h.erase src

theorem Each.acceptSrc (h : self.Each P) (kept : ClientConnection.Kept P)
    {src : InetSocketAddress} {now : Nat} {hello : Hello} {server : UdpServer}
    {client : ClientConnection} {ack : Frame}
    (haccept : self.acceptSrc src now hello = some (server, client, ack)) :
    server.Each P ∧ P client := by
  unfold UdpServer.acceptSrc at haccept
  split at haccept
  · cases haccept
    have h' : Each P { self with nextClientId := self.nextClientId + 1, hadClient := true } := h
    exact ⟨h'.insert (kept.new ..), kept.new ..⟩
  · cases haccept

theorem Each.receive (h : self.Each P) (kept : ClientConnection.Kept P)
    (src : InetSocketAddress) (now : Nat) (frame : Frame) :
    (self.receive src now frame).1.Each P := by
  unfold UdpServer.receive
  split
  · rename_i c hc
    exact h.dispatch kept src (h src c hc) now frame
  · split
    · split
      · exact h
      · rename_i server client ack haccept
        obtain ⟨hserver, hclient⟩ := h.acceptSrc kept haccept
        exact hserver.dispatch kept src hclient now frame
    · exact h

/-- The patrol closes those, and only those, that it has counted long enough. -/
theorem getElem?_tickClients (self : UdpServer) (src : InetSocketAddress) (c' : ClientConnection) :
    self.tickClients.clients[src]? = some c' ↔ ∃ c, self.clients[src]? = some c ∧
      ¬(c.heartbeatSeen = false ∧ maxHeartbeatMiss ≤ c.heartbeatMisses) ∧
      c' = c.tickHeartbeat.1 := by
  simp only [tickClients, Std.TreeMap.getElem?_filterMap', Option.bind_eq_some_iff,
    ← ClientConnection.tickHeartbeat_misses]
  refine exists_congr fun c => and_congr_right fun _ => ?_
  split
  · simp_all
  · simp_all [eq_comm]

theorem Each.tickClients (h : self.Each P) (kept : ClientConnection.Kept P) :
    self.tickClients.Each P := by
  intro src c' hget
  obtain ⟨c, hc, -, rfl⟩ := (getElem?_tickClients self src c').mp hget
  exact kept.tickHeartbeat c (h src c hc)

theorem kept_open :
    ClientConnection.Kept fun c => c.closed = false ∧ c.ctrlSender.closed = false where
  new _ _ _ _ := ⟨rfl, rfl⟩
  onFrame c now frame hc hclosed :=
    ⟨hclosed, ClientConnection.onFrame_sender_open hc.2 now frame hclosed⟩
  tickHeartbeat c hc := by
    rw [(c.tickHeartbeat_sender).1, (c.tickHeartbeat_sender).2]
    exact hc
  touch _ _ hc := hc
  retransmit c now hc := by
    unfold ClientConnection.retransmit
    split
    · exact hc
    · exact ⟨hc.1, (ReliableControl.Sender.retransmit_closed c.ctrlSender now).trans hc.2⟩
  sendCtrlMsg c now msg hc :=
    ⟨hc.1, (ReliableControl.Sender.sendCtrlBytes_closed c.ctrlSender now msg).trans hc.2⟩

/-- The patrol leaves no zombie exactly when it finds every stalled client condemned. -/
theorem noZombies_tickClients_iff (h : self.AllOpen) :
    self.tickClients.NoZombies ↔ self.Condemned := by
  constructor
  · intro hnone src c hc hlive hstalled
    by_contra hkept
    have hget := (getElem?_tickClients self src c.tickHeartbeat.1).mpr ⟨c, hc, hkept, rfl⟩
    have hrun := (hnone src _ hget ((c.tickHeartbeat_sender).2.trans hlive)).1
    rw [(c.tickHeartbeat_sender).1, hstalled] at hrun
    cases hrun
  · intro hcondemned src c' hget hlive
    have hopen := (Each.tickClients h kept_open src c' hget).2
    obtain ⟨c, hc, hkept, rfl⟩ := (getElem?_tickClients self src c').mp hget
    have hrun : c.tickHeartbeat.1.ctrlSender.stalled = false := by
      rw [(c.tickHeartbeat_sender).1]
      by_contra hstalled
      exact hkept (hcondemned src c hc (h src c hc).1
        (by simpa [ReliableControl.Sender.isStalled] using hstalled))
    exact ⟨hrun, by rw [ClientConnection.discards_iff, hopen, hrun]; simp⟩

end UdpServer

namespace ServerLoop
open UdpServer

variable {self : ServerLoop}

/-- What every call on a connection keeps, every step of the server keeps for all clients. -/
theorem each_step {P : ClientConnection → Prop} (kept : ClientConnection.Kept P)
    (h : self.server.Each P) (a : Action) : (self.step a).server.Each P := by
  unfold step
  split
  · exact h
  · cases a with
    | markIteration now =>
        simp only [markIteration]
        split
        · exact h
        · exact h.tickClients kept
    | receive src now frame => exact h.receive kept src now frame
    | sweepIdle now =>
        refine h.filterMap fun src c c' hf hc => ?_
        split at hf
        · cases hf
        · cases hf
          exact hc
    | watchdog src now =>
        simp only [UdpServer.watchdog]
        split
        · exact h
        · split
          · exact h.erase src
          · exact h
    | retransmit src now => exact h.withClient src fun c => kept.retransmit c now
    | media src now => exact h.withClient src fun c => kept.touch c now
    | sendCtrlMsg src now msg => exact h.withClient src fun c => kept.sendCtrlMsg c now msg

/-- Over any run of the server: there are no zombies after any patrol exactly when before
every patrol each client with a stalled sender has also been silent for ten patrols. -/
theorem no_zombies_iff (options : Options) (now : Nat) (actions : List Action) :
    Run.Along step (AfterTick NoZombies) (init options now) actions ↔
      Run.Along step (BeforeTick Condemned) (init options now) actions := by
  refine Run.along_iff (I := fun s => s.server.AllOpen) (fun s a h => each_step kept_open h a)
    (fun s a h => ?_) (each_new options) actions
  cases a with
  | markIteration now =>
      refine forall_congr' fun hticks => ?_
      have hstep : (s.step (.markIteration now)).server = s.server.tickClients := by
        have hexited := hticks.1
        have hdue := hticks.2
        simp only [step, hexited, markIteration, UdpServer.tick]
        rw [if_neg (Nat.not_lt.mpr hdue)]
        rfl
      rw [hstep]
      exact noZombies_tickClients_iff h
  | _ => exact iff_of_true (fun hticks => hticks.elim) fun hticks => hticks.elim

/-- A client that sends its heartbeats but acknowledges nothing stays connected after its
sender has stalled. -/
theorem zombie_kept :
    let options : Options := ⟨"1a2b3c4d", "opus"⟩
    let hello : Frame := ⟨.ctrl, .hello, 0, 0, 0, 0, some (.hello ⟨"1a2b3c4d", false⟩)⟩
    let heartbeat : Frame := ⟨.ctrl, .heartbeat, 0, 0, 0, 0, none⟩
    let actions : List Action := [.sendCtrlMsg 1 0 [7],
      .retransmit 1 200000000, .retransmit 1 600000000, .retransmit 1 1400000000,
      .retransmit 1 3000000000, .retransmit 1 4600000000, .receive 1 4900000000 heartbeat,
      .markIteration 5000000000, .retransmit 1 6200000000, .retransmit 1 7800000000,
      .retransmit 1 9400000000, .receive 1 9900000000 heartbeat, .markIteration 10000000000,
      .retransmit 1 11000000000, .receive 1 14900000000 heartbeat]
    ¬Run.Along step (AfterTick NoZombies) (init options 0)
      (.receive 1 0 hello :: (actions ++ [.markIteration 15000000000])) := by
  intro options hello heartbeat actions along
  -- the HELLO is the one step that compares the scids
  have first : (init options 0).step (.receive 1 0 hello) =
      ⟨⟨options, ((∅ : Std.TreeMap InetSocketAddress ClientConnection).insert 1
        (ClientConnection.new 0 1 false options).1).insert 1
        (ClientConnection.new 0 1 false options).1, 2, true⟩, 0, 0, false⟩ := by
    simp [step, init, UdpServer.new, receive, acceptSrc, equalsIgnoreCase, options, hello,
      dispatch, ClientConnection.new, ClientConnection.onFrame, ClientConnection.touch]
  have rest := along.2
  rw [first] at rest
  have after := ((Run.along_append ..).mp rest).2.1
  have stalled : ((step (Run.run step
      ⟨⟨options, ((∅ : Std.TreeMap InetSocketAddress ClientConnection).insert 1
        (ClientConnection.new 0 1 false options).1).insert 1
        (ClientConnection.new 0 1 false options).1, 2, true⟩, 0, 0, false⟩ actions)
        (.markIteration 15000000000)).server.clients[(1 : InetSocketAddress)]?).map
      (fun c => (c.closed, c.ctrlSender.isStalled)) = some (false, true) := by
    decide +kernel
  obtain ⟨c, hc, hpair⟩ := Option.map_eq_some_iff.mp stalled
  rw [Prod.mk.injEq] at hpair
  have hrunning := (after ⟨by decide +kernel, by decide +kernel⟩ 1 c hc hpair.1).1
  rw [hpair.2] at hrunning
  cases hrunning

end ServerLoop
end Kulua
