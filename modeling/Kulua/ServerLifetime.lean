import Kulua.ServerLoop

/-! When the server ends: the heartbeat patrol empties the map of clients that are silent, and the
patrol after that ends the control loop. -/

namespace Kulua
open Foundation

namespace ClientConnection

/-- What the patrol reads of a client. -/
def tally (self : ClientConnection) : Bool × Nat := (self.heartbeatSeen, self.heartbeatMisses)

@[simp] theorem tally_touch (self : ClientConnection) (now : Nat) :
    (self.touch now).tally = self.tally := rfl

@[simp] theorem tally_close (self : ClientConnection) : self.close.tally = self.tally := by
  unfold close
  split <;> rfl

@[simp] theorem tally_retransmit (self : ClientConnection) (now : Nat) :
    (self.retransmit now).1.tally = self.tally := by
  unfold retransmit
  split <;> rfl

@[simp] theorem tally_sendCtrlMsg (self : ClientConnection) (now : Nat) (msg : Bytes) :
    (self.sendCtrlMsg now msg).1.tally = self.tally := rfl

theorem tally_onData (self : ClientConnection) (frame : Frame) :
    (self.onData frame).1.tally = self.tally := by
  unfold onData
  split
  · rfl
  · dsimp only
    split
    · rw [tally_close]
      rfl
    · rfl

theorem tally_onFrame (self : ClientConnection) (now : Nat) {frame : Frame}
    (h : frame.type ≠ .heartbeat) : (self.onFrame now frame).1.tally = self.tally := by
  unfold onFrame
  split
  · rfl
  · cases htype : frame.type with
    | heartbeat => exact absurd htype h
    | bye => simp
    | data => rw [tally_onData, tally_touch]
    | _ => rfl

/-- A frame leaves the client its id and the time at which it came. -/
theorem onFrame_heard {self : ClientConnection} (hopen : self.closed = false) (now : Nat)
    (frame : Frame) : (self.onFrame now frame).1.clientId = self.clientId ∧
      (self.onFrame now frame).1.lastActivityNanos = now := by
  unfold onFrame
  rw [if_neg (by simp [hopen])]
  cases frame.type with
  | bye => simp [close, touch, hopen]
  | data =>
    simp only [onData]
    split
    · exact ⟨rfl, rfl⟩
    · split
      · simp [close, touch, hopen]
      · exact ⟨rfl, rfl⟩
  | _ => exact ⟨rfl, rfl⟩

theorem onFrame_heartbeat {self : ClientConnection} (hopen : self.closed = false) (now : Nat)
    {frame : Frame} (h : frame.type = .heartbeat) :
    (self.onFrame now frame).1.heartbeatSeen = true := by
  simp [onFrame, hopen, h]

end ClientConnection

namespace UdpServer

variable {self : UdpServer} {src src' : InetSocketAddress}

theorem dispatch_other (h : src' ≠ src) (c : ClientConnection) (now : Nat) (frame : Frame) :
    (self.dispatch src' c now frame).1.clients[src]? = self.clients[src]? := by
  simp only [dispatch]
  split
  · simp [Std.TreeMap.getElem?_erase, h]
  · simp [Std.TreeMap.getElem?_insert, h]

/-- What comes from elsewhere does not reach the client. -/
theorem receive_other (h : src' ≠ src) (now : Nat) (frame : Frame) :
    (self.receive src' now frame).1.clients[src]? = self.clients[src]? := by
  unfold receive
  split
  · exact dispatch_other h ..
  · split
    · split
      · rfl
      · next server client ack haccept =>
        rw [dispatch_other h]
        unfold acceptSrc at haccept
        split at haccept
        · cases haccept
          simp [Std.TreeMap.getElem?_insert, h]
        · cases haccept
    · rfl

theorem withClient_other (h : src' ≠ src)
    (call : ClientConnection → ClientConnection × List Frame) :
    (self.withClient src' call).1.clients[src]? = self.clients[src]? := by
  unfold withClient
  split
  · rfl
  · simp [Std.TreeMap.getElem?_insert, h]

theorem isEmpty_iff :
    self.clients.isEmpty = true ↔ ∀ src : InetSocketAddress, self.clients[src]? = none := by
  constructor
  · exact fun h src => Std.TreeMap.getElem?_of_isEmpty h
  · intro h
    by_contra hne
    obtain ⟨src, hsrc⟩ :=
      Std.TreeMap.isEmpty_eq_false_iff_exists_mem.mp (Bool.eq_false_iff.mpr hne)
    rw [← Std.TreeMap.isSome_getElem?_iff_mem, h src] at hsrc
    cases hsrc

theorem not_isEmpty {c : ClientConnection} (h : self.clients[src]? = some c) :
    self.clients.isEmpty = false := by
  rw [Bool.eq_false_iff]
  intro hempty
  rw [isEmpty_iff.mp hempty src] at h
  cases h

theorem isEmpty_tickClients (h : self.clients.isEmpty = true) :
    self.tickClients.clients.isEmpty = true := by
  refine isEmpty_iff.mpr fun src => ?_
  simp [tickClients, isEmpty_iff.mp h src]

end UdpServer

namespace ServerLoop
open UdpServer

/-- The action brings neither a new client nor a sign of life of one. -/
def Action.Quiet : Action → Prop
  | .receive _ _ frame => frame.type ≠ .hello ∧ frame.type ≠ .heartbeat
  | _ => True

instance : (a : Action) → Decidable a.Quiet
  | .receive .. => inferInstanceAs (Decidable (_ ∧ _))
  | .markIteration _ | .sweepIdle _ | .watchdog .. | .retransmit .. | .media .. | .sendCtrlMsg .. =>
    .isTrue trivial

instance (self : ServerLoop) : (a : Action) → Decidable (self.Ticks a)
  | .markIteration _ => inferInstanceAs (Decidable (_ ∧ _))
  | .receive .. | .sweepIdle _ | .watchdog .. | .retransmit .. | .media .. | .sendCtrlMsg .. =>
    .isFalse id

/-- The number of patrols of a run. -/
def patrols : ServerLoop → List Action → Nat
  | _, [] => 0
  | self, a :: actions => (if self.Ticks a then 1 else 0) + patrols (self.step a) actions

variable {self : ServerLoop}

theorem step_exited (h : self.exited = true) (a : Action) : self.step a = self := by
  simp [step, h]

theorem step_early {now : Nat} (h : ¬self.Ticks (.markIteration now)) :
    self.step (.markIteration now) = self := by
  unfold step
  split
  · rfl
  · next hexited =>
    simp only [markIteration]
    split
    · rfl
    · next hdue => exact absurd ⟨by simpa using hexited, Nat.not_lt.mp hdue⟩ h

theorem step_patrol {now : Nat} (h : self.Ticks (.markIteration now)) :
    self.step (.markIteration now) = { self with
      server := self.server.tickClients
      lastTickNanos := now
      exited := (self.server.tick self.startNanos now).2 } := by
  have hexited := h.1
  have hdue := h.2
  simp only [step, hexited, markIteration, if_neg (Nat.not_lt.mpr hdue)]
  rfl

/-- Between patrols, what is quiet changes nothing that a patrol reads. -/
theorem each_tally {Q : Bool × Nat → Prop} (h : self.server.Each fun c => Q c.tally) {a : Action}
    (quiet : a.Quiet) (hticks : ¬self.Ticks a) : (self.step a).server.Each fun c => Q c.tally := by
  cases hexited : self.exited with
  | true => rwa [step_exited hexited]
  | false =>
    cases a with
    | markIteration now => rwa [step_early hticks]
    | receive src now frame =>
      simp only [step, hexited, Bool.false_eq_true, if_false, UdpServer.receive]
      split
      · next c hc =>
        have htally := c.tally_onFrame now quiet.2
        simp only [UdpServer.dispatch]
        split
        · exact h.erase src
        · refine h.insert ?_
          rw [htally]
          exact h src c hc
      · split
        · next hhello _ => exact absurd hhello quiet.1
        · exact h
    | sweepIdle now =>
      simp only [step, hexited, Bool.false_eq_true, if_false]
      refine h.filterMap fun src c c' hf hc => ?_
      split at hf
      · cases hf
      · cases hf
        exact hc
    | watchdog src now =>
      simp only [step, hexited, Bool.false_eq_true, if_false, UdpServer.watchdog]
      split
      · exact h
      · split
        · exact h.erase src
        · exact h
    | retransmit src now =>
      simp only [step, hexited, Bool.false_eq_true, if_false]
      exact h.withClient src fun c hc => by rwa [c.tally_retransmit now]
    | media src now =>
      simp only [step, hexited, Bool.false_eq_true, if_false]
      exact h.withClient src fun c hc => hc
    | sendCtrlMsg src now msg =>
      simp only [step, hexited, Bool.false_eq_true, if_false]
      exact h.withClient src fun c hc => hc

theorem clock_step {a : Action} (hticks : ¬self.Ticks a) :
    (self.step a).startNanos = self.startNanos ∧
      (self.step a).lastTickNanos = self.lastTickNanos := by
  cases a with
  | markIteration now =>
    rw [step_early hticks]
    exact ⟨rfl, rfl⟩
  | _ =>
    unfold step
    split <;> exact ⟨rfl, rfl⟩

/-- A client that has sent no heartbeat for `k` patrols. -/
def Unheard (k : Nat) (tally : Bool × Nat) : Prop :=
  k = 0 ∨ (k ≤ 11 ∧ tally.1 = false ∧ k ≤ tally.2 + 1)

/-- There have been `k` patrols without a sign of life. -/
def Silent (k : Nat) (self : ServerLoop) : Prop :=
  self.exited = true ∨ (k ≤ 12 ∧ self.startNanos + k * tickIntervalNanos ≤ self.lastTickNanos ∧
    self.server.Each fun c => Unheard k c.tally)

theorem Silent.quiet {k : Nat} (h : Silent k self) {a : Action} (quiet : a.Quiet)
    (hticks : ¬self.Ticks a) : Silent k (self.step a) := by
  rcases h with h | ⟨hk, hclock, heach⟩
  · rw [step_exited h]
    exact Or.inl h
  · obtain ⟨hstart, hlast⟩ := clock_step hticks
    exact Or.inr ⟨hk, by rwa [hstart, hlast], each_tally heach quiet hticks⟩

/-- A client that the patrol keeps has been counted once more. -/
theorem Unheard.patrol {k : Nat} {c : ClientConnection} (h : Unheard k c.tally)
    (hkept : ¬(c.heartbeatSeen = false ∧ maxHeartbeatMiss ≤ c.heartbeatMisses)) :
    Unheard (k + 1) c.tickHeartbeat.1.tally := by
  have hmax : maxHeartbeatMiss = 10 := rfl
  simp only [Unheard, ClientConnection.tally] at h ⊢
  unfold ClientConnection.tickHeartbeat
  cases hseen : c.heartbeatSeen with
  | true =>
    rw [hseen] at h
    rcases h with rfl | ⟨-, hfalse, -⟩
    · simp
    · cases hfalse
  | false =>
    have hmisses : c.heartbeatMisses < 10 := by
      by_contra hmany
      exact hkept ⟨hseen, by omega⟩
    rcases h with rfl | ⟨-, -, hcount⟩
    · exact Or.inr ⟨by decide, rfl, Nat.le_add_left ..⟩
    · exact Or.inr ⟨by omega, rfl, by simpa using hcount⟩

theorem Silent.patrol {k : Nat} (h : Silent k self) {a : Action} (hticks : self.Ticks a) :
    Silent (k + 1) (self.step a) := by
  cases a with
  | markIteration now =>
    rcases h with h | ⟨hk, hclock, heach⟩
    · exact absurd (h.symm.trans hticks.1) (by decide)
    · have hdue := hticks.2
      have hinterval : tickIntervalNanos = 5000000000 := rfl
      rw [step_patrol hticks]
      rcases Nat.lt_or_eq_of_le hk with hlt | rfl
      · refine Or.inr ⟨hlt, ?_, fun src c' hget => ?_⟩
        · dsimp only
          rw [Nat.succ_mul]
          omega
        · obtain ⟨c, hc, hkept, rfl⟩ := (getElem?_tickClients _ src c').mp hget
          exact (heach src c hc).patrol hkept
      · -- nobody is left, and more than the startup time has passed
        refine Or.inl ?_
        have hempty : self.server.clients.isEmpty = true := by
          refine isEmpty_iff.mpr fun src => Option.eq_none_iff_forall_ne_some.mpr fun c hc => ?_
          rcases heach src c hc with hzero | ⟨hmany, -⟩
          · cases hzero
          · exact absurd hmany (by decide)
        have hlong : startupIdleNanos ≤ now - self.startNanos := by
          rw [startupIdleNanos]
          omega
        simp [UdpServer.tick, hempty, hlong]
  | _ => exact hticks.elim

theorem silent_run {k : Nat} (h : Silent k self) {actions : List Action}
    (quiet : ∀ a ∈ actions, a.Quiet) :
    Silent (k + self.patrols actions) (Run.run step self actions) := by
  induction actions generalizing self k with
  | nil => exact h
  | cons a actions ih =>
    have hrest : ∀ b ∈ actions, b.Quiet := fun b hb => quiet b (List.mem_cons_of_mem _ hb)
    rw [Run.run_cons, patrols]
    split
    · next hticks =>
      rw [← Nat.add_assoc]
      exact ih (h.patrol hticks) hrest
    · next hticks =>
      rw [Nat.zero_add]
      exact ih (h.quiet (quiet a (List.mem_cons_self ..)) hticks) hrest

theorem clock_mono (h : self.startNanos ≤ self.lastTickNanos) (a : Action) :
    (self.step a).startNanos ≤ (self.step a).lastTickNanos := by
  by_cases hticks : self.Ticks a
  · cases a with
    | markIteration now =>
      have hdue := hticks.2
      have hinterval : tickIntervalNanos = 5000000000 := rfl
      rw [step_patrol hticks]
      dsimp only
      omega
    | _ => exact hticks.elim
  · obtain ⟨hstart, hlast⟩ := clock_step hticks
    rwa [hstart, hlast]

/-- The control loop ends only where there is no client. -/
theorem exited_empty (h : self.exited = true → self.server.clients.isEmpty = true) (a : Action)
    (hexited : (self.step a).exited = true) : (self.step a).server.clients.isEmpty = true := by
  cases hbefore : self.exited with
  | true =>
    rw [step_exited hbefore]
    exact h hbefore
  | false =>
    cases a with
    | markIteration now =>
      by_cases hticks : self.Ticks (.markIteration now)
      · rw [step_patrol hticks] at hexited ⊢
        exact isEmpty_tickClients (Bool.and_eq_true_iff.mp hexited).1
      · rw [step_early hticks] at hexited ⊢
        exact h hexited
    | _ => simp [step, hbefore] at hexited

theorem empty_of_exited (options : Options) (now : Nat) (actions : List Action)
    (h : (Run.run step (init options now) actions).exited = true) :
    (Run.run step (init options now) actions).server.clients.isEmpty = true :=
  Run.invariant_all (I := fun s : ServerLoop => s.exited = true → s.server.clients.isEmpty = true)
    (fun _ a hs => exited_empty hs a) (fun hs => by cases hs) actions h

/-- The HELLO is the one step that compares the scids. -/
theorem step_first_hello (options : Options) (now : Nat) (src : InetSocketAddress) (audio : Bool) :
    (init options now).step
        (.receive src now ⟨.ctrl, .hello, 0, 0, 0, 0, some (.hello ⟨options.scid, audio⟩)⟩) =
      ⟨⟨options, ((∅ : Std.TreeMap InetSocketAddress ClientConnection).insert src
        (ClientConnection.new now 1 audio options).1).insert src
        (ClientConnection.new now 1 audio options).1, 2, true⟩, now, now, false⟩ := by
  simp [step, init, UdpServer.new, UdpServer.receive, acceptSrc, equalsIgnoreCase, dispatch,
    ClientConnection.new, ClientConnection.onFrame, ClientConnection.touch]

/-- The server with what is noted of the client at one address: the patrols since its last
heartbeat, and when it was last heard. -/
structure Attended where
  loop : ServerLoop
  missed : Nat
  heardAt : Nat

namespace Attended

def step (src : InetSocketAddress) (self : Attended) (a : Action) : Attended :=
  { loop := self.loop.step a
    missed :=
      match a with
      | .markIteration now => if self.loop.Ticks (.markIteration now) then self.missed + 1
        else self.missed
      | .receive src' _ frame => if src' = src ∧ frame.type = .heartbeat then 0 else self.missed
      | _ => self.missed
    heardAt :=
      match a with
      | .receive src' now _ => if src' = src then now else self.heardAt
      | .media src' now => if src' = src then now else self.heardAt
      | _ => self.heardAt }

/-- There is a heartbeat every ten patrols and a datagram every sixty seconds, and no frame of the
client closes it. -/
def Cared (src : InetSocketAddress) (self : Attended) : Action → Prop
  | .markIteration now => self.loop.Ticks (.markIteration now) → self.missed < maxHeartbeatMiss
  | .receive src' now frame => src' = src →
    ∀ c, self.loop.server.clients[src]? = some c → (c.onFrame now frame).1.closed = false
  | .sweepIdle now => now - self.heardAt < sessionTimeoutNanos
  | .watchdog src' now => src' = src → now - self.heardAt < sessionTimeoutNanos
  | _ => True

/-- What is known of the client as long as it is cared for. -/
structure Known (clientId : U32) (missed heardAt : Nat) (c : ClientConnection) : Prop where
  id : c.clientId = clientId
  isOpen : c.closed = false
  misses : c.heartbeatSeen = true ∨ c.heartbeatMisses ≤ missed
  activity : c.lastActivityNanos = heardAt

def Holds (src : InetSocketAddress) (clientId : U32) (self : Attended) : Prop :=
  self.loop.exited = false ∧ ∃ c, self.loop.server.clients[src]? = some c ∧
    Known clientId self.missed self.heardAt c

variable {src : InetSocketAddress} {clientId : U32} {missed heardAt : Nat} {c : ClientConnection}

theorem Known.kept (known : Known clientId missed heardAt c) (hmissed : missed < maxHeartbeatMiss) :
    ¬(c.heartbeatSeen = false ∧ maxHeartbeatMiss ≤ c.heartbeatMisses) := by
  intro ⟨hseen, hmany⟩
  rcases known.misses with h | h
  · exact absurd (h.symm.trans hseen) (by decide)
  · omega

theorem Known.patrol (known : Known clientId missed heardAt c) :
    Known clientId (missed + 1) heardAt c.tickHeartbeat.1 := by
  obtain ⟨hid, hopen, hmisses, hheard⟩ := known
  unfold ClientConnection.tickHeartbeat
  cases hseen : c.heartbeatSeen with
  | true => exact ⟨hid, hopen, Or.inr (Nat.zero_le _), hheard⟩
  | false =>
    rw [hseen] at hmisses
    exact ⟨hid, hopen, Or.inr (Nat.succ_le_succ (hmisses.resolve_left (by decide))), hheard⟩

/-- A frame of the client is a sign of life. -/
theorem Known.receive (known : Known clientId missed heardAt c) {now : Nat} {frame : Frame}
    (hlive : (c.onFrame now frame).1.closed = false) :
    Known clientId (if frame.type = .heartbeat then 0 else missed) now (c.onFrame now frame).1 := by
  obtain ⟨hid, hopen, hmisses, -⟩ := known
  obtain ⟨hsame, hheard⟩ := ClientConnection.onFrame_heard hopen now frame
  refine ⟨hsame.trans hid, hlive, ?_, hheard⟩
  split
  · next hbeat => exact Or.inl (ClientConnection.onFrame_heartbeat hopen now hbeat)
  · next hbeat =>
    obtain ⟨hseen, hcount⟩ := Prod.ext_iff.mp (c.tally_onFrame now hbeat)
    simp only [ClientConnection.tally] at hseen hcount
    rwa [hseen, hcount]

/-- A call on some client that leaves alone what is known of it. -/
theorem Known.withClient {server : UdpServer} (known : Known clientId missed heardAt c)
    (hc : server.clients[src]? = some c) (src' : InetSocketAddress)
    {call : ClientConnection → ClientConnection × List Frame}
    (keep : Known clientId missed heardAt (call c).1) :
    ∃ c', (server.withClient src' call).1.clients[src]? = some c' ∧
      Known clientId missed heardAt c' := by
  by_cases hsrc : src' = src
  · subst hsrc
    rw [withClient_held hc]
    exact ⟨_, by simp, keep⟩
  · rw [withClient_other hsrc]
    exact ⟨c, hc, known⟩

theorem holds_step {self : Attended} (h : Holds src clientId self) {a : Action}
    (cared : Cared src self a) : Holds src clientId (self.step src a) := by
  obtain ⟨hexited, c, hc, known⟩ := h
  cases a with
  | markIteration now =>
    by_cases hticks : self.loop.Ticks (.markIteration now)
    · simp only [Holds, step, step_patrol hticks, if_pos hticks]
      refine ⟨by simp [UdpServer.tick, not_isEmpty hc], c.tickHeartbeat.1, ?_, known.patrol⟩
      exact (getElem?_tickClients _ _ _).mpr ⟨c, hc, known.kept (cared hticks), rfl⟩
    · simp only [Holds, step, step_early hticks, if_neg hticks]
      exact ⟨hexited, c, hc, known⟩
  | receive src' now frame =>
    simp only [Holds, step, ServerLoop.step, hexited, Bool.false_eq_true, if_false, true_and]
    by_cases hsrc : src' = src
    · subst hsrc
      have hlive := cared rfl c hc
      rw [receive_held hc hlive]
      simp only [true_and, if_true]
      exact ⟨_, by simp, known.receive hlive⟩
    · rw [receive_other hsrc]
      simp only [hsrc, false_and, if_false]
      exact ⟨c, hc, known⟩
  | sweepIdle now =>
    simp only [Holds, step, ServerLoop.step, hexited, Bool.false_eq_true, if_false, true_and]
    have hfresh : ¬sessionTimeoutNanos ≤ now - c.lastActivityNanos := by
      rw [known.activity]
      exact Nat.not_le.mpr cared
    refine ⟨c, ?_, known⟩
    simp [UdpServer.sweepIdle, hc, hfresh]
  | watchdog src' now =>
    simp only [Holds, step, ServerLoop.step, hexited, Bool.false_eq_true, if_false, true_and]
    refine ⟨c, ?_, known⟩
    by_cases hsrc : src' = src
    · subst hsrc
      have hfresh : ¬sessionTimeoutNanos ≤ now - c.lastActivityNanos := by
        rw [known.activity]
        exact Nat.not_le.mpr (cared rfl)
      simp [UdpServer.watchdog, hc, hfresh]
    · unfold UdpServer.watchdog
      split
      · exact hc
      · split
        · simpa [Std.TreeMap.getElem?_erase, hsrc] using hc
        · exact hc
  | retransmit src' now =>
    simp only [Holds, step, ServerLoop.step, hexited, Bool.false_eq_true, if_false, true_and]
    refine known.withClient hc src' ?_
    unfold ClientConnection.retransmit
    split <;> exact ⟨known.id, known.isOpen, known.misses, known.activity⟩
  | media src' now =>
    simp only [Holds, step, ServerLoop.step, hexited, Bool.false_eq_true, if_false, true_and]
    by_cases hsrc : src' = src
    · subst hsrc
      rw [withClient_held hc]
      simp only [if_true]
      exact ⟨c.touch now, by simp, known.id, known.isOpen, known.misses, rfl⟩
    · rw [withClient_other hsrc]
      simp only [hsrc, if_false]
      exact ⟨c, hc, known⟩
  | sendCtrlMsg src' now msg =>
    simp only [Holds, step, ServerLoop.step, hexited, Bool.false_eq_true, if_false, true_and]
    exact known.withClient hc src' ⟨known.id, known.isOpen, known.misses, known.activity⟩

theorem loop_run (src : InetSocketAddress) (self : Attended) (actions : List Action) :
    (Run.run (step src) self actions).loop = Run.run ServerLoop.step self.loop actions := by
  induction actions generalizing self with
  | nil => rfl
  | cons a actions ih => exact ih _

end Attended

end ServerLoop
end Kulua
