import Kulua.App.Handlers

/-! The UDP ports of the sessions: `Core` numbers them one by one, while the server on the
phone binds three for each, and may outlive the session it was started for. -/

namespace Kulua.App
open Foundation Foundation.Keyed

/-- `Options.ctrlPort`, `videoPort` and `audioPort`; the PC adds the same offsets. -/
def serverPorts (port : BitVec 16) : List Nat := [port.toNat, port.toNat + 1, port.toNat + 2]

/-- `UdpServer.bind` where some ports are taken; port 0 stands for any that is free. -/
def bind (taken : List Nat) (port : Nat) : Option (List Nat) :=
  if port = 0 then some taken
  else if port < 65536 ∧ port ∉ taken then some (port :: taken)
  else none

/-- The constructor of `UdpServer`. -/
def bindAll (taken : List Nat) (port : BitVec 16) : Option (List Nat) :=
  (serverPorts port).foldlM bind taken

/-- The ports of every session are valid and none is a port of another session; hence no
server that is still alive keeps a later one from binding its own. -/
structure Isolated (starts : List Start) : Prop where
  valid : ∀ s ∈ starts, ∀ port ∈ serverPorts s.port, port < 65536
  disjoint : starts.Pairwise fun s later => (serverPorts s.port).Disjoint (serverPorts later.port)
  binds : ∀ earlier s later, starts = earlier ++ s :: later →
    ∀ alive : List Start, alive.Sublist earlier →
      (bindAll (alive.flatMap fun s => serverPorts s.port) s.port).isSome

/-- The sessions have consecutive numbers, which are their ports. -/
structure Numbered (c : Core) : Prop where
  counter : c.portCounter = 27183 + BitVec.ofNat 16 c.starts.length
  ports : ∀ i s, c.starts[i]? = some s → s.port = 27183 + BitVec.ofNat 16 i

namespace Numbered
variable {c c' : Core}

theorem of_eq (numbered : Numbered c) (starts : c'.starts = c.starts)
    (counter : c'.portCounter = c.portCounter) : Numbered c' := by
  refine ⟨?_, fun i s h => ?_⟩
  · rw [counter, starts, numbered.counter]
  · rw [starts] at h
    exact numbered.ports i s h

theorem start (numbered : Numbered c) {uuid : Nat}
    (starts : c'.starts = c.starts ++ [⟨uuid, c.portCounter⟩])
    (counter : c'.portCounter = c.portCounter + 1) : Numbered c' := by
  refine ⟨?_, fun i s h => ?_⟩
  · rw [counter, starts, numbered.counter, List.length_append, List.length_singleton,
      BitVec.ofNat_add, BitVec.add_assoc]
    rfl
  · rw [starts, List.getElem?_append] at h
    split at h
    · exact numbered.ports i s h
    · rename_i hlast
      rcases hi : i - c.starts.length with _ | k
      · rw [hi] at h
        obtain rfl := Option.some.inj h
        rw [numbered.counter, show i = c.starts.length by omega]
      · simp [hi] at h

theorem startSession (numbered : Numbered c) (device : Device) :
    Numbered (c.startSession device) := by
  unfold Core.startSession
  split
  · exact numbered
  · split <;> exact numbered.start rfl rfl

theorem takeAndStop (numbered : Numbered c) (uuid : Nat) : Numbered (c.takeAndStop uuid) := by
  unfold Core.takeAndStop
  split
  · exact numbered
  · exact numbered.of_eq rfl rfl

theorem insertDevice (numbered : Numbered c) (getprop : String → Option String) (a : String)
    (st : DeviceState) : Numbered (c.insertDevice getprop a st) := by
  unfold Core.insertDevice
  split
  · exact numbered.of_eq rfl rfl
  · dsimp only
    split <;> exact numbered.of_eq rfl rfl

theorem rehash (numbered : Numbered c) (order : List Nat) : Numbered (c.rehash order) := by
  rw [Core.rehash_eq]
  exact numbered.of_eq rfl rfl

/-- Only the start of a session takes a number. -/
theorem kept : Kept Numbered where
  insert _ numbered getprop a := numbered.insertDevice getprop a .device
  take _ numbered uuid := numbered.takeAndStop uuid
  drop numbered _ := numbered.of_eq rfl rfl
  start _ numbered device := numbered.startSession device
  swap numbered := numbered.of_eq rfl rfl
  dead numbered := numbered.of_eq rfl rfl
  push numbered := numbered.of_eq rfl rfl
  rename _ numbered _ _ := numbered.of_eq rfl rfl
  task numbered _ _ := numbered.of_eq rfl rfl
  track numbered _ := numbered.of_eq rfl rfl
  settings numbered _ := numbered.of_eq rfl rfl
  rehash _ numbered order := numbered.rehash order

theorem step (sound : c.Sound) (numbered : Numbered c) (a : Action) : Numbered (step c a) := by
  refine kept.step sound numbered a (fun _ _ _ _ _ _ => ?_) fun _ => ?_
  · exact numbered.of_eq rfl rfl
  · exact (kept.discards sound numbered _).of_eq rfl rfl

end Numbered

/-- Consecutive sessions share two of their three ports. -/
theorem not_disjoint_next (port : BitVec 16) (h : port.toNat + 1 < 65536) :
    ¬(serverPorts port).Disjoint (serverPorts (port + 1)) := by
  intro disjoint
  refine disjoint (a := port.toNat + 1) (by simp [serverPorts]) ?_
  simp only [serverPorts, BitVec.toNat_add, List.mem_cons]
  left
  simp
  omega

/-- In any history the ports of the sessions are isolated from each other exactly when there
is at most one session. -/
theorem ports_isolated_iff (actions : List Action) :
    Isolated (Run.run step init actions).starts ↔
      (Run.run step init actions).starts.length ≤ 1 := by
  have first : Numbered init := ⟨rfl, fun i s h => by simp [init] at h⟩
  obtain ⟨-, numbered⟩ : (Run.run step init actions).Sound ∧ Numbered (Run.run step init actions) :=
    Run.invariant_all (I := fun c : Core => c.Sound ∧ Numbered c)
      (fun _ a h => ⟨h.1.step a, .step h.1 h.2 a⟩) ⟨Core.sound_init, first⟩ actions
  generalize (Run.run step init actions) = c at numbered
  constructor
  · intro isolated
    by_contra hmany
    obtain ⟨s, s', rest, hstarts⟩ : ∃ s s' rest, c.starts = s :: s' :: rest := by
      rcases hs : c.starts with _ | ⟨s, _ | ⟨s', rest⟩⟩
      · simp [hs] at hmany
      · simp [hs] at hmany
      · exact ⟨s, s', rest, rfl⟩
    have hfirst := numbered.ports 0 s (by simp [hstarts])
    have hsecond := numbered.ports 1 s' (by simp [hstarts])
    have hpair := isolated.disjoint
    rw [hstarts, List.pairwise_cons] at hpair
    have hclash := hpair.1 s' (List.mem_cons_self ..)
    rw [hfirst, hsecond] at hclash
    exact not_disjoint_next 27183 (by decide) hclash
  · intro hfew
    rcases hs : c.starts with _ | ⟨s, _ | ⟨s', rest⟩⟩
    · exact ⟨by simp, by simp, by simp⟩
    · have hport := numbered.ports 0 s (by simp [hs])
      refine ⟨?_, by simp, fun earlier x later hsplit alive hsub => ?_⟩
      · simp only [List.mem_singleton, forall_eq, hport]
        decide
      · rcases earlier with _ | ⟨y, earlier⟩
        · obtain rfl := List.sublist_nil.mp hsub
          obtain rfl := (List.cons.inj hsplit).1
          rw [hport]
          decide
        · simp at hsplit
    · simp [hs] at hfew

/-- A session that is started again on the same phone gets ports that its first server has
bound. -/
theorem ports_clash :
    let getprop : String → Option String := fun _ => some "D1"
    let starts := (Run.run step init [.track ⟨[("D1", .device)], by decide⟩,
      .startSession getprop "D1", .disconnect "D1", .startSession getprop "D1"]).starts
    starts = [⟨0, 27183⟩, ⟨0, 27184⟩] ∧ ¬Isolated starts ∧
      bindAll (serverPorts 27183) 27184 = none := by
  intro getprop starts
  have hstarts : starts = [⟨0, 27183⟩, ⟨0, 27184⟩] := by decide
  refine ⟨hstarts, fun isolated => ?_, by decide⟩
  have hpair := isolated.disjoint
  rw [hstarts, List.pairwise_cons] at hpair
  exact not_disjoint_next 27183 (by decide) (hpair.1 _ (List.mem_cons_self ..))

end Kulua.App
