import Kulua.Clipboard

/-! No echoes: what `Core` broadcasts was put on the clipboard by the user. First the PC
alone, with any messages from any phones; then the PC and its phones together, where each
message can only bring about so many others. -/

namespace Kulua.ClipboardEcho
open Foundation Kulua.Clipboard

/-- Who wrote what is on the PC clipboard; what was there at start-up counts as the user's. -/
inductive Origin where
  | user
  | phone
  deriving DecidableEq, Repr

/-- `Core` with the origin of the clipboard and of what it has broadcast. -/
structure Desk where
  core : Core
  origin : Origin
  sent : List (Origin × String)

namespace Desk

inductive Input where
  /-- The user copies a text, or something that is none. -/
  | copy (text : Option String)
  | phone (text : String)
  | poll

def Input.isCopy : Input → Bool
  | .copy _ => true
  | _ => false

/-- The text that the user copies. -/
def Input.copied : Input → Option String
  | .copy text => text
  | _ => none

def init (text : Option String) : Desk := ⟨⟨text, none, none⟩, .user, []⟩

def step (d : Desk) : Input → Desk
  | .copy text => { d with core := { d.core with systemClipboard := text }, origin := .user }
  | .phone text =>
    { d with
      core := d.core.onPhoneClipboard text
      -- the two early returns come before `set_text`
      origin := if some text = d.core.lastReceivedFromPhone ∨ some text = d.core.clipboardLastSeen
        then d.origin else .phone }
  | .poll =>
    { d with
      core := d.core.pollSystemClipboard.1
      sent := d.sent ++ d.core.pollSystemClipboard.2.toList.map fun text => (d.origin, text) }

/-- A text that a phone put on the clipboard has been seen. -/
structure Traced (texts : List String) (d : Desk) : Prop where
  seen : d.origin = .phone → d.core.systemClipboard = d.core.clipboardLastSeen
  byUser : d.origin = .user → ∀ text ∈ d.core.systemClipboard, text ∈ texts
  sent : ∀ e ∈ d.sent, e.1 = .user ∧ e.2 ∈ texts

theorem traced_init (text : Option String) : Traced text.toList (init text) where
  seen h := by cases h
  byUser _ t ht := Option.mem_toList.mpr ht
  sent e he := by cases he

theorem Traced.mono {texts more : List String} {d : Desk} (h : Traced texts d)
    (sub : texts ⊆ more) : Traced more d where
  seen := h.seen
  byUser hu t ht := sub (h.byUser hu t ht)
  sent e he := ⟨(h.sent e he).1, sub (h.sent e he).2⟩

/-- A poll reads a new text only if the user wrote it. -/
theorem Traced.poll {texts : List String} {d : Desk} (h : Traced texts d) :
    Traced texts (step d .poll) := by
  by_cases hidle : d.core.systemClipboard = none ∨
      d.core.systemClipboard = d.core.clipboardLastSeen
  · have hpoll := Core.pollSystemClipboard_idle hidle
    have hstep : step d .poll = d := by simp [step, hpoll]
    rwa [hstep]
  · push Not at hidle
    obtain ⟨text, hread⟩ := Option.ne_none_iff_exists'.mp hidle.1
    have hnew : some text ≠ d.core.clipboardLastSeen := hread ▸ hidle.2
    have huser : d.origin = .user := by
      cases ho : d.origin with
      | user => rfl
      | phone => exact absurd (h.seen ho) hidle.2
    have htext : text ∈ texts := h.byUser huser text hread
    refine ⟨fun ho => ?_, fun _ t ht => ?_, fun e he => ?_⟩
    · simp [step, huser] at ho
    · simp only [step, Core.pollSystemClipboard_new hread hnew] at ht
      exact h.byUser huser t ht
    · simp only [step, Core.pollSystemClipboard_new hread hnew] at he
      rcases List.mem_append.mp he with he | he
      · exact h.sent e he
      · split at he
        · obtain rfl := List.mem_singleton.mp he
          exact ⟨huser, htext⟩
        · cases he

theorem Traced.phone {texts : List String} {d : Desk} (h : Traced texts d) (text : String) :
    Traced texts (step d (.phone text)) := by
  by_cases hknown : some text = d.core.lastReceivedFromPhone ∨
      some text = d.core.clipboardLastSeen
  · have hcore : d.core.onPhoneClipboard text = d.core := by
      rcases hknown with hknown | hknown <;> simp [Core.onPhoneClipboard, hknown]
    have hstep : step d (.phone text) = d := by simp [step, hcore, hknown]
    rwa [hstep]
  · have hcore : d.core.onPhoneClipboard text = ⟨some text, some text, some text⟩ := by
      simp [Core.onPhoneClipboard, not_or.mp hknown]
    refine ⟨fun _ => ?_, fun ho => ?_, h.sent⟩
    · simp [step, hcore]
    · simp [step, hknown] at ho

theorem Traced.step {texts : List String} {d : Desk} (h : Traced texts d) (a : Input) :
    Traced (texts ++ a.copied.toList) (d.step a) := by
  have sub : texts ⊆ texts ++ a.copied.toList := List.subset_append_left ..
  cases a with
  | copy text =>
      refine ⟨nofun, fun _ t ht => ?_, (h.mono sub).sent⟩
      exact List.mem_append_right _ (Option.mem_toList.mpr ht)
  | phone text => exact (h.phone text).mono sub
  | poll => exact h.poll.mono sub

/-- The texts that the user had on the clipboard. -/
def userTexts (start : Option String) (inputs : List Input) : List String :=
  start.toList ++ inputs.flatMap fun a => a.copied.toList

theorem traced_run (start : Option String) (inputs : List Input) :
    Traced (userTexts start inputs) (Run.run step (init start) inputs) := by
  induction inputs using List.reverseRecOn with
  | nil => simpa [userTexts] using traced_init start
  | append_singleton inputs a ih =>
      have hstep := ih.step a
      rw [userTexts, List.append_assoc] at hstep
      rw [Run.run_append, userTexts, List.flatMap_append]
      simpa using hstep

/-- The clipboard holds a text that no poll has seen. -/
def unread (c : Core) : Nat :=
  if c.systemClipboard ≠ none ∧ c.systemClipboard ≠ c.clipboardLastSeen then 1 else 0

theorem unread_le (c : Core) : unread c ≤ 1 := by
  unfold unread
  split <;> omega

/-- A poll sends one text at most, and only if one was unread; then none is. -/
theorem unread_poll (c : Core) :
    c.pollSystemClipboard.2.toList.length + unread c.pollSystemClipboard.1 ≤ unread c := by
  by_cases hidle : c.systemClipboard = none ∨ c.systemClipboard = c.clipboardLastSeen
  · simp [Core.pollSystemClipboard_idle hidle]
  · push Not at hidle
    obtain ⟨text, hread⟩ := Option.ne_none_iff_exists'.mp hidle.1
    have hnew : some text ≠ c.clipboardLastSeen := hread ▸ hidle.2
    have hbefore : unread c = 1 := if_pos hidle
    have hafter : unread { c with clipboardLastSeen := some text } = 0 := by
      simp [unread, hread]
    rw [Core.pollSystemClipboard_new hread hnew, hbefore, hafter]
    split <;> simp

theorem unread_onPhoneClipboard (c : Core) (text : String) :
    unread (c.onPhoneClipboard text) ≤ unread c := by
  unfold Core.onPhoneClipboard
  split
  · exact le_rfl
  · split
    · exact le_rfl
    · simp [unread]

theorem sent_step (d : Desk) (a : Input) :
    (d.step a).sent.length + unread (d.step a).core ≤
      d.sent.length + unread d.core + if a.isCopy then 1 else 0 := by
  cases a with
  | copy text =>
      have := unread_le (d.step (.copy text)).core
      simp only [Input.isCopy, if_true]
      change d.sent.length + _ ≤ _
      omega
  | phone text =>
      have := unread_onPhoneClipboard d.core text
      simp only [Desk.step, Input.isCopy]
      omega
  | poll =>
      have := unread_poll d.core
      simp only [Desk.step, Input.isCopy, List.length_append, List.length_map]
      omega

/-- There are no more broadcasts than copies of the user, and one for what was there at
start-up. -/
theorem length_sent_le (start : Option String) (inputs : List Input) :
    (Run.run step (init start) inputs).sent.length ≤ inputs.countP Input.isCopy + 1 := by
  have hrun : (Run.run step (init start) inputs).sent.length +
      unread (Run.run step (init start) inputs).core ≤ inputs.countP Input.isCopy + 1 := by
    induction inputs using List.reverseRecOn with
    | nil => simpa [init] using unread_le _
    | append_singleton inputs a ih =>
        have := sent_step (Run.run step (init start) inputs) a
        rw [Run.run_append, List.countP_append, List.countP_singleton]
        simp only [Run.run_cons, Run.run_nil]
        omega
  omega

end Desk

/-- One phone with the messages on their way to it and from it. -/
structure Handset where
  phone : Phone
  toPhone : List String
  toPc : List String

/-- The PC with `n` phones, and the number of messages that were sent. -/
structure Net (n : Nat) where
  core : Core
  phones : Fin n → Handset
  messages : Nat

namespace Net
variable {n : Nat}

/-- What happens without the users. -/
inductive Action (n : Nat) where
  /-- A broadcast reaches the phones whose session takes part in it. -/
  | poll (listening : Fin n → Bool)
  | monitor (i : Fin n)
  | deliverToPhone (i : Fin n)
  /-- A message of a phone whose clipboard sync is off is dropped. -/
  | deliverToPc (i : Fin n) (clipboardEnabled : Bool)

inductive UserAction (n : Nat) where
  | pcCopy (text : Option String)
  | phoneCopy (i : Fin n) (text : String)

def init (pc : Option String) (phones : Fin n → String) : Net n :=
  ⟨⟨pc, none, none⟩, fun i => ⟨⟨phones i, none⟩, [], []⟩, 0⟩

/-- One phone changes, and sends what it has to say. -/
def answer (s : Net n) (i : Fin n) (phone : Phone) (toPhone : List String)
    (sent : Option String) : Net n :=
  { s with
    phones := Function.update s.phones i ⟨phone, toPhone, (s.phones i).toPc ++ sent.toList⟩
    messages := s.messages + sent.toList.length }

def step (s : Net n) : Action n → Net n
  | .poll listening =>
    let (core, sent) := s.core.pollSystemClipboard
    match sent with
    | none => { s with core := core }
    | some text =>
      { core := core
        phones := fun i =>
          let h := s.phones i
          if listening i then { h with toPhone := h.toPhone ++ [text] } else h
        messages := s.messages + (Finset.univ.filter fun i => listening i).card }
  | .monitor i =>
    let round := (s.phones i).phone.monitor
    s.answer i round.1 (s.phones i).toPhone round.2
  | .deliverToPhone i =>
    match (s.phones i).toPhone with
    | [] => s
    | text :: rest =>
      let set := (s.phones i).phone.setClipboard text
      s.answer i set.1 rest set.2
  | .deliverToPc i clipboardEnabled =>
    match (s.phones i).toPc with
    | [] => s
    | text :: rest =>
      { s with
        core := if clipboardEnabled then s.core.onPhoneClipboard text else s.core
        phones := Function.update s.phones i { s.phones i with toPc := rest } }

def userStep (s : Net n) : UserAction n → Net n
  | .pcCopy text => { s with core := { s.core with systemClipboard := text } }
  | .phoneCopy i text =>
    let h := s.phones i
    { s with phones := Function.update s.phones i { h with phone := { h.phone with clipboard := text } } }

def fullStep (s : Net n) : UserAction n ⊕ Action n → Net n
  | .inl a => s.userStep a
  | .inr a => s.step a

end Net

/-- The monitor of the phone has something to report. -/
def due (p : Phone) : Nat := if p.clipboard ≠ "" ∧ some p.clipboard ≠ p.last then 1 else 0

/-- A message to the phone brings about two at most: the reply and a report of the monitor. -/
def Handset.weight (h : Handset) : Nat := 2 * h.toPhone.length + due h.phone

namespace Net
variable {n : Nat}

/-- What can still be sent if no user copies anything. -/
def potential (s : Net n) : Nat :=
  3 * n * Desk.unread s.core + ∑ i, (s.phones i).weight

theorem due_le (p : Phone) : due p ≤ 1 := by
  unfold due
  split <;> omega

theorem due_monitor (p : Phone) :
    p.monitor.2.toList.length + due p.monitor.1 = due p := by
  by_cases h : p.clipboard ≠ "" ∧ some p.clipboard ≠ p.last
  · simp [Phone.monitor, due, h]
  · simp [Phone.monitor, due, h]

theorem length_setClipboard (p : Phone) (text : String) :
    (p.setClipboard text).2.toList.length ≤ 1 := by
  unfold Phone.setClipboard
  split <;> simp

/-- Only the phone that changed has another weight. -/
theorem sum_update (phones : Fin n → Handset) (i : Fin n) (h : Handset) :
    ∑ j, (Function.update phones i h j).weight + (phones i).weight =
      ∑ j, (phones j).weight + h.weight := by
  have hfun : (fun j => (Function.update phones i h j).weight) =
      Function.update (fun j => (phones j).weight) i h.weight := by
    funext j
    exact Function.apply_update (fun _ => Handset.weight) phones i h j
  rw [hfun, Finset.sum_update_of_mem (Finset.mem_univ i),
    ← Finset.add_sum_erase Finset.univ (fun j => (phones j).weight) (Finset.mem_univ i),
    Finset.sdiff_singleton_eq_erase]
  omega

theorem sum_listening (phones : Fin n → Handset) (listening : Fin n → Bool) (text : String) :
    ∑ i, Handset.weight (if listening i then
        { phones i with toPhone := (phones i).toPhone ++ [text] } else phones i) =
      ∑ i, (phones i).weight + 2 * (Finset.univ.filter fun i => listening i).card := by
  have heach : ∀ i, Handset.weight (if listening i then
      { phones i with toPhone := (phones i).toPhone ++ [text] } else phones i) =
        (phones i).weight + 2 * if listening i then 1 else 0 := by
    intro i
    split
    · simp only [Handset.weight, List.length_append, List.length_singleton]
      omega
    · rfl
  simp only [heach, Finset.sum_add_distrib, ← Finset.mul_sum, Finset.card_filter]

theorem potential_answer (s : Net n) (i : Fin n) {phone : Phone} {toPhone : List String}
    {sent : Option String}
    (h : sent.toList.length + (2 * toPhone.length + due phone) ≤ (s.phones i).weight) :
    (s.answer i phone toPhone sent).messages + potential (s.answer i phone toPhone sent) ≤
      s.messages + potential s := by
  have hsum := sum_update s.phones i ⟨phone, toPhone, (s.phones i).toPc ++ sent.toList⟩
  simp only [answer, potential]
  simp only [Handset.weight] at h hsum ⊢
  omega

/-- What is sent is taken from what can be sent. -/
theorem potential_step (s : Net n) (a : Action n) :
    (s.step a).messages + potential (s.step a) ≤ s.messages + potential s := by
  cases a with
  | poll listening =>
      have hunread := Desk.unread_poll s.core
      simp only [step]
      rcases hsent : s.core.pollSystemClipboard.2 with _ | text
      · rw [hsent] at hunread
        have := Nat.mul_le_mul_left (3 * n) hunread
        simp only [Option.toList_none, List.length_nil, Nat.zero_add] at this
        simp only [potential]
        omega
      · rw [hsent] at hunread
        have hone := Desk.unread_le s.core
        have hafter : Desk.unread s.core.pollSystemClipboard.1 = 0 := by
          simp only [Option.toList_some, List.length_singleton] at hunread
          omega
        have hbefore : Desk.unread s.core = 1 := by
          simp only [Option.toList_some, List.length_singleton] at hunread
          omega
        have hcard := Finset.card_filter_le Finset.univ fun i => listening i = true
        rw [Finset.card_univ, Fintype.card_fin] at hcard
        simp only [potential, hafter, hbefore, sum_listening]
        omega
  | monitor i =>
      refine potential_answer s i ?_
      have := due_monitor (s.phones i).phone
      simp only [Handset.weight]
      omega
  | deliverToPhone i =>
      simp only [step]
      split
      · exact le_rfl
      · rename_i text rest hqueue
        refine potential_answer s i ?_
        have hsent := length_setClipboard (s.phones i).phone text
        have hdue := due_le ((s.phones i).phone.setClipboard text).1
        simp only [Handset.weight, hqueue, List.length_cons]
        omega
  | deliverToPc i clipboardEnabled =>
      simp only [step]
      split
      · exact le_rfl
      · rename_i text rest hqueue
        have hunread : Desk.unread (if clipboardEnabled then s.core.onPhoneClipboard text
            else s.core) ≤ Desk.unread s.core := by
          split
          · exact Desk.unread_onPhoneClipboard s.core text
          · exact le_rfl
        have hmul := Nat.mul_le_mul_left (3 * n) hunread
        have hsum := sum_update s.phones i { s.phones i with toPc := rest }
        simp only [Handset.weight] at hsum
        simp only [potential, Handset.weight]
        omega

theorem messages_le (s : Net n) (actions : List (Action n)) :
    (Run.run step s actions).messages ≤ s.messages + potential s := by
  have := Run.invariant_all (I := fun s' : Net n =>
    s'.messages + potential s' ≤ s.messages + potential s)
    (fun s' a h => (potential_step s' a).trans h) le_rfl actions
  omega

end Net

/-- For every sequence of messages of any phones, copies of the user and polls, all that is
broadcast was put on the clipboard by the user, and there are no more broadcasts than the
user's texts. With any number of phones, from whatever state a history has led to, the
messages that are still sent without a further copy are bounded in advance. -/
theorem clipboard_echo_safe :
    (∀ (start : Option String) (inputs : List Desk.Input),
      let d := Run.run Desk.step (Desk.init start) inputs
      (∀ e ∈ d.sent, e.1 = .user ∧ e.2 ∈ Desk.userTexts start inputs) ∧
        d.sent.length ≤ inputs.countP Desk.Input.isCopy + 1) ∧
    ∀ (n : Nat) (pc : Option String) (phones : Fin n → String)
      (history : List (Net.UserAction n ⊕ Net.Action n)) (actions : List (Net.Action n)),
      let s := Run.run Net.fullStep (Net.init pc phones) history
      (Run.run Net.step s actions).messages ≤ s.messages + s.potential :=
  ⟨fun start inputs => ⟨(Desk.traced_run start inputs).sent, Desk.length_sent_le start inputs⟩,
    fun _ _ _ _ actions => Net.messages_le _ actions⟩

end Kulua.ClipboardEcho
