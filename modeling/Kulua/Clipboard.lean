import Kulua.Foundation.Run

/-! Clipboard synchronisation between one PC and one phone. On the PC,
`sync-core/src/app.rs` polls the system clipboard and takes in what the phone
reports; on the phone, `ControlChannel.handle` writes what the PC sends and the
monitor of `Clipboard.java` reports what changed. The session in between is a pair
of FIFO channels. A clipboard without text is the empty string on the phone and a
failed read on the PC, as `get()` and `get_text` have it. -/

namespace Kulua.Clipboard
open Foundation

/-- The clipboard fields of `Core`, with the system clipboard they are about. -/
structure Core where
  systemClipboard : Option String
  clipboardLastSeen : Option String
  lastReceivedFromPhone : Option String
  deriving DecidableEq, Repr

/-- `on_phone_clipboard`; the write succeeds. -/
def Core.onPhoneClipboard (c : Core) (text : String) : Core :=
  if some text = c.lastReceivedFromPhone then c
  else if some text = c.clipboardLastSeen then c
  else
    { lastReceivedFromPhone := some text
      systemClipboard := some text
      clipboardLastSeen := some text }

/-- `poll_system_clipboard`, with the text it broadcasts to the session. -/
def Core.pollSystemClipboard (c : Core) : Core × Option String :=
  match c.systemClipboard with
  | some text =>
    if some text ≠ c.clipboardLastSeen then
      ({ c with clipboardLastSeen := some text },
        if some text ≠ c.lastReceivedFromPhone then some text else none)
    else (c, none)
  | none => (c, none)

theorem Core.pollSystemClipboard_idle {c : Core}
    (h : c.systemClipboard = none ∨ c.systemClipboard = c.clipboardLastSeen) :
    c.pollSystemClipboard = (c, none) := by
  unfold pollSystemClipboard
  split
  · rename_i text hread
    rw [hread] at h
    rw [if_neg]
    simpa using h
  · rfl

theorem Core.pollSystemClipboard_new {c : Core} {text : String}
    (hread : c.systemClipboard = some text) (hnew : some text ≠ c.clipboardLastSeen) :
    c.pollSystemClipboard = ({ c with clipboardLastSeen := some text },
      if some text ≠ c.lastReceivedFromPhone then some text else none) := by
  simp only [pollSystemClipboard, hread, if_pos hnew]

/-- The phone's clipboard and the text its monitor reported last. -/
structure Phone where
  clipboard : String
  last : Option String
  deriving DecidableEq, Repr

/-- `String.length` of Java counts UTF-16 code units. -/
def utf16Length (text : String) : Nat :=
  (text.toList.map fun c => if c.val > 0xFFFF then 2 else 1).sum

/-- The `SetClipboard` branch of `handle`, with the text of the `broadcastChange`. -/
def Phone.setClipboard (p : Phone) (text : String) : Phone × Option String :=
  if utf16Length text > 16 * 1024 * 1024 then (p, none)
  else ({ p with clipboard := text }, some text)

/-- One round of the monitor thread, with the text of its `broadcastChange`. -/
def Phone.monitor (p : Phone) : Phone × Option String :=
  if p.clipboard ≠ "" ∧ some p.clipboard ≠ p.last then
    ({ p with last := some p.clipboard }, some p.clipboard)
  else (p, none)

structure State where
  core : Core
  phone : Phone
  toPhone : List String
  toPc : List String
  deriving DecidableEq, Repr

inductive Action where
  | pcCopy (text : String)
  | phoneCopy (text : String)
  | poll
  | monitor
  | deliverToPhone
  | deliverToPc
  deriving DecidableEq, Repr

/-- A session that has just been set up, over whatever the two clipboards hold. -/
def init (pc : Option String) (phone : String) : State :=
  ⟨⟨pc, none, none⟩, ⟨phone, none⟩, [], []⟩

def step (s : State) : Action → State
  | .pcCopy text => { s with core := { s.core with systemClipboard := some text } }
  | .phoneCopy text => { s with phone := { s.phone with clipboard := text } }
  | .poll =>
    let (core, sent) := s.core.pollSystemClipboard
    { s with core := core, toPhone := s.toPhone ++ sent.toList }
  | .monitor =>
    let (phone, sent) := s.phone.monitor
    { s with phone := phone, toPc := s.toPc ++ sent.toList }
  | .deliverToPhone =>
    match s.toPhone with
    | [] => s
    | text :: rest =>
      let (phone, sent) := s.phone.setClipboard text
      { s with phone := phone, toPhone := rest, toPc := s.toPc ++ sent.toList }
  | .deliverToPc =>
    match s.toPc with
    | [] => s
    | text :: rest => { s with core := s.core.onPhoneClipboard text, toPc := rest }

/-- No message is in flight and further polls change nothing. -/
def Quiescent (s : State) : Prop :=
  s.toPhone = [] ∧ s.toPc = [] ∧ step s .poll = s ∧ step s .monitor = s

instance (s : State) : Decidable (Quiescent s) := inferInstanceAs (Decidable (_ ∧ _))

/-- The two clipboards hold the same text. -/
def Agree (s : State) : Prop := s.core.systemClipboard.getD "" = s.phone.clipboard

instance (s : State) : Decidable (Agree s) := inferInstanceAs (Decidable (_ = _))

/-- The text the PC has settled on once everything on its way has arrived. -/
def heading (s : State) : String := (s.toPc.getLast?.or s.core.clipboardLastSeen).getD ""

/-- The phone is about to get a text from the PC, or its monitor to report its own. -/
def Pending (s : State) : Prop :=
  s.toPhone ≠ [] ∨ (s.phone.clipboard ≠ "" ∧ some s.phone.clipboard ≠ s.phone.last)

instance (s : State) : Decidable (Pending s) := inferInstanceAs (Decidable (_ ∨ _))

/-- The phone accepts the text. -/
def Writable (text : String) : Prop := utf16Length text ≤ 16 * 1024 * 1024

instance (text : String) : Decidable (Writable text) := inferInstanceAs (Decidable (_ ≤ _))

/-- The step does not take a text that is needed for an echo. Each of the three
memories can: the poll drops a PC copy equal to the last text received, the PC drops
a phone copy equal to it, the monitor passes over a copy equal to its last report. -/
def Heard (s : State) : Action → Prop
  | .pcCopy text => Writable text
  | .phoneCopy text => Writable text ∧
      ((text ≠ "" ∧ some text ≠ s.phone.last) ∨ s.toPhone ≠ [] ∨ heading s = text)
  | .poll =>
      s.core.systemClipboard = s.core.lastReceivedFromPhone →
      s.core.systemClipboard ≠ s.core.clipboardLastSeen → s.core.systemClipboard ≠ none →
      Pending s ∨ s.toPc ≠ [] ∨ s.core.systemClipboard = some s.phone.clipboard
  | .deliverToPc =>
      s.toPc.length = 1 → s.toPc.head? = s.core.lastReceivedFromPhone →
      Pending s ∨ s.core.clipboardLastSeen.getD "" = s.phone.clipboard
  | .monitor | .deliverToPhone => True

instance (s : State) : (a : Action) → Decidable (Heard s a)
  | .pcCopy text => inferInstanceAs (Decidable (Writable text))
  | .phoneCopy _ => inferInstanceAs (Decidable (_ ∧ _))
  | .poll => inferInstanceAs (Decidable (_ → _))
  | .deliverToPc => inferInstanceAs (Decidable (_ → _))
  | .monitor | .deliverToPhone => .isTrue trivial

/-- Where nothing is pending, the PC is heading for the phone's text. -/
structure Converging (s : State) : Prop where
  joined : Pending s ∨ heading s = s.phone.clipboard
  unread : s.core.systemClipboard = none → s.core.clipboardLastSeen = none
  pcWritable : ∀ text ∈ s.core.systemClipboard, Writable text
  phoneWritable : Writable s.phone.clipboard
  toPhoneWritable : ∀ text ∈ s.toPhone, Writable text
  toPcWritable : ∀ text ∈ s.toPc, Writable text

theorem converging_init {pc : Option String} {phone : String} (hpc : ∀ text ∈ pc, Writable text)
    (hphone : Writable phone) : Converging (init pc phone) where
  joined := by
    by_cases h : phone = ""
    · exact Or.inr (by simp [heading, init, h])
    · exact Or.inl (Or.inr ⟨h, by simp [init]⟩)
  unread _ := rfl
  pcWritable := hpc
  phoneWritable := hphone
  toPhoneWritable := by simp [init]
  toPcWritable := by simp [init]

theorem Converging.agree {s : State} (h : Converging s) (quiet : Quiescent s) : Agree s := by
  obtain ⟨hphone, hpc, hpoll, hmonitor⟩ := quiet
  -- the monitor has nothing to report, so the PC has settled on the phone's text
  have settled : s.core.clipboardLastSeen.getD "" = s.phone.clipboard := by
    rcases h.joined with (hsend | hreport) | hheading
    · exact absurd hphone hsend
    · have := congrArg (fun s => s.phone.last) hmonitor
      simp only [Clipboard.step, Phone.monitor, if_pos hreport] at this
      exact absurd this hreport.2
    · simpa [heading, hpc] using hheading
  rcases hread : s.core.systemClipboard with _ | text
  · rw [Agree, hread, ← settled, h.unread hread]
  · have := congrArg (fun s => s.core.clipboardLastSeen) hpoll
    by_cases hseen : some text = s.core.clipboardLastSeen
    · rw [Agree, hread, hseen, settled]
    · simp [Clipboard.step, Core.pollSystemClipboard, hread, hseen] at this

/-- What the PC has settled on once one more text is on its way. -/
private theorem heading_append (s : State) (c : Core) (p : Phone) (out : List String)
    (text : String) : heading ⟨c, p, out, s.toPc ++ [text]⟩ = text := by
  simp [heading]

/-- While something is on its way to the PC, only that matters. -/
private theorem heading_of_ne_nil {toPc : List String} (h : toPc ≠ []) (c : Core) (p : Phone)
    (out : List String) {c' : Core} {p' : Phone} {out' : List String} :
    heading ⟨c', p', out', toPc⟩ = heading ⟨c, p, out, toPc⟩ := by
  simp [heading, List.getLast?_eq_some_getLast h]

theorem Converging.poll {s : State} (h : Converging s) (heard : Heard s .poll) :
    Converging (step s .poll) := by
  by_cases hidle : s.core.systemClipboard = none ∨
      s.core.systemClipboard = s.core.clipboardLastSeen
  · have hstep : Clipboard.step s .poll = s := by
      simp [Clipboard.step, Core.pollSystemClipboard_idle hidle]
    rwa [hstep]
  · push Not at hidle
    obtain ⟨text, hread⟩ := Option.ne_none_iff_exists'.mp hidle.1
    have hnew : some text ≠ s.core.clipboardLastSeen := hread ▸ hidle.2
    have hfits : Writable text := h.pcWritable text (by simp [hread])
    have hstep : Clipboard.step s .poll =
        ⟨{ s.core with clipboardLastSeen := some text }, s.phone, s.toPhone ++
          (if some text ≠ s.core.lastReceivedFromPhone then some text else none).toList,
          s.toPc⟩ := by
      simp only [Clipboard.step, Core.pollSystemClipboard_new hread hnew]
    rw [hstep]
    refine { h with
      joined := ?_
      unread := fun hnone => absurd (hread.symm.trans hnone) (by simp)
      toPhoneWritable := fun t ht => ?_ }
    · by_cases hecho : some text = s.core.lastReceivedFromPhone
      · -- the PC's own text is taken for an echo: it must be the phone's, or
        -- something else must still be on its way
        rw [if_neg (not_not.mpr hecho)]
        simp only [Option.toList_none, List.append_nil]
        by_cases hmore : s.toPc = []
        · rcases heard (hread.trans hecho) (hread ▸ hnew) (by simp [hread]) with
            hpend | hin | hsame
          · exact Or.inl hpend
          · exact absurd hmore hin
          · rw [hread, Option.some.injEq] at hsame
            exact Or.inr (by simp [heading, hmore, hsame])
        · exact h.joined.imp_right fun hheading => by
            rw [← hheading, heading_of_ne_nil hmore s.core s.phone s.toPhone]
      · rw [if_pos hecho]
        exact Or.inl (Or.inl (by simp))
    · rcases List.mem_append.mp ht with ht | ht
      · exact h.toPhoneWritable t ht
      · split at ht
        · rwa [List.mem_singleton.mp ht]
        · simp at ht

theorem Converging.monitor {s : State} (h : Converging s) : Converging (step s .monitor) := by
  by_cases hreport : s.phone.clipboard ≠ "" ∧ some s.phone.clipboard ≠ s.phone.last
  · have hstep : Clipboard.step s .monitor = ⟨s.core, ⟨s.phone.clipboard,
        some s.phone.clipboard⟩, s.toPhone, s.toPc ++ [s.phone.clipboard]⟩ := by
      simp [Clipboard.step, Phone.monitor, hreport]
    rw [hstep]
    refine { h with joined := Or.inr (heading_append s _ _ _ _), toPcWritable := ?_ }
    rw [List.forall_mem_append, List.forall_mem_singleton]
    exact ⟨h.toPcWritable, h.phoneWritable⟩
  · have hstep : Clipboard.step s .monitor = s := by
      simp [Clipboard.step, Phone.monitor, hreport]
    rwa [hstep]

theorem Converging.deliverToPhone {s : State} (h : Converging s) :
    Converging (step s .deliverToPhone) := by
  rcases hqueue : s.toPhone with _ | ⟨text, rest⟩
  · have hstep : Clipboard.step s .deliverToPhone = s := by simp [Clipboard.step, hqueue]
    rwa [hstep]
  · have hfits : Writable text := h.toPhoneWritable text (by simp [hqueue])
    have hstep : Clipboard.step s .deliverToPhone =
        ⟨s.core, ⟨text, s.phone.last⟩, rest, s.toPc ++ [text]⟩ := by
      simp [Clipboard.step, hqueue, Phone.setClipboard, Nat.not_lt.mpr hfits]
    rw [hstep]
    refine { h with
      joined := Or.inr (heading_append s _ _ _ _)
      phoneWritable := hfits
      toPhoneWritable := fun t ht => h.toPhoneWritable t (by simp [hqueue, ht])
      toPcWritable := ?_ }
    rw [List.forall_mem_append, List.forall_mem_singleton]
    exact ⟨h.toPcWritable, hfits⟩

theorem Converging.deliverToPc {s : State} (h : Converging s) (heard : Heard s .deliverToPc) :
    Converging (step s .deliverToPc) := by
  rcases hqueue : s.toPc with _ | ⟨text, rest⟩
  · have hstep : Clipboard.step s .deliverToPc = s := by simp [Clipboard.step, hqueue]
    rwa [hstep]
  · have hstep : Clipboard.step s .deliverToPc =
        ⟨s.core.onPhoneClipboard text, s.phone, s.toPhone, rest⟩ := by
      simp [Clipboard.step, hqueue]
    have hrest : ∀ t ∈ rest, Writable t := fun t ht => h.toPcWritable t (by simp [hqueue, ht])
    have hfits : Writable text := h.toPcWritable text (by simp [hqueue])
    -- with more behind it, the text does not decide where the PC is heading
    have later : ∀ c : Core, rest ≠ [] →
        Pending s ∨ heading ⟨c, s.phone, s.toPhone, rest⟩ = s.phone.clipboard := by
      intro c hmore
      refine h.joined.imp_right fun hheading => ?_
      rw [← hheading, heading, heading, hqueue, List.getLast?_cons]
      simp [List.getLast?_eq_some_getLast hmore]
    rw [hstep]
    by_cases hecho : some text = s.core.lastReceivedFromPhone ∨
        some text = s.core.clipboardLastSeen
    · have hkeep : s.core.onPhoneClipboard text = s.core := by
        unfold Core.onPhoneClipboard
        split_ifs <;> simp_all
      rw [hkeep]
      refine { h with joined := ?_, toPcWritable := hrest }
      by_cases hmore : rest = []
      · subst hmore
        rcases hecho with hecho | hecho
        · exact (heard (by simp [hqueue]) (by simp [hqueue, hecho])).imp_right fun hsame => by
            simpa [heading] using hsame
        · refine h.joined.imp_right fun hheading => ?_
          simpa [heading, hqueue, ← hecho] using hheading
      · exact later _ hmore
    · push Not at hecho
      have hset : s.core.onPhoneClipboard text = ⟨some text, some text, some text⟩ := by
        simp [Core.onPhoneClipboard, hecho]
      rw [hset]
      exact {
        joined := by
          by_cases hmore : rest = []
          · subst hmore
            refine h.joined.imp_right fun hheading => ?_
            simpa [heading, hqueue] using hheading
          · exact later _ hmore
        unread := fun hnone => by cases hnone
        pcWritable := fun t ht => by
          obtain rfl := Option.some.inj ht
          exact hfits
        phoneWritable := h.phoneWritable
        toPhoneWritable := h.toPhoneWritable
        toPcWritable := hrest }

theorem Converging.step {s : State} {a : Action} (h : Converging s) (heard : Heard s a) :
    Converging (step s a) := by
  cases a with
  | pcCopy text =>
      exact { h with
        unread := fun hnone => by cases hnone
        pcWritable := fun t ht => by
          obtain rfl := Option.some.inj ht
          exact heard }
  | phoneCopy text =>
      refine { h with joined := ?_, phoneWritable := heard.1 }
      rcases heard.2 with hreport | hsend | hheading
      · exact Or.inl (Or.inr hreport)
      · exact Or.inl (Or.inl hsend)
      · exact Or.inr hheading
  | poll => exact h.poll heard
  | monitor => exact h.monitor
  | deliverToPhone => exact h.deliverToPhone
  | deliverToPc => exact h.deliverToPc heard

/-- In a run in which no text is taken for an echo while the other side still needs it,
the clipboards agree whenever nothing is left to do. -/
theorem clipboards_converge {pc : Option String} {phone : String} {actions : List Action}
    (hpc : ∀ text ∈ pc, Writable text) (hphone : Writable phone)
    (heard : Run.Along step Heard (init pc phone) actions)
    (quiet : Quiescent (Run.run step (init pc phone) actions)) :
    Agree (Run.run step (init pc phone) actions) :=
  (Run.invariant (fun _ _ => Converging.step) (converging_init hpc hphone) heard).agree quiet

/-- A copy on the phone reaches the PC and a later copy on the PC reaches the phone. -/
theorem clipboards_converge_both_ways :
    let actions : List Action := [.phoneCopy "B", .monitor, .deliverToPc, .pcCopy "A", .poll,
      .deliverToPhone, .deliverToPc, .monitor, .deliverToPc]
    (Run.run step (init none "") actions).phone.clipboard = "A" ∧
      Agree (Run.run step (init none "") actions) :=
  ⟨by decide, clipboards_converge (by simp) (by decide) (by decide) (by decide)⟩

/-- The same run, after which the phone copies its earlier text once more: the PC takes the
report for an echo and keeps the other text for good. -/
theorem clipboards_diverge_on_recopy :
    let actions : List Action := [.phoneCopy "B", .monitor, .deliverToPc, .pcCopy "A", .poll,
      .deliverToPhone, .deliverToPc, .monitor, .deliverToPc, .phoneCopy "B", .monitor,
      .deliverToPc]
    Quiescent (Run.run step (init none "") actions) ∧
      (Run.run step (init none "") actions).core.systemClipboard = some "A" ∧
      (Run.run step (init none "") actions).phone.clipboard = "B" := by decide

end Kulua.Clipboard
