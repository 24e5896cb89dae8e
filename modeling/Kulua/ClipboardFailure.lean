import Kulua.Clipboard

/-! A phone's text that the PC fails to write to its clipboard. `on_phone_clipboard` keeps it
as received and as seen all the same, and the polls compare these with what the clipboard
holds. -/

namespace Kulua.Clipboard

namespace Core

/-- `on_phone_clipboard`, where `set_text` succeeds or fails. -/
def takePhoneClipboard (c : Core) (written : Bool) (text : String) : Core :=
  if some text = c.lastReceivedFromPhone then c
  else if some text = c.clipboardLastSeen then c
  else
    { lastReceivedFromPhone := some text
      systemClipboard := if written then some text else c.systemClipboard
      clipboardLastSeen := some text }

theorem takePhoneClipboard_written (c : Core) (text : String) :
    c.takePhoneClipboard true text = c.onPhoneClipboard text := rfl

/-- `set_text` is called for the text. -/
def Writes (c : Core) (text : String) : Prop :=
  some text ≠ c.lastReceivedFromPhone ∧ some text ≠ c.clipboardLastSeen

instance (c : Core) (text : String) : Decidable (c.Writes text) :=
  inferInstanceAs (Decidable (_ ∧ _))

theorem takePhoneClipboard_failed {c : Core} {text : String} (h : c.Writes text) :
    c.takePhoneClipboard false text = ⟨c.systemClipboard, some text, some text⟩ := by
  rw [takePhoneClipboard, if_neg h.1, if_neg h.2]
  rfl

/-- `poll_system_clipboard`, where `get_text` succeeds or fails on a clipboard with a text. -/
def pollClipboard (c : Core) (readable : Bool) : Core × Option String :=
  if readable then c.pollSystemClipboard else (c, none)

/-- What polls one after the other broadcast. -/
def broadcasts (c : Core) : List Bool → List String
  | [] => []
  | readable :: polls =>
    (c.pollClipboard readable).2.toList ++ broadcasts (c.pollClipboard readable).1 polls

theorem broadcasts_idle {c : Core}
    (h : c.systemClipboard = none ∨ c.systemClipboard = c.clipboardLastSeen) (polls : List Bool) :
    c.broadcasts polls = [] := by
  induction polls with
  | nil => rfl
  | cons readable polls ih =>
    have hpoll : c.pollClipboard readable = (c, none) := by
      unfold pollClipboard
      split
      · exact pollSystemClipboard_idle h
      · rfl
    rw [broadcasts, hpoll, ih]
    rfl

/-- A text that is neither the last one seen nor the last one received is broadcast once. -/
theorem broadcasts_new {c : Core} {held : String} (hread : c.systemClipboard = some held)
    (hseen : some held ≠ c.clipboardLastSeen) (hreceived : some held ≠ c.lastReceivedFromPhone)
    (polls : List Bool) : c.broadcasts polls = if true ∈ polls then [held] else [] := by
  induction polls with
  | nil => rfl
  | cons readable polls ih =>
    cases readable with
    | false => simpa [broadcasts, pollClipboard] using ih
    | true =>
      have hrest := broadcasts_idle (c := { c with clipboardLastSeen := some held })
        (Or.inr hread) polls
      simp [broadcasts, pollClipboard, pollSystemClipboard_new hread hseen, hreceived, hrest]

/-- After a failed write the polls broadcast what the clipboard still holds, unless that is
the phone's text. -/
theorem broadcasts_failed {c : Core} {text : String} (h : c.Writes text) (polls : List Bool) :
    (c.takePhoneClipboard false text).broadcasts polls =
      if true ∈ polls then (c.systemClipboard.filter (· ≠ text)).toList else [] := by
  rw [takePhoneClipboard_failed h]
  rcases hread : c.systemClipboard with _ | held
  · rw [broadcasts_idle (Or.inl rfl)]
    simp
  · by_cases hsame : held = text
    · rw [broadcasts_idle (Or.inr (by rw [hsame]))]
      simp [hsame]
    · have hne : some held ≠ some text := by simpa using hsame
      rw [broadcasts_new rfl hne hne]
      simp [Option.filter, hsame]

end Core

/-- After a failed write the polls broadcast nothing exactly when the clipboard holds no other
text than the phone's, or none of them can read it. -/
theorem failed_write_silent_iff {c : Core} {text : String} (h : c.Writes text)
    (polls : List Bool) :
    (c.takePhoneClipboard false text).broadcasts polls = [] ↔
      (∀ held ∈ c.systemClipboard, held = text) ∨ true ∉ polls := by
  rw [Core.broadcasts_failed h]
  by_cases hpolls : true ∈ polls
  · rcases c.systemClipboard with _ | held <;> simp [hpolls, Option.filter]
  · simp [hpolls]

/-- The clipboard holds nothing yet. -/
theorem failed_write_silent_empty :
    ((⟨none, none, none⟩ : Core).takePhoneClipboard false "new").broadcasts [true, true] = [] :=
  (failed_write_silent_iff (by decide) _).mpr (by decide)

/-- The PC had shared its text; the phone copies a newer one, which the PC fails to write, and
gets the old one back. -/
theorem failed_write_pushes_stale :
    let c := (⟨some "old", none, none⟩ : Core).pollSystemClipboard.1
    c.Writes "new" ∧ (c.takePhoneClipboard false "new").broadcasts [true] = ["old"] ∧
      (Phone.setClipboard ⟨"new", some "new"⟩ "old").1.clipboard = "old" := by
  decide

end Kulua.Clipboard
