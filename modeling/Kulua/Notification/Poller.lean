import Kulua.Foundation.Run
import Kulua.Notification.Detail

/-! The thread that polls a device for notifications (`notification.rs`), with its outputs and
failures of `adb`, and which keys it comes to know without having read their notification. -/

namespace Kulua.Notification
open Foundation.Text Foundation.Run

/-- `parse_notification_list`: the set as the list of its keys. -/
def parseNotificationList (output : Str) : List Str :=
  ((lines output).filterMap fun line =>
    let line := trim line
    if line = [] then none else some line).dedup

def quoteEscape (key : Str) : Str :=
  key.flatMap fun c => if c.toNat = 0x27 then "'\\''".toList else [c]

/-- The key stands in quotes, so that the shell takes it as one word. -/
def shellCmd (key : Str) : Str :=
  "cmd notification get '".toList ++ quoteEscape key ++ "'".toList

def listArgs (serial : Str) : List Str :=
  ["-s".toList, serial, "shell".toList, "cmd".toList, "notification".toList, "list".toList]

def detailArgs (serial key : Str) : List Str :=
  ["-s".toList, serial, "shell".toList, shellCmd key]

theorem quoteEscape_injective : Function.Injective quoteEscape := by
  intro s
  have hcons : ∀ (c : Char) (s : Str), quoteEscape (c :: s) =
      (if c.toNat = 0x27 then "'\\''".toList else [c]) ++ quoteEscape s := fun _ _ => rfl
  have hne : ∀ (c : Char) (s : Str), quoteEscape (c :: s) ≠ [] := by
    intro c s h
    rw [hcons] at h
    split at h <;> simp at h
  induction s with
  | nil =>
    intro t h
    cases t with
    | nil => rfl
    | cons d t => exact absurd h.symm (hne d t)
  | cons c s ih =>
    intro t h
    cases t with
    | nil => exact absurd h (hne c s)
    | cons d t =>
      have htail : c = d ∧ quoteEscape s = quoteEscape t := by
        rw [hcons, hcons] at h
        by_cases hc : c.toNat = 0x27 <;> by_cases hd : d.toNat = 0x27
        · rw [if_pos hc, if_pos hd] at h
          exact ⟨Char.toNat_inj.mp (hc.trans hd.symm), List.append_cancel_left h⟩
        · rw [if_pos hc, if_neg hd] at h
          injection h with hfirst
          exact absurd (hfirst ▸ rfl) hd
        · rw [if_neg hc, if_pos hd] at h
          injection h with hfirst
          exact absurd (hfirst ▸ rfl) hc
        · rw [if_neg hc, if_neg hd] at h
          injection h with hfirst hrest
          exact ⟨hfirst, hrest⟩
      rw [htail.1, ih htail.2]

theorem shellCmd_injective : Function.Injective shellCmd := by
  intro key key' h
  unfold shellCmd at h
  rw [List.append_cancel_right_eq, List.append_cancel_left_eq] at h
  exact quoteEscape_injective h

/-- Two keys are asked for in two ways, so the outcomes for them do not depend on each other. -/
theorem detailArgs_injective (serial : Str) : Function.Injective (detailArgs serial) := by
  intro key key' h
  unfold detailArgs at h
  rw [List.cons.injEq, List.cons.injEq, List.cons.injEq, List.cons.injEq] at h
  exact shellCmd_injective h.2.2.2.1

/-- What one turn of the loop meets: the outcome of each run of `adb` (the output as text, none
if it fails), the order in which the set of new keys is gone through, and whether the channel
still takes a notification. -/
structure Poll where
  run : List Str → Option Str
  order : List Str → List Str
  perm : ∀ keys, (order keys).Perm keys
  accepts : NotifInfo → Bool

/-- The calls of `parse_notification_detail` with their outputs, and what is sent. -/
def fetchDetails (serial : Str) (poll : Poll) : List Str → List (Str × Str) × List NotifInfo
  | [] => ([], [])
  | key :: added =>
    match poll.run (detailArgs serial key) with
    | none => fetchDetails serial poll added
    | some output =>
      match parseNotificationDetail output key with
      | none => ((key, output) :: (fetchDetails serial poll added).1, (fetchDetails serial poll added).2)
      | some info =>
        if poll.accepts info then
          ((key, output) :: (fetchDetails serial poll added).1,
            info :: (fetchDetails serial poll added).2)
        else ([(key, output)], [])

structure Poller where
  oldKeys : List Str
  firstPoll : Bool
  notifTx : List NotifInfo
  /-- The keys of the first list, and all calls of `parse_notification_detail`; the loop reads
  neither. -/
  initial : List Str
  parsed : List (Str × Str)
  deriving DecidableEq, Repr

namespace Poller

def init : Poller := ⟨[], true, [], [], []⟩

/-- The listed keys that are not known yet, in the order in which they are gone through. -/
def added (s : Poller) (poll : Poll) (newKeys : List Str) : List Str :=
  poll.order (newKeys.filter (· ∉ s.oldKeys))

/-- One turn of the loop. -/
def turn (serial : Str) (s : Poller) (poll : Poll) : Poller :=
  match poll.run (listArgs serial) with
  | none => s
  | some stdout =>
    let newKeys := parseNotificationList stdout
    if s.firstPoll then { s with oldKeys := newKeys, firstPoll := false, initial := newKeys }
    else
      let fetched := fetchDetails serial poll (s.added poll newKeys)
      { s with
        oldKeys := newKeys
        notifTx := s.notifTx ++ fetched.2
        parsed := s.parsed ++ fetched.1 }

/-- The output of a successful call for the key has been parsed. -/
def Fetched (s : Poller) (key : Str) : Prop := ∃ output, (key, output) ∈ s.parsed

end Poller

/-- The channel does not take the notification of the key. -/
def Poll.Refuses (poll : Poll) (serial key : Str) : Prop :=
  ∃ output info, poll.run (detailArgs serial key) = some output ∧
    parseNotificationDetail output key = some info ∧ poll.accepts info = false

/-- The keys that are gone through before the loop is left. -/
def Poll.Asks (poll : Poll) (serial : Str) (added : List Str) (key : Str) : Prop :=
  ∃ before after, added = before ++ key :: after ∧ ∀ k ∈ before, ¬poll.Refuses serial k

theorem asks_nil {poll : Poll} {serial k : Str} : ¬poll.Asks serial [] k := by
  rintro ⟨before, after, hsplit, -⟩
  simp at hsplit

theorem asks_cons {poll : Poll} {serial key : Str} {added : List Str} {k : Str} :
    poll.Asks serial (key :: added) k ↔
      k = key ∨ ¬poll.Refuses serial key ∧ poll.Asks serial added k := by
  constructor
  · rintro ⟨before, after, hsplit, hbefore⟩
    cases before with
    | nil =>
      injection hsplit with hkey
      exact .inl hkey.symm
    | cons b before =>
      injection hsplit with hkey hadded
      subst hkey
      exact .inr ⟨hbefore key (List.mem_cons_self ..), before, after, hadded,
        fun k hk => hbefore k (List.mem_cons_of_mem _ hk)⟩
  · rintro (rfl | ⟨hkey, before, after, rfl, hbefore⟩)
    · exact ⟨[], added, rfl, by simp⟩
    · refine ⟨key :: before, after, rfl, fun b hb => ?_⟩
      rcases List.mem_cons.mp hb with rfl | hb
      · exact hkey
      · exact hbefore b hb

/-- Each successful call is parsed, and a notification that is refused ends the loop. -/
theorem fetchDetails_refused {serial : Str} {poll : Poll} {key : Str}
    (h : poll.Refuses serial key) (added : List Str) :
    (fetchDetails serial poll (key :: added)).1 =
      (poll.run (detailArgs serial key)).toList.map (key, ·) := by
  obtain ⟨output, info, hrun, hparse, haccepts⟩ := h
  simp [fetchDetails, hrun, hparse, haccepts]

theorem fetchDetails_open {serial : Str} {poll : Poll} {key : Str}
    (h : ¬poll.Refuses serial key) (added : List Str) :
    (fetchDetails serial poll (key :: added)).1 =
      (poll.run (detailArgs serial key)).toList.map (key, ·) ++
        (fetchDetails serial poll added).1 := by
  rw [fetchDetails]
  cases hrun : poll.run (detailArgs serial key) with
  | none => rfl
  | some output =>
    dsimp only
    cases hparse : parseNotificationDetail output key with
    | none => rfl
    | some info =>
      have haccepts : poll.accepts info = true := by
        by_contra hrefused
        exact h ⟨output, info, hrun, hparse, Bool.eq_false_iff.mpr hrefused⟩
      dsimp only
      rw [if_pos haccepts]
      rfl

/-- What is parsed are the outputs of the successful calls for the keys gone through. -/
theorem mem_fetchDetails {serial : Str} {poll : Poll} {added : List Str} {key output : Str} :
    (key, output) ∈ (fetchDetails serial poll added).1 ↔
      poll.Asks serial added key ∧ poll.run (detailArgs serial key) = some output := by
  induction added with
  | nil => simp [fetchDetails, asks_nil]
  | cons k added ih =>
    have hhere : (key, output) ∈ (poll.run (detailArgs serial k)).toList.map (k, ·) ↔
        key = k ∧ poll.run (detailArgs serial key) = some output := by
      simp only [List.mem_map, Option.mem_toList, Prod.mk.injEq]
      constructor
      · rintro ⟨out, hrun, rfl, rfl⟩
        exact ⟨rfl, hrun⟩
      · rintro ⟨rfl, hrun⟩
        exact ⟨output, hrun, rfl, rfl⟩
    rw [asks_cons]
    by_cases hrefuses : poll.Refuses serial k
    · rw [fetchDetails_refused hrefuses, hhere]
      simp [hrefuses]
    · rw [fetchDetails_open hrefuses, List.mem_append, hhere, ih, or_and_right]
      simp [hrefuses]

namespace Poller

variable {serial : Str} {s : Poller} {poll : Poll}

theorem turn_failed (h : poll.run (listArgs serial) = none) : s.turn serial poll = s := by
  simp [turn, h]

/-- What a turn that lists the keys does once the first list is there. -/
theorem turn_listed {stdout : Str} (h : poll.run (listArgs serial) = some stdout)
    (hfirst : s.firstPoll = false) :
    (s.turn serial poll).oldKeys = parseNotificationList stdout ∧
      (s.turn serial poll).initial = s.initial ∧ (s.turn serial poll).firstPoll = false ∧
      ∀ key, (s.turn serial poll).Fetched key ↔ s.Fetched key ∨
        poll.Asks serial (s.added poll (parseNotificationList stdout)) key ∧
          (poll.run (detailArgs serial key)).isSome := by
  simp only [turn, h, hfirst, Bool.false_eq_true, if_false, Fetched, List.mem_append,
    mem_fetchDetails, true_and]
  intro key
  rw [exists_or, exists_and_left, Option.isSome_iff_exists]

theorem mem_added {newKeys : List Str} {key : Str} :
    key ∈ s.added poll newKeys ↔ key ∈ newKeys ∧ key ∉ s.oldKeys := by
  rw [added, (poll.perm _).mem_iff, List.mem_filter, decide_eq_true_eq]

/-- What a turn must not lose: where no call fails, each listed key that the first list did not
have has been fetched, and no key becomes known that has not. -/
structure Lossless (serial : Str) (s : Poller) (poll : Poll) : Prop where
  complete : s.firstPoll = false → ∀ stdout, poll.run (listArgs serial) = some stdout →
    (∀ key, poll.Asks serial (s.added poll (parseNotificationList stdout)) key →
      (poll.run (detailArgs serial key)).isSome) →
    ∀ key ∈ parseNotificationList stdout, key ∉ s.initial → (s.turn serial poll).Fetched key
  joined : s.firstPoll = false → ∀ key ∈ (s.turn serial poll).oldKeys, key ∉ s.oldKeys →
    (s.turn serial poll).Fetched key

/-- Each new key that has not been fetched before is gone through, and its call succeeds. -/
def Served (serial : Str) (s : Poller) (poll : Poll) : Prop :=
  s.firstPoll = false → ∀ stdout, poll.run (listArgs serial) = some stdout →
    ∀ key ∈ s.added poll (parseNotificationList stdout), s.Fetched key ∨
      poll.Asks serial (s.added poll (parseNotificationList stdout)) key ∧
        (poll.run (detailArgs serial key)).isSome

/-- Each known key was in the first list, or has been fetched. -/
def Accounted (s : Poller) : Prop := ∀ key ∈ s.oldKeys, key ∈ s.initial ∨ s.Fetched key

theorem accounted_turn (h : s.Accounted) (served : Served serial s poll) :
    (s.turn serial poll).Accounted := by
  cases hlist : poll.run (listArgs serial) with
  | none => rwa [turn_failed hlist]
  | some stdout =>
    cases hfirst : s.firstPoll with
    | true =>
      intro key hkey
      simp only [turn, hlist, hfirst, if_true] at hkey ⊢
      exact .inl hkey
    | false =>
      obtain ⟨hkeys, hinitial, -, hfetched⟩ := turn_listed hlist hfirst
      intro key hkey
      rw [hkeys] at hkey
      rw [hinitial, hfetched]
      by_cases hold : key ∈ s.oldKeys
      · exact (h key hold).imp_right .inl
      · exact .inr (served hfirst stdout hlist key (mem_added.mpr ⟨hkey, hold⟩))

theorem lossless_iff_served (h : s.Accounted) :
    Lossless serial s poll ↔ Served serial s poll := by
  constructor
  · intro lossless hfirst stdout hlist key hkey
    obtain ⟨hkeys, -, -, hfetched⟩ := turn_listed hlist hfirst
    obtain ⟨hlisted, hnew⟩ := mem_added.mp hkey
    exact (hfetched key).mp (lossless.joined hfirst key (hkeys ▸ hlisted) hnew)
  · intro served
    have hafter := accounted_turn h served
    refine ⟨fun hfirst stdout hlist _ key hkey hinit => ?_, fun hfirst key hkey hnew => ?_⟩
    · obtain ⟨hkeys, hinitial, -, -⟩ := turn_listed hlist hfirst
      refine (hafter key (hkeys ▸ hkey)).resolve_left ?_
      rwa [hinitial]
    · cases hlist : poll.run (listArgs serial) with
      | none =>
        rw [turn_failed hlist] at hkey
        exact absurd hkey hnew
      | some stdout =>
        obtain ⟨hkeys, -, -, hfetched⟩ := turn_listed hlist hfirst
        rw [hkeys] at hkey
        exact (hfetched key).mpr (served hfirst stdout hlist key (mem_added.mpr ⟨hkey, hnew⟩))

/-- A run loses no notification where each new key is gone through with a call that succeeds,
and only there: a key whose call failed is known from then on. -/
theorem notifications_lossless_iff (serial : Str) (polls : List Poll) :
    Along (turn serial) (Lossless serial) init polls ↔ Along (turn serial) (Served serial) init polls :=
  along_iff_of_kept (fun _ _ => accounted_turn) (fun _ _ => lossless_iff_served)
    (fun _ hkey => by cases hkey) polls

/-- A turn in which the list is `stdout`, and each call for a notification fails or succeeds. -/
def samplePoll (stdout : Str) (detail : Option Str) : Poll where
  run args := if args = listArgs "s".toList then some stdout else detail
  order keys := keys
  perm _ := .refl _
  accepts _ := true

/-- The call for a new key fails once; the key is known then, and is never asked for again. -/
theorem failed_detail_lost :
    ¬∀ serial polls, Along (turn serial) (Lossless serial) init polls := by
  intro h
  have hlossless := (h "s".toList [samplePoll [] none, samplePoll "k\n".toList none,
    samplePoll "k\n".toList (some "pkg=p\n".toList)]).2.2.1
  obtain ⟨output, hparsed⟩ := hlossless.complete rfl "k\n".toList rfl
    (fun key hasks => absurd hasks asks_nil) "k".toList (by decide) (by decide)
  have hnone : (((init.turn "s".toList (samplePoll [] none)).turn "s".toList
      (samplePoll "k\n".toList none)).turn "s".toList
      (samplePoll "k\n".toList (some "pkg=p\n".toList))).parsed = [] := by decide
  rw [hnone] at hparsed
  cases hparsed

end Poller

end Kulua.Notification
