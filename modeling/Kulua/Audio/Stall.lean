import Kulua.Audio.Timeline

/-! When a link is shown as on, and when a stall is reported: exactly what an observer who sees
the frame count, the issues and the state may expect of them, and how often the link tries to
heal a stall. -/

namespace Kulua.Audio
open Foundation

/-- A link with what an observer of its run notes down. -/
structure Observed where
  link : Link
  now : Nat
  /-- The last `progress.frames`. -/
  frames : Nat
  /-- When `progress.frames` changed last. -/
  framesAt : Option Nat
  /-- When the current revision was issued; that of the start comes with the link. -/
  issuedAt : Nat
  /-- Since when `runtime.state` is ON. -/
  onSince : Option Nat
  /-- The issues with `Reason::Stall` so far. -/
  heals : Nat
  deriving DecidableEq, Repr

namespace Observed

def start (link : Link) (now : Nat) : Observed where
  link := link
  now := now
  frames := link.lastFrames
  framesAt := none
  issuedAt := now
  onSince := if link.runtime.state = .on then some now else none
  heals := 0

def step (w : Observed) (op : LinkOp) : Observed where
  link := (w.link.act op).1
  now := op.time
  frames := op.frames?.getD w.frames
  framesAt := if op.frames?.getD w.frames = w.frames then w.framesAt else some op.time
  issuedAt := if (w.link.act op).2 = none then w.issuedAt else op.time
  onSince := if (w.link.act op).1.runtime.state = .on then some (w.onSince.getD op.time) else none
  heals := w.heals + if (w.link.act op).2.map Issue.reason = some .stall then 1 else 0

/-- Times do not decrease. -/
def InOrder (w : Observed) (op : LinkOp) : Prop := w.now ≤ op.time

instance (w : Observed) (op : LinkOp) : Decidable (w.InOrder op) :=
  inferInstanceAs (Decidable (_ ≤ _))

/-- The fields of the link say what the observer has noted. -/
structure Noted (w : Observed) : Prop where
  frames : w.link.lastFrames = w.frames
  framesAt : ∀ t ∈ w.framesAt, t ≤ w.now
  issuedAt : w.issuedAt ≤ w.now
  progress : w.link.lastProgress = max w.issuedAt (w.framesAt.getD 0)
  on : w.link.runtime.state = .on ↔ w.onSince ≠ none

variable {w : Observed} {op : LinkOp}

theorem noted_init (target : AudioTarget) (t₀ : Nat) : (start (Link.init target t₀) t₀).Noted where
  frames := rfl
  framesAt := by simp [start]
  issuedAt := le_rfl
  progress := by simp [start, Link.init]
  on := by cases h : target.enabled <;> simp [start, Link.init, h]

theorem Noted.step (h : w.Noted) (ordered : w.InOrder op) : (w.step op).Noted := by
  obtain ⟨hframes, hprogress⟩ := Link.act_progress w.link op
  rw [h.frames] at hframes hprogress
  have hnow : w.now ≤ op.time := ordered
  have hissuedAt := h.issuedAt
  have hframesAt : w.framesAt.getD 0 ≤ w.now := by
    cases hat : w.framesAt with
    | none => exact Nat.zero_le _
    | some t => exact h.framesAt t hat
  refine ⟨hframes, fun t ht => ?_, ?_, hprogress.trans ?_, ?_⟩
  · simp only [Observed.step] at ht ⊢
    split at ht
    · exact (h.framesAt t ht).trans hnow
    · cases ht
      exact le_rfl
  · simp only [Observed.step]
    split
    · exact hissuedAt.trans hnow
    · exact le_rfl
  · simp only [Observed.step, h.progress]
    by_cases hsame : op.frames?.getD w.frames = w.frames <;>
      by_cases hnone : (w.link.act op).2 = none <;>
      simp only [hsame, hnone, and_self, and_true, and_false, if_true, if_false,
        Option.getD_some] <;> omega
  · simp only [Observed.step]
    split <;> simp [*]

/-- A sign of life of the link. -/
theorem recent_iff (h : w.Noted) (now : Nat) :
    ((∃ t ∈ w.framesAt, now < t + stallTimeout) ∨ now < w.issuedAt + stallTimeout) ↔
      now < w.link.lastProgress + stallTimeout := by
  rw [h.progress]
  cases hat : w.framesAt with
  | none => simp
  | some t =>
    simp only [Option.mem_some_iff, exists_eq_left', Option.getD_some]
    omega

/-- The state is ON only while frames have come, or the revision was issued, less than the
timeout ago. -/
def NoSilentOn (w : Observed) : LinkOp → Prop
  | .drive now target frames =>
    let w' := w.step (.drive now target frames)
    w'.link.plan.enabled = true → w'.link.runtime.state = .on →
      (∃ t ∈ w'.framesAt, now < t + stallTimeout) ∨ now < w'.issuedAt + stallTimeout
  | _ => True

instance (w : Observed) (op : LinkOp) : Decidable (w.NoSilentOn op) := by
  unfold NoSilentOn
  split <;> infer_instance

/-- Where a receipt has set ON while the flag of a stall was set, a drive comes in time, or finds
something to do. -/
def Unmasked (w : Observed) : LinkOp → Prop
  | .drive now target frames =>
    w.link.plan.enabled = true → w.link.runtime.state = .on → w.link.stalled ≠ none →
      frames = w.frames → target = w.link.applied → w.link.Waits now →
        now < w.link.lastProgress + stallTimeout
  | _ => True

theorem noSilentOn_iff (h : w.Noted) (ordered : w.InOrder op) : w.NoSilentOn op ↔ w.Unmasked op := by
  cases op with
  | drive now target frames =>
    have h' := h.step ordered
    simp only [NoSilentOn, recent_iff h', Unmasked, ← h.frames]
    rw [← and_imp]
    simp only [step, Link.drive_on]
    by_cases hidle : target = w.link.applied ∧ w.link.Waits now
    swap
    · simp_all
    have hnone : (w.link.act (.drive now target frames)).2 = none := by
      have hwaits : (w.link.noteProgress now frames).1.Waits now := by
        simpa [Link.Waits] using hidle.2
      rw [Link.act_drive, Link.decide_waits _ (by simpa using hidle.1) hwaits]
    obtain ⟨-, hprogress⟩ := Link.act_progress w.link (.drive now target frames)
    simp only [hnone, LinkOp.frames?, LinkOp.time, Option.getD_some, and_true] at hprogress
    rw [hprogress]
    simp only [hidle, and_self, true_and, true_implies, and_imp]
    refine forall_congr' fun henabled => ?_
    by_cases hsame : frames = w.link.lastFrames
    · simp only [hsame, if_true, true_implies, and_imp]
      refine forall_congr' fun hon => ?_
      -- without the flag, the drive finds the stall
      by_cases hflag : w.link.stalled = none
      · simp [Link.Stalls, henabled, hon, hflag]
        omega
      · simp [Link.Stalls, hflag]
    · have hnow : now < now + stallTimeout := by simp [stallTimeout, second]
      simp [hsame, hnow]
  | onState now revision enabled codecId error => exact Iff.rfl
  | pollStallRetry now => exact Iff.rfl

/-- While times do not decrease, no link is on in silence if and only if no drive finds one that
a receipt has set ON behind the flag of a stall. -/
theorem no_silent_on_iff {target : AudioTarget} {t₀ : Nat} {ops : List LinkOp}
    (ordered : Run.Along step InOrder (start (Link.init target t₀) t₀) ops) :
    Run.Along step NoSilentOn (start (Link.init target t₀) t₀) ops ↔
      Run.Along step Unmasked (start (Link.init target t₀) t₀) ops :=
  Run.along_iff_of_along (I := Noted) (fun _ _ h ordered => h.step ordered)
    (fun _ _ h ordered => noSilentOn_iff h ordered) (noted_init target t₀) ordered

/-- A stall is flagged, and the phone reports once more that the capture is ready. -/
def readyAgain : List LinkOp :=
  [.onState 0 0 true 0x00616163 "", .drive 3000000000 ⟨true, 2⟩ 0,
    .onState 4000000000 0 true 0x00616163 "", .drive 60000000000 ⟨true, 2⟩ 0]

theorem ordered_readyAgain : Run.Along step InOrder (start (Link.init ⟨true, 2⟩ 0) 0) readyAgain := by
  decide

/-- The link is shown as on a minute after its last sign of life. -/
theorem no_silent_on_ready_again :
    ¬Run.Along step NoSilentOn (start (Link.init ⟨true, 2⟩ 0) 0) readyAgain := by
  decide

theorem no_silent_on_iff_ready_again :
    Run.Along step NoSilentOn (start (Link.init ⟨true, 2⟩ 0) 0) readyAgain ↔
      Run.Along step Unmasked (start (Link.init ⟨true, 2⟩ 0) 0) readyAgain :=
  no_silent_on_iff ordered_readyAgain

/-- A stall is reported only after the timeout in ON without a new frame. -/
def NoFalseStall (w : Observed) : LinkOp → Prop
  | .drive now target frames =>
    (w.link.drive now target frames).2.stalled = true →
      (∃ t ∈ w.onSince, t + stallTimeout ≤ now) ∧ frames = w.frames ∧
        ∀ t ∈ w.framesAt, t + stallTimeout ≤ now
  | _ => True

instance (w : Observed) (op : LinkOp) : Decidable (w.NoFalseStall op) := by
  unfold NoFalseStall
  split <;> infer_instance

/-- A drive that comes soon after the state became ON comes soon after the last progress, too, or
finds a new frame, the audio off or the flag set. -/
def FreshlyOn (w : Observed) : LinkOp → Prop
  | .drive now _ frames =>
    ∀ t ∈ w.onSince, now < t + stallTimeout → w.link.plan.enabled = true → w.link.stalled = none →
      frames = w.frames → now < w.link.lastProgress + stallTimeout
  | _ => True

theorem noFalseStall_iff (h : w.Noted) : w.NoFalseStall op ↔ w.FreshlyOn op := by
  cases op with
  | drive now target frames =>
    simp only [NoFalseStall, FreshlyOn, Link.drive_stalled, Link.Stalls, h.frames]
    have hframes : ∀ t ∈ w.framesAt, t ≤ w.link.lastProgress := by
      intro t ht
      rw [h.progress, Option.mem_def.mp ht]
      exact le_max_right _ _
    have hpos : 0 < stallTimeout := by simp [stallTimeout, second]
    rcases hon : w.onSince with _ | since
    · have hoff : w.link.runtime.state ≠ .on := by simp [h.on, hon]
      simp [hoff]
    · have hon' : w.link.runtime.state = .on := by simp [h.on, hon]
      simp only [Option.mem_some_iff, exists_eq_left', forall_eq', hon', true_and]
      constructor
      · intro hsound hsoon henabled hflag hsame
        by_contra hlate
        have := (hsound ⟨hsame, henabled, by omega, hflag⟩).1
        omega
      · rintro hfresh ⟨hsame, henabled, hlate, hflag⟩
        refine ⟨?_, hsame, fun t ht => ?_⟩
        · by_contra hsoon
          have := hfresh (not_le.mp hsoon) henabled hflag hsame
          omega
        · have := hframes t ht
          omega
  | onState now revision enabled codecId error => exact Iff.rfl
  | pollStallRetry now => exact Iff.rfl

/-- While times do not decrease, no stall is reported too early if and only if no drive comes soon
after ON but long after the last progress. -/
theorem no_false_stall_iff {target : AudioTarget} {t₀ : Nat} {ops : List LinkOp}
    (ordered : Run.Along step InOrder (start (Link.init target t₀) t₀) ops) :
    Run.Along step NoFalseStall (start (Link.init target t₀) t₀) ops ↔
      Run.Along step FreshlyOn (start (Link.init target t₀) t₀) ops :=
  Run.along_iff_of_along (I := Noted) (fun _ _ h ordered => h.step ordered)
    (fun _ _ h _ => noFalseStall_iff h) (noted_init target t₀) ordered

/-- The deployment takes five seconds; the capture is ready, and the first drive comes. -/
def slowDeployment : List LinkOp :=
  [.onState 5000000000 0 true 0x00616163 "", .drive 5250000000 ⟨true, 2⟩ 0]

theorem ordered_slowDeployment :
    Run.Along step InOrder (start (Link.init ⟨true, 2⟩ 0) 0) slowDeployment := by decide

/-- A stall is reported a quarter of a second after the receipt. -/
theorem no_false_stall_slow_deployment :
    ¬Run.Along step NoFalseStall (start (Link.init ⟨true, 2⟩ 0) 0) slowDeployment := by
  decide

theorem no_false_stall_iff_slow_deployment :
    Run.Along step NoFalseStall (start (Link.init ⟨true, 2⟩ 0) 0) slowDeployment ↔
      Run.Along step FreshlyOn (start (Link.init ⟨true, 2⟩ 0) 0) slowDeployment :=
  no_false_stall_iff ordered_slowDeployment

/-- The target and the frame count do not change. -/
def Steady (target : AudioTarget) (frames : Nat) : LinkOp → Prop
  | .drive _ target' frames' => target' = target ∧ frames' = frames
  | _ => True

instance (target : AudioTarget) (frames : Nat) : DecidablePred (Steady target frames) := by
  intro op
  unfold Steady
  split <;> infer_instance

/-- No retry for want of a receipt is made while stall retries are being counted: it would start
the count again. -/
def CountKept (w : Observed) : LinkOp → Prop
  | .drive now _ _ => w.link.Retries now → ∀ p ∈ w.link.stalled, p.1 = 0
  | _ => True

instance (w : Observed) (op : LinkOp) : Decidable (w.CountKept op) := by
  unfold CountKept
  split <;> infer_instance

/-- The count of the flag has every stall retry, once target and frame count are what the link
knows of them; there are none without the flag. -/
def Counted (target : AudioTarget) (frames : Nat) (w : Observed) : Prop :=
  w.link.stalled = none ∧ w.heals = 0 ∨
    w.link.applied = target ∧ w.link.lastFrames = frames ∧
      ∃ count since, w.link.stalled = some (count, since) ∧ w.heals ≤ count ∧ w.heals ≤ maxRetries

theorem Counted.noteProgress {target : AudioTarget} {frames : Nat} (h : Counted target frames w)
    (now : Nat) :
    (w.link.noteProgress now frames).1.stalled = none ∧ w.heals = 0 ∨
      ∃ count since, (w.link.noteProgress now frames).1.stalled = some (count, since) ∧
        w.heals ≤ count ∧ w.heals ≤ maxRetries ∧
        (count = 0 ∨ w.link.applied = target ∧ w.link.stalled = some (count, since)) := by
  rw [Link.noteProgress_stalled]
  obtain ⟨hnone, hheals⟩ | ⟨htarget, rfl, count, since, hsome, hle, hmax⟩ := h
  · rw [hnone]
    split_ifs
    · exact .inr ⟨0, now, rfl, hheals.le, by omega, .inl rfl⟩
    · exact .inl ⟨rfl, hheals⟩
    · exact .inl ⟨rfl, hheals⟩
  · have hstalls : ¬w.link.Stalls now w.link.lastFrames := by simp [Link.Stalls, hsome]
    rw [if_pos rfl, if_neg hstalls]
    exact .inr ⟨count, since, hsome, hle, hmax, .inr ⟨htarget, hsome⟩⟩

theorem Counted.drive {target : AudioTarget} {frames now : Nat} (h : Counted target frames w)
    (kept : w.CountKept (.drive now target frames)) :
    Counted target frames (w.step (.drive now target frames)) := by
  have hnote := h.noteProgress now
  obtain ⟨htarget, heq⟩ | ⟨htarget, -, heq⟩ | ⟨htarget, tried, at_, error, -, -, -, heq⟩ |
      ⟨htarget, tried, at_, hpending, hdue, hlast, heq⟩ :=
    (w.link.noteProgress now frames).1.decide_cases now target <;>
    rw [Link.noteProgress_applied] at htarget
  · -- a new target starts the count again, but there is nothing to count yet
    have hheals : w.heals = 0 := by
      obtain ⟨-, hzero⟩ | ⟨count, since, -, hle, -, hcount⟩ := hnote
      · exact hzero
      · have := hcount.resolve_right fun hsame => htarget hsame.1.symm
        omega
    left
    simp [Observed.step, heq, Link.issue_stalled, hheals]
  · have hsame : (w.step (.drive now target frames)).link = (w.link.noteProgress now frames).1 ∧
        (w.step (.drive now target frames)).heals = w.heals := by
      simp [Observed.step, heq]
    rw [Counted, hsame.1, hsame.2]
    refine hnote.imp_right ?_
    rintro ⟨count, since, hsome, hle, hmax, -⟩
    exact ⟨by simpa using htarget.symm, by simp, count, since, hsome, hle, hmax⟩
  · have hsame : (w.step (.drive now target frames)).link =
          { (w.link.noteProgress now frames).1 with pending := none }.setState .failed (some error) ∧
        (w.step (.drive now target frames)).heals = w.heals := by
      simp [Observed.step, heq]
    rw [Counted, hsame.1, hsame.2]
    refine hnote.imp_right ?_
    rintro ⟨count, since, hsome, hle, hmax, -⟩
    exact ⟨by simpa using htarget.symm, by simp, count, since, hsome, hle, hmax⟩
  · have hretries : w.link.Retries now := by
      exact ⟨(tried, at_), by simpa using hpending, hdue, hlast⟩
    have hheals : w.heals = 0 := by
      obtain ⟨-, hzero⟩ | ⟨count, since, -, hle, -, hcount⟩ := hnote
      · exact hzero
      · obtain rfl : count = 0 := hcount.elim id fun hsame => kept hretries _ hsame.2
        omega
    left
    simp [Observed.step, heq, Link.issue_stalled, hheals]

theorem Counted.step {target : AudioTarget} {frames : Nat} (h : Counted target frames w)
    (steady : Steady target frames op) (kept : w.CountKept op) :
    Counted target frames (w.step op) := by
  cases op with
  | drive now target' frames' =>
    obtain ⟨rfl, rfl⟩ := steady
    exact h.drive kept
  | onState now revision enabled codecId error =>
    simpa [Counted, Observed.step, Link.act] using h
  | pollStallRetry now =>
    obtain ⟨-, heq⟩ | ⟨⟨p, hp, hlt, -⟩, heq⟩ := w.link.pollStallRetry_cases now
    · simpa [Counted, Observed.step, heq] using h
    · obtain ⟨hnone, -⟩ | ⟨htarget, hframes, count, since, hsome, hle, -⟩ := h
      · simp [hnone] at hp
      · obtain rfl : p = (count, since) := Option.mem_unique hp hsome
        refine .inr ⟨?_, ?_, count + 1, now, ?_, ?_, ?_⟩
        · simpa [Observed.step, heq] using htarget
        · simpa [Observed.step, heq] using hframes
        · simp [Observed.step, heq, Link.issue_stalled, hsome]
        · simpa [Observed.step, heq] using hle
        · have : count < maxRetries := hlt
          simp [Observed.step, heq]
          omega

/-- While target and frame count stay, the link tries to heal a stall three times at most if no
retry for want of a receipt falls between these. -/
theorem bounded_stall_recovery {link : Link} {t₀ : Nat} {target : AudioTarget} {frames : Nat}
    {ops : List LinkOp}
    (fits : link.stalled = none ∨ link.applied = target ∧ link.lastFrames = frames)
    (steady : ∀ op ∈ ops, Steady target frames op)
    (kept : Run.Along step CountKept (start link t₀) ops) :
    (Run.run step (start link t₀) ops).heals ≤ maxRetries := by
  have hstart : Counted target frames (start link t₀) := by
    obtain hnone | ⟨htarget, hframes⟩ := fits
    · exact .inl ⟨hnone, rfl⟩
    · rcases hsome : link.stalled with _ | ⟨count, since⟩
      · exact .inl ⟨hsome, rfl⟩
      · exact .inr ⟨htarget, hframes, count, since, hsome, Nat.zero_le _, Nat.zero_le _⟩
  have hend : Counted target frames (Run.run step (start link t₀) ops) :=
    Run.invariant (fun _ _ h hop => h.step hop.1 hop.2) hstart
      (Run.along_and (Run.along_of_forall _ steady) kept)
  obtain ⟨-, hzero⟩ | ⟨-, -, count, since, -, -, hmax⟩ := hend
  · rw [hzero]
    exact Nat.zero_le _
  · exact hmax

/-- A stall that is retried three times, each receipt in time. -/
def receiptsInTime : List LinkOp :=
  [.onState 0 0 true 0x00616163 "", .drive 3000000000 ⟨true, 2⟩ 0, .pollStallRetry 13000000000,
    .onState 14000000000 1 true 0x00616163 "", .pollStallRetry 23000000000,
    .onState 24000000000 2 true 0x00616163 "", .pollStallRetry 33000000000,
    .onState 34000000000 3 true 0x00616163 "", .pollStallRetry 43000000000]

theorem bounded_stall_recovery_receipts_in_time :
    (Run.run step (start (Link.init ⟨true, 2⟩ 0) 0) receiptsInTime).heals ≤ maxRetries :=
  bounded_stall_recovery (.inl rfl) (show ∀ op ∈ receiptsInTime, Steady ⟨true, 2⟩ 0 op by decide)
    (by decide)

/-- Round `i` of a link without frames: the receipt of a stall retry comes after the retry for
want of it. -/
def lateReceipt (i : Nat) : List LinkOp :=
  let t := i * 15000000000
  [.onState t (2 * i) true 0x00616163 "", .drive (t + 3000000000) ⟨true, 2⟩ 0,
    .pollStallRetry (t + 13000000000), .drive (t + 15000000000) ⟨true, 2⟩ 0]

def lateReceipts : List LinkOp := (List.range 4).flatMap lateReceipt

/-- Every round has its stall retry. -/
theorem bounded_stall_recovery_late_receipts :
    (∀ op ∈ lateReceipts, Steady ⟨true, 2⟩ 0 op) ∧
      Run.Along step InOrder (start (Link.init ⟨true, 2⟩ 0) 0) lateReceipts ∧
      ¬(Run.run step (start (Link.init ⟨true, 2⟩ 0) 0) lateReceipts).heals ≤ maxRetries := by
  decide

end Observed
end Kulua.Audio
