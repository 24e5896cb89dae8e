import Mathlib.Tactic

/-! Exclusive holdings and their history. Each holder has at most one of the numbered
things it opens: it opens a new one when it has none, and closes the one it has, which
is dropped at some later time. -/

namespace Kulua.Foundation.Lease

inductive Event (κ : Type*) where
  | opened (n : Nat) (k : κ)
  | closed (n : Nat)
  | dropped (n : Nat)
  deriving DecidableEq, Repr

variable {κ : Type*}

/-- What must have happened before an event. -/
def Turn (past : List (Event κ)) : Event κ → Prop
  | .opened _ k => ∀ m, .opened m k ∈ past → .closed m ∈ past
  | .closed _ => True
  | .dropped n => .closed n ∈ past

def Orderly (trace : List (Event κ)) : Prop :=
  ∀ past e rest, trace = past ++ e :: rest → Turn past e

theorem orderly_nil : Orderly ([] : List (Event κ)) := by
  intro past e rest h
  simp at h

theorem orderly_concat {trace : List (Event κ)} {e : Event κ} :
    Orderly (trace ++ [e]) ↔ Orderly trace ∧ Turn trace e := by
  constructor
  · intro h
    refine ⟨fun past x rest hsplit => h past x (rest ++ [e]) ?_, h trace e [] rfl⟩
    rw [hsplit, List.append_assoc, List.cons_append]
  · rintro ⟨orderly, turn⟩ past x rest hsplit
    rcases rest.eq_nil_or_concat with rfl | ⟨rest, y, rfl⟩
    · obtain ⟨rfl, hx⟩ := List.append_inj' hsplit rfl
      obtain rfl := (List.cons.inj hx).1
      exact turn
    · rw [List.concat_eq_append, ← List.cons_append, ← List.append_assoc] at hsplit
      exact orderly past x rest (List.append_inj' hsplit rfl).1

@[ext] structure Ledger (κ : Type*) where
  holds : κ → Option Nat
  next : Nat
  trace : List (Event κ)

namespace Ledger

def empty : Ledger κ := ⟨fun _ => none, 0, []⟩

def drop (l : Ledger κ) (n : Nat) : Ledger κ := { l with trace := l.trace ++ [.dropped n] }

/-- The holdings are what the history leaves open. -/
structure Sound (l : Ledger κ) : Prop where
  issued : ∀ n k, .opened n k ∈ l.trace → n < l.next
  closedIssued : ∀ n, .closed n ∈ l.trace → n < l.next
  owner : ∀ n k k', .opened n k ∈ l.trace → .opened n k' ∈ l.trace → k = k'
  current : ∀ k n, l.holds k = some n → .opened n k ∈ l.trace ∧ .closed n ∉ l.trace
  settled : ∀ n k, .opened n k ∈ l.trace → .closed n ∈ l.trace ∨ l.holds k = some n
  orderly : Orderly l.trace

theorem sound_empty : Sound (empty : Ledger κ) := by
  constructor <;> simp [empty, orderly_nil]

/-- No holder has two things open. -/
theorem Sound.single {l : Ledger κ} (sound : Sound l) {k : κ} {n m : Nat}
    (hn : .opened n k ∈ l.trace) (hm : .opened m k ∈ l.trace) (openN : .closed n ∉ l.trace)
    (openM : .closed m ∉ l.trace) : n = m := by
  have hold := (sound.settled n k hn).resolve_left openN
  rw [(sound.settled m k hm).resolve_left openM] at hold
  exact (Option.some.inj hold).symm

theorem Sound.drop {l : Ledger κ} (sound : Sound l) {n : Nat} (closed : .closed n ∈ l.trace) :
    Sound (l.drop n) := by
  refine ⟨fun m j h => ?_, fun m h => ?_, fun m j j' h h' => ?_, fun j m h => ?_, fun m j h => ?_,
    orderly_concat.mpr ⟨sound.orderly, closed⟩⟩ <;>
    simp only [Ledger.drop, List.mem_append, List.mem_singleton, reduceCtorEq, or_false] at *
  · exact sound.issued m j h
  · exact sound.closedIssued m h
  · exact sound.owner m j j' h h'
  · exact sound.current j m h
  · exact sound.settled m j h

variable [DecidableEq κ]

def acquire (l : Ledger κ) (k : κ) : Ledger κ :=
  ⟨Function.update l.holds k (some l.next), l.next + 1, l.trace ++ [.opened l.next k]⟩

def close (l : Ledger κ) (k : κ) : Ledger κ :=
  match l.holds k with
  | none => l
  | some n => ⟨Function.update l.holds k none, l.next, l.trace ++ [.closed n]⟩

/-- What is closed is dropped at once. -/
def discard (l : Ledger κ) (k : κ) : Ledger κ :=
  match l.holds k with
  | none => l
  | some n => (l.close k).drop n

theorem Sound.acquire {l : Ledger κ} (sound : Sound l) {k : κ} (free : l.holds k = none) :
    Sound (l.acquire k) where
  issued n k' h := by
    simp only [Ledger.acquire, List.mem_append, List.mem_singleton, Event.opened.injEq] at h ⊢
    rcases h with h | ⟨rfl, -⟩
    · exact Nat.lt_succ_of_lt (sound.issued n k' h)
    · exact Nat.lt_succ_self _
  closedIssued n h := by
    simp only [Ledger.acquire, List.mem_append, List.mem_singleton, reduceCtorEq, or_false] at h ⊢
    exact Nat.lt_succ_of_lt (sound.closedIssued n h)
  owner n j j' h h' := by
    simp only [Ledger.acquire, List.mem_append, List.mem_singleton, Event.opened.injEq] at h h'
    rcases h with h | ⟨rfl, rfl⟩ <;> rcases h' with h' | ⟨h', rfl⟩
    · exact sound.owner n j j' h h'
    · exact absurd (sound.issued n j h) (h' ▸ Nat.lt_irrefl _)
    · exact absurd (sound.issued _ j' h') (Nat.lt_irrefl _)
    · rfl
  current j n h := by
    simp only [Ledger.acquire, List.mem_append, List.mem_singleton, reduceCtorEq, or_false] at h ⊢
    by_cases hj : j = k
    · subst hj
      rw [Function.update_self] at h
      obtain rfl := Option.some.inj h
      exact ⟨Or.inr rfl, fun hclosed => Nat.lt_irrefl _ (sound.closedIssued _ hclosed)⟩
    · rw [Function.update_of_ne hj] at h
      exact ⟨Or.inl (sound.current j n h).1, (sound.current j n h).2⟩
  settled n j h := by
    simp only [Ledger.acquire, List.mem_append, List.mem_singleton, Event.opened.injEq, reduceCtorEq,
      or_false] at h ⊢
    rcases h with h | ⟨rfl, rfl⟩
    · refine (sound.settled n j h).imp_right fun hold => ?_
      rw [Function.update_of_ne, hold]
      rintro rfl
      rw [free] at hold
      cases hold
    · exact Or.inr (Function.update_self ..)
  orderly := by
    refine orderly_concat.mpr ⟨sound.orderly, fun m hm => ?_⟩
    refine (sound.settled m k hm).resolve_right fun hold => ?_
    rw [free] at hold
    cases hold

theorem Sound.close {l : Ledger κ} (sound : Sound l) (k : κ) : Sound (l.close k) := by
  unfold Ledger.close
  rcases hold : l.holds k with _ | n
  · exact sound
  · obtain ⟨hopened, hopen⟩ := sound.current k n hold
    refine ⟨fun m j h => ?_, fun m h => ?_, fun m j j' h h' => ?_, fun j m h => ?_, fun m j h => ?_,
      orderly_concat.mpr ⟨sound.orderly, trivial⟩⟩ <;>
      simp only [List.mem_append, List.mem_singleton, Event.closed.injEq, reduceCtorEq,
        or_false] at *
    · exact sound.issued m j h
    · rcases h with h | rfl
      · exact sound.closedIssued m h
      · exact sound.issued m k hopened
    · exact sound.owner m j j' h h'
    · by_cases hj : j = k
      · subst hj
        rw [Function.update_self] at h
        cases h
      · rw [Function.update_of_ne hj] at h
        obtain ⟨hm, hmopen⟩ := sound.current j m h
        refine ⟨hm, not_or.mpr ⟨hmopen, ?_⟩⟩
        rintro rfl
        exact hj (sound.owner m j k hm hopened)
    · rcases sound.settled m j h with hclosed | hheld
      · exact Or.inl (Or.inl hclosed)
      · by_cases hj : j = k
        · subst hj
          rw [hold] at hheld
          exact Or.inl (Or.inr (Option.some.inj hheld).symm)
        · exact Or.inr (by rw [Function.update_of_ne hj, hheld])

theorem closed_mem_close {l : Ledger κ} {k : κ} {n : Nat} (hold : l.holds k = some n) :
    .closed n ∈ (l.close k).trace := by
  simp [Ledger.close, hold]

theorem Sound.discard {l : Ledger κ} (sound : Sound l) (k : κ) : Sound (l.discard k) := by
  unfold Ledger.discard
  split
  · exact sound
  · rename_i n hold
    exact (sound.close k).drop (closed_mem_close hold)

end Ledger
end Kulua.Foundation.Lease
