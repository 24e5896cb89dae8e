import Mathlib.Data.List.DropRight
import Mathlib.Tactic

/-! Texts as lists of Unicode scalar values, with the functions of `str` that programs use
on lines of output, and the length that UTF-16 gives them. -/

namespace Kulua.Foundation.Text

abbrev Str := List Char

/-- The Unicode property `White_Space`. -/
def isWhitespace (c : Char) : Bool :=
  let n := c.toNat
  (0x09 ≤ n ∧ n ≤ 0x0d) ∨ n = 0x20 ∨ n = 0x85 ∨ n = 0xa0 ∨ n = 0x1680 ∨
    (0x2000 ≤ n ∧ n ≤ 0x200a) ∨ n = 0x2028 ∨ n = 0x2029 ∨ n = 0x202f ∨ n = 0x205f ∨ n = 0x3000

def trimEndMatches (c : Char) (s : Str) : Str := s.rdropWhile (· = c)
def trimStart (s : Str) : Str := s.dropWhile isWhitespace
def trimEnd (s : Str) : Str := s.rdropWhile isWhitespace
def trim (s : Str) : Str := trimStart (trimEnd s)
def spaces (n : Nat) : Str := List.replicate n ' '

/-- The lines of a text: `\n` ends one, and a `\r` before it belongs to the end. -/
def lines : Str → List Str
  | [] => []
  | c :: s =>
    if c = '\n' then [] :: lines s
    else if c = '\r' ∧ s.head? = some '\n' then lines s
    else (c :: (lines s).headD []) :: (lines s).tail

/-- Each line with its end. -/
def unlines (ls : List Str) : Str := ls.flatMap (· ++ ['\n'])

/-- The UTF-16 code units. -/
def utf16 (s : Str) : List Nat :=
  s.flatMap fun c =>
    if c.toNat < 0x10000 then [c.toNat]
    else [0xd800 + (c.toNat - 0x10000) / 0x400, 0xdc00 + (c.toNat - 0x10000) % 0x400]

def utf16Length (s : Str) : Nat := (utf16 s).length

@[simp] theorem utf16Length_nil : utf16Length [] = 0 := rfl

theorem utf16Length_cons (c : Char) (s : Str) :
    utf16Length (c :: s) = (if c.toNat < 0x10000 then 1 else 2) + utf16Length s := by
  simp only [utf16Length, utf16, List.flatMap_cons, List.length_append]
  split <;> rfl

/-- The UTF-8 bytes. -/
def utf8 (s : Str) : List (BitVec 8) :=
  s.flatMap fun c => (String.utf8EncodeChar c).map UInt8.toBitVec

def utf8Length (s : Str) : Nat := (s.map Char.utf8Size).sum

theorem length_utf8 (s : Str) : (utf8 s).length = utf8Length s := by
  simp [utf8, utf8Length, List.length_flatMap]

theorem length_le_utf16Length (s : Str) : s.length ≤ utf16Length s := by
  induction s with
  | nil => exact Nat.zero_le _
  | cons c s ih =>
      rw [utf16Length_cons, List.length_cons]
      split <;> omega

/-- Only the supplementary characters take two units. -/
theorem utf16Length_eq_length {s : Str} :
    utf16Length s = s.length ↔ ∀ c ∈ s, c.toNat < 0x10000 := by
  induction s with
  | nil => simp
  | cons c s ih =>
      have hle := length_le_utf16Length s
      rw [utf16Length_cons, List.length_cons, List.forall_mem_cons, ← ih]
      split <;> omega

theorem trimEnd_eq_self {s : Str} (h : ∀ hs : s ≠ [], isWhitespace (s.getLast hs) = false) :
    trimEnd s = s := by
  refine List.rdropWhile_eq_self_iff.mpr fun hs => ?_
  rw [h hs]
  exact Bool.false_ne_true

theorem trimEndMatches_eq_self {c : Char} {s : Str} (h : ∀ hs : s ≠ [], s.getLast hs ≠ c) :
    trimEndMatches c s = s := by
  refine List.rdropWhile_eq_self_iff.mpr fun hs => ?_
  simpa using h hs

theorem getLast_of_trimEnd {s : Str} (h : trimEnd s = s) (hs : s ≠ []) :
    isWhitespace (s.getLast hs) = false :=
  Bool.eq_false_iff.mpr (List.rdropWhile_eq_self_iff.mp h hs)

theorem rdropWhile_cons {α : Type*} (p : α → Bool) (a : α) (s : List α) :
    (a :: s).rdropWhile p =
      if s.rdropWhile p = [] then (if p a then [] else [a]) else a :: s.rdropWhile p := by
  rw [List.rdropWhile, List.reverse_cons, List.dropWhile_append]
  by_cases h : s.reverse.dropWhile p = []
  · by_cases ha : p a <;> simp [List.rdropWhile, h, ha]
  · simp [List.rdropWhile, h]

theorem trimEnd_append_spaces {s : Str} (h : trimEnd s = s) (n : Nat) :
    trimEnd (s ++ spaces n) = s := by
  induction n with
  | zero => simpa [spaces] using h
  | succ n ih =>
      have hspaces : spaces (n + 1) = spaces n ++ [' '] := by
        rw [spaces, List.replicate_succ', spaces]
      rw [hspaces, ← List.append_assoc, trimEnd, List.rdropWhile_concat_pos _ _ _ (by decide)]
      exact ih

theorem trimStart_spaces_append (n : Nat) (s : Str) : trimStart (spaces n ++ s) = trimStart s := by
  induction n with
  | zero => rfl
  | succ n ih =>
      rw [spaces, List.replicate_succ, List.cons_append, trimStart,
        List.dropWhile_cons_of_pos (by decide)]
      exact ih

/-- A text without whitespace is what is left between spaces. -/
theorem trim_spaces_append {s : Str} (h : ∀ c ∈ s, isWhitespace c = false) (n : Nat) :
    trim (spaces n ++ s) = s := by
  cases s with
  | nil =>
      have hend : trimEnd ([] ++ spaces n) = [] := trimEnd_append_spaces rfl n
      rw [trim, List.append_nil, ← List.nil_append (spaces n), hend]
      rfl
  | cons c s =>
      have hend : trimEnd (spaces n ++ c :: s) = spaces n ++ c :: s := by
        refine trimEnd_eq_self fun hs => ?_
        rw [List.getLast_append_of_ne_nil _ (List.cons_ne_nil c s)]
        exact h _ (List.getLast_mem _)
      rw [trim, hend, trimStart_spaces_append, trimStart, List.dropWhile_cons_of_neg]
      rw [h c (List.mem_cons_self ..)]
      exact Bool.false_ne_true

/-- The line in front of a `\n`, up to the `\r`s at its end. -/
theorem lines_line {line : Str} (h : '\n' ∉ line) (s : Str) :
    ∃ l, lines (line ++ '\n' :: s) = l :: lines s ∧
      trimEndMatches '\r' l = trimEndMatches '\r' line := by
  induction line with
  | nil => exact ⟨[], by simp [lines], rfl⟩
  | cons c line ih =>
      have hc : c ≠ '\n' := fun hc => h (hc ▸ List.mem_cons_self ..)
      have hline : '\n' ∉ line := fun hmem => h (List.mem_cons_of_mem c hmem)
      obtain ⟨l, hl, htrim⟩ := ih hline
      by_cases hcr : c = '\r' ∧ (line ++ '\n' :: s).head? = some '\n'
      · have hnil : line = [] := by
          cases line with
          | nil => rfl
          | cons d line =>
              have hd : d = '\n' := Option.some.inj hcr.2
              exact absurd (hd ▸ List.mem_cons_self ..) hline
        subst hnil
        refine ⟨l, ?_, ?_⟩
        · rw [List.cons_append, lines, if_neg hc, if_pos hcr, hl]
        · rw [htrim, hcr.1]
          rfl
      · refine ⟨c :: l, ?_, ?_⟩
        · rw [List.cons_append, lines, if_neg hc, if_neg hcr, hl, List.headD_cons, List.tail_cons]
        · simp only [trimEndMatches] at htrim ⊢
          rw [rdropWhile_cons, htrim, ← rdropWhile_cons]

/-- What is printed line by line is read line by line. -/
theorem lines_unlines {ls : List Str} (h : ∀ line ∈ ls, '\n' ∉ line) :
    (lines (unlines ls)).map (trimEndMatches '\r') = ls.map (trimEndMatches '\r') := by
  induction ls with
  | nil => rfl
  | cons line ls ih =>
      obtain ⟨l, hl, htrim⟩ := lines_line (h line (List.mem_cons_self ..)) (unlines ls)
      have htext : unlines (line :: ls) = line ++ '\n' :: unlines ls := by simp [unlines]
      rw [htext, hl, List.map_cons, List.map_cons, htrim,
        ih fun line hmem => h line (List.mem_cons_of_mem _ hmem)]

/-- What follows the first place where a pattern stands. -/
def findAfter (pat : Str) : Str → Option Str
  | [] => if pat = [] then some [] else none
  | c :: s => if pat <+: c :: s then some ((c :: s).drop pat.length) else findAfter pat s

/-- The pattern stands behind `before`, and nowhere earlier. -/
structure FirstAt (pat s before rest : Str) : Prop where
  here : s = before ++ pat ++ rest
  first : ∀ before' rest', s = before' ++ pat ++ rest' → before.length ≤ before'.length

theorem findAfter_eq_some {pat s rest : Str} :
    findAfter pat s = some rest ↔ ∃ before, FirstAt pat s before rest := by
  induction s with
  | nil =>
    rw [findAfter]
    constructor
    · intro h
      split at h
      · rename_i hpat
        obtain rfl := Option.some.inj h
        exact ⟨[], by simp [hpat], fun _ _ _ => Nat.zero_le _⟩
      · cases h
    · rintro ⟨before, here, -⟩
      have hnil : before = [] ∧ pat = [] ∧ rest = [] := by simpa using here.symm
      rw [if_pos hnil.2.1, hnil.2.2]
  | cons c s ih =>
    rw [findAfter]
    by_cases hpat : pat <+: c :: s
    · rw [if_pos hpat]
      obtain ⟨after, hafter⟩ := hpat
      rw [← hafter, List.drop_left, Option.some.injEq]
      constructor
      · rintro rfl
        exact ⟨[], by simp, fun _ _ _ => Nat.zero_le _⟩
      · rintro ⟨before, here, first⟩
        have hnil : before = [] :=
          List.length_eq_zero_iff.mp (Nat.le_zero.mp (first [] after (by simp)))
        rw [hnil, List.nil_append] at here
        exact List.append_cancel_left here
    · rw [if_neg hpat, ih]
      constructor
      · rintro ⟨before, here, first⟩
        refine ⟨c :: before, by simp [here], fun before' rest' h => ?_⟩
        cases before' with
        | nil => exact absurd ⟨rest', h.symm⟩ hpat
        | cons d before' =>
          rw [List.cons_append, List.cons_append, List.cons.injEq] at h
          exact Nat.succ_le_succ (first before' rest' h.2)
      · rintro ⟨before, here, first⟩
        cases before with
        | nil => exact absurd ⟨rest, here.symm⟩ hpat
        | cons d before =>
          rw [List.cons_append, List.cons_append, List.cons.injEq] at here
          refine ⟨before, here.2, fun before' rest' h => ?_⟩
          have := first (c :: before') rest' (by simp [h])
          exact Nat.le_of_succ_le_succ this

/-- The part behind the last place of a character. -/
theorem exists_last_split {c : Char} {s : Str} (h : c ∈ s) :
    ∃ before tail, s = before ++ c :: tail ∧ c ∉ tail := by
  obtain ⟨tail, before, hsplit, hnot⟩ := List.eq_append_cons_of_mem (List.mem_reverse.mpr h)
  refine ⟨before.reverse, tail.reverse, ?_, by simpa using hnot⟩
  have hs := congrArg List.reverse hsplit
  simpa using hs

theorem rtakeWhile_last_split {c : Char} {tail : Str} (h : c ∉ tail) (before : Str) :
    (before ++ c :: tail).rtakeWhile (· ≠ c) = tail := by
  have hall : ∀ x ∈ tail.reverse, (decide (x ≠ c)) = true := fun x hx =>
    decide_eq_true fun he => h (he ▸ List.mem_reverse.mp hx)
  rw [List.rtakeWhile, List.reverse_append, List.reverse_cons, List.append_assoc,
    List.takeWhile_append_of_pos hall]
  simp

/-- The first line that shows something shows `v`. -/
def FirstLine (Q : Str → Str → Prop) (ls : List Str) (v : Str) : Prop :=
  ∃ before line after, ls = before ++ line :: after ∧ Q line v ∧ ∀ l ∈ before, ∀ w, ¬Q l w

theorem findSome?_eq_firstLine {f : Str → Option Str} {Q : Str → Str → Prop}
    (h : ∀ line v, f line = some v ↔ Q line v) (ls : List Str) (v : Str) :
    ls.findSome? f = some v ↔ FirstLine Q ls v := by
  simp only [List.findSome?_eq_some_iff, FirstLine, h, Option.eq_none_iff_forall_ne_some, ne_eq]

end Kulua.Foundation.Text
