import Kulua.Frame
import Kulua.Foundation.Keyed

/-! The receive buffer of the control stream: fragments keyed by sequence
number, and the extraction of one complete message at the delivery point. Both
receivers use it; they differ in the comparison that admits a fragment
(unsigned in Rust, signed in Java), which is the parameter `Below`. -/

namespace Kulua

/-- A buffered fragment. Its index is below its total, so a message has at least one. -/
structure RecvFragment (Below : U32 → U32 → Prop) where
  msgId : U32
  frag : U32
  total : U32
  data : Bytes
  frag_below : Below frag total

abbrev Buffer (Below : U32 → U32 → Prop) := Std.TreeMap U32 (RecvFragment Below)

namespace Buffer

variable {Below : U32 → U32 → Prop}

/-- Data of the fragments `i, i+1, ...` of message `msgId`, `n` of them, stored
consecutively from `start + i`; none as soon as one is missing or foreign. -/
def pieces (buf : Buffer Below) (start msgId : U32) : (i n : Nat) → Option (List Bytes)
  | _, 0 => some []
  | i, n + 1 =>
    match buf[start + BitVec.ofNat 32 i]? with
    | none => none
    | some f =>
      if f.msgId ≠ msgId ∨ f.frag ≠ BitVec.ofNat 32 i then none
      else (pieces buf start msgId (i + 1) n).map (f.data :: ·)

def removeRun (buf : Buffer Below) (start : U32) : (n : Nat) → Buffer Below
  | 0 => buf
  | n + 1 => (removeRun buf start n).erase (start + BitVec.ofNat 32 n)

/-- The message that begins at `next`, with its fragment count, taken out of the
buffer; none while it is incomplete. -/
def collectRun (buf : Buffer Below) (next : U32) : Option (Buffer Below × Bytes × U32) :=
  match buf[next]? with
  | none => none
  | some first =>
    if first.frag ≠ 0 then none
    else
      (pieces buf next first.msgId 0 first.total.toNat).map fun ps =>
        (removeRun buf next first.total.toNat, ps.flatten, first.total)

theorem pieces_eq_some {buf : Buffer Below} {start msgId : U32} {n i : Nat} {ps : List Bytes}
    (h : pieces buf start msgId i n = some ps) :
    ps.length = n ∧ ∀ j < n, ∃ f, buf[start + BitVec.ofNat 32 (i + j)]? = some f ∧
      f.msgId = msgId ∧ f.frag = BitVec.ofNat 32 (i + j) ∧ ps[j]? = some f.data := by
  induction n generalizing i ps with
  | zero => simp_all [pieces]
  | succ n ih =>
    rw [pieces] at h
    rcases hf : buf[start + BitVec.ofNat 32 i]? with _ | f
    · simp [hf] at h
    · simp only [hf] at h
      split at h
      · cases h
      · rename_i hmatch
        push Not at hmatch
        obtain ⟨rest, hrest, rfl⟩ := Option.map_eq_some_iff.mp h
        obtain ⟨hlen, hget⟩ := ih hrest
        refine ⟨by simp [hlen], fun j hj => ?_⟩
        cases j with
        | zero => exact ⟨f, hf, hmatch.1, hmatch.2, rfl⟩
        | succ j =>
          obtain ⟨g, hg⟩ := hget j (by omega)
          rw [show i + (j + 1) = i + 1 + j by omega]
          exact ⟨g, by simpa using hg⟩

theorem pieces_isSome {buf : Buffer Below} {start msgId : U32} {n i : Nat}
    (h : ∀ j < n, ∃ f, buf[start + BitVec.ofNat 32 (i + j)]? = some f ∧
      f.msgId = msgId ∧ f.frag = BitVec.ofNat 32 (i + j)) :
    ∃ ps, pieces buf start msgId i n = some ps := by
  induction n generalizing i with
  | zero => exact ⟨[], rfl⟩
  | succ n ih =>
    obtain ⟨f, hf, hid, hfrag⟩ := h 0 (by omega)
    rw [Nat.add_zero] at hf hfrag
    obtain ⟨ps, hps⟩ := ih (i := i + 1) fun j hj => by
      rw [show i + 1 + j = i + (j + 1) by omega]
      exact h (j + 1) (by omega)
    exact ⟨f.data :: ps, by simp [pieces, hf, hid, hfrag, hps]⟩

theorem pieces_eq_none {buf : Buffer Below} {start : U32} (msgId : U32) {n i j : Nat} (hj : j < n)
    (h : buf[start + BitVec.ofNat 32 (i + j)]? = none) : pieces buf start msgId i n = none := by
  rcases hp : pieces buf start msgId i n with _ | ps
  · rfl
  · obtain ⟨f, hf, -⟩ := (pieces_eq_some hp).2 j hj
    rw [h] at hf
    cases hf

theorem getElem?_removeRun (buf : Buffer Below) (start : U32) (n : Nat) (q : U32) :
    (removeRun buf start n)[q]? =
      if ∃ i < n, q = start + BitVec.ofNat 32 i then none else buf[q]? := by
  induction n with
  | zero => simp [removeRun]
  | succ n ih =>
    rw [removeRun, Std.TreeMap.getElem?_erase, ih]
    simp only [Std.LawfulEqOrd.compare_eq_iff_eq, Nat.lt_succ_iff_lt_or_eq, or_and_right,
      exists_or, exists_eq_left]
    by_cases hq : start + BitVec.ofNat 32 n = q
    · simp [hq]
    · simp [hq, Ne.symm hq]

theorem getElem?_of_removeRun {buf : Buffer Below} {start : U32} {n : Nat} {q : U32}
    {f : RecvFragment Below} (h : (removeRun buf start n)[q]? = some f) : buf[q]? = some f := by
  rw [getElem?_removeRun] at h
  split at h
  · cases h
  · exact h

/-- Removing `n` distinct present keys shrinks the buffer by `n`. -/
theorem size_removeRun {buf : Buffer Below} {start : U32} {n : Nat} (hn : n ≤ 2 ^ 32)
    (h : ∀ i < n, (buf[start + BitVec.ofNat 32 i]?).isSome) :
    (removeRun buf start n).size + n = buf.size := by
  induction n with
  | zero => rfl
  | succ n ih =>
    have ih := ih (by omega) fun i hi => h i (by omega)
    have present : (removeRun buf start n).contains (start + BitVec.ofNat 32 n) = true := by
      rw [Std.TreeMap.contains_eq_isSome_getElem?, getElem?_removeRun, if_neg]
      · exact h n (by omega)
      · rintro ⟨i, hi, he⟩
        have := congrArg BitVec.toNat ((BitVec.add_right_inj start).mp he)
        simp only [BitVec.toNat_ofNat] at this
        omega
    have hsize := Foundation.Keyed.size_erase_add_one present
    rw [removeRun]
    omega

/-- What a successful extraction found: a complete message from `next` on. -/
theorem collectRun_eq_some {buf buf' : Buffer Below} {next total : U32} {data : Bytes}
    (h : collectRun buf next = some (buf', data, total)) :
    ∃ first ps, buf[next]? = some first ∧ first.frag = 0 ∧ first.total = total ∧
      pieces buf next first.msgId 0 total.toNat = some ps ∧ data = ps.flatten ∧
      buf' = removeRun buf next total.toNat := by
  unfold collectRun at h
  rcases hf : buf[next]? with _ | first
  · simp [hf] at h
  · simp only [hf] at h
    split at h
    · cases h
    · rename_i hzero
      obtain ⟨ps, hps, he⟩ := Option.map_eq_some_iff.mp h
      cases he
      exact ⟨first, ps, rfl, not_not.mp hzero, rfl, hps, rfl, rfl⟩

theorem size_collectRun {buf buf' : Buffer Below} {next total : U32} {data : Bytes}
    (h : collectRun buf next = some (buf', data, total)) :
    buf'.size + total.toNat = buf.size := by
  obtain ⟨first, ps, -, -, -, hps, -, rfl⟩ := collectRun_eq_some h
  refine size_removeRun total.isLt.le fun i hi => ?_
  obtain ⟨f, hf, -⟩ := (pieces_eq_some hps).2 i hi
  rw [Nat.zero_add] at hf
  simp [hf]

/-- A message whose fragments are all there is taken out. -/
theorem collectRun_complete {buf : Buffer Below} {next msgId : U32} {n : Nat} (hn : 0 < n)
    (hlt : n < 2 ^ 32)
    (h : ∀ j < n, ∃ f, buf[next + BitVec.ofNat 32 j]? = some f ∧ f.msgId = msgId ∧
      f.frag = BitVec.ofNat 32 j ∧ f.total = BitVec.ofNat 32 n) :
    ∃ ps, pieces buf next msgId 0 n = some ps ∧
      collectRun buf next = some (removeRun buf next n, ps.flatten, BitVec.ofNat 32 n) := by
  obtain ⟨first, hfirst, rfl, hfrag, htotal⟩ := h 0 hn
  rw [BitVec.add_zero] at hfirst
  have hcount : first.total.toNat = n := by
    rw [htotal, BitVec.toNat_ofNat, Nat.mod_eq_of_lt hlt]
  obtain ⟨ps, hps⟩ : ∃ ps, pieces buf next first.msgId 0 n = some ps := by
    apply pieces_isSome
    intro j hj
    obtain ⟨f, hf, hid, hfrag, -⟩ := h j hj
    rw [Nat.zero_add]
    exact ⟨f, hf, hid, hfrag⟩
  refine ⟨ps, hps, ?_⟩
  simpa [collectRun, hfirst, hfrag, hcount, hps] using htotal

/-- A message of one fragment is the fragment itself. -/
theorem collectRun_single {buf : Buffer Below} {next : U32} {f : RecvFragment Below}
    (hf : buf[next]? = some f) (hfrag : f.frag = 0) (htotal : f.total = 1) :
    collectRun buf next = some (buf.erase next, f.data, 1) := by
  simp [collectRun, hf, hfrag, htotal, pieces, removeRun]

end Buffer
end Kulua
