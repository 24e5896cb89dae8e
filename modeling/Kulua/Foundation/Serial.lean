import Mathlib.Tactic

/-! Serial numbers: natural counters seen through a machine word. A counter `a`
appears on the wire as `BitVec.ofNat w a`; comparisons on the ring agree with
the order of the counters as long as these stay within half the ring. -/

namespace Kulua.Foundation.Serial

variable {w : Nat}

/-- Counters less than one turn apart are told apart by their words. -/
theorem ofNat_cancel {a b : Nat} (hab : a < b + 2 ^ w) (hba : b < a + 2 ^ w)
    (h : BitVec.ofNat w a = BitVec.ofNat w b) : a = b := by
  have hmod : a % 2 ^ w = b % 2 ^ w := by simpa using congrArg BitVec.toNat h
  refine Nat.ModEq.eq_of_abs_lt hmod (abs_lt.mpr ⟨?_, ?_⟩) <;> push_cast <;> lia

/-- `a` is at or behind `b` on the ring of `2 ^ (w + 1)` numbers. -/
def le (a b : BitVec (w + 1)) : Bool := a == b || decide (2 ^ w ≤ (a - b).toNat)

/-- How far past `base` a word stands on the ring. -/
def ahead (base a : BitVec w) : Nat := (a - base).toNat

theorem ahead_add (base : BitVec w) {i : Nat} (h : i < 2 ^ w) :
    ahead base (base + BitVec.ofNat w i) = i := by
  rw [ahead, BitVec.add_comm, BitVec.add_sub_cancel, BitVec.toNat_ofNat]
  exact Nat.mod_eq_of_lt h

theorem ahead_sub (base : BitVec w) {d : Nat} (h0 : 0 < d) (h : d < 2 ^ w) :
    ahead base (base - BitVec.ofNat w d) = 2 ^ w - d := by
  have hneg : base - BitVec.ofNat w d - base = -BitVec.ofNat w d := by
    rw [BitVec.sub_eq_add_neg base, BitVec.add_comm, BitVec.add_sub_cancel]
  rw [ahead, hneg, BitVec.toNat_neg, BitVec.toNat_ofNat, Nat.mod_eq_of_lt h]
  exact Nat.mod_eq_of_lt (by omega)

theorem ahead_inj (base : BitVec w) {a b : BitVec w} : ahead base a = ahead base b ↔ a = b := by
  rw [ahead, ahead, BitVec.toNat_inj]
  exact ⟨fun h => by rw [← BitVec.sub_add_cancel a base, h, BitVec.sub_add_cancel],
    fun h => by rw [h]⟩

/-- Seen from a place less than half a ring before `a`, the words `a` is at or behind are the
half ring from `a` on. -/
theorem le_iff_ahead (base : BitVec (w + 1)) {a : BitVec (w + 1)} (ha : ahead base a < 2 ^ w)
    (b : BitVec (w + 1)) :
    le a b = true ↔ ahead base a ≤ ahead base b ∧ ahead base b ≤ ahead base a + 2 ^ w := by
  have hpow : 2 ^ (w + 1) = 2 ^ w + 2 ^ w := by rw [pow_succ]; omega
  have hb : ahead base b < 2 ^ (w + 1) := BitVec.isLt _
  have hdiff : a - b = (a - base) - (b - base) := by
    rw [BitVec.sub_sub, BitVec.add_comm base, BitVec.sub_add_cancel]
  have hsub : (a - b).toNat = (2 ^ (w + 1) - ahead base b + ahead base a) % 2 ^ (w + 1) := by
    rw [hdiff, BitVec.toNat_sub]
    rfl
  rw [le, Bool.or_eq_true, beq_iff_eq, decide_eq_true_iff, ← ahead_inj base, hsub]
  rcases Nat.lt_or_ge (ahead base a) (ahead base b) with h | h
  · rw [Nat.mod_eq_of_lt (by omega)]
    omega
  · have hturn : 2 ^ (w + 1) - ahead base b + ahead base a =
        ahead base a - ahead base b + 2 ^ (w + 1) := by omega
    rw [hturn, Nat.add_mod_right, Nat.mod_eq_of_lt (by omega)]
    omega

/-- Within half the ring, `le` is the order of the counters. -/
theorem le_ofNat {a b : Nat} (hab : a < b + 2 ^ w) (hba : b ≤ a + 2 ^ w) :
    le (BitVec.ofNat (w + 1) a) (BitVec.ofNat (w + 1) b) = decide (a ≤ b) := by
  have hpow : 2 ^ (w + 1) = 2 ^ w + 2 ^ w := by rw [pow_succ]; omega
  have hpos := Nat.two_pow_pos w
  have hself : ahead (BitVec.ofNat (w + 1) a) (BitVec.ofNat (w + 1) a) = 0 := by
    simpa using ahead_add (BitVec.ofNat (w + 1) a) (Nat.two_pow_pos (w + 1))
  rw [Bool.eq_iff_iff, le_iff_ahead (BitVec.ofNat (w + 1) a) (by omega), hself, decide_eq_true_iff]
  rcases Nat.lt_or_ge b a with h | h
  · obtain ⟨d, rfl⟩ := Nat.exists_eq_add_of_lt h
    have hback : BitVec.ofNat (w + 1) b =
        BitVec.ofNat (w + 1) (b + d + 1) - BitVec.ofNat (w + 1) (d + 1) := by
      rw [Nat.add_assoc, BitVec.ofNat_add b, BitVec.add_sub_cancel]
    rw [hback, ahead_sub _ (Nat.succ_pos d) (by omega)]
    omega
  · obtain ⟨d, rfl⟩ := Nat.exists_eq_add_of_le h
    rw [BitVec.ofNat_add, ahead_add _ (by omega)]
    omega

end Kulua.Foundation.Serial
