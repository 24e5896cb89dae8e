import Mathlib.Tactic

/-! Big-endian byte strings: a number in a fixed count of bytes, most significant
first, and the number that bytes spell. -/

namespace Kulua.Foundation.BigEndian

def toBytes : (n : Nat) → (v : Nat) → List (BitVec 8)
  | 0, _ => []
  | n + 1, v => toBytes n (v / 256) ++ [BitVec.ofNat 8 v]

def ofBytes (bytes : List (BitVec 8)) : Nat := bytes.foldl (fun acc b => acc * 256 + b.toNat) 0

@[simp] theorem length_toBytes (n v : Nat) : (toBytes n v).length = n := by
  induction n generalizing v with
  | zero => rfl
  | succ n ih => simp [toBytes, ih]

theorem ofBytes_concat (bytes : List (BitVec 8)) (b : BitVec 8) :
    ofBytes (bytes ++ [b]) = ofBytes bytes * 256 + b.toNat := by
  simp [ofBytes, List.foldl_append]

theorem ofBytes_toBytes {n v : Nat} (h : v < 256 ^ n) : ofBytes (toBytes n v) = v := by
  induction n generalizing v with
  | zero =>
      rw [pow_zero] at h
      simp [toBytes, ofBytes]
      omega
  | succ n ih =>
      have hdiv : v / 256 < 256 ^ n := by
        rw [pow_succ] at h
        omega
      rw [toBytes, ofBytes_concat, ih hdiv, BitVec.toNat_ofNat]
      omega

/-- The bytes of a word. -/
def ofWord (n : Nat) {w : Nat} (x : BitVec w) : List (BitVec 8) := toBytes n x.toNat

def toWord (w : Nat) (bytes : List (BitVec 8)) : BitVec w := BitVec.ofNat w (ofBytes bytes)

@[simp] theorem length_ofWord (n : Nat) {w : Nat} (x : BitVec w) : (ofWord n x).length = n :=
  length_toBytes n x.toNat

theorem toWord_ofWord {n w : Nat} (h : w ≤ 8 * n) (x : BitVec w) : toWord w (ofWord n x) = x := by
  have hlt : x.toNat < 256 ^ n := by
    have hle : 2 ^ w ≤ 2 ^ (8 * n) := Nat.pow_le_pow_right (by decide) h
    rw [pow_mul] at hle
    exact x.isLt.trans_le hle
  rw [toWord, ofWord, ofBytes_toBytes hlt, BitVec.ofNat_toNat, BitVec.setWidth_eq]

theorem ofBytes_lt (bytes : List (BitVec 8)) : ofBytes bytes < 256 ^ bytes.length := by
  induction bytes using List.reverseRecOn with
  | nil => simp [ofBytes]
  | append_singleton bytes b ih =>
      rw [ofBytes_concat, List.length_append, List.length_singleton, pow_succ]
      have := b.isLt
      omega

theorem toBytes_ofBytes (bytes : List (BitVec 8)) :
    toBytes bytes.length (ofBytes bytes) = bytes := by
  induction bytes using List.reverseRecOn with
  | nil => rfl
  | append_singleton bytes b ih =>
      have hb := b.isLt
      have hdiv : (ofBytes bytes * 256 + b.toNat) / 256 = ofBytes bytes := by omega
      rw [ofBytes_concat, List.length_append, List.length_singleton, toBytes, hdiv, ih]
      congr 2
      apply BitVec.eq_of_toNat_eq
      rw [BitVec.toNat_ofNat]
      omega

/-- Bytes that fit a word are those of the word they spell. -/
theorem ofWord_toWord {n w : Nat} (h : 8 * n ≤ w) {bytes : List (BitVec 8)}
    (hlen : bytes.length = n) : ofWord n (toWord w bytes) = bytes := by
  have hlt : ofBytes bytes < 2 ^ w := by
    have hle : 2 ^ (8 * n) ≤ 2 ^ w := Nat.pow_le_pow_right (by decide) h
    rw [pow_mul] at hle
    exact (hlen ▸ ofBytes_lt bytes).trans_le hle
  rw [ofWord, toWord, BitVec.toNat_ofNat, Nat.mod_eq_of_lt hlt, ← hlen, toBytes_ofBytes]

end Kulua.Foundation.BigEndian
