import Kulua.Foundation.Text

/-! Numbers as texts: what `format!` writes and `Integer.parseInt` reads. -/

namespace Kulua.Foundation.Numeral
open Text

def decimal (n : Nat) : Str := Nat.toDigits 10 n

/-- Lower-case hexadecimal digits, at least `w` of them. -/
def hex (w n : Nat) : Str :=
  List.replicate (w - (Nat.toDigits 16 n).length) '0' ++ Nat.toDigits 16 n

def sign : Str → Bool × Str
  | '-' :: digits => (true, digits)
  | '+' :: digits => (false, digits)
  | digits => (false, digits)

/-- `Integer.parseInt` on ASCII texts. -/
def parseInt (s : Str) : Option (BitVec 32) :=
  let (negative, digits) := sign s
  if digits ≠ [] ∧ digits.all Char.isDigit = true then
    let n : Int := Nat.ofDigitChars 10 digits 0
    let value := if negative = true then -n else n
    if -2147483648 ≤ value ∧ value < 2147483648 then some (BitVec.ofInt 32 value) else none
  else none

theorem mem_toDigits {b n : Nat} (hb : 1 < b) {c : Char} (h : c ∈ Nat.toDigits b n) :
    ∃ d < b, c = Nat.digitChar d := by
  induction n using Nat.base_induction b hb with
  | single m hm =>
    rw [Nat.toDigits_of_lt_base hm, List.mem_singleton] at h
    exact ⟨m, hm, h⟩
  | digit m k hk hm ih =>
    rw [← Nat.toDigits_append_toDigits hb hm hk, Nat.toDigits_of_lt_base hk, List.mem_append,
      List.mem_singleton] at h
    rcases h with h | h
    · exact ih h
    · exact ⟨k, hk, h⟩

theorem digitChar_inj : ∀ d < 16, ∀ e < 16, Nat.digitChar d = Nat.digitChar e → d = e := by
  decide

theorem toLower_digitChar : ∀ d < 16, (Nat.digitChar d).toLower = Nat.digitChar d := by
  decide

theorem toDigits_injective {b : Nat} (hb : 1 < b) (hb' : b ≤ 16) :
    Function.Injective (Nat.toDigits b) := by
  intro n
  induction n using Nat.base_induction b hb with
  | single n hn =>
    intro m h
    rw [Nat.toDigits_of_lt_base hn, Nat.toDigits_eq_if hb] at h
    split at h
    · next hm =>
      exact digitChar_inj n (hn.trans_le hb') m (hm.trans_le hb') (List.singleton_inj.mp h)
    · have hlength := congrArg List.length h
      simp [Nat.toDigits_ne_nil] at hlength
  | digit n k hk hn ih =>
    intro m h
    rw [← Nat.toDigits_append_toDigits hb hn hk, Nat.toDigits_of_lt_base hk,
      Nat.toDigits_eq_if hb (n := m)] at h
    split at h
    · have hlength := congrArg List.length h
      simp [Nat.toDigits_ne_nil] at hlength
    · obtain ⟨hinit, hlast⟩ := List.append_inj' h rfl
      have hdiv : n = m / b := ih hinit
      have hmod : k = m % b := digitChar_inj k (hk.trans_le hb') _
        ((Nat.mod_lt m (by omega)).trans_le hb') (List.singleton_inj.mp hlast)
      rw [hdiv, hmod]
      exact Nat.div_add_mod m b

theorem hex_eq {w n : Nat} (hw : 0 < w) (h : 16 ^ w ≤ n) : hex (w + 1) n = Nat.toDigits 16 n := by
  have hlength : ¬(Nat.toDigits 16 n).length ≤ w := by
    rw [Nat.length_toDigits_le_iff (by decide) hw]
    exact Nat.not_lt.mpr h
  have hzero : w + 1 - (Nat.toDigits 16 n).length = 0 := by omega
  rw [hex, hzero, List.replicate_zero, List.nil_append]

theorem sign_digits {s : Str} (h : ∀ c ∈ s, c.isDigit = true) : sign s = (false, s) := by
  unfold sign
  split
  · exact absurd (h '-' (List.mem_cons_self ..)) (by decide)
  · exact absurd (h '+' (List.mem_cons_self ..)) (by decide)
  · rfl

theorem parseInt_decimal (n : Nat) :
    parseInt (decimal n) = if n < 2 ^ 31 then some (BitVec.ofNat 32 n) else none := by
  have hdigits : ∀ c ∈ decimal n, c.isDigit = true := fun c hc =>
    Nat.isDigit_of_mem_toDigits (by decide) (by decide) hc
  have hvalue : Nat.ofDigitChars 10 (decimal n) 0 = n := Nat.ofDigitChars_ten_toDigits
  have hsyntax : decimal n ≠ [] ∧ (decimal n).all Char.isDigit = true :=
    ⟨Nat.toDigits_ne_nil, List.all_eq_true.mpr hdigits⟩
  rw [parseInt, sign_digits hdigits]
  simp only [if_pos hsyntax, hvalue, Bool.false_eq_true, if_false]
  by_cases hn : n < 2 ^ 31
  · rw [if_pos hn, if_pos (by omega), BitVec.ofInt_natCast]
  · rw [if_neg hn, if_neg (by omega)]

end Kulua.Foundation.Numeral
