import Kulua.ReliableControl
import Kulua.ReliableSender

/-! What a cumulative ACK releases. The comparison on the ring is no order, but along a window
of consecutive numbers it changes once only, behind the place where the ACK stands. -/

namespace Kulua
open Foundation

/-- The entries carry consecutive numbers on the ring from `base` on. -/
structure Consecutive (base : U32) (window : List OutEntry) : Prop where
  seq : ∀ (i : Nat) e, window[i]? = some e → e.seq = base + BitVec.ofNat 32 i
  short : window.length < 2 ^ 31

/-- What an ACK leaves of a window that starts at `base`: behind an acknowledged entry the
entries after it, of a window that lies ahead everything, and a suffix in any case. -/
structure Released (base ack : U32) (window rest : List OutEntry) : Prop where
  within : (∃ e ∈ window, e.seq = ack) →
    rest = window.filter fun e => decide (Serial.ahead base ack < Serial.ahead base e.seq)
  before : ∀ d, 0 < d → d + window.length < 2 ^ 31 → ack = base - BitVec.ofNat 32 d →
    rest = window
  suffix : rest <:+ window

namespace Consecutive

variable {base : U32} {window : List OutEntry}

theorem ahead_seq (h : Consecutive base window) {i : Nat} {e : OutEntry}
    (he : window[i]? = some e) : Serial.ahead base e.seq = i := by
  have hi := (List.getElem?_eq_some_iff.mp he).1
  have hshort := h.short
  rw [h.seq i e he, Serial.ahead_add base (by omega)]

theorem seqLe_iff (h : Consecutive base window) {i : Nat} {e : OutEntry}
    (he : window[i]? = some e) (ack : U32) :
    ReliableSender.seqLe e.seq ack = true ↔
      i ≤ Serial.ahead base ack ∧ Serial.ahead base ack ≤ i + 2 ^ 31 := by
  have hi := (List.getElem?_eq_some_iff.mp he).1
  have hahead := h.ahead_seq he
  have hshort := h.short
  rw [ReliableSender.seqLe_eq_le, Serial.le_iff_ahead base (by omega), hahead]

/-- An ACK at most half the ring past the start of the window releases the entries up to its
place. -/
theorem dropWhile_near (h : Consecutive base window) {ack : U32}
    (hnear : Serial.ahead base ack ≤ 2 ^ 31) :
    (window.dropWhile fun e => ReliableSender.seqLe e.seq ack) =
      window.drop (Serial.ahead base ack + 1) := by
  refine Segment.dropWhile_eq_drop fun i e he => ?_
  rw [h.seqLe_iff he]
  omega

/-- An ACK farther past the start of the window is behind it and releases nothing. -/
theorem dropWhile_far (h : Consecutive base window) {ack : U32}
    (hfar : 2 ^ 31 + window.length < Serial.ahead base ack + 1) :
    (window.dropWhile fun e => ReliableSender.seqLe e.seq ack) = window := by
  refine Segment.dropWhile_eq_drop (k := 0) fun i e he => ?_
  have hi := (List.getElem?_eq_some_iff.mp he).1
  rw [h.seqLe_iff he]
  omega

theorem released (h : Consecutive base window) (ack : U32) :
    Released base ack window (window.dropWhile fun e => ReliableSender.seqLe e.seq ack) where
  within := by
    rintro ⟨a, ha, rfl⟩
    obtain ⟨k, hk⟩ := List.mem_iff_getElem?.mp ha
    have hlt := (List.getElem?_eq_some_iff.mp hk).1
    have hshort := h.short
    have hplace := h.ahead_seq hk
    rw [h.dropWhile_near (by omega), Segment.filter_eq_drop]
    intro i e he
    rw [h.ahead_seq he, decide_eq_true_iff]
    omega
  before := by
    rintro d hpos hd rfl
    have hshort := h.short
    apply h.dropWhile_far
    rw [Serial.ahead_sub base hpos (by omega)]
    omega
  suffix := List.dropWhile_suffix _

end Consecutive

/-- Both senders release exactly what the ACK covers. -/
theorem onAck_released (base ack : U32) :
    (∀ s : ReliableSender, Consecutive base s.window →
      Released base ack s.window (s.onAck ack).window) ∧
    ∀ s : ReliableControl.Sender, Consecutive base s.window →
      Released base ack s.window (s.onAck ack).window :=
  ⟨fun _ h => h.released ack, fun _ h => h.released ack⟩

/-- A window across the wrap of the numbers. -/
private def wrapping : List OutEntry :=
  [.register 0 (.ctrlData 0xFFFFFFFF 7 2 0 []), .register 0 (.ctrlData 0 7 2 1 [])]

private theorem consecutive_wrapping : Consecutive 0xFFFFFFFF wrapping where
  seq
    | 0, _, rfl => rfl
    | 1, _, rfl => rfl
  short := by decide

theorem onAck_released_wrapping :
    Consecutive 0xFFFFFFFF wrapping ∧
      Released 0xFFFFFFFF 0xFFFFFFFF wrapping
        (ReliableSender.onAck ⟨1, wrapping, false⟩ 0xFFFFFFFF).window ∧
      Released 0xFFFFFFFF 0xFFFFFFFE wrapping
        (ReliableControl.Sender.onAck ⟨1, 8, wrapping, false, false⟩ 0xFFFFFFFE).window :=
  ⟨consecutive_wrapping,
    (onAck_released 0xFFFFFFFF 0xFFFFFFFF).1 ⟨1, wrapping, false⟩ consecutive_wrapping,
    (onAck_released 0xFFFFFFFF 0xFFFFFFFE).2 ⟨1, 8, wrapping, false, false⟩
      consecutive_wrapping⟩

end Kulua
