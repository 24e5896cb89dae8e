import Mathlib.Tactic

/-! A framing of a byte stream: items are encoded one after the other, the stream arrives in
chunks of any size, and after each chunk the decoder takes from the buffer what it can. -/

namespace Kulua.Foundation.Framing

variable {α β ε : Type*}

/-- A decoder takes one item off the buffer, finds the buffer too short, or fails. -/
abbrev Decoder (α β ε : Type*) := List β → Except ε (Option (α × List β))

/-- Call the decoder until it asks for more, at most `fuel` times. -/
def decodeAll (decode : Decoder α β ε) : Nat → List β → Except ε (List α × List β)
  | 0, buf => .ok ([], buf)
  | fuel + 1, buf =>
    match decode buf with
    | .error e => .error e
    | .ok none => .ok ([], buf)
    | .ok (some (a, rest)) => (decodeAll decode fuel rest).map fun r => (a :: r.1, r.2)

/-- The chunks are appended to the buffer one by one, which is decoded after each. -/
def feed (decode : Decoder α β ε) :
    List α × List β → List (List β) → Except ε (List α × List β)
  | r, [] => .ok r
  | (items, buf), chunk :: chunks =>
    match decodeAll decode ((buf ++ chunk).length + 1) (buf ++ chunk) with
    | .error e => .error e
    | .ok (more, rest) => feed decode (items ++ more, rest) chunks

def encodeAll (encode : α → List β) (items : List α) : List β := items.flatMap encode

section Taken
variable {decode : Decoder α β ε} {Good : α → Prop}

theorem decodeAll_good (good : ∀ src a rest, decode src = .ok (some (a, rest)) → Good a) :
    ∀ (fuel : Nat) (buf : List β) (r : List α × List β), decodeAll decode fuel buf = .ok r →
      ∀ a ∈ r.1, Good a := by
  intro fuel
  induction fuel with
  | zero =>
      intro buf r h
      obtain rfl : ([], buf) = r := Except.ok.inj h
      simp
  | succ fuel ih =>
      intro buf r h
      rw [decodeAll] at h
      split at h
      · cases h
      · obtain rfl : ([], buf) = r := Except.ok.inj h
        simp
      · next a rest hdecode =>
          cases hall : decodeAll decode fuel rest with
          | error e =>
              rw [hall] at h
              cases h
          | ok more =>
              rw [hall] at h
              obtain rfl : (a :: more.1, more.2) = r := Except.ok.inj h
              exact List.forall_mem_cons.mpr ⟨good buf a rest hdecode, ih rest more hall⟩

/-- Whatever holds of an item that the decoder takes off some buffer holds of all the items
that come out of a stream. -/
theorem feed_good (good : ∀ src a rest, decode src = .ok (some (a, rest)) → Good a)
    {items : List α} (before : ∀ a ∈ items, Good a) {buf : List β} {chunks : List (List β)}
    {r : List α × List β} (h : feed decode (items, buf) chunks = .ok r) : ∀ a ∈ r.1, Good a := by
  induction chunks generalizing items buf with
  | nil =>
      obtain rfl : (items, buf) = r := Except.ok.inj h
      exact before
  | cons chunk chunks ih =>
      rw [feed] at h
      split at h
      · cases h
      · next more rest hmore =>
          apply ih _ h
          intro a ha
          rcases List.mem_append.mp ha with ha | ha
          · exact before a ha
          · exact decodeAll_good good _ _ _ hmore a ha

end Taken

/-- What the decoder owes the encoder on the valid items: it takes one off the front of
whatever follows, and takes nothing off a part of one. -/
structure Lawful (encode : α → List β) (decode : Decoder α β ε) (Valid : α → Prop) : Prop where
  decode_nil : decode [] = .ok none
  decode_encode : ∀ a rest, Valid a → decode (encode a ++ rest) = .ok (some (a, rest))
  decode_part : ∀ a part, Valid a → part <+: encode a → part ≠ encode a → decode part = .ok none
  encode_ne_nil : ∀ a, encode a ≠ []

/-- The buffer holds a part of the first of the items, and not all of it. -/
def Part (encode : α → List β) : List α → List β → Prop
  | [], buf => buf = []
  | a :: _, buf => buf <+: encode a ∧ buf ≠ encode a

namespace Lawful
variable {encode : α → List β} {decode : Decoder α β ε} {Valid : α → Prop}

/-- The decoder asks for more. -/
theorem decode_of_part (lawful : Lawful encode decode Valid) {items : List α}
    (valid : ∀ a ∈ items, Valid a) {buf : List β} (part : Part encode items buf) :
    decode buf = .ok none := by
  cases items with
  | nil => rw [show buf = [] from part, lawful.decode_nil]
  | cons a items => exact lawful.decode_part a buf (valid a (List.mem_cons_self ..)) part.1 part.2

/-- A prefix of the stream is the encodings of the first items and a part of the next. -/
theorem decodeAll_prefix (lawful : Lawful encode decode Valid) {items : List α}
    (valid : ∀ a ∈ items, Valid a) {buf : List β} (hbuf : buf <+: encodeAll encode items)
    {fuel : Nat} (enough : buf.length < fuel) :
    ∃ done later rest, items = done ++ later ∧ buf = encodeAll encode done ++ rest ∧
      Part encode later rest ∧ decodeAll decode fuel buf = .ok (done, rest) := by
  induction items generalizing buf fuel with
  | nil =>
      obtain rfl : buf = [] := List.prefix_nil.mp hbuf
      obtain ⟨fuel, rfl⟩ := Nat.exists_eq_add_one.mpr (Nat.zero_lt_of_lt enough)
      exact ⟨[], [], [], rfl, rfl, rfl, by rw [decodeAll, lawful.decode_nil]⟩
  | cons a items ih =>
      obtain ⟨fuel, rfl⟩ := Nat.exists_eq_add_one.mpr (Nat.zero_lt_of_lt enough)
      have ha := valid a (List.mem_cons_self ..)
      by_cases hpart : buf <+: encode a ∧ buf ≠ encode a
      · refine ⟨[], a :: items, buf, rfl, rfl, hpart, ?_⟩
        rw [decodeAll, lawful.decode_part a buf ha hpart.1 hpart.2]
      · have hfront : encode a <+: buf := by
          have hall : encode a <+: encodeAll encode (a :: items) :=
            ⟨encodeAll encode items, by simp [encodeAll]⟩
          rcases List.prefix_or_prefix_of_prefix hbuf hall with h | h
          · rw [not_and, not_not] at hpart
            rw [hpart h]
          · exact h
        obtain ⟨tail, rfl⟩ := hfront
        have htail : tail <+: encodeAll encode items := by
          simpa [encodeAll] using hbuf
        have hne := List.length_pos_iff.mpr (lawful.encode_ne_nil a)
        rw [List.length_append] at enough
        obtain ⟨done, later, rest, rfl, rfl, hrest, hdecode⟩ :=
          ih (fun b hb => valid b (List.mem_cons_of_mem a hb)) htail
            (show tail.length < fuel by omega)
        refine ⟨a :: done, later, rest, rfl, by simp [encodeAll], hrest, ?_⟩
        rw [decodeAll, lawful.decode_encode a _ ha]
        simp only [hdecode]
        rfl

theorem part_nil (lawful : Lawful encode decode Valid) (items : List α) :
    Part encode items [] := by
  cases items with
  | nil => rfl
  | cons a items => exact ⟨List.nil_prefix, (lawful.encode_ne_nil a).symm⟩

/-- However a prefix of the stream is cut, the items that it completes come out, and the
bytes after them stay in the buffer. -/
theorem feed_prefix (lawful : Lawful encode decode Valid) {items : List α}
    (valid : ∀ a ∈ items, Valid a) {buf : List β} (part : Part encode items buf)
    {chunks : List (List β)} (hstream : buf ++ chunks.flatten <+: encodeAll encode items)
    (before : List α) :
    ∃ done later rest, items = done ++ later ∧
      buf ++ chunks.flatten = encodeAll encode done ++ rest ∧ Part encode later rest ∧
      feed decode (before, buf) chunks = .ok (before ++ done, rest) := by
  induction chunks generalizing items buf before with
  | nil => exact ⟨[], items, buf, rfl, by simp [encodeAll], part, by simp [feed]⟩
  | cons chunk chunks ih =>
      rw [List.flatten_cons, ← List.append_assoc] at hstream
      have hbuf : buf ++ chunk <+: encodeAll encode items :=
        (List.prefix_append _ _).trans hstream
      obtain ⟨done, later, rest, rfl, hsplit, hrest, hdecode⟩ :=
        lawful.decodeAll_prefix valid hbuf (Nat.lt_succ_self _)
      have hlater : rest ++ chunks.flatten <+: encodeAll encode later := by
        rw [hsplit] at hstream
        simpa [encodeAll] using hstream
      obtain ⟨done', later', rest', rfl, hsplit', hrest', hfeed⟩ :=
        ih (fun a ha => valid a (List.mem_append_right _ ha)) hrest hlater (before ++ done)
      refine ⟨done ++ done', later', rest', by simp, ?_, hrest', ?_⟩
      · rw [List.flatten_cons, ← List.append_assoc, hsplit, List.append_assoc, hsplit']
        simp [encodeAll]
      · rw [feed, hdecode]
        simpa using hfeed

/-- The whole stream gives back the items and leaves nothing. -/
theorem feed_all (lawful : Lawful encode decode Valid) {items : List α}
    (valid : ∀ a ∈ items, Valid a) {chunks : List (List β)}
    (hstream : chunks.flatten = encodeAll encode items) :
    feed decode ([], []) chunks = .ok (items, []) := by
  obtain ⟨done, later, rest, rfl, hsplit, hrest, hfeed⟩ :=
    lawful.feed_prefix valid (lawful.part_nil items)
      (show [] ++ chunks.flatten <+: encodeAll encode items by simp [hstream]) []
  rw [List.nil_append, hstream] at hsplit
  have htail : encodeAll encode later = rest := by simpa [encodeAll] using hsplit
  have hlater : later = [] := by
    cases later with
    | nil => rfl
    | cons a later =>
        have hrest' : encode a ++ encodeAll encode later = rest := htail
        have hlen := hrest.1.length_le
        rw [← hrest', List.length_append] at hlen
        have hnil : encodeAll encode later = [] := List.length_eq_zero_iff.mp (by omega)
        rw [hnil, List.append_nil] at hrest'
        exact absurd hrest'.symm hrest.2
  subst hlater
  rw [hfeed, ← htail]
  simp [encodeAll]

end Lawful
end Kulua.Foundation.Framing
