import Mathlib.Tactic

/-! Lists of records with pairwise distinct keys, seen through lookup by key. A
table that is searched by other criteria and changed in place behaves, up to
lookup, like a map. The last part is about the sizes of maps proper. -/

namespace Kulua.Foundation.Keyed

variable {α κ : Type*} [DecidableEq κ]

/-- Change the first record that passes the test; none if there is no such record. -/
def modifyFirst (p : α → Bool) (f : α → α) : List α → Option (List α)
  | [] => none
  | x :: xs => if p x then some (f x :: xs) else (modifyFirst p f xs).map (x :: ·)

theorem modifyFirst_eq_none {p : α → Bool} {f : α → α} {xs : List α} :
    modifyFirst p f xs = none ↔ ∀ x ∈ xs, p x = false := by
  induction xs with
  | nil => simp [modifyFirst]
  | cons x xs ih =>
      rcases hx : p x with _ | _ <;> simp [modifyFirst, hx, ih]

theorem mem_modifyFirst {p : α → Bool} {f : α → α} {xs ys : List α}
    (h : modifyFirst p f xs = some ys) {y : α} (hy : y ∈ ys) : y ∈ xs ∨ ∃ x ∈ xs, y = f x := by
  induction xs generalizing ys with
  | nil => cases h
  | cons x xs ih =>
      rw [modifyFirst] at h
      split at h
      · cases h
        rcases List.mem_cons.mp hy with rfl | hy
        · exact Or.inr ⟨x, List.mem_cons_self .., rfl⟩
        · exact Or.inl (List.mem_cons_of_mem x hy)
      · obtain ⟨zs, hzs, rfl⟩ := Option.map_eq_some_iff.mp h
        rcases List.mem_cons.mp hy with rfl | hy
        · exact Or.inl (List.mem_cons_self ..)
        · rcases ih hzs hy with hmem | ⟨z, hz, rfl⟩
          · exact Or.inl (List.mem_cons_of_mem x hmem)
          · exact Or.inr ⟨z, List.mem_cons_of_mem x hz, rfl⟩

def lookup (key : α → κ) (xs : List α) (k : κ) : Option α := xs.find? fun x => key x = k

variable {key : α → κ}

theorem key_of_lookup {xs : List α} {k : κ} {x : α} (h : lookup key xs k = some x) :
    key x = k := by simpa using List.find?_some h

theorem mem_of_lookup {xs : List α} {k : κ} {x : α} (h : lookup key xs k = some x) : x ∈ xs :=
  List.mem_of_find?_eq_some h

theorem lookup_eq_none {xs : List α} {k : κ} : lookup key xs k = none ↔ ∀ x ∈ xs, key x ≠ k := by
  simp [lookup]

theorem lookup_of_mem {xs : List α} (distinct : (xs.map key).Nodup) {x : α} (h : x ∈ xs) :
    lookup key xs (key x) = some x := by
  induction xs with
  | nil => cases h
  | cons y ys ih =>
      rw [List.map_cons, List.nodup_cons] at distinct
      rcases List.mem_cons.mp h with rfl | h
      · simp [lookup]
      · have hne : key y ≠ key x := fun he => distinct.1 (he ▸ List.mem_map_of_mem h)
        have := ih distinct.2 h
        simpa [lookup, hne] using this

theorem filter_key_eq {xs : List α} (distinct : (xs.map key).Nodup) {x : α} (hx : x ∈ xs) :
    xs.filter (key · = key x) = [x] := by
  induction xs with
  | nil => cases hx
  | cons y ys ih =>
    rw [List.map_cons, List.nodup_cons] at distinct
    have hy : ∀ z ∈ ys, key z ≠ key y := fun z hz h => distinct.1 (h ▸ List.mem_map_of_mem hz)
    rcases List.mem_cons.mp hx with rfl | hx
    · rw [List.filter_cons_of_pos (by simp), List.filter_eq_nil_iff.mpr (by simpa using hy)]
    · rw [List.filter_cons_of_neg (by simpa using (hy x hx).symm), ih distinct.2 hx]

theorem lookup_eq_some_iff {xs : List α} (distinct : (xs.map key).Nodup) {k : κ} {x : α} :
    lookup key xs k = some x ↔ x ∈ xs ∧ key x = k := by
  constructor
  · exact fun h => ⟨mem_of_lookup h, key_of_lookup h⟩
  · rintro ⟨h, rfl⟩
    exact lookup_of_mem distinct h

/-- The order of the records does not matter. -/
theorem lookup_perm {xs ys : List α} (distinct : (xs.map key).Nodup) (perm : xs.Perm ys) (k : κ) :
    lookup key xs k = lookup key ys k := by
  have distinct' : (ys.map key).Nodup := (perm.map key).nodup_iff.mp distinct
  ext x
  rw [lookup_eq_some_iff distinct, lookup_eq_some_iff distinct', perm.mem_iff]

theorem perm_of_lookup {xs ys : List α} (distinct : (xs.map key).Nodup)
    (distinct' : (ys.map key).Nodup) (h : ∀ k, lookup key xs k = lookup key ys k) : xs.Perm ys := by
  refine (List.perm_ext_iff_of_nodup distinct.of_map distinct'.of_map).mpr fun x => ?_
  have := lookup_eq_some_iff distinct (k := key x) (x := x)
  rw [h, lookup_eq_some_iff distinct'] at this
  simpa using this.symm

theorem lookup_concat (xs : List α) (x : α) (k : κ) :
    lookup key (xs ++ [x]) k =
      (lookup key xs k).or (if key x = k then some x else none) := by
  simp only [lookup, List.find?_append]
  by_cases h : key x = k <;> simp [h]

omit [DecidableEq κ] in
theorem modifyFirst_keys {p : α → Bool} {f : α → α} (keep : ∀ x, p x = true → key (f x) = key x)
    {xs ys : List α} (h : modifyFirst p f xs = some ys) : ys.map key = xs.map key := by
  induction xs generalizing ys with
  | nil => cases h
  | cons x xs ih =>
      rw [modifyFirst] at h
      split at h
      · rename_i hx
        cases h
        simp [keep x hx]
      · obtain ⟨zs, hzs, rfl⟩ := Option.map_eq_some_iff.mp h
        simp [ih hzs]

theorem modifyFirst_fixed {p : α → Bool} {f : α → α} {xs : List α} {x : α}
    (h : xs.find? p = some x) (fixed : f x = x) : modifyFirst p f xs = some xs := by
  induction xs with
  | nil => cases h
  | cons y ys ih =>
      rw [List.find?_cons] at h
      rcases hy : p y with _ | _
      · rw [hy] at h
        simp [modifyFirst, hy, ih h]
      · rw [hy] at h
        obtain rfl := Option.some.inj h
        simp [modifyFirst, hy, fixed]

/-- A change that keeps the keys changes the lookup of the record it is made to. -/
theorem lookup_modifyFirst {p : α → Bool} {f : α → α}
    (keep : ∀ x, p x = true → key (f x) = key x) {xs ys : List α}
    (distinct : (xs.map key).Nodup) (h : modifyFirst p f xs = some ys) :
    ∃ x, xs.find? p = some x ∧
      ∀ k, lookup key ys k = if key x = k then some (f x) else lookup key xs k := by
  induction xs generalizing ys with
  | nil => cases h
  | cons x xs ih =>
      rw [List.map_cons, List.nodup_cons] at distinct
      rw [modifyFirst] at h
      split at h
      · rename_i hx
        cases h
        refine ⟨x, by simp [hx], fun k => ?_⟩
        by_cases hk : key x = k <;> simp [lookup, keep x hx, hk]
      · rename_i hx
        obtain ⟨zs, hzs, rfl⟩ := Option.map_eq_some_iff.mp h
        obtain ⟨y, hy, hlook⟩ := ih distinct.2 hzs
        refine ⟨y, by simpa [hx] using hy, fun k => ?_⟩
        have hne : key x ≠ key y := fun he =>
          distinct.1 (he ▸ List.mem_map_of_mem (List.mem_of_find?_eq_some hy))
        by_cases hk : key x = k
        · have hyk : key y ≠ k := fun h => hne (hk.trans h.symm)
          simp [lookup, hk, hyk]
        · have := hlook k
          simpa [lookup, hk] using this

theorem lookup_map {f : α → α} (keep : ∀ x, key (f x) = key x) (xs : List α) (k : κ) :
    lookup key (xs.map f) k = (lookup key xs k).map f := by
  simp only [lookup, List.find?_map, Function.comp_def, keep]

/-- A view of the records that the test and the change go along with. -/
theorem modifyFirst_map {β : Type*} {p : α → Bool} {f : α → α} {q : β → Bool} {g : β → β}
    (view : α → β) (test : ∀ x, q (view x) = p x) (change : ∀ x, view (f x) = g (view x))
    (xs : List α) : modifyFirst q g (xs.map view) = (modifyFirst p f xs).map (List.map view) := by
  induction xs with
  | nil => rfl
  | cons x xs ih =>
      rw [List.map_cons, modifyFirst, modifyFirst, test]
      split
      · simp [change]
      · simp [ih, Function.comp_def]

/-- Removing a key that is there takes one entry out of a map. -/
theorem size_erase_add_one {ι β : Type*} {cmp : ι → ι → Ordering} [Std.TransCmp cmp]
    {t : Std.TreeMap ι β cmp} {k : ι} (present : t.contains k = true) :
    (t.erase k).size + 1 = t.size := by
  have pos : t.size ≠ 0 := by
    intro hz
    have empty : t.isEmpty = true := by
      rw [Std.TreeMap.isEmpty_eq_size_eq_zero, hz]
      rfl
    rw [Std.TreeMap.contains_of_isEmpty empty] at present
    cases present
  rw [Std.TreeMap.size_erase, if_pos present]
  omega

end Kulua.Foundation.Keyed
