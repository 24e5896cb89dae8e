import Kulua.Frame
import Kulua.Foundation.Run

/-! `DisplayRegistry.java`: the virtual displays of one client, under ids that the
server hands out itself. A virtual display is known by the id that the system gave it. -/

namespace Kulua
open Foundation

structure DisplayEntry where
  /-- An encoder is attached. -/
  encoder : Bool
  /-- The system's id of the virtual display. -/
  virtualDisplay : Option U32
  deriving DecidableEq, Repr

structure DisplayRegistry where
  displays : Std.TreeMap U32 DisplayEntry
  nextId : U32

namespace DisplayRegistry

def new : DisplayRegistry := ⟨∅, 1⟩

def create (self : DisplayRegistry) : DisplayRegistry × U32 :=
  (⟨self.displays.insert self.nextId ⟨false, none⟩, self.nextId + 1⟩, self.nextId)

/-- Change the entry with the id, if there is one. -/
def update (self : DisplayRegistry) (id : U32) (f : DisplayEntry → DisplayEntry) :
    DisplayRegistry :=
  match self.displays[id]? with
  | none => self
  | some entry => { self with displays := self.displays.insert id (f entry) }

def attachEncoder (self : DisplayRegistry) (id : U32) : DisplayRegistry :=
  self.update id fun entry => { entry with encoder := true }

def attachVirtualDisplay (self : DisplayRegistry) (id virtualDisplay : U32) : DisplayRegistry :=
  self.update id fun entry => { entry with virtualDisplay := some virtualDisplay }

/-- The virtual display attached to a live entry. -/
def attached (self : DisplayRegistry) (id : U32) : Option U32 :=
  self.displays[id]?.bind DisplayEntry.virtualDisplay

/-- `systemDisplayId`: 0 where there is no entry or no virtual display yet. -/
def systemDisplayId (self : DisplayRegistry) (id : U32) : U32 := (self.attached id).getD 0

/-- `destroy`, with the virtual display it releases; without an encoder the call of its
`stop` throws, after the entry was removed. -/
def destroy (self : DisplayRegistry) (id : U32) : DisplayRegistry × Option U32 :=
  match self.displays[id]? with
  | none => (self, none)
  | some entry =>
    ({ self with displays := self.displays.erase id },
      if entry.encoder then entry.virtualDisplay else none)

inductive Op where
  | create
  | attachEncoder (id : U32)
  | attachVirtualDisplay (id virtualDisplay : U32)
  | destroy (id : U32)
  deriving DecidableEq, Repr

def step (self : DisplayRegistry) : Op → DisplayRegistry
  | .create => self.create.1
  | .attachEncoder id => self.attachEncoder id
  | .attachVirtualDisplay id virtualDisplay => self.attachVirtualDisplay id virtualDisplay
  | .destroy id => (self.destroy id).1

theorem displays_update (self : DisplayRegistry) (id : U32) (f : DisplayEntry → DisplayEntry)
    (k : U32) : (self.update id f).displays[k]? =
      if id = k then self.displays[k]?.map f else self.displays[k]? := by
  unfold update
  split
  · rename_i hnone
    split
    · rename_i hk
      rw [← hk, hnone]
      rfl
    · rfl
  · rename_i entry hentry
    rw [Std.TreeMap.getElem?_insert]
    by_cases hk : id = k
    · subst hk
      simp [hentry]
    · simp [hk]

theorem displays_create (self : DisplayRegistry) (k : U32) :
    self.create.1.displays[k]? =
      if self.nextId = k then some ⟨false, none⟩ else self.displays[k]? := by
  simp [create, Std.TreeMap.getElem?_insert]

theorem displays_destroy (self : DisplayRegistry) (id k : U32) :
    (self.destroy id).1.displays[k]? = if id = k then none else self.displays[k]? := by
  unfold destroy
  split
  · rename_i hnone
    split
    · rename_i hk
      rw [← hk, hnone]
    · rfl
  · simp [Std.TreeMap.getElem?_erase]

@[simp] theorem destroy_nextId (self : DisplayRegistry) (id : U32) :
    (self.destroy id).1.nextId = self.nextId := by
  unfold destroy
  split <;> rfl

@[simp] theorem update_nextId (self : DisplayRegistry) (id : U32)
    (f : DisplayEntry → DisplayEntry) : (self.update id f).nextId = self.nextId := by
  unfold update
  split <;> rfl

/-- After `n` creations every live id is one of `1` to `n`. -/
def Issued (self : DisplayRegistry) (n : Nat) : Prop :=
  self.nextId = BitVec.ofNat 32 (n + 1) ∧
    ∀ k, self.displays[k]?.isSome = true → ∃ i, 1 ≤ i ∧ i ≤ n ∧ k = BitVec.ofNat 32 i

theorem Issued.update {self : DisplayRegistry} {n : Nat} (h : self.Issued n) (id : U32)
    (f : DisplayEntry → DisplayEntry) : (self.update id f).Issued n := by
  refine ⟨(self.update_nextId id f).trans h.1, fun k hk => h.2 k ?_⟩
  rw [displays_update] at hk
  split at hk
  · simpa using hk
  · exact hk

theorem Issued.step {self : DisplayRegistry} {n : Nat} (h : self.Issued n) (op : Op) :
    (self.step op).Issued (n + [op].count .create) := by
  cases op with
  | create =>
      refine ⟨?_, fun k hk => ?_⟩
      · simp [DisplayRegistry.step, create, h.1, BitVec.ofNat_add]
      · rw [DisplayRegistry.step, displays_create] at hk
        split at hk
        · rename_i hkey
          exact ⟨n + 1, by omega, by simp, hkey ▸ h.1⟩
        · obtain ⟨i, hlo, hhi, rfl⟩ := h.2 k hk
          exact ⟨i, hlo, by simp; omega, rfl⟩
  | attachEncoder id => exact h.update id _
  | attachVirtualDisplay id virtualDisplay => exact h.update id _
  | destroy id =>
      refine ⟨(self.destroy_nextId id).trans h.1, fun k hk => h.2 k ?_⟩
      rw [DisplayRegistry.step, displays_destroy] at hk
      split at hk
      · cases hk
      · exact hk

theorem issued_run (ops : List Op) :
    (Run.run step new ops).Issued (ops.count .create) := by
  induction ops using List.reverseRecOn with
  | nil => exact ⟨rfl, fun k hk => by simp [new] at hk⟩
  | append_singleton ops op ih =>
      rw [Run.run_append, List.count_append]
      exact ih.step op

/-- Until the ids wrap around, 0 is never the id of a live entry. -/
theorem attached_zero {ops : List Op} (h : ops.count .create < 2 ^ 32) :
    (Run.run step new ops).attached 0 = none := by
  have hissued := issued_run ops
  unfold attached
  rcases hget : (Run.run step new ops).displays[(0 : U32)]? with _ | entry
  · rfl
  · obtain ⟨i, hlo, hhi, hzero⟩ := hissued.2 0 (by rw [hget]; rfl)
    have := congrArg BitVec.toNat hzero
    simp only [BitVec.ofNat_eq_ofNat, BitVec.toNat_ofNat] at this
    omega

end DisplayRegistry
end Kulua
