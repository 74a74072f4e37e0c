import B70DualTP.Library.Memory
import B70DualTP.Torch.Distributed

/-! Tensors as entries of a store. A view names a storage and the positions of its
elements, so that an operation that returns its argument, or a view of it, shares it. -/
namespace B70DualTP.Torch
open Library
variable {V O : Type} (num : Numerics V)

/-- The positions are a tensor themselves: they carry the shape, the device and the dtype. -/
structure View where
  positions : Tensor Nat
  storage : Nat
  deriving DecidableEq

namespace View

abbrev shape (v : View) : List Nat := v.positions.shape
abbrev device (v : View) : Device := v.positions.device
abbrev dtype (v : View) : DType := v.positions.dtype

/-- All elements of a tensor, in a storage of their own. -/
def whole (t : Tensor V) (storage : Nat) : View where
  positions := { t with data := List.range t.data.length, wf := List.length_range.trans t.wf }
  storage := storage

def read (m : Memory V) (v : View) : Tensor V :=
  { v.positions.map (m.cell v.storage) with device := v.device, dtype := v.dtype }

/-- The elements follow one another in the storage. -/
def IsContiguous (v : View) : Prop :=
  v.positions.data = List.range' (v.positions.data.headD 0) v.positions.data.length

instance (v : View) : Decidable v.IsContiguous := inferInstanceAs (Decidable (_ = _))

def withPositions (v : View) (positions : Tensor Nat) : View := { v with positions }

theorem read_congr {m m' : Memory V} {v : View} (h : m'.cell v.storage = m.cell v.storage) : v.read m' = v.read m := by
  simp only [read, h]

end View

/-- A rank's program that works on stored tensors. -/
abbrev Stored (V O A : Type) := Effect PyError (Memory V) (Call V O) (fun c => Py c.Resp) A

namespace Stored

def newTensor (t : Tensor V) : Stored V O View := fun m =>
  .ret (.ok (View.whole t m.next), m.alloc num.uninit t.data)

def read (v : View) : Stored V O (Tensor V) := do
  let m ← Effect.get
  return v.read m

def write (v : View) (t : Tensor V) : Stored V O Unit :=
  Effect.modify (·.write v.storage v.positions.data t.data)

def writeAll : List View → List (Tensor V) → Stored V O Unit
  | v :: vs, t :: ts => do
    write v t
    writeAll vs ts
  | _, _ => return ()

def empty (shape : List Nat) (dtype : DType) (device : Device) : Stored V O View :=
  newTensor num (Tensor.empty num shape dtype device)

def emptyEach (dtype : DType) (device : Device) : List (List Nat) → Stored V O (List View)
  | [] => return []
  | shape :: shapes => do
    let v ← empty num shape dtype device
    let vs ← emptyEach dtype device shapes
    return v :: vs

def clone (v : View) : Stored V O View := do
  let t ← read v
  newTensor num t

/-- tensor.to(device, dtype=dtype) is the tensor itself when both already match. -/
def castTo (v : View) (device : Device) (dtype : DType) : Stored V O View :=
  if v.device = device ∧ v.dtype = dtype then return v
  else do
    let t ← read v
    newTensor num (t.castTo num device dtype)

theorem castTo_self (v : View) : (castTo num v v.device v.dtype : Stored V O View) = pure v := if_pos ⟨rfl, rfl⟩

/-- A contiguous tensor is its own contiguous tensor. -/
def contiguous (v : View) : Stored V O View := if v.IsContiguous then return v else clone num v

def movedim (v : View) (source destination : Int) : Py View :=
  v.withPositions <$> v.positions.movedim source destination

/-- A view when the elements are contiguous, a copy otherwise. -/
def reshape (v : View) (shape : List Nat) : Stored V O View := do
  let v ← contiguous num v
  let positions ← v.positions.reshape shape
  return v.withPositions positions

def split (v : View) (sizes : List Nat) : Py (List View) :=
  List.map v.withPositions <$> v.positions.split sizes

def readEach : List View → Stored V O (List (Tensor V))
  | [] => return []
  | v :: vs => do
    let t ← read v
    let ts ← readEach vs
    return t :: ts

def cat (vs : List View) (dim : Nat) : Stored V O View := do
  let ts ← readEach vs
  let t ← Tensor.cat ts dim
  newTensor num t

def call (c : Call V O) : Stored V O c.Resp := Effect.ask c

def allReduce (v : View) (g : ProcessGroup) : Stored V O Unit := do
  let t ← read v
  let reply ← call (.allReduce t g)
  write v reply

def allGatherIntoTensor (output input : View) (g : ProcessGroup) : Stored V O Unit := do
  let o ← read output
  let i ← read input
  let reply ← call (.allGatherIntoTensor o i g)
  write output reply

def allGather (outputs : List View) (input : View) (g : ProcessGroup) : Stored V O Unit := do
  let os ← readEach outputs
  let i ← read input
  let replies ← call (.allGather os i g)
  writeAll outputs replies

def reduceScatterTensor (output input : View) (g : ProcessGroup) : Stored V O Unit := do
  let o ← read output
  let i ← read input
  let reply ← call (.reduceScatterTensor o i g)
  write output reply

def reduceScatter (output : View) (inputs : List View) (g : ProcessGroup) : Stored V O Unit := do
  let o ← read output
  let is ← readEach inputs
  let reply ← call (.reduceScatter o is g)
  write output reply

/-- The tensor has a storage that the memory m does not have. -/
def Fresh (m : Memory V) (v : View) : Prop := m.next ≤ v.storage

/-- From m' on, whatever the collectives reply, every storage of m keeps its contents;
a view that is returned satisfies Q. -/
abbrev Frames {A : Type} (answers : ∀ c : Call V O, Py c.Resp → Prop) (m m' : Memory V) (x : Stored V O A)
    (Q : A → Prop) : Prop := Effect.Holds answers m.Extends m' x fun a _ => Q a

section Frames
variable {answers : ∀ c : Call V O, Py c.Resp → Prop} {m m' : Memory V} (h : m.Extends m')
include h

theorem frames_newTensor (t : Tensor V) : Frames answers m m' (newTensor num t) (Fresh m) :=
  ⟨h.trans (m'.extends_alloc _ _), fun _ hv => by cases hv; exact h.1⟩

theorem frames_read (v : View) : Frames answers m m' (read v) fun _ => True :=
  Effect.holds_bind (Effect.holds_get (Q := fun _ _ => True) h trivial) fun _ _ h' _ =>
    Effect.holds_pure h' trivial

theorem frames_write {v : View} (hv : Fresh m v) (t : Tensor V) : Frames answers m m' (write v t) fun _ => True :=
  Effect.holds_modify (m.write_extends m' hv h _ _) trivial

theorem frames_writeAll {vs : List View} (hvs : ∀ v ∈ vs, Fresh m v) (ts : List (Tensor V)) :
    Frames answers m m' (writeAll vs ts) fun _ => True := by
  induction vs generalizing ts m' with
  | nil => exact Effect.holds_pure h trivial
  | cons v vs ih =>
    cases ts with
    | nil => exact Effect.holds_pure h trivial
    | cons t ts =>
      rw [List.forall_mem_cons] at hvs
      exact Effect.holds_bind (frames_write h hvs.1 t) fun _ _ h' _ => ih h' hvs.2 ts

theorem frames_empty (shape : List Nat) (dtype : DType) (device : Device) :
    Frames answers m m' (empty num shape dtype device) (Fresh m) := frames_newTensor num h _

theorem frames_emptyEach (dtype : DType) (device : Device) (shapes : List (List Nat)) :
    Frames answers m m' (emptyEach num dtype device shapes) fun vs => ∀ v ∈ vs, Fresh m v := by
  induction shapes generalizing m' with
  | nil => exact Effect.holds_pure h (by simp)
  | cons shape shapes ih =>
    apply Effect.holds_bind (frames_empty num h shape dtype device)
    intro v m₁ h₁ hv
    apply Effect.holds_bind (ih h₁)
    intro vs m₂ h₂ hvs
    exact Effect.holds_pure h₂ (List.forall_mem_cons.mpr ⟨hv, hvs⟩)

theorem frames_clone (v : View) : Frames answers m m' (clone num v) (Fresh m) :=
  Effect.holds_bind (frames_read h v) fun t _ h' _ => frames_newTensor num h' t

theorem frames_castTo (v : View) (device : Device) (dtype : DType) :
    Frames answers m m' (castTo num v device dtype) fun w => v.device = device ∧ v.dtype = dtype ∧ w = v ∨ Fresh m w := by
  rw [castTo]
  split
  · rename_i hv
    exact Effect.holds_pure h (.inl ⟨hv.1, hv.2, rfl⟩)
  · apply Effect.holds_bind (frames_read h v)
    intro t _ h' _
    exact Effect.holds_mono (frames_newTensor num h' _) fun w _ hw => .inr hw

theorem frames_contiguous (v : View) : Frames answers m m' (contiguous num v) fun _ => True := by
  rw [contiguous]
  split
  · exact Effect.holds_pure h trivial
  · exact Effect.holds_mono (frames_clone num h v) fun _ _ _ => trivial

theorem frames_reshape (v : View) (shape : List Nat) : Frames answers m m' (reshape num v shape) fun _ => True := by
  apply Effect.holds_bind (frames_contiguous num h v)
  intro w m₁ h₁ _
  refine Effect.holds_bind (Effect.holds_lift (Q := fun _ _ => True) h₁ fun _ _ => trivial) fun ps m₂ h₂ _ => ?_
  exact Effect.holds_pure h₂ trivial

theorem frames_readEach (vs : List View) : Frames answers m m' (readEach vs) fun _ => True := by
  induction vs generalizing m' with
  | nil => exact Effect.holds_pure h trivial
  | cons v vs ih =>
    apply Effect.holds_bind (frames_read h v)
    intro t m₁ h₁ _
    exact Effect.holds_bind (ih h₁) fun ts m₂ h₂ _ => Effect.holds_pure h₂ trivial

theorem frames_cat (vs : List View) (dim : Nat) : Frames answers m m' (cat num vs dim) (Fresh m) := by
  apply Effect.holds_bind (frames_readEach h vs)
  intro ts m₁ h₁ _
  refine Effect.holds_bind (Effect.holds_lift (Q := fun _ _ => True) h₁ fun _ _ => trivial) fun t m₂ h₂ _ => ?_
  exact frames_newTensor num h₂ t

theorem frames_call (c : Call V O) : Frames answers m m' (call c) fun _ => True :=
  Effect.holds_ask h fun _ _ => trivial

theorem frames_lift {A : Type} (x : Py A) :
    Frames answers m m' (Effect.lift x : Stored V O A) fun _ => True :=
  Effect.holds_lift h fun _ _ => trivial

theorem frames_allReduce {v : View} (hv : Fresh m v) (g : ProcessGroup) :
    Frames answers m m' (allReduce v g) fun _ => True := by
  apply Effect.holds_bind (frames_read h v)
  intro t m₁ h₁ _
  exact Effect.holds_bind (frames_call h₁ _) fun reply m₂ h₂ _ => frames_write h₂ hv reply

theorem frames_allGatherIntoTensor {output : View} (ho : Fresh m output) (input : View) (g : ProcessGroup) :
    Frames answers m m' (allGatherIntoTensor output input g) fun _ => True := by
  apply Effect.holds_bind (frames_read h output)
  intro o m₁ h₁ _
  apply Effect.holds_bind (frames_read h₁ input)
  intro i m₂ h₂ _
  exact Effect.holds_bind (frames_call h₂ _) fun reply m₃ h₃ _ => frames_write h₃ ho reply

theorem frames_allGather {outputs : List View} (ho : ∀ v ∈ outputs, Fresh m v) (input : View) (g : ProcessGroup) :
    Frames answers m m' (allGather outputs input g) fun _ => True := by
  apply Effect.holds_bind (frames_readEach h outputs)
  intro os m₁ h₁ _
  apply Effect.holds_bind (frames_read h₁ input)
  intro i m₂ h₂ _
  exact Effect.holds_bind (frames_call h₂ _) fun replies m₃ h₃ _ => frames_writeAll h₃ ho replies

theorem frames_reduceScatterTensor {output : View} (ho : Fresh m output) (input : View) (g : ProcessGroup) :
    Frames answers m m' (reduceScatterTensor output input g) fun _ => True := by
  apply Effect.holds_bind (frames_read h output)
  intro o m₁ h₁ _
  apply Effect.holds_bind (frames_read h₁ input)
  intro i m₂ h₂ _
  exact Effect.holds_bind (frames_call h₂ _) fun reply m₃ h₃ _ => frames_write h₃ ho reply

theorem frames_reduceScatter {output : View} (ho : Fresh m output) (inputs : List View) (g : ProcessGroup) :
    Frames answers m m' (reduceScatter output inputs g) fun _ => True := by
  apply Effect.holds_bind (frames_read h output)
  intro o m₁ h₁ _
  apply Effect.holds_bind (frames_readEach h₁ inputs)
  intro is m₂ h₂ _
  exact Effect.holds_bind (frames_call h₂ _) fun reply m₃ h₃ _ => frames_write h₃ ho reply

end Frames
end Stored
end B70DualTP.Torch
