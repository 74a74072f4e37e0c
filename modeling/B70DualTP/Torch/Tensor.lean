import B70DualTP.Library.NDArray

/-! Tensors as values: a row-major array with a device and a dtype, and the tensor
operations the communicators use. Storage identity is a separate model. -/
namespace B70DualTP.Torch
open Library
variable {α V : Type}

/-- The exceptions the modelled functions raise, with the texts they carry. -/
inductive PyError where
  | assertionError (message : String)
  | attributeError
  | indexError
  | typeError
  | unboundLocalError
  | valueError (message : String)
  | runtimeError
  | notImplementedError (message : String)
  /-- A torch.distributed call rejected its arguments. -/
  | distributedError
  deriving DecidableEq, Repr

abbrev Py := Except PyError

def assert (cond : Prop) [Decidable cond] (message : String) : Py Unit :=
  if cond then .ok () else .error (.assertionError message)

theorem bind_eq_ok {A B : Type} {m : Py A} {f : A → Py B} {b : B} (h : m >>= f = .ok b) :
    ∃ a, m = .ok a ∧ f a = .ok b := by
  cases m with
  | error e => cases h
  | ok a => exact ⟨a, rfl, h⟩

/-- The position a possibly negative index denotes in a sequence of length n. -/
def wrapIndex (n : Nat) (i : Int) : Option Nat :=
  let j := if i < 0 then i + n else i
  if 0 ≤ j ∧ j < n then some j.toNat else none

def getItem (l : List α) (i : Int) : Py α :=
  match (wrapIndex l.length i).bind (l[·]?) with
  | some a => .ok a
  | none => .error .indexError

def sliceBound (n : Nat) (i : Int) : Nat := if i < 0 then (i + n).toNat else i.toNat
def sliceTo (l : List α) (stop : Int) : List α := l.take (sliceBound l.length stop)
def sliceFrom (l : List α) (start : Int) : List α := l.drop (sliceBound l.length start)

theorem wrapIndex_natCast {n k : Nat} (h : k < n) : wrapIndex n k = some k := by
  have hk : ¬ (k : Int) < 0 := by omega
  simp [wrapIndex, hk, h]

theorem getItem_of_wrapIndex {l : List α} {i : Int} {k : Nat} (hi : wrapIndex l.length i = some k)
    (h : k < l.length) : getItem l i = .ok l[k] := by
  simp [getItem, hi, h]

theorem getItem_natCast {l : List α} {k : Nat} (h : k < l.length) : getItem l k = .ok l[k] :=
  getItem_of_wrapIndex (wrapIndex_natCast h) h

theorem getItem_zero (a : α) (l : List α) : getItem (a :: l) 0 = .ok a :=
  getItem_natCast (l := a :: l) (k := 0) (Nat.succ_pos _)

theorem exists_getItem_iff {l : List α} {i : Int} :
    (∃ a, getItem l i = .ok a) ↔ -(l.length : Int) ≤ i ∧ i < l.length := by
  simp only [getItem, wrapIndex]
  constructor
  · rintro ⟨a, ha⟩
    split at ha
    · rename_i b hb
      split at hb
      all_goals split at hb
      all_goals first | omega | simp at hb
    · cases ha
  · rintro ⟨h₁, h₂⟩
    split
    · rename_i b hb
      exact ⟨b, rfl⟩
    · rename_i hb
      split at hb
      all_goals
        rw [if_pos (by omega), Option.bind_some, List.getElem?_eq_none_iff] at hb
        omega

theorem getItem_map {β : Type} (f : α → β) (l : List α) (i : Int) : getItem (l.map f) i = (getItem l i).map f := by
  simp only [getItem, List.length_map]
  cases wrapIndex l.length i with
  | none => rfl
  | some k => cases hk : l[k]? <;> simp [hk, Except.map]

theorem getItem_mem {l : List α} {i : Int} {a : α} (h : getItem l i = .ok a) : a ∈ l := by
  simp only [getItem] at h
  split at h
  · rename_i b hb
    cases h
    obtain ⟨k, -, hk⟩ := Option.bind_eq_some_iff.mp hb
    exact List.mem_of_getElem? hk
  · cases h

@[simp] theorem sliceBound_natCast (n k : Nat) : sliceBound n k = k := by
  have hk : ¬ (k : Int) < 0 := by omega
  simp [sliceBound, hk]

@[simp] theorem sliceTo_natCast (l : List α) (k : Nat) : sliceTo l k = l.take k := by simp [sliceTo]
@[simp] theorem sliceFrom_natCast (l : List α) (k : Nat) : sliceFrom l k = l.drop k := by simp [sliceFrom]

inductive DType where
  | float16 | bfloat16 | float32 | int64 | uint8
  | other (name : String)
  deriving DecidableEq, Repr

/-- The dtypes that gloo cannot reduce. -/
def DType.isHalf (d : DType) : Bool := d == .float16 || d == .bfloat16

inductive Accelerator where
  | xpu | cuda
  | outOfTree (name : String)
  deriving DecidableEq, Repr

inductive DeviceType where
  | cpu
  | accelerator (kind : Accelerator)
  deriving DecidableEq, Repr

inductive Device where
  | cpu
  | accelerator (kind : Accelerator) (index : Nat)
  deriving DecidableEq, Repr

def Device.type : Device → DeviceType
  | .cpu => .cpu
  | .accelerator kind _ => .accelerator kind

/-- A device named by its type alone is the one with the caller's index. -/
def DeviceType.at (index : Nat) : DeviceType → Device
  | .cpu => .cpu
  | .accelerator kind => .accelerator kind index

/-- Element arithmetic: conversion between dtypes, addition in a dtype, and what
uninitialised memory holds. -/
structure Numerics (V : Type) where
  cast : DType → DType → V → V
  add : DType → V → V → V
  uninit : V

def intNumerics : Numerics Int := ⟨fun _ _ v => v, fun _ a b => a + b, 0⟩

structure Tensor (V : Type) extends NDArray V where
  device : Device
  dtype : DType
  deriving DecidableEq, Repr

namespace Tensor

@[ext] theorem ext' {s t : Tensor V} (hs : s.shape = t.shape) (hd : s.data = t.data)
    (hv : s.device = t.device) (ht : s.dtype = t.dtype) : s = t := by
  obtain ⟨⟨_, _, _⟩, _, _⟩ := s
  obtain ⟨⟨_, _, _⟩, _, _⟩ := t
  cases hs; cases hd; cases hv; cases ht
  rfl

def isCpu (t : Tensor V) : Bool := t.device == .cpu

theorem isCpu_congr {t u : Tensor V} (h : u.device.type = t.device.type) : u.isCpu = t.isCpu := by
  simp only [isCpu]
  cases hu : u.device <;> cases ht : t.device <;> rw [hu, ht] at h <;> simp_all [Device.type]

def withArray (t : Tensor V) (a : NDArray V) : Tensor V := { a with device := t.device, dtype := t.dtype }

@[simp] theorem withArray_shape (t : Tensor V) (a : NDArray V) : (t.withArray a).shape = a.shape := rfl
@[simp] theorem withArray_data (t : Tensor V) (a : NDArray V) : (t.withArray a).data = a.data := rfl
@[simp] theorem withArray_device (t : Tensor V) (a : NDArray V) : (t.withArray a).device = t.device := rfl
@[simp] theorem withArray_dtype (t : Tensor V) (a : NDArray V) : (t.withArray a).dtype = t.dtype := rfl

/-- tensor.to(device, dtype=dtype), as a value. -/
def castTo (num : Numerics V) (t : Tensor V) (device : Device) (dtype : DType) : Tensor V :=
  { (if t.dtype = dtype then t.toNDArray else t.map (num.cast t.dtype dtype)) with device, dtype }

/-- tensor.to(device) keeps the dtype. -/
def toDevice (t : Tensor V) (device : Device) : Tensor V := { t with device }

def empty (num : Numerics V) (shape : List Nat) (dtype : DType) (device : Device) : Tensor V :=
  { shape, data := List.replicate shape.prod num.uninit, wf := by simp, device, dtype }

/-- Write elements into a tensor in row-major order. -/
def fill (t : Tensor V) (xs : List V) : Py (Tensor V) :=
  match NDArray.ofData? t.shape xs with
  | some a => .ok (t.withArray a)
  | none => .error .distributedError

def movedim (t : Tensor V) (source destination : Int) : Py (Tensor V) :=
  match wrapIndex t.shape.length source, wrapIndex t.shape.length destination with
  | some src, some dst =>
    match t.movedim? src dst with
    | some a => .ok (t.withArray a)
    | none => .error .indexError
  | _, _ => .error .indexError

/-- A contiguous tensor with the same elements: the same value. -/
def contiguous (t : Tensor V) : Tensor V := t

def reshape (t : Tensor V) (shape : List Nat) : Py (Tensor V) :=
  match t.reshape? shape with
  | some a => .ok (t.withArray a)
  | none => .error .runtimeError

/-- tensor.reshape(rows, -1) -/
def reshapeRows (t : Tensor V) (rows : Nat) : Py (Tensor V) :=
  if rows ≠ 0 ∧ t.numel % rows = 0 then t.reshape [rows, t.numel / rows] else .error .runtimeError

def select (t : Tensor V) (i : Nat) : Py (Tensor V) :=
  match t.shape with
  | [] => .error .indexError
  | n :: s =>
    if i < n then
      match NDArray.ofData? s (block s.prod i t.data) with
      | some a => .ok (t.withArray a)
      | none => .error .indexError
    else .error .indexError

def cat (ts : List (Tensor V)) (dim : Nat) : Py (Tensor V) :=
  match ts, NDArray.cat? dim (ts.map (·.toNDArray)) with
  | t :: _, some a => .ok (t.withArray a)
  | _, _ => .error .runtimeError

def split (t : Tensor V) (sizes : List Nat) : Py (List (Tensor V)) :=
  match t.split? sizes with
  | some as => .ok (as.map t.withArray)
  | none => .error .runtimeError

section Lemmas
variable (num : Numerics V) (t : Tensor V) (device : Device) (dtype : DType)

@[simp] theorem castTo_shape : (t.castTo num device dtype).shape = t.shape := by
  simp only [castTo]; split <;> rfl
@[simp] theorem castTo_device : (t.castTo num device dtype).device = device := rfl
@[simp] theorem castTo_dtype : (t.castTo num device dtype).dtype = dtype := rfl
@[simp] theorem toDevice_shape : (t.toDevice device).shape = t.shape := rfl
@[simp] theorem toDevice_data : (t.toDevice device).data = t.data := rfl
@[simp] theorem toDevice_device : (t.toDevice device).device = device := rfl
@[simp] theorem toDevice_dtype : (t.toDevice device).dtype = t.dtype := rfl
@[simp] theorem empty_shape (s : List Nat) : (empty num s dtype device).shape = s := rfl
@[simp] theorem empty_device (s : List Nat) : (empty num s dtype device).device = device := rfl
@[simp] theorem empty_dtype (s : List Nat) : (empty num s dtype device).dtype = dtype := rfl

theorem castTo_data_same : (t.castTo num device t.dtype).data = t.data := by simp [castTo]

theorem castTo_data_cast (h : t.dtype ≠ dtype) :
    (t.castTo num device dtype).data = t.data.map (num.cast t.dtype dtype) := by simp [castTo, h]

theorem castTo_data : (t.castTo num device dtype).data =
    if t.dtype = dtype then t.data else t.data.map (num.cast t.dtype dtype) := by
  rw [castTo]
  split <;> rfl

variable {t}

theorem fill_eq_ok {xs : List V} (h : xs.length = t.shape.prod) :
    t.fill xs = .ok (t.withArray ⟨t.shape, xs, h⟩) := by simp [fill, NDArray.ofData?_eq_some h]

theorem fill_eq_error {xs : List V} (h : xs.length ≠ t.shape.prod) :
    t.fill xs = .error .distributedError := by simp [fill, NDArray.ofData?_eq_none h]

theorem fill_ok {xs : List V} {u : Tensor V} (h : t.fill xs = .ok u) :
    u.shape = t.shape ∧ u.data = xs ∧ u.device = t.device ∧ u.dtype = t.dtype := by
  by_cases hx : xs.length = t.shape.prod
  · rw [fill_eq_ok hx] at h
    cases h
    exact ⟨rfl, rfl, rfl, rfl⟩
  · rw [fill_eq_error hx] at h
    cases h

theorem reshape_eq_ok {s : List Nat} (h : t.shape.prod = s.prod) :
    t.reshape s = .ok (t.withArray ⟨s, t.data, t.wf.trans h⟩) := by
  simp [reshape, NDArray.reshape?, NDArray.ofData?_eq_some (t.wf.trans h)]

theorem movedim_ok {i j : Int} {u : Tensor V} (h : t.movedim i j = .ok u) :
    u.device = t.device ∧ u.dtype = t.dtype := by
  simp only [movedim] at h
  repeat' split at h
  all_goals cases h
  exact ⟨rfl, rfl⟩

theorem split_ok {sizes : List Nat} {us : List (Tensor V)} (h : t.split sizes = .ok us) :
    ∀ u ∈ us, u.device = t.device ∧ u.dtype = t.dtype := by
  simp only [split] at h
  split at h
  · cases h
    intro u hu
    obtain ⟨a, -, rfl⟩ := List.mem_map.mp hu
    exact ⟨rfl, rfl⟩
  · cases h

theorem cat_ok {ts : List (Tensor V)} {dim : Nat} {u : Tensor V} (h : cat ts dim = .ok u) :
    ∃ t ∈ ts, u.device = t.device ∧ u.dtype = t.dtype := by
  simp only [cat] at h
  split at h
  · cases h
    exact ⟨_, List.mem_cons_self, rfl, rfl⟩
  · cases h

theorem cat_toDevice (ts : List (Tensor V)) (dim : Nat) (device : Device) :
    cat (ts.map (·.toDevice device)) dim = (cat ts dim).map (·.toDevice device) := by
  cases ts with
  | nil => rfl
  | cons t ts =>
    have ha : ((t :: ts).map (·.toDevice device)).map (·.toNDArray) = (t :: ts).map (·.toNDArray) := by
      rw [List.map_map]
      rfl
    simp only [cat, ha]
    cases NDArray.cat? dim ((t :: ts).map (·.toNDArray)) <;> rfl

end Lemmas
end Tensor
end B70DualTP.Torch
