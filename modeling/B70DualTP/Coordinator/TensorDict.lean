import B70DualTP.Torch.Tensor

/-! Tensor dictionaries, the metadata that travels ahead of their tensors, and the
splitting of a dictionary into the two. -/
namespace B70DualTP.Coordinator
open Library Torch
variable {V X : Type}

/-- What the receiver needs to allocate a tensor. Only the device type is sent: the
receiving side sets the device index. -/
structure TensorMetadata where
  device : DeviceType
  dtype : DType
  size : List Nat
  deriving DecidableEq, Repr

/-- An entry of a metadata list. -/
inductive MetaValue (X : Type) where
  | metadata (m : TensorMetadata)
  | object (x : X)
  deriving DecidableEq, Repr

/-- A value of a tensor dictionary: a tensor, or any other Python value. -/
inductive Value (V X : Type) where
  | tensor (t : Tensor V)
  | other (v : MetaValue X)
  deriving DecidableEq

/-- Items of a dictionary in insertion order. -/
abbrev Entries (V X : Type) := List (String × Value V X)

structure TensorDict (V X : Type) where
  entries : Entries V X
  nodup : (entries.map Prod.fst).Nodup
  deriving DecidableEq

/-- The metadata list of some dictionary: its keys are distinct. -/
structure MetadataList (X : Type) where
  items : List (String × MetaValue X)
  nodup : (items.map Prod.fst).Nodup
  deriving DecidableEq, Repr

def metadataOf (t : Tensor V) : TensorMetadata := ⟨t.device.type, t.dtype, t.shape⟩

def Value.toMeta : Value V X → MetaValue X
  | .tensor t => .metadata (metadataOf t)
  | .other v => v

def Value.tensor? : Value V X → Option (Tensor V)
  | .tensor t => some t
  | .other _ => none

/-- The metadata list and the tensor list of a dictionary. -/
def splitTensorDict (tensorDict : TensorDict V X) : MetadataList X × List (Tensor V) :=
  (⟨tensorDict.entries.map fun p => (p.1, p.2.toMeta), by
      rw [List.map_map]
      exact tensorDict.nodup⟩,
    tensorDict.entries.filterMap (·.2.tensor?))

/-- tensor_keys in isend_tensor_dict -/
def TensorDict.tensorKeys (tensorDict : TensorDict V X) : List String :=
  tensorDict.entries.filterMap fun p => p.2.tensor?.map fun _ => p.1

/-- torch.empty on the device type of the metadata; index is the current device. -/
def TensorMetadata.empty (num : Numerics V) (index : Nat) (m : TensorMetadata) : Tensor V :=
  .empty num m.size m.dtype (m.device.at index)

def keyedTensors : Entries V X → List (String × Tensor V)
  | [] => []
  | (key, .tensor t) :: entries => (key, t) :: keyedTensors entries
  | (_, .other _) :: entries => keyedTensors entries

theorem mem_keyedTensors {entries : Entries V X} {key : String} {t : Tensor V} :
    (key, t) ∈ keyedTensors entries ↔ (key, .tensor t) ∈ entries := by
  induction entries with
  | nil => simp [keyedTensors]
  | cons p entries ih =>
    obtain ⟨key', v⟩ := p
    cases v with
    | tensor u => simp [keyedTensors, ih]
    | other v => simp [keyedTensors, ih]

theorem map_snd_keyedTensors (tensorDict : TensorDict V X) :
    (keyedTensors tensorDict.entries).map Prod.snd = (splitTensorDict tensorDict).2 := by
  simp only [splitTensorDict]
  induction tensorDict.entries with
  | nil => rfl
  | cons p entries ih =>
    obtain ⟨key, v⟩ := p
    cases v with
    | tensor t => exact congrArg _ ih
    | other v => exact ih

theorem zip_tensorKeys (tensorDict : TensorDict V X) :
    tensorDict.tensorKeys.zip (splitTensorDict tensorDict).2 = keyedTensors tensorDict.entries := by
  simp only [TensorDict.tensorKeys, splitTensorDict]
  induction tensorDict.entries with
  | nil => rfl
  | cons p entries ih =>
    obtain ⟨key, v⟩ := p
    cases v with
    | tensor t => exact congrArg _ ih
    | other v => exact ih

theorem length_tensorKeys (tensorDict : TensorDict V X) :
    tensorDict.tensorKeys.length = (splitTensorDict tensorDict).2.length := by
  simp only [TensorDict.tensorKeys, splitTensorDict]
  induction tensorDict.entries with
  | nil => rfl
  | cons p entries ih =>
    obtain ⟨key, v⟩ := p
    cases v with
    | tensor t => exact congrArg Nat.succ ih
    | other v => exact ih

end B70DualTP.Coordinator
