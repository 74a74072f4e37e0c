import B70DualTP.Coordinator.GroupCoordinator
import Mathlib.Data.Nat.Digits.Lemmas
import Mathlib.Logic.Equiv.List
import Mathlib.Tactic.DeriveEncodable

/-! Point-to-point transfer of objects and tensor dictionaries: send_object, recv_object,
isend_tensor_dict, irecv_tensor_dict and their blocking forms. -/
namespace B70DualTP.Coordinator
open Library Torch Communicator
variable {V X : Type} (num : Numerics V)

/-- pickle and the integer elements of a tensor. -/
structure Codec (V O : Type) where
  dumps : O → List V
  loads : List V → Option O
  ofNat : Nat → V
  toNat : V → Nat

/-- The serialized object as a tensor of bytes. -/
def Codec.objectTensor {O : Type} (codec : Codec V O) (obj : O) : Tensor V :=
  { shape := [(codec.dumps obj).length], data := codec.dumps obj, wf := by simp, device := .cpu, dtype := .uint8 }

def Codec.sizeTensor {O : Type} (codec : Codec V O) (obj : O) : Tensor V :=
  { shape := [1], data := [codec.ofNat (codec.objectTensor obj).numel], wf := rfl, device := .cpu, dtype := .int64 }

/-- all_gather_tensors: the override for some keys. -/
abbrev Overrides := Option (List (String × Bool))

/-- A value of the received dictionary whose tensor is still arriving. -/
inductive Pending (V X : Type) where
  | ready (v : Value V X)
  | whole (buffer : Tensor V) (handle : Handle)
  /-- This rank's slice; the all-gather of the postprocess step restores the shape. -/
  | slice (buffer : Tensor V) (handle : Handle) (origShape : List Nat)
  deriving DecidableEq

namespace GroupCoordinator
variable (process : Process) (self : GroupCoordinator) (codec : Codec V (MetadataList X))

def sendObject {O : Type} (codec : Codec V O) (obj : O) (dst : Int) : Dist V (MetadataList X) Unit := do
  self.assertDst dst
  assert (dst ≠ self.rankInGroup)
    "Invalid destination rank. Destination rank is the same as the current rank."
  let dstRank ← getItem self.ranks dst
  Dist.send (codec.sizeTensor obj) self.cpuGroup dstRank
  Dist.send (codec.objectTensor obj) self.cpuGroup dstRank

def item (t : Tensor V) : Py V :=
  match t.data with
  | [v] => .ok v
  | _ => .error .runtimeError

def recvObject {O : Type} (codec : Codec V O) (src : Int) : Dist V (MetadataList X) O := do
  self.assertSrc src
  assert (src ≠ self.rankInGroup) "Invalid source rank. Source rank is the same as the current rank."
  let srcRank ← getItem self.ranks src
  -- each reply is the filled tensor and the rank it came from
  let sizeReply ← Dist.recv (.empty num [1] .int64 .cpu) self.cpuGroup srcRank
  let size ← item sizeReply.1
  let objectReply ← Dist.recv (.empty num [codec.toNat size] .uint8 .cpu) self.cpuGroup srcRank
  assert (objectReply.2 = sizeReply.2) "Received object sender rank does not match the size sender rank."
  match codec.loads objectReply.1.data with
  | some obj => return obj
  | none => Script.raise .runtimeError

def shouldUseAllGather (key : String) (numel : Nat) (allGatherGroup : Option GroupCoordinator)
    (allGatherTensors : Overrides) : Bool :=
  match allGatherGroup with
  | none => false
  | some group =>
    let useAllGather := numel % group.worldSize == 0
    match allGatherTensors with
    | none => useAllGather
    | some overrides => (overrides.lookup key).getD useAllGather

/-- tensor.reshape(all_gather_size, -1)[all_gather_rank] -/
def sliceFor (allGatherGroup : Option GroupCoordinator) (tensor : Tensor V) : Py (Tensor V) := do
  let rows ← tensor.reshapeRows (allGatherGroup.elim 1 (·.worldSize))
  rows.select (allGatherGroup.elim 0 (·.rankInGroup))

theorem sliceFor_eq (group : GroupCoordinator) {tensor : Tensor V} (h : group.worldSize ∣ tensor.numel) :
    ∃ u, sliceFor (some group) tensor = .ok u ∧ u.shape = [tensor.numel / group.worldSize] ∧
      u.data = block (tensor.numel / group.worldSize) group.rankInGroup tensor.data ∧
      u.device = tensor.device ∧ u.dtype = tensor.dtype := by
  have hpos := group.worldSize_pos
  have hmul : group.worldSize * (tensor.numel / group.worldSize) = tensor.numel := Nat.mul_div_cancel' h
  have hrows : tensor.shape.prod = [group.worldSize, tensor.numel / group.worldSize].prod := by
    simpa [NDArray.numel] using hmul.symm
  have hlt : group.rankInGroup < group.worldSize := group.rank_lt
  have hblock : (block (tensor.numel / group.worldSize) group.rankInGroup tensor.data).length =
      [tensor.numel / group.worldSize].prod := by
    rw [List.prod_singleton]
    apply length_block
    rw [tensor.wf, ← NDArray.numel]
    calc (group.rankInGroup + 1) * (tensor.numel / group.worldSize)
        ≤ group.worldSize * (tensor.numel / group.worldSize) := Nat.mul_le_mul_right _ hlt
      _ ≤ tensor.numel := hmul.le
  refine ⟨tensor.withArray ⟨_, _, hblock⟩, ?_, rfl, rfl, rfl, rfl⟩
  have hreshape : tensor.reshapeRows group.worldSize =
      tensor.reshape [group.worldSize, tensor.numel / group.worldSize] :=
    if_pos ⟨hpos.ne', Nat.mod_eq_zero_of_dvd h⟩
  change (tensor.reshapeRows group.worldSize >>= fun rows => rows.select group.rankInGroup) = _
  rw [hreshape, Tensor.reshape_eq_ok hrows]
  simp only [Bind.bind, Except.bind, Tensor.select, Tensor.withArray_shape, if_pos hlt, Tensor.withArray_data]
  rw [NDArray.ofData?_eq_some (by simpa using hblock)]
  simp [Tensor.withArray]

theorem sliceFor_error (group : GroupCoordinator) {tensor : Tensor V} (h : ¬ group.worldSize ∣ tensor.numel) :
    sliceFor (some group) tensor = .error .runtimeError := by
  have hmod : ¬ tensor.numel % group.worldSize = 0 := fun hm => h (Nat.dvd_of_mod_eq_zero hm)
  simp [sliceFor, Tensor.reshapeRows, hmod, Bind.bind, Except.bind]

variable (allGatherGroup : Option GroupCoordinator) (allGatherTensors : Overrides)

/-- The part of a tensor that this rank sends. -/
def outgoing (key : String) (tensor : Tensor V) : Py (Tensor V) :=
  if shouldUseAllGather key tensor.numel allGatherGroup allGatherTensors then sliceFor allGatherGroup tensor
  else .ok tensor

def isendTensors (dst : Int) : List (String × Tensor V) → Dist V (MetadataList X) (List Handle)
  | [] => return []
  | (key, tensor) :: tensors => do
    if tensor.numel = 0 then isendTensors dst tensors
    else
      let tensor ← outgoing allGatherGroup allGatherTensors key tensor
      let dstRank ← getItem self.ranks dst
      let handle ← Dist.isend tensor (self.commGroup tensor) dstRank
      return handle :: (← isendTensors dst tensors)

def isendTensorDict (tensorDict : TensorDict V X) (dst : Option Int) :
    Dist V (MetadataList X) (List Handle) := do
  if self.worldSize ≤ 1 then return []
  let dst := dst.getD ((self.rankInGroup + 1) % self.worldSize : Nat)
  self.assertDst dst
  let (metadataList, tensorList) := splitTensorDict tensorDict
  self.sendObject codec metadataList dst
  assert (tensorDict.tensorKeys.length = tensorList.length) ""
  self.isendTensors allGatherGroup allGatherTensors dst (tensorDict.tensorKeys.zip tensorList)

def waitAll : List Handle → Dist V (MetadataList X) Unit
  | [] => return ()
  | handle :: handles => do
    Dist.waitSend handle
    waitAll handles

def sendTensorDict (tensorDict : TensorDict V X) (dst : Option Int) :
    Dist V (MetadataList X) (Option (Entries V X)) := do
  if !process.isInitialized ∨ self.worldSize = 1 then return some tensorDict.entries
  waitAll (← self.isendTensorDict codec allGatherGroup allGatherTensors tensorDict dst)
  return none

def irecvEntries (src : Int) : List (String × MetaValue X) →
    Dist V (MetadataList X) (List (String × Pending V X))
  | [] => return []
  | (key, .object x) :: items => return (key, .ready (.other (.object x))) :: (← irecvEntries src items)
  | (key, .metadata m) :: items => do
    let fullTensor := m.empty num process.currentDevice
    if fullTensor.numel = 0 then
      return (key, .ready (.tensor fullTensor)) :: (← irecvEntries src items)
    if shouldUseAllGather key fullTensor.numel allGatherGroup allGatherTensors then
      let sliceTensor ← sliceFor allGatherGroup fullTensor
      let srcRank ← getItem self.ranks src
      let handle ← Dist.irecv sliceTensor (self.commGroup sliceTensor) srcRank
      return (key, .slice sliceTensor handle fullTensor.shape) :: (← irecvEntries src items)
    let srcRank ← getItem self.ranks src
    let handle ← Dist.irecv fullTensor (self.commGroup fullTensor) srcRank
    return (key, .whole fullTensor handle) :: (← irecvEntries src items)

/-- The received dictionary with its handles and postprocess functions, or None. -/
def irecvTensorDict (src : Option Int) : Dist V (MetadataList X) (Option (List (String × Pending V X))) := do
  if !process.isInitialized ∨ self.worldSize = 1 then return none
  let src := src.getD (((self.rankInGroup : Int) - 1) % self.worldSize)
  self.assertSrc src
  let recvMetadataList ← self.recvObject num codec src
  return some (← self.irecvEntries num process allGatherGroup allGatherTensors src recvMetadataList.items)

def waitEntries : List (String × Pending V X) → Dist V (MetadataList X) (List (String × Pending V X))
  | [] => return []
  | (key, .ready v) :: entries => return (key, .ready v) :: (← waitEntries entries)
  | (key, .whole buffer handle) :: entries => do
    let received ← Dist.waitRecv buffer handle
    return (key, .whole received handle) :: (← waitEntries entries)
  | (key, .slice buffer handle origShape) :: entries => do
    let received ← Dist.waitRecv buffer handle
    return (key, .slice received handle origShape) :: (← waitEntries entries)

def postprocess : List (String × Pending V X) → Dist V (MetadataList X) (Entries V X)
  | [] => return []
  | (key, .ready v) :: entries => return (key, v) :: (← postprocess entries)
  | (key, .whole tensor _) :: entries => return (key, .tensor tensor) :: (← postprocess entries)
  | (key, .slice tensor _ origShape) :: entries => do
    match allGatherGroup with
    | none => Script.raise (.assertionError "")
    | some group =>
      let gathered ← group.allGather num process tensor 0
      let full ← gathered.reshape origShape
      return (key, .tensor full) :: (← postprocess entries)

def recvTensorDict (src : Option Int) : Dist V (MetadataList X) (Option (Entries V X)) := do
  match ← self.irecvTensorDict num process codec allGatherGroup allGatherTensors src with
  | none => return none
  | some entries => return some (← postprocess num process allGatherGroup (← waitEntries entries))

end GroupCoordinator

instance encodableChar : Encodable Char := Encodable.ofLeftInverse Char.toNat Char.ofNat Char.ofNat_toNat
instance encodableString : Encodable String :=
  Encodable.ofLeftInverse String.toList String.ofList fun _ => String.ofList_toList

deriving instance Encodable for DType, Accelerator, DeviceType
deriving instance Encodable for TensorMetadata
deriving instance Encodable for MetaValue

/-- Metadata lists whose other objects are integers, as bytes. -/
def byteCodec : Codec Int (MetadataList Int) where
  dumps m := (Nat.digits 256 (Encodable.encode m.items)).map Int.ofNat
  loads bytes :=
    let items : Option (List (String × MetaValue Int)) := Encodable.decode (Nat.ofDigits 256 (bytes.map Int.toNat))
    items.bind fun items => if h : (items.map Prod.fst).Nodup then some ⟨items, h⟩ else none
  ofNat n := n
  toNat v := v.toNat

theorem byteCodec_loads (m : MetadataList Int) : byteCodec.loads (byteCodec.dumps m) = some m := by
  have hid : Int.toNat ∘ Int.ofNat = id := rfl
  simp only [byteCodec, List.map_map, hid, List.map_id, Nat.ofDigits_digits]
  simp [m.nodup]

end B70DualTP.Coordinator
