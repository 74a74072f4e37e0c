import B70DualTP.Communicator.Base

/-! xpu_communicator.py: every collective of the XPU communicator, with its
host-staged branch and its device branch. -/
namespace B70DualTP.Communicator
open Library Torch
variable {V O : Type} (num : Numerics V)

structure XpuCommunicator extends DeviceCommunicatorBase where
  hoststaged : Bool
  deriving DecidableEq, Repr

/-- One tensor, or the list of tensors that all_gatherv also accepts. -/
inductive TensorArg (V : Type) where
  | one (tensor : Tensor V)
  | many (tensors : List (Tensor V))
  deriving DecidableEq

/-- The dtype a reduction is carried out in on the host: gloo cannot reduce half floats. -/
def reduceDType (dtype : DType) : DType := if dtype.isHalf then .float32 else dtype

namespace XpuCommunicator
variable (self : XpuCommunicator)

abbrev worldSize : Nat := self.toDeviceCommunicatorBase.worldSize

def group : ProcessGroup := if self.hoststaged then self.cpuGroup else self.deviceGroup

def allReduce (input : Tensor V) : Dist V O (Tensor V) := do
  if self.hoststaged then
    let cpu := input.castTo num .cpu (reduceDType input.dtype)
    let cpu ← Dist.allReduce cpu self.cpuGroup
    return cpu.castTo num input.device input.dtype
  -- the device branch reduces a clone
  Dist.allReduce input self.deviceGroup

def allGather (input : Tensor V) (dim : Int) : Dist V O (Tensor V) := do
  if !self.hoststaged then
    return ← self.toDeviceCommunicatorBase.allGather num input dim
  let dim := normDim input dim
  let n ← getItem input.shape 0
  let work := input.toDevice .cpu
  let output := Tensor.empty num (n * self.worldSize :: input.shape.drop 1) work.dtype .cpu
  let output ← Dist.allGatherIntoTensor work self.cpuGroup output
  let output := output.toDevice input.device
  let output ← output.reshape (self.worldSize :: input.shape)
  concatAlong self.worldSize input.shape dim output

def reduceScatter (input : Tensor V) (dim : Int) : Dist V O (Tensor V) := do
  let dim := normDim input dim
  let inputTensor := (← input.movedim 0 dim).contiguous
  let n ← getItem inputTensor.shape 0
  assert (n % self.worldSize = 0) ""
  let outputShape := n / self.worldSize :: inputTensor.shape.drop 1
  if self.hoststaged then
    let rdt := reduceDType inputTensor.dtype
    let cpuIn := inputTensor.castTo num .cpu rdt
    let cpuOut := Tensor.empty num outputShape rdt .cpu
    let cpuOut ← Dist.reduceScatterTensor cpuIn self.cpuGroup cpuOut
    let output := cpuOut.castTo num inputTensor.device inputTensor.dtype
    return (← output.movedim 0 dim).contiguous
  let output := Tensor.empty num outputShape inputTensor.dtype inputTensor.device
  let output ← Dist.reduceScatterTensor inputTensor self.deviceGroup output
  return (← output.movedim 0 dim).contiguous

def chunkSize (n : Nat) : Option (List Nat) → Py Nat
  | some sizes => do
    assert (sizes.length = self.worldSize) ""
    assert (n = sizes.sum) ""
    getItem sizes self.rankInGroup
  | none => do
    assert (n % self.worldSize = 0) ""
    return n / self.worldSize

/-- The chunks differ in length: only then is the list form of reduce_scatter used. -/
def ragged : Option (List Nat) → Bool
  | some (size :: sizes) => (size :: sizes).count size != (size :: sizes).length
  | _ => false

def reduceScatterv (input : Tensor V) (dim : Int) (sizes : Option (List Nat)) : Dist V O (Tensor V) := do
  let dim := normDim input dim
  let inputTensor := (← input.movedim 0 dim).contiguous
  let n ← getItem inputTensor.shape 0
  let chunkSize ← self.chunkSize n sizes
  let outputShape := chunkSize :: inputTensor.shape.drop 1
  let src := if self.hoststaged then inputTensor.castTo num .cpu (reduceDType inputTensor.dtype)
    else inputTensor
  let output := Tensor.empty num outputShape src.dtype src.device
  let output ← if ragged sizes then do
      let inputSplits ← src.split (sizes.getD [])
      Dist.reduceScatter self.group output inputSplits
    else Dist.reduceScatterTensor src self.group output
  let output := if self.hoststaged then output.castTo num inputTensor.device inputTensor.dtype else output
  return (← output.movedim 0 dim).contiguous

/-- The inner function of all_gatherv, for one tensor and along axis 0. -/
def allGatherSingle (input : Tensor V) (sizes : Option (List Nat)) : Dist V O (Tensor V) := do
  let work := if self.hoststaged then input.toDevice .cpu else input
  let output ← match sizes with
    | some sizes => do
      assert (sizes.length = self.worldSize) ""
      let n ← getItem work.shape 0
      let size ← getItem sizes self.rankInGroup
      assert (n = size) s!"{n} != {size}"
      let allGatherList := sizes.map fun size =>
        Tensor.empty num (size :: work.shape.drop 1) work.dtype work.device
      let allGatherList ← Dist.allGather work self.group allGatherList
      liftM (Tensor.cat allGatherList 0)
    | none => do
      let n ← getItem work.shape 0
      let output := Tensor.empty num (n * self.worldSize :: work.shape.drop 1) work.dtype work.device
      let outputs ← Dist.allGather work self.group [output]
      liftM (getItem outputs 0)
  return if self.hoststaged then output.toDevice input.device else output

def allGatherEach (sizes : Option (List Nat)) : List (Tensor V) → Dist V O (List (Tensor V))
  | [] => return []
  | input :: inputs => do
    let output ← self.allGatherSingle num input sizes
    let outputs ← allGatherEach sizes inputs
    return output :: outputs

/-- Sizes that are all equal are dropped: every rank then has the same shape. -/
def dropUniform : Option (List Nat) → Option (List Nat)
  | some (size :: sizes) => if (size :: sizes).all (· == size) then none else some (size :: sizes)
  | _ => none

def allGatherv (input : TensorArg V) (dim : Int) (sizes : Option (List Nat)) : Dist V O (TensorArg V) := do
  if dim ≠ 0 then
    Script.raise (.notImplementedError "only dim 0 all-gatherv is supported")
  let sizes := dropUniform sizes
  match input with
  | .one input => return .one (← self.allGatherSingle num input sizes)
  | .many inputs => return .many (← self.allGatherEach num sizes inputs)

def gather (input : Tensor V) (dst : Int) (dim : Int) : Dist V O (Option (Tensor V)) := do
  assertDim input dim
  let dim := normDim input dim
  let work := if self.hoststaged then input.toDevice .cpu else input
  let output := Tensor.empty num (self.worldSize :: input.shape) work.dtype work.device
  let output ← Dist.allGatherIntoTensor work self.group output
  let output := if self.hoststaged then output.toDevice input.device else output
  if (self.rankInGroup : Int) = dst then
    return some (← concatAlong self.worldSize input.shape dim output)
  return none

/-- The source argument goes to torch.distributed as it is. Returns the final
contents of the input tensor. -/
def broadcast (input : Tensor V) (src : Int) : Dist V O (Tensor V) := do
  if self.hoststaged then
    let cpu ← Dist.broadcast (input.toDevice .cpu) self.cpuGroup src
    return cpu.toDevice input.device
  Dist.broadcast input self.deviceGroup src

end XpuCommunicator

/-- The communicators of one group, rank by rank. -/
def groupMember (cpuGroup deviceGroup : ProcessGroup) (device : Fin cpuGroup.ranks.length → Device)
    (uniqueName : String) (hoststaged : Bool) (r : Fin cpuGroup.ranks.length) : XpuCommunicator where
  cpuGroup := cpuGroup
  device := device r
  deviceGroup := deviceGroup
  uniqueName := uniqueName
  rankInGroup := r
  rank_lt := r.2
  hoststaged := hoststaged

def pairCpuGroup : ProcessGroup := ⟨0, "gloo", [0, 1]⟩
def pairDeviceGroup : ProcessGroup := ⟨1, "xccl", [0, 1]⟩

def pairDevice (r : Fin 2) : Device := .accelerator .xpu r

end B70DualTP.Communicator
