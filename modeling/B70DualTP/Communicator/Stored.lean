import B70DualTP.Communicator.Xpu
import B70DualTP.Torch.Storage

/-! xpu_communicator.py on stored tensors: what each collective allocates, converts and
writes, in both of its branches. -/
namespace B70DualTP.Communicator
open Library Torch
variable {V O : Type} (num : Numerics V)

namespace Stored
open Torch.Stored

def concatAlong (worldSize : Nat) (inputSize : List Nat) (dim : Int) (output : View) : Stored V O View := do
  let output ← movedim output 0 dim
  let n ← getItem inputSize dim
  reshape num output (sliceTo inputSize dim ++ [worldSize * n] ++ sliceFrom inputSize (dim + 1))

def baseAllGather (self : DeviceCommunicatorBase) (input : View) (dim : Int) : Stored V O View := do
  let dim := normDim input.positions dim
  let n ← getItem input.shape 0
  let output ← empty num (n * self.worldSize :: input.shape.drop 1) input.dtype input.device
  Torch.Stored.allGatherIntoTensor output input self.deviceGroup
  let output ← reshape num output (self.worldSize :: input.shape)
  concatAlong num self.worldSize input.shape dim output

variable (self : XpuCommunicator)

/-- The host-staged branch has no clone: it reduces what the conversion returns. -/
def allReduce (input : View) : Stored V O View := do
  if self.hoststaged then
    let cpu ← castTo num input .cpu (reduceDType input.dtype)
    Torch.Stored.allReduce cpu self.cpuGroup
    castTo num cpu input.device input.dtype
  else
    let output ← clone num input
    Torch.Stored.allReduce output self.deviceGroup
    return output

def allGather (input : View) (dim : Int) : Stored V O View := do
  if !self.hoststaged then
    baseAllGather num self.toDeviceCommunicatorBase input dim
  else
    let dim := normDim input.positions dim
    let n ← getItem input.shape 0
    let work ← castTo num input .cpu input.dtype
    let output ← empty num (n * self.worldSize :: input.shape.drop 1) work.dtype .cpu
    Torch.Stored.allGatherIntoTensor output work self.cpuGroup
    let output ← castTo num output input.device output.dtype
    let output ← reshape num output (self.worldSize :: input.shape)
    concatAlong num self.worldSize input.shape dim output

def moveBack (output : View) (dim : Int) : Stored V O View := do
  let output ← movedim output 0 dim
  contiguous num output

def reduceScatter (input : View) (dim : Int) : Stored V O View := do
  let dim := normDim input.positions dim
  let moved ← movedim input 0 dim
  let inputTensor ← contiguous num moved
  let n ← getItem inputTensor.shape 0
  liftM (assert (n % self.worldSize = 0) "")
  let outputShape := n / self.worldSize :: inputTensor.shape.drop 1
  if self.hoststaged then
    let rdt := reduceDType inputTensor.dtype
    let cpuIn ← castTo num inputTensor .cpu rdt
    let cpuOut ← empty num outputShape rdt .cpu
    Torch.Stored.reduceScatterTensor cpuOut cpuIn self.cpuGroup
    let output ← castTo num cpuOut inputTensor.device inputTensor.dtype
    moveBack num output dim
  else
    let output ← empty num outputShape inputTensor.dtype inputTensor.device
    Torch.Stored.reduceScatterTensor output inputTensor self.deviceGroup
    moveBack num output dim

/-- Ragged chunks go through the list form of reduce_scatter. -/
def scatter (output src : View) (sizes : Option (List Nat)) : Stored V O Unit := do
  if XpuCommunicator.ragged sizes then
    let inputSplits ← split src (sizes.getD [])
    Torch.Stored.reduceScatter output inputSplits self.group
  else Torch.Stored.reduceScatterTensor output src self.group

def stage (input : View) (dtype : DType) : Stored V O View :=
  if self.hoststaged then castTo num input .cpu dtype else return input

def unstage (output : View) (device : Device) (dtype : DType) : Stored V O View :=
  if self.hoststaged then castTo num output device dtype else return output

def reduceScatterv (input : View) (dim : Int) (sizes : Option (List Nat)) : Stored V O View := do
  let dim := normDim input.positions dim
  let moved ← movedim input 0 dim
  let inputTensor ← contiguous num moved
  let n ← getItem inputTensor.shape 0
  let chunkSize ← self.chunkSize n sizes
  let outputShape := chunkSize :: inputTensor.shape.drop 1
  let src ← stage num self inputTensor (reduceDType inputTensor.dtype)
  let output ← empty num outputShape src.dtype src.device
  scatter self output src sizes
  let output ← unstage num self output inputTensor.device inputTensor.dtype
  moveBack num output dim

/-- The output of all_gatherv along axis 0. -/
def gatherInto (work output : View) : Option (List Nat) → Stored V O View
  | some sizes => do
    let allGatherList ← emptyEach num work.dtype work.device (sizes.map (· :: work.shape.drop 1))
    Torch.Stored.allGather allGatherList work self.group
    cat num allGatherList 0
  | none => do
    Torch.Stored.allGather [output] work self.group
    return output

def gatheredSize (shape : List Nat) : Option (List Nat) → Py Nat
  | some sizes => do
    assert (sizes.length = self.worldSize) ""
    let n ← getItem shape 0
    let size ← getItem sizes self.rankInGroup
    assert (n = size) s!"{n} != {size}"
    return sizes.sum
  | none => do
    let n ← getItem shape 0
    return n * self.worldSize

def allGatherSingle (input : View) (sizes : Option (List Nat)) : Stored V O View := do
  let work ← stage num self input input.dtype
  let size ← gatheredSize self work.shape sizes
  let output ← empty num (size :: work.shape.drop 1) work.dtype work.device
  let output ← gatherInto num self work output sizes
  unstage num self output input.device output.dtype

def allGatherEach (sizes : Option (List Nat)) : List View → Stored V O (List View)
  | [] => return []
  | input :: inputs => do
    let output ← allGatherSingle num self input sizes
    let outputs ← allGatherEach sizes inputs
    return output :: outputs

def allGatherv (inputs : List View) (dim : Int) (sizes : Option (List Nat)) : Stored V O (List View) := do
  if dim ≠ 0 then Effect.raise (.notImplementedError "only dim 0 all-gatherv is supported")
  else allGatherEach num self (XpuCommunicator.dropUniform sizes) inputs

def gather (input : View) (dst dim : Int) : Stored V O (Option View) := do
  assertDim input.positions dim
  let dim := normDim input.positions dim
  let work ← stage num self input input.dtype
  let output ← empty num (self.worldSize :: input.shape) work.dtype work.device
  Torch.Stored.allGatherIntoTensor output work self.group
  let output ← unstage num self output input.device output.dtype
  if (self.rankInGroup : Int) = dst then
    let output ← concatAlong num self.worldSize input.shape dim output
    return some output
  else return none

end Stored
end B70DualTP.Communicator
