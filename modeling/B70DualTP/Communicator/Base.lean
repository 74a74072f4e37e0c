import B70DualTP.Torch.Distributed

/-! base_device_communicator.py: the communicator whose methods the XPU communicator
overrides or inherits. -/
namespace B70DualTP.Communicator
open Library Torch
variable {V O : Type} (num : Numerics V)

/-- The communicator of one rank; its members are those of the CPU group. -/
structure DeviceCommunicatorBase where
  cpuGroup : ProcessGroup
  device : Device
  deviceGroup : ProcessGroup
  uniqueName : String
  rankInGroup : Nat
  rank_lt : rankInGroup < cpuGroup.ranks.length
  deriving DecidableEq, Repr

/-- The dim argument, counted from the end when negative. -/
def normDim (t : Tensor V) (dim : Int) : Int := if dim < 0 then dim + t.shape.length else dim

def sizeText (t : Tensor V) : String := "torch.Size(" ++ toString t.shape ++ ")"

def assertDim (t : Tensor V) (dim : Int) : Py Unit :=
  let size := sizeText t
  assert (-(t.shape.length : Int) ≤ dim ∧ dim < t.shape.length)
    s!"Invalid dim ({dim}) for input tensor with shape {size}"

/-- From ranks stacked in front to ranks concatenated along dim. -/
def concatAlong (worldSize : Nat) (inputSize : List Nat) (dim : Int) (output : Tensor V) : Py (Tensor V) := do
  let output ← output.movedim 0 dim
  let n ← getItem inputSize dim
  output.reshape (sliceTo inputSize dim ++ [worldSize * n] ++ sliceFrom inputSize (dim + 1))

namespace DeviceCommunicatorBase
variable (self : DeviceCommunicatorBase)

def ranks : List Nat := self.cpuGroup.ranks
def worldSize : Nat := self.cpuGroup.ranks.length

theorem worldSize_pos : 0 < self.worldSize := Nat.zero_lt_of_lt self.rank_lt

/-- unique_name.split(":")[0] == "ep" -/
def isEpCommunicator : Bool := self.uniqueName.toList.takeWhile (· ≠ ':') = ['e', 'p']

/-- The modules whose maybe_init_modular_kernel is called. -/
def prepareCommunicationBufferForModel {M : Type} (isMoeLayer : M → Bool) (modules : List M) : List M :=
  if self.isEpCommunicator then modules.filter isMoeLayer else []

def allGather (input : Tensor V) (dim : Int) : Dist V O (Tensor V) := do
  let dim := normDim input dim
  let n ← getItem input.shape 0
  let output := Tensor.empty num (n * self.worldSize :: input.shape.drop 1) input.dtype input.device
  let output ← Dist.allGatherIntoTensor input self.deviceGroup output
  let output ← output.reshape (self.worldSize :: input.shape)
  concatAlong self.worldSize input.shape dim output

/-- dst is the group rank of the destination. -/
def gather (input : Tensor V) (dst : Int) (dim : Int) : Dist V O (Option (Tensor V)) := do
  assertDim input dim
  let dim := normDim input dim
  let gatherList := if (self.rankInGroup : Int) = dst then
    some (List.replicate self.worldSize (Tensor.empty num input.shape input.dtype input.device)) else none
  let dstRank ← getItem self.ranks dst
  match ← Dist.gather input self.deviceGroup gatherList dstRank with
  | some gathered => return some (← Tensor.cat gathered dim.toNat)
  | none => return none

/-- dst is the group rank of the destination, by default the next rank. -/
def send (tensor : Tensor V) (dst : Option Int) : Dist V O Unit := do
  let dst := dst.getD ((self.rankInGroup + 1) % self.worldSize : Nat)
  let dstRank ← getItem self.ranks dst
  Dist.send tensor self.deviceGroup dstRank

/-- src is the group rank of the source, by default the previous rank. -/
def recv (size : List Nat) (dtype : DType) (src : Option Int) : Dist V O (Tensor V) := do
  let src := src.getD (((self.rankInGroup : Int) - 1) % self.worldSize)
  let tensor := Tensor.empty num size dtype self.device
  let srcRank ← getItem self.ranks src
  let received ← Dist.recv tensor self.deviceGroup srcRank
  return received.1

/-- src is the group rank of the source. Returns the final contents of the tensor. -/
def broadcast (tensor : Tensor V) (src : Int) : Dist V O (Tensor V) := do
  if self.worldSize = 1 then return tensor
  let srcRank ← getItem self.ranks src
  Dist.broadcast tensor self.deviceGroup srcRank

end DeviceCommunicatorBase
end B70DualTP.Communicator
