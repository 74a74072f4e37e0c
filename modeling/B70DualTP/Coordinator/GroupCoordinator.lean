import B70DualTP.Communicator.Xpu
import B70DualTP.Coordinator.TensorDict

/-! parallel_state.py: the GroupCoordinator and its communication operations, the raw
ones and those that go through the device communicator. -/
namespace B70DualTP.Coordinator
open Library Torch Communicator
variable {V O X : Type} (num : Numerics V)

structure GroupCoordinator where
  uniqueName : String
  /-- Global rank of this process. -/
  rank : Nat
  ranks : List Nat
  localRank : Nat
  rankInGroup : Nat
  rank_lt : rankInGroup < ranks.length
  cpuGroup : ProcessGroup
  deviceGroup : ProcessGroup
  device : Device
  deviceCommunicator : Option XpuCommunicator
  /-- The shared-memory broadcaster exists. -/
  mqBroadcaster : Bool
  useCustomOpCall : Bool
  deriving DecidableEq, Repr

/-- _groups: a live coordinator, or the dead reference of a collected one. -/
abbrev Groups := String → Option (Option GroupCoordinator)

/-- What the operations read of the process they run in. -/
structure Process where
  isInitialized : Bool
  groups : Groups
  /-- Index of the current accelerator. -/
  currentDevice : Nat

namespace GroupCoordinator

/-- How the constructor leaves a coordinator: its groups have its members, and its
communicator works on its groups and device. -/
structure Wired (g : GroupCoordinator) : Prop where
  rank : g.ranks[g.rankInGroup]? = some g.rank
  cpuGroup : g.cpuGroup.ranks = g.ranks
  deviceGroup : g.deviceGroup.ranks = g.ranks
  communicator : ∀ comm ∈ g.deviceCommunicator, comm.cpuGroup = g.cpuGroup ∧
    comm.deviceGroup = g.deviceGroup ∧ comm.device = g.device ∧ comm.rankInGroup = g.rankInGroup

variable (self : GroupCoordinator)

def worldSize : Nat := self.ranks.length

theorem worldSize_pos : 0 < self.worldSize := Nat.zero_lt_of_lt self.rank_lt

def firstRank : Nat := self.ranks.get ⟨0, self.worldSize_pos⟩
def lastRank : Nat := self.ranks.getLast (List.ne_nil_of_length_pos self.worldSize_pos)
def isFirstRank : Bool := self.rank = self.firstRank
def isLastRank : Bool := self.rank = self.lastRank

/-- The ranks that follow and precede the caller, around the end of the group. -/
def nextRank : Py Nat := getItem self.ranks (((self.rankInGroup : Int) + 1) % self.worldSize)
def prevRank : Py Nat := getItem self.ranks (((self.rankInGroup : Int) - 1) % self.worldSize)

/-- The communicator, without which the delegating operations raise. -/
def communicator : Py XpuCommunicator :=
  match self.deviceCommunicator with
  | some comm => .ok comm
  | none => .error (.valueError "No device communicator found")

def prepareCommunicationBufferForModel {M : Type} (isMoeLayer : M → Bool) (modules : List M) : List M :=
  match self.deviceCommunicator with
  | some comm => comm.prepareCommunicationBufferForModel isMoeLayer modules
  | none => []

def allReduceOutPlace (input : Tensor V) : Dist V O (Tensor V) := do
  (← self.communicator).allReduce num input

def allGatherOutPlace (input : Tensor V) (dim : Int) : Dist V O (Tensor V) := do
  (← self.communicator).allGather num input dim

def reduceScatterOutPlace (input : Tensor V) (dim : Int) : Dist V O (Tensor V) := do
  (← self.communicator).reduceScatter num input dim

end GroupCoordinator

/-- The lookup that each registered op starts with. -/
def findGroup (groups : Groups) (groupName : String) : Py GroupCoordinator :=
  match groups groupName with
  | none => .error (.assertionError s!"Group {groupName} is not found.")
  | some none => .error (.valueError s!"Group {groupName} is destroyed.")
  | some (some group) => .ok group

def allReduce (groups : Groups) (tensor : Tensor V) (groupName : String) : Dist V O (Tensor V) := do
  (← findGroup groups groupName).allReduceOutPlace num tensor

/-- The world size is an argument of the op that only its fake reads. -/
def reduceScatter (groups : Groups) (tensor : Tensor V) (dim : Int) (_worldSize : Nat) (groupName : String) :
    Dist V O (Tensor V) := do
  (← findGroup groups groupName).reduceScatterOutPlace num tensor dim

def allGather (groups : Groups) (tensor : Tensor V) (dim : Int) (_worldSize : Nat) (groupName : String) :
    Dist V O (Tensor V) := do
  (← findGroup groups groupName).allGatherOutPlace num tensor dim

namespace GroupCoordinator
variable (process : Process) (self : GroupCoordinator)

def allReduce (input : Tensor V) : Dist V O (Tensor V) := do
  if self.worldSize = 1 then return input
  if self.useCustomOpCall then Coordinator.allReduce num process.groups input self.uniqueName
  else self.allReduceOutPlace num input

def allGather (input : Tensor V) (dim : Int) : Dist V O (Tensor V) := do
  if self.worldSize = 1 then return input
  assertDim input dim
  if self.useCustomOpCall then
    Coordinator.allGather num process.groups input dim self.worldSize self.uniqueName
  else self.allGatherOutPlace num input dim

def allGatherv (input : TensorArg V) (dim : Int) (sizes : Option (List Nat)) : Dist V O (TensorArg V) := do
  (← self.communicator).allGatherv num input dim sizes

def reduceScatter (input : Tensor V) (dim : Int) : Dist V O (Tensor V) := do
  if self.worldSize = 1 then return input
  assertDim input dim
  if self.useCustomOpCall then
    Coordinator.reduceScatter num process.groups input dim self.worldSize self.uniqueName
  else self.reduceScatterOutPlace num input dim

def reduceScatterv (input : Tensor V) (dim : Int) (sizes : Option (List Nat)) : Dist V O (Tensor V) := do
  (← self.communicator).reduceScatterv num input dim sizes

/-- dst is the group rank of the destination. -/
def gather (input : Tensor V) (dst dim : Int) : Dist V O (Option (Tensor V)) := do
  if self.worldSize = 1 then return some input
  (← self.communicator).gather num input dst dim

def send (tensor : Tensor V) (dst : Option Int) : Dist V O Unit := do
  (← self.communicator).send tensor dst

def recv (size : List Nat) (dtype : DType) (src : Option Int) : Dist V O (Tensor V) := do
  (← self.communicator).recv num size dtype src

def assertSrc (src : Int) : Py Unit := assert (src < self.worldSize) s!"Invalid src rank ({src})"
def assertDst (dst : Int) : Py Unit := assert (dst < self.worldSize) s!"Invalid dst rank ({dst})"

/-- Returns the final contents of the input. -/
def broadcast (input : Tensor V) (src : Int) : Dist V O (Tensor V) := do
  self.assertSrc src
  if self.worldSize = 1 then return input
  let srcRank ← getItem self.ranks src
  Dist.broadcast input self.deviceGroup srcRank

def broadcastObject (obj : Option O) (src : Int) : Dist V O (Option O) := do
  self.assertSrc src
  if self.worldSize = 1 then return obj
  if self.mqBroadcaster then
    assert (src = 0) "Message queue broadcaster only supports src=0"
    return some (← Dist.mqBroadcastObject obj)
  let srcRank ← getItem self.ranks src
  if (self.rankInGroup : Int) = src then
    let _ ← Dist.broadcastObjectList self.cpuGroup obj srcRank
    return obj
  return some (← Dist.broadcastObjectList self.cpuGroup none srcRank)

/-- The group a tensor of a dictionary travels on: CPU tensors use the metadata group. -/
def commGroup (tensor : Tensor V) : ProcessGroup := if tensor.isCpu then self.cpuGroup else self.deviceGroup

/-- The source's loop over its tensors; empty tensors are skipped. -/
def broadcastTensors (src : Int) : List (Tensor V) → Dist V O Unit
  | [] => return ()
  | tensor :: tensors => do
    if tensor.numel ≠ 0 then
      let srcRank ← getItem self.ranks src
      let _ ← Dist.broadcast tensor (self.commGroup tensor) srcRank
    broadcastTensors src tensors

/-- A receiver's loop over the metadata it got; empty tensors are skipped. -/
def broadcastEntries (src : Int) : List (String × MetaValue X) → Dist V O (Entries V X)
  | [] => return []
  | (key, .object x) :: items => return (key, .other (.object x)) :: (← broadcastEntries src items)
  | (key, .metadata m) :: items => do
    let tensor := m.empty num process.currentDevice
    let tensor ← if tensor.numel = 0 then pure tensor else do
      let srcRank ← getItem self.ranks src
      Dist.broadcast tensor (self.commGroup tensor) srcRank
    return (key, .tensor tensor) :: (← broadcastEntries src items)

def broadcastTensorDict (tensorDict : Option (TensorDict V X)) (src : Int) :
    Dist V (MetadataList X) (Option (Entries V X)) := do
  if !process.isInitialized ∨ self.worldSize = 1 then return tensorDict.map (·.entries)
  self.assertSrc src
  if (self.rankInGroup : Int) = src then
    match tensorDict with
    | none => Script.raise (.assertionError "Expecting a dictionary, got <class 'NoneType'>")
    | some tensorDict =>
      let (metadataList, tensorList) := splitTensorDict tensorDict
      let _ ← self.broadcastObject (some metadataList) src
      self.broadcastTensors src tensorList
      return some tensorDict.entries
  match ← self.broadcastObject none src with
  | none => Script.raise .typeError
  | some metadataList => return some (← self.broadcastEntries num process src metadataList.items)

end GroupCoordinator

def pairCoordinator (r : Fin 2) : GroupCoordinator where
  uniqueName := "tp:0"
  rank := r
  ranks := [0, 1]
  localRank := r
  rankInGroup := r
  rank_lt := r.2
  cpuGroup := pairCpuGroup
  deviceGroup := pairDeviceGroup
  device := pairDevice r
  deviceCommunicator := some (groupMember pairCpuGroup pairDeviceGroup pairDevice "tp:0" true r)
  mqBroadcaster := false
  useCustomOpCall := true

theorem pairCoordinator_wired (r : Fin 2) : (pairCoordinator r).Wired := by
  refine ⟨?_, rfl, rfl, fun comm h => ?_⟩
  · revert r
    decide
  · cases h
    exact ⟨rfl, rfl, rfl, rfl⟩

def pairGroups (r : Fin 2) : Groups := fun name => if name = "tp:0" then some (some (pairCoordinator r)) else none

def pairProcess (r : Fin 2) : Process := ⟨true, pairGroups r, r⟩

def cardTensor : Tensor Int :=
  { shape := [2], data := [1, 2], wf := rfl, device := .accelerator .xpu 0, dtype := .float16 }

end B70DualTP.Coordinator
