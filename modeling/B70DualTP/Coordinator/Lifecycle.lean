import B70DualTP.Coordinator.Initialize

/-! The life of the groups of a process: the getters, replacing the active groups, and tearing
everything down. -/
namespace B70DualTP.Coordinator
open Library Torch Communicator

inductive Holder where
  | world
  | innerDpWorld
  | slot (slot : Slot)
  deriving DecidableEq, Repr

def ModuleState.held (s : ModuleState) : Holder → Option CoordinatorRef
  | .world => s.world
  | .innerDpWorld => s.innerDpWorld
  | .slot slot => s.slot slot

theorem held_setSlot (s : ModuleState) (slot : Slot) (value : Option CoordinatorRef) (holder : Holder) :
    (s.setSlot slot value).held holder = if holder = .slot slot then value else s.held holder := by
  rcases slot with (_ | _ | _ | _ | _ | _) | _ <;> rcases holder with _ | _ | (_ | _ | _ | _ | _ | _) | _ <;> rfl

/-- The message of a getter's assertion. -/
def Holder.notInitialized : Holder → String
  | .world => "world group is not initialized"
  | .innerDpWorld => "inner dp world group is not initialized"
  | .slot (.of .tp) => "tensor model parallel group is not initialized"
  | .slot (.of .dcp) => "decode context model parallel group is not initialized"
  | .slot (.of .pcp) => "prefill context parallel group is not initialized"
  | .slot (.of .pp) => "pipeline model parallel group is not initialized"
  | .slot (.of .dp) => "data parallel group is not initialized"
  | .slot (.of .ep) => "expert parallel group is not initialized. " ++
      "EP group is only created for MoE models with num_experts > 0. " ++
      "This function should only be called for MoE models."
  | .slot .eplb => "EPLB group is not initialized. " ++
      "EPLB group is only created for MoE models when EPLB is enabled. " ++
      "Ensure parallel_config.enable_eplb is True."

/-- assert group is not None; return group -/
def Holder.get (holder : Holder) : Setup CoordinatorRef := do
  match (← Action.get).held holder with
  | some group => return group
  | none => Action.raise (.assertionError holder.notInitialized)

def getInnerDpWorldGroup : Setup CoordinatorRef := Holder.innerDpWorld.get
def getTpGroup : Setup CoordinatorRef := (Holder.slot (.of .tp)).get
def getDcpGroup : Setup CoordinatorRef := (Holder.slot (.of .dcp)).get
def getPcpGroup : Setup CoordinatorRef := (Holder.slot (.of .pcp)).get
def getPpGroup : Setup CoordinatorRef := (Holder.slot (.of .pp)).get
def getDpGroup : Setup CoordinatorRef := (Holder.slot (.of .dp)).get
def getEpGroup : Setup CoordinatorRef := (Holder.slot (.of .ep)).get
def getEplbGroup : Setup CoordinatorRef := (Holder.slot .eplb).get

/-- The getter of a global. -/
def Holder.getter : Holder → Setup CoordinatorRef
  | .world => getWorldGroup
  | .innerDpWorld => getInnerDpWorldGroup
  | .slot (.of .tp) => getTpGroup
  | .slot (.of .dcp) => getDcpGroup
  | .slot (.of .pcp) => getPcpGroup
  | .slot (.of .pp) => getPpGroup
  | .slot (.of .dp) => getDpGroup
  | .slot (.of .ep) => getEpGroup
  | .slot .eplb => getEplbGroup

def getNodeCount : Setup Nat := do
  match (← Action.get).nodeCount with
  | some count => return count
  | none => Action.raise (.assertionError "distributed environment is not initialized")

theorem Holder.getter_apply (holder : Holder) (s : ModuleState) :
    holder.getter s = ((s.held holder).elim (.error (.assertionError holder.notInitialized)) .ok, s) := by
  have hget : ∀ holder : Holder, holder.get s =
      ((s.held holder).elim (.error (.assertionError holder.notInitialized)) .ok, s) := by
    intro holder
    rw [Holder.get, Action.bind_ok (Action.get_apply s)]
    cases s.held holder <;> rfl
  rcases holder with _ | _ | (_ | _ | _ | _ | _ | _) | _
  · rw [Holder.getter, getWorldGroup, Action.bind_ok (Action.get_apply s), ModuleState.held]
    cases s.world <;> rfl
  all_goals exact hget _

/-- The module, its flag, and what has happened to its objects. -/
structure LifeState extends ModuleState where
  /-- The coordinators whose destroy() has been called. -/
  destroyed : List Nat
  /-- Those whose attribute device_group, or cpu_group, has been deleted. -/
  deviceGroupDeleted : List Nat
  cpuGroupDeleted : List Nat
  /-- Those whose message queue has been given up. -/
  mqBroadcasterDropped : List Nat
  /-- _TP_STATE_PATCHED -/
  tpStatePatched : Bool
  deriving DecidableEq, Repr

def LifeState.fresh (hoststagedTp : Option String) (dist : Option DefaultGroup) : LifeState where
  toModuleState := .fresh hoststagedTp dist
  destroyed := []
  deviceGroupDeleted := []
  cpuGroupDeleted := []
  mqBroadcasterDropped := []
  tpStatePatched := false

abbrev Life (A : Type) := Action PyError LifeState A

/-- A function that touches the module alone. -/
def Setup.toLife {A : Type} (m : Setup A) : Life A :=
  Action.on LifeState.toModuleState (fun t s => { s with toModuleState := t }) m

/-- What tearing down asks of code outside the repository. -/
structure LifeEnvironment extends Environment where
  /-- torch.distributed.destroy_process_group; without a group it destroys the default one. -/
  destroyProcessGroup : Option ProcessGroup → Py Unit
  /-- StatelessGroupCoordinator.destroy() -/
  destroyStateless : StatelessGroup → Py Unit

section Teardown
variable (env : LifeEnvironment)

/-- if hasattr(self, name): destroy_process_group(self.name); del self.name -/
def deleteGroup (group : ProcessGroup) (id : Nat) (deleted : LifeState → List Nat) (del : LifeState → LifeState) :
    Life Unit := do
  if id ∉ deleted (← Action.get) then
    env.destroyProcessGroup (some group)
    Action.modify del

/-- destroy() of the object with this identity. The device communicator's own destroy() does
nothing. -/
def GroupCoordinator.destroy (self : GroupCoordinator) (id : Nat) : Life Unit := do
  deleteGroup env self.deviceGroup id (·.deviceGroupDeleted)
    fun s => { s with deviceGroupDeleted := id :: s.deviceGroupDeleted }
  deleteGroup env self.cpuGroup id (·.cpuGroupDeleted) fun s => { s with cpuGroupDeleted := id :: s.cpuGroupDeleted }
  if self.mqBroadcaster then
    Action.modify fun s => { s with mqBroadcasterDropped := id :: s.mqBroadcasterDropped }

def CoordinatorRef.destroy (ref : CoordinatorRef) : Life Unit := do
  Action.modify fun s => { s with destroyed := ref.id :: s.destroyed }
  match ref.coordinator with
  | .group g _ => g.destroy env ref.id
  | .stateless g => env.destroyStateless g

/-- if group is not None: group.destroy() -/
def destroyGroup : Option CoordinatorRef → Life Unit
  | some ref => ref.destroy env
  | none => return ()

def destroySlot (slot : Slot) : Life Unit := do
  destroyGroup env ((← Action.get).slot slot)
  Setup.toLife (Action.modify (·.setSlot slot none))

def destroySlots : List Slot → Life Unit
  | [] => return ()
  | slot :: slots => do
    destroySlot env slot
    destroySlots slots

/-- The groups of model parallelism in the order they are destroyed. -/
def modelParallelSlots : List Slot := [.of .tp, .of .dcp, .of .pcp, .of .pp, .of .dp, .of .ep, .eplb]

def destroyModelParallel : Life Unit := destroySlots env modelParallelSlots

/-- if torch.distributed.is_initialized(): torch.distributed.destroy_process_group() -/
def destroyDefaultGroup : Life Unit := do
  if (← Action.get).dist.isSome then
    env.destroyProcessGroup none
    Setup.toLife (Action.modify fun s => { s with dist := none })

def destroyDistributedEnvironment : Life Unit := do
  destroyGroup env (← Action.get).world
  Setup.toLife (Action.modify fun s => { s with world := none, nodeCount := none })
  destroyDefaultGroup env

def destroyGroups : List (Option CoordinatorRef) → Life Unit
  | [] => return ()
  | group :: groups => do
    destroyGroup env group
    destroyGroups groups

def replaceActiveGroups (world dp ep eplb : Option CoordinatorRef) (nodeCount : Option Nat) : Life Unit := do
  let s ← Action.get
  destroyGroups env [s.dp, s.ep, s.world, s.eplb]
  Setup.toLife (Action.modify fun s => { s with world, dp, ep, eplb, nodeCount })

theorem destroyGroup_keeps {I : LifeState → Prop}
    (h : ∀ t destroyed deviceGroupDeleted cpuGroupDeleted mqBroadcasterDropped, I t →
      I { t with destroyed, deviceGroupDeleted, cpuGroupDeleted, mqBroadcasterDropped })
    (group : Option CoordinatorRef) : Action.Keeps I (destroyGroup env group) := by
  have hdelete : ∀ (group : ProcessGroup) (id : Nat) (deleted : LifeState → List Nat) (del : LifeState → LifeState),
      (∀ t, I t → I (del t)) → Action.Keeps I (deleteGroup env group id deleted del) := by
    intro group id deleted del hdel
    refine Action.keeps_bind Action.keeps_get fun t => ?_
    split
    · exact Action.keeps_bind (Action.keeps_lift _) fun _ => Action.keeps_modify hdel
    · exact Action.keeps_pure _
  have hcall : ∀ id : Nat, Action.Keeps I
      (Action.modify fun s : LifeState => { s with destroyed := id :: s.destroyed } : Life Unit) :=
    fun id => Action.keeps_modify fun t ht => h t _ _ _ _ ht
  rcases group with _ | ⟨id, g | g⟩
  · exact Action.keeps_pure _
  · apply Action.keeps_bind (hcall id)
    intro _
    refine Action.keeps_bind (hdelete _ _ _ _ fun t ht => h t _ _ _ _ ht) fun _ => ?_
    refine Action.keeps_bind (hdelete _ _ _ _ fun t ht => h t _ _ _ _ ht) fun _ => ?_
    split
    · exact Action.keeps_modify fun t ht => h t _ _ _ _ ht
    · exact Action.keeps_pure _
  · exact Action.keeps_bind (hcall id) fun _ => Action.keeps_lift _

theorem destroyGroups_keeps {I : LifeState → Prop} (h : ∀ group, Action.Keeps I (destroyGroup env group))
    (groups : List (Option CoordinatorRef)) : Action.Keeps I (destroyGroups env groups) := by
  induction groups with
  | nil => exact Action.keeps_pure _
  | cons group groups ih => exact Action.keeps_bind (h group) fun _ => ih

theorem destroySlots_keeps {I : LifeState → Prop} (h : ∀ group, Action.Keeps I (destroyGroup env group))
    (hclear : ∀ slot, Action.Keeps I (Setup.toLife (Action.modify (·.setSlot slot none)))) (slots : List Slot) :
    Action.Keeps I (destroySlots env slots) := by
  induction slots with
  | nil => exact Action.keeps_pure _
  | cons slot slots ih =>
    have hslot : Action.Keeps I (destroySlot env slot) :=
      Action.keeps_bind Action.keeps_get fun _ => Action.keeps_bind (h _) fun _ => hclear slot
    exact Action.keeps_bind hslot fun _ => ih

theorem destroyDefaultGroup_keeps {I : LifeState → Prop}
    (h : ∀ t : LifeState, I t → I { t with toModuleState := { t.toModuleState with dist := none } }) :
    Action.Keeps I (destroyDefaultGroup env) := by
  refine Action.keeps_bind Action.keeps_get fun t => ?_
  split
  · exact Action.keeps_bind (Action.keeps_lift _) fun _ => Action.keeps_modify h
  · exact Action.keeps_pure _

end Teardown

/-- A group that is built to be handed to _replace_active_groups. -/
def buildGroup : Option AnyCoordinator → Setup (Option CoordinatorRef)
  | some coordinator => do
    let id := (← Action.get).nextId
    Action.modify fun s => { s with nextId := id + 1, constructed := s.constructed ++ [⟨id, coordinator⟩] }
    return some ⟨id, coordinator⟩
  | none => return none

theorem buildGroup_triple {I : ModuleState → Prop} (h : ∀ s nextId constructed, I s → I { s with nextId, constructed })
    (group : Option AnyCoordinator) :
    Action.Triple I (fun _ => True) (buildGroup group) fun built _ => built.map (·.coordinator) = group := by
  intro s hs _
  cases group with
  | none => exact ⟨hs, fun built hbuilt => by cases hbuilt; rfl⟩
  | some coordinator => exact ⟨h s _ _ hs, fun built hbuilt => by cases hbuilt; rfl⟩

/-- The functions that change the groups of a process. -/
inductive LifeCall where
  | initDistributedEnvironment (args : InitDistributedArgs)
  | initializeModelParallel (args : ModelParallelArgs)
  | ensureModelParallelInitialized (args : ModelParallelArgs)
  /-- With groups that are built for the call, or None. -/
  | replaceActiveGroups (world dp ep eplb : Option AnyCoordinator) (nodeCount : Option Nat)
  | destroyModelParallel
  | destroyDistributedEnvironment
  deriving DecidableEq, Repr

/-- A call, and the configuration and the outside world at that time. -/
structure LifeStep where
  env : LifeEnvironment
  call : LifeCall

def LifeStep.run (step : LifeStep) : Life Unit :=
  match step.call with
  | .initDistributedEnvironment args => Setup.toLife (Coordinator.initDistributedEnvironment step.env.toEnvironment args)
  | .initializeModelParallel args => Setup.toLife (Coordinator.initializeModelParallel step.env.toEnvironment args)
  | .ensureModelParallelInitialized args =>
    Setup.toLife (Coordinator.ensureModelParallelInitialized step.env.toEnvironment args)
  | .replaceActiveGroups world dp ep eplb nodeCount => do
    let world ← Setup.toLife (buildGroup world)
    let dp ← Setup.toLife (buildGroup dp)
    let ep ← Setup.toLife (buildGroup ep)
    let eplb ← Setup.toLife (buildGroup eplb)
    Coordinator.replaceActiveGroups step.env world dp ep eplb nodeCount
  | .destroyModelParallel => Coordinator.destroyModelParallel step.env
  | .destroyDistributedEnvironment => Coordinator.destroyDistributedEnvironment step.env

/-- The state after a list of calls; a call that raises leaves what it has done so far. -/
def runCalls (steps : List LifeStep) (s : LifeState) : LifeState := steps.foldl (fun s step => (step.run s).2) s

/-- The first of nodes that share one replica of two ranks; torch destroys what it is asked to. -/
def replicaEnvironment (nnodesWithinDp : Nat) : LifeEnvironment where
  config := some ⟨⟨false, false, some "mp", nnodesWithinDp, nnodesWithinDp, 1, 0, 2, 2, "tcp://10.0.0.1:29500",
    "tcp://10.0.0.1:29501"⟩, none⟩
  localRank := 0
  isBackendAvailable _ := true
  isGlooAvailable := true
  rendezvous _ worldSize rank := .ok (worldSize.toNat, rank.toNat)
  coordStore := .ok ()
  statelessRendezvous _ := .ok ()
  nodeCount _ := .ok 1
  statelessNodeCount _ := .ok 1
  useCustomOpCollectives := true
  destroyProcessGroup _ := .ok ()
  destroyStateless _ := .ok ()

def replicaArgs : InitDistributedArgs := ⟨2, 0, some "tcp://10.0.0.1:29500", 0, some "gloo"⟩

end B70DualTP.Coordinator
