import B70DualTP.Coordinator.ModuleState

/-! Setting up the groups of a process: init_distributed_environment,
initialize_model_parallel and ensure_model_parallel_initialized. -/
namespace B70DualTP.Coordinator
open Library Torch Communicator

structure ParallelConfig where
  enableElasticEp : Bool
  enableEplb : Bool
  distributedExecutorBackend : Option String
  nnodes : Nat
  nnodesWithinDp : Nat
  dataParallelSize : Nat
  dataParallelRank : Nat
  worldSize : Nat
  worldSizeAcrossDp : Nat
  /-- get_distributed_init_method of the master address and port. -/
  masterInitMethod : String
  /-- The same of the data-parallel master and its next port. -/
  dataParallelInitMethod : String
  deriving DecidableEq, Repr

structure VllmConfig where
  parallelConfig : ParallelConfig
  /-- model_config.is_moe, when there is a model_config. -/
  isMoe : Option Bool
  deriving DecidableEq, Repr

/-- What the functions ask of code outside the repository and of the other ranks. -/
structure Environment where
  /-- get_current_vllm_config_or_none() -/
  config : Option VllmConfig
  /-- envs.LOCAL_RANK -/
  localRank : Int
  isBackendAvailable : String → Bool
  isGlooAvailable : Bool
  /-- The world size and rank that init_process_group ends up with. -/
  rendezvous : (initMethod : String) → (worldSize rank : Int) → Py (Nat × Nat)
  /-- get_cached_tcp_store_client -/
  coordStore : Py Unit
  /-- Building a StatelessGroupCoordinator may fail. -/
  statelessRendezvous : (ranks : List Nat) → Py Unit
  /-- _node_count, of a process group and of a stateless coordinator's store group. -/
  nodeCount : ProcessGroup → Py Nat
  statelessNodeCount : StatelessGroup → Py Nat
  useCustomOpCollectives : Bool

def getWorldGroup : Setup CoordinatorRef := do
  match (← Action.get).world with
  | some world => return world
  | none => Action.raise (.assertionError "world group is not initialized")

theorem getWorldGroup_keeps {I : ModuleState → Prop} : Action.Keeps I getWorldGroup := by
  refine Action.keeps_bind Action.keeps_get fun s => ?_
  split
  · exact Action.keeps_pure _
  · exact Action.keeps_raise _

structure InitDistributedArgs where
  worldSize : Int
  rank : Int
  distributedInitMethod : Option String
  localRank : Int
  backend : Option String
  deriving DecidableEq, Repr

/-- The local variable parallel_config, when the adjustment for data parallelism binds it. -/
def adjustingConfig (config : Option VllmConfig) : Option ParallelConfig :=
  (config.map (·.parallelConfig)).filter fun c =>
    c.distributedExecutorBackend != some "external_launcher" &&
      (decide (1 < c.nnodes) || decide (1 < c.dataParallelSize)) && !c.enableElasticEp

/-- Adjust the rank, the world size and the init method to data parallelism. -/
def adjustArgs (config : Option VllmConfig) (args : InitDistributedArgs) : InitDistributedArgs :=
  match adjustingConfig config with
  | none => args
  | some c => { args with
      rank := offsetRank c.dataParallelRank args.worldSize args.rank
      worldSize := c.worldSizeAcrossDp
      distributedInitMethod := some (if 1 < c.nnodes then c.masterInitMethod else c.dataParallelInitMethod) }

/-- A backend that is not available falls back to gloo. -/
def availableBackend (env : Environment) (backend : Option String) : Py String :=
  match backend with
  | none => .error .attributeError
  | some backend =>
    if env.isBackendAvailable backend then .ok backend
    else do
      assert env.isGlooAvailable "Fallback Gloo backend is not available."
      return "gloo"

/-- The backend of the default group, which the flag replaces by gloo. -/
def worldBackend (env : Environment) (backend : Option String) : Setup String := do
  let backend ← availableBackend env backend
  return if (← Action.get).hoststaged then "gloo" else backend

def initProcessGroup (env : Environment) (backend : String) (args : InitDistributedArgs) (initMethod : String) :
    Setup Unit := do
  let (worldSize, rank) ← env.rendezvous initMethod args.worldSize args.rank
  Action.modify fun s => { s.request [⟨some backend, List.range worldSize⟩] with
    dist := some ⟨worldSize, rank, backend⟩ }

/-- In elastic mode the ranks of the default group must be on one node. -/
def checkElasticNodes (env : Environment) (enableElasticEp : Bool) : Setup Unit :=
  if enableElasticEp then do
    let tpPpCpuGroup ← newGroup (List.range (← defaultGroup).worldSize) (some "gloo")
    if 1 < (← env.nodeCount tpPpCpuGroup) then Action.raise .runtimeError
  else return ()

/-- What is done while torch.distributed is not initialised. Returns the local variable
backend. -/
def initDefaultGroup (env : Environment) (enableElasticEp : Bool) (args : InitDistributedArgs) :
    Setup (Option String) := do
  match args.distributedInitMethod with
  | none => Action.raise (.assertionError
      "distributed_init_method must be provided when initializing distributed environment")
  | some initMethod =>
    let backend ← worldBackend env args.backend
    initProcessGroup env backend args initMethod
    checkElasticNodes env enableElasticEp
    return some backend

/-- local_rank, after the rank stands in for one that is not set. -/
def localRankOf (env : Environment) (args : InitDistributedArgs) : Int :=
  if args.localRank = -1 then
    if args.distributedInitMethod = some "env://" then env.localRank else args.rank
  else args.localRank

/-- StatelessGroupCoordinator(...), which is not part of the repository: its device group
is taken to be created on the backend it is given, for the caller's list of ranks. -/
def newStatelessGroup (env : Environment) (groupRanks : List (List Nat)) (localRank : Int)
    (backend : Option String) (rank : Int) : Setup CoordinatorRef := do
  match groupRanks.find? fun ranks => ranks.any fun r : Nat => (r : Int) = rank with
  | none => Action.raise (.assertionError "")
  | some ranks =>
    Action.modify (·.request [⟨backend, ranks⟩])
    env.statelessRendezvous ranks
    let id := (← Action.get).nextId
    let coordinator := AnyCoordinator.stateless ⟨backend, ranks, rank, localRank⟩
    Action.modify fun s => { s with nextId := id + 1, constructed := s.constructed ++ [⟨id, coordinator⟩] }
    return ⟨id, coordinator⟩

theorem newStatelessGroup_triple {I : ModuleState → Prop} (env : Environment) (groupRanks : List (List Nat))
    (localRank : Int) (backend : Option String) (rank : Int)
    (hrequest : ∀ s ranks, I s → I (s.request [⟨backend, ranks⟩]))
    (hmake : ∀ s nextId constructed, I s → I { s with nextId, constructed }) :
    Action.Triple I (fun _ => True) (newStatelessGroup env groupRanks localRank backend rank) fun ref _ =>
      ∃ ranks ∈ groupRanks, (∃ r ∈ ranks, (r : Int) = rank) ∧
        ref.coordinator = .stateless ⟨backend, ranks, rank, localRank⟩ := by
  simp only [newStatelessGroup]
  split
  · exact Action.triple_raise _
  · rename_i ranks hfind
    have hmem := List.mem_of_find?_eq_some hfind
    have hown : ∃ r ∈ ranks, (r : Int) = rank := by
      simpa using List.find?_some hfind
    refine Action.triple_bind (Action.Keeps.triple (Action.keeps_modify fun s hs => hrequest s ranks hs)) fun _ => ?_
    refine Action.triple_bind (Action.keeps_lift _).triple fun _ => ?_
    refine Action.triple_bind (Action.Keeps.triple Action.keeps_get) fun _ => ?_
    refine Action.triple_bind (Action.Keeps.triple (Action.keeps_modify fun s hs => hmake s _ _ hs)) fun _ => ?_
    exact Action.triple_pure fun _ _ _ => ⟨ranks, hmem, hown, rfl⟩

def initElasticEpWorld (env : Environment) (config : ParallelConfig) (localRank : Int) (backend : Option String)
    (rank worldSize : Int) : Setup Unit := do
  assert ((← Action.get).world = none) "world group already initialized"
  let globalRank := offsetRank config.dataParallelRank worldSize rank
  let allRanks := List.range config.worldSizeAcrossDp
  let groupRanks := if allRanks.any fun r : Nat => (r : Int) = globalRank then [allRanks] else allRanks.map ([·])
  env.coordStore
  let world ← newStatelessGroup env groupRanks localRank backend globalRank
  assert (config.nnodesWithinDp = 1) "Elastic EP is not supported with multi-node TP/PP"
  match world.coordinator with
  | .stateless group =>
    let count ← env.statelessNodeCount group
    Action.modify fun s => { s with nodeCount := some count, world := some world }
  | .group .. => Action.raise .attributeError

def initWorldGroup (env : Environment) (ranks : List Nat) (localRank : Int) (backend : Option String) :
    Setup CoordinatorRef :=
  GroupCoordinator.init env.useCustomOpCollectives ⟨[ranks], localRank, backend, false, false, some "world"⟩

def initModelParallelGroup (env : Environment) (groupRanks : List (List Nat)) (localRank : Int)
    (backend : Option String) (useMessageQueueBroadcaster : Bool) (groupName : String)
    (useDeviceCommunicator : Bool) : Setup CoordinatorRef :=
  GroupCoordinator.init env.useCustomOpCollectives
    ⟨groupRanks, localRank, backend, useDeviceCommunicator, useMessageQueueBroadcaster, some groupName⟩

/-- _node_count(_WORLD.cpu_group), or the configured number of nodes. -/
def countNodes (env : Environment) (world : CoordinatorRef) : Py Nat :=
  match (env.config.map (·.parallelConfig.nnodes)).filter (1 < ·), world.coordinator with
  | some nnodes, _ => .ok nnodes
  | none, .group g _ => env.nodeCount g.cpuGroup
  | none, .stateless _ => .error .attributeError

def initWorld (env : Environment) (localRank : Int) (backend : Option String) : Setup Unit := do
  let group ← defaultGroup
  match (← Action.get).world with
  | none =>
    let world ← initWorldGroup env (List.range group.worldSize) localRank backend
    Action.modify fun s => { s with world := some world }
    let count ← countNodes env world
    Action.modify fun s => { s with nodeCount := some count }
  | some world =>
    assert (world.coordinator.worldSize = group.worldSize)
      "world group already initialized with a different world size"

/-- The group of the ranks of one replica. -/
def initInnerDpWorld (env : Environment) (config : ParallelConfig) (backend : Option String) : Setup Unit := do
  if 1 < config.dataParallelSize then
    let world ← getWorldGroup
    let innerDpWorld ← initModelParallelGroup env (innerDpGroupRanks config.dataParallelSize config.worldSize)
      world.coordinator.localRank backend true "inner_dp_world" false
    Action.modify fun s => { s with innerDpWorld := some innerDpWorld }
  else Action.modify fun s => { s with innerDpWorld := s.world }

/-- A replica that spans nodes has a group of its own. -/
def initReplicaWorld (env : Environment) (backend : Option String) : Setup Unit :=
  if env.config.any (1 < ·.parallelConfig.nnodesWithinDp) then
    match adjustingConfig env.config with
    | none => Action.raise .unboundLocalError
    | some config => initInnerDpWorld env config backend
  else return ()

/-- The configuration, when elastic expert parallelism is on. -/
def elasticConfig (env : Environment) : Option ParallelConfig :=
  (env.config.map (·.parallelConfig)).filter (·.enableElasticEp)

/-- The local variable backend once torch.distributed is initialised. -/
def ensureDefaultGroup (env : Environment) (args : InitDistributedArgs) : Setup (Option String) := do
  if (← Action.get).dist.isSome then return args.backend
  else initDefaultGroup env (elasticConfig env).isSome args

def initDistributedEnvironment (env : Environment) (args : InitDistributedArgs) : Setup Unit := do
  let args := adjustArgs env.config args
  let backend ← ensureDefaultGroup env args
  let localRank := localRankOf env args
  match elasticConfig env with
  | some config => initElasticEpWorld env config localRank backend args.rank args.worldSize
  | none =>
    initWorld env localRank backend
    initReplicaWorld env backend

/-- The groups of model parallelism: the families of ranks, and a second group over EP. -/
inductive Slot where
  | of (name : GroupName)
  | eplb
  deriving DecidableEq, Repr

def ModuleState.slot (s : ModuleState) : Slot → Option CoordinatorRef
  | .of .tp => s.tp
  | .of .dcp => s.dcp
  | .of .pcp => s.pcp
  | .of .pp => s.pp
  | .of .dp => s.dp
  | .of .ep => s.ep
  | .eplb => s.eplb

def ModuleState.setSlot (s : ModuleState) (slot : Slot) (value : Option CoordinatorRef) : ModuleState :=
  match slot with
  | .of .tp => { s with tp := value }
  | .of .dcp => { s with dcp := value }
  | .of .pcp => { s with pcp := value }
  | .of .pp => { s with pp := value }
  | .of .dp => { s with dp := value }
  | .of .ep => { s with ep := value }
  | .eplb => { s with eplb := value }

def Slot.groupName : Slot → String
  | .of .tp => "tp"
  | .of .dcp => "dcp"
  | .of .pcp => "pcp"
  | .of .pp => "pp"
  | .of .dp => "dp"
  | .of .ep => "ep"
  | .eplb => "eplb"

def Slot.alreadyInitialized : Slot → String
  | .of .tp => "tensor model parallel group is already initialized"
  | .of .dcp => "decode context model parallel group is already initialized"
  | .of .pcp => "prefill context parallel group is already initialized"
  | .of .pp => "pipeline model parallel group is already initialized"
  | .of .dp => "data parallel group is already initialized"
  | .of .ep => "expert parallel group is already initialized"
  | .eplb => "EPLB group is already initialized"

def Slot.assertUnset (slot : Slot) : Setup Unit := do
  assert ((← Action.get).slot slot = none) slot.alreadyInitialized

theorem Slot.assertUnset_keeps {I : ModuleState → Prop} (slot : Slot) : Action.Keeps I slot.assertUnset :=
  Action.keeps_bind Action.keeps_get fun _ => Action.keeps_lift _

/-- The arguments of initialize_model_parallel after its first lines. -/
structure ModelParallel where
  config : VllmConfig
  sizes : ModelParallelSizes
  allRanks : NDArray Nat
  backend : Option String

namespace ModelParallel
variable (env : Environment) (mp : ModelParallel)

def elastic : Bool := mp.config.parallelConfig.enableElasticEp

/-- The list of a family, which the elastic mode replaces inside a replica. -/
def replicaRanks (name : GroupName) : Py (List (List Nat)) := do
  let groupRanks ← name.groupRanks mp.sizes mp.allRanks
  if mp.elastic then name.localGroupRanks mp.sizes (localAllRanks mp.sizes) else return groupRanks

/-- TP, DCP, PCP and PP. -/
def initReplicaGroup (name : GroupName) : Setup Unit := do
  Slot.assertUnset (.of name)
  let groupRanks ← mp.replicaRanks name
  let world ← getWorldGroup
  let group ← initModelParallelGroup env groupRanks world.coordinator.localRank mp.backend
    (name = .tp ∨ name = .dcp) (Slot.of name).groupName true
  Action.modify (·.setSlot (.of name) (some group))

/-- A group across replicas: in elastic mode it is stateless. -/
def acrossGroup (slot : Slot) (groupRanks : List (List Nat)) (world : AnyCoordinator) : Setup CoordinatorRef :=
  if mp.elastic then newStatelessGroup env groupRanks world.localRank mp.backend world.rank
  else initModelParallelGroup env groupRanks world.localRank mp.backend false slot.groupName true

/-- DP, EP and EPLB. -/
def initAcross (slot : Slot) (groupRanks : List (List Nat)) : Setup Unit := do
  let world ← getWorldGroup
  let group ← mp.acrossGroup env slot groupRanks world.coordinator
  Action.modify (·.setSlot slot (some group))

def initDataParallel : Setup Unit := do
  Slot.assertUnset (.of .dp)
  let groupRanks ← GroupName.dp.groupRanks mp.sizes mp.allRanks
  mp.initAcross env (.of .dp) groupRanks

/-- Dense models have no expert-parallel groups. -/
def initExpertParallel : Setup Unit := do
  Slot.assertUnset (.of .ep)
  if mp.config.isMoe.getD true then
    let groupRanks ← GroupName.ep.groupRanks mp.sizes mp.allRanks
    mp.initAcross env (.of .ep) groupRanks
    Slot.assertUnset .eplb
    if mp.config.parallelConfig.enableEplb then mp.initAcross env .eplb groupRanks

end ModelParallel

/-- An argument that is None or empty. -/
def truthy : Option String → Option String
  | some value => if value = "" then none else some value
  | none => none

/-- torch.distributed.get_backend(group.device_group) -/
def deviceBackend (coordinator : AnyCoordinator) : Py (Option String) :=
  match coordinator with
  | .group g _ => .ok (some g.deviceGroup.backend)
  | .stateless _ => .error (.valueError "Invalid process group specified")

structure ModelParallelArgs where
  tensor : Nat
  pipeline : Nat
  prefillContext : Nat
  decodeContext : Option Nat
  backend : Option String
  deriving DecidableEq, Repr

def getCurrentVllmConfig (env : Environment) : Py VllmConfig :=
  match env.config with
  | some config => .ok config
  | none => .error (.assertionError "")

/-- The world size and the backend, from the stateless world group in elastic mode. -/
def worldAndBackend (env : Environment) (config : ParallelConfig) (backend : Option String) :
    Setup (Nat × Option String) := do
  if config.enableElasticEp then
    env.coordStore
    let world ← getWorldGroup
    return (world.coordinator.worldSize, some ((truthy backend).getD "nccl"))
  else
    let group ← defaultGroup
    match truthy backend with
    | some backend => return (group.worldSize, some backend)
    | none =>
      let world ← getWorldGroup
      return (group.worldSize, ← deviceBackend world.coordinator)

/-- The first lines: the world size, the backend and the layout. -/
def modelParallel (env : Environment) (args : ModelParallelArgs) : Setup ModelParallel := do
  assert (← Action.get).dist.isSome ""
  let config ← getCurrentVllmConfig env
  let (worldSize, backend) ← worldAndBackend env config.parallelConfig args.backend
  let sizes : ModelParallelSizes :=
    ⟨args.tensor, args.pipeline, args.prefillContext, args.decodeContext, config.parallelConfig.dataParallelSize⟩
  return { config, sizes, allRanks := ← allRanks worldSize sizes, backend }

def initializeModelParallel (env : Environment) (args : ModelParallelArgs) : Setup Unit := do
  let mp ← modelParallel env args
  mp.initReplicaGroup env .tp
  mp.initReplicaGroup env .dcp
  mp.initReplicaGroup env .pcp
  mp.initReplicaGroup env .pp
  mp.initDataParallel env
  mp.initExpertParallel env

def getGroup (s : ModuleState) (slot : Slot) (message : String) : Py CoordinatorRef :=
  match s.slot slot with
  | some group => .ok group
  | none => .error (.assertionError message)

def modelParallelIsInitialized (s : ModuleState) : Bool := s.tp.isSome && s.pp.isSome

/-- Compare the sizes of existing groups with the expected ones. -/
def checkSizes (args : ModelParallelArgs) (s : ModuleState) : Py Unit := do
  let tp := (← getGroup s (.of .tp) "tensor model parallel group is not initialized").coordinator.worldSize
  let tensor := args.tensor
  assert (tp = tensor)
    (s!"tensor parallel group already initialized, but of unexpected size. got: " ++
      s!"get_tensor_model_parallel_world_size()={tp} vs. wanted: tensor_model_parallel_size={tensor}")
  let pp := (← getGroup s (.of .pp) "pipeline model parallel group is not initialized").coordinator.worldSize
  let pipeline := args.pipeline
  assert (pp = pipeline)
    (s!"pipeline parallel group already initialized, but of unexpected size. got: " ++
      s!"pp_world_size={pp} vs. wanted: pipeline_model_parallel_size={pipeline}")
  let pcp := (← getGroup s (.of .pcp) "prefill context parallel group is not initialized").coordinator.worldSize
  let prefillContext := args.prefillContext
  assert (pcp = prefillContext)
    (s!"prefill context parallel group already initialized, but of unexpected size: " ++
      s!"pcp_world_size={pcp} vs. prefill_context_model_parallel_size={prefillContext}")

/-- The backend argument, or that of the world group. -/
def ensuredBackend (backend : Option String) (world : AnyCoordinator) : Py (Option String) :=
  match truthy backend, world with
  | some backend, _ => .ok (some backend)
  | none, .stateless group => .ok group.backend
  | none, .group g replaced => deviceBackend (.group g replaced)

def ensureModelParallelInitialized (env : Environment) (args : ModelParallelArgs) : Setup Unit := do
  let world ← getWorldGroup
  let backend ← ensuredBackend args.backend world.coordinator
  if modelParallelIsInitialized (← Action.get) then checkSizes args (← Action.get)
  else initializeModelParallel env { args with backend }

end B70DualTP.Coordinator
