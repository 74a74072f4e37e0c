import B70DualTP.Library.Action
import B70DualTP.Coordinator.GroupCoordinator
import B70DualTP.Coordinator.Groups

/-! The state of one process: its environment variable, the imported module, the process
groups it has requested, and the globals of parallel_state. Here are also the functions
that construct a group. -/
namespace B70DualTP.Coordinator
open Library Torch Communicator

/-- A process group that torch was asked for. -/
structure GroupRequest where
  backend : Option String
  ranks : List Nat
  deriving DecidableEq, Repr

/-- What is read of a StatelessGroupCoordinator: its device group is on the backend it
was given. -/
structure StatelessGroup where
  backend : Option String
  ranks : List Nat
  rank : Int
  localRank : Int
  deriving DecidableEq, Repr

/-- A constructed coordinator. For a GroupCoordinator, replaced says that the flag put
gloo in place of the requested backend. -/
inductive AnyCoordinator where
  | group (g : GroupCoordinator) (replaced : Bool)
  | stateless (g : StatelessGroup)
  deriving DecidableEq, Repr

/-- A coordinator with its identity. -/
structure CoordinatorRef where
  id : Nat
  coordinator : AnyCoordinator
  deriving DecidableEq, Repr

/-- The default process group of torch.distributed. -/
structure DefaultGroup where
  worldSize : Nat
  rank : Nat
  backend : String
  deriving DecidableEq, Repr

structure ModuleState where
  /-- os.environ.get("VLLM_XPU_HOSTSTAGED_TP") -/
  hoststagedTp : Option String
  /-- _HOSTSTAGED of xpu_communicator, once it is imported. -/
  xpuHoststaged : Option Bool
  dist : Option DefaultGroup
  requests : List GroupRequest
  groupNameCounter : List (String × Nat)
  /-- _groups: the coordinator registered under a name. -/
  groups : List (String × Nat)
  nextId : Nat
  /-- Every coordinator whose construction has finished. -/
  constructed : List CoordinatorRef
  world : Option CoordinatorRef
  innerDpWorld : Option CoordinatorRef
  nodeCount : Option Nat
  tp : Option CoordinatorRef
  dcp : Option CoordinatorRef
  pcp : Option CoordinatorRef
  pp : Option CoordinatorRef
  dp : Option CoordinatorRef
  ep : Option CoordinatorRef
  eplb : Option CoordinatorRef
  deriving DecidableEq, Repr

/-- A process that has imported parallel_state alone; torch.distributed may be initialised. -/
def ModuleState.fresh (hoststagedTp : Option String) (dist : Option DefaultGroup) : ModuleState where
  hoststagedTp := hoststagedTp
  xpuHoststaged := none
  dist := dist
  requests := []
  groupNameCounter := []
  groups := []
  nextId := 0
  constructed := []
  world := none
  innerDpWorld := none
  nodeCount := none
  tp := none
  dcp := none
  pcp := none
  pp := none
  dp := none
  ep := none
  eplb := none

/-- A function of parallel_state: it changes the state and may raise. -/
abbrev Setup (A : Type) := Action PyError ModuleState A

/-- os.environ.get("VLLM_XPU_HOSTSTAGED_TP", "0") == "1" -/
def ModuleState.hoststaged (s : ModuleState) : Bool := s.hoststagedTp.getD "0" == "1"

def ModuleState.request (s : ModuleState) (requests : List GroupRequest) : ModuleState :=
  { s with requests := s.requests ++ requests }

@[simp] theorem ModuleState.request_dist (s : ModuleState) (L : List GroupRequest) : (s.request L).dist = s.dist := rfl
@[simp] theorem ModuleState.request_xpuHoststaged (s : ModuleState) (L : List GroupRequest) :
    (s.request L).xpuHoststaged = s.xpuHoststaged := rfl
@[simp] theorem ModuleState.request_hoststaged (s : ModuleState) (L : List GroupRequest) :
    (s.request L).hoststaged = s.hoststaged := rfl
@[simp] theorem ModuleState.request_requests (s : ModuleState) (L : List GroupRequest) :
    (s.request L).requests = s.requests ++ L := rfl
@[simp] theorem ModuleState.request_request (s : ModuleState) (L L' : List GroupRequest) :
    (s.request L).request L' = s.request (L ++ L') := by simp [request]

namespace AnyCoordinator

def worldSize : AnyCoordinator → Nat
  | .group g _ => g.worldSize
  | .stateless g => g.ranks.length

def rank : AnyCoordinator → Int
  | .group g _ => g.rank
  | .stateless g => g.rank

def localRank : AnyCoordinator → Int
  | .group g _ => g.localRank
  | .stateless g => g.localRank

/-- The backend of the device group; only a StatelessGroupCoordinator has it as an attribute. -/
def backend : AnyCoordinator → Option String
  | .group g _ => some g.deviceGroup.backend
  | .stateless g => g.backend

end AnyCoordinator

def setKey (key : String) (value : Nat) : List (String × Nat) → List (String × Nat)
  | [] => [(key, value)]
  | (k, v) :: entries => if k = key then (k, value) :: entries else (k, v) :: setKey key value entries

def getUniqueName (name : String) : Setup String := do
  let count := ((← Action.get).groupNameCounter.lookup name).getD 0
  Action.modify fun s => { s with groupNameCounter := setKey name (count + 1) s.groupNameCounter }
  return s!"{name}:{count}"

/-- _register_group, for the object under construction. -/
def registerGroup (uniqueName : String) : Setup Nat := do
  let id := (← Action.get).nextId
  Action.modify fun s => { s with groups := setKey uniqueName id s.groups, nextId := id + 1 }
  return id

def notInitialized : PyError :=
  .valueError "Default process group has not been initialized, please make sure to call init_process_group."

def defaultGroup : Setup DefaultGroup := do
  match (← Action.get).dist with
  | some group => return group
  | none => Action.raise notInitialized

/-- torch.distributed.new_group; without a backend the default group's is used. It sorts the
ranks: here they are kept as given, since every list that is passed is ascending. -/
def newGroup (ranks : List Nat) (backend : Option String) : Setup ProcessGroup := do
  let group ← defaultGroup
  let id := (← Action.get).requests.length
  Action.modify fun s => s.request [⟨backend, ranks⟩]
  return ⟨id, backend.getD group.backend, ranks⟩

theorem defaultGroup_keeps {I : ModuleState → Prop} : Action.Keeps I defaultGroup := by
  refine Action.keeps_bind Action.keeps_get fun s => ?_
  split
  · exact Action.keeps_pure _
  · exact Action.keeps_raise _

theorem newGroup_keeps {I : ModuleState → Prop} (h : ∀ s L, I s → I (s.request L)) (ranks : List Nat)
    (backend : Option String) : Action.Keeps I (newGroup ranks backend) := by
  refine Action.keeps_bind defaultGroup_keeps fun group => Action.keeps_bind Action.keeps_get fun s => ?_
  exact Action.keeps_bind (Action.keeps_modify fun s hs => h s _ hs) fun _ => Action.keeps_pure _

/-- Importing xpu_communicator reads the flag, the first time. -/
def importXpuCommunicator : Setup Bool := do
  match (← Action.get).xpuHoststaged with
  | some hoststaged => return hoststaged
  | none =>
    let hoststaged := (← Action.get).hoststaged
    Action.modify fun s => { s with xpuHoststaged := some hoststaged }
    return hoststaged

/-- The groups of the caller's own list of ranks. -/
structure OwnGroups where
  ranks : List Nat
  rankInGroup : Nat
  rank_lt : rankInGroup < ranks.length
  deviceGroup : ProcessGroup
  cpuGroup : ProcessGroup
  replaced : Bool

/-- The loop over group_ranks: two groups for each list. The flag is read each time. -/
def createGroups (rank : Nat) (backend : Option String) : List (List Nat) → Option OwnGroups →
    Setup (Option OwnGroups)
  | [], own => return own
  | ranks :: groupRanks, own => do
    let hoststagedTp := (← Action.get).hoststaged
    let devBackend := if hoststagedTp then some "gloo" else backend
    let deviceGroup ← newGroup ranks devBackend
    let cpuGroup ← newGroup ranks (some "gloo")
    let own := if h : rank ∈ ranks then
      some ⟨ranks, ranks.idxOf rank, List.idxOf_lt_length_of_mem h, deviceGroup, cpuGroup, hoststagedTp⟩ else own
    createGroups rank backend groupRanks own

structure InitArgs where
  groupRanks : List (List Nat)
  localRank : Int
  torchDistributedBackend : Option String
  useDeviceCommunicator : Bool
  useMessageQueueBroadcaster : Bool
  groupName : Option String
  deriving DecidableEq, Repr

/-- torch.device(f"xpu:{local_rank}") -/
def xpuDevice (localRank : Int) : Py Device :=
  if 0 ≤ localRank then .ok (.accelerator .xpu localRank.toNat) else .error .runtimeError

/-- group_name or "anonymous" -/
def groupNameOf : Option String → String
  | some name => if name = "" then "anonymous" else name
  | none => "anonymous"

/-- The device communicator, whose class is imported when it is first needed. -/
def OwnGroups.communicator (own : OwnGroups) (useDeviceCommunicator : Bool) (device : Device)
    (uniqueName : String) : Setup (Option XpuCommunicator) := do
  if useDeviceCommunicator ∧ 1 < own.ranks.length then
    let hoststaged ← importXpuCommunicator
    if h : own.rankInGroup < own.cpuGroup.ranks.length then
      return some ⟨⟨own.cpuGroup, device, own.deviceGroup, uniqueName, own.rankInGroup, h⟩, hoststaged⟩
    else Action.raise .runtimeError
  else return none

/-- The constructor once the object has its name. -/
def GroupCoordinator.construct (useCustomOpCollectives : Bool) (args : InitArgs) (uniqueName : String) (id : Nat) :
    Setup CoordinatorRef := do
  let group ← defaultGroup
  match ← createGroups group.rank args.torchDistributedBackend args.groupRanks none with
  | none => Action.raise (.assertionError "")
  | some own =>
    let device ← xpuDevice args.localRank
    let deviceCommunicator ← own.communicator args.useDeviceCommunicator device uniqueName
    let coordinator := AnyCoordinator.group
      { uniqueName, rank := group.rank, ranks := own.ranks, localRank := args.localRank.toNat,
        rankInGroup := own.rankInGroup, rank_lt := own.rank_lt, cpuGroup := own.cpuGroup,
        deviceGroup := own.deviceGroup, device, deviceCommunicator,
        mqBroadcaster := args.useMessageQueueBroadcaster && decide (1 < own.ranks.length),
        useCustomOpCall := useCustomOpCollectives } own.replaced
    Action.modify fun s => { s with constructed := s.constructed ++ [⟨id, coordinator⟩] }
    return ⟨id, coordinator⟩

/-- GroupCoordinator(...), on the XPU platform. -/
def GroupCoordinator.init (useCustomOpCollectives : Bool) (args : InitArgs) : Setup CoordinatorRef := do
  let uniqueName ← getUniqueName (groupNameOf args.groupName)
  let id ← registerGroup uniqueName
  construct useCustomOpCollectives args uniqueName id

/-- The backend of the device groups that a constructor asks for. -/
def ModuleState.devBackend (s : ModuleState) (backend : Option String) : Option String :=
  if s.hoststaged then some "gloo" else backend

@[simp] theorem ModuleState.request_devBackend (s : ModuleState) (L : List GroupRequest) (backend : Option String) :
    (s.request L).devBackend backend = s.devBackend backend := rfl

/-- _HOSTSTAGED as an import now would leave it. -/
def ModuleState.latched (s : ModuleState) : Bool := s.xpuHoststaged.getD s.hoststaged

@[simp] theorem ModuleState.request_latched (s : ModuleState) (L : List GroupRequest) :
    (s.request L).latched = s.latched := rfl

def OwnGroups.membership (own : OwnGroups) : Membership := ⟨own.ranks, own.rankInGroup⟩

/-- Two groups for each list, on the device backend and on gloo. -/
def loopRequests (devBackend : Option String) (groupRanks : List (List Nat)) : List GroupRequest :=
  groupRanks.flatMap fun ranks => [⟨devBackend, ranks⟩, ⟨some "gloo", ranks⟩]

theorem defaultGroup_eq {s : ModuleState} {group : DefaultGroup} (hd : s.dist = some group) :
    defaultGroup s = (.ok group, s) := by simp [defaultGroup, Action.bind_apply, hd]

theorem newGroup_eq {s : ModuleState} {group : DefaultGroup} (hd : s.dist = some group) (ranks : List Nat)
    (backend : Option String) : newGroup ranks backend s =
      (.ok ⟨s.requests.length, backend.getD group.backend, ranks⟩, s.request [⟨backend, ranks⟩]) :=
  (Action.bind_ok (defaultGroup_eq hd)).trans rfl

/-- The groups kept from one iteration of the loop. -/
structure OwnGroups.From (own : OwnGroups) (s : ModuleState) (group : DefaultGroup) (backend : Option String) :
    Prop where
  rank : own.ranks[own.rankInGroup]? = some group.rank
  ranks_cpuGroup : own.cpuGroup.ranks = own.ranks
  ranks_deviceGroup : own.deviceGroup.ranks = own.ranks
  backend_deviceGroup : own.deviceGroup.backend = (s.devBackend backend).getD group.backend
  replaced : own.replaced = s.hoststaged

/-- The list of one iteration, when the caller is in it. -/
def OwnGroups.pick (s : ModuleState) (group : DefaultGroup) (rank : Nat) (backend : Option String)
    (ranks : List Nat) (own : Option OwnGroups) : Option OwnGroups :=
  if h : rank ∈ ranks then
    some ⟨ranks, ranks.idxOf rank, List.idxOf_lt_length_of_mem h,
      ⟨s.requests.length, (s.devBackend backend).getD group.backend, ranks⟩,
      ⟨s.requests.length + 1, "gloo", ranks⟩, s.hoststaged⟩
  else own

theorem createGroups_cons {s : ModuleState} {group : DefaultGroup} (hd : s.dist = some group) (rank : Nat)
    (backend : Option String) (ranks : List Nat) (groupRanks : List (List Nat)) (own : Option OwnGroups) :
    createGroups rank backend (ranks :: groupRanks) own s =
      createGroups rank backend groupRanks (OwnGroups.pick s group rank backend ranks own)
        (s.request [⟨s.devBackend backend, ranks⟩, ⟨some "gloo", ranks⟩]) := by
  have h₁ := newGroup_eq hd ranks (s.devBackend backend)
  have h₂ := newGroup_eq (s := s.request [⟨s.devBackend backend, ranks⟩]) hd ranks (some "gloo")
  refine (Action.bind_ok (Action.get_apply s)).trans ((Action.bind_ok h₁).trans ((Action.bind_ok h₂).trans ?_))
  simp [OwnGroups.pick]

/-- The loop succeeds once torch.distributed is initialised. It finds the caller's list
and changes nothing but the requests. -/
theorem createGroups_eq {s : ModuleState} {group : DefaultGroup} (hd : s.dist = some group)
    (backend : Option String) (groupRanks : List (List Nat)) (own : Option OwnGroups)
    (hown : ∀ o ∈ own, o.From s group backend) :
    ∃ own', createGroups group.rank backend groupRanks own s =
        (.ok own', s.request (loopRequests (s.devBackend backend) groupRanks)) ∧
      own'.map (·.membership) = groupRanks.foldl
        (fun found ranks => if group.rank ∈ ranks then some ⟨ranks, ranks.idxOf group.rank⟩ else found)
        (own.map (·.membership)) ∧ ∀ o ∈ own', o.From s group backend := by
  induction groupRanks generalizing s own with
  | nil => exact ⟨own, by simp [createGroups, loopRequests, ModuleState.request], rfl, hown⟩
  | cons ranks groupRanks ih =>
    have hpick : ∀ o ∈ OwnGroups.pick s group group.rank backend ranks own, o.From s group backend := by
      intro o ho
      simp only [OwnGroups.pick] at ho
      split at ho
      · rename_i hmem
        cases ho
        exact ⟨by simp [List.getElem?_idxOf hmem], rfl, rfl, rfl, rfl⟩
      · exact hown o ho
    obtain ⟨own', he, hm, hf⟩ := ih (s := s.request [⟨s.devBackend backend, ranks⟩, ⟨some "gloo", ranks⟩]) hd _
      fun o ho => ⟨(hpick o ho).1, (hpick o ho).2, (hpick o ho).3, (hpick o ho).4, (hpick o ho).5⟩
    refine ⟨own', ?_, ?_, fun o ho => ⟨(hf o ho).1, (hf o ho).2, (hf o ho).3, (hf o ho).4, (hf o ho).5⟩⟩
    · rw [createGroups_cons hd, he]
      simp [loopRequests]
    · rw [hm, List.foldl_cons]
      congr 1
      simp only [OwnGroups.pick]
      split <;> rfl

/-- The construction gets as far as the device communicator. -/
def ModuleState.createsCommunicator (s : ModuleState) (args : InitArgs) : Bool :=
  match s.dist with
  | none => false
  | some group => match selectGroup group.rank args.groupRanks with
    | none => false
    | some own => args.useDeviceCommunicator && decide (1 < own.ranks.length) && decide (0 ≤ args.localRank)

/-- What a construction does to the state, and what it constructs. -/
structure Constructs (s : ModuleState) (args : InitArgs) (result : Py CoordinatorRef) (s' : ModuleState) : Prop where
  frame : s' = { s with
    xpuHoststaged := if s.createsCommunicator args then some s.latched else s.xpuHoststaged
    requests := s.requests ++ s.dist.elim []
      fun _ => loopRequests (s.devBackend args.torchDistributedBackend) args.groupRanks
    groupNameCounter := s'.groupNameCounter
    groups := s'.groups
    nextId := s'.nextId
    constructed := s'.constructed }
  error : ∀ e, result = .error e → s'.constructed = s.constructed ∧ s.createsCommunicator args = false
  ok : ∀ ref, result = .ok ref → s'.constructed = s.constructed ++ [ref] ∧ ∃ g group,
    ref.coordinator = .group g s.hoststaged ∧ g.Wired ∧ s.dist = some group ∧
      selectGroup group.rank args.groupRanks = some ⟨g.ranks, g.rankInGroup⟩ ∧
      g.deviceGroup.backend = (s.devBackend args.torchDistributedBackend).getD group.backend ∧
      g.deviceCommunicator.map (·.hoststaged) = if s.createsCommunicator args then some s.latched else none

theorem importXpuCommunicator_eq (s : ModuleState) :
    importXpuCommunicator s = (.ok s.latched, { s with xpuHoststaged := some s.latched }) := by
  rw [importXpuCommunicator, Action.bind_ok (Action.get_apply s), ModuleState.latched]
  cases hx : s.xpuHoststaged with
  | none => rfl
  | some b =>
    have hs : s = { s with xpuHoststaged := some b } := by rw [← hx]
    exact congrArg (Prod.mk _) hs

theorem communicator_eq {own : OwnGroups} {s : ModuleState} (h : own.cpuGroup.ranks = own.ranks)
    (useDeviceCommunicator : Bool) (device : Device) (uniqueName : String) :
    ∃ comm, own.communicator useDeviceCommunicator device uniqueName s =
        (.ok comm, { s with xpuHoststaged :=
          if useDeviceCommunicator ∧ 1 < own.ranks.length then some s.latched else s.xpuHoststaged }) ∧
      (comm.map (·.hoststaged) = if useDeviceCommunicator ∧ 1 < own.ranks.length then some s.latched else none) ∧
      ∀ c ∈ comm, c.cpuGroup = own.cpuGroup ∧ c.deviceGroup = own.deviceGroup ∧ c.device = device ∧
        c.rankInGroup = own.rankInGroup := by
  simp only [OwnGroups.communicator]
  split
  · have hlt : own.rankInGroup < own.cpuGroup.ranks.length := h ▸ own.rank_lt
    rw [Action.bind_ok (importXpuCommunicator_eq s), dif_pos hlt]
    exact ⟨_, rfl, rfl, fun c hc => by cases hc; exact ⟨rfl, rfl, rfl, rfl⟩⟩
  · exact ⟨none, rfl, rfl, fun c hc => by cases hc⟩

private theorem construct_constructs (useCustomOpCollectives : Bool) (args : InitArgs) (uniqueName : String)
    (id : Nat) (s : ModuleState) :
    Constructs s args (GroupCoordinator.construct useCustomOpCollectives args uniqueName id s).1
      (GroupCoordinator.construct useCustomOpCollectives args uniqueName id s).2 := by
  rw [GroupCoordinator.construct]
  cases hd : s.dist with
  | none =>
    have hc : s.createsCommunicator args = false := by simp [ModuleState.createsCommunicator, hd]
    have hg : defaultGroup s = (.error notInitialized, s) := by simp [defaultGroup, Action.bind_apply, hd]
    rw [Action.bind_error hg]
    have hnone : (s.dist.elim [] fun _ => loopRequests (s.devBackend args.torchDistributedBackend)
        args.groupRanks) = [] := by rw [hd]; rfl
    exact ⟨by simp [hc, hnone], fun _ _ => ⟨rfl, hc⟩, fun _ h => by cases h⟩
  | some group =>
    obtain ⟨own, hown, hm, hf⟩ := createGroups_eq hd args.torchDistributedBackend
      args.groupRanks none (fun _ h => by cases h)
    have hsel : selectGroup group.rank args.groupRanks = own.map (·.membership) := hm.symm
    rw [Action.bind_ok (defaultGroup_eq hd), Action.bind_ok hown]
    cases own with
    | none =>
      have hc : s.createsCommunicator args = false := by simp [ModuleState.createsCommunicator, hd, hsel]
      exact ⟨by simp [hc, hd, ModuleState.request], fun _ _ => ⟨rfl, hc⟩, fun _ h => by cases h⟩
    | some own =>
      have hc : s.createsCommunicator args = (args.useDeviceCommunicator && decide (1 < own.ranks.length) &&
          decide (0 ≤ args.localRank)) := by
        simp [ModuleState.createsCommunicator, hd, hsel, OwnGroups.membership]
      by_cases hl : 0 ≤ args.localRank
      · obtain ⟨comm, hcomm, hflag, hwired⟩ := communicator_eq
          (s := s.request (loopRequests (s.devBackend args.torchDistributedBackend) args.groupRanks))
          (hf own rfl).ranks_cpuGroup args.useDeviceCommunicator (.accelerator .xpu args.localRank.toNat) uniqueName
        have hdev : ∀ t : ModuleState, (liftM (xpuDevice args.localRank) : Setup Device) t =
            (.ok (.accelerator .xpu args.localRank.toNat), t) := by
          intro t
          simp [xpuDevice, hl]
        simp only []
        rw [Action.bind_ok (hdev _), Action.bind_ok hcomm]
        refine ⟨?_, (fun _ h => by cases h), ?_⟩
        · simp [hc, hl, hd, Action.bind_apply, ModuleState.request]
          rfl
        · rintro _ ⟨rfl⟩
          refine ⟨rfl, _, group, by rw [(hf own rfl).replaced],
            ⟨(hf own rfl).rank, (hf own rfl).ranks_cpuGroup, (hf own rfl).ranks_deviceGroup, hwired⟩, hd,
            by simp [hsel, OwnGroups.membership],
            (hf own rfl).backend_deviceGroup, ?_⟩
          simpa [hc, hl] using hflag
      · have hc' : s.createsCommunicator args = false := by simp [hc, hl]
        have hdev : ∀ t : ModuleState, (liftM (xpuDevice args.localRank) : Setup Device) t =
            (.error .runtimeError, t) := by
          intro t
          simp [xpuDevice, hl]
        simp only []
        rw [Action.bind_error (hdev _)]
        exact ⟨by simp [hc', hd, ModuleState.request], fun _ _ => ⟨rfl, hc'⟩, fun _ h => by cases h⟩

theorem GroupCoordinator.init_constructs (useCustomOpCollectives : Bool) (args : InitArgs) (s : ModuleState) :
    Constructs s args (init useCustomOpCollectives args s).1 (init useCustomOpCollectives args s).2 := by
  -- naming the object leaves what the constructor reads unchanged
  obtain ⟨uniqueName, id, counter, groups, nextId, heq⟩ : ∃ uniqueName id counter groups nextId,
      init useCustomOpCollectives args s = construct useCustomOpCollectives args uniqueName id
        { s with groupNameCounter := counter, groups, nextId } := ⟨_, _, _, _, _, rfl⟩
  have h := construct_constructs useCustomOpCollectives args uniqueName id
    { s with groupNameCounter := counter, groups, nextId }
  rw [heq]
  exact ⟨h.frame, h.error, h.ok⟩

section Keeps
variable {I : ModuleState → Prop}

private theorem createGroups_keeps (hrequest : ∀ s L, I s → I (s.request L)) (rank : Nat) (backend : Option String)
    (groupRanks : List (List Nat)) (own : Option OwnGroups) :
    Action.Keeps I (createGroups rank backend groupRanks own) := by
  induction groupRanks generalizing own with
  | nil => exact Action.keeps_pure _
  | cons ranks groupRanks ih =>
    refine Action.keeps_bind Action.keeps_get fun s => ?_
    apply Action.keeps_bind (newGroup_keeps hrequest _ _)
    intro deviceGroup
    apply Action.keeps_bind (newGroup_keeps hrequest _ _)
    intro cpuGroup
    exact ih _

private theorem communicator_keeps (himport : ∀ s flag, I s → I { s with xpuHoststaged := some flag })
    (own : OwnGroups) (useDeviceCommunicator : Bool) (device : Device) (uniqueName : String) :
    Action.Keeps I (own.communicator useDeviceCommunicator device uniqueName) := by
  have hkeeps : Action.Keeps I importXpuCommunicator := by
    intro s hs
    rw [importXpuCommunicator_eq]
    exact himport s _ hs
  simp only [OwnGroups.communicator]
  split
  · apply Action.keeps_bind hkeeps
    intro hoststaged
    split
    · exact Action.keeps_pure _
    · exact Action.keeps_raise _
  · exact Action.keeps_pure _

/-- A constructor requests groups, may import the communicator and adds the finished
object, which has the name and the identity that were given. -/
theorem construct_keeps (hrequest : ∀ s L, I s → I (s.request L))
    (himport : ∀ s flag, I s → I { s with xpuHoststaged := some flag })
    (hconstructed : ∀ s L, I s → I { s with constructed := L })
    (useCustomOpCollectives : Bool) (args : InitArgs) (uniqueName : String) (id : Nat) :
    Action.Triple I (fun _ => True) (GroupCoordinator.construct useCustomOpCollectives args uniqueName id)
      fun ref _ => ref.id = id ∧ ∃ g replaced, ref.coordinator = .group g replaced ∧ g.uniqueName = uniqueName := by
  apply Action.triple_bind defaultGroup_keeps.triple
  intro group
  apply Action.triple_bind (createGroups_keeps hrequest _ _ _ _).triple
  intro own
  split
  · exact Action.triple_raise _
  · apply Action.triple_bind (Action.keeps_lift _).triple
    intro device
    apply Action.triple_bind (communicator_keeps himport _ _ _ _).triple
    intro communicator
    refine Action.triple_bind (Action.Keeps.triple (Action.keeps_modify fun s hs => hconstructed s _ hs)) fun _ => ?_
    exact Action.triple_pure fun _ _ _ => ⟨rfl, _, _, rfl, rfl⟩

end Keeps

/-- A constructor that is given these lists in a process of this rank returns an object with this
membership. -/
def Membership.BuiltFrom (m : Membership) (worldSize rank : Nat) (groupRanks : List (List Nat)) : Prop :=
  ∀ backend useCustomOpCollectives args s ref s', s.dist = some ⟨worldSize, rank, backend⟩ →
    args.groupRanks = groupRanks → GroupCoordinator.init useCustomOpCollectives args s = (.ok ref, s') →
      ∃ g replaced, ref.coordinator = .group g replaced ∧ g.ranks = m.ranks ∧ g.rankInGroup = m.rankInGroup

theorem builtFrom_of_selectGroup {worldSize rank : Nat} {groupRanks : List (List Nat)} {m : Membership}
    (h : selectGroup rank groupRanks = some m) : m.BuiltFrom worldSize rank groupRanks := by
  intro backend c args s ref s' hdist hranks hinit
  have hc := GroupCoordinator.init_constructs c args s
  obtain ⟨-, g, group, hg, -, hgroup, hselect, -⟩ := hc.ok ref (congrArg Prod.fst hinit)
  obtain rfl : group = ⟨worldSize, rank, backend⟩ := Option.some.inj (hgroup.symm.trans hdist)
  rw [hranks, h] at hselect
  cases hselect
  exact ⟨g, _, hg, rfl, rfl⟩

end B70DualTP.Coordinator
