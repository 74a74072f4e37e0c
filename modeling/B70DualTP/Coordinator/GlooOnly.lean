import B70DualTP.Coordinator.Initialize

/-! Which runs of the setup functions request a process group on another backend than
gloo although the flag is set. -/
namespace B70DualTP.Coordinator
open Library Torch Communicator

/-- torch.distributed compares backend names in lower case. -/
def IsGloo (backend : Option String) : Prop :=
  backend.map (fun name => name.toList.map Char.toLower) = some ['g', 'l', 'o', 'o']

instance (backend : Option String) : Decidable (IsGloo backend) := inferInstanceAs (Decidable (_ = _))

theorem isGloo_gloo : IsGloo (some "gloo") := by decide

/-- The flag is set, and it has reached every group so far. -/
structure OnlyGloo (s : ModuleState) : Prop where
  hoststaged : s.hoststaged = true
  requests : ∀ r ∈ s.requests, IsGloo r.backend
  world : ∀ world ∈ s.world, IsGloo world.coordinator.backend

section Requests
variable {s : ModuleState}

theorem OnlyGloo.request (hs : OnlyGloo s) {L : List GroupRequest} (hL : ∀ r ∈ L, IsGloo r.backend) :
    OnlyGloo (s.request L) := by
  refine ⟨hs.hoststaged, ?_, hs.world⟩
  intro r hr
  obtain hr | hr := List.mem_append.mp hr
  · exact hs.requests r hr
  · exact hL r hr

private theorem isGloo_loopRequests {backend : Option String} (h : IsGloo backend) (groupRanks : List (List Nat)) :
    ∀ r ∈ loopRequests backend groupRanks, IsGloo r.backend := by
  intro r hr
  obtain ⟨ranks, -, hr⟩ := List.mem_flatMap.mp hr
  simp only [List.mem_cons, List.not_mem_nil, or_false] at hr
  rcases hr with rfl | rfl
  · exact h
  · exact isGloo_gloo

theorem newGroup_onlyGloo (ranks : List Nat) : Action.Keeps OnlyGloo (newGroup ranks (some "gloo")) := by
  intro s hs
  cases hd : s.dist with
  | none =>
    have hg : newGroup ranks (some "gloo") s = (.error notInitialized, s) :=
      Action.bind_error (by simp [defaultGroup, Action.bind_apply, hd])
    rw [hg]
    exact hs
  | some group =>
    rw [newGroup_eq hd]
    exact hs.request (by simp [isGloo_gloo])

theorem init_onlyGloo (useCustomOpCollectives : Bool) (args : InitArgs) :
    Action.Triple OnlyGloo (fun _ => True) (GroupCoordinator.init useCustomOpCollectives args)
      fun ref _ => IsGloo ref.coordinator.backend := by
  intro s hs _
  have h := GroupCoordinator.init_constructs useCustomOpCollectives args s
  have hdev : s.devBackend args.torchDistributedBackend = some "gloo" := by
    simp [ModuleState.devBackend, hs.hoststaged]
  constructor
  · rw [h.frame]
    refine ⟨hs.hoststaged, ?_, hs.world⟩
    intro r hr
    obtain hr | hr := List.mem_append.mp hr
    · exact hs.requests r hr
    · cases hd : s.dist with
      | none => simp [hd] at hr
      | some group =>
        rw [hd, hdev] at hr
        exact isGloo_loopRequests isGloo_gloo args.groupRanks r hr
  · intro ref hr
    obtain ⟨-, g, group, hg, -, -, -, hbackend, -⟩ := h.ok ref hr
    rw [hg, AnyCoordinator.backend, hbackend, hdev]
    exact isGloo_gloo

theorem newStatelessGroup_onlyGloo (env : Environment) (groupRanks : List (List Nat)) (localRank : Int)
    {backend : Option String} (rank : Int) (hb : IsGloo backend) :
    Action.Triple OnlyGloo (fun _ => True) (newStatelessGroup env groupRanks localRank backend rank)
      fun ref _ => IsGloo ref.coordinator.backend := by
  refine (newStatelessGroup_triple env groupRanks localRank _ rank (fun s ranks hs => hs.request (by simpa using hb))
    fun s _ _ hs => ⟨hs.hoststaged, hs.requests, hs.world⟩).mono (fun _ _ => trivial) fun ref _ hmade => ?_
  obtain ⟨ranks, -, -, hstateless⟩ := hmade
  rw [hstateless]
  exact hb

end Requests

section Environment
variable (env : Environment)

private theorem worldBackend_onlyGloo (backend : Option String) :
    Action.Triple OnlyGloo (fun _ => True) (worldBackend env backend) fun backend _ => backend = "gloo" := by
  refine Action.triple_bind (Q := fun _ _ => True) (Action.triple_lift fun _ _ _ _ _ => trivial) fun backend => ?_
  intro s hs _
  refine ⟨hs, fun b hb => ?_⟩
  have hg : (Except.ok "gloo" : Py String) = .ok b := by
    rw [← hb, Action.bind_ok (Action.get_apply s), hs.hoststaged]
    rfl
  exact (Except.ok.inj hg).symm

private theorem initProcessGroup_onlyGloo (args : InitDistributedArgs) (initMethod : String) :
    Action.Keeps OnlyGloo (initProcessGroup env "gloo" args initMethod) := by
  refine Action.keeps_bind (Action.keeps_lift _) fun p => Action.keeps_modify fun s hs => ?_
  have h := hs.request (L := [⟨some "gloo", List.range p.1⟩]) (by simp [isGloo_gloo])
  exact ⟨h.hoststaged, h.requests, h.world⟩

private theorem checkElasticNodes_onlyGloo (elastic : Bool) :
    Action.Keeps OnlyGloo (checkElasticNodes env elastic) := by
  simp only [checkElasticNodes]
  split
  · refine Action.keeps_bind defaultGroup_keeps fun group => Action.keeps_bind (newGroup_onlyGloo _) fun _ => ?_
    refine Action.keeps_bind (Action.keeps_lift _) fun count => ?_
    split
    · exact Action.keeps_raise _
    · exact Action.keeps_pure _
  · exact Action.keeps_pure _

/-- The default group is on gloo, and so is what is built on its backend later. -/
theorem initDefaultGroup_onlyGloo (elastic : Bool) (args : InitDistributedArgs) :
    Action.Triple OnlyGloo (fun _ => True) (initDefaultGroup env elastic args) fun backend _ => IsGloo backend := by
  simp only [initDefaultGroup]
  split
  · exact Action.triple_raise _
  · refine Action.triple_bind (worldBackend_onlyGloo env args.backend) fun backend => Action.triple_of_fact ?_
    rintro rfl
    apply Action.triple_bind (initProcessGroup_onlyGloo env args _).triple
    intro _
    apply Action.triple_bind (checkElasticNodes_onlyGloo env elastic).triple
    intro _
    exact Action.triple_pure fun _ _ _ => isGloo_gloo

/-- A default group that exists already leaves the backend argument as it is. -/
private theorem ensureDefaultGroup_onlyGloo (args : InitDistributedArgs) (elastic : Prop) :
    Action.Triple OnlyGloo (fun s => elastic → s.dist = none ∨ IsGloo args.backend) (ensureDefaultGroup env args)
      fun backend _ => elastic → IsGloo backend := by
  intro s hs hp
  simp only [ensureDefaultGroup]
  rw [Action.bind_ok (Action.get_apply s)]
  split
  · rename_i hd
    refine ⟨hs, fun b hb he => ?_⟩
    cases hb
    obtain hnone | hb := hp he
    · simp [hnone] at hd
    · exact hb
  · have h := initDefaultGroup_onlyGloo env (elasticConfig env).isSome args s hs trivial
    exact ⟨h.1, fun b hb _ => h.2 b hb⟩

private theorem getWorldGroup_onlyGloo :
    Action.Triple OnlyGloo (fun _ => True) getWorldGroup fun world _ => IsGloo world.coordinator.backend := by
  intro s hs _
  rw [getWorldGroup, Action.bind_ok (Action.get_apply s)]
  cases hw : s.world with
  | none => exact ⟨hs, fun _ h => by cases h⟩
  | some world => exact ⟨hs, fun _ h => by cases h; exact hs.world world hw⟩

private theorem initElasticEpWorld_onlyGloo (config : ParallelConfig) (localRank : Int) {backend : Option String}
    (rank worldSize : Int) (hb : IsGloo backend) :
    Action.Keeps OnlyGloo (initElasticEpWorld env config localRank backend rank worldSize) := by
  refine Action.keeps_bind Action.keeps_get fun s => Action.keeps_bind (Action.keeps_lift _) fun _ => ?_
  refine Action.keeps_bind (Action.keeps_lift _) fun _ => ?_
  refine Action.Triple.keeps (Action.triple_bind (newStatelessGroup_onlyGloo env _ _ _ hb) fun world => ?_)
    (Q := fun _ _ => True)
  apply Action.triple_of_fact
  intro hw
  apply Action.triple_bind (Action.keeps_lift _).triple
  intro _
  split
  · apply Action.triple_bind (Action.keeps_lift _).triple
    intro count
    exact Action.triple_modify fun s hs _ =>
      ⟨⟨hs.hoststaged, hs.requests, fun w h => by cases h; exact hw⟩, trivial⟩
  · exact Action.triple_raise _

private theorem initModelParallelGroup_onlyGloo (groupRanks : List (List Nat)) (localRank : Int)
    (backend : Option String) (mq : Bool) (groupName : String) (device : Bool) :
    Action.Triple OnlyGloo (fun _ => True)
      (initModelParallelGroup env groupRanks localRank backend mq groupName device)
      fun ref _ => IsGloo ref.coordinator.backend :=
  init_onlyGloo env.useCustomOpCollectives _

private theorem initWorld_onlyGloo (localRank : Int) (backend : Option String) :
    Action.Keeps OnlyGloo (initWorld env localRank backend) := by
  refine Action.keeps_bind defaultGroup_keeps fun group => Action.keeps_bind Action.keeps_get fun s => ?_
  split
  · refine Action.Triple.keeps (Q := fun _ _ => True)
      (Action.triple_bind (init_onlyGloo env.useCustomOpCollectives _) fun world => Action.triple_of_fact fun hw => ?_)
    refine Action.triple_bind (Q := fun _ _ => True) (Action.triple_modify fun s hs _ =>
      ⟨⟨hs.hoststaged, hs.requests, fun w h => by cases h; exact hw⟩, trivial⟩) fun _ => ?_
    apply Action.triple_bind (Action.keeps_lift _).triple
    intro count
    exact Action.triple_modify fun s hs _ => ⟨⟨hs.hoststaged, hs.requests, hs.world⟩, trivial⟩
  · exact Action.keeps_lift _

private theorem initReplicaWorld_onlyGloo (backend : Option String) :
    Action.Keeps OnlyGloo (initReplicaWorld env backend) := by
  simp only [initReplicaWorld]
  split
  · split
    · exact Action.keeps_raise _
    · rename_i config _
      simp only [initInnerDpWorld]
      split
      · refine Action.keeps_bind getWorldGroup_keeps fun world => ?_
        apply Action.keeps_bind (initModelParallelGroup_onlyGloo env _ _ _ _ _ _).keeps
        intro group
        exact Action.keeps_modify fun s hs => ⟨hs.hoststaged, hs.requests, hs.world⟩
      · exact Action.keeps_modify fun s hs => ⟨hs.hoststaged, hs.requests, hs.world⟩
  · exact Action.keeps_pure _

def Environment.Elastic : Prop := (elasticConfig env).isSome = true

theorem initDistributedEnvironment_onlyGloo (args : InitDistributedArgs) :
    Action.Triple OnlyGloo (fun s => env.Elastic → s.dist = none ∨ IsGloo args.backend)
      (initDistributedEnvironment env args) fun _ _ => True := by
  have hbackend : (adjustArgs env.config args).backend = args.backend := by
    simp only [adjustArgs]
    split <;> rfl
  have hdefault := ensureDefaultGroup_onlyGloo env (adjustArgs env.config args) env.Elastic
  rw [hbackend] at hdefault
  refine Action.triple_bind hdefault fun backend => Action.triple_of_fact fun hb => ?_
  split
  · rename_i config hc
    exact (initElasticEpWorld_onlyGloo env config _ _ _ (hb (by simp [Environment.Elastic, hc]))).triple
  · refine Action.Keeps.triple (Action.keeps_bind (initWorld_onlyGloo env _ backend) fun _ => ?_)
    exact initReplicaWorld_onlyGloo env backend

end Environment

theorem OnlyGloo.setSlot {s : ModuleState} (hs : OnlyGloo s) (slot : Slot) (value : Option CoordinatorRef) :
    OnlyGloo (s.setSlot slot value) := by
  rcases slot with (_ | _ | _ | _ | _ | _) | _ <;> exact ⟨hs.hoststaged, hs.requests, hs.world⟩

namespace ModelParallel
variable (env : Environment) (mp : ModelParallel)

private theorem initReplicaGroup_onlyGloo (name : GroupName) : Action.Keeps OnlyGloo (mp.initReplicaGroup env name) := by
  refine Action.keeps_bind (Slot.assertUnset_keeps _) fun _ => Action.keeps_bind (Action.keeps_lift _) fun groupRanks => ?_
  refine Action.keeps_bind getWorldGroup_keeps fun world => ?_
  apply Action.keeps_bind (initModelParallelGroup_onlyGloo env _ _ _ _ _ _).keeps
  intro group
  exact Action.keeps_modify fun s hs => hs.setSlot _ _

/-- Only the stateless groups of the elastic mode depend on the backend. -/
private theorem acrossGroup_onlyGloo (hb : mp.elastic = true → IsGloo mp.backend) (slot : Slot)
    (groupRanks : List (List Nat)) (world : AnyCoordinator) :
    Action.Keeps OnlyGloo (mp.acrossGroup env slot groupRanks world) := by
  simp only [acrossGroup]
  split
  · rename_i he
    exact (newStatelessGroup_onlyGloo env _ _ _ (hb he)).keeps
  · exact (initModelParallelGroup_onlyGloo env _ _ _ _ _ _).keeps

private theorem initAcross_onlyGloo (hb : mp.elastic = true → IsGloo mp.backend) (slot : Slot)
    (groupRanks : List (List Nat)) : Action.Keeps OnlyGloo (mp.initAcross env slot groupRanks) := by
  refine Action.keeps_bind getWorldGroup_keeps fun world => ?_
  apply Action.keeps_bind (acrossGroup_onlyGloo env mp hb slot groupRanks _)
  intro group
  exact Action.keeps_modify fun s hs => hs.setSlot _ _

private theorem initDataParallel_onlyGloo (hb : mp.elastic = true → IsGloo mp.backend) :
    Action.Keeps OnlyGloo (mp.initDataParallel env) := by
  refine Action.keeps_bind (Slot.assertUnset_keeps _) fun _ => Action.keeps_bind (Action.keeps_lift _) fun groupRanks => ?_
  exact initAcross_onlyGloo env mp hb _ _

private theorem initExpertParallel_onlyGloo (hb : mp.elastic = true → IsGloo mp.backend) :
    Action.Keeps OnlyGloo (mp.initExpertParallel env) := by
  refine Action.keeps_bind (Slot.assertUnset_keeps _) fun _ => ?_
  split
  · refine Action.keeps_bind (Action.keeps_lift _) fun groupRanks => ?_
    apply Action.keeps_bind (initAcross_onlyGloo env mp hb _ _)
    intro _
    refine Action.keeps_bind (Slot.assertUnset_keeps _) fun _ => ?_
    split
    · exact initAcross_onlyGloo env mp hb _ _
    · exact Action.keeps_pure _
  · exact Action.keeps_pure _

end ModelParallel

section Environment
variable (env : Environment)

theorem truthy_of_isGloo {backend : Option String} (h : IsGloo backend) : truthy backend = backend := by
  cases backend with
  | none => rfl
  | some name =>
    have hne : name ≠ "" := by
      rintro rfl
      exact absurd h (by decide)
    simp [truthy, hne]

private theorem worldAndBackend_onlyGloo (config : ParallelConfig) (backend : Option String)
    (h : config.enableElasticEp = true → IsGloo backend) :
    Action.Triple OnlyGloo (fun _ => True) (worldAndBackend env config backend)
      fun p _ => config.enableElasticEp = true → IsGloo p.2 := by
  simp only [worldAndBackend]
  split
  · rename_i he
    apply Action.triple_bind (Action.keeps_lift _).triple
    intro _
    apply Action.triple_bind getWorldGroup_keeps.triple
    intro world
    apply Action.triple_pure
    intro _ _ _ _
    have hb := h he
    rw [truthy_of_isGloo hb]
    cases backend with
    | none => cases hb
    | some name => exact hb
  · rename_i he
    have hfalse : ∀ p : Nat × Option String, config.enableElasticEp = true → IsGloo p.2 := fun _ h => absurd h he
    apply Action.triple_bind defaultGroup_keeps.triple
    intro group
    split
    · exact Action.triple_pure fun _ _ _ => hfalse _
    · apply Action.triple_bind getWorldGroup_keeps.triple
      intro world
      apply Action.triple_bind (Action.keeps_lift _).triple
      intro backend
      exact Action.triple_pure fun _ _ _ => hfalse _

private theorem modelParallel_onlyGloo (args : ModelParallelArgs) (h : env.Elastic → IsGloo args.backend) :
    Action.Triple OnlyGloo (fun _ => True) (modelParallel env args)
      fun mp _ => mp.elastic = true → IsGloo mp.backend := by
  apply Action.triple_bind Action.keeps_get.triple
  intro s
  apply Action.triple_bind (Action.keeps_lift _).triple
  intro _
  refine Action.triple_bind (Q := fun config _ => env.config = some config)
    (Action.triple_lift fun config _ hc _ _ => ?_) fun config => Action.triple_of_fact fun hc => ?_
  · simp only [getCurrentVllmConfig] at hc
    split at hc
    · rename_i config' hconfig
      cases hc
      exact hconfig
    · cases hc
  · refine Action.triple_bind (worldAndBackend_onlyGloo env config.parallelConfig args.backend fun he => h ?_)
      fun p => Action.triple_of_fact fun hp => ?_
    · simp [Environment.Elastic, elasticConfig, hc, he]
    · apply Action.triple_bind (Action.keeps_lift _).triple
      intro ranks
      exact Action.triple_pure fun _ _ _ => hp

theorem initializeModelParallel_onlyGloo (args : ModelParallelArgs) (h : env.Elastic → IsGloo args.backend) :
    Action.Keeps OnlyGloo (initializeModelParallel env args) := by
  refine Action.Triple.keeps (Q := fun _ _ => True) (Action.triple_bind (modelParallel_onlyGloo env args h)
    fun mp => Action.triple_of_fact fun hb => Action.Keeps.triple ?_)
  apply Action.keeps_bind (mp.initReplicaGroup_onlyGloo env .tp)
  intro _
  apply Action.keeps_bind (mp.initReplicaGroup_onlyGloo env .dcp)
  intro _
  apply Action.keeps_bind (mp.initReplicaGroup_onlyGloo env .pcp)
  intro _
  apply Action.keeps_bind (mp.initReplicaGroup_onlyGloo env .pp)
  intro _
  exact Action.keeps_bind (mp.initDataParallel_onlyGloo env hb) fun _ => mp.initExpertParallel_onlyGloo env hb

private theorem ensuredBackend_isGloo {backend backend' : Option String} {world : AnyCoordinator}
    (h : truthy backend = none ∨ IsGloo backend) (hw : IsGloo world.backend)
    (hb : ensuredBackend backend world = .ok backend') : IsGloo backend' := by
  simp only [ensuredBackend] at hb
  split at hb
  · rename_i name _ htruthy
    cases hb
    obtain hnone | hg := h
    · rw [hnone] at htruthy
      cases htruthy
    · rwa [← htruthy, truthy_of_isGloo hg]
  · cases hb
    exact hw
  · cases hb
    exact hw

/-- Without an argument the backend is that of the world group. -/
theorem ensureModelParallelInitialized_onlyGloo (args : ModelParallelArgs)
    (h : env.Elastic → truthy args.backend = none ∨ IsGloo args.backend) :
    Action.Keeps OnlyGloo (ensureModelParallelInitialized env args) := by
  refine Action.Triple.keeps (Q := fun _ _ => True) (Action.triple_bind getWorldGroup_onlyGloo
    fun world => Action.triple_of_fact fun hw => ?_)
  refine Action.triple_bind (Q := fun backend _ => env.Elastic → IsGloo backend)
    (Action.triple_lift fun backend _ hb _ _ he => ?_) fun backend => Action.triple_of_fact fun hb => ?_
  · exact ensuredBackend_isGloo (h he) hw hb
  · refine Action.Keeps.triple (Action.keeps_bind Action.keeps_get fun s => ?_)
    split
    · exact Action.keeps_bind Action.keeps_get fun _ => Action.keeps_lift _
    · exact initializeModelParallel_onlyGloo env _ hb

/-- The second call of a run. -/
inductive ModelParallelCall where
  | initializeCall (args : ModelParallelArgs)
  | ensureCall (args : ModelParallelArgs)
  deriving DecidableEq, Repr

def ModelParallelCall.run : ModelParallelCall → Setup Unit
  | .initializeCall args => initializeModelParallel env args
  | .ensureCall args => ensureModelParallelInitialized env args

def ModelParallelCall.LeadsToGloo : ModelParallelCall → Prop
  | .initializeCall args => IsGloo args.backend
  | .ensureCall args => truthy args.backend = none ∨ IsGloo args.backend

/-- The states after init_distributed_environment and after the call that follows it, in a
process that starts with the flag set. -/
def setupRun (dist : Option DefaultGroup) (args : InitDistributedArgs) (call : ModelParallelCall) :
    List ModuleState :=
  let s := (initDistributedEnvironment env args (.fresh (some "1") dist)).2
  [s, (call.run env s).2]

/-- With the flag set, a run requests nothing but gloo groups when elastic expert parallelism
is off, or when the two backends that it leaves alone lead to gloo. -/
theorem setup_requests_only_gloo (dist : Option DefaultGroup) (args : InitDistributedArgs) (call : ModelParallelCall)
    (h : env.Elastic → (dist = none ∨ IsGloo args.backend) ∧ call.LeadsToGloo) :
    ∀ s ∈ setupRun env dist args call, ∀ r ∈ s.requests, IsGloo r.backend := by
  have hstart : OnlyGloo (.fresh (some "1") dist) :=
    ⟨rfl, (fun _ h => by cases h), fun _ h => by cases h⟩
  have hinit := (initDistributedEnvironment_onlyGloo env args _ hstart fun he => (h he).1).1
  have hcall : Action.Keeps OnlyGloo (call.run env) := by
    cases call with
    | initializeCall args => exact initializeModelParallel_onlyGloo env args fun he => (h he).2
    | ensureCall args => exact ensureModelParallelInitialized_onlyGloo env args fun he => (h he).2
  intro s hs
  simp only [setupRun, List.mem_cons, List.not_mem_nil, or_false] at hs
  rcases hs with rfl | rfl
  · exact hinit.requests
  · exact (hcall _ hinit).requests

end Environment

/-- Two replicas of one rank each, seen from the first, with elastic expert parallelism. -/
def elasticEnvironment : Environment where
  config := some ⟨⟨true, false, some "mp", 1, 1, 2, 0, 1, 2, "tcp://127.0.0.1:29500", "tcp://127.0.0.1:29501"⟩, some true⟩
  localRank := 0
  isBackendAvailable _ := true
  isGlooAvailable := true
  rendezvous _ worldSize rank := .ok (worldSize.toNat, rank.toNat)
  coordStore := .ok ()
  statelessRendezvous _ := .ok ()
  nodeCount _ := .ok 1
  statelessNodeCount _ := .ok 1
  useCustomOpCollectives := true

def workerArgs : InitDistributedArgs := ⟨1, 0, some "tcp://127.0.0.1:29502", 0, some "xccl"⟩

/-- The worker's calls, whose second one takes the backend of the world group. -/
theorem worker_requests_only_gloo : elasticEnvironment.Elastic ∧
    ∀ s ∈ setupRun elasticEnvironment none workerArgs (.ensureCall ⟨1, 1, 1, some 1, none⟩),
      ∀ r ∈ s.requests, IsGloo r.backend :=
  ⟨rfl, setup_requests_only_gloo elasticEnvironment none workerArgs (.ensureCall ⟨1, 1, 1, some 1, none⟩)
    fun _ => ⟨.inl rfl, .inl rfl⟩⟩

/-- The default backend of initialize_model_parallel: the data-parallel group is on nccl. -/
theorem elastic_requests_nccl :
    ∃ s ∈ setupRun elasticEnvironment none workerArgs (.initializeCall ⟨1, 1, 1, some 1, none⟩),
      ∃ r ∈ s.requests, r.backend = some "nccl" ∧ ¬ IsGloo r.backend := by
  refine ⟨_, List.mem_cons_of_mem _ List.mem_cons_self, ⟨some "nccl", [0, 1]⟩, by decide +kernel, by decide⟩

end B70DualTP.Coordinator
