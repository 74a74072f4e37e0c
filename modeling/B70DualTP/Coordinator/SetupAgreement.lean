import B70DualTP.Coordinator.Peers

/-! A job: the same calls on every rank, each in its own process. After them the ranks have
asked torch for the same groups, and what they hold in a global belongs together. -/
namespace B70DualTP.Coordinator
open Library Torch Communicator

/-- The configuration as the processes of one replica have it. -/
def VllmConfig.ofReplica (config : VllmConfig) (dataParallelRank : Nat) : VllmConfig :=
  { config with parallelConfig := { config.parallelConfig with dataParallelRank } }

/-- A call that every rank makes; a rank has its own place and its own init method. -/
inductive JobCall where
  | initDistributedEnvironment (backend : Option String)
  | initializeModelParallel (args : ModelParallelArgs)
  | ensureModelParallelInitialized (args : ModelParallelArgs)
  | destroyModelParallel
  | destroyDistributedEnvironment
  deriving DecidableEq, Repr

/-- A call of a job of N ranks without elastic expert parallelism, and what all ranks see alike. -/
structure JobStep (N : Nat) where
  config : Option VllmConfig
  isBackendAvailable : String → Bool
  isGlooAvailable : Bool
  useCustomOpCollectives : Bool
  call : JobCall
  notElastic : ∀ c ∈ config, c.parallelConfig.enableElasticEp = false
  replicas_le : ∀ c ∈ config, c.parallelConfig.dataParallelSize * c.parallelConfig.worldSize ≤ N

variable {N : Nat}

/-- The environment of a rank: its replica's configuration, and what all ranks see. -/
structure JobStep.Seen (step : JobStep N) (env : Environment) : Prop where
  config : ∃ dataParallelRank, env.config = step.config.map (·.ofReplica dataParallelRank)
  isBackendAvailable : env.isBackendAvailable = step.isBackendAvailable
  isGlooAvailable : env.isGlooAvailable = step.isGlooAvailable
  useCustomOpCollectives : env.useCustomOpCollectives = step.useCustomOpCollectives

/-- The arguments put this process in its place, and torch leaves it there. -/
structure Joins (N rank : Nat) (env : Environment) (args : InitDistributedArgs) : Prop where
  worldSize : (adjustArgs env.config args).worldSize = N
  rank : (adjustArgs env.config args).rank = rank
  rendezvous : ∀ initMethod worldSize rank p, env.rendezvous initMethod worldSize rank = .ok p →
    p = (worldSize.toNat, rank.toNat)

/-- A local rank of a replica is offset by the replicas before its own. -/
theorem joins_of_replica {env : Environment} {args : InitDistributedArgs} {c : ParallelConfig} {rank localRank : Nat}
    (hc : adjustingConfig env.config = some c) (hN : c.worldSizeAcrossDp = N) (hworld : args.worldSize = c.worldSize)
    (hrank : args.rank = localRank) (hplace : offsetRank c.dataParallelRank c.worldSize localRank = rank)
    (hrendezvous : ∀ initMethod worldSize rank p,
      env.rendezvous initMethod worldSize rank = .ok p → p = (worldSize.toNat, rank.toNat)) : Joins N rank env args := by
  refine ⟨?_, ?_, hrendezvous⟩
  · simp only [adjustArgs, hc, hN]
  · simp only [adjustArgs, hc, hworld, hrank, offsetRank_natCast, hplace]

/-- The call as this rank makes it. -/
def JobCall.MadeBy (call : JobCall) (N rank : Nat) (env : Environment) (made : LifeCall) : Prop :=
  match call with
  | .initDistributedEnvironment backend =>
    ∃ args, made = .initDistributedEnvironment args ∧ args.backend = backend ∧ Joins N rank env args
  | .initializeModelParallel args => made = .initializeModelParallel args
  | .ensureModelParallelInitialized args => made = .ensureModelParallelInitialized args
  | .destroyModelParallel => made = .destroyModelParallel
  | .destroyDistributedEnvironment => made = .destroyDistributedEnvironment

/-- One step of a rank is this step of the job. -/
structure JobStep.RunBy (step : JobStep N) (rank : Nat) (made : LifeStep) : Prop where
  seen : step.Seen made.env.toEnvironment
  call : step.call.MadeBy N rank made.env.toEnvironment made.call

/-- Calls one after the other; the first that raises ends the run. -/
def runAll : List LifeStep → Life Unit
  | [] => return ()
  | step :: steps => do
    step.run
    runAll steps

theorem runCalls_of_runAll {steps : List LifeStep} {s s' : LifeState} (h : runAll steps s = (.ok (), s')) :
    runCalls steps s = s' := by
  induction steps generalizing s with
  | nil =>
    cases h
    rfl
  | cons step steps ih =>
    obtain ⟨_, s₁, hstep, hrest⟩ := Action.bind_returns h
    rw [runCalls, List.foldl_cons, hstep]
    exact ih hrest

section Twin
variable {r r' : Nat} {step : JobStep N} {env env' : Environment}

private theorem defaultGroup_twin : Action.Twin (Peers N r r') defaultGroup defaultGroup
    fun group group' => ∃ backend, group = ⟨N, r, backend⟩ ∧ group' = ⟨N, r', backend⟩ := by
  refine Action.twin_bind Action.twin_get fun s t h => ?_
  split
  · split
    · rename_i hs _ _ ht
      exact Action.twin_pure (h.defaultGroups hs ht)
    · exact Action.twin_raise_right _ _
  · exact Action.twin_raise_left _ _

private theorem getWorldGroup_twin : Action.Twin (Peers N r r') getWorldGroup getWorldGroup
    (RefPeers N r r' false) := by
  refine Action.twin_bind Action.twin_get fun s t h => ?_
  have hworld := h.held .world
  split
  · split
    · rename_i hs _ _ ht
      rw [show s.held .world = _ from hs, show t.held .world = _ from ht] at hworld
      exact Action.twin_pure (Option.rel_some_some.mp hworld)
    · exact Action.twin_raise_right _ _
  · exact Action.twin_raise_left _ _

theorem elasticConfig_none (h : step.Seen env) : elasticConfig env = none := by
  obtain ⟨d, hconfig⟩ := h.config
  rw [elasticConfig, hconfig]
  cases hc : step.config with
  | none => rfl
  | some config =>
    have := step.notElastic config hc
    simp [VllmConfig.ofReplica, this]

private theorem worldBackend_twin (h : step.Seen env) (h' : step.Seen env') (backend : Option String) :
    Action.Twin (Peers N r r') (worldBackend env backend) (worldBackend env' backend) Eq := by
  have havailable : availableBackend env backend = availableBackend env' backend := by
    simp only [availableBackend, h.isBackendAvailable, h'.isBackendAvailable, h.isGlooAvailable, h'.isGlooAvailable]
  have hlift : Action.Twin (Peers N r r') (Action.lift (availableBackend env backend) : Setup String)
      (Action.lift (availableBackend env' backend) : Setup String) Eq :=
    Action.twin_lift fun a b ha hb => Except.ok.inj (ha.symm.trans (havailable.trans hb))
  refine Action.twin_bind hlift ?_
  rintro name _ rfl
  exact Action.twin_bind Action.twin_get fun s t hst => Action.twin_pure (by rw [hst.hoststaged])

private theorem initProcessGroup_twin (backend : String) {args args' : InitDistributedArgs}
    (initMethod initMethod' : String)
    (hp : ∀ p, env.rendezvous initMethod args.worldSize args.rank = .ok p → p = (N, r))
    (hp' : ∀ p, env'.rendezvous initMethod' args'.worldSize args'.rank = .ok p → p = (N, r')) :
    Action.Twin (Peers N r r') (initProcessGroup env backend args initMethod)
      (initProcessGroup env' backend args' initMethod') fun _ _ => True := by
  have hlift : Action.Twin (Peers N r r') (Action.lift (env.rendezvous initMethod args.worldSize args.rank) : Setup _)
      (Action.lift (env'.rendezvous initMethod' args'.worldSize args'.rank) : Setup _)
        fun p p' => p = (N, r) ∧ p' = (N, r') := Action.twin_lift fun p p' h h' => ⟨hp p h, hp' p' h'⟩
  refine Action.twin_bind hlift ?_
  rintro _ _ ⟨rfl, rfl⟩
  exact Action.twin_modify fun s t h => (h.request _).setDist (some backend)

private theorem initDefaultGroup_twin (h : step.Seen env) (h' : step.Seen env') {args args' : InitDistributedArgs}
    (hbackend : args.backend = args'.backend)
    (hp : ∀ m p, env.rendezvous m args.worldSize args.rank = .ok p → p = (N, r))
    (hp' : ∀ m p, env'.rendezvous m args'.worldSize args'.rank = .ok p → p = (N, r')) :
    Action.Twin (Peers N r r') (initDefaultGroup env false args) (initDefaultGroup env' false args') Eq := by
  simp only [initDefaultGroup]
  split
  · exact Action.twin_raise_left _ _
  · split
    · exact Action.twin_raise_right _ _
    · rw [← hbackend]
      refine Action.twin_bind (worldBackend_twin h h' _) ?_
      rintro backend _ rfl
      refine Action.twin_bind (initProcessGroup_twin backend _ _ (hp _) (hp' _)) fun _ _ _ => ?_
      exact Action.twin_bind (Action.twin_pure (P := fun _ _ => True) trivial) fun _ _ _ => Action.twin_pure rfl

private theorem ensureDefaultGroup_twin (h : step.Seen env) (h' : step.Seen env') {args args' : InitDistributedArgs}
    (hbackend : args.backend = args'.backend)
    (hp : ∀ m p, env.rendezvous m args.worldSize args.rank = .ok p → p = (N, r))
    (hp' : ∀ m p, env'.rendezvous m args'.worldSize args'.rank = .ok p → p = (N, r')) :
    Action.Twin (Peers N r r') (ensureDefaultGroup env args) (ensureDefaultGroup env' args') Eq := by
  rw [ensureDefaultGroup, ensureDefaultGroup, elasticConfig_none h, elasticConfig_none h']
  refine Action.twin_bind Action.twin_get fun s t hst => ?_
  have hdist : s.dist.isSome = t.dist.isSome := by
    obtain ⟨backend, hs, ht⟩ := hst.dist
    rw [hs, ht, Option.isSome_map, Option.isSome_map]
  rw [← hdist]
  split
  · exact Action.twin_pure hbackend
  · exact initDefaultGroup_twin h h' hbackend hp hp'

private theorem initWorld_twin (h : step.Seen env) (h' : step.Seen env') (localRank localRank' : Int)
    (backend : Option String) : Action.Twin (Peers N r r') (initWorld env localRank backend)
      (initWorld env' localRank' backend) fun _ _ => True := by
  refine Action.twin_bind defaultGroup_twin ?_
  rintro _ _ ⟨common, rfl, rfl⟩
  refine Action.twin_bind Action.twin_get fun s t hst => ?_
  have hworld := hst.held .world
  split
  · split
    · have hinit : Action.Twin (Peers N r r') (initWorldGroup env (List.range N) localRank backend)
          (initWorldGroup env' (List.range N) localRank' backend) (RefPeers N r r' false) := by
        rw [initWorldGroup, initWorldGroup, h.useCustomOpCollectives, h'.useCustomOpCollectives]
        exact init_twin _ localRank' (world_rows N)
      refine Action.twin_bind hinit fun world world' hpeers => ?_
      refine Action.twin_bind (Action.twin_modify fun u v huv => huv.setWorld (.some hpeers)) fun _ _ _ => ?_
      refine Action.twin_bind (Action.twin_lift (P := fun _ _ => True) fun _ _ _ _ => trivial) fun _ _ _ => ?_
      exact Action.twin_modify fun u v huv => huv.setNodeCount _ _
    · rename_i hs _ _ ht
      rw [show s.held .world = _ from hs, show t.held .world = _ from ht] at hworld
      cases hworld
  · split
    · rename_i hs _ ht
      rw [show s.held .world = _ from hs, show t.held .world = _ from ht] at hworld
      cases hworld
    · exact Action.twin_lift fun _ _ _ _ => trivial

private theorem initModelParallelGroup_twin (h : step.Seen env) (h' : step.Seen env') {rows : List (List Nat)}
    (hrows : Rows N rows) (localRank localRank' : Int) (backend : Option String) (useMessageQueueBroadcaster : Bool)
    (groupName : String) (useDeviceCommunicator : Bool) : Action.Twin (Peers N r r')
      (initModelParallelGroup env rows localRank backend useMessageQueueBroadcaster groupName useDeviceCommunicator)
      (initModelParallelGroup env' rows localRank' backend useMessageQueueBroadcaster groupName useDeviceCommunicator)
      (RefPeers N r r' useDeviceCommunicator) := by
  rw [initModelParallelGroup, initModelParallelGroup, h.useCustomOpCollectives, h'.useCustomOpCollectives]
  exact init_twin _ localRank' hrows

private theorem adjustingConfig_ofReplica (config : Option VllmConfig) (d : Nat) :
    adjustingConfig (config.map (·.ofReplica d)) =
      (adjustingConfig config).map fun c => { c with dataParallelRank := d } := by
  cases config with
  | none => rfl
  | some config =>
    simp only [adjustingConfig, Option.map_some, VllmConfig.ofReplica, Option.filter]
    split <;> rfl

private theorem initReplicaWorld_twin (h : step.Seen env) (h' : step.Seen env') (backend : Option String) :
    Action.Twin (Peers N r r') (initReplicaWorld env backend) (initReplicaWorld env' backend) fun _ _ => True := by
  obtain ⟨d, hconfig⟩ := h.config
  obtain ⟨d', hconfig'⟩ := h'.config
  have hany : ∀ d, (step.config.map (·.ofReplica d)).any (1 < ·.parallelConfig.nnodesWithinDp) =
      step.config.any (1 < ·.parallelConfig.nnodesWithinDp) := by
    intro d
    cases step.config <;> rfl
  simp only [initReplicaWorld, hconfig, hconfig', hany, adjustingConfig_ofReplica]
  split
  · cases hc : adjustingConfig step.config with
    | none => exact Action.twin_raise_left _ _
    | some c =>
      obtain ⟨config, hstep, rfl⟩ : ∃ config, step.config = some config ∧ config.parallelConfig = c := by
        obtain ⟨hmap, -⟩ := Option.filter_eq_some_iff.mp hc
        exact Option.map_eq_some_iff.mp hmap
      simp only [Option.map_some, initInnerDpWorld]
      split
      · refine Action.twin_bind getWorldGroup_twin fun world world' _ => ?_
        have hrows := innerDp_rows (step.replicas_le config hstep)
        refine Action.twin_bind (initModelParallelGroup_twin h h' hrows _ _ _ _ _ _) fun group group' hpeers => ?_
        exact Action.twin_modify fun s t hst => hst.setInnerDpWorld (.some hpeers)
      · exact Action.twin_modify fun s t hst => hst.setInnerDpWorld (hst.held .world)
  · exact Action.twin_pure trivial

private theorem initDistributedEnvironment_twin (h : step.Seen env) (h' : step.Seen env')
    {args args' : InitDistributedArgs} (hbackend : args.backend = args'.backend) (hj : Joins N r env args)
    (hj' : Joins N r' env' args') : Action.Twin (Peers N r r') (initDistributedEnvironment env args)
      (initDistributedEnvironment env' args') fun _ _ => True := by
  have hkept : ∀ (config : Option VllmConfig) (args : InitDistributedArgs),
      (adjustArgs config args).backend = args.backend := by
    intro config args
    rw [adjustArgs]
    split <;> rfl
  have hplace : ∀ {env : Environment} {rank : Nat} {args : InitDistributedArgs}, Joins N rank env args →
      ∀ m p, env.rendezvous m (adjustArgs env.config args).worldSize (adjustArgs env.config args).rank = .ok p →
        p = (N, rank) := by
    intro env rank args hj m p hp
    rw [hj.rendezvous m _ _ p hp, hj.worldSize, hj.rank]
    rfl
  simp only [initDistributedEnvironment, elasticConfig_none h, elasticConfig_none h']
  have hbackend' : (adjustArgs env.config args).backend = (adjustArgs env'.config args').backend := by
    rw [hkept, hkept, hbackend]
  refine Action.twin_bind (ensureDefaultGroup_twin h h' hbackend' (hplace hj) (hplace hj')) ?_
  rintro backend _ rfl
  exact Action.twin_bind (initWorld_twin h h' _ _ backend) fun _ _ _ => initReplicaWorld_twin h h' backend

/-- The first lines come to the same layout. -/
structure MpPeers (N : Nat) (mp mp' : ModelParallel) : Prop where
  formed : allRanks N mp.sizes = .ok mp.allRanks
  config : ∃ config d d', mp.config = VllmConfig.ofReplica config d ∧ mp'.config = config.ofReplica d' ∧
    config.parallelConfig.enableElasticEp = false
  sizes : mp.sizes = mp'.sizes
  ranks : mp.allRanks = mp'.allRanks
  backend : mp.backend = mp'.backend

private theorem deviceBackend_twin {communicates : Bool} {ref ref' : CoordinatorRef}
    (h : RefPeers N r r' communicates ref ref') :
    Action.Twin (Peers N r r') (Action.lift (deviceBackend ref.coordinator) : Setup _)
      (Action.lift (deviceBackend ref'.coordinator) : Setup _) Eq := by
  obtain ⟨g, g', replaced, href, href', -, -, hpeers, -⟩ := h
  rw [href, href']
  refine Action.twin_lift fun a b ha hb => ?_
  cases ha
  cases hb
  exact congrArg some hpeers.backend

private theorem worldAndBackend_twin {config : VllmConfig} (he : config.parallelConfig.enableElasticEp = false)
    (d d' : Nat) (backend : Option String) : Action.Twin (Peers N r r')
      (worldAndBackend env (config.ofReplica d).parallelConfig backend)
      (worldAndBackend env' (config.ofReplica d').parallelConfig backend) fun p p' => p = p' ∧ p.1 = N := by
  simp only [worldAndBackend, VllmConfig.ofReplica, he, Bool.false_eq_true, if_false]
  refine Action.twin_bind defaultGroup_twin ?_
  rintro _ _ ⟨common, rfl, rfl⟩
  split
  · exact Action.twin_pure ⟨rfl, rfl⟩
  · refine Action.twin_bind getWorldGroup_twin fun world world' hpeers => ?_
    refine Action.twin_bind (deviceBackend_twin hpeers) ?_
    rintro name _ rfl
    exact Action.twin_pure ⟨rfl, rfl⟩

private theorem modelParallel_twin (h : step.Seen env) (h' : step.Seen env') (args : ModelParallelArgs) :
    Action.Twin (Peers N r r') (modelParallel env args) (modelParallel env' args) (MpPeers N) := by
  obtain ⟨d, hconfig⟩ := h.config
  obtain ⟨d', hconfig'⟩ := h'.config
  refine Action.twin_bind Action.twin_get fun s t _ => ?_
  refine Action.twin_bind (Action.twin_lift (P := fun _ _ => True) fun _ _ _ _ => trivial) fun _ _ _ => ?_
  have hget : Action.Twin (Peers N r r') (Action.lift (getCurrentVllmConfig env) : Setup _)
      (Action.lift (getCurrentVllmConfig env') : Setup _) fun c c' => ∃ config : VllmConfig,
        c = config.ofReplica d ∧ c' = config.ofReplica d' ∧ config.parallelConfig.enableElasticEp = false := by
    simp only [getCurrentVllmConfig, hconfig, hconfig']
    cases hc : step.config with
    | none => exact Action.twin_lift fun _ _ ha _ => by cases ha
    | some config =>
      refine Action.twin_lift fun a b ha hb => ?_
      cases ha
      cases hb
      exact ⟨config, rfl, rfl, step.notElastic config hc⟩
  refine Action.twin_bind hget ?_
  rintro _ _ ⟨config, rfl, rfl, he⟩
  refine Action.twin_bind (worldAndBackend_twin he d d' args.backend) ?_
  rintro ⟨worldSize, backend⟩ _ ⟨rfl, rfl⟩
  have hranks : ∀ sizes, Action.Twin (Peers worldSize r r') (Action.lift (allRanks worldSize sizes) : Setup _)
      (Action.lift (allRanks worldSize sizes) : Setup _) fun a b => a = b ∧ allRanks worldSize sizes = .ok a := by
    intro sizes
    exact Action.twin_lift fun a b ha hb => ⟨Except.ok.inj (ha.symm.trans hb), ha⟩
  refine Action.twin_bind (hranks _) ?_
  rintro ranks _ ⟨rfl, hformed⟩
  exact Action.twin_pure ⟨hformed, ⟨config, d, d', rfl, rfl, he⟩, rfl, rfl, rfl⟩

private theorem assertUnset_twin (slot : Slot) :
    Action.Twin (Peers N r r') slot.assertUnset slot.assertUnset fun _ _ => True :=
  Action.twin_bind Action.twin_get fun _ _ _ => Action.twin_lift fun _ _ _ _ => trivial

private theorem setSlot_twin (slot : Slot) {ref ref' : CoordinatorRef} (h : RefPeers N r r' true ref ref') :
    Action.Twin (Peers N r r') (Action.modify (·.setSlot slot (some ref)) : Setup Unit)
      (Action.modify (·.setSlot slot (some ref')) : Setup Unit) fun _ _ => True :=
  Action.twin_modify fun _ _ hst => hst.setSlot slot (.some h)

section ModelParallel
variable {mp mp' : ModelParallel}

private theorem MpPeers.not_elastic (hmp : MpPeers N mp mp') : mp.elastic = false ∧ mp'.elastic = false := by
  obtain ⟨config, d, d', hconfig, hconfig', he⟩ := hmp.config
  simp only [ModelParallel.elastic, hconfig, hconfig', VllmConfig.ofReplica]
  exact ⟨he, he⟩

private theorem groupRanks_twin (hN : 0 < N) (hmp : MpPeers N mp mp') (name : GroupName) :
    Action.Twin (Peers N r r') (Action.lift (name.groupRanks mp.sizes mp.allRanks) : Setup _)
      (Action.lift (name.groupRanks mp'.sizes mp'.allRanks) : Setup _) fun rows rows' => rows = rows' ∧ Rows N rows := by
  rw [← hmp.sizes, ← hmp.ranks]
  exact Action.twin_lift fun a b ha hb => ⟨Except.ok.inj (ha.symm.trans hb), GroupName.groupRanks_rows hN hmp.formed ha⟩

private theorem initReplicaGroup_twin (hN : 0 < N) (h : step.Seen env) (h' : step.Seen env') (hmp : MpPeers N mp mp')
    (name : GroupName) : Action.Twin (Peers N r r') (mp.initReplicaGroup env name) (mp'.initReplicaGroup env' name)
      fun _ _ => True := by
  refine Action.twin_bind (assertUnset_twin _) fun _ _ _ => ?_
  have hsame : ∀ mp : ModelParallel, mp.elastic = false →
      mp.replicaRanks name = name.groupRanks mp.sizes mp.allRanks := by
    intro mp he
    simp only [ModelParallel.replicaRanks, he, Bool.false_eq_true, if_false]
    cases name.groupRanks mp.sizes mp.allRanks <;> rfl
  rw [hsame mp hmp.not_elastic.1, hsame mp' hmp.not_elastic.2]
  refine Action.twin_bind (groupRanks_twin hN hmp name) ?_
  rintro rows _ ⟨rfl, hrows⟩
  refine Action.twin_bind getWorldGroup_twin fun world world' _ => ?_
  rw [← hmp.backend]
  exact Action.twin_bind (initModelParallelGroup_twin h h' hrows _ _ _ _ _ _) fun _ _ hpeers => setSlot_twin _ hpeers

private theorem initAcross_twin (h : step.Seen env) (h' : step.Seen env') (hmp : MpPeers N mp mp') (slot : Slot)
    {rows : List (List Nat)} (hrows : Rows N rows) : Action.Twin (Peers N r r') (mp.initAcross env slot rows)
      (mp'.initAcross env' slot rows) fun _ _ => True := by
  refine Action.twin_bind getWorldGroup_twin fun world world' _ => ?_
  simp only [ModelParallel.acrossGroup, hmp.not_elastic.1, hmp.not_elastic.2, Bool.false_eq_true, if_false,
    ← hmp.backend]
  exact Action.twin_bind (initModelParallelGroup_twin h h' hrows _ _ _ _ _ _) fun _ _ hpeers => setSlot_twin _ hpeers

private theorem initDataParallel_twin (hN : 0 < N) (h : step.Seen env) (h' : step.Seen env') (hmp : MpPeers N mp mp') :
    Action.Twin (Peers N r r') (mp.initDataParallel env) (mp'.initDataParallel env') fun _ _ => True := by
  refine Action.twin_bind (assertUnset_twin _) fun _ _ _ => ?_
  refine Action.twin_bind (groupRanks_twin hN hmp .dp) ?_
  rintro rows _ ⟨rfl, hrows⟩
  exact initAcross_twin h h' hmp _ hrows

private theorem initExpertParallel_twin (hN : 0 < N) (h : step.Seen env) (h' : step.Seen env') (hmp : MpPeers N mp mp') :
    Action.Twin (Peers N r r') (mp.initExpertParallel env) (mp'.initExpertParallel env') fun _ _ => True := by
  obtain ⟨config, d, d', hconfig, hconfig', -⟩ := hmp.config
  have hmoe : mp.config.isMoe = mp'.config.isMoe := by rw [hconfig, hconfig']; rfl
  have heplb : mp.config.parallelConfig.enableEplb = mp'.config.parallelConfig.enableEplb := by
    rw [hconfig, hconfig']
    rfl
  refine Action.twin_bind (assertUnset_twin _) fun _ _ _ => ?_
  rw [← hmoe, ← heplb]
  split
  · refine Action.twin_bind (groupRanks_twin hN hmp .ep) ?_
    rintro rows _ ⟨rfl, hrows⟩
    refine Action.twin_bind (initAcross_twin h h' hmp _ hrows) fun _ _ _ => ?_
    refine Action.twin_bind (assertUnset_twin _) fun _ _ _ => ?_
    split
    · exact initAcross_twin h h' hmp _ hrows
    · exact Action.twin_pure trivial
  · exact Action.twin_pure trivial

end ModelParallel

private theorem initializeModelParallel_twin (hN : 0 < N) (h : step.Seen env) (h' : step.Seen env')
    (args : ModelParallelArgs) : Action.Twin (Peers N r r') (initializeModelParallel env args)
      (initializeModelParallel env' args) fun _ _ => True := by
  refine Action.twin_bind (modelParallel_twin h h' args) fun mp mp' hmp => ?_
  refine Action.twin_bind (initReplicaGroup_twin hN h h' hmp .tp) fun _ _ _ => ?_
  refine Action.twin_bind (initReplicaGroup_twin hN h h' hmp .dcp) fun _ _ _ => ?_
  refine Action.twin_bind (initReplicaGroup_twin hN h h' hmp .pcp) fun _ _ _ => ?_
  refine Action.twin_bind (initReplicaGroup_twin hN h h' hmp .pp) fun _ _ _ => ?_
  exact Action.twin_bind (initDataParallel_twin hN h h' hmp) fun _ _ _ => initExpertParallel_twin hN h h' hmp

private theorem rel_isSome {A B : Type} {R : A → B → Prop} {x : Option A} {y : Option B} (h : Option.Rel R x y) :
    x.isSome = y.isSome := by
  cases h <;> rfl

private theorem ensureModelParallelInitialized_twin (hN : 0 < N) (h : step.Seen env) (h' : step.Seen env')
    (args : ModelParallelArgs) : Action.Twin (Peers N r r') (ensureModelParallelInitialized env args)
      (ensureModelParallelInitialized env' args) fun _ _ => True := by
  refine Action.twin_bind getWorldGroup_twin fun world world' hpeers => ?_
  have hbackend : Action.Twin (Peers N r r') (Action.lift (ensuredBackend args.backend world.coordinator) : Setup _)
      (Action.lift (ensuredBackend args.backend world'.coordinator) : Setup _) Eq := by
    cases htruthy : truthy args.backend with
    | some backend =>
      simp only [ensuredBackend, htruthy]
      exact Action.twin_lift fun a b ha hb => Except.ok.inj (ha.symm.trans hb)
    | none =>
      have hlift := deviceBackend_twin hpeers
      obtain ⟨g, g', replaced, href, href', -⟩ := hpeers
      rw [href, href'] at hlift ⊢
      simp only [ensuredBackend, htruthy]
      exact hlift
  refine Action.twin_bind hbackend ?_
  rintro backend _ rfl
  refine Action.twin_bind Action.twin_get fun s t hst => ?_
  have hinitialized : modelParallelIsInitialized s = modelParallelIsInitialized t := by
    exact congrArg₂ and (rel_isSome (hst.held (.slot (.of .tp)))) (rel_isSome (hst.held (.slot (.of .pp))))
  rw [← hinitialized]
  split
  · exact Action.twin_bind Action.twin_get fun _ _ _ => Action.twin_lift fun _ _ _ _ => trivial
  · exact initializeModelParallel_twin hN h h' _

end Twin

section Runs
variable {r r' : Nat}

/-- What has been torn down does not matter. -/
def LifePeers (N r r' : Nat) (u v : LifeState) : Prop := Peers N r r' u.toModuleState v.toModuleState

private theorem toLife_twin {A B : Type} {m : Setup A} {n : Setup B} {P : A → B → Prop}
    (h : Action.Twin (Peers N r r') m n P) : Action.Twin (LifePeers N r r') m.toLife n.toLife P :=
  Action.twin_on (fun _ _ => rfl) (fun _ _ => rfl) h

private theorem destroyGroup_twin (env env' : LifeEnvironment) (group group' : Option CoordinatorRef) :
    Action.Twin (LifePeers N r r') (destroyGroup env group) (destroyGroup env' group') fun _ _ => True := by
  have hkept : ∀ (env : LifeEnvironment) (group : Option CoordinatorRef) (u : LifeState),
      (destroyGroup env group u).2.toModuleState = u.toModuleState := by
    intro env group u
    exact destroyGroup_keeps env (I := fun v => v.toModuleState = u.toModuleState) (fun _ _ _ _ _ hv => hv) group u rfl
  exact Action.twin_of_keeps (f := LifeState.toModuleState) (g := LifeState.toModuleState) (hkept env group)
    (hkept env' group')

private theorem destroySlots_twin (env env' : LifeEnvironment) (slots : List Slot) :
    Action.Twin (LifePeers N r r') (destroySlots env slots) (destroySlots env' slots) fun _ _ => True := by
  induction slots with
  | nil => exact Action.twin_pure trivial
  | cons slot slots ih =>
    have hslot : Action.Twin (LifePeers N r r') (destroySlot env slot) (destroySlot env' slot) fun _ _ => True := by
      refine Action.twin_bind Action.twin_get fun u v _ => ?_
      refine Action.twin_bind (destroyGroup_twin env env' _ _) fun _ _ _ => ?_
      exact toLife_twin (Action.twin_modify fun s t hst => hst.setSlot slot .none)
    exact Action.twin_bind hslot fun _ _ _ => ih

private theorem destroyDistributedEnvironment_twin (env env' : LifeEnvironment) :
    Action.Twin (LifePeers N r r') (destroyDistributedEnvironment env) (destroyDistributedEnvironment env')
      fun _ _ => True := by
  refine Action.twin_bind Action.twin_get fun u v _ => ?_
  refine Action.twin_bind (destroyGroup_twin env env' _ _) fun _ _ _ => ?_
  refine Action.twin_bind (toLife_twin (Action.twin_modify fun s t hst => ?_)) fun _ _ _ => ?_
  · exact (hst.setWorld .none).setNodeCount none none
  · refine Action.twin_bind Action.twin_get fun u v huv => ?_
    have hdist : u.dist.isSome = v.dist.isSome := by
      obtain ⟨backend, hu, hv⟩ := Peers.dist huv
      rw [hu, hv, Option.isSome_map, Option.isSome_map]
    rw [← hdist]
    split
    · refine Action.twin_bind (Action.twin_lift (P := fun _ _ => True) fun _ _ _ _ => trivial) fun _ _ _ => ?_
      exact toLife_twin (Action.twin_modify fun s t hst => hst.setDist none)
    · exact Action.twin_pure trivial

theorem run_twin (hN : 0 < N) {step : JobStep N} {made made' : LifeStep} (h : step.RunBy r made)
    (h' : step.RunBy r' made') : Action.Twin (LifePeers N r r') made.run made'.run fun _ _ => True := by
  obtain ⟨env, call⟩ := made
  obtain ⟨env', call'⟩ := made'
  have hcall := h.call
  have hcall' := h'.call
  cases hstep : step.call with
  | initDistributedEnvironment backend =>
    rw [hstep] at hcall hcall'
    obtain ⟨args, rfl, hbackend, hj⟩ := hcall
    obtain ⟨args', rfl, hbackend', hj'⟩ := hcall'
    exact toLife_twin (initDistributedEnvironment_twin h.seen h'.seen (hbackend.trans hbackend'.symm) hj hj')
  | initializeModelParallel args =>
    rw [hstep] at hcall hcall'
    cases hcall
    cases hcall'
    exact toLife_twin (initializeModelParallel_twin hN h.seen h'.seen args)
  | ensureModelParallelInitialized args =>
    rw [hstep] at hcall hcall'
    cases hcall
    cases hcall'
    exact toLife_twin (ensureModelParallelInitialized_twin hN h.seen h'.seen args)
  | destroyModelParallel =>
    rw [hstep] at hcall hcall'
    cases hcall
    cases hcall'
    exact destroySlots_twin env env' modelParallelSlots
  | destroyDistributedEnvironment =>
    rw [hstep] at hcall hcall'
    cases hcall
    cases hcall'
    exact destroyDistributedEnvironment_twin env env'

theorem runAll_twin (hN : 0 < N) {job : List (JobStep N)} {steps steps' : List LifeStep}
    (h : List.Forall₂ (·.RunBy r) job steps) (h' : List.Forall₂ (·.RunBy r') job steps') :
    Action.Twin (LifePeers N r r') (runAll steps) (runAll steps') fun _ _ => True := by
  induction h generalizing steps' with
  | nil =>
    cases h'
    exact Action.twin_pure trivial
  | cons hstep _ ih =>
    cases h' with
    | cons hstep' hrest => exact Action.twin_bind (run_twin hN hstep hstep') fun _ _ _ => ih hrest

theorem fresh_peers (N r r' : Nat) (hoststagedTp backend : Option String) :
    LifePeers N r r' (.fresh hoststagedTp (backend.map (⟨N, r, ·⟩))) (.fresh hoststagedTp (backend.map (⟨N, r', ·⟩))) where
  hoststagedTp := rfl
  xpuHoststaged := rfl
  dist := ⟨backend, rfl, rfl⟩
  requests := rfl
  groupNameCounter := rfl
  held holder := by rcases holder with _ | _ | (_ | _ | _ | _ | _ | _) | _ <;> exact .none

end Runs

/-- The groups that the ranks of a job hold in one global. -/
structure Family (N : Nat) (group : Fin N → GroupCoordinator) : Prop where
  member : ∀ r : Fin N, Member N r (group r)
  peers : ∀ r r', GroupPeers (group r) (group r')

/-- All ranks hold nothing in this global, or a family of groups. -/
def HoldsFamily (final : Fin N → LifeState) (holder : Holder) : Prop :=
  (∀ r, (final r).held holder = none) ∨ ∃ (group : Fin N → GroupCoordinator) (replaced : Bool), Family N group ∧
    (∀ r, ((final r).held holder).map (·.coordinator) = some (.group (group r) replaced)) ∧
      (holder.communicates = true → ∀ r, 1 < (group r).worldSize → (group r).deviceCommunicator.isSome = true)

/-- The ranks of a job ran these steps, each from a fresh process, and returned. -/
structure JobRuns (job : List (JobStep N)) (hoststagedTp backend : Option String) (steps : Fin N → List LifeStep)
    (final : Fin N → LifeState) : Prop where
  made : ∀ r : Fin N, List.Forall₂ (·.RunBy r) job (steps r)
  returns : ∀ r, runAll (steps r) (.fresh hoststagedTp (backend.map (⟨N, r, ·⟩))) = (.ok (), final r)

namespace JobRuns
variable {job : List (JobStep N)} {hoststagedTp backend : Option String} {steps : Fin N → List LifeStep}
  {final : Fin N → LifeState}

theorem peers (h : JobRuns job hoststagedTp backend steps final) (r r' : Fin N) : LifePeers N r r' (final r) (final r') :=
  (runAll_twin (Nat.zero_lt_of_lt r.2) (h.made r) (h.made r') _ _ _ _ _ _ (fresh_peers N r r' hoststagedTp backend)
    (h.returns r) (h.returns r')).1

theorem holdsFamily (h : JobRuns job hoststagedTp backend steps final) (holder : Holder) : HoldsFamily final holder := by
  rcases Nat.eq_zero_or_pos N with rfl | hN
  · exact .inl fun r => r.elim0
  -- what the first rank holds decides for all of them
  have hrel := fun r r' => (h.peers r r').held holder
  cases hfirst : (final ⟨0, hN⟩).held holder with
  | none =>
    left
    intro r
    have hr := hrel ⟨0, hN⟩ r
    rw [hfirst] at hr
    cases hheld : (final r).held holder with
    | none => rfl
    | some ref =>
      rw [hheld] at hr
      cases hr
  | some ref₀ =>
    right
    have hsome : ∀ r, ∃ ref, (final r).held holder = some ref ∧
        RefPeers N 0 r holder.communicates ref₀ ref := by
      intro r
      have hr := hrel ⟨0, hN⟩ r
      rw [hfirst] at hr
      cases hheld : (final r).held holder with
      | none =>
        rw [hheld] at hr
        cases hr
      | some ref =>
        rw [hheld] at hr
        cases hr with
        | some hr => exact ⟨ref, rfl, hr⟩
    obtain ⟨_, _, replaced, hfirst', -⟩ := (hsome ⟨0, hN⟩).choose_spec.2.groups
    have hgroup : ∀ r, ∃ g ref, (final r).held holder = some ref ∧ ref.coordinator = .group g replaced := by
      intro r
      obtain ⟨ref, hheld, g₀, g, replaced', hg₀, hg, -⟩ := hsome r
      rw [hfirst'] at hg₀
      cases hg₀
      exact ⟨g, ref, hheld, hg⟩
    choose group ref hheld hg using hgroup
    have hpair : ∀ r r' : Fin N, Member N r (group r) ∧ GroupPeers (group r) (group r') ∧
        (holder.communicates = true → 1 < (group r).worldSize → (group r).deviceCommunicator.isSome = true) := by
      intro r r'
      have hr := hrel r r'
      rw [hheld r, hheld r'] at hr
      cases hr with
      | some hr =>
        obtain ⟨g, g', _, h₁, h₂, hmember, -, hpeers⟩ := hr
        rw [hg] at h₁ h₂
        cases h₁
        cases h₂
        exact ⟨hmember, hpeers⟩
    exact ⟨group, replaced, ⟨fun r => (hpair r r).1, fun r r' => (hpair r r').2.1⟩,
      fun r => by rw [hheld, Option.map_some, hg], fun huse r => (hpair r r).2.2 huse⟩

/-- Ranks that make the same calls ask torch for the same groups in the same order, and
end with the same kinds of groups: each rank in its own, shared with the group's members
and with nobody else. -/
theorem agree (h : JobRuns job hoststagedTp backend steps final) :
    (∀ r r', (final r).requests = (final r').requests) ∧ ∀ holder, HoldsFamily final holder :=
  ⟨fun r r' => (h.peers r r').requests, h.holdsFamily⟩

end JobRuns

/-- Two replicas of two ranks, on one node. -/
def replicasConfig : VllmConfig where
  parallelConfig := ⟨false, false, some "mp", 1, 1, 2, 0, 2, 4, "tcp://10.0.0.1:29500", "tcp://10.0.0.1:29501"⟩
  isMoe := none

def replicasStep (call : JobCall) : JobStep 4 where
  config := some replicasConfig
  isBackendAvailable _ := true
  isGlooAvailable := true
  useCustomOpCollectives := true
  call := call
  notElastic := by rintro c ⟨⟩; rfl
  replicas_le := by rintro c ⟨⟩; decide

def replicasJob : List (JobStep 4) :=
  [replicasStep (.initDistributedEnvironment (some "xccl")),
    replicasStep (.ensureModelParallelInitialized ⟨2, 1, 1, some 1, none⟩)]

def replicasEnvironment (r : Fin 4) : LifeEnvironment :=
  { replicaEnvironment 1 with config := some (replicasConfig.ofReplica (r / 2)) }

def replicasSteps (r : Fin 4) : List LifeStep :=
  [⟨replicasEnvironment r, .initDistributedEnvironment ⟨2, (r % 2 : Nat), some "env://", (r % 2 : Nat), some "xccl"⟩⟩,
    ⟨replicasEnvironment r, .ensureModelParallelInitialized ⟨2, 1, 1, some 1, none⟩⟩]

def replicasFinal (r : Fin 4) : LifeState := (runAll (replicasSteps r) (.fresh none none)).2

theorem replicas_run : JobRuns replicasJob none none replicasSteps replicasFinal := by
  refine ⟨fun r => ?_, fun r => Prod.ext ?_ rfl⟩
  · have hseen : ∀ call, (replicasStep call).Seen (replicasEnvironment r).toEnvironment :=
      fun call => ⟨⟨r / 2, rfl⟩, rfl, rfl, rfl⟩
    have hjoins : Joins 4 r (replicasEnvironment r).toEnvironment
        ⟨2, (r % 2 : Nat), some "env://", (r % 2 : Nat), some "xccl"⟩ := by
      refine joins_of_replica rfl rfl rfl rfl (Nat.div_add_mod' r 2) ?_
      intro _ _ _ p hp
      exact (Except.ok.inj hp).symm
    exact .cons ⟨hseen _, _, rfl, rfl, hjoins⟩ (.cons ⟨hseen _, rfl⟩ .nil)
  · revert r
    decide +kernel

theorem replicas_agree : (∀ r r', (replicasFinal r).requests = (replicasFinal r').requests) ∧
    ∀ holder, HoldsFamily replicasFinal holder := replicas_run.agree

end B70DualTP.Coordinator
