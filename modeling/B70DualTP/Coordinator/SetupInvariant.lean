import B70DualTP.Coordinator.Initialize

/-! What the functions that set up groups do to the globals, said once: they construct
coordinators and assign them. An invariant that is kept by these events is kept by every
function, raise or return. -/
namespace B70DualTP.Coordinator
open Library Torch Communicator

/-- An invariant of the module that the events of setting up groups keep. -/
structure SetupInvariant where
  Holds : ModuleState → Prop
  /-- What a construction guarantees about its object until it is assigned. -/
  Made : CoordinatorRef → ModuleState → Prop
  request : ∀ {s}, Holds s → ∀ L, Holds (s.request L)
  dist : ∀ {s}, Holds s → ∀ dist, Holds { s with dist := dist }
  nodeCount : ∀ {s}, Holds s → ∀ nodeCount, Holds { s with nodeCount := nodeCount }
  construct : ∀ useCustomOpCollectives args,
    Action.Triple Holds (fun _ => True) (GroupCoordinator.init useCustomOpCollectives args) Made
  stateless : ∀ env groupRanks localRank backend rank,
    Action.Triple Holds (fun _ => True) (newStatelessGroup env groupRanks localRank backend rank) Made
  world : ∀ {s ref}, Holds s → Made ref s → Holds { s with world := some ref }
  innerDpWorld : ∀ {s ref}, Holds s → Made ref s → Holds { s with innerDpWorld := some ref }
  shareWorld : ∀ {s}, Holds s → Holds { s with innerDpWorld := s.world }
  slot : ∀ {s ref}, Holds s → Made ref s → ∀ slot, Holds (s.setSlot slot (some ref))

namespace SetupInvariant
variable (I : SetupInvariant) (env : Environment)

private theorem made_bind {A : Type} {m : Setup CoordinatorRef} {f : CoordinatorRef → Setup A}
    (hm : Action.Triple I.Holds (fun _ => True) m I.Made)
    (hf : ∀ ref, Action.Triple I.Holds (I.Made ref) (f ref) fun _ _ => True) : Action.Keeps I.Holds (m >>= f) :=
  (Action.triple_bind hm hf).keeps

private theorem initDefaultGroup_keeps (elastic : Bool) (args : InitDistributedArgs) :
    Action.Keeps I.Holds (initDefaultGroup env elastic args) := by
  simp only [initDefaultGroup]
  split
  · exact Action.keeps_raise _
  · have hbackend : Action.Keeps I.Holds (worldBackend env args.backend) := by
      refine Action.keeps_bind (Action.keeps_lift _) fun backend => ?_
      exact Action.keeps_bind Action.keeps_get fun _ => Action.keeps_pure _
    apply Action.keeps_bind hbackend
    intro backend
    have hinit : ∀ initMethod, Action.Keeps I.Holds (initProcessGroup env backend args initMethod) := by
      intro initMethod
      exact Action.keeps_bind (Action.keeps_lift _) fun p => Action.keeps_modify fun s hs => I.dist (I.request hs _) _
    apply Action.keeps_bind (hinit _)
    intro _
    have hnodes : Action.Keeps I.Holds (checkElasticNodes env elastic) := by
      simp only [checkElasticNodes]
      split
      · refine Action.keeps_bind defaultGroup_keeps fun group => ?_
        refine Action.keeps_bind (newGroup_keeps (fun s L hs => I.request hs L) _ _) fun _ => ?_
        refine Action.keeps_bind (Action.keeps_lift _) fun count => ?_
        split
        · exact Action.keeps_raise _
        · exact Action.keeps_pure _
      · exact Action.keeps_pure _
    exact Action.keeps_bind hnodes fun _ => Action.keeps_pure _

private theorem ensureDefaultGroup_keeps (args : InitDistributedArgs) :
    Action.Keeps I.Holds (ensureDefaultGroup env args) := by
  refine Action.keeps_bind Action.keeps_get fun s => ?_
  split
  · exact Action.keeps_pure _
  · exact I.initDefaultGroup_keeps env _ args

private theorem initElasticEpWorld_keeps (config : ParallelConfig) (localRank : Int) (backend : Option String)
    (rank worldSize : Int) : Action.Keeps I.Holds (initElasticEpWorld env config localRank backend rank worldSize) := by
  refine Action.keeps_bind Action.keeps_get fun s => ?_
  refine Action.keeps_bind (Action.keeps_lift _) fun _ => ?_
  refine Action.keeps_bind (Action.keeps_lift _) fun _ => ?_
  apply I.made_bind (I.stateless _ _ _ _ _)
  intro world
  have hassert : Action.Triple I.Holds (I.Made world)
      (Action.lift (assert (config.nnodesWithinDp = 1) "Elastic EP is not supported with multi-node TP/PP"))
        fun _ => I.Made world := Action.triple_lift fun _ _ _ _ hmade => hmade
  apply Action.triple_bind hassert
  intro _
  split
  · have hcount : ∀ x : Py Nat, Action.Triple I.Holds (I.Made world) (Action.lift x) fun _ => I.Made world :=
      fun x => Action.triple_lift fun _ _ _ _ hmade => hmade
    apply Action.triple_bind (hcount _)
    intro count
    exact Action.triple_modify fun s hs hmade => ⟨I.nodeCount (I.world hs hmade) _, trivial⟩
  · exact Action.triple_raise _

private theorem initWorld_keeps (localRank : Int) (backend : Option String) :
    Action.Keeps I.Holds (initWorld env localRank backend) := by
  refine Action.keeps_bind defaultGroup_keeps fun group => ?_
  refine Action.keeps_bind Action.keeps_get fun s => ?_
  split
  · apply I.made_bind (I.construct _ _)
    intro world
    have hassign : Action.Triple I.Holds (I.Made world)
        (Action.modify fun s => { s with world := some world } : Setup Unit) fun _ _ => True :=
      Action.triple_modify fun s hs hmade => ⟨I.world hs hmade, trivial⟩
    apply Action.triple_bind hassign
    intro _
    apply Action.triple_bind (Action.keeps_lift _).triple
    intro count
    exact Action.triple_modify fun s hs _ => ⟨I.nodeCount hs _, trivial⟩
  · exact Action.keeps_lift _

private theorem initReplicaWorld_keeps (backend : Option String) :
    Action.Keeps I.Holds (initReplicaWorld env backend) := by
  simp only [initReplicaWorld]
  split
  · split
    · exact Action.keeps_raise _
    · simp only [initInnerDpWorld]
      split
      · refine Action.keeps_bind getWorldGroup_keeps fun world => ?_
        apply I.made_bind (I.construct _ _)
        intro group
        exact Action.triple_modify fun s hs hmade => ⟨I.innerDpWorld hs hmade, trivial⟩
      · exact Action.keeps_modify fun s hs => I.shareWorld hs
  · exact Action.keeps_pure _

theorem initDistributedEnvironment_keeps (args : InitDistributedArgs) :
    Action.Keeps I.Holds (initDistributedEnvironment env args) := by
  apply Action.keeps_bind (I.ensureDefaultGroup_keeps env _)
  intro backend
  split
  · exact I.initElasticEpWorld_keeps env _ _ _ _ _
  · exact Action.keeps_bind (I.initWorld_keeps env _ _) fun _ => I.initReplicaWorld_keeps env _

section ModelParallel
variable (mp : ModelParallel)

private theorem setSlot_triple (slot : Slot) (group : CoordinatorRef) :
    Action.Triple I.Holds (I.Made group) (Action.modify (·.setSlot slot (some group)) : Setup Unit) fun _ _ => True :=
  Action.triple_modify fun _ hs hmade => ⟨I.slot hs hmade slot, trivial⟩

private theorem initReplicaGroup_keeps (name : GroupName) : Action.Keeps I.Holds (mp.initReplicaGroup env name) := by
  refine Action.keeps_bind (Slot.assertUnset_keeps _) fun _ => ?_
  refine Action.keeps_bind (Action.keeps_lift _) fun groupRanks => ?_
  refine Action.keeps_bind getWorldGroup_keeps fun world => ?_
  exact I.made_bind (I.construct _ _) fun group => I.setSlot_triple _ group

private theorem initAcross_keeps (slot : Slot) (groupRanks : List (List Nat)) :
    Action.Keeps I.Holds (mp.initAcross env slot groupRanks) := by
  refine Action.keeps_bind getWorldGroup_keeps fun world => ?_
  have hgroup : Action.Triple I.Holds (fun _ => True) (mp.acrossGroup env slot groupRanks world.coordinator) I.Made := by
    simp only [ModelParallel.acrossGroup]
    split
    · exact I.stateless _ _ _ _ _
    · exact I.construct _ _
  exact I.made_bind hgroup fun group => I.setSlot_triple _ group

private theorem initExpertParallel_keeps : Action.Keeps I.Holds (mp.initExpertParallel env) := by
  refine Action.keeps_bind (Slot.assertUnset_keeps _) fun _ => ?_
  split
  · refine Action.keeps_bind (Action.keeps_lift _) fun groupRanks => ?_
    apply Action.keeps_bind (I.initAcross_keeps env mp _ _)
    intro _
    refine Action.keeps_bind (Slot.assertUnset_keeps _) fun _ => ?_
    split
    · exact I.initAcross_keeps env mp _ _
    · exact Action.keeps_pure _
  · exact Action.keeps_pure _

end ModelParallel

private theorem worldAndBackend_keeps (config : ParallelConfig) (backend : Option String) :
    Action.Keeps I.Holds (worldAndBackend env config backend) := by
  simp only [worldAndBackend]
  split
  · refine Action.keeps_bind (Action.keeps_lift _) fun _ => ?_
    exact Action.keeps_bind getWorldGroup_keeps fun _ => Action.keeps_pure _
  · refine Action.keeps_bind defaultGroup_keeps fun group => ?_
    split
    · exact Action.keeps_pure _
    · refine Action.keeps_bind getWorldGroup_keeps fun world => ?_
      exact Action.keeps_bind (Action.keeps_lift _) fun _ => Action.keeps_pure _

theorem modelParallel_keeps (args : ModelParallelArgs) : Action.Keeps I.Holds (modelParallel env args) := by
  refine Action.keeps_bind Action.keeps_get fun s => ?_
  refine Action.keeps_bind (Action.keeps_lift _) fun _ => ?_
  refine Action.keeps_bind (Action.keeps_lift _) fun config => ?_
  apply Action.keeps_bind (I.worldAndBackend_keeps env _ _)
  intro p
  exact Action.keeps_bind (Action.keeps_lift _) fun _ => Action.keeps_pure _

theorem initializeModelParallel_keeps (args : ModelParallelArgs) :
    Action.Keeps I.Holds (initializeModelParallel env args) := by
  apply Action.keeps_bind (I.modelParallel_keeps env args)
  intro mp
  apply Action.keeps_bind (I.initReplicaGroup_keeps env mp .tp)
  intro _
  apply Action.keeps_bind (I.initReplicaGroup_keeps env mp .dcp)
  intro _
  apply Action.keeps_bind (I.initReplicaGroup_keeps env mp .pcp)
  intro _
  apply Action.keeps_bind (I.initReplicaGroup_keeps env mp .pp)
  intro _
  have hdata : Action.Keeps I.Holds (mp.initDataParallel env) := by
    refine Action.keeps_bind (Slot.assertUnset_keeps _) fun _ => ?_
    exact Action.keeps_bind (Action.keeps_lift _) fun _ => I.initAcross_keeps env mp _ _
  exact Action.keeps_bind hdata fun _ => I.initExpertParallel_keeps env mp

theorem ensureModelParallelInitialized_keeps (args : ModelParallelArgs) :
    Action.Keeps I.Holds (ensureModelParallelInitialized env args) := by
  refine Action.keeps_bind getWorldGroup_keeps fun world => ?_
  refine Action.keeps_bind (Action.keeps_lift _) fun backend => ?_
  refine Action.keeps_bind Action.keeps_get fun s => ?_
  split
  · exact Action.keeps_bind Action.keeps_get fun _ => Action.keeps_lift _
  · exact I.initializeModelParallel_keeps env _

end SetupInvariant
end B70DualTP.Coordinator
