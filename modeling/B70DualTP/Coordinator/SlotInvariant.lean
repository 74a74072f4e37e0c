import B70DualTP.Coordinator.SetupInvariant

/-! What initialize_model_parallel does to the groups of model parallelism, said once for
invariants that look at them slot by slot. -/
namespace B70DualTP.Coordinator
open Library Torch Communicator

/-- An invariant of the module that filling the slots keeps, each with a group of its own name. -/
structure SlotInvariant where
  Holds : ModuleState → Prop
  /-- What a construction guarantees about the object of a slot. -/
  Made : Slot → CoordinatorRef → Prop
  construct : ∀ useCustomOpCollectives args slot, args.groupName = some slot.groupName → args.useDeviceCommunicator = true →
    Action.Triple Holds (fun _ => True) (GroupCoordinator.init useCustomOpCollectives args) fun ref _ => Made slot ref
  stateless : ∀ env groupRanks localRank backend rank slot,
    Action.Triple Holds (fun _ => True) (newStatelessGroup env groupRanks localRank backend rank) fun ref _ => Made slot ref
  assign : ∀ {s ref} slot, Holds s → Made slot ref → Holds (s.setSlot slot (some ref))

namespace SlotInvariant
variable (I : SlotInvariant) (env : Environment) (mp : ModelParallel)

private theorem initReplicaGroup_keeps (name : GroupName) : Action.Keeps I.Holds (mp.initReplicaGroup env name) := by
  refine Action.keeps_bind (Slot.assertUnset_keeps _) fun _ => Action.keeps_bind (Action.keeps_lift _) fun rows => ?_
  refine Action.keeps_bind getWorldGroup_keeps fun world => ?_
  refine Action.keeps_bind_of (I.construct _ _ (.of name) rfl rfl) fun group hmade => ?_
  exact Action.keeps_modify fun s hs => I.assign _ hs hmade

private theorem initAcross_keeps (slot : Slot) (groupRanks : List (List Nat)) :
    Action.Keeps I.Holds (mp.initAcross env slot groupRanks) := by
  refine Action.keeps_bind getWorldGroup_keeps fun world => ?_
  have hgroup : Action.Triple I.Holds (fun _ => True) (mp.acrossGroup env slot groupRanks world.coordinator)
      fun ref _ => I.Made slot ref := by
    simp only [ModelParallel.acrossGroup]
    split
    · exact I.stateless _ _ _ _ _ slot
    · exact I.construct _ _ slot rfl rfl
  exact Action.keeps_bind_of hgroup fun group hmade => Action.keeps_modify fun s hs => I.assign slot hs hmade

private theorem initExpertParallel_keeps : Action.Keeps I.Holds (mp.initExpertParallel env) := by
  refine Action.keeps_bind (Slot.assertUnset_keeps _) fun _ => ?_
  split
  · refine Action.keeps_bind (Action.keeps_lift _) fun rows => ?_
    refine Action.keeps_bind (I.initAcross_keeps env mp _ _) fun _ => ?_
    refine Action.keeps_bind (Slot.assertUnset_keeps _) fun _ => ?_
    split
    · exact I.initAcross_keeps env mp _ _
    · exact Action.keeps_pure _
  · exact Action.keeps_pure _

theorem modelParallel_eq (args : ModelParallelArgs) (s : ModuleState) : (modelParallel env args s).2 = s := by
  suffices h : Action.Keeps (fun t => t = s) (modelParallel env args) from h s rfl
  refine Action.keeps_bind Action.keeps_get fun _ => Action.keeps_bind (Action.keeps_lift _) fun _ => ?_
  refine Action.keeps_bind (Action.keeps_lift _) fun config => ?_
  have hworld : Action.Keeps (fun t => t = s) (worldAndBackend env config.parallelConfig args.backend) := by
    simp only [worldAndBackend]
    split
    · refine Action.keeps_bind (Action.keeps_lift _) fun _ => ?_
      exact Action.keeps_bind getWorldGroup_keeps fun _ => Action.keeps_pure _
    · refine Action.keeps_bind defaultGroup_keeps fun group => ?_
      split
      · exact Action.keeps_pure _
      · refine Action.keeps_bind getWorldGroup_keeps fun _ => ?_
        exact Action.keeps_bind (Action.keeps_lift _) fun _ => Action.keeps_pure _
  exact Action.keeps_bind hworld fun _ => Action.keeps_bind (Action.keeps_lift _) fun _ => Action.keeps_pure _

theorem initializeModelParallel_keeps (args : ModelParallelArgs) :
    Action.Keeps I.Holds (initializeModelParallel env args) := by
  have hfirst : Action.Keeps I.Holds (modelParallel env args) := fun s hs => (modelParallel_eq env args s).symm ▸ hs
  refine Action.keeps_bind hfirst fun mp => ?_
  refine Action.keeps_bind (I.initReplicaGroup_keeps env mp .tp) fun _ => ?_
  refine Action.keeps_bind (I.initReplicaGroup_keeps env mp .dcp) fun _ => ?_
  refine Action.keeps_bind (I.initReplicaGroup_keeps env mp .pcp) fun _ => ?_
  refine Action.keeps_bind (I.initReplicaGroup_keeps env mp .pp) fun _ => ?_
  have hdata : Action.Keeps I.Holds (mp.initDataParallel env) := by
    refine Action.keeps_bind (Slot.assertUnset_keeps _) fun _ => ?_
    exact Action.keeps_bind (Action.keeps_lift _) fun rows => I.initAcross_keeps env mp _ _
  exact Action.keeps_bind hdata fun _ => I.initExpertParallel_keeps env mp

theorem ensureModelParallelInitialized_keeps (args : ModelParallelArgs) :
    Action.Keeps I.Holds (ensureModelParallelInitialized env args) := by
  refine Action.keeps_bind getWorldGroup_keeps fun world => Action.keeps_bind (Action.keeps_lift _) fun backend => ?_
  refine Action.keeps_bind Action.keeps_get fun _ => ?_
  split
  · exact Action.keeps_bind Action.keeps_get fun _ => Action.keeps_lift _
  · exact I.initializeModelParallel_keeps env _

end SlotInvariant
end B70DualTP.Coordinator
