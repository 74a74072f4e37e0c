import B70DualTP.Coordinator.Placement
import B70DualTP.Coordinator.SlotInvariant

/-! prepare_communication_buffer_for_model. The communicator of the EP group is known by the name
that its coordinator was given, and it alone initialises the kernels of the experts. -/
namespace B70DualTP.Coordinator
open Library Torch Communicator
variable {M : Type} (isMoeLayer : M → Bool) (modules : List M)

/-- The groups that prepare_communication_buffer_for_model goes through. -/
def preparedSlots : List Slot := [.of .tp, .of .pcp, .of .pp, .of .dp, .of .ep, .eplb]

/-- The modules whose kernels one group initialises. A StatelessGroupCoordinator has its own
communicator. -/
def AnyCoordinator.prepare (stateless : StatelessGroup → List M) : AnyCoordinator → List M
  | .group g _ => g.prepareCommunicationBufferForModel isMoeLayer modules
  | .stateless g => stateless g

/-- The modules whose kernels are initialised, one call after the other. -/
def prepareCommunicationBufferForModel (stateless : StatelessGroup → List M) (s : ModuleState) : List M :=
  preparedSlots.flatMap fun slot =>
    (s.slot slot).elim [] fun group => group.coordinator.prepare isMoeLayer modules stateless

/-- The object of a slot has the slot's name, and so has its communicator, which a group of one
rank does without. -/
structure Slot.Named (slot : Slot) (g : GroupCoordinator) : Prop where
  uniqueName : ∃ count, g.uniqueName = numbered slot.groupName count
  communicator : ∀ comm ∈ g.deviceCommunicator, comm.uniqueName = g.uniqueName
  isSome : g.deviceCommunicator.isSome = decide (1 < g.worldSize)

theorem Slot.Named.isEpCommunicator {slot : Slot} {g : GroupCoordinator} (h : slot.Named g) :
    ∀ comm ∈ g.deviceCommunicator, comm.isEpCommunicator = decide (slot = .of .ep) := by
  intro comm hcomm
  obtain ⟨count, hcount⟩ := h.uniqueName
  have hbase : ':' ∉ slot.groupName.toList := by
    rcases slot with (_ | _ | _ | _ | _ | _) | _ <;> decide
  rw [DeviceCommunicatorBase.isEpCommunicator, h.communicator comm hcomm, hcount, takeWhile_numbered hbase]
  rcases slot with (_ | _ | _ | _ | _ | _) | _ <;> decide

theorem Slot.Named.prepare {slot : Slot} {g : GroupCoordinator} (h : slot.Named g) :
    g.prepareCommunicationBufferForModel isMoeLayer modules =
      if slot = .of .ep ∧ 1 < g.worldSize then modules.filter isMoeLayer else [] := by
  have hsome := h.isSome
  rw [GroupCoordinator.prepareCommunicationBufferForModel]
  cases hcomm : g.deviceCommunicator with
  | none =>
    rw [hcomm] at hsome
    exact (if_neg fun hep => of_decide_eq_false hsome.symm hep.2).symm
  | some comm =>
    rw [hcomm] at hsome
    have hlarge : 1 < g.worldSize := of_decide_eq_true hsome.symm
    simp only [DeviceCommunicatorBase.prepareCommunicationBufferForModel, h.isEpCommunicator comm hcomm,
      decide_eq_true_eq, hlarge, and_true]

/-- Every slot is filled with an object of its name, or empty. -/
def ModuleState.SlotsNamed (s : ModuleState) : Prop :=
  ∀ slot ref, s.slot slot = some ref → ∀ g replaced, ref.coordinator = .group g replaced → slot.Named g

private theorem slotsNamed_of_sameSlots {s t : ModuleState} (hs : s.SlotsNamed) (h : SameSlots s t) : t.SlotsNamed :=
  fun slot ref hslot => hs slot ref ((h slot).symm.trans hslot)

private theorem setSlot_named {s : ModuleState} (hs : s.SlotsNamed) {slot : Slot} {value : Option CoordinatorRef}
    (hvalue : ∀ ref ∈ value, ∀ g replaced, ref.coordinator = .group g replaced → slot.Named g) :
    (s.setSlot slot value).SlotsNamed := by
  intro slot' ref hslot
  rw [slot_setSlot] at hslot
  split at hslot
  · rename_i heq
    exact heq ▸ hvalue ref hslot
  · exact hs slot' ref hslot

private theorem init_named {s : ModuleState} {c : Bool} {args : InitArgs} {slot : Slot}
    (hname : args.groupName = some slot.groupName) (huse : args.useDeviceCommunicator = true)
    {ref : CoordinatorRef} (h : (GroupCoordinator.init c args s).1 = .ok ref) :
    ∀ g replaced, ref.coordinator = .group g replaced → slot.Named g := by
  intro g replaced hg
  obtain ⟨g', group, k, row, hg', hbuilt⟩ := init_built (Prod.ext h rfl)
  rw [hg] at hg'
  cases hg'
  refine ⟨⟨s.count slot.groupName, ?_⟩, fun comm hcomm => (hbuilt.communicator comm hcomm).1, ?_⟩
  · rw [hbuilt.uniqueName, hname, ModuleState.uniqueName]
    rcases slot with (_ | _ | _ | _ | _ | _) | _ <;> rfl
  · have hflag := congrArg Option.isSome hbuilt.hoststaged
    rw [Option.isSome_map, huse] at hflag
    rw [hflag, GroupCoordinator.worldSize, hbuilt.ranks]
    by_cases hrow : 1 < row.length
    · simp [hrow]
    · simp [hrow]

private theorem newStatelessGroup_made (env : Environment) (groupRanks : List (List Nat)) (localRank : Int)
    (backend : Option String) (rank : Int) (slot : Slot) : Action.Triple ModuleState.SlotsNamed (fun _ => True)
      (newStatelessGroup env groupRanks localRank backend rank)
        fun ref _ => ∀ g replaced, ref.coordinator = .group g replaced → slot.Named g := by
  intro s hs _
  have hmade := newStatelessGroup_triple env groupRanks localRank backend rank (I := fun _ => True)
    (fun _ _ _ => trivial) (fun _ _ _ _ => trivial) s trivial trivial
  refine ⟨slotsNamed_of_sameSlots hs (newStatelessGroup_slot _ _ _ _ s), fun ref href g replaced hg => ?_⟩
  obtain ⟨ranks, -, -, hstateless⟩ := hmade.2 ref href
  rw [hg] at hstateless
  cases hstateless

def namedInvariant : SlotInvariant where
  Holds := ModuleState.SlotsNamed
  Made slot ref := ∀ g replaced, ref.coordinator = .group g replaced → slot.Named g
  construct c args _ hname huse s hs _ :=
    ⟨slotsNamed_of_sameSlots hs fun slot => init_slot c args s slot, fun _ href => init_named hname huse href⟩
  stateless := newStatelessGroup_made
  assign _ hs hmade := setSlot_named hs fun _ href => Option.some.inj href ▸ hmade

section Life

/-- A group that _replace_active_groups is handed has the name of its place, unless it is stateless. -/
def LifeCall.HandsNamed : LifeCall → Prop
  | .replaceActiveGroups _ dp ep eplb _ => ∀ slot group, (slot, group) ∈ [(Slot.of .dp, dp), (.of .ep, ep), (.eplb, eplb)] →
    ∀ g replaced, group = some (.group g replaced) → slot.Named g
  | _ => True

def LifeState.SlotsNamed (u : LifeState) : Prop := u.toModuleState.SlotsNamed

private theorem destroyGroup_named (env : LifeEnvironment) (group : Option CoordinatorRef) :
    Action.Keeps LifeState.SlotsNamed (destroyGroup env group) := destroyGroup_keeps env (fun _ _ _ _ _ ht => ht) group

private theorem clearSlot_named (slot : Slot) :
    Action.Keeps LifeState.SlotsNamed (Setup.toLife (Action.modify (·.setSlot slot none))) :=
  fun t (ht : t.toModuleState.SlotsNamed) => setSlot_named ht fun ref href => by cases href

private theorem buildGroup_named (group : Option AnyCoordinator) :
    Action.Triple LifeState.SlotsNamed (fun _ => True) (Setup.toLife (buildGroup group))
      fun built _ => built.map (·.coordinator) = group := by
  refine fun u hu => buildGroup_triple (fun s _ _ hs => slotsNamed_of_sameSlots hs fun slot => ?_) group u.toModuleState hu
  rcases slot with (_ | _ | _ | _ | _ | _) | _ <;> rfl

private theorem replaceActiveGroups_named (env : LifeEnvironment) (world : Option CoordinatorRef)
    {dp ep eplb : Option CoordinatorRef} (nodeCount : Option Nat)
    (h : ∀ slot group, (slot, group) ∈ [(Slot.of .dp, dp), (.of .ep, ep), (.eplb, eplb)] →
      ∀ ref ∈ group, ∀ g replaced, ref.coordinator = .group g replaced → slot.Named g) :
    Action.Keeps LifeState.SlotsNamed (replaceActiveGroups env world dp ep eplb nodeCount) := by
  simp only [List.mem_cons, List.not_mem_nil, or_false] at h
  refine Action.keeps_bind Action.keeps_get fun _ => ?_
  refine Action.keeps_bind (destroyGroups_keeps env (destroyGroup_named env) _) fun _ t ht => ?_
  have hworld : ModuleState.SlotsNamed { t.toModuleState with world, nodeCount } :=
    slotsNamed_of_sameSlots ht fun slot => by rcases slot with (_ | _ | _ | _ | _ | _) | _ <;> rfl
  have hdp := setSlot_named hworld (h (.of .dp) dp (.inl rfl))
  have hep := setSlot_named hdp (h (.of .ep) ep (.inr (.inl rfl)))
  exact setSlot_named hep (h .eplb eplb (.inr (.inr rfl)))

theorem LifeStep.run_slotsNamed {step : LifeStep} (h : step.call.HandsNamed) :
    Action.Keeps LifeState.SlotsNamed step.run := by
  obtain ⟨env, call⟩ := step
  cases call with
  | initDistributedEnvironment args =>
    exact fun u hu => slotsNamed_of_sameSlots hu (initDistributedEnvironment_sameSlots env.toEnvironment args)
  | initializeModelParallel args =>
    exact fun u hu => namedInvariant.initializeModelParallel_keeps env.toEnvironment args u.toModuleState hu
  | ensureModelParallelInitialized args =>
    exact fun u hu => namedInvariant.ensureModelParallelInitialized_keeps env.toEnvironment args u.toModuleState hu
  | replaceActiveGroups world dp ep eplb nodeCount =>
    refine Action.keeps_bind (buildGroup_named world).keeps fun world => ?_
    refine Action.keeps_bind_of (buildGroup_named dp) fun dp' hdp => ?_
    refine Action.keeps_bind_of (buildGroup_named ep) fun ep' hep => ?_
    refine Action.keeps_bind_of (buildGroup_named eplb) fun eplb' heplb => ?_
    refine replaceActiveGroups_named env world nodeCount fun slot group hmem ref href g replaced hg => ?_
    refine h slot (group.map (·.coordinator)) ?_ g replaced (by rw [href, Option.map_some, hg])
    subst hdp hep heplb
    simp only [List.mem_cons, Prod.mk.injEq, List.not_mem_nil, or_false] at hmem ⊢
    exact hmem.imp (And.imp id (congrArg _)) (Or.imp (And.imp id (congrArg _)) (And.imp id (congrArg _)))
  | destroyModelParallel => exact destroySlots_keeps env (destroyGroup_named env) clearSlot_named modelParallelSlots
  | destroyDistributedEnvironment =>
    refine Action.keeps_bind Action.keeps_get fun _ => Action.keeps_bind (destroyGroup_named env _) fun _ => ?_
    have hkept : ∀ f : ModuleState → ModuleState, (∀ t slot, (f t).slot slot = t.slot slot) →
        Action.Keeps LifeState.SlotsNamed (Setup.toLife (Action.modify f)) :=
      fun f hf t (ht : t.toModuleState.SlotsNamed) => slotsNamed_of_sameSlots ht (hf _)
    refine Action.keeps_bind (hkept _ fun t slot => ?_) fun _ => destroyDefaultGroup_keeps env fun t ht => ?_
    · rcases slot with (_ | _ | _ | _ | _ | _) | _ <;> rfl
    · refine hkept (fun t => { t with dist := none }) (fun t slot => ?_) t ht
      rcases slot with (_ | _ | _ | _ | _ | _) | _ <;> rfl

theorem runCalls_slotsNamed {steps : List LifeStep} (h : ∀ step ∈ steps, step.call.HandsNamed) {u : LifeState}
    (hu : u.SlotsNamed) : (runCalls steps u).SlotsNamed := by
  induction steps generalizing u with
  | nil => exact hu
  | cons step steps ih =>
    rw [List.forall_mem_cons] at h
    exact ih h.2 (LifeStep.run_slotsNamed h.1 u hu)

end Life

theorem ModuleState.SlotsNamed.prepare {s : ModuleState} (hs : s.SlotsNamed) {slot : Slot} {ref : CoordinatorRef}
    (hslot : s.slot slot = some ref) (stateless : StatelessGroup → List M) :
    ref.coordinator.prepare isMoeLayer modules stateless = match ref.coordinator with
      | .group g _ => if slot = .of .ep ∧ 1 < g.worldSize then modules.filter isMoeLayer else []
      | .stateless g => stateless g := by
  cases hg : ref.coordinator with
  | group g replaced => exact (hs slot ref hslot g replaced hg).prepare isMoeLayer modules
  | stateless g => rfl

/-- In every reachable state without stateless groups: the kernels of the experts are initialised
once, in a process that holds an EP group of two or more ranks, and nowhere else. -/
theorem expert_kernels_once (hoststagedTp : Option String) (dist : Option DefaultGroup) {steps : List LifeStep}
    (h : ∀ step ∈ steps, step.call.HandsNamed) {s : LifeState} (hs : s = runCalls steps (.fresh hoststagedTp dist))
    (hgroups : ∀ slot ∈ preparedSlots, ∀ ref ∈ s.slot slot, ∃ g replaced, ref.coordinator = .group g replaced)
    (stateless : StatelessGroup → List M) :
    prepareCommunicationBufferForModel isMoeLayer modules stateless s.toModuleState =
      if ∃ ref ∈ s.ep, 1 < ref.coordinator.worldSize then modules.filter isMoeLayer else [] := by
  have hnamed : s.SlotsNamed := by
    rw [hs]
    refine runCalls_slotsNamed h fun slot ref hslot => ?_
    rcases slot with (_ | _ | _ | _ | _ | _) | _ <;> cases hslot
  have hslot : ∀ slot ∈ preparedSlots,
      ((s.slot slot).elim [] fun group => group.coordinator.prepare isMoeLayer modules stateless) =
        if slot = .of .ep ∧ ∃ ref ∈ s.ep, 1 < ref.coordinator.worldSize then modules.filter isMoeLayer else [] := by
    intro slot hmem
    cases hheld : s.slot slot with
    | none =>
      refine (if_neg fun hep => ?_).symm
      obtain ⟨rfl, ref, href, -⟩ := hep
      cases hheld.symm.trans href
    | some ref =>
      obtain ⟨g, replaced, hg⟩ := hgroups slot hmem ref hheld
      rw [Option.elim_some, hnamed.prepare isMoeLayer modules hheld stateless, hg]
      refine if_congr (and_congr_right fun hep => ?_) rfl rfl
      have hsome : s.ep = some ref := (congrArg s.slot hep).symm.trans hheld
      simp [hsome, hg, AnyCoordinator.worldSize]
  have hslots : ∀ kernels : List M, preparedSlots.flatMap
      (fun slot => if slot = .of .ep ∧ ∃ ref ∈ s.ep, 1 < ref.coordinator.worldSize then kernels else []) =
        if ∃ ref ∈ s.ep, 1 < ref.coordinator.worldSize then kernels else [] := by
    intro kernels
    simp [preparedSlots]
  rw [prepareCommunicationBufferForModel, List.flatMap_congr hslot, hslots]

/-- Two experts among four layers, on the first rank of two replicas. -/
theorem replicas_expert_kernels : prepareCommunicationBufferForModel (fun layer : Nat => layer % 2 = 1) [0, 1, 2, 3]
    (fun _ => []) (replicasFinal 0).toModuleState = [1, 3] := by
  have hsteps : ∀ step ∈ replicasSteps 0, step.call.HandsNamed := by
    simp [replicasSteps, LifeCall.HandsNamed]
  have hrun := (runCalls_of_runAll (replicas_run.returns 0)).symm
  have hgroups : ∀ slot ∈ preparedSlots, ∀ ref ∈ (replicasFinal 0).slot slot,
      ∃ g replaced, ref.coordinator = .group g replaced := by
    intro slot _ ref hslot
    obtain ⟨_, _, g, replaced, _, _, hg, -⟩ := (replicas_run.placed 0).selected slot ref hslot
    exact ⟨g, replaced, hg⟩
  have hep : ∃ ref ∈ (replicasFinal 0).ep, 1 < ref.coordinator.worldSize := by decide +kernel
  rw [expert_kernels_once (fun layer : Nat => layer % 2 = 1) [0, 1, 2, 3] none none hsteps hrun hgroups fun _ => [],
    if_pos hep]
  rfl

end B70DualTP.Coordinator
