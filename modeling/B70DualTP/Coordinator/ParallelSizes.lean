import B70DualTP.Coordinator.Lifecycle

/-! The sizes of the groups that ensure_model_parallel_initialized leaves behind, whether it
builds the groups or finds them built. -/
namespace B70DualTP.Coordinator
open Library Torch Communicator

/-- The size that the ranks of a group are split by. -/
def GroupName.sizeIn (sizes : ModelParallelSizes) : GroupName → Option Nat
  | .tp => some sizes.tensor
  | .dcp => sizes.decodeContext
  | .pcp => some sizes.prefillContext
  | .pp => some sizes.pipeline
  | .dp => some sizes.data
  | .ep => some (sizes.data * sizes.prefillContext * sizes.tensor)

theorem unbindRows_length {size : Nat} {ranks : NDArray Nat} {groups : List (List Nat)}
    (h : unbindRows size ranks = .ok groups) : ∀ row ∈ groups, row.length = size := by
  obtain ⟨rows, hrows, hgroups⟩ := bind_eq_ok h
  cases hgroups
  have hshape : rows.shape = [ranks.numel / size, size] := by
    rw [reshapeInfer, List.prod_singleton] at hrows
    split at hrows
    · rw [NDArray.reshape?, NDArray.ofData?] at hrows
      split at hrows
      · rename_i rows' hdata
        split at hdata
        · cases hdata
          cases hrows
          rfl
        · cases hdata
      · cases hrows
    · cases hrows
  intro row hrow
  obtain ⟨k, hk, rfl⟩ := List.mem_map.mp hrow
  apply length_block
  rw [hshape, List.headD_cons, List.mem_range] at hk
  rw [rows.wf, hshape, List.prod_cons, List.prod_singleton]
  exact Nat.mul_le_mul_right size hk

private theorem dcpGroupRanks_length {sizes : ModelParallelSizes} {ranks : NDArray Nat} {groups : List (List Nat)}
    (h : dcpGroupRanks sizes ranks = .ok groups) :
    ∃ size ∈ sizes.decodeContext, ∀ row ∈ groups, row.length = size := by
  rw [dcpGroupRanks] at h
  split at h
  · rename_i size hsize
    exact ⟨size, hsize, unbindRows_length h⟩
  · cases h

private theorem transposed_length {size i j : Nat} {ranks : NDArray Nat} {groups : List (List Nat)}
    (h : (do unbindRows size (← transpose i j ranks)) = .ok groups) : ∀ row ∈ groups, row.length = size := by
  obtain ⟨swapped, -, hrows⟩ := bind_eq_ok h
  exact unbindRows_length hrows

theorem GroupName.groupRanks_length {name : GroupName} {sizes : ModelParallelSizes} {ranks : NDArray Nat}
    {groups : List (List Nat)} (h : name.groupRanks sizes ranks = .ok groups) :
    ∃ size ∈ name.sizeIn sizes, ∀ row ∈ groups, row.length = size := by
  cases name with
  | tp => exact ⟨_, rfl, unbindRows_length h⟩
  | dcp => exact dcpGroupRanks_length h
  | pcp => exact ⟨_, rfl, transposed_length h⟩
  | pp => exact ⟨_, rfl, transposed_length h⟩
  | dp => exact ⟨_, rfl, transposed_length h⟩
  | ep => exact ⟨_, rfl, transposed_length h⟩

theorem GroupName.localGroupRanks_length {name : GroupName} {sizes : ModelParallelSizes} {ranks : NDArray Nat}
    {groups : List (List Nat)} (h : name.localGroupRanks sizes ranks = .ok groups) :
    ∃ size ∈ name.sizeIn sizes, ∀ row ∈ groups, row.length = size := by
  cases name with
  | tp => exact ⟨_, rfl, unbindRows_length h⟩
  | dcp => exact dcpGroupRanks_length h
  | pcp => exact ⟨_, rfl, transposed_length h⟩
  | pp => exact ⟨_, rfl, transposed_length h⟩
  | dp => cases h
  | ep => cases h

theorem ModelParallel.replicaRanks_length {mp : ModelParallel} {name : GroupName} {groups : List (List Nat)}
    (h : mp.replicaRanks name = .ok groups) : ∃ size ∈ name.sizeIn mp.sizes, ∀ row ∈ groups, row.length = size := by
  obtain ⟨ranks, hranks, hgroups⟩ := bind_eq_ok h
  split at hgroups
  · exact GroupName.localGroupRanks_length hgroups
  · cases hgroups
    exact GroupName.groupRanks_length hranks

def ModuleState.groupSize (s : ModuleState) (name : GroupName) : Option Nat :=
  (s.slot (.of name)).map (·.coordinator.worldSize)

section Built
variable {env : Environment} {s s' : ModuleState}

theorem init_slot (useCustomOpCollectives : Bool) (args : InitArgs) (s : ModuleState) (slot : Slot) :
    (GroupCoordinator.init useCustomOpCollectives args s).2.slot slot = s.slot slot := by
  rw [(GroupCoordinator.init_constructs useCustomOpCollectives args s).frame]
  rcases slot with (_ | _ | _ | _ | _ | _) | _ <;> rfl

private theorem init_worldSize {useCustomOpCollectives : Bool} {args : InitArgs} {ref : CoordinatorRef} {size : Nat}
    (h : (GroupCoordinator.init useCustomOpCollectives args s).1 = .ok ref)
    (hsize : ∀ row ∈ args.groupRanks, row.length = size) : ref.coordinator.worldSize = size := by
  obtain ⟨-, g, group, hg, -, -, hselect, -⟩ :=
    (GroupCoordinator.init_constructs useCustomOpCollectives args s).ok ref h
  rw [hg]
  exact hsize _ (selectGroup_mem hselect)

theorem newStatelessGroup_slot (groupRanks : List (List Nat)) (localRank : Int) (backend : Option String)
    (rank : Int) (s : ModuleState) (slot : Slot) :
    (newStatelessGroup env groupRanks localRank backend rank s).2.slot slot = s.slot slot := by
  have hkept : ∀ (t : ModuleState) requests nextId constructed,
      ({ t with requests, nextId, constructed } : ModuleState).slot slot = t.slot slot := by
    intro t requests nextId constructed
    rcases slot with (_ | _ | _ | _ | _ | _) | _ <;> rfl
  exact (newStatelessGroup_triple env groupRanks localRank _ rank (I := fun t => t.slot slot = s.slot slot)
    (fun t _ ht => (hkept t _ _ _).trans ht) (fun t _ _ ht => (hkept t _ _ _).trans ht)).keeps s rfl

theorem getWorldGroup_returns {world : CoordinatorRef} (h : getWorldGroup s = (.ok world, s')) : s' = s := by
  rw [show getWorldGroup s = _ from Holder.getter_apply .world s] at h
  cases hheld : s.held .world with
  | none =>
    rw [hheld] at h
    cases h
  | some ref =>
    rw [hheld] at h
    cases h
    rfl

theorem assertUnset_returns {slot : Slot} {u : Unit} (h : slot.assertUnset s = (.ok u, s')) : s' = s := by
  rw [Slot.assertUnset, Action.bind_ok (Action.get_apply s)] at h
  exact (Action.lift_returns h).2

private theorem groupSize_setSlot (s : ModuleState) (slot : Slot) (group : CoordinatorRef) (name : GroupName) :
    (s.setSlot slot (some group)).groupSize name =
      if slot = .of name then some group.coordinator.worldSize else s.groupSize name := by
  rcases slot with (_ | _ | _ | _ | _ | _) | _ <;> rcases name with _ | _ | _ | _ | _ | _ <;> rfl

private theorem groupSize_of_slots (h : ∀ slot, s'.slot slot = s.slot slot) (name : GroupName) :
    s'.groupSize name = s.groupSize name := congrArg (Option.map _) (h (.of name))

variable {mp : ModelParallel}

private theorem initReplicaGroup_returns {name : GroupName} {u : Unit}
    (h : mp.initReplicaGroup env name s = (.ok u, s')) :
    (∃ size ∈ name.sizeIn mp.sizes, s'.groupSize name = some size) ∧
      ∀ name' ≠ name, s'.groupSize name' = s.groupSize name' := by
  obtain ⟨_, s₁, hunset, h₁⟩ := Action.bind_returns h
  cases assertUnset_returns hunset
  obtain ⟨groupRanks, s₂, hlift, h₂⟩ := Action.bind_returns h₁
  obtain ⟨hranks, rfl⟩ := Action.lift_returns hlift
  obtain ⟨world, s₃, hworld, h₃⟩ := Action.bind_returns h₂
  cases getWorldGroup_returns hworld
  obtain ⟨group, s₄, hinit, hassign⟩ := Action.bind_returns h₃
  cases hassign
  obtain ⟨size, hsize, hrows⟩ := ModelParallel.replicaRanks_length hranks
  have hgroup : group.coordinator.worldSize = size := init_worldSize (congrArg Prod.fst hinit) hrows
  constructor
  · refine ⟨size, hsize, ?_⟩
    rw [groupSize_setSlot, if_pos rfl, hgroup]
  · intro name' hne
    rw [groupSize_setSlot, if_neg fun heq => hne (Slot.of.inj heq).symm]
    apply groupSize_of_slots
    intro slot
    rw [← init_slot env.useCustomOpCollectives _ s₂ slot]
    exact congrArg (fun r : Py CoordinatorRef × ModuleState => r.2.slot slot) hinit.symm

private theorem initAcross_returns {slot : Slot} {groupRanks : List (List Nat)} {u : Unit}
    (h : mp.initAcross env slot groupRanks s = (.ok u, s')) {name : GroupName} (hne : slot ≠ .of name) :
    s'.groupSize name = s.groupSize name := by
  obtain ⟨world, s₁, hworld, h₁⟩ := Action.bind_returns h
  cases getWorldGroup_returns hworld
  obtain ⟨group, s₂, hacross, hassign⟩ := Action.bind_returns h₁
  cases hassign
  rw [groupSize_setSlot, if_neg hne]
  apply groupSize_of_slots
  intro slot'
  have hslot : (mp.acrossGroup env slot groupRanks world.coordinator s).2.slot slot' = s.slot slot' := by
    rw [ModelParallel.acrossGroup]
    split
    · exact newStatelessGroup_slot _ _ _ _ s slot'
    · exact init_slot _ _ s slot'
  rwa [hacross] at hslot

private theorem initDataParallel_returns {u : Unit} (h : mp.initDataParallel env s = (.ok u, s')) {name : GroupName}
    (hne : name ≠ .dp) : s'.groupSize name = s.groupSize name := by
  obtain ⟨_, s₁, hunset, h₁⟩ := Action.bind_returns h
  cases assertUnset_returns hunset
  obtain ⟨groupRanks, s₂, hlift, hacross⟩ := Action.bind_returns h₁
  obtain ⟨-, rfl⟩ := Action.lift_returns hlift
  exact initAcross_returns hacross fun heq => hne (Slot.of.inj heq).symm

private theorem initExpertParallel_returns {u : Unit} (h : mp.initExpertParallel env s = (.ok u, s'))
    {name : GroupName} (hne : name ≠ .ep) : s'.groupSize name = s.groupSize name := by
  obtain ⟨_, s₁, hunset, h₁⟩ := Action.bind_returns h
  cases assertUnset_returns hunset
  split at h₁
  · obtain ⟨groupRanks, s₂, hlift, h₂⟩ := Action.bind_returns h₁
    obtain ⟨-, rfl⟩ := Action.lift_returns hlift
    obtain ⟨_, s₃, hep, h₃⟩ := Action.bind_returns h₂
    have hfirst : s₃.groupSize name = s₂.groupSize name :=
      initAcross_returns hep fun heq => hne (Slot.of.inj heq).symm
    obtain ⟨_, s₄, hunset', h₄⟩ := Action.bind_returns h₃
    cases assertUnset_returns hunset'
    split at h₄
    · exact (initAcross_returns h₄ fun heq => by cases heq).trans hfirst
    · cases h₄
      exact hfirst
  · cases h₁
    rfl

private theorem modelParallel_returns {args : ModelParallelArgs} (h : modelParallel env args s = (.ok mp, s')) :
    mp.sizes.tensor = args.tensor ∧ mp.sizes.pipeline = args.pipeline ∧
      mp.sizes.prefillContext = args.prefillContext ∧ mp.sizes.decodeContext = args.decodeContext := by
  rw [modelParallel, Action.bind_ok (Action.get_apply s)] at h
  obtain ⟨_, s₁, -, h₁⟩ := Action.bind_returns h
  obtain ⟨config, s₂, -, h₂⟩ := Action.bind_returns h₁
  obtain ⟨_, s₃, -, h₃⟩ := Action.bind_returns h₂
  obtain ⟨ranks, s₄, -, hpure⟩ := Action.bind_returns h₃
  cases hpure
  exact ⟨rfl, rfl, rfl, rfl⟩

end Built

def ModuleState.DecodeContextAs (s : ModuleState) (args : ModelParallelArgs) : Prop :=
  ∃ size ∈ args.decodeContext, s.groupSize .dcp = some size

/-- The TP, PP, PCP and DCP groups have the sizes asked for. -/
structure ModuleState.SizedAs (s : ModuleState) (args : ModelParallelArgs) : Prop where
  tensor : s.groupSize .tp = some args.tensor
  pipeline : s.groupSize .pp = some args.pipeline
  prefillContext : s.groupSize .pcp = some args.prefillContext
  decodeContext : s.DecodeContextAs args

section Ensured
variable {env : Environment} {s s' : ModuleState} {args : ModelParallelArgs}

theorem initializeModelParallel_sized {u : Unit} (h : initializeModelParallel env args s = (.ok u, s')) :
    s'.SizedAs args := by
  obtain ⟨mp, s₀, hmp, h₁⟩ := Action.bind_returns h
  obtain ⟨htensor, hpipeline, hprefill, hdecode⟩ := modelParallel_returns hmp
  obtain ⟨_, s₁, htp, h₂⟩ := Action.bind_returns h₁
  obtain ⟨_, s₂, hdcp, h₃⟩ := Action.bind_returns h₂
  obtain ⟨_, s₃, hpcp, h₄⟩ := Action.bind_returns h₃
  obtain ⟨_, s₄, hpp, h₅⟩ := Action.bind_returns h₄
  obtain ⟨_, s₅, hdp, hep⟩ := Action.bind_returns h₅
  obtain ⟨⟨tensor, hsize₁, htpSize⟩, -⟩ := initReplicaGroup_returns htp
  obtain ⟨⟨decode, hsize₂, hdcpSize⟩, hkeep₂⟩ := initReplicaGroup_returns hdcp
  obtain ⟨⟨prefill, hsize₃, hpcpSize⟩, hkeep₃⟩ := initReplicaGroup_returns hpcp
  obtain ⟨⟨pipeline, hsize₄, hppSize⟩, hkeep₄⟩ := initReplicaGroup_returns hpp
  cases hsize₁
  cases hsize₃
  cases hsize₄
  -- what is built after PP replaces none of the four
  have hlast : ∀ name : GroupName, name ≠ .dp → name ≠ .ep → s'.groupSize name = s₄.groupSize name :=
    fun name hne hne' => (initExpertParallel_returns hep hne').trans (initDataParallel_returns hdp hne)
  constructor
  · rw [hlast .tp nofun nofun, hkeep₄ .tp nofun, hkeep₃ .tp nofun, hkeep₂ .tp nofun, htpSize, htensor]
  · rw [hlast .pp nofun nofun, hppSize, hpipeline]
  · rw [hlast .pcp nofun nofun, hkeep₄ .pcp nofun, hpcpSize, hprefill]
  · refine ⟨decode, ?_, ?_⟩
    · rw [← hdecode]
      exact hsize₂
    · rw [hlast .dcp nofun nofun, hkeep₄ .dcp nofun, hkeep₃ .dcp nofun, hdcpSize]

private theorem getGroup_returns {slot : Slot} {message : String} {ref : CoordinatorRef}
    (h : getGroup s slot message = .ok ref) : s.slot slot = some ref := by
  rw [getGroup] at h
  split at h
  · rename_i group hslot
    cases h
    exact hslot
  · cases h

theorem assert_returns {cond : Prop} [Decidable cond] {message : String} {u : Unit}
    (h : assert cond message = .ok u) : cond := by
  rw [assert] at h
  split at h
  · assumption
  · cases h

/-- The check compares three of the four sizes. -/
theorem checkSizes_returns {u : Unit} (h : checkSizes args s = .ok u) : s.groupSize .tp = some args.tensor ∧
    s.groupSize .pp = some args.pipeline ∧ s.groupSize .pcp = some args.prefillContext := by
  obtain ⟨tp, htp, h₁⟩ := bind_eq_ok h
  obtain ⟨_, htensor, h₂⟩ := bind_eq_ok h₁
  obtain ⟨pp, hpp, h₃⟩ := bind_eq_ok h₂
  obtain ⟨_, hpipeline, h₄⟩ := bind_eq_ok h₃
  obtain ⟨pcp, hpcp, hprefill⟩ := bind_eq_ok h₄
  have hsize : ∀ (name : GroupName) (ref : CoordinatorRef), s.slot (.of name) = some ref →
      s.groupSize name = some ref.coordinator.worldSize := by
    intro name ref hslot
    rw [ModuleState.groupSize, hslot]
    rfl
  refine ⟨?_, ?_, ?_⟩
  · rw [hsize .tp tp (getGroup_returns htp), assert_returns htensor]
  · rw [hsize .pp pp (getGroup_returns hpp), assert_returns hpipeline]
  · rw [hsize .pcp pcp (getGroup_returns hpcp), assert_returns hprefill]

/-- Groups that are found built must have the decode-context size already. -/
theorem ensureModelParallelInitialized_sized_iff {u : Unit}
    (h : ensureModelParallelInitialized env args s = (.ok u, s')) :
    s'.SizedAs args ↔ (modelParallelIsInitialized s = true → s.DecodeContextAs args) := by
  obtain ⟨world, s₁, hworld, h₁⟩ := Action.bind_returns h
  cases getWorldGroup_returns hworld
  obtain ⟨backend, s₂, hlift, h₂⟩ := Action.bind_returns h₁
  obtain ⟨-, rfl⟩ := Action.lift_returns hlift
  rw [Action.bind_ok (Action.get_apply s₂)] at h₂
  split at h₂
  · rename_i hinit
    rw [Action.bind_ok (Action.get_apply s₂)] at h₂
    obtain ⟨hcheck, rfl⟩ := Action.lift_returns h₂
    obtain ⟨htensor, hpipeline, hprefill⟩ := checkSizes_returns hcheck
    exact ⟨fun hsized _ => hsized.decodeContext, fun hdecode => ⟨htensor, hpipeline, hprefill, hdecode hinit⟩⟩
  · rename_i hinit
    have hsized := initializeModelParallel_sized h₂
    exact ⟨fun _ h => absurd h hinit, fun _ => ⟨hsized.1, hsized.2, hsized.3, hsized.4⟩⟩

end Ensured

/-- What holds before and after each call of ensure_model_parallel_initialized in a run that
returns. -/
def EachEnsured (P : ModelParallelArgs → LifeState → LifeState → Prop) : List LifeStep → LifeState → Prop
  | [], _ => True
  | step :: steps, s =>
    (∀ args, step.call = .ensureModelParallelInitialized args → (step.run s).1 = .ok () → P args s (step.run s).2) ∧
      EachEnsured P steps (step.run s).2

/-- In a run each call that returns leaves the sizes it was asked for exactly when each that
finds the groups built finds the DCP group with its decode-context size. -/
theorem ensured_sizes_iff (hoststagedTp : Option String) (dist : Option DefaultGroup) (steps : List LifeStep) :
    EachEnsured (fun args _ s' => s'.SizedAs args) steps (.fresh hoststagedTp dist) ↔
      EachEnsured (fun args s _ => modelParallelIsInitialized s.toModuleState = true → s.DecodeContextAs args) steps
        (.fresh hoststagedTp dist) := by
  generalize LifeState.fresh hoststagedTp dist = s
  induction steps generalizing s with
  | nil => exact Iff.rfl
  | cons step steps ih =>
    apply and_congr ?_ (ih _)
    apply forall_congr'
    intro args
    apply forall₂_congr
    intro hcall hreturns
    obtain ⟨env, call⟩ := step
    cases hcall
    have hrun : ensureModelParallelInitialized env.toEnvironment args s.toModuleState =
        (.ok (), ((LifeStep.mk env (.ensureModelParallelInitialized args)).run s).2.toModuleState) :=
      Prod.ext hreturns rfl
    exact ensureModelParallelInitialized_sized_iff hrun

/-- A second call that asks for DCP groups of two ranks. -/
def decodeContextRun : List LifeStep :=
  [⟨replicaEnvironment 1, .initDistributedEnvironment replicaArgs⟩,
    ⟨replicaEnvironment 1, .ensureModelParallelInitialized ⟨2, 1, 1, some 1, none⟩⟩,
    ⟨replicaEnvironment 1, .ensureModelParallelInitialized ⟨2, 1, 1, some 2, none⟩⟩]

/-- The second call returns and leaves the DCP group with one rank. -/
theorem decode_context_unchecked :
    ¬ EachEnsured (fun args _ s' => s'.SizedAs args) decodeContextRun (.fresh none none) := by
  rintro ⟨-, -, hlast, -⟩
  have hsized := hlast ⟨2, 1, 1, some 2, none⟩ rfl (by decide +kernel)
  obtain ⟨size, hasked, hsize⟩ := hsized.decodeContext
  cases hasked
  revert hsize
  decide +kernel

end B70DualTP.Coordinator
