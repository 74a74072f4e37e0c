import B70DualTP.Coordinator.Lifecycle
import B70DualTP.Coordinator.SetupInvariant
import B70DualTP.Coordinator.UniqueNames

/-! The registry of names in the life of a process: what a getter returns is what its own
unique name stands for, so the registered ops and the direct calls are the same. -/
namespace B70DualTP.Coordinator
open Library Torch Communicator
variable {V O : Type} (num : Numerics V)

/-- Every registered name shows a count that its base has passed, every finished coordinator
stands under its own name and identity, and the globals hold finished coordinators. -/
structure ModuleState.Registered (s : ModuleState) : Prop where
  shown : ∀ name id, s.groups.lookup name = some id → ∃ base n, name = numbered base n ∧ n < s.count base
  below : ∀ ref ∈ s.constructed, ref.id < s.nextId
  found : ∀ ref ∈ s.constructed, s.constructed.find? (·.id = ref.id) = some ref
  named : ∀ ref ∈ s.constructed, ∀ g replaced, ref.coordinator = .group g replaced →
    s.groups.lookup g.uniqueName = some ref.id
  held : ∀ holder, ∀ ref ∈ s.held holder, ref ∈ s.constructed

namespace ModuleState
variable {s : ModuleState}

/-- A new object at the end of the list is found, and so are the others. -/
private theorem found_append {constructed : List CoordinatorRef} {next : Nat} {ref : CoordinatorRef}
    (hbelow : ∀ r ∈ constructed, r.id < next) (hfound : ∀ r ∈ constructed, constructed.find? (·.id = r.id) = some r)
    (href : ref.id = next) :
    ∀ r ∈ constructed ++ [ref], (constructed ++ [ref]).find? (·.id = r.id) = some r := by
  intro r hr
  rw [List.find?_append]
  rcases List.mem_append.mp hr with hr | hr
  · rw [hfound r hr]
    rfl
  · rw [List.mem_singleton.mp hr]
    have hnone : constructed.find? (·.id = ref.id) = none := by
      rw [List.find?_eq_none]
      intro r' hr'
      have := hbelow r' hr'
      simp only [decide_eq_true_eq]
      omega
    rw [hnone]
    simp

/-- The name of a new object is not in use. -/
theorem Registered.lookup_uniqueName (h : s.Registered) (groupName : Option String) :
    s.groups.lookup (s.uniqueName groupName) = none := by
  cases hlookup : s.groups.lookup (s.uniqueName groupName) with
  | none => rfl
  | some id =>
    obtain ⟨base, n, hname, hn⟩ := h.shown _ _ hlookup
    obtain ⟨rfl, rfl⟩ := numbered_injective2 hname
    omega

/-- Globals that hold fewer or other finished objects. -/
theorem Registered.frame {t : ModuleState} (h : s.Registered) (hcounter : t.groupNameCounter = s.groupNameCounter)
    (hgroups : t.groups = s.groups) (hconstructed : t.constructed = s.constructed) (hnext : t.nextId = s.nextId)
    (hheld : ∀ holder, ∀ ref ∈ t.held holder, ref ∈ s.constructed) : t.Registered := by
  have hcount : t.count = s.count := by
    funext base
    rw [count, count, hcounter]
  refine ⟨?_, ?_, ?_, ?_, ?_⟩
  · rw [hgroups, hcount]
    exact h.shown
  · rw [hconstructed, hnext]
    exact h.below
  · rw [hconstructed]
    exact h.found
  · rw [hconstructed, hgroups]
    exact h.named
  · rw [hconstructed]
    exact hheld

end ModuleState

private theorem init_registered (useCustomOpCollectives : Bool) (args : InitArgs) :
    Action.Triple ModuleState.Registered (fun _ => True) (GroupCoordinator.init useCustomOpCollectives args)
      fun ref s => ref ∈ s.constructed := by
  intro s hs _
  have hr := init_registers useCustomOpCollectives args s
  have hframe := (GroupCoordinator.init_constructs useCustomOpCollectives args s).frame
  generalize hrun : GroupCoordinator.init useCustomOpCollectives args s = run at hr hframe ⊢
  obtain ⟨result, s'⟩ := run
  have hcount : s'.count =
      Function.update s.count (groupNameOf args.groupName) (s.count (groupNameOf args.groupName) + 1) := by
    rw [← count_setKey]
    funext base
    rw [ModuleState.count, ModuleState.count, hr.counter]
  have hheld : ∀ holder, s'.held holder = s.held holder := by
    intro holder
    simp only at hframe
    rw [hframe]
    rcases holder with _ | _ | (_ | _ | _ | _ | _ | _) | _ <;> rfl
  have hshown : ∀ name id, s'.groups.lookup name = some id →
      ∃ base n, name = numbered base n ∧ n < s'.count base := by
    intro name id hlookup
    rw [hr.groups, lookup_setKey] at hlookup
    rw [hcount]
    split at hlookup
    · rename_i hname
      refine ⟨_, _, hname, ?_⟩
      rw [Function.update_self]
      omega
    · obtain ⟨base, n, hname, hn⟩ := hs.shown name id hlookup
      refine ⟨base, n, hname, ?_⟩
      by_cases hb : base = groupNameOf args.groupName
      · subst hb
        rw [Function.update_self]
        omega
      · rwa [Function.update_of_ne hb]
  -- the names that were there are not the new one
  have hnamed : ∀ ref ∈ s.constructed, ∀ g replaced, ref.coordinator = .group g replaced →
      s'.groups.lookup g.uniqueName = some ref.id := by
    intro ref href g replaced hg
    have hold := hs.named ref href g replaced hg
    rw [hr.groups, lookup_setKey, if_neg, hold]
    intro hname
    rw [hname, hs.lookup_uniqueName] at hold
    cases hold
  have hbelow : ∀ ref ∈ s.constructed, ref.id < s'.nextId := by
    intro ref href
    have := hs.below ref href
    rw [hr.nextId]
    omega
  cases result with
  | error e =>
    have hsame : s'.constructed = s.constructed := hr.error e rfl
    refine ⟨⟨hshown, ?_, ?_, ?_, ?_⟩, fun ref href => by cases href⟩
    · rw [hsame]
      exact hbelow
    · rw [hsame]
      exact hs.found
    · rw [hsame]
      exact hnamed
    · intro holder ref href
      rw [hheld] at href
      rw [hsame]
      exact hs.held holder ref href
  | ok made =>
    obtain ⟨hconstructed, hid, g, replaced, hg, hname⟩ := hr.ok made rfl
    simp only at hconstructed
    refine ⟨⟨hshown, ?_, ?_, ?_, ?_⟩, fun ref href => ?_⟩
    · rw [hconstructed, List.forall_mem_append, List.forall_mem_singleton]
      exact ⟨hbelow, by rw [hr.nextId, hid]; omega⟩
    · rw [hconstructed]
      exact ModuleState.found_append hs.below hs.found hid
    · rw [hconstructed, List.forall_mem_append, List.forall_mem_singleton]
      refine ⟨hnamed, fun g' replaced' hg' => ?_⟩
      rw [hg] at hg'
      cases hg'
      rw [hname, hr.groups, lookup_setKey, if_pos rfl, hid]
    · intro holder ref href
      rw [hheld] at href
      rw [hconstructed]
      exact List.mem_append_left _ (hs.held holder ref href)
    · cases href
      simp only [hconstructed]
      exact List.mem_append_right _ (List.mem_singleton.mpr rfl)

/-- An object that registers no name. -/
private theorem ModuleState.Registered.construct {s : ModuleState} (hs : s.Registered) {ref : CoordinatorRef}
    (hid : ref.id = s.nextId) (hstateless : ∃ g, ref.coordinator = .stateless g) :
    ModuleState.Registered { s with nextId := s.nextId + 1, constructed := s.constructed ++ [ref] } := by
  refine ⟨hs.shown, ?_, ModuleState.found_append hs.below hs.found hid, ?_, ?_⟩
  · rw [List.forall_mem_append, List.forall_mem_singleton]
    refine ⟨fun ref href => ?_, ?_⟩
    · have := hs.below ref href
      simp only
      omega
    · simp only
      omega
  · rw [List.forall_mem_append, List.forall_mem_singleton]
    refine ⟨hs.named, fun g replaced hg => ?_⟩
    obtain ⟨g', hg'⟩ := hstateless
    rw [hg'] at hg
    cases hg
  · intro holder ref' href
    exact List.mem_append_left _ (hs.held holder ref' (by
      rcases holder with _ | _ | (_ | _ | _ | _ | _ | _) | _ <;> exact href))

private theorem newStatelessGroup_registered (env : Environment) (groupRanks : List (List Nat)) (localRank : Int)
    (backend : Option String) (rank : Int) : Action.Triple ModuleState.Registered (fun _ => True)
      (newStatelessGroup env groupRanks localRank backend rank) fun ref s => ref ∈ s.constructed := by
  rw [newStatelessGroup]
  split
  · exact Action.triple_raise _
  · have hrequest : ∀ requests, Action.Keeps ModuleState.Registered (Action.modify (·.request requests) : Setup Unit) := by
      intro requests
      refine Action.keeps_modify fun s hs => hs.frame rfl rfl rfl rfl fun holder ref href => hs.held holder ref ?_
      rcases holder with _ | _ | (_ | _ | _ | _ | _ | _) | _ <;> exact href
    refine Action.triple_bind (hrequest _).triple fun _ => ?_
    refine Action.triple_bind (Action.keeps_lift _).triple fun _ => ?_
    intro s hs _
    refine ⟨hs.construct rfl ⟨_, rfl⟩, fun ref href => ?_⟩
    cases href
    exact List.mem_append_right _ (List.mem_singleton.mpr rfl)

/-- Assigning finished objects, or none. -/
private theorem ModuleState.Registered.setSlot {s : ModuleState} (hs : s.Registered) (slot : Slot)
    {value : Option CoordinatorRef} (hvalue : ∀ ref ∈ value, ref ∈ s.constructed) :
    (s.setSlot slot value).Registered := by
  have hheld : ∀ holder, ∀ ref ∈ (s.setSlot slot value).held holder, ref ∈ s.constructed := by
    intro holder ref href
    rw [held_setSlot] at href
    split at href
    · exact hvalue ref href
    · exact hs.held holder ref href
  rcases slot with (_ | _ | _ | _ | _ | _) | _ <;> exact hs.frame rfl rfl rfl rfl hheld

/-- The same for the globals that are no slots. -/
private theorem ModuleState.Registered.assign {s : ModuleState} (hs : s.Registered)
    {world innerDpWorld : Option CoordinatorRef} (nodeCount : Option Nat)
    (hworld : ∀ ref ∈ world, ref ∈ s.constructed) (hinner : ∀ ref ∈ innerDpWorld, ref ∈ s.constructed) :
    ModuleState.Registered { s with world, innerDpWorld, nodeCount } := by
  refine hs.frame rfl rfl rfl rfl ?_
  intro holder ref href
  rcases holder with _ | _ | slot
  · exact hworld ref href
  · exact hinner ref href
  · exact hs.held (.slot slot) ref (by rcases slot with (_ | _ | _ | _ | _ | _) | _ <;> exact href)

/-- Setting up groups keeps the registry. -/
def registeredInvariant : SetupInvariant where
  Holds := ModuleState.Registered
  Made ref s := ref ∈ s.constructed
  request hs _ := hs.frame rfl rfl rfl rfl fun holder ref href =>
    hs.held holder ref (by rcases holder with _ | _ | (_ | _ | _ | _ | _ | _) | _ <;> exact href)
  dist hs _ := hs.frame rfl rfl rfl rfl fun holder ref href =>
    hs.held holder ref (by rcases holder with _ | _ | (_ | _ | _ | _ | _ | _) | _ <;> exact href)
  nodeCount hs nodeCount := hs.assign nodeCount (hs.held .world) (hs.held .innerDpWorld)
  construct := init_registered
  stateless := newStatelessGroup_registered
  world hs hmade := hs.assign _ (fun ref href => by cases href; exact hmade) (hs.held .innerDpWorld)
  innerDpWorld hs hmade := hs.assign _ (hs.held .world) fun ref href => by cases href; exact hmade
  shareWorld hs := hs.assign _ (hs.held .world) (hs.held .world)
  slot hs hmade slot := hs.setSlot slot fun ref href => by cases href; exact hmade

/-- The groups that _replace_active_groups is handed are stateless ones. -/
def LifeCall.HandsStateless : LifeCall → Prop
  | .replaceActiveGroups world dp ep eplb _ =>
    ∀ group ∈ [world, dp, ep, eplb], ∀ coordinator ∈ group, ∃ g, coordinator = .stateless g
  | _ => True

/-- The invariant of the module, for a process whose objects are torn down as well. -/
def LifeState.Registered (s : LifeState) : Prop := s.toModuleState.Registered

private theorem toLife_triple {A : Type} {P : ModuleState → Prop} {m : Setup A} {Q : A → ModuleState → Prop}
    (h : Action.Triple ModuleState.Registered P m Q) :
    Action.Triple LifeState.Registered (fun s => P s.toModuleState) m.toLife fun a s => Q a s.toModuleState :=
  fun s hs hp => h s.toModuleState hs hp

private theorem buildGroup_registered {group : Option AnyCoordinator}
    (h : ∀ coordinator ∈ group, ∃ g, coordinator = .stateless g) (made : List CoordinatorRef) :
    Action.Triple ModuleState.Registered (fun s => ∀ ref ∈ made, ref ∈ s.constructed) (buildGroup group)
      fun built s => ∀ ref ∈ built.toList ++ made, ref ∈ s.constructed := by
  cases group with
  | none => exact Action.triple_pure fun s _ hmade => hmade
  | some coordinator =>
    intro s hs hmade
    refine ⟨hs.construct rfl (h coordinator rfl), fun built hbuilt => ?_⟩
    cases hbuilt
    intro ref href
    rcases List.mem_cons.mp href with rfl | href
    · exact List.mem_append_right _ (List.mem_singleton.mpr rfl)
    · exact List.mem_append_left _ (hmade ref href)

private theorem destroyGroup_registered (env : LifeEnvironment) (group : Option CoordinatorRef) :
    Action.Keeps LifeState.Registered (destroyGroup env group) :=
  destroyGroup_keeps env (fun _ _ _ _ _ ht => ht) group

private theorem destroySlots_registered (env : LifeEnvironment) (slots : List Slot) :
    Action.Keeps LifeState.Registered (destroySlots env slots) :=
  destroySlots_keeps env (destroyGroup_registered env)
    (fun slot _ ht => ModuleState.Registered.setSlot ht slot fun ref href => by cases href) slots

private theorem destroyDistributedEnvironment_registered (env : LifeEnvironment) :
    Action.Keeps LifeState.Registered (destroyDistributedEnvironment env) := by
  refine Action.keeps_bind Action.keeps_get fun s => ?_
  refine Action.keeps_bind (destroyGroup_registered env _) fun _ => ?_
  have hclear : Action.Keeps LifeState.Registered
      (Setup.toLife (Action.modify fun s => { s with world := none, nodeCount := none })) := by
    intro t ht
    exact ModuleState.Registered.assign ht none (fun ref href => by cases href)
      (ModuleState.Registered.held ht .innerDpWorld)
  refine Action.keeps_bind hclear fun _ => destroyDefaultGroup_keeps env fun t ht => ?_
  exact registeredInvariant.dist ht none

private theorem replaceActiveGroups_registered (env : LifeEnvironment) (world dp ep eplb : Option CoordinatorRef)
    (nodeCount : Option Nat) : Action.Triple LifeState.Registered
      (fun s => ∀ ref ∈ eplb.toList ++ (ep.toList ++ (dp.toList ++ (world.toList ++ []))), ref ∈ s.constructed)
      (replaceActiveGroups env world dp ep eplb nodeCount) fun _ _ => True := by
  intro s hs hmade
  -- the constructed objects stay while the old groups are destroyed
  have hdestroy : ∀ groups, Action.Keeps
      (fun t => LifeState.Registered t ∧ t.constructed = s.constructed) (destroyGroups env groups) :=
    destroyGroups_keeps env fun group => destroyGroup_keeps env (fun _ _ _ _ _ ht => ht) group
  refine ⟨?_, fun _ _ => trivial⟩
  suffices h : Action.Keeps (fun t => LifeState.Registered t ∧ t.constructed = s.constructed)
      (replaceActiveGroups env world dp ep eplb nodeCount) from (h s ⟨hs, rfl⟩).1
  refine Action.keeps_bind Action.keeps_get fun _ => Action.keeps_bind (hdestroy _) fun _ => ?_
  rintro t ⟨ht, hsame⟩
  rw [← hsame] at hmade
  simp only [List.forall_mem_append, Option.mem_toList] at hmade
  obtain ⟨heplb, hep, hdp, hworld, -⟩ := hmade
  refine ⟨?_, hsame⟩
  have hassigned := ModuleState.Registered.assign ht nodeCount hworld (ModuleState.Registered.held ht .innerDpWorld)
  exact ((hassigned.setSlot (.of .dp) hdp).setSlot (.of .ep) hep).setSlot .eplb heplb

/-- Every call keeps the registry, whether it returns or raises. -/
theorem LifeStep.run_registered {step : LifeStep} (h : step.call.HandsStateless) :
    Action.Keeps LifeState.Registered step.run := by
  obtain ⟨env, call⟩ := step
  cases call with
  | initDistributedEnvironment args =>
    exact fun s hs => registeredInvariant.initDistributedEnvironment_keeps env.toEnvironment args s.toModuleState hs
  | initializeModelParallel args =>
    exact fun s hs => registeredInvariant.initializeModelParallel_keeps env.toEnvironment args s.toModuleState hs
  | ensureModelParallelInitialized args =>
    exact fun s hs => registeredInvariant.ensureModelParallelInitialized_keeps env.toEnvironment args s.toModuleState hs
  | replaceActiveGroups world dp ep eplb nodeCount =>
    have hgroup : ∀ group ∈ [world, dp, ep, eplb], ∀ coordinator ∈ group, ∃ g, coordinator = .stateless g := h
    have hreplace : Action.Triple LifeState.Registered (fun s => ∀ ref ∈ ([] : List CoordinatorRef), ref ∈ s.constructed)
        (LifeStep.run ⟨env, .replaceActiveGroups world dp ep eplb nodeCount⟩) fun _ _ => True := by
      refine Action.triple_bind (toLife_triple (buildGroup_registered (hgroup world (by simp)) [])) fun world => ?_
      refine Action.triple_bind (toLife_triple (buildGroup_registered (hgroup dp (by simp)) _)) fun dp => ?_
      refine Action.triple_bind (toLife_triple (buildGroup_registered (hgroup ep (by simp)) _)) fun ep => ?_
      refine Action.triple_bind (toLife_triple (buildGroup_registered (hgroup eplb (by simp)) _)) fun eplb => ?_
      exact replaceActiveGroups_registered env world dp ep eplb nodeCount
    exact fun s hs => (hreplace s hs fun ref href => by cases href).1
  | destroyModelParallel => exact destroySlots_registered env modelParallelSlots
  | destroyDistributedEnvironment => exact destroyDistributedEnvironment_registered env

theorem fresh_registered (hoststagedTp : Option String) (dist : Option DefaultGroup) :
    (LifeState.fresh hoststagedTp dist).Registered := by
  constructor
  · intro name id h
    cases h
  · intro ref h
    cases h
  · intro ref h
    cases h
  · intro ref h
    cases h
  · intro holder ref h
    rcases holder with _ | _ | (_ | _ | _ | _ | _ | _) | _ <;> cases h

theorem runCalls_registered {steps : List LifeStep} (h : ∀ step ∈ steps, step.call.HandsStateless) {s : LifeState}
    (hs : s.Registered) : (runCalls steps s).Registered := by
  induction steps generalizing s with
  | nil => exact hs
  | cons step steps ih =>
    rw [List.forall_mem_cons] at h
    exact ih h.2 (LifeStep.run_registered h.1 s hs)

/-- What the operations of a coordinator see of the process: the registry, and the objects
that have not been collected. -/
def Interpreter.process (s : Interpreter) (currentDevice : Nat) : Process :=
  ⟨s.state.dist.isSome, s.groups, currentDevice⟩

/-- The unique name of a coordinator that a global holds leads to this coordinator. -/
theorem ModuleState.Registered.findGroup {s : ModuleState} (hs : s.Registered) {holder : Holder} {id : Nat}
    {g : GroupCoordinator} {replaced : Bool} (hheld : s.held holder = some ⟨id, .group g replaced⟩) {alive : List Nat}
    (halive : id ∈ alive) : Coordinator.findGroup (Interpreter.mk s alive).groups g.uniqueName = .ok g := by
  have hmem := hs.held holder _ hheld
  have hlookup := hs.named _ hmem g replaced rfl
  have hfound := hs.found _ hmem
  have hattributes : (Interpreter.mk s alive).attributes id = .ok g := by
    simp only [Interpreter.attributes]
    rw [hfound]
  simp only [Coordinator.findGroup, Interpreter.groups, hlookup, Option.map_some, halive, if_true, hattributes]
  rfl

/-- The three operations that may go through the registered ops, as calls on the communicator. -/
structure GroupCoordinator.CallsDirectly (process : Process) (g : GroupCoordinator) : Prop where
  allReduce : ∀ input : Tensor V, (g.allReduce num process input : Dist V O (Tensor V)) =
    if g.worldSize = 1 then pure input else g.allReduceOutPlace num input
  allGather : ∀ (input : Tensor V) (dim : Int), (g.allGather num process input dim : Dist V O (Tensor V)) =
    if g.worldSize = 1 then pure input else do
      assertDim input dim
      g.allGatherOutPlace num input dim
  reduceScatter : ∀ (input : Tensor V) (dim : Int), (g.reduceScatter num process input dim : Dist V O (Tensor V)) =
    if g.worldSize = 1 then pure input else do
      assertDim input dim
      g.reduceScatterOutPlace num input dim

theorem callsDirectly_of_findGroup {process : Process} {g : GroupCoordinator}
    (h : findGroup process.groups g.uniqueName = .ok g) : g.CallsDirectly (O := O) num process := by
  refine ⟨fun input => ?_, fun input dim => ?_, fun input dim => ?_⟩
  · simp only [GroupCoordinator.allReduce, Coordinator.allReduce, h, Script.liftM_eq, Script.lift_ok, pure_bind,
      ite_self]
  · simp only [GroupCoordinator.allGather, Coordinator.allGather, h, Script.liftM_eq, Script.lift_ok, pure_bind,
      ite_self]
  · simp only [GroupCoordinator.reduceScatter, Coordinator.reduceScatter, h, Script.liftM_eq, Script.lift_ok, pure_bind,
      ite_self]

/-- Whatever has been set up, replaced and torn down before, and whichever of these calls
raised: what a getter returns is found under its own name, and the custom ops do what the
direct calls do. -/
theorem getter_calls_directly (hoststagedTp : Option String) (dist : Option DefaultGroup) {steps : List LifeStep}
    (h : ∀ step ∈ steps, step.call.HandsStateless) (holder : Holder) {id : Nat} {g : GroupCoordinator}
    {replaced : Bool} (hget : (holder.getter (runCalls steps (.fresh hoststagedTp dist)).toModuleState).1 =
      .ok ⟨id, .group g replaced⟩) {alive : List Nat} (halive : id ∈ alive) (currentDevice : Nat) :
    findGroup (Interpreter.mk (runCalls steps (.fresh hoststagedTp dist)).toModuleState alive).groups g.uniqueName =
        .ok g ∧
      g.CallsDirectly (O := O) num
        ((Interpreter.mk (runCalls steps (.fresh hoststagedTp dist)).toModuleState alive).process currentDevice) := by
  have hs := runCalls_registered h (fresh_registered hoststagedTp dist)
  rw [Holder.getter_apply] at hget
  have hheld : (runCalls steps (.fresh hoststagedTp dist)).held holder = some ⟨id, .group g replaced⟩ := by
    cases hc : (runCalls steps (.fresh hoststagedTp dist)).held holder with
    | none =>
      rw [hc] at hget
      cases hget
    | some ref =>
      rw [hc] at hget
      exact congrArg some (Except.ok.inj hget)
  have hfind := ModuleState.Registered.findGroup hs hheld halive
  exact ⟨hfind, callsDirectly_of_findGroup num hfind⟩

/-- The TP group of two ranks on one node, set up again after a teardown. -/
def setUpAgain : List LifeStep :=
  [⟨replicaEnvironment 1, .initDistributedEnvironment replicaArgs⟩,
    ⟨replicaEnvironment 1, .initializeModelParallel ⟨2, 1, 1, some 1, none⟩⟩,
    ⟨replicaEnvironment 1, .destroyModelParallel⟩,
    ⟨replicaEnvironment 1, .initializeModelParallel ⟨2, 1, 1, some 2, none⟩⟩]

def secondTpGroup : GroupCoordinator where
  uniqueName := "tp:1"
  rank := 0
  ranks := [0, 1]
  localRank := 0
  rankInGroup := 0
  rank_lt := by decide
  cpuGroup := ⟨24, "gloo", [0, 1]⟩
  deviceGroup := ⟨23, "gloo", [0, 1]⟩
  device := .accelerator .xpu 0
  deviceCommunicator := some
    ⟨⟨⟨24, "gloo", [0, 1]⟩, .accelerator .xpu 0, ⟨23, "gloo", [0, 1]⟩, "tp:1", 0, by decide⟩, true⟩
  mqBroadcaster := true
  useCustomOpCall := true

theorem second_tp_group_calls_directly :
    findGroup (Interpreter.mk (runCalls setUpAgain (.fresh (some "1") none)).toModuleState [7]).groups "tp:1" =
        .ok secondTpGroup ∧
      secondTpGroup.CallsDirectly (O := Unit) intNumerics
        ((Interpreter.mk (runCalls setUpAgain (.fresh (some "1") none)).toModuleState [7]).process 0) := by
  have hsteps : ∀ step ∈ setUpAgain, step.call.HandsStateless := by
    simp [setUpAgain, LifeCall.HandsStateless]
  have hget : ((Holder.slot (.of .tp)).getter (runCalls setUpAgain (.fresh (some "1") none)).toModuleState).1 =
      .ok ⟨7, .group secondTpGroup true⟩ := by decide +kernel
  exact getter_calls_directly intNumerics (some "1") none hsteps (.slot (.of .tp)) hget (List.mem_singleton.mpr rfl) 0

end B70DualTP.Coordinator
