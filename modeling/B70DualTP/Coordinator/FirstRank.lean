import B70DualTP.Coordinator.Placement
import B70DualTP.Coordinator.SlotInvariant

/-! is_global_first_rank and is_local_first_rank, in every state that the set-up and tear-down
calls of a process can reach, also where a call has raised. -/
namespace B70DualTP.Coordinator
open Library Torch Communicator

/-- is_first_rank, which a StatelessGroupCoordinator inherits. -/
def AnyCoordinator.isFirstRank : AnyCoordinator → Py Bool
  | .group g _ => .ok g.isFirstRank
  | .stateless g => (getItem g.ranks 0).map fun first => decide (g.rank = first)

/-- An exception counts as being the first. -/
def isGlobalFirstRank (s : ModuleState) : Bool :=
  match s.world, s.dist with
  | some world, _ => match world.coordinator.isFirstRank with
    | .ok first => first
    | .error _ => true
  | none, none => true
  | none, some group => group.rank = 0

def isLocalFirstRank (env : Environment) (s : ModuleState) : Bool :=
  match s.world, s.dist with
  | some world, _ => world.coordinator.localRank = 0
  | none, none => true
  | none, some _ => env.localRank = 0

/-- The place of a process in torch.distributed and on its node. In elastic mode torch.distributed
spans one replica alone. -/
structure Seat where
  worldSize : Nat
  rank : Nat
  /-- The number of the replica, 0 where torch.distributed spans the job. -/
  replica : Nat
  localRank : Int

namespace Seat
variable (seat : Seat)

def jobRank : Nat := offsetRank seat.replica seat.worldSize seat.rank

/-- Such a group knows the place of its process in the job. -/
structure IsWorld (world : AnyCoordinator) : Prop where
  isFirstRank : world.isFirstRank = .ok (decide (seat.jobRank = 0))
  localRank : world.localRank = seat.localRank

structure Taken (env : Environment) (args : InitDistributedArgs) : Prop where
  joins : Joins seat.worldSize seat.rank env args
  localRank : localRankOf env (adjustArgs env.config args) = seat.localRank
  replica : ((elasticConfig env).map (·.dataParallelRank)).getD 0 = seat.replica

/-- Every call puts the process in the same place, and a world group that it is handed is the
one of its job. -/
def Takes (step : LifeStep) : Prop :=
  match step.call with
  | .initDistributedEnvironment args => seat.Taken step.env.toEnvironment args
  | .replaceActiveGroups world .. => ∀ coordinator ∈ world, seat.IsWorld coordinator
  | _ => True

/-- The process is in its place, as far as it has joined the job. -/
structure Holds (s : ModuleState) : Prop where
  joined : s.Joined seat.worldSize seat.rank
  world : ∀ ref ∈ s.world, seat.IsWorld ref.coordinator

end Seat

section Steps
variable {seat : Seat} {env : Environment}

private theorem Seat.Holds.frame {s t : ModuleState} (h : seat.Holds s) (hdist : t.dist = s.dist)
    (hworld : t.world = s.world) : seat.Holds t :=
  ⟨h.joined.imp fun _ hs => hdist.trans hs, fun ref href => h.world ref (hworld ▸ href)⟩

private theorem setSlot_holds {s : ModuleState} (slot : Slot) {value : Option CoordinatorRef} (hs : seat.Holds s) :
    seat.Holds (s.setSlot slot value) := by
  rcases slot with (_ | _ | _ | _ | _ | _) | _ <;> exact hs.frame rfl rfl

private theorem construct_localRank {useCustomOpCollectives : Bool} {args : InitArgs} {uniqueName : String} {id : Nat}
    {s s' : ModuleState} {ref : CoordinatorRef}
    (h : GroupCoordinator.construct useCustomOpCollectives args uniqueName id s = (.ok ref, s')) :
    ref.coordinator.localRank = args.localRank := by
  obtain ⟨group, s₁, -, h₁⟩ := Action.bind_returns h
  obtain ⟨own, s₂, -, h₂⟩ := Action.bind_returns h₁
  cases own with
  | none => cases h₂
  | some own =>
    obtain ⟨device, s₃, hdevice, h₃⟩ := Action.bind_returns h₂
    obtain ⟨hdevice, -⟩ := Action.lift_returns hdevice
    obtain ⟨comm, s₄, -, h₄⟩ := Action.bind_returns h₃
    cases h₄
    rw [xpuDevice] at hdevice
    split at hdevice
    · rename_i hnonneg
      exact Int.toNat_of_nonneg hnonneg
    · cases hdevice

private theorem init_holds (c : Bool) (args : InitArgs) : Action.Triple seat.Holds (fun _ => True)
    (GroupCoordinator.init c args) fun ref _ => ref.coordinator.localRank = args.localRank ∧
      ∃ g replaced, ref.coordinator = .group g replaced ∧ g.rank = seat.rank ∧ g.ranks ∈ args.groupRanks := by
  intro s hs _
  have hframe := (GroupCoordinator.init_constructs c args s).frame
  refine ⟨hs.frame (congrArg ModuleState.dist hframe :) (congrArg ModuleState.world hframe :), fun ref href => ?_⟩
  have hret : GroupCoordinator.init c args s = (.ok ref, (GroupCoordinator.init c args s).2) := Prod.ext href rfl
  obtain ⟨g, group, k, row, hg, hbuilt⟩ := init_built hret
  rw [init_eq] at hret
  refine ⟨construct_localRank hret, g, _, hg, ?_, hbuilt.ranks ▸ List.mem_of_getElem? hbuilt.list⟩
  obtain ⟨backend, hjoined⟩ := hs.joined
  rw [hbuilt.dist] at hjoined
  rw [hbuilt.rank]
  cases backend with
  | none => cases hjoined
  | some backend => rw [Option.some.inj hjoined]

/-- A world group over all ranks of torch.distributed is that of the job, when the replica is all there is. -/
private theorem isWorld_of_group (hreplica : seat.replica = 0) {world : AnyCoordinator} {g : GroupCoordinator}
    {replaced : Bool} (hg : world = .group g replaced) (hrank : g.rank = seat.rank)
    (hranks : g.ranks = List.range seat.worldSize) (hlocal : world.localRank = seat.localRank) : seat.IsWorld world := by
  have hfirst : g.firstRank = 0 := by
    simp [GroupCoordinator.firstRank, hranks]
  refine ⟨?_, hlocal⟩
  rw [hg, AnyCoordinator.isFirstRank, GroupCoordinator.isFirstRank, hfirst, hrank, Seat.jobRank, offsetRank_nat, hreplica,
    Nat.zero_mul, Nat.zero_add]

private theorem initWorldGroup_holds (hreplica : seat.replica = 0) (backend : Option String) :
    Action.Triple seat.Holds (fun _ => True) (initWorldGroup env (List.range seat.worldSize) seat.localRank backend)
      fun ref _ => seat.IsWorld ref.coordinator := by
  refine (init_holds _ _).mono (fun _ _ => trivial) fun ref s hmade => ?_
  obtain ⟨hlocal, g, replaced, hg, hrank, hranks⟩ := hmade
  exact isWorld_of_group hreplica hg hrank (List.mem_singleton.mp hranks) hlocal

private theorem newStatelessGroup_holds (groupRanks : List (List Nat)) (localRank : Int) (backend : Option String)
    (rank : Int) : Action.Triple seat.Holds (fun _ => True) (newStatelessGroup env groupRanks localRank backend rank)
      fun ref _ => ∃ ranks ∈ groupRanks, (∃ r ∈ ranks, (r : Int) = rank) ∧
        ref.coordinator = .stateless ⟨backend, ranks, rank, localRank⟩ :=
  newStatelessGroup_triple env groupRanks localRank _ rank (fun _ _ hs => hs.frame rfl rfl) fun _ _ _ hs => hs.frame rfl rfl

private theorem defaultGroup_holds : Action.Triple seat.Holds (fun _ => True) defaultGroup
    fun group _ => group.worldSize = seat.worldSize := by
  refine Action.triple_bind (Q := fun s _ => seat.Holds s) (fun s hs _ => ⟨hs, fun _ h => by cases h; exact hs⟩) fun s => ?_
  split
  · rename_i group hdist
    refine Action.triple_of_fact fun hs => Action.triple_pure fun _ _ _ => ?_
    obtain ⟨backend, hjoined⟩ := hs.joined
    rw [hdist] at hjoined
    cases backend with
    | none => cases hjoined
    | some backend => rw [Option.some.inj hjoined]
  · exact Action.triple_raise _

private theorem ensureDefaultGroup_holds {args : InitDistributedArgs}
    (hp : ∀ m p, env.rendezvous m args.worldSize args.rank = .ok p → p = (seat.worldSize, seat.rank)) :
    Action.Keeps seat.Holds (ensureDefaultGroup env args) := by
  refine Action.keeps_bind Action.keeps_get fun _ => ?_
  split
  · exact Action.keeps_pure _
  · simp only [initDefaultGroup]
    split
    · exact Action.keeps_raise _
    · have hbackend : Action.Keeps seat.Holds (worldBackend env args.backend) :=
        Action.keeps_bind (Action.keeps_lift _) fun _ => Action.keeps_bind Action.keeps_get fun _ => Action.keeps_pure _
      have hinit : ∀ backend initMethod, Action.Keeps seat.Holds (initProcessGroup env backend args initMethod) := by
        intro backend initMethod
        refine Action.keeps_bind_of (Action.triple_lift fun p _ hrendezvous _ _ => hp initMethod p hrendezvous) ?_
        rintro _ rfl
        exact Action.keeps_modify fun t ht => ⟨⟨some backend, rfl⟩, ht.world⟩
      have hnodes : Action.Keeps seat.Holds (checkElasticNodes env (elasticConfig env).isSome) := by
        simp only [checkElasticNodes]
        split
        · refine Action.keeps_bind defaultGroup_keeps fun group => ?_
          refine Action.keeps_bind (newGroup_keeps (fun t L ht => ht.frame rfl rfl) _ _) fun _ => ?_
          refine Action.keeps_bind (Action.keeps_lift _) fun count => ?_
          split
          · exact Action.keeps_raise _
          · exact Action.keeps_pure _
        · exact Action.keeps_pure _
      refine Action.keeps_bind hbackend fun backend => ?_
      exact Action.keeps_bind (hinit _ _) fun _ => Action.keeps_bind hnodes fun _ => Action.keeps_pure _

private theorem initWorld_holds (hreplica : seat.replica = 0) (backend : Option String) :
    Action.Keeps seat.Holds (initWorld env seat.localRank backend) := by
  refine Action.keeps_bind_of defaultGroup_holds fun group hsize => Action.keeps_bind Action.keeps_get fun _ => ?_
  split
  · rw [hsize]
    refine Action.keeps_bind_of (initWorldGroup_holds hreplica backend) fun world hworld => ?_
    have hassign : Action.Keeps seat.Holds
        (Action.modify fun t : ModuleState => { t with world := some world } : Setup Unit) :=
      Action.keeps_modify fun t ht => ⟨ht.joined, fun ref href => by cases href; exact hworld⟩
    refine Action.keeps_bind hassign fun _ => Action.keeps_bind (Action.keeps_lift _) fun count => ?_
    exact Action.keeps_modify fun t ht => ht.frame rfl rfl
  · exact Action.keeps_lift _

private theorem initReplicaWorld_holds (backend : Option String) :
    Action.Keeps seat.Holds (initReplicaWorld env backend) := by
  simp only [initReplicaWorld]
  split
  · split
    · exact Action.keeps_raise _
    · simp only [initInnerDpWorld]
      split
      · refine Action.keeps_bind getWorldGroup_keeps fun world => Action.keeps_bind (init_holds _ _).keeps fun group => ?_
        exact Action.keeps_modify fun t ht => ht.frame rfl rfl
      · exact Action.keeps_modify fun t ht => ht.frame rfl rfl
  · exact Action.keeps_pure _

/-- Only a caller outside the job would be in a list of its own. -/
private theorem elasticRanks {N rank : Nat} {ranks : List Nat} (hown : rank ∈ ranks)
    (hranks : ranks ∈ if (List.range N).any fun r : Nat => (r : Int) = rank then [List.range N]
      else (List.range N).map ([·])) : ranks = List.range N := by
  split at hranks
  · exact List.mem_singleton.mp hranks
  · rename_i hany
    obtain ⟨r, hr, rfl⟩ := List.mem_map.mp hranks
    obtain rfl := List.mem_singleton.mp hown
    exact absurd (List.any_eq_true.mpr ⟨rank, hr, decide_eq_true rfl⟩) hany

private theorem isWorld_of_stateless {N : Nat} {backend : Option String} (hmem : seat.jobRank ∈ List.range N) :
    seat.IsWorld (.stateless ⟨backend, List.range N, seat.jobRank, seat.localRank⟩) := by
  have hitem : getItem (List.range N) 0 = .ok 0 := by
    have hpos : 0 < (List.range N).length := List.length_pos_of_mem hmem
    rw [← Nat.cast_zero, getItem_natCast hpos, List.getElem_range]
  refine ⟨?_, rfl⟩
  rw [AnyCoordinator.isFirstRank, hitem]
  exact congrArg Except.ok (decide_eq_decide.mpr Int.natCast_inj)

/-- The stateless world group lists the ranks of all replicas, or the caller has no place in it. -/
private theorem initElasticEpWorld_holds {config : ParallelConfig} (hreplica : config.dataParallelRank = seat.replica)
    (backend : Option String) : Action.Keeps seat.Holds
      (initElasticEpWorld env config seat.localRank backend seat.rank seat.worldSize) := by
  refine Action.keeps_bind Action.keeps_get fun _ => Action.keeps_bind (Action.keeps_lift _) fun _ => ?_
  refine Action.keeps_bind (Action.keeps_lift _) fun _ => ?_
  rw [offsetRank_natCast, hreplica]
  refine Action.keeps_bind_of (newStatelessGroup_holds _ _ _ _) fun world hmade => ?_
  obtain ⟨ranks, hranks, ⟨r, hr, hrank⟩, hstateless⟩ := hmade
  obtain rfl : r = seat.jobRank := Int.natCast_inj.mp hrank
  obtain rfl := elasticRanks hr hranks
  have hworld : seat.IsWorld world.coordinator := hstateless ▸ isWorld_of_stateless hr
  rw [hstateless]
  refine Action.keeps_bind (Action.keeps_lift _) fun _ => Action.keeps_bind (Action.keeps_lift _) fun count => ?_
  exact Action.keeps_modify fun t ht => ⟨ht.joined, fun ref href => by cases href; exact hworld⟩

private theorem initDistributedEnvironment_holds {args : InitDistributedArgs} (h : seat.Taken env args) :
    Action.Keeps seat.Holds (initDistributedEnvironment env args) := by
  have hreplica := h.replica
  have hp : ∀ m p, env.rendezvous m (adjustArgs env.config args).worldSize (adjustArgs env.config args).rank = .ok p →
      p = (seat.worldSize, seat.rank) := by
    intro m p hp
    rw [h.joins.rendezvous m _ _ p hp, h.joins.worldSize, h.joins.rank]
    rfl
  refine Action.keeps_bind (ensureDefaultGroup_holds hp) fun backend => ?_
  rw [h.localRank, h.joins.rank, h.joins.worldSize]
  cases hconfig : elasticConfig env with
  | some config =>
    rw [hconfig] at hreplica
    exact initElasticEpWorld_holds hreplica backend
  | none =>
    rw [hconfig] at hreplica
    exact Action.keeps_bind (initWorld_holds hreplica.symm backend) fun _ => initReplicaWorld_holds backend

def seatInvariant (seat : Seat) : SlotInvariant where
  Holds := seat.Holds
  Made _ _ := True
  construct _ _ _ _ _ := (init_holds _ _).mono (fun _ _ => trivial) fun _ _ _ => trivial
  stateless _ _ _ _ _ _ := (newStatelessGroup_holds _ _ _ _).mono (fun _ _ => trivial) fun _ _ _ => trivial
  assign slot hs _ := setSlot_holds slot hs

end Steps

section Life
variable {seat : Seat}

def Seat.HoldsLife (seat : Seat) (u : LifeState) : Prop := seat.Holds u.toModuleState

private theorem destroyGroup_holds (env : LifeEnvironment) (group : Option CoordinatorRef) :
    Action.Keeps seat.HoldsLife (destroyGroup env group) := destroyGroup_keeps env (fun _ _ _ _ _ ht => ht) group

private theorem destroyDistributedEnvironment_holds (env : LifeEnvironment) :
    Action.Keeps seat.HoldsLife (destroyDistributedEnvironment env) := by
  refine Action.keeps_bind Action.keeps_get fun u => Action.keeps_bind (destroyGroup_holds env _) fun _ => ?_
  have hclear : Action.Keeps seat.HoldsLife
      (Setup.toLife (Action.modify fun s => { s with world := none, nodeCount := none })) :=
    fun t (ht : seat.Holds t.toModuleState) => ⟨ht.joined, fun ref href => by cases href⟩
  refine Action.keeps_bind hclear fun _ => destroyDefaultGroup_keeps env ?_
  exact fun t (ht : seat.Holds t.toModuleState) => ⟨⟨none, rfl⟩, ht.world⟩

private theorem buildGroup_holds (group : Option AnyCoordinator) :
    Action.Triple seat.HoldsLife (fun _ => True) (Setup.toLife (buildGroup group))
      fun built _ => built.map (·.coordinator) = group :=
  fun u hu => buildGroup_triple (fun _ _ _ hs => hs.frame rfl rfl) group u.toModuleState hu

private theorem replaceActiveGroups_holds (env : LifeEnvironment) {world : Option CoordinatorRef}
    (hworld : ∀ ref ∈ world, seat.IsWorld ref.coordinator) (dp ep eplb : Option CoordinatorRef)
    (nodeCount : Option Nat) : Action.Keeps seat.HoldsLife (replaceActiveGroups env world dp ep eplb nodeCount) := by
  refine Action.keeps_bind Action.keeps_get fun u => ?_
  refine Action.keeps_bind (destroyGroups_keeps env (destroyGroup_holds env) _) fun _ => ?_
  exact fun t (ht : seat.Holds t.toModuleState) => ⟨ht.joined, hworld⟩

theorem LifeStep.run_holds {step : LifeStep} (h : seat.Takes step) : Action.Keeps seat.HoldsLife step.run := by
  obtain ⟨env, call⟩ := step
  cases call with
  | initDistributedEnvironment args => exact fun u hu => initDistributedEnvironment_holds h u.toModuleState hu
  | initializeModelParallel args =>
    exact fun u hu => (seatInvariant seat).initializeModelParallel_keeps env.toEnvironment args u.toModuleState hu
  | ensureModelParallelInitialized args =>
    exact fun u hu => (seatInvariant seat).ensureModelParallelInitialized_keeps env.toEnvironment args u.toModuleState hu
  | replaceActiveGroups world dp ep eplb nodeCount =>
    refine Action.keeps_bind_of (buildGroup_holds world) fun built hbuilt => ?_
    refine Action.keeps_bind (buildGroup_holds dp).keeps fun _ => Action.keeps_bind (buildGroup_holds ep).keeps fun _ => ?_
    refine Action.keeps_bind (buildGroup_holds eplb).keeps fun _ => ?_
    refine replaceActiveGroups_holds env (fun ref href => h ref.coordinator ?_) _ _ _ nodeCount
    rw [← hbuilt, href]
    rfl
  | destroyModelParallel =>
    exact destroySlots_keeps env (destroyGroup_holds env) (fun slot _ ht => setSlot_holds slot ht) modelParallelSlots
  | destroyDistributedEnvironment => exact destroyDistributedEnvironment_holds env

theorem runCalls_holds {steps : List LifeStep} (h : ∀ step ∈ steps, seat.Takes step) {u : LifeState}
    (hu : seat.HoldsLife u) : seat.HoldsLife (runCalls steps u) := by
  induction steps generalizing u with
  | nil => exact hu
  | cons step steps ih =>
    rw [List.forall_mem_cons] at h
    exact ih h.2 (LifeStep.run_holds h.1 u hu)

end Life

private theorem Seat.Holds.isGlobalFirstRank {seat : Seat} {s : ModuleState} (h : seat.Holds s) :
    isGlobalFirstRank s = true ↔ s.world = none ∧ s.dist = none ∨ seat.jobRank = 0 ∨ s.world = none ∧ seat.rank = 0 := by
  rw [Coordinator.isGlobalFirstRank]
  cases hworld : s.world with
  | some world => simp [(h.world world hworld).isFirstRank]
  | none =>
    obtain ⟨backend, hdist⟩ := h.joined
    have hrank : seat.jobRank = 0 → seat.rank = 0 := Nat.eq_zero_of_add_eq_zero_left
    cases backend with
    | none => simp [hdist]
    | some backend =>
      simp only [hdist, Option.map_some, decide_eq_true_eq, reduceCtorEq, and_false, true_and, false_or]
      exact ⟨.inr, fun h => h.elim hrank id⟩

private theorem Seat.Holds.isLocalFirstRank {seat : Seat} {s : ModuleState} (h : seat.Holds s) {env : Environment}
    (henv : env.localRank = seat.localRank) :
    isLocalFirstRank env s = true ↔ s.world = none ∧ s.dist = none ∨ seat.localRank = 0 := by
  rw [Coordinator.isLocalFirstRank]
  cases hworld : s.world with
  | some world => simp [(h.world world hworld).localRank]
  | none =>
    cases hdist : s.dist with
    | none => simp
    | some group => simp [henv]

/-- In every reachable state: without torch.distributed every process is the first. Otherwise it
is rank 0 of the job alone, but in elastic mode rank 0 of every replica as long as the world group
is missing; and on a node it is local rank 0 alone. -/
theorem first_rank_iff (seat : Seat) (hoststagedTp backend : Option String) {steps : List LifeStep}
    (h : ∀ step ∈ steps, seat.Takes step) {env : Environment} (henv : env.localRank = seat.localRank)
    {s : LifeState} (hs : s = runCalls steps (.fresh hoststagedTp (backend.map (⟨seat.worldSize, seat.rank, ·⟩)))) :
    (isGlobalFirstRank s.toModuleState = true ↔
      s.world = none ∧ s.dist = none ∨ seat.jobRank = 0 ∨ s.world = none ∧ seat.rank = 0) ∧
      (isLocalFirstRank env s.toModuleState = true ↔ s.world = none ∧ s.dist = none ∨ seat.localRank = 0) := by
  have hholds : seat.Holds s.toModuleState := by
    rw [hs]
    exact runCalls_holds h ⟨⟨backend, rfl⟩, fun ref href => by cases href⟩
  exact ⟨hholds.isGlobalFirstRank, hholds.isLocalFirstRank henv⟩

/-- The first rank of the second of two elastic replicas, which cannot reach the store. -/
def unreachableStore : LifeEnvironment := { replicaEnvironment 1 with
  config := some ⟨⟨true, false, some "mp", 1, 1, 2, 1, 2, 4, "tcp://10.0.0.1:29500", "tcp://10.0.0.1:29501"⟩, none⟩
  coordStore := .error .runtimeError }

def secondReplica : Seat := ⟨2, 0, 1, 0⟩
def joinSecondReplica : LifeStep := ⟨unreachableStore, .initDistributedEnvironment replicaArgs⟩

theorem second_replica_first : secondReplica.jobRank = 2 ∧
    isGlobalFirstRank (runCalls [joinSecondReplica] (.fresh none none)).toModuleState = true := by
  have hjoins : Joins 2 0 unreachableStore.toEnvironment replicaArgs :=
    ⟨rfl, rfl, fun _ _ _ _ hp => (Except.ok.inj hp).symm⟩
  have htakes : ∀ step ∈ [joinSecondReplica], secondReplica.Takes step :=
    List.forall_mem_singleton.mpr ⟨hjoins, rfl, rfl⟩
  have hworld : (runCalls [joinSecondReplica] (.fresh none none)).world = none := by decide
  have hlocal : unreachableStore.toEnvironment.localRank = secondReplica.localRank := rfl
  have hfirst := first_rank_iff secondReplica none none htakes hlocal rfl
  exact ⟨rfl, hfirst.1.mpr (.inr (.inr ⟨hworld, rfl⟩))⟩

end B70DualTP.Coordinator
