import B70DualTP.Library.FreshKeys
import B70DualTP.Coordinator.ModuleState

/-! The names of groups: parallel_state.py hands out a unique name to every coordinator
under construction, registers a weak reference under it, and the registered ops look it
up again. -/
namespace B70DualTP.Coordinator
open Library Torch Communicator
variable {V O : Type} (num : Numerics V)

/-- The count that the next name of this base shows. -/
def ModuleState.count (s : ModuleState) (base : String) : Nat := (s.groupNameCounter.lookup base).getD 0

/-- The name for the next object with this group_name. -/
def ModuleState.uniqueName (s : ModuleState) (groupName : Option String) : String :=
  numbered (groupNameOf groupName) (s.count (groupNameOf groupName))

theorem lookup_setKey (key : String) (value : Nat) (entries : List (String × Nat)) (key' : String) :
    (setKey key value entries).lookup key' = if key' = key then some value else entries.lookup key' := by
  induction entries with
  | nil =>
    by_cases h : key' = key
    · simp [setKey, h]
    · simp [setKey, h]
  | cons entry entries ih =>
    obtain ⟨k, v⟩ := entry
    by_cases hk : k = key
    · subst hk
      by_cases h : key' = k
      · simp [setKey, h]
      · have hne : (key' == k) = false := by simpa using h
        simp [setKey, List.lookup_cons, h, hne]
    · by_cases h : key' = k
      · subst h
        simp [setKey, hk]
      · have hne : (key' == k) = false := by simpa using h
        simp [setKey, hk, List.lookup_cons, hne, ih]

theorem count_setKey (s : ModuleState) (base : String) (count : Nat) :
    ModuleState.count { s with groupNameCounter := setKey base count s.groupNameCounter } =
      Function.update s.count base count := by
  funext base'
  rw [ModuleState.count, lookup_setKey]
  by_cases h : base' = base
  · subst h
    simp
  · rw [if_neg h, Function.update_of_ne h]
    rfl

theorem getUniqueName_eq (name : String) (s : ModuleState) : getUniqueName name s =
    (.ok (numbered name (s.count name)),
      { s with groupNameCounter := setKey name (s.count name + 1) s.groupNameCounter }) := rfl

/-- What a constructor does to the names, and what it returns. -/
structure Registers (s : ModuleState) (groupName : Option String) (result : Py CoordinatorRef) (s' : ModuleState) :
    Prop where
  counter : s'.groupNameCounter =
    setKey (groupNameOf groupName) (s.count (groupNameOf groupName) + 1) s.groupNameCounter
  groups : s'.groups = setKey (s.uniqueName groupName) s.nextId s.groups
  nextId : s'.nextId = s.nextId + 1
  error : ∀ e, result = .error e → s'.constructed = s.constructed
  ok : ∀ ref, result = .ok ref → s'.constructed = s.constructed ++ [ref] ∧ ref.id = s.nextId ∧
    ∃ g replaced, ref.coordinator = .group g replaced ∧ g.uniqueName = s.uniqueName groupName

/-- The state once the object under construction has its name. -/
def ModuleState.register (s : ModuleState) (groupName : Option String) : ModuleState :=
  { s with
    groupNameCounter := setKey (groupNameOf groupName) (s.count (groupNameOf groupName) + 1) s.groupNameCounter
    groups := setKey (s.uniqueName groupName) s.nextId s.groups
    nextId := s.nextId + 1 }

theorem init_eq (useCustomOpCollectives : Bool) (args : InitArgs) (s : ModuleState) :
    GroupCoordinator.init useCustomOpCollectives args s =
      GroupCoordinator.construct useCustomOpCollectives args (s.uniqueName args.groupName) s.nextId
        (s.register args.groupName) := by
  rw [GroupCoordinator.init, Action.bind_ok (getUniqueName_eq _ s)]
  rfl

theorem init_registers (useCustomOpCollectives : Bool) (args : InitArgs) (s : ModuleState) :
    Registers s args.groupName (GroupCoordinator.init useCustomOpCollectives args s).1
      (GroupCoordinator.init useCustomOpCollectives args s).2 := by
  have hconstructs := GroupCoordinator.init_constructs useCustomOpCollectives args s
  -- what follows the registration leaves the three tables alone
  have hkeeps := construct_keeps
    (I := fun t => t.groupNameCounter = (s.register args.groupName).groupNameCounter ∧
      t.groups = (s.register args.groupName).groups ∧ t.nextId = s.nextId + 1)
    (fun _ _ ht => ht) (fun _ _ ht => ht) (fun _ _ ht => ht) useCustomOpCollectives args
    (s.uniqueName args.groupName) s.nextId
  obtain ⟨⟨hcounter, hgroups, hnext⟩, hmade⟩ := hkeeps (s.register args.groupName) ⟨rfl, rfl, rfl⟩ trivial
  rw [← init_eq] at hcounter hgroups hnext hmade
  refine ⟨hcounter, hgroups, hnext, fun e he => (hconstructs.error e he).1, ?_⟩
  intro ref href
  exact ⟨(hconstructs.ok ref href).1, hmade ref href⟩

/-- A process in which coordinators are built and collected. -/
structure Interpreter where
  state : ModuleState
  /-- The coordinators, finished or not, that have not been collected. -/
  alive : List Nat

inductive Event where
  /-- GroupCoordinator(...) is called; it may raise. -/
  | construct (useCustomOpCollectives : Bool) (args : InitArgs)
  /-- The last reference to an object goes. -/
  | collect (id : Nat)
  /-- What a constructor reads besides its arguments changes in between. -/
  | environment (hoststagedTp : Option String) (xpuHoststaged : Option Bool) (dist : Option DefaultGroup)

namespace Interpreter

/-- A process that has imported parallel_state and built no coordinator. -/
def start (hoststagedTp : Option String) (dist : Option DefaultGroup) : Interpreter :=
  ⟨.fresh hoststagedTp dist, []⟩

def step (s : Interpreter) : Event → Interpreter
  | .construct useCustomOpCollectives args =>
    ⟨(GroupCoordinator.init useCustomOpCollectives args s.state).2, s.alive ++ [s.state.nextId]⟩
  | .collect id => { s with alive := s.alive.filter (· ≠ id) }
  | .environment hoststagedTp xpuHoststaged dist =>
    { s with state := { s.state with hoststagedTp, xpuHoststaged, dist } }

def run (s : Interpreter) : List Event → Interpreter
  | [] => s
  | event :: events => (s.step event).run events

theorem run_append (s : Interpreter) (events events' : List Event) :
    s.run (events ++ events') = (s.run events).run events' := by
  induction events generalizing s with
  | nil => rfl
  | cons event events ih => exact ih (s.step event)

/-- The lookup that each registered op starts with, down to the object. -/
def findObject (s : Interpreter) (groupName : String) : Py Nat :=
  match s.state.groups.lookup groupName with
  | none => .error (.assertionError s!"Group {groupName} is not found.")
  | some id =>
    if id ∈ s.alive then .ok id else .error (.valueError s!"Group {groupName} is destroyed.")

/-- An object whose constructor raised has no device_communicator. -/
def attributes (s : Interpreter) (id : Nat) : Py GroupCoordinator :=
  match s.state.constructed.find? (·.id = id) with
  | some ⟨_, .group g _⟩ => .ok g
  | _ => .error .attributeError

def findGroup (s : Interpreter) (groupName : String) : Py GroupCoordinator := do
  s.attributes (← s.findObject groupName)

def allReduce (s : Interpreter) (tensor : Tensor V) (groupName : String) : Dist V O (Tensor V) := do
  (← s.findGroup groupName).allReduceOutPlace num tensor

def reduceScatter (s : Interpreter) (tensor : Tensor V) (dim : Int) (_worldSize : Nat) (groupName : String) :
    Dist V O (Tensor V) := do
  (← s.findGroup groupName).reduceScatterOutPlace num tensor dim

def allGather (s : Interpreter) (tensor : Tensor V) (dim : Int) (_worldSize : Nat) (groupName : String) :
    Dist V O (Tensor V) := do
  (← s.findGroup groupName).allGatherOutPlace num tensor dim

theorem findGroup_of_none {s : Interpreter} {groupName : String} (h : s.state.groups.lookup groupName = none) :
    s.findGroup groupName = .error (.assertionError s!"Group {groupName} is not found.") := by
  rw [findGroup, findObject, h]
  rfl

theorem findGroup_of_some {s : Interpreter} {groupName : String} {id : Nat}
    (h : s.state.groups.lookup groupName = some id) :
    s.findGroup groupName =
      if id ∈ s.alive then s.attributes id else .error (.valueError s!"Group {groupName} is destroyed.") := by
  rw [findGroup, findObject, h]
  simp only []
  split <;> rfl

/-- _groups as the operations of a coordinator see it. -/
def groups (s : Interpreter) : Groups := fun groupName =>
  (s.state.groups.lookup groupName).map fun id => if id ∈ s.alive then (s.attributes id).toOption else none

/-- The three ops, called with this name, call on g. -/
structure DispatchesTo (s : Interpreter) (groupName : String) (g : GroupCoordinator) : Prop where
  allReduce : ∀ tensor : Tensor V,
    (s.allReduce num tensor groupName : Dist V O (Tensor V)) = g.allReduceOutPlace num tensor
  reduceScatter : ∀ (tensor : Tensor V) dim worldSize,
    (s.reduceScatter num tensor dim worldSize groupName : Dist V O (Tensor V)) = g.reduceScatterOutPlace num tensor dim
  allGather : ∀ (tensor : Tensor V) dim worldSize,
    (s.allGather num tensor dim worldSize groupName : Dist V O (Tensor V)) = g.allGatherOutPlace num tensor dim

/-- The three ops, called with this name, raise. -/
structure Raises (s : Interpreter) (groupName : String) (e : PyError) : Prop where
  allReduce : ∀ tensor : Tensor V, (s.allReduce num tensor groupName : Dist V O (Tensor V)) = Script.raise e
  reduceScatter : ∀ (tensor : Tensor V) dim worldSize,
    (s.reduceScatter num tensor dim worldSize groupName : Dist V O (Tensor V)) = Script.raise e
  allGather : ∀ (tensor : Tensor V) dim worldSize,
    (s.allGather num tensor dim worldSize groupName : Dist V O (Tensor V)) = Script.raise e

variable {num}

theorem dispatchesTo {s : Interpreter} {groupName : String} {g : GroupCoordinator} (h : s.findGroup groupName = .ok g) :
    s.DispatchesTo (O := O) num groupName g := by
  constructor
  · intro tensor
    rw [allReduce, h]
    rfl
  · intro tensor dim worldSize
    rw [reduceScatter, h]
    rfl
  · intro tensor dim worldSize
    rw [allGather, h]
    rfl

theorem raises {s : Interpreter} {groupName : String} {e : PyError} (h : s.findGroup groupName = .error e) :
    s.Raises (O := O) num groupName e := by
  constructor
  · intro tensor
    rw [allReduce, h]
    rfl
  · intro tensor dim worldSize
    rw [reduceScatter, h]
    rfl
  · intro tensor dim worldSize
    rw [allGather, h]
    rfl

/-- Every registered name shows a count that its base has passed, and identities are given
out in order. -/
structure Named (s : Interpreter) : Prop where
  shown : ∀ name id, s.state.groups.lookup name = some id →
    ∃ base n, name = numbered base n ∧ n < s.state.count base
  constructed : ∀ ref ∈ s.state.constructed, ref.id < s.state.nextId
  alive : ∀ id ∈ s.alive, id < s.state.nextId

theorem start_named (hoststagedTp : Option String) (dist : Option DefaultGroup) : (start hoststagedTp dist).Named := by
  constructor
  · intro name id h
    cases h
  · intro ref h
    cases h
  · intro id h
    cases h

/-- The name for a new object is not in use: the count it shows is still ahead. -/
theorem Named.lookup_uniqueName {s : Interpreter} (hs : s.Named) (groupName : Option String) :
    s.state.groups.lookup (s.state.uniqueName groupName) = none := by
  cases hlookup : s.state.groups.lookup (s.state.uniqueName groupName) with
  | none => rfl
  | some id =>
    obtain ⟨base, n, hname, hn⟩ := hs.shown _ _ hlookup
    obtain ⟨rfl, rfl⟩ := numbered_injective2 hname
    omega

private theorem count_init (useCustomOpCollectives : Bool) (args : InitArgs) (s : ModuleState) :
    (GroupCoordinator.init useCustomOpCollectives args s).2.count =
      Function.update s.count (groupNameOf args.groupName) (s.count (groupNameOf args.groupName) + 1) := by
  rw [← count_setKey]
  funext base
  rw [ModuleState.count, ModuleState.count, (init_registers useCustomOpCollectives args s).counter]

private theorem constructed_init {useCustomOpCollectives : Bool} {args : InitArgs} {s : ModuleState}
    {ref : CoordinatorRef} (h : ref ∈ (GroupCoordinator.init useCustomOpCollectives args s).2.constructed) :
    ref ∈ s.constructed ∨ ref.id = s.nextId := by
  have hr := init_registers useCustomOpCollectives args s
  cases hresult : (GroupCoordinator.init useCustomOpCollectives args s).1 with
  | error e =>
    rw [hr.error e hresult] at h
    exact .inl h
  | ok made =>
    obtain ⟨hc, hid, -⟩ := hr.ok made hresult
    rw [hc, List.mem_append, List.mem_singleton] at h
    rcases h with h | rfl
    · exact .inl h
    · exact .inr hid

theorem step_named {s : Interpreter} (hs : s.Named) (event : Event) : (s.step event).Named := by
  cases event with
  | construct useCustomOpCollectives args =>
    have hr := init_registers useCustomOpCollectives args s.state
    refine ⟨?_, ?_, ?_⟩
    · intro name id hlookup
      simp only [step] at hlookup ⊢
      rw [hr.groups, lookup_setKey] at hlookup
      rw [count_init]
      split at hlookup
      · rename_i hname
        refine ⟨_, _, hname, ?_⟩
        rw [Function.update_self]
        omega
      · obtain ⟨base, n, hname, hn⟩ := hs.shown name id hlookup
        refine ⟨base, n, hname, ?_⟩
        by_cases hb : base = groupNameOf args.groupName
        · subst hb
          rw [Function.update_self]
          omega
        · rwa [Function.update_of_ne hb]
    · intro ref href
      simp only [step] at href ⊢
      rw [hr.nextId]
      rcases constructed_init href with h | h
      · have := hs.constructed ref h
        omega
      · omega
    · intro id hid
      simp only [step] at hid ⊢
      rw [hr.nextId]
      rcases List.mem_append.mp hid with h | h
      · have := hs.alive id h
        omega
      · rw [List.mem_singleton.mp h]
        omega
  | collect id => exact ⟨hs.shown, hs.constructed, fun id' h => hs.alive id' (List.mem_filter.mp h).1⟩
  | environment hoststagedTp xpuHoststaged dist => exact ⟨hs.shown, hs.constructed, hs.alive⟩

theorem run_named {s : Interpreter} (hs : s.Named) (events : List Event) : (s.run events).Named := by
  induction events generalizing s with
  | nil => exact hs
  | cons event events ih => exact ih (step_named hs event)

/-- No registration replaces an entry. -/
theorem lookup_step {s : Interpreter} (hs : s.Named) (event : Event) {name : String} {id : Nat}
    (h : s.state.groups.lookup name = some id) : (s.step event).state.groups.lookup name = some id := by
  cases event with
  | construct useCustomOpCollectives args =>
    have hne : name ≠ s.state.uniqueName args.groupName := by
      rintro rfl
      rw [hs.lookup_uniqueName] at h
      cases h
    simp only [step]
    rw [(init_registers useCustomOpCollectives args s.state).groups, lookup_setKey, if_neg hne, h]
  | collect id => exact h
  | environment hoststagedTp xpuHoststaged dist => exact h

theorem lookup_run {s : Interpreter} (hs : s.Named) (events : List Event) {name : String} {id : Nat}
    (h : s.state.groups.lookup name = some id) : (s.run events).state.groups.lookup name = some id := by
  induction events generalizing s with
  | nil => exact h
  | cons event events ih => exact ih (step_named hs event) (lookup_step hs event h)

/-- What an object is stays as it is: later constructors make other objects. -/
theorem attributes_step (s : Interpreter) (event : Event) {id : Nat} (hid : id < s.state.nextId) :
    (s.step event).attributes id = s.attributes id ∧ id < (s.step event).state.nextId := by
  cases event with
  | construct useCustomOpCollectives args =>
    have hr := init_registers useCustomOpCollectives args s.state
    simp only [step, attributes]
    refine ⟨?_, by rw [hr.nextId]; omega⟩
    cases hresult : (GroupCoordinator.init useCustomOpCollectives args s.state).1 with
    | error e => rw [hr.error e hresult]
    | ok ref =>
      obtain ⟨hc, href, -⟩ := hr.ok ref hresult
      have hne : ref.id ≠ id := by omega
      rw [hc, List.find?_append]
      simp [hne]
  | collect id => exact ⟨rfl, hid⟩
  | environment hoststagedTp xpuHoststaged dist => exact ⟨rfl, hid⟩

theorem attributes_run (s : Interpreter) (events : List Event) {id : Nat} (hid : id < s.state.nextId) :
    (s.run events).attributes id = s.attributes id := by
  induction events generalizing s with
  | nil => rfl
  | cons event events ih =>
    obtain ⟨hsame, hlt⟩ := attributes_step s event hid
    exact (ih _ hlt).trans hsame

/-- An object is alive until it is collected. -/
theorem mem_alive_step (s : Interpreter) (event : Event) {id : Nat} (hid : id < s.state.nextId) :
    id ∈ (s.step event).alive ↔ id ∈ s.alive ∧ event ≠ .collect id := by
  cases event with
  | construct useCustomOpCollectives args =>
    have hne : id ≠ s.state.nextId := by omega
    simp [step, hne]
  | collect id' =>
    have hiff : id ≠ id' ↔ Event.collect id' ≠ .collect id := by
      constructor
      · intro h heq
        cases heq
        exact h rfl
      · rintro h rfl
        exact h rfl
    simp only [step, List.mem_filter, decide_eq_true_eq]
    rw [hiff]
  | environment hoststagedTp xpuHoststaged dist => simp [step]

theorem mem_alive_run (s : Interpreter) (events : List Event) {id : Nat} (hid : id < s.state.nextId) :
    id ∈ (s.run events).alive ↔ id ∈ s.alive ∧ .collect id ∉ events := by
  induction events generalizing s with
  | nil => simp [run]
  | cons event events ih =>
    rw [run, ih _ (attributes_step s event hid).2, mem_alive_step s event hid, List.mem_cons, not_or, and_assoc,
      ne_comm]

/-- The unique names of the objects under construction, one after the other. -/
def uniqueNames (s : Interpreter) : List Event → List String
  | [] => []
  | .construct useCustomOpCollectives args :: events =>
    s.state.uniqueName args.groupName :: (s.step (.construct useCustomOpCollectives args)).uniqueNames events
  | event :: events => (s.step event).uniqueNames events

/-- The bases that names are asked for. -/
def bases : List Event → List String
  | [] => []
  | .construct _ args :: events => groupNameOf args.groupName :: bases events
  | _ :: events => bases events

/-- The names come from the counters, whatever happens in between. -/
theorem uniqueNames_eq (s : Interpreter) (events : List Event) :
    s.uniqueNames events = freshKeys numbered (bases events) s.state.count := by
  induction events generalizing s with
  | nil => rfl
  | cons event events ih =>
    cases event with
    | construct useCustomOpCollectives args =>
      rw [uniqueNames, ih, bases, freshKeys, ← count_init useCustomOpCollectives]
      rfl
    | collect id => exact ih _
    | environment hoststagedTp xpuHoststaged dist => exact ih _

theorem uniqueNames_nodup (s : Interpreter) (events : List Event) : (s.uniqueNames events).Nodup := by
  rw [uniqueNames_eq]
  exact freshKeys_nodup numbered_injective2 _ _

/-- Only names that were handed out are registered. -/
theorem mem_uniqueNames_of_lookup {s : Interpreter} {events : List Event} {name : String} {id : Nat}
    (h : (s.run events).state.groups.lookup name = some id) :
    s.state.groups.lookup name = some id ∨ name ∈ s.uniqueNames events := by
  induction events generalizing s with
  | nil => exact .inl h
  | cons event events ih =>
    cases event with
    | construct useCustomOpCollectives args =>
      rw [uniqueNames, List.mem_cons]
      rcases ih h with hlookup | hmem
      · simp only [step] at hlookup
        rw [(init_registers useCustomOpCollectives args s.state).groups, lookup_setKey] at hlookup
        split at hlookup
        · rename_i hname
          exact .inr (.inl hname)
        · exact .inl hlookup
      · exact .inr (.inr hmem)
    | collect id => exact ih h
    | environment hoststagedTp xpuHoststaged dist => exact ih h

section Construction
variable {s : Interpreter} (useCustomOpCollectives : Bool) (args : InitArgs) (after : List Event)

private theorem lookup_construct (hs : s.Named) :
    ((s.step (.construct useCustomOpCollectives args)).run after).state.groups.lookup
      (s.state.uniqueName args.groupName) = some s.state.nextId := by
  refine lookup_run (step_named hs _) after ?_
  simp only [step]
  rw [(init_registers useCustomOpCollectives args s.state).groups, lookup_setKey, if_pos rfl]

private theorem nextId_lt_construct :
    s.state.nextId < (s.step (.construct useCustomOpCollectives args)).state.nextId := by
  simp only [step]
  rw [(init_registers useCustomOpCollectives args s.state).nextId]
  omega

private theorem alive_construct :
    s.state.nextId ∈ ((s.step (.construct useCustomOpCollectives args)).run after).alive ↔
      .collect s.state.nextId ∉ after := by
  rw [mem_alive_run _ _ (nextId_lt_construct _ _)]
  simp [step]

/-- The object is what the constructor returned, if it returned. -/
private theorem attributes_construct (hs : s.Named) :
    ((s.step (.construct useCustomOpCollectives args)).run after).attributes s.state.nextId =
      match (GroupCoordinator.init useCustomOpCollectives args s.state).1 with
      | .ok ⟨_, .group g _⟩ => .ok g
      | _ => .error .attributeError := by
  have hr := init_registers useCustomOpCollectives args s.state
  have hnone : s.state.constructed.find? (fun ref => ref.id = s.state.nextId) = none := by
    rw [List.find?_eq_none]
    intro ref href
    have := hs.constructed ref href
    simp only [decide_eq_true_eq]
    omega
  rw [attributes_run _ _ (nextId_lt_construct _ _)]
  simp only [step, attributes]
  cases hresult : (GroupCoordinator.init useCustomOpCollectives args s.state).1 with
  | error e => rw [hr.error e hresult, hnone]
  | ok ref =>
    obtain ⟨hc, hid, g, replaced, hg, -⟩ := hr.ok ref hresult
    obtain ⟨id, coordinator⟩ := ref
    subst hid hg
    rw [hc, List.find?_append, hnone]
    simp

end Construction

/-- Registered ops reach the coordinator that was named. Whatever coordinators are built,
under whatever names, and collected: no unique name is handed out twice, and no entry of
_groups is ever replaced. The name of a coordinator leads to it until it is collected, and
raises afterwards; a name that was not handed out raises. -/
theorem ops_reach_named_coordinator (hoststagedTp : Option String) (dist : Option DefaultGroup) (events : List Event) :
    let s := start hoststagedTp dist
    (s.uniqueNames events).Nodup ∧
    (∀ before after name id, events = before ++ after → (s.run before).state.groups.lookup name = some id →
      (s.run events).state.groups.lookup name = some id) ∧
    (∀ before useCustomOpCollectives args after, events = before ++ .construct useCustomOpCollectives args :: after →
      let t := (s.run before).state
      t.groups.lookup (t.uniqueName args.groupName) = none ∧
      (s.run events).state.groups.lookup (t.uniqueName args.groupName) = some t.nextId ∧
      (.collect t.nextId ∈ after → (s.run events).Raises (O := O) num (t.uniqueName args.groupName)
        (.valueError s!"Group {t.uniqueName args.groupName} is destroyed.")) ∧
      (.collect t.nextId ∉ after → match (GroupCoordinator.init useCustomOpCollectives args t).1 with
        | .ok ref => ∃ g replaced, ref = ⟨t.nextId, .group g replaced⟩ ∧ g.uniqueName = t.uniqueName args.groupName ∧
            (s.run events).DispatchesTo (O := O) num (t.uniqueName args.groupName) g
        | .error _ => (s.run events).Raises (O := O) num (t.uniqueName args.groupName) .attributeError)) ∧
    ∀ name, name ∉ s.uniqueNames events →
      (s.run events).Raises (O := O) num name (.assertionError s!"Group {name} is not found.") := by
  intro s
  have hs : s.Named := start_named hoststagedTp dist
  refine ⟨uniqueNames_nodup s events, ?_, ?_, ?_⟩
  · rintro before after name id rfl h
    rw [run_append]
    exact lookup_run (run_named hs before) after h
  · rintro before useCustomOpCollectives args after rfl
    have ht := run_named hs before
    have hrun : s.run (before ++ .construct useCustomOpCollectives args :: after) =
        ((s.run before).step (.construct useCustomOpCollectives args)).run after := run_append _ _ _
    have hlookup := lookup_construct useCustomOpCollectives args after ht
    have halive := alive_construct (s := s.run before) useCustomOpCollectives args after
    have hattributes := attributes_construct useCustomOpCollectives args after ht
    simp only []
    rw [hrun]
    refine ⟨ht.lookup_uniqueName _, hlookup, ?_, ?_⟩
    · intro hcollect
      apply raises
      rw [findGroup_of_some hlookup, if_neg fun h => halive.mp h hcollect]
    · intro hcollect
      have hfind := findGroup_of_some hlookup
      rw [if_pos (halive.mpr hcollect), hattributes] at hfind
      cases hresult : (GroupCoordinator.init useCustomOpCollectives args (s.run before).state).1 with
      | error e =>
        rw [hresult] at hfind
        exact raises hfind
      | ok ref =>
        obtain ⟨-, hid, g, replaced, hg, hname⟩ :=
          (init_registers useCustomOpCollectives args (s.run before).state).ok ref hresult
        obtain ⟨id, coordinator⟩ := ref
        subst hid hg
        rw [hresult] at hfind
        exact ⟨g, replaced, rfl, hname, dispatchesTo hfind⟩
  · intro name hname
    apply raises
    have hnone : (s.run events).state.groups.lookup name = none := by
      cases hlookup : (s.run events).state.groups.lookup name with
      | none => rfl
      | some id =>
        rcases mem_uniqueNames_of_lookup hlookup with h | h
        · cases h
        · exact absurd h hname
    exact findGroup_of_none hnone

end Interpreter
end B70DualTP.Coordinator
