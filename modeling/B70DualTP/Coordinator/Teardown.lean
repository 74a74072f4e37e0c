import B70DualTP.Library.Holding
import B70DualTP.Coordinator.Lifecycle
import B70DualTP.Coordinator.SetupInvariant

/-! Which runs of setting up, replacing and tearing down leave no global with a coordinator
that has been destroyed. -/
namespace B70DualTP.Coordinator
open Library Torch Communicator

/-- The coordinators that the globals hold, by identity. -/
def ModuleState.holding (s : ModuleState) (released : List Nat) : Holding Holder where
  holder h := (s.held h).map (·.id)
  next := s.nextId
  released := released

/-- The inner DP world may be the world group itself. -/
def Shares (h h' : Holder) : Prop := h = .world ∧ h' = .innerDpWorld ∨ h = .innerDpWorld ∧ h' = .world

section Updates
variable (s : ModuleState) (released : List Nat)

private theorem holding_setSlot (slot : Slot) (value : Option CoordinatorRef) :
    (s.setSlot slot value).holding released = (s.holding released).assign (.slot slot) (value.map (·.id)) := by
  apply Holding.ext
  · funext h
    rcases slot with (_ | _ | _ | _ | _ | _) | _ <;> rcases h with _ | _ | (_ | _ | _ | _ | _ | _) | _ <;> rfl
  · rcases slot with (_ | _ | _ | _ | _ | _) | _ <;> rfl
  · rfl

private theorem holding_world (value : Option CoordinatorRef) :
    ({ s with world := value } : ModuleState).holding released =
      (s.holding released).assign .world (value.map (·.id)) := by
  apply Holding.ext
  · funext h
    rcases h with _ | _ | (_ | _ | _ | _ | _ | _) | _ <;> rfl
  · rfl
  · rfl

private theorem holding_innerDpWorld (value : Option CoordinatorRef) :
    ({ s with innerDpWorld := value } : ModuleState).holding released =
      (s.holding released).assign .innerDpWorld (value.map (·.id)) := by
  apply Holding.ext
  · funext h
    rcases h with _ | _ | (_ | _ | _ | _ | _ | _) | _ <;> rfl
  · rfl
  · rfl

end Updates

theorem init_holding (useCustomOpCollectives : Bool) (args : InitArgs) (released : List Nat) (s : ModuleState) :
    (GroupCoordinator.init useCustomOpCollectives args s).2.holding released = (s.holding released).make ∧
      ∀ ref, (GroupCoordinator.init useCustomOpCollectives args s).1 = .ok ref → ref.id = s.nextId := by
  have hframe := (GroupCoordinator.init_constructs useCustomOpCollectives args s).frame
  obtain ⟨uniqueName, counter, groups, heq⟩ : ∃ uniqueName counter groups,
      GroupCoordinator.init useCustomOpCollectives args s =
        GroupCoordinator.construct useCustomOpCollectives args uniqueName s.nextId
          { s with groupNameCounter := counter, groups, nextId := s.nextId + 1 } := ⟨_, _, _, rfl⟩
  obtain ⟨hnext, hmade⟩ := construct_keeps (I := fun t => t.nextId = s.nextId + 1) (fun _ _ ht => ht)
    (fun _ _ ht => ht) (fun _ _ ht => ht) useCustomOpCollectives args uniqueName s.nextId
    { s with groupNameCounter := counter, groups, nextId := s.nextId + 1 } rfl trivial
  rw [← heq] at hnext hmade
  refine ⟨?_, fun ref href => (hmade ref href).1⟩
  apply Holding.ext
  · rw [hframe]
    funext h
    rcases h with _ | _ | (_ | _ | _ | _ | _ | _) | _ <;> rfl
  · exact hnext
  · rfl

theorem newStatelessGroup_holding (env : Environment) (groupRanks : List (List Nat)) (localRank : Int)
    (backend : Option String) (rank : Int) (released : List Nat) (s : ModuleState) :
    (∃ e s', newStatelessGroup env groupRanks localRank backend rank s = (.error e, s') ∧
        s'.holding released = s.holding released) ∨
      ∃ ref s', newStatelessGroup env groupRanks localRank backend rank s = (.ok ref, s') ∧ ref.id = s.nextId ∧
        s'.holding released = (s.holding released).make := by
  rw [newStatelessGroup]
  cases groupRanks.find? fun ranks => ranks.any fun r : Nat => (r : Int) = rank with
  | none => exact .inl ⟨_, s, rfl, rfl⟩
  | some ranks =>
    cases hrendezvous : env.statelessRendezvous ranks with
    | error e =>
      refine .inl ⟨e, s.request [⟨backend, ranks⟩], ?_, rfl⟩
      exact (Action.bind_ok (Action.modify_apply _ s)).trans (Action.bind_error (congrArg (·, _) hrendezvous))
    | ok u =>
      refine .inr ⟨_, _, (Action.bind_ok (Action.modify_apply _ s)).trans
        (Action.bind_ok (congrArg (·, _) hrendezvous)), rfl, rfl⟩

section Invariant
variable (released : List Nat)

/-- No global holds a released coordinator, and two of them hold one coordinator only when
they share it. -/
def Unstale (s : ModuleState) : Prop := (s.holding released).Sound Shares

/-- A finished coordinator that no global holds yet. -/
def Unassigned (ref : CoordinatorRef) (s : ModuleState) : Prop := (s.holding released).Loose ref.id

private theorem init_unstale (useCustomOpCollectives : Bool) (args : InitArgs) :
    Action.Triple (Unstale released) (fun _ => True) (GroupCoordinator.init useCustomOpCollectives args)
      (Unassigned released) := by
  intro s hs _
  obtain ⟨hmake, hid⟩ := init_holding useCustomOpCollectives args released s
  rw [Unstale, hmake]
  refine ⟨Holding.Sound.make hs, fun ref href => ?_⟩
  rw [Unassigned, hmake, hid ref href]
  exact Holding.Sound.loose_make hs

private theorem newStatelessGroup_unstale (env : Environment) (groupRanks : List (List Nat)) (localRank : Int)
    (backend : Option String) (rank : Int) :
    Action.Triple (Unstale released) (fun _ => True) (newStatelessGroup env groupRanks localRank backend rank)
      (Unassigned released) := by
  intro s hs _
  rcases newStatelessGroup_holding env groupRanks localRank backend rank released s with
    ⟨e, s', heq, hsame⟩ | ⟨ref, s', heq, hid, hmake⟩
  · rw [heq, Unstale, hsame]
    exact ⟨hs, fun ref href => by cases href⟩
  · rw [heq, Unstale, hmake]
    refine ⟨Holding.Sound.make hs, fun ref' href => ?_⟩
    cases href
    rw [Unassigned, hmake, hid]
    exact Holding.Sound.loose_make hs

def unstaleInvariant : SetupInvariant where
  Holds := Unstale released
  Made := Unassigned released
  request hs _ := hs
  dist hs _ := hs
  nodeCount hs _ := hs
  construct := init_unstale released
  stateless := newStatelessGroup_unstale released
  world {s ref} hs hmade := by
    rw [Unstale, holding_world]
    exact Holding.Sound.assign hs hmade .world
  innerDpWorld {s ref} hs hmade := by
    rw [Unstale, holding_innerDpWorld]
    exact Holding.Sound.assign hs hmade .innerDpWorld
  shareWorld {s} hs := by
    rw [Unstale, holding_innerDpWorld]
    apply Holding.Sound.copy hs (.inr ⟨rfl, rfl⟩) (.inl ⟨rfl, rfl⟩)
    rintro k (⟨-, rfl⟩ | ⟨h, -⟩)
    · rfl
    · cases h
  slot {s ref} hs hmade slot := by
    rw [Unstale, holding_setSlot]
    exact Holding.Sound.assign hs hmade (.slot slot)

end Invariant

section Destroying
variable {env : LifeEnvironment} {s : LifeState}

/-- Nothing that destroy() asks of torch, or of the stateless coordinator, raises. -/
def CoordinatorRef.Destroyable (env : LifeEnvironment) (s : LifeState) (ref : CoordinatorRef) : Prop :=
  match ref.coordinator with
  | .group g _ => (ref.id ∉ s.deviceGroupDeleted → env.destroyProcessGroup (some g.deviceGroup) = .ok ()) ∧
      (ref.id ∉ s.cpuGroupDeleted → env.destroyProcessGroup (some g.cpuGroup) = .ok ())
  | .stateless g => env.destroyStateless g = .ok ()

/-- From s to s', destroy() has been called on the objects listed, the last one first, and the
module is as it was. -/
structure Destroys (ids : List Nat) (s s' : LifeState) : Prop where
  module : s'.toModuleState = s.toModuleState
  destroyed : s'.destroyed = ids ++ s.destroyed
  deviceGroup : s.deviceGroupDeleted ⊆ s'.deviceGroupDeleted
  cpuGroup : s.cpuGroupDeleted ⊆ s'.cpuGroupDeleted

theorem Destroys.refl (s : LifeState) : Destroys [] s s := ⟨rfl, rfl, fun _ h => h, fun _ h => h⟩

theorem Destroys.trans {ids ids' : List Nat} {s s' s'' : LifeState} (h : Destroys ids s s')
    (h' : Destroys ids' s' s'') : Destroys (ids' ++ ids) s s'' where
  module := h'.module.trans h.module
  destroyed := by rw [h'.destroyed, h.destroyed, List.append_assoc]
  deviceGroup _ hid := h'.deviceGroup (h.deviceGroup hid)
  cpuGroup _ hid := h'.cpuGroup (h.cpuGroup hid)

theorem CoordinatorRef.Destroyable.mono {ref : CoordinatorRef} {s' : LifeState} (h : ref.Destroyable env s)
    (hdevice : s.deviceGroupDeleted ⊆ s'.deviceGroupDeleted) (hcpu : s.cpuGroupDeleted ⊆ s'.cpuGroupDeleted) :
    ref.Destroyable env s' := by
  rw [Destroyable] at h ⊢
  cases hc : ref.coordinator with
  | group g replaced =>
    simp only [hc] at h ⊢
    exact ⟨fun hid => h.1 fun hmem => hid (hdevice hmem), fun hid => h.2 fun hmem => hid (hcpu hmem)⟩
  | stateless g =>
    simp only [hc] at h ⊢
    exact h

private theorem deleteGroup_eq {group : ProcessGroup} {id : Nat} (deleted : LifeState → List Nat)
    (del : LifeState → LifeState) (h : id ∉ deleted s → env.destroyProcessGroup (some group) = .ok ())
    (hdel : Destroys [] s (del s)) :
    ∃ s', deleteGroup env group id deleted del s = (.ok (), s') ∧ Destroys [] s s' := by
  rw [deleteGroup, Action.bind_ok (Action.get_apply s)]
  by_cases hid : id ∉ deleted s
  · rw [if_pos hid]
    exact ⟨del s, Action.bind_ok (congrArg (·, s) (h hid)), hdel⟩
  · rw [if_neg hid]
    exact ⟨s, rfl, .refl s⟩

private theorem GroupCoordinator.destroy_eq {g : GroupCoordinator} {id : Nat}
    (hdevice : id ∉ s.deviceGroupDeleted → env.destroyProcessGroup (some g.deviceGroup) = .ok ())
    (hcpu : id ∉ s.cpuGroupDeleted → env.destroyProcessGroup (some g.cpuGroup) = .ok ()) :
    ∃ s', g.destroy env id s = (.ok (), s') ∧ Destroys [] s s' := by
  obtain ⟨s₁, hs₁, hfirst⟩ := deleteGroup_eq (·.deviceGroupDeleted)
    (fun s => { s with deviceGroupDeleted := id :: s.deviceGroupDeleted }) hdevice
    ⟨rfl, rfl, List.subset_cons_self _ _, fun _ h => h⟩
  obtain ⟨s₂, hs₂, hsecond⟩ := deleteGroup_eq (s := s₁) (·.cpuGroupDeleted)
    (fun s => { s with cpuGroupDeleted := id :: s.cpuGroupDeleted })
    (fun hid => hcpu fun hmem => hid (hfirst.cpuGroup hmem)) ⟨rfl, rfl, fun _ h => h, List.subset_cons_self _ _⟩
  have hboth : Destroys [] s s₂ := hfirst.trans hsecond
  rw [GroupCoordinator.destroy, Action.bind_ok hs₁, Action.bind_ok hs₂]
  by_cases hmq : g.mqBroadcaster = true
  · rw [if_pos hmq]
    exact ⟨_, rfl, ⟨hboth.module, hboth.destroyed, hboth.deviceGroup, hboth.cpuGroup⟩⟩
  · rw [if_neg hmq]
    exact ⟨s₂, rfl, hboth⟩

theorem CoordinatorRef.destroy_eq {ref : CoordinatorRef} (h : ref.Destroyable env s) :
    ∃ s', ref.destroy env s = (.ok (), s') ∧ Destroys [ref.id] s s' := by
  rw [CoordinatorRef.destroy, Action.bind_ok (Action.modify_apply _ s)]
  rw [CoordinatorRef.Destroyable] at h
  have hcalled : Destroys [ref.id] s { s with destroyed := ref.id :: s.destroyed } :=
    ⟨rfl, rfl, fun _ h => h, fun _ h => h⟩
  cases hc : ref.coordinator with
  | group g replaced =>
    simp only [hc] at h ⊢
    obtain ⟨s', hs', hrest⟩ :=
      GroupCoordinator.destroy_eq (s := { s with destroyed := ref.id :: s.destroyed }) h.1 h.2
    exact ⟨s', hs', hcalled.trans hrest⟩
  | stateless g =>
    simp only [hc] at h ⊢
    exact ⟨_, congrArg (·, _) h, hcalled⟩

def groupIds (group : Option CoordinatorRef) : List Nat := (group.map (·.id)).toList

theorem destroyGroup_eq {group : Option CoordinatorRef} (h : ∀ ref ∈ group, ref.Destroyable env s) :
    ∃ s', destroyGroup env group s = (.ok (), s') ∧ Destroys (groupIds group) s s' := by
  cases group with
  | none => exact ⟨s, rfl, .refl s⟩
  | some ref => exact CoordinatorRef.destroy_eq (h ref rfl)

theorem destroyGroups_eq {groups : List (Option CoordinatorRef)}
    (h : ∀ group ∈ groups, ∀ ref ∈ group, ref.Destroyable env s) :
    ∃ s', destroyGroups env groups s = (.ok (), s') ∧ Destroys (groups.reverse.flatMap groupIds) s s' := by
  induction groups generalizing s with
  | nil => exact ⟨s, rfl, .refl s⟩
  | cons group groups ih =>
    rw [List.forall_mem_cons] at h
    obtain ⟨hgroup, hgroups⟩ := h
    obtain ⟨s₁, hs₁, hfirst⟩ := destroyGroup_eq hgroup
    obtain ⟨s₂, hs₂, hrest⟩ := ih (s := s₁) fun group hmem ref href =>
      (hgroups group hmem ref href).mono hfirst.deviceGroup hfirst.cpuGroup
    refine ⟨s₂, ?_, ?_⟩
    · rw [destroyGroups, Action.bind_ok hs₁, hs₂]
    · rw [List.reverse_cons, List.flatMap_append, List.flatMap_singleton]
      exact hfirst.trans hrest

/-- No global holds a destroyed coordinator. -/
def LifeState.Sound (s : LifeState) : Prop := Unstale s.destroyed s.toModuleState

/-- The world group, if there is one, is not the inner DP world as well. -/
def LifeState.WorldUnshared (s : LifeState) : Prop := ∀ world ∈ s.world, ∀ inner ∈ s.innerDpWorld, world.id ≠ inner.id

theorem toLife_sound {A : Type} {m : Setup A} (h : ∀ released, Action.Keeps (Unstale released) m) :
    Action.Keeps LifeState.Sound (Setup.toLife m) := fun s hs => h s.destroyed s.toModuleState hs

theorem slot_setSlot (t : ModuleState) (slot slot' : Slot) (value : Option CoordinatorRef) :
    (t.setSlot slot value).slot slot' = if slot' = slot then value else t.slot slot' := by
  rcases slot with (_ | _ | _ | _ | _ | _) | _ <;> rcases slot' with (_ | _ | _ | _ | _ | _) | _ <;> rfl

theorem destroySlot_eq (hs : s.Sound) {slot : Slot} (h : ∀ ref ∈ s.slot slot, ref.Destroyable env s) :
    ∃ s', destroySlot env slot s = (.ok (), s') ∧ s'.Sound ∧ s'.toModuleState = s.toModuleState.setSlot slot none ∧
      s.deviceGroupDeleted ⊆ s'.deviceGroupDeleted ∧ s.cpuGroupDeleted ⊆ s'.cpuGroupDeleted := by
  obtain ⟨s₁, hs₁, hdestroys⟩ := destroyGroup_eq h
  refine ⟨{ s₁ with toModuleState := s₁.toModuleState.setSlot slot none }, ?_, ?_, ?_, hdestroys.deviceGroup,
    hdestroys.cpuGroup⟩
  · rw [destroySlot, Action.bind_ok (Action.get_apply s), Action.bind_ok hs₁]
    rfl
  · rw [LifeState.Sound, Unstale, hdestroys.module, hdestroys.destroyed, holding_setSlot]
    apply Holding.Sound.drop (h := .slot slot) hs
    rintro h' i (⟨hworld, -⟩ | ⟨hinner, -⟩)
    · cases hworld
    · cases hinner
  · exact congrArg (·.setSlot slot none) hdestroys.module

theorem destroySlots_sound {slots : List Slot} (hs : s.Sound)
    (h : ∀ slot ∈ slots, ∀ ref ∈ s.slot slot, ref.Destroyable env s) : (destroySlots env slots s).2.Sound := by
  induction slots generalizing s with
  | nil => exact hs
  | cons slot slots ih =>
    rw [List.forall_mem_cons] at h
    obtain ⟨hslot, hslots⟩ := h
    obtain ⟨s₁, hs₁, hsound, hmodule, hdevice, hcpu⟩ := destroySlot_eq hs hslot
    rw [destroySlots, Action.bind_ok hs₁]
    apply ih hsound
    intro slot' hmem ref href
    rw [hmodule, slot_setSlot] at href
    split at href
    · cases href
    · exact (hslots slot' hmem ref href).mono hdevice hcpu

theorem destroyModelParallel_sound (hs : s.Sound) (h : ∀ slot, ∀ ref ∈ s.slot slot, ref.Destroyable env s) :
    (destroyModelParallel env s).2.Sound := destroySlots_sound hs fun slot _ => h slot

theorem destroyDistributedEnvironment_sound (hs : s.Sound) (h : ∀ ref ∈ s.world, ref.Destroyable env s)
    (hunshared : s.WorldUnshared) : (destroyDistributedEnvironment env s).2.Sound := by
  obtain ⟨s₁, hs₁, hdestroys⟩ := destroyGroup_eq h
  let s₂ : LifeState := { s₁ with toModuleState := { s₁.toModuleState with world := none, nodeCount := none } }
  have hsound : s₂.Sound := by
    change Unstale s₁.destroyed { s₁.toModuleState with world := none, nodeCount := none }
    rw [Unstale, hdestroys.module, hdestroys.destroyed]
    have hdrop : ({ s.toModuleState with world := none, nodeCount := none } : ModuleState).holding
        (groupIds s.world ++ s.destroyed) = (s.toModuleState.holding s.destroyed).drop .world :=
      holding_world s.toModuleState (groupIds s.world ++ s.destroyed) none
    rw [hdrop]
    apply Holding.Sound.drop hs
    rintro h' i (⟨-, rfl⟩ | ⟨hinner, -⟩) hworld hother
    · obtain ⟨world, hw, rfl⟩ := Option.map_eq_some_iff.mp hworld
      obtain ⟨inner, hi, hsame⟩ := Option.map_eq_some_iff.mp hother
      exact hunshared world hw inner hi hsame.symm
    · cases hinner
  rw [destroyDistributedEnvironment, Action.bind_ok (Action.get_apply s), Action.bind_ok hs₁]
  exact destroyDefaultGroup_keeps env (fun t ht => ht) s₂ hsound

def ModuleState.built (t : ModuleState) : Option AnyCoordinator → ModuleState
  | some coordinator => { t with nextId := t.nextId + 1, constructed := t.constructed ++ [⟨t.nextId, coordinator⟩] }
  | none => t

private theorem buildGroup_eq (coordinator : Option AnyCoordinator) :
    Setup.toLife (buildGroup coordinator) s =
      (.ok (coordinator.map (⟨s.nextId, ·⟩)), { s with toModuleState := s.toModuleState.built coordinator }) := by
  cases coordinator <;> rfl

private theorem replaceActiveGroups_eq (world dp ep eplb : Option CoordinatorRef) (nodeCount : Option Nat)
    (h : ∀ group ∈ [s.dp, s.ep, s.world, s.eplb], ∀ ref ∈ group, ref.Destroyable env s) :
    (replaceActiveGroups env world dp ep eplb nodeCount s).2.toModuleState =
        { s.toModuleState with world, dp, ep, eplb, nodeCount } ∧
      (replaceActiveGroups env world dp ep eplb nodeCount s).2.destroyed =
        groupIds s.eplb ++ (groupIds s.world ++ (groupIds s.ep ++ (groupIds s.dp ++ s.destroyed))) := by
  obtain ⟨s₁, hs₁, hdestroys⟩ := destroyGroups_eq h
  rw [replaceActiveGroups, Action.bind_ok (Action.get_apply s), Action.bind_ok hs₁]
  constructor
  · exact congrArg (fun t : ModuleState => { t with world, dp, ep, eplb, nodeCount }) hdestroys.module
  · apply hdestroys.destroyed.trans
    simp

private theorem holding_replaced (t : ModuleState) (released : List Nat) (world dp ep eplb : Option AnyCoordinator)
    (nodeCount : Option Nat) :
    ({ (((t.built world).built dp).built ep).built eplb with
        world := world.map (⟨t.nextId, ·⟩)
        dp := dp.map (⟨(t.built world).nextId, ·⟩)
        ep := ep.map (⟨((t.built world).built dp).nextId, ·⟩)
        eplb := eplb.map (⟨(((t.built world).built dp).built ep).nextId, ·⟩)
        nodeCount } : ModuleState).holding
          (groupIds t.eplb ++ (groupIds t.world ++ (groupIds t.ep ++ (groupIds t.dp ++ released)))) =
      (((((((((t.holding released).drop (.slot (.of .dp))).drop (.slot (.of .ep))).drop .world).drop
        (.slot .eplb)).renew .world world.isSome).renew (.slot (.of .dp)) dp.isSome).renew
          (.slot (.of .ep)) ep.isSome).renew (.slot .eplb) eplb.isSome) := by
  apply Holding.ext
  · funext h
    rcases h with _ | _ | (_ | _ | _ | _ | _ | _) | _ <;> cases world <;> cases dp <;> cases ep <;> cases eplb <;> rfl
  · cases world <;> cases dp <;> cases ep <;> cases eplb <;> rfl
  · cases world <;> cases dp <;> cases ep <;> cases eplb <;> rfl

private theorem unshared_alone {o : Holding Holder}
    (h : ∀ i, o.holder .world = some i → o.holder .innerDpWorld ≠ some i) :
    ∀ h' i, Shares .world h' → o.holder .world = some i → o.holder h' ≠ some i := by
  rintro h' i (⟨-, rfl⟩ | ⟨hinner, -⟩) hworld
  · exact h i hworld
  · cases hinner

private theorem slot_alone (o : Holding Holder) (slot : Slot) :
    ∀ h' i, Shares (.slot slot) h' → o.holder (.slot slot) = some i → o.holder h' ≠ some i := by
  rintro h' i (⟨hworld, -⟩ | ⟨hinner, -⟩)
  · cases hworld
  · cases hinner

theorem LifeState.WorldUnshared.holding (h : s.WorldUnshared) (released : List Nat) (i : Nat)
    (hworld : (s.toModuleState.holding released).holder .world = some i) :
    (s.toModuleState.holding released).holder .innerDpWorld ≠ some i := by
  intro hinner
  obtain ⟨world, hw, rfl⟩ := Option.map_eq_some_iff.mp hworld
  obtain ⟨inner, hi, hsame⟩ := Option.map_eq_some_iff.mp hinner
  exact h world hw inner hi hsame.symm

theorem replaceActiveGroups_sound (hs : s.Sound) {world dp ep eplb : Option AnyCoordinator} (nodeCount : Option Nat)
    (h : ∀ group ∈ [s.dp, s.ep, s.world, s.eplb], ∀ ref ∈ group, ref.Destroyable env s)
    (hunshared : s.WorldUnshared) :
    ((LifeStep.mk env (.replaceActiveGroups world dp ep eplb nodeCount)).run s).2.Sound := by
  let t := (((s.toModuleState.built world).built dp).built ep).built eplb
  let s' : LifeState := { s with toModuleState := t }
  have hsame : s'.dp = s.dp ∧ s'.ep = s.ep ∧ s'.world = s.world ∧ s'.eplb = s.eplb := by
    cases world <;> cases dp <;> cases ep <;> cases eplb <;> exact ⟨rfl, rfl, rfl, rfl⟩
  obtain ⟨hdp, hep, hworld, heplb⟩ := hsame
  have h' : ∀ group ∈ [s'.dp, s'.ep, s'.world, s'.eplb], ∀ ref ∈ group, ref.Destroyable env s' := by
    rw [hdp, hep, hworld, heplb]
    exact fun group hmem ref href => (h group hmem ref href).mono (fun _ hid => hid) fun _ hid => hid
  obtain ⟨hmodule, hdestroyed⟩ := replaceActiveGroups_eq (s := s') (world.map (⟨s.nextId, ·⟩))
    (dp.map (⟨(s.toModuleState.built world).nextId, ·⟩)) (ep.map (⟨((s.toModuleState.built world).built dp).nextId, ·⟩))
    (eplb.map (⟨(((s.toModuleState.built world).built dp).built ep).nextId, ·⟩)) nodeCount h'
  have hrun : (LifeStep.mk env (.replaceActiveGroups world dp ep eplb nodeCount)).run s =
      replaceActiveGroups env (world.map (⟨s.nextId, ·⟩)) (dp.map (⟨(s.toModuleState.built world).nextId, ·⟩))
        (ep.map (⟨((s.toModuleState.built world).built dp).nextId, ·⟩))
        (eplb.map (⟨(((s.toModuleState.built world).built dp).built ep).nextId, ·⟩)) nodeCount s' := by
    refine (Action.bind_ok (buildGroup_eq world)).trans ((Action.bind_ok (buildGroup_eq dp)).trans ?_)
    exact (Action.bind_ok (buildGroup_eq ep)).trans (Action.bind_ok (buildGroup_eq eplb))
  rw [hrun, LifeState.Sound, hmodule, hdestroyed, hdp, hep, hworld, heplb, Unstale, holding_replaced]
  -- the old groups are dropped one after the other, and then the globals are renewed
  have hdrop := (Holding.Sound.drop hs (slot_alone _ (.of .dp))).drop (slot_alone _ (.of .ep))
  have hdrop' := (hdrop.drop (unshared_alone (hunshared.holding s.destroyed))).drop (slot_alone _ .eplb)
  exact (((hdrop'.renew _ _).renew _ _).renew _ _).renew _ _

end Destroying

/-- Nothing that the call destroys raises, and it does not destroy the world group while that
is also the inner DP world. -/
def LifeStep.TearsDownCleanly (step : LifeStep) (s : LifeState) : Prop :=
  match step.call with
  | .replaceActiveGroups .. =>
    (∀ group ∈ [s.dp, s.ep, s.world, s.eplb], ∀ ref ∈ group, ref.Destroyable step.env s) ∧ s.WorldUnshared
  | .destroyModelParallel => ∀ slot, ∀ ref ∈ s.slot slot, ref.Destroyable step.env s
  | .destroyDistributedEnvironment => (∀ ref ∈ s.world, ref.Destroyable step.env s) ∧ s.WorldUnshared
  | _ => True

/-- Each call tears down cleanly in the state that the calls before it lead to. -/
def TearDownCleanlyAlong : List LifeStep → LifeState → Prop
  | [], _ => True
  | step :: steps, s => step.TearsDownCleanly s ∧ TearDownCleanlyAlong steps (step.run s).2

theorem LifeStep.run_sound {step : LifeStep} {s : LifeState} (hs : s.Sound) (h : step.TearsDownCleanly s) :
    (step.run s).2.Sound := by
  obtain ⟨env, call⟩ := step
  cases call with
  | initDistributedEnvironment args =>
    exact toLife_sound (fun released => (unstaleInvariant released).initDistributedEnvironment_keeps _ args) s hs
  | initializeModelParallel args =>
    exact toLife_sound (fun released => (unstaleInvariant released).initializeModelParallel_keeps _ args) s hs
  | ensureModelParallelInitialized args =>
    exact toLife_sound (fun released => (unstaleInvariant released).ensureModelParallelInitialized_keeps _ args) s hs
  | replaceActiveGroups world dp ep eplb nodeCount => exact replaceActiveGroups_sound hs nodeCount h.1 h.2
  | destroyModelParallel => exact destroyModelParallel_sound hs h
  | destroyDistributedEnvironment => exact destroyDistributedEnvironment_sound hs h.1 h.2

theorem fresh_sound (hoststagedTp : Option String) (dist : Option DefaultGroup) :
    (LifeState.fresh hoststagedTp dist).Sound := by
  have hnone : ∀ h : Holder, (LifeState.fresh hoststagedTp dist).held h = none := by
    rintro (_ | _ | (_ | _ | _ | _ | _ | _) | _) <;> rfl
  have hempty : ∀ (h : Holder) (i : Nat),
      ((LifeState.fresh hoststagedTp dist).toModuleState.holding []).holder h ≠ some i := by
    intro h i hi
    obtain ⟨ref, href, -⟩ := Option.map_eq_some_iff.mp hi
    rw [hnone h] at href
    cases href
  exact ⟨fun hi => absurd hi (hempty _ _), fun hi => absurd hi (hempty _ _), fun hi => absurd hi List.not_mem_nil,
    fun hi => absurd hi (hempty _ _)⟩

/-- No getter returns a coordinator whose destroy() has been called. -/
def LifeState.NoStale (s : LifeState) : Prop :=
  ∀ (holder : Holder) (ref : CoordinatorRef), (holder.getter s.toModuleState).1 = .ok ref → ref.id ∉ s.destroyed

theorem LifeState.Sound.noStale {s : LifeState} (hs : s.Sound) : s.NoStale := by
  intro holder ref href
  rw [Holder.getter_apply] at href
  cases hheld : s.held holder with
  | none =>
    rw [hheld] at href
    cases href
  | some ref' =>
    rw [hheld] at href
    cases href
    have hid : (s.toModuleState.holding s.destroyed).holder holder = some ref.id :=
      congrArg (Option.map CoordinatorRef.id) hheld
    exact Holding.Sound.live hs hid

theorem runCalls_sound {steps : List LifeStep} {s : LifeState} (hs : s.Sound) (h : TearDownCleanlyAlong steps s) :
    ∀ before, before <+: steps → (runCalls before s).Sound := by
  induction steps generalizing s with
  | nil =>
    intro before hb
    rw [List.prefix_nil.mp hb]
    exact hs
  | cons step steps ih =>
    intro before hb
    cases before with
    | nil => exact hs
    | cons step' before =>
      obtain ⟨rfl, hbefore⟩ := List.cons_prefix_cons.mp hb
      exact ih (step'.run_sound hs h.1) h.2 before hbefore

section TornDown
variable {env : LifeEnvironment}

private theorem destroyGroup_module (env : LifeEnvironment) (group : Option CoordinatorRef) (s : LifeState) :
    (destroyGroup env group s).2.toModuleState = s.toModuleState := by
  suffices h : Action.Keeps (fun t : LifeState => t.toModuleState = s.toModuleState) (destroyGroup env group) from
    h s rfl
  exact destroyGroup_keeps env (fun _ _ _ _ _ ht => ht) group

def ModuleState.clearSlots (t : ModuleState) (slots : List Slot) : ModuleState :=
  slots.foldl (fun t slot => t.setSlot slot none) t

private theorem clearSlots_slot {slots : List Slot} {slot : Slot} {t : ModuleState}
    (h : slot ∈ slots ∨ t.slot slot = none) : (t.clearSlots slots).slot slot = none := by
  induction slots generalizing t with
  | nil =>
    rcases h with h | h
    · cases h
    · exact h
  | cons slot' slots ih =>
    apply ih
    rw [slot_setSlot]
    rcases h with h | h
    · rcases List.mem_cons.mp h with rfl | hmem
      · exact .inr (if_pos rfl)
      · exact .inl hmem
    · exact .inr (by rw [h, ite_self])

private theorem clearSlots_innerDpWorld (slots : List Slot) (t : ModuleState) :
    (t.clearSlots slots).innerDpWorld = t.innerDpWorld := by
  induction slots generalizing t with
  | nil => rfl
  | cons slot slots ih =>
    apply (ih (t.setSlot slot none)).trans
    rcases slot with (_ | _ | _ | _ | _ | _) | _ <;> rfl

private theorem destroySlots_returns {slots : List Slot} {s s' : LifeState}
    (h : destroySlots env slots s = (.ok (), s')) : s'.toModuleState = s.toModuleState.clearSlots slots := by
  induction slots generalizing s with
  | nil =>
    cases h
    rfl
  | cons slot slots ih =>
    obtain ⟨_, s₁, hslot, hrest⟩ := Action.bind_returns h
    rw [destroySlot, Action.bind_ok (Action.get_apply s)] at hslot
    obtain ⟨_, s₂, hdestroy, hclear⟩ := Action.bind_returns hslot
    have hmodule : s₂.toModuleState = s.toModuleState := by
      rw [← destroyGroup_module env (s.slot slot) s, hdestroy]
    have hcleared : s₁.toModuleState = s.toModuleState.setSlot slot none := by
      cases hclear
      exact congrArg (·.setSlot slot none) hmodule
    rw [ih hrest, hcleared]
    rfl

theorem destroyModelParallel_returns {s s' : LifeState} (h : destroyModelParallel env s = (.ok (), s')) :
    (∀ slot, s'.slot slot = none) ∧ s'.innerDpWorld = s.innerDpWorld := by
  have hmodule : s'.toModuleState = s.toModuleState.clearSlots modelParallelSlots := destroySlots_returns h
  rw [hmodule]
  refine ⟨fun slot => clearSlots_slot (.inl ?_), clearSlots_innerDpWorld _ _⟩
  rcases slot with (_ | _ | _ | _ | _ | _) | _ <;> decide

/-- destroy_distributed_environment() clears the world group and leaves the inner DP world. -/
theorem destroyDistributedEnvironment_returns {s s' : LifeState}
    (h : destroyDistributedEnvironment env s = (.ok (), s')) :
    s'.world = none ∧ s'.nodeCount = none ∧ s'.innerDpWorld = s.innerDpWorld ∧ ∀ slot, s'.slot slot = s.slot slot := by
  rw [destroyDistributedEnvironment, Action.bind_ok (Action.get_apply s)] at h
  obtain ⟨_, s₁, hdestroy, hrest⟩ := Action.bind_returns h
  have hmodule : s₁.toModuleState = s.toModuleState := by
    rw [← destroyGroup_module env s.world s, hdestroy]
  obtain ⟨_, s₂, hclear, hlast⟩ := Action.bind_returns hrest
  have hcleared : s₂.toModuleState = { s.toModuleState with world := none, nodeCount := none } := by
    cases hclear
    rw [← hmodule]
    rfl
  let Torn (t : LifeState) : Prop :=
    t.world = none ∧ t.nodeCount = none ∧ t.innerDpWorld = s.innerDpWorld ∧ ∀ slot, t.slot slot = s.slot slot
  have htorn : Torn s₂ := by
    change s₂.toModuleState.world = none ∧ s₂.toModuleState.nodeCount = none ∧
      s₂.toModuleState.innerDpWorld = s.innerDpWorld ∧ ∀ slot, s₂.toModuleState.slot slot = s.slot slot
    rw [hcleared]
    refine ⟨rfl, rfl, rfl, ?_⟩
    rintro ((_ | _ | _ | _ | _ | _) | _) <;> rfl
  have hkept : Torn (destroyDefaultGroup env s₂).2 := by
    refine destroyDefaultGroup_keeps env (fun t ht => ⟨ht.1, ht.2.1, ht.2.2.1, fun slot => ?_⟩) s₂ htorn
    rw [← ht.2.2.2 slot]
    rcases slot with (_ | _ | _ | _ | _ | _) | _ <;> rfl
  rwa [hlast] at hkept

/-- Every getter raises its assertion. -/
def LifeState.TornDown (s : LifeState) : Prop :=
  (∀ holder : Holder, (holder.getter s.toModuleState).1 = .error (.assertionError holder.notInitialized)) ∧
    (getNodeCount s.toModuleState).1 = .error (.assertionError "distributed environment is not initialized")

/-- The two teardowns clear everything but the inner DP world. -/
theorem tornDown_iff {env' : LifeEnvironment} {s s₁ s₂ : LifeState} (h₁ : destroyModelParallel env s = (.ok (), s₁))
    (h₂ : destroyDistributedEnvironment env' s₁ = (.ok (), s₂)) : s₂.TornDown ↔ s.innerDpWorld = none := by
  obtain ⟨hslots, hinner₁⟩ := destroyModelParallel_returns h₁
  obtain ⟨hworld, hcount, hinner₂, hsame⟩ := destroyDistributedEnvironment_returns h₂
  constructor
  · intro h
    have hraises := h.1 .innerDpWorld
    rw [Holder.getter_apply, ModuleState.held, hinner₂, hinner₁] at hraises
    cases hinner : s.innerDpWorld with
    | none => rfl
    | some ref =>
      rw [hinner] at hraises
      cases hraises
  · intro h
    refine ⟨fun holder => ?_, ?_⟩
    · have hheld : s₂.held holder = none := by
        rcases holder with _ | _ | slot
        · exact hworld
        · exact (hinner₂.trans hinner₁).trans h
        · exact (hsame slot).trans (hslots slot)
      rw [Holder.getter_apply, hheld]
      rfl
    · rw [getNodeCount, Action.bind_ok (Action.get_apply _), hcount]
      rfl

end TornDown

/-- In a run whose teardowns are clean no getter ever returns a destroyed coordinator. The two
teardowns after it leave every getter raising exactly when no inner DP world has been set. -/
theorem no_stale_group (hoststagedTp : Option String) (dist : Option DefaultGroup) (steps : List LifeStep)
    (h : TearDownCleanlyAlong steps (.fresh hoststagedTp dist)) :
    (∀ before, before <+: steps → (runCalls before (.fresh hoststagedTp dist)).NoStale) ∧
      ∀ env env' s₁ s₂, destroyModelParallel env (runCalls steps (.fresh hoststagedTp dist)) = (.ok (), s₁) →
        destroyDistributedEnvironment env' s₁ = (.ok (), s₂) →
          (s₂.TornDown ↔ (runCalls steps (.fresh hoststagedTp dist)).innerDpWorld = none) := by
  constructor
  · intro before hb
    exact (runCalls_sound (fresh_sound hoststagedTp dist) h before hb).noStale
  · intro env env' s₁ s₂ h₁ h₂
    exact tornDown_iff h₁ h₂

private theorem replica_destroyable (nnodesWithinDp : Nat) (s : LifeState) (ref : CoordinatorRef) :
    ref.Destroyable (replicaEnvironment nnodesWithinDp) s := by
  rw [CoordinatorRef.Destroyable]
  split
  · exact ⟨fun _ => rfl, fun _ => rfl⟩
  · rfl

def setUpNode : LifeStep := ⟨replicaEnvironment 1, .initDistributedEnvironment replicaArgs⟩
def replaceByNone : LifeStep := ⟨replicaEnvironment 1, .replaceActiveGroups none none none none none⟩

/-- Set up on one node, replace the active groups, and set up again. -/
theorem node_no_stale_group :
    (∀ before, before <+: [setUpNode, replaceByNone, setUpNode] → (runCalls before (.fresh none none)).NoStale) ∧
      ∀ env env' s₁ s₂,
        destroyModelParallel env (runCalls [setUpNode, replaceByNone, setUpNode] (.fresh none none)) = (.ok (), s₁) →
          destroyDistributedEnvironment env' s₁ = (.ok (), s₂) →
            (s₂.TornDown ↔
              (runCalls [setUpNode, replaceByNone, setUpNode] (.fresh none none)).innerDpWorld = none) := by
  apply no_stale_group
  have hnone : (setUpNode.run (.fresh none none)).2.innerDpWorld = none := by decide +kernel
  have hunshared : (setUpNode.run (.fresh none none)).2.WorldUnshared := by
    intro world _ inner hinner
    rw [hnone] at hinner
    cases hinner
  exact ⟨trivial, ⟨fun _ _ ref _ => replica_destroyable 1 _ ref, hunshared⟩, trivial, trivial⟩

def setUpTwoNodes : LifeStep := ⟨replicaEnvironment 2, .initDistributedEnvironment replicaArgs⟩
def tearDownTwoNodes : LifeStep := ⟨replicaEnvironment 2, .destroyDistributedEnvironment⟩

/-- On two nodes the world group is the inner DP world as well, which nothing clears. -/
theorem inner_dp_world_stale :
    (setUpTwoNodes.run (.fresh none none)).1 = .ok () ∧
      (tearDownTwoNodes.run (runCalls [setUpTwoNodes] (.fresh none none))).1 = .ok () ∧
        ¬ (runCalls [setUpTwoNodes, tearDownTwoNodes] (.fresh none none)).NoStale := by
  refine ⟨by decide +kernel, by decide +kernel, fun h => ?_⟩
  have hstale : ∃ ref ∈ (runCalls [setUpTwoNodes, tearDownTwoNodes] (.fresh none none)).innerDpWorld,
      ref.id ∈ (runCalls [setUpTwoNodes, tearDownTwoNodes] (.fresh none none)).destroyed := by decide +kernel
  obtain ⟨ref, href, hdestroyed⟩ := hstale
  apply h .innerDpWorld ref ?_ hdestroyed
  rw [Holder.getter_apply, ModuleState.held]
  rw [Option.mem_def.mp href]
  rfl

end B70DualTP.Coordinator
