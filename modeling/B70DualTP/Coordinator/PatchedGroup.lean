import B70DualTP.Coordinator.Lifecycle

/-! patch_tensor_parallel_group: when the with statement leaves the TP group and its flag as
they were, and when the flag is set only while a body is running. -/
namespace B70DualTP.Coordinator
open Library Torch Communicator

/-- Up to the yield. Returns old_tp_group. -/
def enterPatch (tpGroup : CoordinatorRef) : Life CoordinatorRef := do
  assert ((← Action.get).tpStatePatched = false) "Should not call when it's already patched"
  Action.modify fun s => { s with tpStatePatched := true }
  let oldTpGroup ← Setup.toLife getTpGroup
  Setup.toLife (Action.modify fun s => { s with tp := some tpGroup })
  return oldTpGroup

/-- The finally clause. -/
def leavePatch (oldTpGroup : CoordinatorRef) : Life Unit := do
  Action.modify fun s => { s with tpStatePatched := false }
  Setup.toLife (Action.modify fun s => { s with tp := some oldTpGroup })

/-- with patch_tensor_parallel_group(tp_group): body -/
def patchTensorParallelGroup {A : Type} (tpGroup : CoordinatorRef) (body : Life A) : Life A := do
  let oldTpGroup ← enterPatch tpGroup
  Action.tryFinally body (leavePatch oldTpGroup)

section Entry
variable {s : LifeState} (tpGroup : CoordinatorRef)

theorem enterPatch_patched (h : s.tpStatePatched = true) :
    enterPatch tpGroup s = (.error (.assertionError "Should not call when it's already patched"), s) := by
  rw [enterPatch, Action.bind_ok (Action.get_apply s)]
  apply Action.bind_error
  rw [h]
  rfl

private theorem enterPatch_unpatched (h : s.tpStatePatched = false) : enterPatch tpGroup s = (do
    let oldTpGroup ← Setup.toLife getTpGroup
    Setup.toLife (Action.modify fun s => { s with tp := some tpGroup })
    return oldTpGroup : Life CoordinatorRef) { s with tpStatePatched := true } := by
  have hassert : (Action.lift (assert (false = false) "Should not call when it's already patched") : Life Unit) s =
      (.ok (), s) := rfl
  rw [enterPatch, Action.bind_ok (Action.get_apply s), h, Action.liftM_eq, Action.bind_ok hassert]
  exact Action.bind_ok (Action.modify_apply _ s)

private theorem getTpGroup_apply (s : LifeState) : Setup.toLife getTpGroup s =
    (s.tp.elim (.error (.assertionError "tensor model parallel group is not initialized")) .ok, s) := by
  rw [Setup.toLife, Action.on, show getTpGroup s.toModuleState = _ from Holder.getter_apply (.slot (.of .tp)) _]
  rfl

theorem enterPatch_uninitialized (h : s.tpStatePatched = false) (htp : s.tp = none) :
    enterPatch tpGroup s =
      (.error (.assertionError "tensor model parallel group is not initialized"), { s with tpStatePatched := true }) := by
  rw [enterPatch_unpatched tpGroup h]
  apply Action.bind_error
  rw [getTpGroup_apply, htp]
  rfl

theorem enterPatch_enters {old : CoordinatorRef} (h : s.tpStatePatched = false) (htp : s.tp = some old) :
    enterPatch tpGroup s = (.ok old,
      { s with toModuleState := { s.toModuleState with tp := some tpGroup }, tpStatePatched := true }) := by
  have hlookup : Setup.toLife getTpGroup { s with tpStatePatched := true } =
      (.ok old, { s with tpStatePatched := true }) := by
    rw [getTpGroup_apply, htp]
    rfl
  rw [enterPatch_unpatched tpGroup h]
  exact Action.bind_ok hlookup

end Entry

/-- The action leaves the TP group and its flag as it finds them, however it ends. -/
def Transparent {A : Type} (m : Life A) (s : LifeState) : Prop :=
  (m s).2.tp = s.tp ∧ (m s).2.tpStatePatched = s.tpStatePatched

/-- The entry is refused, or finds a TP group that the exit can restore. -/
def PatchSafe (s : LifeState) : Prop := s.tpStatePatched = true ∨ s.tp.isSome = true

theorem patchTensorParallelGroup_transparent_iff {A : Type} (tpGroup : CoordinatorRef) (body : Life A) (s : LifeState) :
    Transparent (patchTensorParallelGroup tpGroup body) s ↔ PatchSafe s := by
  rw [Transparent, PatchSafe, patchTensorParallelGroup]
  cases hflag : s.tpStatePatched with
  | true =>
    rw [Action.bind_error (enterPatch_patched tpGroup hflag)]
    exact ⟨fun _ => .inl rfl, fun _ => ⟨rfl, hflag⟩⟩
  | false =>
    cases htp : s.tp with
    | none =>
      rw [Action.bind_error (enterPatch_uninitialized tpGroup hflag htp)]
      constructor
      · rintro ⟨-, hkept⟩
        cases hkept
      · rintro (h | h) <;> cases h
    | some old =>
      rw [Action.bind_ok (enterPatch_enters tpGroup hflag htp)]
      exact ⟨fun _ => .inr rfl, fun _ => ⟨rfl, rfl⟩⟩

/-- A process with the groups that the running bodies will restore, the innermost first. -/
structure PatchState extends LifeState where
  active : List CoordinatorRef

/-- What happens in a process, one event after the other. -/
inductive PatchEvent where
  | call (step : LifeStep)
  /-- A with statement is reached. -/
  | enter (tpGroup : CoordinatorRef)
  /-- The innermost body ends, normally or by an exception. -/
  | leave

def PatchEvent.run : PatchEvent → PatchState → PatchState
  | .call step, s => { s with toLifeState := (step.run s.toLifeState).2 }
  | .enter tpGroup, s => match enterPatch tpGroup s.toLifeState with
    | (.ok old, t) => ⟨t, old :: s.active⟩
    | (.error _, t) => ⟨t, s.active⟩
  | .leave, s => match s.active with
    | old :: active => ⟨(leavePatch old s.toLifeState).2, active⟩
    | [] => s

def runEvents (events : List PatchEvent) (s : PatchState) : PatchState := events.foldl (fun s event => event.run s) s

/-- The flag is set only while a body is running. -/
def PatchState.PatchedInside (s : PatchState) : Prop := s.tpStatePatched = true → s.active ≠ []

def PatchEvent.Safe : PatchEvent → PatchState → Prop
  | .enter _, s => PatchSafe s.toLifeState
  | _, _ => True

def SafeAlong : List PatchEvent → PatchState → Prop
  | [], _ => True
  | event :: events, s => event.Safe s ∧ SafeAlong events (event.run s)

/-- No function but the context manager sets the flag. -/
theorem LifeStep.run_tpStatePatched (step : LifeStep) (s : LifeState) :
    (step.run s).2.tpStatePatched = s.tpStatePatched := by
  suffices h : Action.Keeps (fun t : LifeState => t.tpStatePatched = s.tpStatePatched) step.run from h s rfl
  have hlife : ∀ {A : Type} (m : Setup A), Action.Keeps (fun t : LifeState => t.tpStatePatched = s.tpStatePatched)
      (Setup.toLife m) := fun m t ht => ht
  have hgroup : ∀ (env : LifeEnvironment) (group : Option CoordinatorRef),
      Action.Keeps (fun t : LifeState => t.tpStatePatched = s.tpStatePatched) (destroyGroup env group) :=
    fun env group => destroyGroup_keeps env (fun _ _ _ _ _ ht => ht) group
  obtain ⟨env, call⟩ := step
  cases call with
  | initDistributedEnvironment args => exact hlife _
  | initializeModelParallel args => exact hlife _
  | ensureModelParallelInitialized args => exact hlife _
  | replaceActiveGroups world dp ep eplb nodeCount =>
    refine Action.keeps_bind (hlife _) fun world => Action.keeps_bind (hlife _) fun dp => ?_
    refine Action.keeps_bind (hlife _) fun ep => Action.keeps_bind (hlife _) fun eplb => ?_
    refine Action.keeps_bind Action.keeps_get fun t => ?_
    exact Action.keeps_bind (destroyGroups_keeps env (hgroup env) _) fun _ => hlife _
  | destroyModelParallel => exact destroySlots_keeps env (hgroup env) (fun _ => hlife _) modelParallelSlots
  | destroyDistributedEnvironment =>
    refine Action.keeps_bind Action.keeps_get fun t => Action.keeps_bind (hgroup env _) fun _ => ?_
    exact Action.keeps_bind (hlife _) fun _ => destroyDefaultGroup_keeps env fun _ ht => ht

/-- At most one body runs, and the flag says whether one does. -/
def PatchState.Disciplined (s : PatchState) : Prop :=
  s.tpStatePatched = false ∧ s.active = [] ∨ s.tpStatePatched = true ∧ ∃ old, s.active = [old]

theorem PatchState.Disciplined.patchedInside {s : PatchState} (h : s.Disciplined) : s.PatchedInside := by
  intro hflag
  rcases h with ⟨hfalse, -⟩ | ⟨-, old, hold⟩
  · rw [hfalse] at hflag
    cases hflag
  · rw [hold]
    exact List.cons_ne_nil _ _

/-- A safe event keeps the discipline; an unsafe entry leaves the flag set outside any body. -/
theorem PatchEvent.run_disciplined {event : PatchEvent} {s : PatchState} (h : s.Disciplined) :
    (event.Safe s → (event.run s).Disciplined) ∧ ((event.run s).PatchedInside → event.Safe s) := by
  cases event with
  | call step =>
    refine ⟨fun _ => ?_, fun _ => trivial⟩
    have hflag : (step.run s.toLifeState).2.tpStatePatched = s.tpStatePatched := step.run_tpStatePatched _
    rw [PatchState.Disciplined, ← hflag] at h
    exact h
  | leave =>
    refine ⟨fun _ => ?_, fun _ => trivial⟩
    rcases h with ⟨hflag, hnone⟩ | ⟨hflag, old, hold⟩
    · rw [run, hnone]
      exact .inl ⟨hflag, hnone⟩
    · rw [run, hold]
      exact .inl ⟨rfl, rfl⟩
  | enter tpGroup =>
    rw [Safe, PatchSafe, run]
    rcases h with ⟨hflag, hnone⟩ | ⟨hflag, old, hold⟩
    · cases htp : s.tp with
      | none =>
        rw [enterPatch_uninitialized tpGroup hflag htp]
        constructor
        · rintro (h | h)
          · rw [hflag] at h
            cases h
          · cases h
        · intro h
          exact absurd hnone (h rfl)
      | some old =>
        rw [enterPatch_enters tpGroup hflag htp, hnone]
        exact ⟨fun _ => .inr ⟨rfl, old, rfl⟩, fun _ => .inr rfl⟩
    · rw [enterPatch_patched tpGroup hflag]
      exact ⟨fun _ => .inr ⟨hflag, old, hold⟩, fun _ => .inl hflag⟩

theorem runEvents_patchedInside_iff {events : List PatchEvent} {s : PatchState} (hs : s.Disciplined) :
    (∀ before, before <+: events → (runEvents before s).PatchedInside) ↔ SafeAlong events s := by
  induction events generalizing s with
  | nil =>
    refine ⟨fun _ => trivial, fun _ before hb => ?_⟩
    rw [List.prefix_nil.mp hb]
    exact hs.patchedInside
  | cons event events ih =>
    obtain ⟨hkeep, hsafe⟩ := event.run_disciplined hs
    constructor
    · intro h
      have hfirst : event.Safe s := hsafe (h [event] (List.prefix_append [event] events))
      refine ⟨hfirst, (ih (hkeep hfirst)).mp fun before hb => ?_⟩
      exact h (event :: before) (List.cons_prefix_cons.mpr ⟨rfl, hb⟩)
    · rintro ⟨hfirst, hrest⟩ before hb
      cases before with
      | nil => exact hs.patchedInside
      | cons event' before =>
        obtain ⟨rfl, hbefore⟩ := List.cons_prefix_cons.mp hb
        exact (ih (hkeep hfirst)).mpr hrest before hbefore

def PatchState.fresh (hoststagedTp : Option String) (dist : Option DefaultGroup) : PatchState where
  toLifeState := .fresh hoststagedTp dist
  active := []

/-- The with statement is transparent, whatever its body does, exactly when its entry is
safe. In a run the flag is set only while a body is running exactly when every entry is. -/
theorem patch_transparent_iff {A : Type} (tpGroup : CoordinatorRef) (body : Life A) (s : LifeState)
    (hoststagedTp : Option String) (dist : Option DefaultGroup) (events : List PatchEvent) :
    (Transparent (patchTensorParallelGroup tpGroup body) s ↔ PatchSafe s) ∧
      ((∀ before, before <+: events → (runEvents before (.fresh hoststagedTp dist)).PatchedInside) ↔
        SafeAlong events (.fresh hoststagedTp dist)) := by
  constructor
  · exact patchTensorParallelGroup_transparent_iff tpGroup body s
  · exact runEvents_patchedInside_iff (.inl ⟨rfl, rfl⟩)

def draftGroup : CoordinatorRef where
  id := 0
  coordinator := .group
    { uniqueName := "draft:0", rank := 0, ranks := [0], localRank := 0, rankInGroup := 0, rank_lt := Nat.one_pos,
      cpuGroup := ⟨1, "gloo", [0]⟩, deviceGroup := ⟨0, "gloo", [0]⟩, device := .accelerator .xpu 0,
      deviceCommunicator := none, mqBroadcaster := false, useCustomOpCall := true } true

/-- Before the groups are set up, the failed lookup leaves the flag set for good. -/
theorem uninitialized_patch_leaks :
    ¬ Transparent (patchTensorParallelGroup draftGroup (pure ())) (.fresh none none) ∧
      ¬ (runEvents [.enter draftGroup] (.fresh none none)).PatchedInside := by
  constructor
  · rintro ⟨-, hkept⟩
    cases hkept
  · intro h
    exact h rfl rfl

/-- Programs of module calls and with statements. -/
inductive PatchProgram where
  | call (step : LifeStep)
  | raise (e : PyError)
  | seq (first second : PatchProgram)
  /-- try: body, and go on after an exception. -/
  | attempt (body : PatchProgram)
  | patch (tpGroup : CoordinatorRef) (body : PatchProgram)

namespace PatchProgram

def run : PatchProgram → Life Unit
  | .call step => step.run
  | .raise e => Action.raise e
  | .seq first second => first.run >>= fun _ => second.run
  | .attempt body => fun s => (.ok (), (body.run s).2)
  | .patch tpGroup body => patchTensorParallelGroup tpGroup body.run

def trace : PatchProgram → LifeState → List PatchEvent
  | .call step, _ => [.call step]
  | .raise _, _ => []
  | .seq first second, s => first.trace s ++ match first.run s with
    | (.ok _, t) => second.trace t
    | (.error _, _) => []
  | .attempt body, s => body.trace s
  | .patch tpGroup body, s => .enter tpGroup :: match enterPatch tpGroup s with
    | (.ok _, t) => body.trace t ++ [.leave]
    | (.error _, _) => []

private theorem runEvents_append (events events' : List PatchEvent) (s : PatchState) :
    runEvents (events ++ events') s = runEvents events' (runEvents events s) := List.foldl_append

/-- The events do what the program does, and end the bodies that they start. -/
theorem runEvents_trace (program : PatchProgram) (s : LifeState) (active : List CoordinatorRef) :
    runEvents (program.trace s) ⟨s, active⟩ = ⟨(program.run s).2, active⟩ := by
  induction program generalizing s active with
  | call step => rfl
  | raise e => rfl
  | seq first second ihFirst ihSecond =>
    rw [trace, runEvents_append, ihFirst, run, Action.bind_apply]
    rcases hc : first.run s with ⟨e | a, t⟩
    · rfl
    · exact ihSecond t active
  | attempt body ih => exact ih s active
  | patch tpGroup body ih =>
    rw [trace, run, patchTensorParallelGroup, Action.bind_apply, runEvents, List.foldl_cons, PatchEvent.run]
    rcases hc : enterPatch tpGroup s with ⟨e | old, t⟩
    · rfl
    · have hbody : runEvents (body.trace t ++ [.leave]) ⟨t, old :: active⟩ =
          PatchEvent.run .leave ⟨(body.run t).2, old :: active⟩ := by
        rw [runEvents_append, ih]
        rfl
      exact hbody

end PatchProgram

/-- A flag that is set outside any body is never cleared. -/
theorem runEvents_leaked {events : List PatchEvent} {s : PatchState} (hflag : s.tpStatePatched = true)
    (hactive : s.active = []) : (runEvents events s).tpStatePatched = true := by
  induction events generalizing s with
  | nil => exact hflag
  | cons event events ih =>
    cases event with
    | call step => exact ih ((step.run_tpStatePatched _).trans hflag) hactive
    | enter tpGroup =>
      refine ih (s := PatchEvent.run (.enter tpGroup) s) ?_ ?_
      · rwa [PatchEvent.run, enterPatch_patched tpGroup hflag]
      · rwa [PatchEvent.run, enterPatch_patched tpGroup hflag]
    | leave =>
      refine ih (s := PatchEvent.run .leave s) ?_ ?_
      · rwa [PatchEvent.run, hactive]
      · rwa [PatchEvent.run, hactive]

/-- Outside all bodies the flag is cleared, unless an entry was not safe. -/
theorem runEvents_cleared_iff {events : List PatchEvent} {s : PatchState} (hs : s.Disciplined)
    (hactive : (runEvents events s).active = []) :
    (runEvents events s).tpStatePatched = false ↔ SafeAlong events s := by
  induction events generalizing s with
  | nil =>
    refine iff_of_true ?_ trivial
    rcases hs with ⟨hflag, -⟩ | ⟨-, old, hold⟩
    · exact hflag
    · cases hold.symm.trans hactive
  | cons event events ih =>
    by_cases hsafe : event.Safe s
    · have hrest := ih ((event.run_disciplined hs).1 hsafe) hactive
      exact hrest.trans ⟨fun h => ⟨hsafe, h⟩, And.right⟩
    · refine iff_of_false (fun hcleared => ?_) fun h => hsafe h.1
      -- an unsafe entry sets the flag and starts no body
      have hleaked : ¬ (event.run s).PatchedInside := mt (event.run_disciplined hs).2 hsafe
      rw [PatchState.PatchedInside, Classical.not_imp, not_not] at hleaked
      have hset : (runEvents events (event.run s)).tpStatePatched = true := runEvents_leaked hleaked.1 hleaked.2
      cases hcleared.symm.trans hset

/-- A program of module calls, exceptions and nested with statements is the run of its events, and
it leaves the flag cleared exactly when every entry on its way is safe. -/
theorem PatchProgram.cleared_iff (program : PatchProgram) (hoststagedTp : Option String) (dist : Option DefaultGroup) :
    (∀ active, runEvents (program.trace (.fresh hoststagedTp dist)) ⟨.fresh hoststagedTp dist, active⟩ =
        ⟨(program.run (.fresh hoststagedTp dist)).2, active⟩) ∧
      ((program.run (.fresh hoststagedTp dist)).2.tpStatePatched = false ↔
        SafeAlong (program.trace (.fresh hoststagedTp dist)) (.fresh hoststagedTp dist)) := by
  refine ⟨program.runEvents_trace _, ?_⟩
  have hrun : runEvents (program.trace (.fresh hoststagedTp dist)) (.fresh hoststagedTp dist) =
      ⟨(program.run (.fresh hoststagedTp dist)).2, []⟩ := program.runEvents_trace _ []
  have hcleared := runEvents_cleared_iff (.inl ⟨rfl, rfl⟩) (congrArg PatchState.active hrun)
  rwa [hrun] at hcleared

end B70DualTP.Coordinator
