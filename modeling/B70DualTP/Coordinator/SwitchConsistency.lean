import B70DualTP.Coordinator.ModuleState

/-! The host-staging switch is read twice: at the first import of xpu_communicator and at
every construction of a GroupCoordinator. When do the two readings agree? -/
namespace B70DualTP.Coordinator
open Library Torch Communicator

/-- What a process may do between communications. -/
inductive SwitchStep where
  /-- Set the environment variable, or unset it. -/
  | setEnv (value : Option String)
  | importXpuCommunicator
  | construct (useCustomOpCollectives : Bool) (args : InitArgs)
  deriving DecidableEq, Repr

def SwitchStep.run : SwitchStep → ModuleState → ModuleState
  | .setEnv value, s => { s with hoststagedTp := value }
  | .importXpuCommunicator, s => (Coordinator.importXpuCommunicator s).2
  | .construct useCustomOpCollectives args, s => (GroupCoordinator.init useCustomOpCollectives args s).2

def runSteps (steps : List SwitchStep) (s : ModuleState) : ModuleState := steps.foldl (fun s step => step.run s) s

/-- The communicator stages through the host exactly when gloo replaced the backend of
its device group. -/
def AnyCoordinator.SwitchAgrees : AnyCoordinator → Prop
  | .group g replaced => ∀ comm ∈ g.deviceCommunicator, comm.hoststaged = true ↔ replaced = true
  | .stateless _ => True

def ModuleState.SwitchConsistent (s : ModuleState) : Prop := ∀ ref ∈ s.constructed, ref.coordinator.SwitchAgrees

/-- A construction that gets a communicator reads the flag as the module has it. -/
def SwitchStep.ReadsAlike : SwitchStep → ModuleState → Prop
  | .construct _ args, s => s.createsCommunicator args = true → s.latched = s.hoststaged
  | _, _ => True

/-- Each step reads alike in the state that the steps before it lead to. -/
def ReadAlikeAlong : List SwitchStep → ModuleState → Prop
  | [], _ => True
  | step :: steps, s => step.ReadsAlike s ∧ ReadAlikeAlong steps (step.run s)

private theorem importXpuCommunicator_constructed (s : ModuleState) :
    (importXpuCommunicator s).2.constructed = s.constructed := by rw [importXpuCommunicator_eq]

private theorem switchAgrees_group_iff {g : GroupCoordinator} {replaced creates latched : Bool}
    (h : g.deviceCommunicator.map (·.hoststaged) = if creates then some latched else none) :
    (AnyCoordinator.group g replaced).SwitchAgrees ↔ (creates = true → latched = replaced) := by
  simp only [AnyCoordinator.SwitchAgrees]
  cases creates with
  | false =>
    have hnone : g.deviceCommunicator = none := by simpa using h
    simp [hnone]
  | true =>
    obtain ⟨comm, hcomm, hflag⟩ := Option.map_eq_some_iff.mp h
    simp [hcomm, hflag, Bool.coe_iff_coe]

theorem SwitchStep.run_consistent_iff (step : SwitchStep) (s : ModuleState) :
    (step.run s).SwitchConsistent ↔ s.SwitchConsistent ∧ step.ReadsAlike s := by
  cases step with
  | setEnv value => simp [run, ReadsAlike, ModuleState.SwitchConsistent]
  | importXpuCommunicator =>
    simp [run, ReadsAlike, ModuleState.SwitchConsistent, importXpuCommunicator_constructed]
  | construct useCustomOpCollectives args =>
    have h := GroupCoordinator.init_constructs useCustomOpCollectives args s
    simp only [run, ReadsAlike, ModuleState.SwitchConsistent]
    cases hr : (GroupCoordinator.init useCustomOpCollectives args s).1 with
    | error e =>
      obtain ⟨hsame, hcreates⟩ := h.error e hr
      simp [hsame, hcreates]
    | ok ref =>
      obtain ⟨hadded, g, _, hg, -, -, -, -, hcomm⟩ := h.ok ref hr
      rw [hadded, List.forall_mem_append, List.forall_mem_singleton, hg, switchAgrees_group_iff hcomm]

/-- In every state of a run the communicators agree with their coordinators exactly when
every construction of the run reads the flag as the imported module has it. -/
theorem switch_consistent_iff (hoststagedTp : Option String) (dist : Option DefaultGroup)
    (steps : List SwitchStep) :
    (∀ before, before <+: steps → (runSteps before (.fresh hoststagedTp dist)).SwitchConsistent) ↔
      ReadAlikeAlong steps (.fresh hoststagedTp dist) := by
  suffices h : ∀ s : ModuleState, s.SwitchConsistent →
      ((∀ before, before <+: steps → (runSteps before s).SwitchConsistent) ↔ ReadAlikeAlong steps s) from
    h _ (fun _ h => by cases h)
  induction steps with
  | nil =>
    intro s hs
    refine ⟨fun _ => trivial, fun _ before hb => ?_⟩
    rw [List.prefix_nil.mp hb]
    exact hs
  | cons step steps ih =>
    intro s hs
    have hstep := step.run_consistent_iff s
    constructor
    · intro h
      have hnext : (step.run s).SwitchConsistent := h [step] (by simp)
      exact ⟨(hstep.mp hnext).2, (ih _ hnext).mp fun before hb => h (step :: before) (by simpa using hb)⟩
    · rintro ⟨hreads, hrest⟩ before hb
      have hnext := hstep.mpr ⟨hs, hreads⟩
      cases before with
      | nil => exact hs
      | cons step' before =>
        obtain ⟨rfl, hbefore⟩ := List.cons_prefix_cons.mp hb
        exact (ih _ hnext).mpr hrest before hbefore

def pairInitArgs : InitArgs := ⟨[[0, 1]], 0, some "xccl", true, true, some "tp"⟩

/-- The module is imported before the flag is set and the group is made. -/
theorem late_flag_inconsistent :
    ¬ (runSteps [.importXpuCommunicator, .setEnv (some "1"), .construct true pairInitArgs]
      (.fresh none (some ⟨2, 0, "xccl"⟩))).SwitchConsistent := by
  intro h
  have hreads := ((SwitchStep.construct true pairInitArgs).run_consistent_iff
    (runSteps [.importXpuCommunicator, .setEnv (some "1")] (.fresh none (some ⟨2, 0, "xccl"⟩)))).mp h
  exact absurd (hreads.2 (by decide)) (by decide)

end B70DualTP.Coordinator
