import B70DualTP.Communicator.Gathering
import B70DualTP.Coordinator.GroupCoordinator

/-! The fake implementations that tracing uses, against the registered ops they stand for. -/
namespace B70DualTP.Coordinator
open Library Torch Communicator
variable {V : Type} (num : Numerics V)

/-- list[i] = a -/
def setItem {α : Type} (l : List α) (i : Int) (a : α) : Py (List α) :=
  match wrapIndex l.length i with
  | some k => .ok (l.set k a)
  | none => .error .indexError

def allReduceFake (tensor : Tensor V) (_groupName : String) : Py (Tensor V) :=
  .ok (.empty num tensor.shape tensor.dtype tensor.device)

def reduceScatterFake (tensor : Tensor V) (dim : Int) (worldSize : Nat) (_groupName : String) : Py (Tensor V) := do
  let n ← getItem tensor.shape dim
  let newShape ← setItem tensor.shape dim (n / worldSize)
  return .empty num newShape tensor.dtype tensor.device

def allGatherFake (tensor : Tensor V) (dim : Int) (worldSize : Nat) (_groupName : String) : Py (Tensor V) := do
  let n ← getItem tensor.shape dim
  let newShape ← setItem tensor.shape dim (n * worldSize)
  return .empty num newShape tensor.dtype tensor.device

/-- The registered ops, with the axis they work on. -/
inductive CustomOp where
  | allReduce
  | allGather (dim : Int)
  | reduceScatter (dim : Int)
  deriving DecidableEq, Repr

namespace CustomOp

def real (groups : Groups) (worldSize : Nat) (groupName : String) (tensor : Tensor V) :
    CustomOp → Dist V Unit (Tensor V)
  | .allReduce => Coordinator.allReduce num groups tensor groupName
  | .allGather dim => Coordinator.allGather num groups tensor dim worldSize groupName
  | .reduceScatter dim => Coordinator.reduceScatter num groups tensor dim worldSize groupName

def fake (worldSize : Nat) (groupName : String) (tensor : Tensor V) : CustomOp → Py (Tensor V)
  | .allReduce => allReduceFake num tensor groupName
  | .allGather dim => allGatherFake num tensor dim worldSize groupName
  | .reduceScatter dim => reduceScatterFake num tensor dim worldSize groupName

def direct (self : XpuCommunicator) (tensor : Tensor V) : CustomOp → Dist V Unit (Tensor V)
  | .allReduce => self.allReduce num tensor
  | .allGather dim => self.allGather num tensor dim
  | .reduceScatter dim => self.reduceScatter num tensor dim

/-- The arguments that the op is meant for: an existing axis, divisible when it is scattered. -/
def Valid (worldSize : Nat) (s : List Nat) : CustomOp → Prop
  | .allReduce => 1 ≤ s.length
  | .allGather dim => -(s.length : Int) ≤ dim ∧ dim < s.length
  | .reduceScatter dim => (-(s.length : Int) ≤ dim ∧ dim < s.length) ∧
    ∀ n, getItem s dim = .ok n → n % worldSize = 0

/-- The condition on the shape: for reduce_scatter, the lengths of the axes up to the
requested one do not change when they are rotated by two places. -/
def Cyclic (s : List Nat) : CustomOp → Prop
  | .allReduce | .allGather _ => True
  | .reduceScatter dim => ∀ d, wrapIndex s.length dim = some d → CyclicUpTo d s

section Agreement
variable {num} {cpuGroup deviceGroup : ProcessGroup} {device : Fin cpuGroup.ranks.length → Device}
  {uniqueName : String} {hoststaged : Bool} {s : List Nat} {dt : DType}
  {x : Fin cpuGroup.ranks.length → Tensor V}

/-- The op returns on every rank, with the shape and dtype of its fake. -/
def FakeAgrees (num : Numerics V) (cpuGroup : ProcessGroup) (groups : Fin cpuGroup.ranks.length → Groups)
    (groupName : String) (x : Fin cpuGroup.ranks.length → Tensor V) (op : CustomOp) : Prop :=
  Script.Completes (meaning num)
    (fun r => op.real num (groups r) cpuGroup.ranks.length groupName (x r)) fun y =>
      ∀ r, ∃ f, op.fake num cpuGroup.ranks.length groupName (x r) = .ok f ∧
        (y r).shape = f.shape ∧ (y r).dtype = f.dtype

private theorem axis_of_dim (hx : Uniform s dt x) {dim : Int} (h : -(s.length : Int) ≤ dim ∧ dim < s.length)
    (hW : 0 < cpuGroup.ranks.length) :
    ∃ d, d < s.length ∧ (∀ r, normDim (x r) dim = d) ∧ wrapIndex s.length dim = some d := by
  have hshape : ∀ r, (x r).shape = s := fun r => (hx r).1
  obtain ⟨d, hd, -, hwrap⟩ := normDim_eq (t := x ⟨0, hW⟩) (by rwa [hshape])
  rw [hshape] at hd hwrap
  refine ⟨d, hd, fun r => ?_, hwrap⟩
  obtain ⟨d', -, hdim, hwrap'⟩ := normDim_eq (t := x r) (by rwa [hshape])
  rw [hshape, hwrap] at hwrap'
  rw [hdim, Option.some.inj hwrap']

private theorem real_eq_direct {groups : Fin cpuGroup.ranks.length → Groups} {groupName : String}
    (hgroups : ∀ r, ∃ group, groups r groupName = some (some group) ∧ group.deviceCommunicator =
      some (groupMember cpuGroup deviceGroup device uniqueName hoststaged r)) (op : CustomOp)
    (r : Fin cpuGroup.ranks.length) :
    op.real num (groups r) cpuGroup.ranks.length groupName (x r) =
      op.direct num (groupMember cpuGroup deviceGroup device uniqueName hoststaged r) (x r) := by
  obtain ⟨group, hfind, hcomm⟩ := hgroups r
  have hgroup : findGroup (groups r) groupName = .ok group := by rw [findGroup, hfind]
  have hmember : group.communicator = .ok (groupMember cpuGroup deviceGroup device uniqueName hoststaged r) := by
    rw [GroupCoordinator.communicator, hcomm]
  cases op <;>
    simp only [real, direct, Coordinator.allReduce, Coordinator.allGather, Coordinator.reduceScatter,
      GroupCoordinator.allReduceOutPlace, GroupCoordinator.allGatherOutPlace,
      GroupCoordinator.reduceScatterOutPlace, hgroup, Script.liftM_eq, Script.lift_ok, pure_bind, hmember]

theorem reduceScatter_fakeAgrees {groups : Fin cpuGroup.ranks.length → Groups} {groupName : String}
    [NeZero cpuGroup.ranks.length] (hx : Uniform s dt x) {dim : Int} {d : Nat} (hd : d < s.length)
    (hdim : ∀ r, normDim (x r) dim = d) (hwrap : wrapIndex s.length dim = some d)
    (hgroups : ∀ r, ∃ group, groups r groupName = some (some group) ∧ group.deviceCommunicator =
      some (groupMember cpuGroup deviceGroup device uniqueName hoststaged r))
    (hfront : (moveAxis 0 d s).headD 0 % cpuGroup.ranks.length = 0) :
    FakeAgrees num cpuGroup groups groupName x (.reduceScatter dim) ↔
      scatteredShape cpuGroup.ranks.length d s = s.set d (s[d] / cpuGroup.ranks.length) := by
  have hshape : ∀ r, (x r).shape = s := fun r => (hx r).1
  have hfake : ∀ r, fake num cpuGroup.ranks.length groupName (x r) (.reduceScatter dim) =
      .ok (.empty num (s.set d (s[d] / cpuGroup.ranks.length)) (x r).dtype (x r).device) := by
    intro r
    simp only [fake, reduceScatterFake, hshape, getItem_of_wrapIndex hwrap hd, setItem, hwrap]
    rfl
  simp only [FakeAgrees, real_eq_direct hgroups]
  apply (reduceScatter_completes hoststaged hx hd hdim hfront).and_iff
  intro y hy
  constructor
  · intro h
    obtain ⟨f, hf, hs, -⟩ := h 0
    rw [hfake 0] at hf
    cases hf
    exact (hy 0).1.symm.trans hs
  · intro h r
    exact ⟨_, hfake r, (hy r).1.trans h, (hy r).2.trans (hx r).2.symm⟩

/-- A traced shape is the real one on every rank exactly when the op is not a
reduce_scatter along an axis whose predecessors break the rotation. -/
theorem fakeAgrees_iff {groups : Fin cpuGroup.ranks.length → Groups} {groupName : String} {op : CustomOp}
    (hW : 2 ≤ cpuGroup.ranks.length) (hx : Uniform s dt x) (hop : op.Valid cpuGroup.ranks.length s)
    (hgroups : ∀ r, ∃ group, groups r groupName = some (some group) ∧ group.deviceCommunicator =
      some (groupMember cpuGroup deviceGroup device uniqueName hoststaged r)) :
    op.FakeAgrees num cpuGroup groups groupName x ↔ op.Cyclic s := by
  have : NeZero cpuGroup.ranks.length := ⟨by omega⟩
  have hshape : ∀ r, (x r).shape = s := fun r => (hx r).1
  cases op with
  | allReduce =>
    simp only [FakeAgrees, real_eq_direct hgroups]
    refine (allReduce_completes hoststaged hx).and_iff fun y hy => iff_of_true (fun r => ?_) trivial
    exact ⟨_, rfl, (hy r).1.trans (hshape r).symm, (hy r).2.trans (hx r).2.symm⟩
  | allGather dim =>
    obtain ⟨d, hd, hdim, hwrap⟩ := axis_of_dim hx hop (by omega)
    simp only [FakeAgrees, real_eq_direct hgroups]
    refine (allGather_completes hoststaged hx hd hdim).and_iff fun y hy => iff_of_true (fun r => ?_) trivial
    refine ⟨.empty num (s.set d (s[d] * cpuGroup.ranks.length)) (x r).dtype (x r).device, ?_, (hy r).1, ?_⟩
    · simp only [fake, allGatherFake, hshape, getItem_of_wrapIndex hwrap hd, setItem, hwrap]
      rfl
    · exact (hy r).2.trans (hx r).2.symm
  | reduceScatter dim =>
    obtain ⟨d, hd, hdim, hwrap⟩ := axis_of_dim hx hop.1 (by omega)
    have hdvd : s[d] % cpuGroup.ranks.length = 0 := hop.2 _ (getItem_of_wrapIndex hwrap hd)
    have hcyc : Cyclic s (.reduceScatter dim) ↔ CyclicUpTo d s := by
      simp only [Cyclic, hwrap, Option.some.injEq, forall_eq']
    rw [hcyc]
    by_cases hfront : (moveAxis 0 d s).headD 0 % cpuGroup.ranks.length = 0
    · exact (reduceScatter_fakeAgrees hx hd hdim hwrap hgroups hfront).trans
        (scatteredShape_eq_iff hd hdvd hfront)
    · -- every rank raises, and a cyclic shape would have been divisible
      simp only [FakeAgrees, real_eq_direct hgroups]
      refine iff_of_false (Script.not_completes_of_raises (reduceScatter_raises hoststaged hx hd hdim hfront))
        fun h => hfront ?_
      rw [front_eq_of_cyclic hd h]
      exact hdvd

private theorem pairGroups_find (r : Fin 2) : ∃ group, pairGroups r "tp:0" = some (some group) ∧
    group.deviceCommunicator = some (groupMember pairCpuGroup pairDeviceGroup pairDevice "tp:0" true r) :=
  ⟨pairCoordinator r, rfl, rfl⟩

def tracedInput (s : List Nat) (r : Fin 2) : Tensor Int := .empty intNumerics s .float16 (pairDevice r)

private theorem tracedInput_uniform (s : List Nat) : Uniform s .float16 (tracedInput s) := fun _ => ⟨rfl, rfl⟩

/-- A matrix scattered along its last axis is traced correctly. -/
theorem fakeAgrees_matrix : FakeAgrees intNumerics pairCpuGroup pairGroups "tp:0"
    (tracedInput [4, 6]) (.reduceScatter (-1)) := by
  have hW : 2 ≤ pairCpuGroup.ranks.length := by decide
  have hop : Valid pairCpuGroup.ranks.length [4, 6] (.reduceScatter (-1)) := by
    refine ⟨by decide, fun n hn => ?_⟩
    cases hn
    rfl
  apply (fakeAgrees_iff hW (tracedInput_uniform [4, 6]) hop pairGroups_find).mpr
  intro d hd
  cases hd
  decide

/-- Three axes: the real reduce_scatter along the last one returns shape [6, 2, 2], the
fake says [2, 4, 3]. -/
theorem not_fakeAgrees_cube : ¬ FakeAgrees intNumerics pairCpuGroup pairGroups "tp:0"
    (tracedInput [2, 4, 6]) (.reduceScatter (-1)) := by
  have : NeZero pairCpuGroup.ranks.length := ⟨by decide⟩
  have hiff : FakeAgrees intNumerics pairCpuGroup pairGroups "tp:0" (tracedInput [2, 4, 6]) (.reduceScatter (-1)) ↔
      scatteredShape 2 2 [2, 4, 6] = [2, 4, 6].set 2 (6 / 2) :=
    reduceScatter_fakeAgrees (tracedInput_uniform [2, 4, 6]) (by decide) (fun _ => rfl) rfl pairGroups_find rfl
  rw [hiff]
  decide

end Agreement
end CustomOp
end B70DualTP.Coordinator
