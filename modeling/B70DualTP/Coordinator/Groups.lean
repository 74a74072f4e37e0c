import B70DualTP.Library.RankGrid
import B70DualTP.Torch.Tensor

/-! The rank lists that initialize_model_parallel builds from one array of ranks, and
the search of GroupCoordinator.__init__ for the caller's own list. -/
namespace B70DualTP.Coordinator
open Library Torch

/-- ranks.reshape(-1, *sizes) -/
def reshapeInfer (sizes : List Nat) (ranks : NDArray Nat) : Py (NDArray Nat) :=
  if sizes.prod ≠ 0 ∧ ranks.numel % sizes.prod = 0 then
    match ranks.reshape? (ranks.numel / sizes.prod :: sizes) with
    | some rows => .ok rows
    | none => .error .runtimeError
  else .error .runtimeError

def transpose (i j : Nat) (ranks : NDArray Nat) : Py (NDArray Nat) :=
  match ranks.transpose? i j with
  | some swapped => .ok swapped
  | none => .error .indexError

/-- [x.tolist() for x in ranks.reshape(-1, size).unbind(0)] -/
def unbindRows (size : Nat) (ranks : NDArray Nat) : Py (List (List Nat)) := do
  let rows ← reshapeInfer [size] ranks
  return (List.range (rows.shape.headD 0)).map fun k => block size k rows.data

/-- The sizes that initialize_model_parallel reads from its arguments and from the
configuration. -/
structure ModelParallelSizes where
  tensor : Nat
  pipeline : Nat
  prefillContext : Nat
  decodeContext : Option Nat
  data : Nat
  deriving DecidableEq, Repr

inductive GroupName where
  | tp | dcp | pcp | pp | dp | ep
  deriving DecidableEq, Repr

/-- The layout order is ExternalDP x DP x PP x PCP x TP. -/
def allRanks (worldSize : Nat) (sizes : ModelParallelSizes) : Py (NDArray Nat) :=
  reshapeInfer [sizes.data, sizes.pipeline, sizes.prefillContext, sizes.tensor] (arange worldSize)

/-- The ranks of one replica, the layout of the elastic mode. -/
def localAllRanks (sizes : ModelParallelSizes) : NDArray Nat where
  shape := [sizes.pipeline, sizes.prefillContext, sizes.tensor]
  data := List.range (sizes.tensor * sizes.pipeline * sizes.prefillContext)
  wf := by simp; ring

def dcpGroupRanks (sizes : ModelParallelSizes) (ranks : NDArray Nat) : Py (List (List Nat)) :=
  match sizes.decodeContext with
  | some size => unbindRows size ranks
  | none => .error .typeError

/-- group_ranks of each group, from all_ranks. The EPLB group has the ranks of EP. -/
def GroupName.groupRanks (sizes : ModelParallelSizes) (ranks : NDArray Nat) : GroupName → Py (List (List Nat))
  | .tp => unbindRows sizes.tensor ranks
  | .dcp => dcpGroupRanks sizes ranks
  | .pcp => do unbindRows sizes.prefillContext (← transpose 3 4 ranks)
  | .pp => do unbindRows sizes.pipeline (← transpose 2 4 ranks)
  | .dp => do unbindRows sizes.data (← transpose 1 4 ranks)
  | .ep => do unbindRows (sizes.data * sizes.prefillContext * sizes.tensor) (← transpose 1 2 ranks)

/-- group_ranks of the groups inside a replica, from local_all_ranks. -/
def GroupName.localGroupRanks (sizes : ModelParallelSizes) (ranks : NDArray Nat) :
    GroupName → Py (List (List Nat))
  | .tp => unbindRows sizes.tensor ranks
  | .dcp => dcpGroupRanks sizes ranks
  | .pcp => do unbindRows sizes.prefillContext (← transpose 1 2 ranks)
  | .pp => do unbindRows sizes.pipeline (← transpose 0 2 ranks)
  -- the elastic mode has no local list for these
  | .dp | .ep => .error .runtimeError

/-- The rank that init_distributed_environment and _init_elastic_ep_world assign, in any kind of
numbers: a rank may be -1. -/
def offsetRank {R : Type} [NatCast R] [Add R] [Mul R] (dataParallelRank : Nat) (worldSize rank : R) : R :=
  dataParallelRank * worldSize + rank

theorem offsetRank_nat (dataParallelRank worldSize rank : Nat) :
    offsetRank dataParallelRank worldSize rank = dataParallelRank * worldSize + rank := rfl

theorem offsetRank_natCast (dataParallelRank worldSize rank : Nat) :
    offsetRank dataParallelRank (worldSize : Int) (rank : Int) = (offsetRank dataParallelRank worldSize rank : Nat) := by
  simp [offsetRank]

def innerDpGroupRanks (dataParallelSize worldSizeInnerDp : Nat) : List (List Nat) :=
  (List.range dataParallelSize).map fun dpRank =>
    (List.range worldSizeInnerDp).map fun i => dpRank * worldSizeInnerDp + i

/-- The caller's list of ranks and its place in it. -/
structure Membership where
  ranks : List Nat
  rankInGroup : Nat
  deriving DecidableEq, Repr

/-- The loop over group_ranks keeps the last list that contains the caller. -/
def selectGroup (rank : Nat) (groupRanks : List (List Nat)) : Option Membership :=
  groupRanks.foldl (fun found ranks => if rank ∈ ranks then some ⟨ranks, ranks.idxOf rank⟩ else found) none

private theorem foldl_select (rank : Nat) (groups : List (List Nat)) (found : Option Membership) :
    groups.foldl (fun found ranks => if rank ∈ ranks then some ⟨ranks, ranks.idxOf rank⟩ else found) found = found
        ∧ (∀ g ∈ groups, rank ∉ g) ∨
      ∃ g ∈ groups, rank ∈ g ∧ groups.foldl (fun found ranks =>
        if rank ∈ ranks then some ⟨ranks, ranks.idxOf rank⟩ else found) found = some ⟨g, g.idxOf rank⟩ := by
  induction groups generalizing found with
  | nil => exact .inl ⟨rfl, by simp⟩
  | cons g groups ih =>
    rw [List.foldl_cons]
    obtain ⟨he, hn⟩ | ⟨g', hg', hr, he⟩ := ih (if rank ∈ g then some ⟨g, g.idxOf rank⟩ else found)
    · by_cases hr : rank ∈ g
      · exact .inr ⟨g, by simp, hr, by rw [he, if_pos hr]⟩
      · exact .inl ⟨by rw [he, if_neg hr], by simpa [hr] using hn⟩
    · exact .inr ⟨g', by simp [hg'], hr, he⟩

theorem selectGroup_spec {rank : Nat} {groups : List (List Nat)} {g : List Nat} (hg : g ∈ groups)
    (hr : rank ∈ g) :
    ∃ g' ∈ groups, rank ∈ g' ∧ selectGroup rank groups = some ⟨g', g'.idxOf rank⟩ := by
  obtain ⟨-, hn⟩ | h := foldl_select rank groups none
  · exact absurd hr (hn g hg)
  · exact h

theorem selectGroup_mem {rank : Nat} {groups : List (List Nat)} {m : Membership} (h : selectGroup rank groups = some m) :
    m.ranks ∈ groups := by
  rw [selectGroup] at h
  rcases foldl_select rank groups none with ⟨hnone, -⟩ | ⟨g, hg, -, hsome⟩
  · rw [hnone] at h
    cases h
  · rw [hsome] at h
    cases h
    exact hg

end B70DualTP.Coordinator
