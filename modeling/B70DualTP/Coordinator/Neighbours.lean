import B70DualTP.Coordinator.JobCollectives
import B70DualTP.Library.Rings

/-! The neighbours of a rank in its groups. In a job that has been set up, the ranks that
next_rank and prev_rank name make a ring of each group, and so do the default destinations and
sources of send and recv. -/
namespace B70DualTP.Coordinator
open Library Torch Communicator
variable {V : Type} (O : Type) (num : Numerics V) {N : Nat}

section Group
variable {g : GroupCoordinator} {r' : Nat}

theorem ahead_index (i n : Nat) : ((i : Int) + 1) % n = ((i + 1) % n : Nat) := by
  rw [Int.natCast_mod, Int.natCast_add, Nat.cast_one]

/-- One place back is all but one of the places ahead. -/
theorem behind_index {i n : Nat} (hi : i < n) : ((i : Int) - 1) % n = ((i + (n - 1)) % n : Nat) := by
  rw [Int.natCast_mod, Int.natCast_add, Int.natCast_sub (Nat.one_le_of_lt hi)]
  exact (Int.emod_eq_emod_iff_emod_sub_eq_zero.mpr (by simp)).symm

theorem nextRank_eq (h : g.ranks[(g.rankInGroup + 1) % g.worldSize]? = some r') : g.nextRank = .ok r' := by
  obtain ⟨hlt, rfl⟩ := List.getElem?_eq_some_iff.mp h
  rw [GroupCoordinator.nextRank, ahead_index]
  exact getItem_natCast hlt

theorem prevRank_eq (h : g.ranks[(g.rankInGroup + (g.worldSize - 1)) % g.worldSize]? = some r') :
    g.prevRank = .ok r' := by
  obtain ⟨hlt, rfl⟩ := List.getElem?_eq_some_iff.mp h
  have hindex := behind_index (n := g.worldSize) g.rank_lt
  rw [GroupCoordinator.prevRank, hindex]
  exact getItem_natCast hlt

theorem communicator_members (hg : g.Wired) {comm : XpuCommunicator} (hcomm : g.deviceCommunicator = some comm) :
    comm.ranks = g.ranks ∧ comm.worldSize = g.worldSize := by
  have hranks : comm.ranks = g.ranks :=
    (congrArg ProcessGroup.ranks (hg.communicator comm hcomm).1).trans hg.cpuGroup
  exact ⟨hranks, congrArg List.length hranks⟩

theorem send_default (hg : g.Wired) (hcomm : g.deviceCommunicator.isSome = true) (h : g.nextRank = .ok r')
    (tensor : Tensor V) : (g.send tensor none : Dist V O Unit) = Dist.send tensor g.deviceGroup r' := by
  obtain ⟨comm, hcomm⟩ := Option.isSome_iff_exists.mp hcomm
  obtain ⟨-, hdevice, -, hrank⟩ := hg.communicator comm hcomm
  obtain ⟨hranks, hsize⟩ := communicator_members hg hcomm
  have hitem : getItem comm.ranks (((comm.rankInGroup + 1) % comm.worldSize : Nat) : Int) = .ok r' := by
    rw [← ahead_index, hranks, hrank, hsize, ← h, GroupCoordinator.nextRank]
  have hcommunicator : g.communicator = .ok comm := by rw [GroupCoordinator.communicator, hcomm]
  rw [GroupCoordinator.send, hcommunicator]
  change comm.send tensor none = _
  simp only [DeviceCommunicatorBase.send, Option.getD_none]
  rw [hitem, hdevice]
  rfl

theorem recv_default (hg : g.Wired) (hcomm : g.deviceCommunicator.isSome = true) (h : g.prevRank = .ok r')
    (size : List Nat) (dtype : DType) : (g.recv num size dtype none : Dist V O (Tensor V)) =
      (·.1) <$> Dist.recv (Tensor.empty num size dtype g.device) g.deviceGroup r' := by
  obtain ⟨comm, hcomm⟩ := Option.isSome_iff_exists.mp hcomm
  obtain ⟨-, hdevice, hplace, hrank⟩ := hg.communicator comm hcomm
  obtain ⟨hranks, hsize⟩ := communicator_members hg hcomm
  have hitem : getItem comm.ranks (((comm.rankInGroup : Int) - 1) % comm.worldSize) = .ok r' := by
    rw [hranks, hrank, hsize, ← h, GroupCoordinator.prevRank]
  have hcommunicator : g.communicator = .ok comm := by rw [GroupCoordinator.communicator, hcomm]
  rw [GroupCoordinator.recv, hcommunicator]
  change comm.recv num size dtype none = _
  simp only [DeviceCommunicatorBase.recv, Option.getD_none]
  rw [hitem, hdevice, hplace]
  rfl

end Group

section Family
variable {group : Fin N → GroupCoordinator}

private theorem map_row (h : Family N group) (r : Fin N) :
    (List.ofFn (h.colleague r)).map Fin.val = (group r).ranks := by
  rw [List.map_ofFn, ← (h.member r).wired.cpuGroup]
  exact List.ofFn_get _

private theorem row_place (h : Family N group) (r : Fin N) :
    (List.ofFn (h.colleague r))[(group r).rankInGroup]? = some r := by
  have hself := (h.member r).wired.rank
  rw [(h.member r).rank, ← map_row h r, List.getElem?_map, Option.map_eq_some_iff] at hself
  obtain ⟨r', hplace, hr⟩ := hself
  rwa [Fin.ext hr] at hplace

private theorem mem_row_iff (h : Family N group) {r r' : Fin N} :
    r' ∈ List.ofFn (h.colleague r) ↔ (r' : Nat) ∈ (group r).ranks := by
  rw [← map_row h r, List.mem_map_of_injective Fin.val_injective]

private theorem row_shared (h : Family N group) (r r' : Fin N) (hmem : r' ∈ List.ofFn (h.colleague r)) :
    List.ofFn (h.colleague r') = List.ofFn (h.colleague r) := by
  apply List.map_injective_iff.mpr Fin.val_injective
  rw [map_row, map_row]
  refine ((h.peers r r').shared ?_).1.symm
  rwa [(h.member r').rank, ← mem_row_iff h]

private theorem row_nodup (h : Family N group) (r : Fin N) : (List.ofFn (h.colleague r)).Nodup :=
  List.nodup_ofFn.mpr fun _ _ hij => h.colleague_injective r (congrArg Fin.val hij)

def Family.rings (h : Family N group) : Rings (Fin N) where
  row r := List.ofFn (h.colleague r)
  place r := (group r).rankInGroup
  row_place := row_place h
  shared := row_shared h
  nodup := row_nodup h

theorem Family.length_row (h : Family N group) (r : Fin N) : (h.rings.row r).length = (group r).worldSize := by
  rw [GroupCoordinator.worldSize, ← map_row h r, List.length_map]
  rfl

theorem Family.getElem?_ahead (h : Family N group) (k : Nat) (r : Fin N) :
    (group r).ranks[((group r).rankInGroup + k) % (group r).worldSize]? = some (h.rings.ahead k r : Nat) := by
  rw [← map_row h r, List.getElem?_map, ← h.length_row]
  exact congrArg (Option.map Fin.val) (h.rings.getElem?_ahead k r)

/-- σ leads every rank to the next one: to whom it sends, and who receives from it, by default.
The groups are its cycles, which close after as many ranks as a group has. -/
structure LeadsRound (group : Fin N → GroupCoordinator) (σ : Equiv.Perm (Fin N)) : Prop where
  next : ∀ r, (group r).nextRank = .ok (σ r : Nat)
  prev : ∀ r, (group r).prevRank = .ok (σ⁻¹ r : Nat)
  send : ∀ r, (group r).deviceCommunicator.isSome = true → ∀ tensor : Tensor V,
    ((group r).send tensor none : Dist V O Unit) = Dist.send tensor (group r).deviceGroup (σ r)
  recv : ∀ r, (group r).deviceCommunicator.isSome = true → ∀ size dtype,
    ((group r).recv num size dtype none : Dist V O (Tensor V)) =
      (·.1) <$> Dist.recv (Tensor.empty num size dtype (group r).device) (group r).deviceGroup (σ⁻¹ r : Fin N)
  cycle : ∀ r r', σ.SameCycle r r' ↔ (r' : Nat) ∈ (group r).ranks
  period : ∀ r k, (σ ^ k) r = r ↔ (group r).worldSize ∣ k

theorem Family.leadsRound (h : Family N group) : LeadsRound O num group h.rings.shift := by
  have hnext : ∀ r, (group r).nextRank = .ok (h.rings.shift r : Nat) := fun r => nextRank_eq (h.getElem?_ahead 1 r)
  have hprev : ∀ r, (group r).prevRank = .ok (h.rings.shift⁻¹ r : Nat) := by
    intro r
    apply prevRank_eq
    rw [h.getElem?_ahead, Rings.shift_inv_apply, h.length_row]
  refine ⟨hnext, hprev, fun r hr => send_default O (h.member r).wired hr (hnext r),
    fun r hr => recv_default O num (h.member r).wired hr (hprev r), fun r r' => ?_, fun r k => ?_⟩
  · rw [Rings.sameCycle_iff]
    exact mem_row_iff h
  · rw [Rings.shift_pow, Rings.ahead_eq_self_iff, h.length_row]

end Family

/-- In every global that the ranks of a job hold, the neighbours of the ranks close to rings, one
of each group. -/
theorem JobRuns.neighbours {job : List (JobStep N)} {hoststagedTp backend : Option String}
    {steps : Fin N → List LifeStep} {final : Fin N → LifeState} (h : JobRuns job hoststagedTp backend steps final)
    (holder : Holder) : (∀ r, (final r).held holder = none) ∨
      ∃ (group : Fin N → GroupCoordinator) (replaced : Bool) (σ : Equiv.Perm (Fin N)),
        (∀ r, ((final r).held holder).map (·.coordinator) = some (.group (group r) replaced)) ∧
          LeadsRound O num group σ := by
  rcases h.holdsFamily holder with hnone | ⟨group, replaced, hfamily, hheld, -⟩
  · exact .inl hnone
  · exact .inr ⟨group, replaced, hfamily.rings.shift, hheld, hfamily.leadsRound O num⟩

theorem replicas_neighbours : (∀ r, (replicasFinal r).held (.slot (.of .tp)) = none) ∨
    ∃ (group : Fin 4 → GroupCoordinator) (replaced : Bool) (σ : Equiv.Perm (Fin 4)),
      (∀ r, ((replicasFinal r).held (.slot (.of .tp))).map (·.coordinator) = some (.group (group r) replaced)) ∧
        LeadsRound Unit intNumerics group σ := replicas_run.neighbours Unit intNumerics (.slot (.of .tp))

end B70DualTP.Coordinator
