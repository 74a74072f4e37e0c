import B70DualTP.Communicator.Gathering
import B70DualTP.Communicator.OneGroup
import B70DualTP.Communicator.ScatterAxis
import B70DualTP.Communicator.Source
import B70DualTP.Coordinator.Registry

/-! The collectives of a GroupCoordinator, called by all members of its group: what each of
them gets, and that the calls meet in one group. -/
namespace B70DualTP.Coordinator
open Library Torch Communicator
variable {V O : Type} (num : Numerics V)

/-- A collective with its arguments other than the tensor. Ranks are ranks in the group. -/
inductive GroupOp where
  | allReduce
  | allGather (dim : Int)
  | reduceScatter (dim : Int)
  | gather (dst : Nat) (dim : Int)
  | broadcast (src : Nat)
  deriving DecidableEq, Repr

namespace GroupOp

/-- gather returns None on the ranks other than its destination. -/
def run (process : Process) (g : GroupCoordinator) (input : Tensor V) : GroupOp → Dist V O (Option (Tensor V))
  | allReduce => do return some (← g.allReduce num process input)
  | allGather dim => do return some (← g.allGather num process input dim)
  | reduceScatter dim => do return some (← g.reduceScatter num process input dim)
  | gather dst dim => g.gather num input dst dim
  | broadcast src => do return some (← g.broadcast input src)

/-- What the member with rank r in a group of W gets, from the tensors of all members. A group
of one returns the input. -/
def result {W : Nat} (hoststaged : Bool) (x : Fin W → Tensor V) (r : Fin W) (op : GroupOp) : Py (Option (Tensor V)) :=
  if W = 1 then .ok (some (x r)) else
    match op with
    | allReduce => some <$> elementwiseSum num hoststaged x r
    | allGather dim => some <$> catFor x (axisOf (x r).shape dim) r
    | reduceScatter dim => some <$> sumChunk num hoststaged x (axisOf (x r).shape dim) r
    | gather dst dim => if (r : Nat) = dst then some <$> catFor x (axisOf (x r).shape dim) r else .ok none
    | broadcast src =>
      if h : src < W then .ok (some ((x ⟨src, h⟩).toDevice (x r).device)) else .error .distributedError

/-- The group in which the members' calls meet. -/
def group (cpuGroup deviceGroup : ProcessGroup) (hoststaged : Bool) : GroupOp → ProcessGroup
  | broadcast _ => deviceGroup
  | _ => if hoststaged then cpuGroup else deviceGroup

/-- The arguments name an axis and a member. reduce_scatter divides one of the first two axes. -/
def Valid (worldSize : Nat) (s : List Nat) : GroupOp → Prop
  | allReduce => True
  | allGather dim => -(s.length : Int) ≤ dim ∧ dim < s.length
  | reduceScatter dim => (-(s.length : Int) ≤ dim ∧ dim < s.length) ∧ axisOf s dim ≤ 1 ∧
    s.getD (axisOf s dim) 0 % worldSize = 0
  | gather dst dim => dst < worldSize ∧ -(s.length : Int) ≤ dim ∧ dim < s.length
  | broadcast src => src < worldSize

instance (worldSize : Nat) (s : List Nat) : (op : GroupOp) → Decidable (op.Valid worldSize s)
  | allReduce => inferInstanceAs (Decidable True)
  | allGather _ | gather _ _ | reduceScatter _ => inferInstanceAs (Decidable (_ ∧ _))
  | broadcast src => inferInstanceAs (Decidable (src < worldSize))

end GroupOp

structure GroupMembers (cpuGroup deviceGroup : ProcessGroup) (hoststaged : Bool)
    (member : Fin cpuGroup.ranks.length → GroupCoordinator) : Prop where
  nodup : cpuGroup.ranks.Nodup
  ranks_deviceGroup : deviceGroup.ranks = cpuGroup.ranks
  member_ranks : ∀ i, (member i).ranks = cpuGroup.ranks
  member_deviceGroup : ∀ i, (member i).deviceGroup = deviceGroup
  communicator : 1 < cpuGroup.ranks.length → ∃ device uniqueName, ∀ i, (member i).deviceCommunicator =
    some (groupMember cpuGroup deviceGroup device uniqueName hoststaged i)

namespace GroupMembers
variable {num} {cpuGroup deviceGroup : ProcessGroup} {hoststaged : Bool}
  {member : Fin cpuGroup.ranks.length → GroupCoordinator} {process : Fin cpuGroup.ranks.length → Process}
  {x : Fin cpuGroup.ranks.length → Tensor V} {s : List Nat} {dt : DType}

theorem worldSize (hm : GroupMembers cpuGroup deviceGroup hoststaged member) (r : Fin cpuGroup.ranks.length) :
    (member r).worldSize = cpuGroup.ranks.length := by
  rw [GroupCoordinator.worldSize, hm.member_ranks]

private theorem run_alone (op : GroupOp) (process : Process) {g : GroupCoordinator} (input : Tensor V)
    (hcalls : g.CallsDirectly (O := O) num process) (hone : g.worldSize = 1) (hop : op.Valid 1 s) :
    (op.run num process g input : Dist V O _) = pure (some input) := by
  cases op with
  | allReduce => rw [GroupOp.run, hcalls.allReduce, if_pos hone, pure_bind]
  | allGather dim => rw [GroupOp.run, hcalls.allGather, if_pos hone, pure_bind]
  | reduceScatter dim => rw [GroupOp.run, hcalls.reduceScatter, if_pos hone, pure_bind]
  | gather dst dim => rw [GroupOp.run, GroupCoordinator.gather, if_pos hone]
  | broadcast src =>
    have hsrc : src < 1 := hop
    have hassert : g.assertSrc (src : Nat) = .ok () := by
      rw [GroupCoordinator.assertSrc, hone]
      exact if_pos (by omega)
    simp only [GroupOp.run, GroupCoordinator.broadcast, hassert, hone, if_true, Script.liftM_eq, Script.lift_ok,
      pure_bind]

private theorem communicator_eq {member : Fin cpuGroup.ranks.length → GroupCoordinator} {r : Fin cpuGroup.ranks.length}
    {comm : XpuCommunicator} (h : (member r).deviceCommunicator = some comm) : (member r).communicator = .ok comm := by
  rw [GroupCoordinator.communicator, h]

theorem completes (hm : GroupMembers cpuGroup deviceGroup hoststaged member) (hx : Uniform s dt x) {op : GroupOp}
    (hop : op.Valid cpuGroup.ranks.length s) (hcalls : ∀ r, (member r).CallsDirectly (O := O) num (process r)) :
    Script.Completes (meaning (O := O) num) (fun r => op.run num (process r) (member r) (x r)) fun y =>
      ∀ r, op.result num hoststaged x r = .ok (y r) := by
  rcases Nat.lt_or_ge 1 cpuGroup.ranks.length with hW | hW
  · have hne : cpuGroup.ranks.length ≠ 1 := by omega
    have hsize : ∀ r, (member r).worldSize ≠ 1 := fun r => by rwa [hm.worldSize]
    obtain ⟨device, uniqueName, hcomm⟩ := hm.communicator hW
    have hmember := fun r => GroupMembers.communicator_eq (hcomm r)
    have hshape : ∀ r, (x r).shape = s := fun r => (hx r).1
    have hassert : ∀ {dim : Int}, -(s.length : Int) ≤ dim ∧ dim < s.length → ∀ r, assertDim (x r) dim = .ok () :=
      fun hdim r => if_pos (by rwa [hshape r])
    have haxis : ∀ {dim : Int}, -(s.length : Int) ≤ dim ∧ dim < s.length → ∀ r, normDim (x r) dim = axisOf s dim :=
      fun hdim r => normDim_eq_axisOf hdim (hshape r)
    simp only [GroupOp.result, if_neg hne, hshape]
    cases op with
    | allReduce =>
      simp only [GroupOp.run, (hcalls _).allReduce, if_neg (hsize _), GroupCoordinator.allReduceOutPlace, hmember,
        Script.liftM_eq, Script.lift_ok, pure_bind]
      refine Script.completes_bind (allReduce_delivers hx) fun y hy => Script.completes_pure fun r => ?_
      rw [hy r]
      rfl
    | allGather dim =>
      simp only [GroupOp.run, (hcalls _).allGather, if_neg (hsize _), hassert hop, GroupCoordinator.allGatherOutPlace,
        hmember, Script.liftM_eq, Script.lift_ok, pure_bind]
      refine Script.completes_bind (allGather_delivers hoststaged hx (axisOf_lt hop) (haxis hop)) fun y hy =>
        Script.completes_pure fun r => ?_
      rw [(hy r).1]
      rfl
    | reduceScatter dim =>
      obtain ⟨hdim, haxis', hdvd⟩ := hop
      simp only [GroupOp.run, (hcalls _).reduceScatter, if_neg (hsize _), hassert hdim,
        GroupCoordinator.reduceScatterOutPlace, hmember, Script.liftM_eq, Script.lift_ok, pure_bind]
      refine Script.completes_bind (scattersAlong_of_axis hdim hdvd (.inl haxis') V O num dt x hx) fun y hy =>
        Script.completes_pure fun r => ?_
      rw [(hy r).1]
      rfl
    | gather dst dim =>
      obtain ⟨hdst, hdim⟩ := hop
      simp only [GroupOp.run, GroupCoordinator.gather, if_neg (hsize _), hmember, Script.liftM_eq, Script.lift_ok,
        pure_bind]
      refine (gather_delivers hoststaged hx (axisOf_lt hdim) hdim (haxis hdim) ⟨dst, hdst⟩).mono fun y hy r => ?_
      simpa only [gatheredFor, Fin.ext_iff] using hy r
    | broadcast src =>
      have hsrc : src < cpuGroup.ranks.length := hop
      have hassert : ∀ r, (member r).assertSrc (src : Nat) = .ok () := by
        intro r
        rw [GroupCoordinator.assertSrc, hm.worldSize]
        exact if_pos (by exact_mod_cast hsrc)
      have hrank : ∀ r, getItem (member r).ranks (src : Nat) = .ok cpuGroup.ranks[src] := by
        intro r
        rw [hm.member_ranks]
        exact getItem_natCast hsrc
      let root : Fin cpuGroup.ranks.length := ⟨src, hsrc⟩
      have hroot : deviceGroup.groupRank? (cpuGroup.ranks[src] : Nat) = some (root : Nat) :=
        groupRank?_member hm.nodup hm.ranks_deviceGroup false root
      simp only [GroupOp.run, GroupCoordinator.broadcast, hassert, if_neg (hsize _), hrank, hm.member_deviceGroup,
        Script.liftM_eq, Script.lift_ok, pure_bind]
      refine Script.completes_ask (meaning_broadcast num hroot hx.compatible) fun y hy =>
        Script.completes_pure fun r => ?_
      obtain ⟨hyshape, hdata, hdevice, hdtype⟩ := hy r
      rw [dif_pos hsrc]
      refine congrArg (fun u => Except.ok (some u)) (Tensor.ext' ?_ hdata.symm hdevice.symm ?_)
      · exact (hshape _).trans ((hshape r).symm.trans hyshape.symm)
      · exact (hx _).2.trans ((hx r).2.symm.trans hdtype.symm)
  · have hone : ∀ _ : Fin cpuGroup.ranks.length, cpuGroup.ranks.length = 1 :=
      fun r => Nat.le_antisymm hW (Nat.zero_lt_of_lt r.2)
    have hrun : ∀ r, (op.run num (process r) (member r) (x r) : Dist V O _) = pure (some (x r)) := fun r =>
      run_alone op (process r) (x r) (hcalls r) ((hm.worldSize r).trans (hone r)) (hone r ▸ hop)
    simp only [hrun]
    exact Script.completes_pure fun r => if_pos (hone r)

theorem ranks_group (hm : GroupMembers cpuGroup deviceGroup hoststaged member) (op : GroupOp) :
    (op.group cpuGroup deviceGroup hoststaged).ranks = cpuGroup.ranks := by
  have hflag : (if hoststaged then cpuGroup else deviceGroup).ranks = cpuGroup.ranks := by
    split
    · rfl
    · exact hm.ranks_deviceGroup
  cases op with
  | broadcast src => exact hm.ranks_deviceGroup
  | _ => exact hflag

theorem joinsOnly (hm : GroupMembers cpuGroup deviceGroup hoststaged member) (op : GroupOp)
    {r : Fin cpuGroup.ranks.length} {process : Process} (hcalls : (member r).CallsDirectly (O := O) num process)
    (rank : Nat) (input : Tensor V) :
    JoinsOnly (op.group cpuGroup deviceGroup hoststaged) rank (op.run num process (member r) input : Dist V O _) := by
  have hcomm : (member r).worldSize ≠ 1 → ∃ comm : XpuCommunicator,
      (member r).communicator = .ok comm ∧ comm.group = if hoststaged then cpuGroup else deviceGroup := by
    intro hsize
    rw [hm.worldSize] at hsize
    have hpos := Nat.zero_lt_of_lt r.2
    obtain ⟨device, uniqueName, hcomm⟩ := hm.communicator (by omega)
    exact ⟨_, communicator_eq (hcomm r), rfl⟩
  cases op with
  | allReduce =>
    rw [GroupOp.run, hcalls.allReduce]
    refine Script.confined_bind ?_ fun _ => Script.confined_pure _
    split
    · exact Script.confined_pure _
    · rename_i hsize
      obtain ⟨comm, hok, hgroup⟩ := hcomm hsize
      simp only [GroupCoordinator.allReduceOutPlace, hok, Script.liftM_eq, Script.lift_ok, pure_bind, GroupOp.group,
        ← hgroup]
      exact comm.allReduce_joinsOnly num rank input
  | allGather dim =>
    rw [GroupOp.run, hcalls.allGather]
    refine Script.confined_bind ?_ fun _ => Script.confined_pure _
    split
    · exact Script.confined_pure _
    · rename_i hsize
      obtain ⟨comm, hok, hgroup⟩ := hcomm hsize
      apply Script.confined_bind (Script.confined_lift _)
      intro _
      simp only [GroupCoordinator.allGatherOutPlace, hok, Script.liftM_eq, Script.lift_ok, pure_bind, GroupOp.group,
        ← hgroup]
      exact comm.allGather_joinsOnly num rank input dim
  | reduceScatter dim =>
    rw [GroupOp.run, hcalls.reduceScatter]
    refine Script.confined_bind ?_ fun _ => Script.confined_pure _
    split
    · exact Script.confined_pure _
    · rename_i hsize
      obtain ⟨comm, hok, hgroup⟩ := hcomm hsize
      apply Script.confined_bind (Script.confined_lift _)
      intro _
      simp only [GroupCoordinator.reduceScatterOutPlace, hok, Script.liftM_eq, Script.lift_ok, pure_bind,
        GroupOp.group, ← hgroup]
      exact comm.reduceScatter_joinsOnly num rank input dim
  | gather dst dim =>
    rw [GroupOp.run, GroupCoordinator.gather]
    split
    · exact Script.confined_pure _
    · rename_i hsize
      obtain ⟨comm, hok, hgroup⟩ := hcomm hsize
      simp only [hok, Script.liftM_eq, Script.lift_ok, pure_bind, GroupOp.group, ← hgroup]
      exact comm.gather_joinsOnly num rank input dst dim
  | broadcast src =>
    refine Script.confined_bind ?_ fun _ => Script.confined_pure _
    apply Script.confined_bind (Script.confined_lift _)
    intro _
    split
    · exact Script.confined_pure _
    · apply Script.confined_bind (Script.confined_lift _)
      intro srcRank
      rw [hm.member_deviceGroup]
      exact joinsOnly_call rfl

end GroupMembers
end B70DualTP.Coordinator
