import B70DualTP.Coordinator.GroupOps
import B70DualTP.Coordinator.SetupAgreement

/-! Collectives of a job that has set up its groups: all ranks run at once, in any order, each
on the groups that its own process holds. -/
namespace B70DualTP.Coordinator
open Library Torch Communicator
variable {V O A : Type} (num : Numerics V) {N : Nat}

/-- What a constructor wires is the communicator of this place in the group. -/
theorem groupMember_eq {cpuGroup deviceGroup : ProcessGroup} {device : Fin cpuGroup.ranks.length → Device}
    {uniqueName : String} {hoststaged : Bool} {i : Fin cpuGroup.ranks.length} {comm : XpuCommunicator}
    (hcpu : comm.cpuGroup = cpuGroup) (hgroup : comm.deviceGroup = deviceGroup) (hdevice : comm.device = device i)
    (hname : comm.uniqueName = uniqueName) (hrank : comm.rankInGroup = i) (hflag : comm.hoststaged = hoststaged) :
    comm = groupMember cpuGroup deviceGroup device uniqueName hoststaged i := by
  obtain ⟨⟨cpu, dev, group, name, rank, hlt⟩, flag⟩ := comm
  obtain rfl : cpu = cpuGroup := hcpu
  obtain rfl : dev = device i := hdevice
  obtain rfl : group = deviceGroup := hgroup
  obtain rfl : name = uniqueName := hname
  obtain rfl : rank = i := hrank
  obtain rfl : flag = hoststaged := hflag
  rfl

namespace Family
variable {group : Fin N → GroupCoordinator} (h : Family N group)
include h

def colleague (r : Fin N) (i : Fin (group r).cpuGroup.ranks.length) : Fin N :=
  ⟨(group r).cpuGroup.ranks.get i,
    (h.member r).lt _ ((h.member r).wired.cpuGroup ▸ List.get_mem (group r).cpuGroup.ranks i)⟩

theorem colleague_injective (r : Fin N) : Function.Injective fun i => ((h.colleague r i : Fin N) : Nat) :=
  List.nodup_iff_injective_get.mp ((h.member r).wired.cpuGroup ▸ (h.member r).nodup)

theorem colleague_shared (r : Fin N) (i : Fin (group r).cpuGroup.ranks.length) :
    (group r).ranks = (group (h.colleague r i)).ranks ∧ (group r).cpuGroup = (group (h.colleague r i)).cpuGroup ∧
      (group r).deviceGroup = (group (h.colleague r i)).deviceGroup := by
  apply (h.peers r (h.colleague r i)).shared
  rw [(h.member _).rank, ← (h.member r).wired.cpuGroup]
  exact List.get_mem _ i

theorem colleague_rankInGroup (r : Fin N) (i : Fin (group r).cpuGroup.ranks.length) :
    (group (h.colleague r i)).rankInGroup = i := by
  have hself := (h.member (h.colleague r i)).wired.rank
  rw [(h.member _).rank, ← (h.colleague_shared r i).1, ← (h.member r).wired.cpuGroup] at hself
  have hplace : (group r).cpuGroup.ranks[(i : Nat)]? = some (h.colleague r i : Nat) := List.getElem?_eq_getElem i.2
  have hnodup : (group r).cpuGroup.ranks.Nodup := (h.member r).wired.cpuGroup ▸ (h.member r).nodup
  exact ((List.getElem?_inj i.2 hnodup).mp (hplace.trans hself.symm)).symm

theorem colleague_self (r : Fin N) : ∃ i, h.colleague r i = r := by
  have hself := (h.member r).wired.rank
  rw [(h.member r).rank, ← (h.member r).wired.cpuGroup] at hself
  obtain ⟨hlt, hget⟩ := List.getElem?_eq_some_iff.mp hself
  exact ⟨⟨_, hlt⟩, Fin.ext hget⟩

theorem colleague_class (q r : Fin N) (i : Fin (group q).cpuGroup.ranks.length) (j : Fin (group r).cpuGroup.ranks.length)
    (hij : h.colleague q i = h.colleague r j) (i' : Fin (group q).cpuGroup.ranks.length) :
    ∃ j', h.colleague r j' = h.colleague q i' := by
  have hsame : (group q).cpuGroup = (group r).cpuGroup := by
    rw [(h.colleague_shared q i).2.1, hij, ← (h.colleague_shared r j).2.1]
  refine ⟨i'.cast (by rw [hsame]), Fin.ext ?_⟩
  simp [colleague, hsame]

theorem colleague_hoststaged (r r' : Fin N) : (group r).deviceCommunicator.any (·.hoststaged) =
    (group r').deviceCommunicator.any (·.hoststaged) := by
  have hflag := (h.peers r r').hoststaged
  cases hr : (group r).deviceCommunicator <;> cases hr' : (group r').deviceCommunicator <;> simp_all

theorem groupMembers (hcomm : ∀ r, 1 < (group r).worldSize → (group r).deviceCommunicator.isSome = true) (r : Fin N) :
    GroupMembers (group r).cpuGroup (group r).deviceGroup ((group r).deviceCommunicator.any (·.hoststaged))
      fun i => group (h.colleague r i) where
  nodup := (h.member r).wired.cpuGroup ▸ (h.member r).nodup
  ranks_deviceGroup := (h.member r).wired.deviceGroup.trans (h.member r).wired.cpuGroup.symm
  member_ranks i := (h.colleague_shared r i).1.symm.trans (h.member r).wired.cpuGroup.symm
  member_deviceGroup i := (h.colleague_shared r i).2.2.symm
  communicator := by
    intro hsize
    refine ⟨fun i => (group (h.colleague r i)).device, (group r).uniqueName, fun i => ?_⟩
    obtain ⟨hranks, hcpu, hdevice⟩ := h.colleague_shared r i
    have hmember := h.member (h.colleague r i)
    have hlarge : 1 < (group (h.colleague r i)).worldSize := by
      rw [GroupCoordinator.worldSize, ← hranks, ← (h.member r).wired.cpuGroup]
      exact hsize
    obtain ⟨comm, hsome⟩ := Option.isSome_iff_exists.mp (hcomm _ hlarge)
    obtain ⟨hcpu', hdevice', hdev, hrank⟩ := hmember.wired.communicator comm hsome
    have hflag := h.colleague_hoststaged (h.colleague r i) r
    rw [hsome] at hflag
    have hmade : comm = groupMember (group r).cpuGroup (group r).deviceGroup
        (fun i => (group (h.colleague r i)).device) (group r).uniqueName
          ((group r).deviceCommunicator.any (·.hoststaged)) i :=
      groupMember_eq (hcpu'.trans hcpu.symm) (hdevice'.trans hdevice.symm) hdev
        ((hmember.uniqueName comm hsome).trans (h.peers r (h.colleague r i)).uniqueName.symm)
        (hrank.trans (h.colleague_rankInGroup r i)) hflag
    rw [hsome, hmade]

end Family

/-- A turn of a job: collectives on the groups of one global. The members of a group make the
same call, other groups may make another or none. A rank computes its tensor from what it has
got so far. All functions are of the global rank. -/
structure Turn (V : Type) where
  slot : Slot
  op : Nat → Option GroupOp
  shape : Nat → List Nat
  dtype : Nat → DType
  input : Nat → List (Option (Tensor V)) → Tensor V

namespace Turn

/-- The members of each group make the same valid call, with tensors of one shape and dtype. -/
structure Agrees (t : Turn V) (group : Fin N → GroupCoordinator) : Prop where
  input : ∀ rank earlier, (t.input rank earlier).shape = t.shape rank ∧ (t.input rank earlier).dtype = t.dtype rank
  same : ∀ r : Fin N, ∀ rank ∈ (group r).ranks,
    t.op rank = t.op r ∧ t.shape rank = t.shape r ∧ t.dtype rank = t.dtype r
  valid : ∀ r : Fin N, ∀ op ∈ t.op r, op.Valid (group r).worldSize (t.shape r)

/-- A rank's part of the turn, on the group g that its getter returns. -/
def run (process : Process) (g : GroupCoordinator) (rank : Nat) (t : Turn V) (earlier : List (Option (Tensor V))) :
    Dist V O (List (Option (Tensor V))) :=
  match t.op rank with
  | none => return earlier
  | some op => do return earlier ++ [← op.run num process g (t.input rank earlier)]

/-- What the turn leaves on a rank: the result of the call for its place in its group g. -/
def Leaves (g : GroupCoordinator) (rank : Nat) (t : Turn V) (earlier : Nat → List (Option (Tensor V)))
    (later : List (Option (Tensor V))) : Prop :=
  match t.op rank with
  | none => later = earlier rank
  | some op => ∃ y, later = earlier rank ++ [y] ∧ op.result num (g.deviceCommunicator.any (·.hoststaged))
      (fun i : Fin g.ranks.length => t.input (g.ranks.get i) (earlier (g.ranks.get i))) ⟨g.rankInGroup, g.rank_lt⟩ =
        .ok y

end Turn

/-- A rank's program: its turns, on the groups that its getters return. -/
def runTurns (process : Process) (held : Slot → GroupCoordinator) (rank : Nat) :
    List (Turn V) → List (Option (Tensor V)) → Dist V O (List (Option (Tensor V)))
  | [], earlier => return earlier
  | t :: ts, earlier => do
    let later ← t.run num process (held t.slot) rank earlier
    runTurns process held rank ts later

/-- What the turns leave, one after the other, on all ranks. -/
def TurnsLeave (held : Slot → Fin N → GroupCoordinator) :
    List (Turn V) → (Nat → List (Option (Tensor V))) → (Nat → List (Option (Tensor V))) → Prop
  | [], earlier, last => ∀ r : Fin N, last r = earlier r
  | t :: ts, earlier, last => ∃ later : Nat → List (Option (Tensor V)),
    (∀ r : Fin N, t.Leaves num (held t.slot r) r earlier (later r)) ∧ TurnsLeave held ts later last

section Turns
variable {num} {group : Fin N → GroupCoordinator} {process : Fin N → Process} {t : Turn V}
  {chan : Link → Channel (Tensor V)}

private theorem result_congr {ranks ranks' : List Nat} (hranks : ranks = ranks') {k k' : Nat} (hk : k < ranks.length)
    (hk' : k' < ranks'.length) (heq : k = k') (op : GroupOp) (hoststaged : Bool) (x : Nat → Tensor V) :
    op.result num hoststaged (fun i : Fin ranks.length => x (ranks.get i)) ⟨k, hk⟩ =
      op.result num hoststaged (fun i : Fin ranks'.length => x (ranks'.get i)) ⟨k', hk'⟩ := by
  subst hranks heq
  rfl

theorem turn_group (h : Family N group)
    (hcomm : ∀ r, 1 < (group r).worldSize → (group r).deviceCommunicator.isSome = true)
    (hcalls : ∀ r, (group r).CallsDirectly (O := O) num (process r)) (ht : t.Agrees group)
    (earlier : Nat → List (Option (Tensor V))) (r : Fin N) :
    (network num).TogetherOk A (fun i => (h.colleague r i : Nat)) chan
      (fun i => (t.run num (process (h.colleague r i)) (group (h.colleague r i)) (h.colleague r i)
        (earlier (h.colleague r i)) : Dist V O _)) fun later chan' =>
          (∀ i, t.Leaves num (group (h.colleague r i)) (h.colleague r i) earlier (later i)) ∧ chan' = chan := by
  have hmem : ∀ i, (h.colleague r i : Nat) ∈ (group r).ranks := fun i => by
    rw [← (h.member r).wired.cpuGroup]
    exact List.get_mem _ i
  have hop : ∀ i, t.op (h.colleague r i) = t.op r := fun i => (ht.same r _ (hmem i)).1
  obtain ⟨k, -⟩ := h.colleague_self r
  have : NeZero (group r).cpuGroup.ranks.length := ⟨Nat.ne_zero_of_lt k.2⟩
  simp only [Turn.run, Turn.Leaves, hop]
  cases hr : t.op r with
  | none => exact Protocol.togetherOk_pure ⟨fun _ => rfl, rfl⟩
  | some op =>
    have hx : Uniform (t.shape r) (t.dtype r) fun i => t.input (h.colleague r i) (earlier (h.colleague r i)) := by
      intro i
      obtain ⟨hshape, hdtype⟩ := ht.input (h.colleague r i) (earlier (h.colleague r i))
      obtain ⟨-, hshape', hdtype'⟩ := ht.same r _ (hmem i)
      exact ⟨hshape.trans hshape', hdtype.trans hdtype'⟩
    have hmembers := h.groupMembers hcomm r
    have hvalid : op.Valid (group r).cpuGroup.ranks.length (t.shape r) := by
      rw [(h.member r).wired.cpuGroup]
      exact ht.valid r op hr
    have hjoin : (network (O := O) num).members (op.group (group r).cpuGroup (group r).deviceGroup
        ((group r).deviceCommunicator.any (·.hoststaged))) = List.ofFn fun i => (h.colleague r i : Nat) :=
      (hmembers.ranks_group op).trans (List.ofFn_get _).symm
    refine Protocol.togetherOk_bind (Protocol.togetherOk_of_completes (h.colleague_injective r) (fun _ _ _ => rfl) hjoin
      (fun i => hmembers.joinsOnly op (hcalls _) _ _)
      (hmembers.completes hx hvalid fun i => hcalls (h.colleague r i))) ?_
    rintro y _ ⟨hy, rfl⟩
    refine Protocol.togetherOk_pure ⟨fun i => ⟨y i, rfl, ?_⟩, rfl⟩
    have hresult := hy i
    rw [h.colleague_hoststaged r (h.colleague r i)] at hresult
    have hranks : (group r).cpuGroup.ranks = (group (h.colleague r i)).ranks :=
      (h.member r).wired.cpuGroup.trans (h.colleague_shared r i).1
    exact (result_congr hranks i.2 (group (h.colleague r i)).rank_lt (h.colleague_rankInGroup r i).symm op _
      fun rank => t.input rank (earlier rank)).symm.trans hresult

theorem turn_together (h : Family N group)
    (hcomm : ∀ r, 1 < (group r).worldSize → (group r).deviceCommunicator.isSome = true)
    (hcalls : ∀ r, (group r).CallsDirectly (O := O) num (process r)) (ht : t.Agrees group)
    (earlier : Nat → List (Option (Tensor V))) :
    (network num).TogetherOk A (fun r : Fin N => (r : Nat)) chan
      (fun r => (t.run num (process r) (group r) r (earlier r) : Dist V O _)) fun later chan' =>
        (∀ r, t.Leaves num (group r) r earlier (later r)) ∧ chan' = chan :=
  Protocol.togetherOk_of_classes Fin.val_injective h.colleague_self h.colleague_class
    fun r => turn_group h hcomm hcalls ht earlier r

theorem runTurns_together {held : Slot → Fin N → GroupCoordinator} {ts : List (Turn V)}
    (hheld : ∀ t ∈ ts, Family N (held t.slot) ∧ (∀ r, 1 < (held t.slot r).worldSize →
      (held t.slot r).deviceCommunicator.isSome = true) ∧
        ∀ r, (held t.slot r).CallsDirectly (O := O) num (process r))
    (hts : ∀ t ∈ ts, t.Agrees (held t.slot)) (earlier : Nat → List (Option (Tensor V))) :
    (network num).TogetherOk A (fun r : Fin N => (r : Nat)) chan
      (fun r => (runTurns num (process r) (held · r) r ts (earlier r) : Dist V O _)) fun last chan' =>
        (∃ last' : Nat → List (Option (Tensor V)), (∀ r : Fin N, last' r = last r) ∧
          TurnsLeave num held ts earlier last') ∧ chan' = chan := by
  induction ts generalizing earlier with
  | nil => exact Protocol.togetherOk_pure ⟨⟨earlier, fun _ => rfl, fun _ => rfl⟩, rfl⟩
  | cons t ts ih =>
    rw [List.forall_mem_cons] at hheld hts
    obtain ⟨⟨hfamily, hcomm, hcalls⟩, hheld⟩ := hheld
    refine Protocol.togetherOk_bind (turn_together hfamily hcomm hcalls hts.1 earlier) ?_
    rintro later _ ⟨hlater, rfl⟩
    -- the values of ranks outside the job do not matter
    let later' : Nat → List (Option (Tensor V)) := fun rank => if h : rank < N then later ⟨rank, h⟩ else []
    have hsame : ∀ r : Fin N, later' r = later r := fun r => dif_pos r.2
    have hrest := ih hheld hts.2 later'
    simp only [hsame] at hrest
    intro procs f hp
    obtain ⟨x, chan', procs', ⟨last, hx, ⟨last', hlast, hleave⟩, hchan⟩, hrun⟩ := hrest procs f hp
    exact ⟨x, chan', procs', ⟨last, hx, ⟨last', hlast, later', fun r => (hsame r).symm ▸ hlater r, hleave⟩, hchan⟩, hrun⟩

end Turns

section Job
variable {job : List (JobStep N)} {hoststagedTp backend : Option String} {steps : Fin N → List LifeStep}
  {final : Fin N → LifeState}

/-- The getter of a global returns this group, and the object has not been collected. -/
def GetterReturns (s : Interpreter) (holder : Holder) (g : GroupCoordinator) : Prop :=
  ∃ id ∈ s.alive, ∃ replaced, (holder.getter s.state).1 = .ok ⟨id, .group g replaced⟩

theorem GetterReturns.held {s : Interpreter} {holder : Holder} {g : GroupCoordinator} (h : GetterReturns s holder g) :
    ∃ id ∈ s.alive, ∃ replaced, s.state.held holder = some ⟨id, .group g replaced⟩ := by
  obtain ⟨id, hid, replaced, hget⟩ := h
  rw [Holder.getter_apply] at hget
  cases hc : s.state.held holder with
  | none =>
    rw [hc] at hget
    cases hget
  | some ref =>
    rw [hc] at hget
    exact ⟨id, hid, replaced, congrArg some (Except.ok.inj hget)⟩

private theorem handsStateless_of_runBy {rank : Nat} {made : List LifeStep} (h : List.Forall₂ (·.RunBy rank) job made) :
    ∀ step ∈ made, step.call.HandsStateless := by
  induction h with
  | nil => exact fun _ hstep => by cases hstep
  | cons hstep _ ih =>
    refine List.forall_mem_cons.mpr ⟨?_, ih⟩
    have hcall := hstep.call
    unfold JobCall.MadeBy at hcall
    split at hcall
    · obtain ⟨args, hmade, -⟩ := hcall
      rw [hmade]
      trivial
    all_goals
      rw [hcall]
      trivial

namespace JobRuns

theorem registered (h : JobRuns job hoststagedTp backend steps final) (r : Fin N) : (final r).Registered := by
  rw [← runCalls_of_runAll (h.returns r)]
  exact runCalls_registered (handsStateless_of_runBy (h.made r)) (fresh_registered _ _)

theorem family (h : JobRuns job hoststagedTp backend steps final) {alive : Fin N → List Nat} {holder : Holder}
    {group : Fin N → GroupCoordinator}
    (hget : ∀ r, GetterReturns ⟨(final r).toModuleState, alive r⟩ holder (group r)) :
    Family N group ∧ (holder.communicates = true →
      ∀ r, 1 < (group r).worldSize → (group r).deviceCommunicator.isSome = true) := by
  choose id hid replaced hheld using fun r => (hget r).held
  rcases h.holdsFamily holder with hnone | ⟨group', replaced', hfamily, hsome, hcomm⟩
  · have hempty : N = 0 := by
      by_contra hN
      cases (hnone ⟨0, Nat.pos_of_ne_zero hN⟩).symm.trans (hheld _)
    subst hempty
    exact ⟨⟨fun r => r.elim0, fun r => r.elim0⟩, fun _ r => r.elim0⟩
  · obtain rfl : group' = group := by
      funext r
      have hgroup := hsome r
      rw [show (final r).held holder = _ from hheld r] at hgroup
      exact (AnyCoordinator.group.inj (Option.some.inj hgroup)).1.symm
    exact ⟨hfamily, hcomm⟩

theorem callsDirectly (h : JobRuns job hoststagedTp backend steps final) {r : Fin N} {alive : List Nat} {holder : Holder}
    {g : GroupCoordinator} (hget : GetterReturns ⟨(final r).toModuleState, alive⟩ holder g) (currentDevice : Nat) :
    g.CallsDirectly (O := O) num ((Interpreter.mk (final r).toModuleState alive).process currentDevice) := by
  obtain ⟨id, hid, replaced, hheld⟩ := hget.held
  exact callsDirectly_of_findGroup num (ModuleState.Registered.findGroup (h.registered r) hheld hid)

end JobRuns

abbrev JobState (V O : Type) :=
  State Nat Link (Tensor V) (Call V O) (fun c => Py c.Resp) (Py (List (Option (Tensor V))))

/-- The program of every rank; there are no others. -/
def jobPrograms (process : Fin N → Process) (held : Slot → Fin N → GroupCoordinator) (ts : List (Turn V)) (rank : Nat) :
    Dist V O (List (Option (Tensor V))) :=
  if h : rank < N then runTurns num (process ⟨rank, h⟩) (held · ⟨rank, h⟩) rank ts [] else return []

def jobStart (O : Type) (process : Fin N → Process) (held : Slot → Fin N → GroupCoordinator) (ts : List (Turn V)) :
    JobState V O := ⟨jobPrograms num process held ts, fun _ => ⟨[], 0, 0⟩⟩

/-- Every rank has returned with what the turns leave. -/
def TurnsDone (held : Slot → Fin N → GroupCoordinator) (ts : List (Turn V)) (s : JobState V O) : Prop :=
  ∃ last, TurnsLeave num held ts (fun _ => []) last ∧ ∀ r : Fin N, s.procs r = .ret (.ok (last r))

/-- After any set-up that returns on all ranks: however the ranks' steps are ordered, the turns
come to an end, and every rank has the results for its place in its own groups. -/
theorem JobRuns.turns_converge (h : JobRuns job hoststagedTp backend steps final) {alive : Fin N → List Nat}
    (currentDevice : Fin N → Nat) {held : Slot → Fin N → GroupCoordinator} {ts : List (Turn V)}
    (hheld : ∀ t ∈ ts, ∀ r, GetterReturns ⟨(final r).toModuleState, alive r⟩ (.slot t.slot) (held t.slot r))
    (hts : ∀ t ∈ ts, t.Agrees (held t.slot)) :
    Converges (network num).Step
      (jobStart num O (fun r => (Interpreter.mk (final r).toModuleState (alive r)).process (currentDevice r)) held ts)
      (TurnsDone num held ts) := by
  have hready : ∀ t ∈ ts, Family N (held t.slot) ∧ (∀ r, 1 < (held t.slot r).worldSize →
      (held t.slot r).deviceCommunicator.isSome = true) ∧ ∀ r, (held t.slot r).CallsDirectly (O := O) num
        ((Interpreter.mk (final r).toModuleState (alive r)).process (currentDevice r)) := by
    intro t ht
    obtain ⟨hfamily, hcomm⟩ := h.family (hheld t ht)
    exact ⟨hfamily, hcomm rfl, fun r => h.callsDirectly num (hheld t ht r) (currentDevice r)⟩
  have hprogram : ∀ r : Fin N, jobPrograms num (fun r => (Interpreter.mk (final r).toModuleState
      (alive r)).process (currentDevice r)) held ts r = (runTurns num ((Interpreter.mk (final r).toModuleState
        (alive r)).process (currentDevice r)) (held · r) r ts [] : Dist V O _) := fun r => dif_pos r.2
  have htogether : (network num).TogetherOk (Py (List (Option (Tensor V)))) (fun r : Fin N => (r : Nat))
      (fun _ => ⟨[], 0, 0⟩) (fun r => (runTurns num ((Interpreter.mk (final r).toModuleState
        (alive r)).process (currentDevice r)) (held · r) r ts [] : Dist V O _)) fun last chan' =>
          (∃ last' : Nat → List (Option (Tensor V)), (∀ r : Fin N, last' r = last r) ∧
            TurnsLeave num held ts (fun _ => []) last') ∧ chan' = fun _ => ⟨[], 0, 0⟩ :=
    runTurns_together hready hts fun _ => []
  obtain ⟨x, chan', procs', ⟨last, hx, ⟨last', hlast, hleave⟩, hchan⟩, hrun, hret, hoff⟩ :=
    htogether (jobPrograms num _ held ts) (fun _ => .ret) fun r => (hprogram r).trans (Prog.bind_ret _).symm
  have hdone : ∀ r : Fin N, procs' r = .ret (.ok (last' r)) := by
    intro r
    rw [hret r, hx r, hlast r]
  refine ((network num).diamond (network_separate num)).converges hrun (Protocol.final_of_returned ?_ ?_)
    ⟨last', hleave, hdone⟩
  · intro rank
    by_cases hrank : rank < N
    · exact ⟨_, hdone ⟨rank, hrank⟩⟩
    · refine ⟨.ok [], (hoff rank fun r hr => hrank (hr ▸ r.2)).trans (dif_neg hrank)⟩
  · intro k
    rw [hchan]
    rfl

end Job

/-- Two replicas of two ranks: a sum in each TP group, a concatenation across the replicas, and
a broadcast in the first replica alone. -/
def replicasHeld (slot : Slot) (r : Fin 4) : GroupCoordinator :=
  ((replicasFinal r).slot slot).elim (pairCoordinator (Fin.last 1)) fun ref =>
    match ref.coordinator with
    | .group g _ => g
    | .stateless _ => pairCoordinator (Fin.last 1)

def rowTensor (rank : Nat) (value : Int) : Tensor Int :=
  { shape := [1], data := [value], wf := rfl, device := .accelerator .xpu (rank % 2), dtype := .float16 }

def sumTurn : Turn Int :=
  ⟨.of .tp, fun _ => some .allReduce, fun _ => [1], fun _ => .float16, fun rank _ => rowTensor rank rank⟩

def concatTurn : Turn Int :=
  ⟨.of .dp, fun _ => some (.allGather 0), fun _ => [1], fun _ => .float16,
    fun rank earlier => rowTensor rank ((earlier.head?.join.map (·.data)).getD []).sum⟩

def firstReplicaTurn : Turn Int :=
  ⟨.of .tp, fun rank => if rank < 2 then some (.broadcast 1) else none, fun _ => [1], fun _ => .float16,
    fun rank earlier => rowTensor rank earlier.length⟩

theorem replicas_turns_converge : Converges (network intNumerics).Step
    (jobStart intNumerics Unit
      (fun r => (Interpreter.mk (replicasFinal r).toModuleState (List.range 8)).process (r % 2)) replicasHeld
        [sumTurn, concatTurn, firstReplicaTurn])
    (TurnsDone intNumerics replicasHeld [sumTurn, concatTurn, firstReplicaTurn]) := by
  have hgetters : ∀ slot ∈ [Slot.of .tp, Slot.of .dp], ∀ r : Fin 4, ∃ id ∈ List.range 8, ∃ replaced : Bool,
      ((Holder.slot slot).getter (replicasFinal r).toModuleState).1 =
        .ok ⟨id, .group (replicasHeld slot r) replaced⟩ := by decide +kernel
  have hslots : ∀ t ∈ [sumTurn, concatTurn, firstReplicaTurn], t.slot ∈ [Slot.of .tp, Slot.of .dp] := by
    simp [sumTurn, concatTurn, firstReplicaTurn]
  have hreplica : ∀ r : Fin 4, (replicasHeld (.of .tp) r).worldSize = 2 ∧
      ∀ rank ∈ (replicasHeld (.of .tp) r).ranks, (rank < 2 ↔ (r : Nat) < 2) := by decide +kernel
  have hsum : sumTurn.Agrees (replicasHeld (.of .tp)) := by
    refine ⟨fun _ _ => ⟨rfl, rfl⟩, fun _ _ _ => ⟨rfl, rfl, rfl⟩, fun r op hop => ?_⟩
    cases hop
    trivial
  have hconcat : concatTurn.Agrees (replicasHeld (.of .dp)) := by
    refine ⟨fun _ _ => ⟨rfl, rfl⟩, fun _ _ _ => ⟨rfl, rfl, rfl⟩, fun r op hop => ?_⟩
    cases hop
    simp [GroupOp.Valid, concatTurn]
  have hfirst : firstReplicaTurn.Agrees (replicasHeld (.of .tp)) := by
    refine ⟨fun _ _ => ⟨rfl, rfl⟩, fun r rank hrank => ⟨?_, rfl, rfl⟩, fun r op hop => ?_⟩
    · simp only [firstReplicaTurn, (hreplica r).2 rank hrank]
    · simp only [firstReplicaTurn, Option.mem_ite_none_right, Option.mem_some] at hop
      obtain ⟨-, rfl⟩ := hop
      rw [(hreplica r).1]
      exact Nat.one_lt_two
  exact replicas_run.turns_converge intNumerics (fun r => r % 2) (fun t ht => hgetters t.slot (hslots t ht))
    (List.forall_mem_cons.mpr ⟨hsum, List.forall_mem_cons.mpr ⟨hconcat, List.forall_mem_singleton.mpr hfirst⟩⟩)

end B70DualTP.Coordinator
