import B70DualTP.Communicator.Shapes

/-! The source argument of broadcast: a group rank for the base communicator, a global
rank for torch.distributed, to which the XPU communicator hands it unchanged. -/
namespace B70DualTP.Communicator
open Library Torch
variable {V O : Type} {num : Numerics V} {cpuGroup deviceGroup : ProcessGroup}
  {device : Fin cpuGroup.ranks.length → Device} {uniqueName : String}
  {s : List Nat} {dt : DType} {x : Fin cpuGroup.ranks.length → Tensor V}

/-- Every input ends up with the elements that the root holds. -/
def Delivers (x : Fin cpuGroup.ranks.length → Tensor V) (root : Fin cpuGroup.ranks.length)
    (y : Fin cpuGroup.ranks.length → Tensor V) : Prop :=
  ∀ r, (y r).shape = (x r).shape ∧ (y r).data = (x root).data ∧ (y r).device = (x r).device ∧
    (y r).dtype = (x r).dtype

/-- The members call the communicator's broadcast, and it delivers the tensor of the member
whose rank in the group is src. -/
def XpuBroadcastDelivers (num : Numerics V) (O : Type) (cpuGroup deviceGroup : ProcessGroup)
    (device : Fin cpuGroup.ranks.length → Device) (uniqueName : String) (hoststaged : Bool)
    (x : Fin cpuGroup.ranks.length → Tensor V) (src : Fin cpuGroup.ranks.length) : Prop :=
  Script.Completes (meaning (O := O) num)
    (fun r => (groupMember cpuGroup deviceGroup device uniqueName hoststaged r).broadcast (x r) (src : Nat))
      (Delivers x src)

section Runs
variable {hoststaged : Bool} {src : Int}

/-- The source that torch.distributed finds is the one whose tensor is delivered. -/
theorem broadcast_completes (hx : Uniform s dt x) {root : Fin cpuGroup.ranks.length}
    (hroot : (if hoststaged then cpuGroup else deviceGroup).groupRank? src = some root) :
    Script.Completes (meaning (O := O) num)
      (fun r => (groupMember cpuGroup deviceGroup device uniqueName hoststaged r).broadcast (x r) src)
        (Delivers x root) := by
  cases hoststaged with
  | false =>
    have hbind : ∀ r, (groupMember cpuGroup deviceGroup device uniqueName false r).broadcast (x r) src =
        (Dist.broadcast (x r) deviceGroup src : Dist V O _) >>= pure := fun r => (bind_pure _).symm
    simp only [hbind]
    exact Script.completes_ask (meaning_broadcast num hroot hx.compatible) fun y hy => Script.completes_pure hy
  | true =>
    have hc : Uniform s dt fun r => (x r).toDevice .cpu := hx
    refine Script.completes_ask (meaning_broadcast num hroot hc.compatible) fun y hy => Script.completes_pure ?_
    intro r
    obtain ⟨hshape, hdata, -, hdtype⟩ := hy r
    exact ⟨hshape, hdata, rfl, hdtype⟩

theorem broadcast_raises (hroot : (if hoststaged then cpuGroup else deviceGroup).groupRank? src = none) :
    Script.Runs (meaning (O := O) num)
      (fun r => (groupMember cpuGroup deviceGroup device uniqueName hoststaged r).broadcast (x r) src)
        [fun r => .broadcast (if hoststaged then (x r).toDevice .cpu else x r)
          src (if hoststaged then cpuGroup else deviceGroup)] fun _ => .error .distributedError := by
  cases hoststaged with
  | false =>
    have hbind : ∀ r, (groupMember cpuGroup deviceGroup device uniqueName false r).broadcast (x r) src =
        (Dist.broadcast (x r) deviceGroup src : Dist V O _) >>= pure := fun r => (bind_pure _).symm
    simp only [hbind]
    exact Script.runs_ask_error (meaning_broadcast_missing num hroot)
  | true => exact Script.runs_ask_error (meaning_broadcast_missing num hroot)

end Runs

section Members
variable (hranks : cpuGroup.ranks.Nodup) (hmembers : deviceGroup.ranks = cpuGroup.ranks)
include hranks hmembers

theorem groupRank?_member (hoststaged : Bool) (r : Fin cpuGroup.ranks.length) :
    (if hoststaged then cpuGroup else deviceGroup).groupRank? (cpuGroup.ranks.get r : Nat) = some (r : Nat) := by
  have h : cpuGroup.groupRank? (cpuGroup.ranks.get r : Nat) = some (r : Nat) := groupRank?_getElem hranks r.2
  cases hoststaged with
  | true => exact h
  | false =>
    rw [ProcessGroup.groupRank?] at h
    rwa [if_neg Bool.false_ne_true, ProcessGroup.groupRank?, hmembers]

/-- The base communicator translates the group rank. -/
theorem base_broadcast_delivers (hx : Uniform s dt x) (src : Fin cpuGroup.ranks.length) :
    Script.Completes (meaning (O := O) num)
      (fun r => (groupMember cpuGroup deviceGroup device uniqueName false r).toDeviceCommunicatorBase.broadcast
        (x r) (src : Nat)) (Delivers x src) := by
  by_cases hW : cpuGroup.ranks.length = 1
  · have hsingle : ∀ r,
        (groupMember cpuGroup deviceGroup device uniqueName false r).toDeviceCommunicatorBase.broadcast (x r)
          (src : Nat) = (pure (x r) : Dist V O _) := fun r => if_pos hW
    simp only [hsingle]
    refine Script.completes_pure fun r => ⟨rfl, ?_, rfl, rfl⟩
    have hr : r = src := Fin.ext (by omega)
    rw [hr]
  · have hbind : ∀ r,
        (groupMember cpuGroup deviceGroup device uniqueName false r).toDeviceCommunicatorBase.broadcast (x r)
          (src : Nat) =
            (Dist.broadcast (x r) deviceGroup (cpuGroup.ranks.get src : Nat) : Dist V O _) >>= pure := by
      intro r
      have hget : getItem cpuGroup.ranks (src : Nat) = .ok (cpuGroup.ranks.get src) := getItem_natCast src.2
      apply (if_neg hW).trans
      change (Script.lift (getItem cpuGroup.ranks (src : Nat)) >>= fun rank =>
        Dist.broadcast (x r) deviceGroup rank) = _
      rw [hget, bind_pure]
      rfl
    simp only [hbind]
    have hroot := groupRank?_member hranks hmembers false src
    exact Script.completes_ask (meaning_broadcast num hroot hx.compatible) fun y hy => Script.completes_pure hy

/-- broadcast delivers the tensor of the member with group rank src exactly when the member
with global rank src exists and holds the same elements. -/
theorem xpuBroadcastDelivers_iff (hx : Uniform s dt x) (hoststaged : Bool) (src : Fin cpuGroup.ranks.length) :
    XpuBroadcastDelivers num O cpuGroup deviceGroup device uniqueName hoststaged x src ↔
      ∃ root : Fin cpuGroup.ranks.length, cpuGroup.ranks.get root = src ∧ (x root).data = (x src).data := by
  have : NeZero cpuGroup.ranks.length := ⟨Nat.ne_zero_of_lt src.2⟩
  by_cases h : ∃ root : Fin cpuGroup.ranks.length, cpuGroup.ranks.get root = src
  · obtain ⟨root, hsrc⟩ := h
    have hroot := groupRank?_member hranks hmembers hoststaged root
    rw [hsrc] at hroot
    apply (broadcast_completes hx hroot).and_iff
    intro y hy
    constructor
    · intro hdelivers
      exact ⟨root, hsrc, (hy root).2.1.symm.trans (hdelivers root).2.1⟩
    · rintro ⟨root', hsrc', hdata⟩ r
      obtain rfl : root = root' := List.nodup_iff_injective_get.mp hranks (hsrc.trans hsrc'.symm)
      obtain ⟨hshape, hroot, hrest⟩ := hy r
      exact ⟨hshape, hroot.trans hdata, hrest⟩
  · have hmissing : (if hoststaged then cpuGroup else deviceGroup).groupRank? ((src : Nat) : Int) = none := by
      apply groupRank?_eq_none
      intro rank hrank he
      have hmem : rank ∈ cpuGroup.ranks := by
        cases hoststaged with
        | true => exact hrank
        | false => rwa [if_neg Bool.false_ne_true, hmembers] at hrank
      obtain ⟨root, hget⟩ := List.mem_iff_get.mp hmem
      exact h ⟨root, hget.trans (Int.ofNat.inj he)⟩
    apply iff_of_false (Script.not_completes_of_raises (broadcast_raises hmissing))
    rintro ⟨root, hsrc, -⟩
    exact h ⟨root, hsrc⟩

end Members

def secondCpuGroup : ProcessGroup := ⟨2, "gloo", [2, 3]⟩
def secondDeviceGroup : ProcessGroup := ⟨3, "xccl", [2, 3]⟩

def cardInput (r : Fin 2) : Tensor Int :=
  { shape := [1], data := [((r : Nat) : Int)], wf := rfl, device := pairDevice r, dtype := .float16 }

private theorem cardInput_uniform : Uniform [1] .float16 cardInput := fun _ => ⟨rfl, rfl⟩

theorem pair_broadcast_delivers :
    XpuBroadcastDelivers intNumerics Unit pairCpuGroup pairDeviceGroup pairDevice "tp:0" true cardInput
      ⟨1, Nat.one_lt_two⟩ := by
  have hranks : pairCpuGroup.ranks.Nodup := by decide
  have hmembers : pairDeviceGroup.ranks = pairCpuGroup.ranks := rfl
  exact (xpuBroadcastDelivers_iff hranks hmembers cardInput_uniform true _).mpr ⟨⟨1, Nat.one_lt_two⟩, rfl, rfl⟩

/-- Rank 0 is no member of the second group, where the base method delivers. -/
theorem second_broadcast_raises :
    ¬ XpuBroadcastDelivers intNumerics Unit secondCpuGroup secondDeviceGroup pairDevice "tp:1" true cardInput
      ⟨0, Nat.two_pos⟩ ∧
    Script.Completes (meaning (O := Unit) intNumerics) (fun r : Fin 2 =>
      (groupMember secondCpuGroup secondDeviceGroup pairDevice "tp:1" false r).toDeviceCommunicatorBase.broadcast
        (cardInput r) 0) (@Delivers Int secondCpuGroup cardInput ⟨0, Nat.two_pos⟩) := by
  have : NeZero secondCpuGroup.ranks.length := ⟨Nat.succ_ne_zero 1⟩
  have hranks : secondCpuGroup.ranks.Nodup := by decide
  have hmembers : secondDeviceGroup.ranks = secondCpuGroup.ranks := rfl
  exact ⟨Script.not_completes_of_raises (broadcast_raises rfl),
    base_broadcast_delivers hranks hmembers cardInput_uniform ⟨0, Nat.two_pos⟩⟩

end B70DualTP.Communicator
