import B70DualTP.Torch.Collectives
import B70DualTP.Coordinator.GroupCoordinator

/-! broadcast_tensor_dict as a joint program of a group: the source's loop and the
receivers' loops issue the same broadcasts, and every rank ends with the source's dictionary. -/
namespace B70DualTP.Coordinator
open Library Torch Communicator
variable {V O X A B : Type} (num : Numerics V)

/-- The coordinators of one group, rank by rank. -/
structure Members (W : Nat) where
  ranks : List Nat
  nodup : ranks.Nodup
  length_ranks : ranks.length = W
  cpuGroup : ProcessGroup
  ranks_cpuGroup : cpuGroup.ranks = ranks
  deviceGroup : ProcessGroup
  ranks_deviceGroup : deviceGroup.ranks = ranks
  mqBroadcaster : Bool
  member : Fin W → GroupCoordinator
  member_ranks : ∀ r, (member r).ranks = ranks
  member_rank : ∀ r, (member r).rankInGroup = r
  member_cpuGroup : ∀ r, (member r).cpuGroup = cpuGroup
  member_deviceGroup : ∀ r, (member r).deviceGroup = deviceGroup
  member_mq : ∀ r, (member r).mqBroadcaster = mqBroadcaster

/-- What the members of a group must agree on in a broadcast. -/
inductive Signature where
  | tensor (root : Int) (group : ProcessGroup) (shape : List Nat) (dtype : DType)
  | object (root : Int) (group : ProcessGroup)
  | messageQueue
  deriving DecidableEq

def signature : Call V O → Option Signature
  | .broadcast t src g => some (.tensor src g t.shape t.dtype)
  | .broadcastObjectList _ src g => some (.object src g)
  | .mqBroadcastObject _ => some .messageQueue
  | _ => none

/-- All ranks issue the same broadcast. -/
def Aligned {W : Nat} (row : Fin W → Call V O) : Prop := ∃ s, ∀ r, signature (row r) = some s

/-- Values that are equal up to the index of the device a tensor is on. -/
def Value.Same : Value V X → Value V X → Prop
  | .tensor t, .tensor u => u.shape = t.shape ∧ u.data = t.data ∧ u.dtype = t.dtype ∧ u.device.type = t.device.type
  | .other v, .other v' => v' = v
  | _, _ => False

def SameEntries (entries entries' : Entries V X) : Prop :=
  List.Forall₂ (fun p q => q.1 = p.1 ∧ p.2.Same q.2) entries entries'

/-- No value of the dictionary is itself a TensorMetadata. -/
def TensorDict.Plain (d : TensorDict V X) : Prop := ∀ p ∈ d.entries, ∀ m, p.2 ≠ .other (.metadata m)

section Family
variable {W : Nat} (group : Members W) (process : Fin W → Process) (src : Fin W)

def localTensor (r : Fin W) (t : Tensor V) : Tensor V :=
  if r = src then t else (metadataOf t).empty num (process r).currentDevice

/-- One rank's turn of the loop. -/
def broadcastValue (r : Fin W) : Value V X → Dist V (MetadataList X) (Value V X)
  | .other v => pure (.other v)
  | .tensor t =>
    let buffer := localTensor num process src r t
    if t.numel = 0 then pure (.tensor buffer) else do
      let srcRank ← getItem (group.member r).ranks (src : Nat)
      let received ← Dist.broadcast buffer ((group.member r).commGroup buffer) srcRank
      return .tensor (if r = src then t else received)

/-- One rank's loop, with the dictionary it ends with. -/
def broadcastLoop (r : Fin W) (entries : Entries V X) : Dist V (MetadataList X) (Entries V X) :=
  if r = src then do
    (group.member r).broadcastTensors (src : Nat) ((keyedTensors entries).map Prod.snd)
    return entries
  else (group.member r).broadcastEntries num (process r) (src : Nat) (entries.map fun p => (p.1, p.2.toMeta))

/-- Source and receivers take the loop's turns in the same way. -/
theorem broadcastLoop_cons (r : Fin W) (key : String) (v : Value V X) (entries : Entries V X)
    (hplain : ∀ m, v ≠ .other (.metadata m)) :
    broadcastLoop num group process src r ((key, v) :: entries) =
      (do
        let v ← broadcastValue num group process src r v
        let entries ← broadcastLoop num group process src r entries
        return (key, v) :: entries) := by
  by_cases hr : r = src
  · simp only [broadcastLoop, if_pos hr]
    cases v with
    | other v => simp [keyedTensors, broadcastValue]
    | tensor t =>
      by_cases ht : t.numel = 0
      · simp [keyedTensors, broadcastValue, GroupCoordinator.broadcastTensors, localTensor, hr, ht]
      · simp [keyedTensors, broadcastValue, GroupCoordinator.broadcastTensors, localTensor, hr, ht]
  · simp only [broadcastLoop, if_neg hr, List.map_cons]
    cases v with
    | other v =>
      cases v with
      | metadata m => exact absurd rfl (hplain m)
      | object x => simp [Value.toMeta, broadcastValue, GroupCoordinator.broadcastEntries]
    | tensor t =>
      have hnumel : ((metadataOf t).empty num (process r).currentDevice).numel = t.numel := rfl
      by_cases ht : t.numel = 0
      · simp [Value.toMeta, broadcastValue, GroupCoordinator.broadcastEntries, localTensor, hr, hnumel, ht]
      · simp [Value.toMeta, broadcastValue, GroupCoordinator.broadcastEntries, localTensor, hr, hnumel, ht]

theorem localTensor_spec (r : Fin W) (t : Tensor V) :
    (localTensor num process src r t).shape = t.shape ∧ (localTensor num process src r t).dtype = t.dtype ∧
      (localTensor num process src r t).device.type = t.device.type := by
  simp only [localTensor]
  split
  · exact ⟨rfl, rfl, rfl⟩
  · refine ⟨rfl, rfl, ?_⟩
    change ((t.device.type).at _).type = _
    cases t.device <;> rfl

/-- The group an entry travels on is the same for all ranks. -/
theorem commGroup_localTensor (r : Fin W) (t : Tensor V) :
    (group.member r).commGroup (localTensor num process src r t) =
      if t.isCpu then group.cpuGroup else group.deviceGroup := by
  rw [GroupCoordinator.commGroup, Tensor.isCpu_congr (localTensor_spec num process src r t).2.2,
    group.member_cpuGroup, group.member_deviceGroup]

def Members.globalRank (r : Fin W) : Nat := group.ranks.get (r.cast group.length_ranks.symm)

theorem Members.getItem_ranks (r s : Fin W) :
    getItem (group.member s).ranks (r : Nat) = .ok (group.globalRank r) := by
  rw [group.member_ranks]
  exact getItem_natCast (by rw [group.length_ranks]; exact r.2)

theorem Members.groupRank?_globalRank (r : Fin W) {g : ProcessGroup} (hg : g.ranks = group.ranks) :
    g.groupRank? (group.globalRank r : Nat) = some r := by
  have hlt : (r : Nat) < g.ranks.length := by rw [hg, group.length_ranks]; exact r.2
  have h := groupRank?_getElem (g := g) (hg ▸ group.nodup) hlt
  have he : g.ranks[(r : Nat)] = group.globalRank r := by simp [Members.globalRank, hg]
  rwa [he] at h

theorem broadcastValue_finishes (v : Value V X) :
    Script.Finishes (meaning num) Aligned (fun r => broadcastValue num group process src r v)
      fun vs => ∀ r, v.Same (vs r) := by
  cases v with
  | other v => exact Script.finishes_pure fun _ => rfl
  | tensor t =>
    by_cases ht : t.numel = 0
    · simp only [broadcastValue, ht, if_true]
      apply Script.finishes_pure
      intro r
      obtain ⟨hs, hd, hv⟩ := localTensor_spec num process src r t
      have hempty : ∀ u : Tensor V, u.shape = t.shape → u.data = [] := fun u hu => by
        rw [← List.length_eq_zero_iff, u.wf, hu]
        exact ht
      exact ⟨hs, (hempty _ hs).trans (hempty t rfl).symm, hd, hv⟩
    · simp only [broadcastValue, ht, if_false, group.getItem_ranks, Script.liftM_eq, Script.lift_ok, pure_bind,
        commGroup_localTensor]
      -- the root is the source in the group of either kind
      have hroot : (if t.isCpu then group.cpuGroup else group.deviceGroup).groupRank? (group.globalRank src : Nat) =
          some src := by
        split
        · exact group.groupRank?_globalRank src group.ranks_cpuGroup
        · exact group.groupRank?_globalRank src group.ranks_deviceGroup
      have hspec := fun r => localTensor_spec num process src r t
      have hmeaning := meaning_broadcast (O := MetadataList X) num hroot
        (t := fun r => localTensor num process src r t)
        fun r s => ⟨(hspec s).1.trans (hspec r).1.symm, (hspec s).2.1.trans (hspec r).2.1.symm⟩
      choose received hreceived hshape hdata hdevice hdtype using hmeaning
      refine Script.finishes_ask ⟨.tensor (group.globalRank src : Nat)
        (if t.isCpu then group.cpuGroup else group.deviceGroup) t.shape t.dtype, fun r => ?_⟩ hreceived ?_
      · simp [signature, (hspec r).1, (hspec r).2.1]
      · apply Script.finishes_pure
        intro r
        by_cases hr : r = src
        · simp only [hr, if_true]
          exact ⟨rfl, rfl, rfl, rfl⟩
        · simp only [hr, if_false]
          refine ⟨(hshape r).trans (hspec r).1, ?_, (hdtype r).trans (hspec r).2.1,
            (congrArg Device.type (hdevice r)).trans (hspec r).2.2⟩
          rw [hdata r]
          simp [localTensor]

theorem broadcastLoop_finishes (entries : Entries V X)
    (hplain : ∀ p ∈ entries, ∀ m, p.2 ≠ .other (.metadata m)) :
    Script.Finishes (meaning num) Aligned (fun r => broadcastLoop num group process src r entries)
      fun result => ∀ r, SameEntries entries (result r) := by
  induction entries with
  | nil =>
    have hnil : ∀ r, broadcastLoop num group process src r ([] : Entries V X) = pure [] := by
      intro r
      simp only [broadcastLoop]
      split <;> rfl
    simp only [hnil]
    exact Script.finishes_pure fun _ => .nil
  | cons p entries ih =>
    obtain ⟨key, v⟩ := p
    obtain ⟨hv, hrest⟩ := List.forall_mem_cons.mp hplain
    simp only [broadcastLoop_cons num group process src _ key v entries hv]
    apply Script.finishes_bind (broadcastValue_finishes num group process src v)
    intro vs hvs
    apply Script.finishes_bind (ih hrest)
    intro result hresult
    exact Script.finishes_pure fun r => .cons ⟨rfl, hvs r⟩ (hresult r)

theorem Members.worldSize_member (r : Fin W) : (group.member r).worldSize = W := by
  rw [GroupCoordinator.worldSize, group.member_ranks, group.length_ranks]

theorem Members.assertSrc_member (r : Fin W) : (group.member r).assertSrc (src : Nat) = .ok () := by
  have hlt : ((src : Nat) : Int) < W := by exact_mod_cast src.2
  simp [GroupCoordinator.assertSrc, assert, group.worldSize_member, hlt]

theorem Members.rankInGroup_eq_iff (r : Fin W) :
    ((group.member r).rankInGroup : Int) = (src : Nat) ↔ r = src := by
  rw [group.member_rank, Int.natCast_inj, Fin.val_inj]

theorem broadcastObject_finishes (hW : 2 ≤ W) (hmq : group.mqBroadcaster = true → (src : Nat) = 0)
    (m : MetadataList X) :
    Script.Finishes (meaning num) Aligned
      (fun r => (group.member r).broadcastObject (if r = src then some m else none) (src : Nat))
      fun got => ∀ r, got r = some m := by
  have hW' : W ≠ 1 := by omega
  have : NeZero W := ⟨by omega⟩
  simp only [GroupCoordinator.broadcastObject, group.assertSrc_member, group.worldSize_member, hW', if_false,
    group.member_mq, Script.liftM_eq, Script.lift_ok, pure_bind, group.getItem_ranks, group.rankInGroup_eq_iff,
    group.member_cpuGroup]
  cases hq : group.mqBroadcaster with
  | true =>
    have hzero : src = 0 := Fin.ext (by simpa using hmq hq)
    have hassert : assert (((src : Nat) : Int) = 0) "Message queue broadcaster only supports src=0" = .ok () := by
      simp [assert, hzero]
    simp only [if_true, hassert, Script.lift_ok, pure_bind]
    refine Script.finishes_ask ⟨.messageQueue, fun r => rfl⟩
      (fun r => meaning_mqBroadcastObject num (o := m) (by simp [hzero]) r) ?_
    exact Script.finishes_pure fun _ => rfl
  | false =>
    have hreply := meaning_broadcastObjectList (V := V) num (group.groupRank?_globalRank src group.ranks_cpuGroup)
      (fun r => if r = src then some m else none) (if_pos rfl)
    have hsame : ∀ r, (if r = src then
          Dist.broadcastObjectList group.cpuGroup (if r = src then some m else none) (group.globalRank src : Nat) >>=
            fun _ => pure (if r = src then some m else none)
        else Dist.broadcastObjectList group.cpuGroup none (group.globalRank src : Nat) >>= fun y => pure (some y) :
          Dist V (MetadataList X) (Option (MetadataList X))) =
        Dist.broadcastObjectList group.cpuGroup (if r = src then some m else none) (group.globalRank src : Nat) >>=
          fun y => pure (if r = src then some m else some y) := by
      intro r
      split <;> rfl
    simp only [Bool.false_eq_true, if_false, hsame]
    refine Script.finishes_ask ⟨.object (group.globalRank src : Nat) group.cpuGroup, fun r => rfl⟩ hreply ?_
    exact Script.finishes_pure fun r => by simp

private theorem broadcastTensorDict_eq (hW : 2 ≤ W) {dicts : Fin W → Option (TensorDict V X)} {d : TensorDict V X}
    (hsrc : dicts src = some d) (hinit : ∀ r, (process r).isInitialized = true) (r : Fin W) :
    (group.member r).broadcastTensorDict num (process r) (dicts r) (src : Nat) =
      (group.member r).broadcastObject (if r = src then some (splitTensorDict d).1 else none) (src : Nat) >>=
        fun got => if r = src then
            broadcastLoop num group process src r d.entries >>= fun entries => pure (some entries)
          else match got with
            | none => Script.raise .typeError
            | some m => (group.member r).broadcastEntries num (process r) (src : Nat) m.items >>=
              fun entries => pure (some entries) := by
  have hW' : W ≠ 1 := by omega
  have hskip : ¬ ((!(process r).isInitialized) = true ∨ (group.member r).worldSize = 1) := by
    simp [hinit, group.worldSize_member, hW']
  simp only [GroupCoordinator.broadcastTensorDict, if_neg hskip, group.assertSrc_member, Script.liftM_eq,
    Script.lift_ok, pure_bind, group.rankInGroup_eq_iff]
  by_cases hr : r = src
  · simp [hr, hsrc, broadcastLoop, map_snd_keyedTensors]
  · apply (if_neg hr).trans
    rw [if_neg hr]
    exact congrArg _ (funext fun got => (if_neg hr).symm)

/-- All ranks issue the same broadcasts, and each ends with the source's dictionary. -/
theorem broadcastTensorDict_delivers (hW : 2 ≤ W) (hmq : group.mqBroadcaster = true → (src : Nat) = 0)
    (hinit : ∀ r, (process r).isInitialized = true) (d : TensorDict V X) (hplain : d.Plain)
    (dicts : Fin W → Option (TensorDict V X)) (hsrc : dicts src = some d) :
    ∃ tr, ∃ result : Fin W → Entries V X, Script.Runs (meaning num)
        (fun r => (group.member r).broadcastTensorDict num (process r) (dicts r) (src : Nat)) tr
        (fun r => .ok (some (result r))) ∧
      (∀ row ∈ tr, Aligned row) ∧ ∀ r, SameEntries d.entries (result r) := by
  have hloop : ∀ r, broadcastLoop num group process src r d.entries =
      if r = src then broadcastLoop num group process src r d.entries
      else (group.member r).broadcastEntries num (process r) (src : Nat) (splitTensorDict d).1.items := by
    intro r
    split
    · rfl
    · rename_i hr
      simp [broadcastLoop, hr, splitTensorDict]
  have hfin : Script.Finishes (meaning num) Aligned
      (fun r => (group.member r).broadcastTensorDict num (process r) (dicts r) (src : Nat))
      fun got => ∀ r, ∃ entries, got r = some entries ∧ SameEntries d.entries entries := by
    simp only [broadcastTensorDict_eq num group process src hW hsrc hinit]
    apply Script.finishes_bind (broadcastObject_finishes num group src hW hmq _)
    intro got hgot
    have hrest : ∀ r, (if r = src then
          broadcastLoop num group process src r d.entries >>= fun entries => pure (some entries)
        else match got r with
          | none => Script.raise .typeError
          | some m => (group.member r).broadcastEntries num (process r) (src : Nat) m.items >>=
            fun entries => pure (some entries) : Dist V (MetadataList X) (Option (Entries V X))) =
        broadcastLoop num group process src r d.entries >>= fun entries => pure (some entries) := by
      intro r
      rw [hgot r]
      split
      · rfl
      · rename_i hr
        rw [hloop r, if_neg hr]
    simp only [hrest]
    apply Script.finishes_bind (broadcastLoop_finishes num group process src d.entries hplain)
    intro result h
    exact Script.finishes_pure fun r => ⟨result r, rfl, h r⟩
  obtain ⟨tr, got, hrun, htr, hgot⟩ := hfin
  choose result hresult hsame using hgot
  refine ⟨tr, result, ?_, htr, hsame⟩
  have he : got = fun r => some (result r) := funext hresult
  rwa [he] at hrun

end Family

def pairMembers : Members 2 where
  ranks := [0, 1]
  nodup := by decide
  length_ranks := rfl
  cpuGroup := pairCpuGroup
  ranks_cpuGroup := rfl
  deviceGroup := pairDeviceGroup
  ranks_deviceGroup := rfl
  mqBroadcaster := false
  member := pairCoordinator
  member_ranks _ := rfl
  member_rank _ := rfl
  member_cpuGroup _ := rfl
  member_deviceGroup _ := rfl
  member_mq _ := rfl

def cardDict : TensorDict Int Int where
  entries := [("step", .other (.object 3)), ("hidden", .tensor cardTensor), ("size", .other (.object 2))]
  nodup := by decide

theorem broadcast_cardDict :
    ∃ tr, ∃ result : Fin 2 → Entries Int Int, Script.Runs (meaning intNumerics)
        (fun r => (pairMembers.member r).broadcastTensorDict intNumerics (pairProcess r)
          (if r = 1 then some cardDict else none) ((1 : Fin 2) : Nat)) tr (fun r => .ok (some (result r))) ∧
      (∀ row ∈ tr, Aligned row) ∧ ∀ r, SameEntries cardDict.entries (result r) :=
  broadcastTensorDict_delivers intNumerics pairMembers pairProcess 1 (by decide) (fun h => by cases h) (fun _ => rfl)
    cardDict (by simp [TensorDict.Plain, cardDict]) _ rfl

end B70DualTP.Coordinator
