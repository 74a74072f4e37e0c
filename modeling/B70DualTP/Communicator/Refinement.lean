import B70DualTP.Communicator.Staging

/-! The host-staged branch of every collective refines its device branch. -/
namespace B70DualTP.Communicator
open Library Torch
variable {V O A : Type} (num : Numerics V)

/-- A call of one of the collectives that have both branches. -/
inductive XpuCall (V : Type) where
  | allReduce (input : Tensor V)
  | allGather (input : Tensor V) (dim : Int)
  | reduceScatter (input : Tensor V) (dim : Int)
  | reduceScatterv (input : Tensor V) (dim : Int) (sizes : Option (List Nat))
  | allGatherv (input : TensorArg V) (dim : Int) (sizes : Option (List Nat))
  | gather (input : Tensor V) (dst : Int) (dim : Int)
  | broadcast (input : Tensor V) (src : Int)
  deriving DecidableEq

/-- What a rank has after a collective: nothing, a tensor, or a list of tensors.
For broadcast it is the final contents of the input. -/
inductive Outcome (V : Type) where
  | none
  | one (tensor : Tensor V)
  | many (tensors : List (Tensor V))
  deriving DecidableEq, Repr

def Outcome.ofOption : Option (Tensor V) → Outcome V
  | .none => .none
  | some t => .one t

def Outcome.ofTensorArg : TensorArg V → Outcome V
  | .one t => .one t
  | .many ts => .many ts

def XpuCall.reduced : XpuCall V → Option DType
  | .allReduce input | .reduceScatter input _ | .reduceScatterv input _ _ => some input.dtype
  | _ => none

namespace XpuCommunicator

def perform (self : XpuCommunicator) : XpuCall V → Dist V O (Outcome V)
  | .allReduce input => return .one (← self.allReduce num input)
  | .allGather input dim => return .one (← self.allGather num input dim)
  | .reduceScatter input dim => return .one (← self.reduceScatter num input dim)
  | .reduceScatterv input dim sizes => return .one (← self.reduceScatterv num input dim sizes)
  | .allGatherv input dim sizes => return .ofTensorArg (← self.allGatherv num input dim sizes)
  | .gather input dst dim => return .ofOption (← self.gather num input dst dim)
  | .broadcast input src => return .one (← self.broadcast input src)

variable {num} {D : DType → Prop} (self : XpuCommunicator)

def withStaging (hoststaged : Bool) : XpuCommunicator := { self with hoststaged }

/-- The staged program makes the staged calls of the device program. -/
abbrev Stages (num : Numerics V) (D : DType → Prop) (staged device : Dist V O A) : Prop :=
  Script.Simulates (staging num self.cpuGroup) KeepsBuffer (DeviceCall self.deviceGroup D) staged device

private theorem stages_call {c : Call V O} {m : Dist V O A} {f : (stageCall num self.cpuGroup c).Resp → Dist V O A}
    {g : c.Resp → Dist V O A} (hm : m = (Dist.call (stageCall num self.cpuGroup c) >>= f))
    (hc : DeviceCall self.deviceGroup D c)
    (h : ∀ y, KeepsBuffer c (.ok y) → ∃ y', stageReply num self.cpuGroup c (.ok y) = .ok y' ∧
      self.Stages num D (f y') (g y)) : self.Stages num D m (Dist.call c >>= g) := by
  subst hm
  apply Prog.Simulates.call hc
  intro y hy
  cases y with
  | error e =>
    have he : (staging num self.cpuGroup).reply c (.error e) = Except.error e := by cases c <;> rfl
    rw [he]
    exact .ret _
  | ok y =>
    obtain ⟨y', he, hs⟩ := h y hy
    have he' : (staging num self.cpuGroup).reply c (.ok y) = Except.ok y' := he
    rw [he']
    exact hs

private theorem staged_back {input y : Tensor V} (hex : ExactHalf num)
    (hy : y.device = input.device ∧ y.dtype = input.dtype) :
    (stageReduce num y).castTo num input.device input.dtype = y := by
  rw [← hy.1, ← hy.2, unstage y hex]

private theorem stages_ret {a a' : A} (h : a = a') :
    self.Stages (O := O) num D (pure a) (pure a') := by
  subst h
  exact .ret _

theorem stages_allReduce (hex : ExactHalf num) (input : Tensor V) (hD : D input.dtype) :
    self.Stages (O := O) num D ((self.withStaging true).allReduce num input)
      ((self.withStaging false).allReduce num input) := by
  simp only [allReduce, withStaging, if_true, Bool.false_eq_true, if_false]
  rw [← bind_pure (Dist.allReduce input self.deviceGroup)]
  refine self.stages_call rfl ⟨rfl, hD⟩ fun y hy => ⟨_, rfl, self.stages_ret ?_⟩
  exact staged_back hex (hy y rfl)

private theorem toDevice_back {y : Tensor V} {device : Device} (h : y.device = device) :
    (y.toDevice .cpu).toDevice device = y := by
  subst h
  rfl

theorem stages_allGather (input : Tensor V) (dim : Int) :
    self.Stages (O := O) num D ((self.withStaging true).allGather num input dim)
      ((self.withStaging false).allGather num input dim) := by
  simp only [allGather, withStaging, if_true, Bool.false_eq_true, if_false, Bool.not_false, Bool.not_true,
   DeviceCommunicatorBase.allGather, Script.liftM_eq]
  apply Script.simulates_lift_bind
  intro n _
  refine self.stages_call rfl rfl fun y hy => ⟨_, rfl, ?_⟩
  have hb : (Tensor.toDevice y .cpu).toDevice input.device = y := toDevice_back (hy y rfl).1
  simp only [hb]
  exact Script.simulates_lift_bind fun output _ => Script.simulates_lift _

theorem stages_reduceScatter (hex : ExactHalf num) (input : Tensor V) (dim : Int) (hD : D input.dtype) :
    self.Stages (O := O) num D ((self.withStaging true).reduceScatter num input dim)
      ((self.withStaging false).reduceScatter num input dim) := by
  simp only [reduceScatter, withStaging, Tensor.contiguous, if_true, Bool.false_eq_true, if_false,
    Script.liftM_eq]
  apply Script.simulates_lift_bind
  intro t ht
  have hdt : D t.dtype := (Tensor.movedim_ok ht).2 ▸ hD
  refine Script.simulates_lift_bind fun n _ => Script.simulates_lift_bind fun _ _ => ?_
  refine self.stages_call rfl ⟨rfl, hdt, rfl⟩ fun y hy => ⟨_, rfl, ?_⟩
  have hb : (stageReduce num y).castTo num t.device t.dtype = y := staged_back hex (hy y rfl)
  rw [hb]
  exact Script.simulates_lift_bind fun output _ => .ret _

theorem stages_reduceScatterv (hex : ExactHalf num) (input : Tensor V) (dim : Int)
    (sizes : Option (List Nat)) (hD : D input.dtype) :
    self.Stages (O := O) num D ((self.withStaging true).reduceScatterv num input dim sizes)
      ((self.withStaging false).reduceScatterv num input dim sizes) := by
  simp only [reduceScatterv, withStaging, group, Tensor.contiguous, if_true, Bool.false_eq_true, if_false, Script.liftM_eq]
  apply Script.simulates_lift_bind
  intro t ht
  have hdt : D t.dtype := (Tensor.movedim_ok ht).2 ▸ hD
  refine Script.simulates_lift_bind fun n _ => Script.simulates_lift_bind fun chunk _ => ?_
  by_cases hr : ragged sizes
  · simp only [hr, if_true]
    have hs : (t.castTo num .cpu (reduceDType t.dtype)).split (sizes.getD []) =
        (t.split (sizes.getD [])).map (List.map (stageReduce num)) := split_stageReduce t _
    rw [hs]
    apply Script.simulates_map_bind
    intro splits hsplit
    have hds : ∀ u ∈ splits, D u.dtype := fun u hu => (Tensor.split_ok hsplit u hu).2 ▸ hdt
    refine self.stages_call rfl ⟨rfl, hdt, hds⟩ fun y hy => ⟨_, rfl, ?_⟩
    have hb : (stageReduce num y).castTo num t.device t.dtype = y := staged_back hex (hy y rfl)
    rw [hb]
    exact Script.simulates_lift_bind fun output _ => .ret _
  · simp only [hr, Bool.false_eq_true, if_false]
    refine self.stages_call rfl ⟨rfl, hdt, rfl⟩ fun y hy => ⟨_, rfl, ?_⟩
    have hb : (stageReduce num y).castTo num t.device t.dtype = y := staged_back hex (hy y rfl)
    rw [hb]
    exact Script.simulates_lift_bind fun output _ => .ret _

theorem stages_allGatherSingle (input : Tensor V) (sizes : Option (List Nat)) :
    self.Stages (O := O) num D ((self.withStaging true).allGatherSingle num input sizes)
      ((self.withStaging false).allGatherSingle num input sizes) := by
  cases sizes with
  | none =>
    simp only [allGatherSingle, withStaging, group, if_true, Bool.false_eq_true, if_false, Script.liftM_eq]
    apply Script.simulates_lift_bind
    intro n _
    refine self.stages_call rfl rfl fun ys hy => ⟨_, rfl, ?_⟩
    rw [getItem_map]
    refine Script.simulates_map_bind fun y hmem => self.stages_ret ?_
    obtain ⟨b, hb, hd⟩ := hy ys rfl y (getItem_mem hmem)
    rw [List.mem_singleton.mp hb] at hd
    exact toDevice_back hd
  | some sizes =>
    simp only [allGatherSingle, withStaging, group, if_true, Bool.false_eq_true, if_false, Script.liftM_eq]
    refine Script.simulates_lift_bind fun _ _ => Script.simulates_lift_bind fun n _ => ?_
    refine Script.simulates_lift_bind fun size _ => Script.simulates_lift_bind fun _ _ => ?_
    have hbuf : sizes.map (fun size => Tensor.empty num (size :: (input.toDevice .cpu).shape.drop 1)
        (input.toDevice .cpu).dtype (input.toDevice .cpu).device) =
          (sizes.map fun size => Tensor.empty num (size :: input.shape.drop 1) input.dtype input.device).map
            (·.toDevice .cpu) := by
      rw [List.map_map]
      rfl
    rw [hbuf]
    refine self.stages_call rfl rfl fun ys hy => ⟨_, rfl, ?_⟩
    rw [Tensor.cat_toDevice]
    refine Script.simulates_map_bind fun y hcat => self.stages_ret ?_
    obtain ⟨u, hu, hd, -⟩ := Tensor.cat_ok hcat
    obtain ⟨b, hb, hdb⟩ := hy ys rfl u hu
    obtain ⟨size, -, rfl⟩ := List.mem_map.mp hb
    exact toDevice_back (hd.trans hdb)

theorem stages_allGatherEach (sizes : Option (List Nat)) (inputs : List (Tensor V)) :
    self.Stages (O := O) num D ((self.withStaging true).allGatherEach num sizes inputs)
      ((self.withStaging false).allGatherEach num sizes inputs) := by
  induction inputs with
  | nil => exact .ret _
  | cons input inputs ih =>
    apply Script.simulates_bind (self.stages_allGatherSingle input sizes)
    intro output
    exact Script.simulates_bind ih fun outputs => .ret _

theorem stages_allGatherv (input : TensorArg V) (dim : Int) (sizes : Option (List Nat)) :
    self.Stages (O := O) num D ((self.withStaging true).allGatherv num input dim sizes)
      ((self.withStaging false).allGatherv num input dim sizes) := by
  simp only [allGatherv]
  by_cases hd : dim = 0
  · simp only [hd, ne_eq, not_true_eq_false, if_false]
    cases input with
    | one input => exact Script.simulates_bind (self.stages_allGatherSingle input _) fun _ => .ret _
    | many inputs => exact Script.simulates_bind (self.stages_allGatherEach _ inputs) fun _ => .ret _
  · simp only [hd, ne_eq, not_false_eq_true, if_true]
    exact .ret _

theorem stages_gather (input : Tensor V) (dst dim : Int) :
    self.Stages (O := O) num D ((self.withStaging true).gather num input dst dim)
      ((self.withStaging false).gather num input dst dim) := by
  simp only [gather, withStaging, group, if_true, Bool.false_eq_true, if_false, Script.liftM_eq]
  apply Script.simulates_lift_bind
  intro _ _
  refine self.stages_call rfl rfl fun y hy => ⟨_, rfl, ?_⟩
  have hb : (Tensor.toDevice y .cpu).toDevice input.device = y := toDevice_back (hy y rfl).1
  simp only [hb]
  by_cases hd : (self.rankInGroup : Int) = dst
  · simp only [hd, if_true]
    exact Script.simulates_lift_bind fun output _ => .ret _
  · simp only [hd, if_false]
    exact .ret _

theorem stages_broadcast (input : Tensor V) (src : Int) :
    self.Stages (O := O) num D ((self.withStaging true).broadcast input src)
      ((self.withStaging false).broadcast input src) := by
  simp only [broadcast, withStaging, if_true, Bool.false_eq_true, if_false]
  rw [← bind_pure (Dist.broadcast input self.deviceGroup src)]
  refine self.stages_call rfl rfl fun y hy => ⟨_, rfl, self.stages_ret ?_⟩
  exact toDevice_back (hy y rfl).1

/-- Each operation, staged, makes the staged calls of its device branch. -/
theorem stages_perform (hex : ExactHalf num) (x : XpuCall V) (hD : ∀ d, x.reduced = some d → D d) :
    self.Stages (O := O) num D ((self.withStaging true).perform num x)
      ((self.withStaging false).perform num x) := by
  cases x with
  | allReduce input =>
    exact Script.simulates_bind (self.stages_allReduce hex input (hD _ rfl)) fun _ => .ret _
  | allGather input dim => exact Script.simulates_bind (self.stages_allGather input dim) fun _ => .ret _
  | reduceScatter input dim =>
    exact Script.simulates_bind (self.stages_reduceScatter hex input dim (hD _ rfl)) fun _ => .ret _
  | reduceScatterv input dim sizes =>
    exact Script.simulates_bind (self.stages_reduceScatterv hex input dim sizes (hD _ rfl)) fun _ => .ret _
  | allGatherv input dim sizes =>
    exact Script.simulates_bind (self.stages_allGatherv input dim sizes) fun _ => .ret _
  | gather input dst dim => exact Script.simulates_bind (self.stages_gather input dst dim) fun _ => .ret _
  | broadcast input src => exact Script.simulates_bind (self.stages_broadcast input src) fun _ => .ret _

end XpuCommunicator

section Group
variable {num} {cpuGroup deviceGroup : ProcessGroup} {device : Fin cpuGroup.ranks.length → Device}
  {uniqueName : String}

/-- The group runs, and every rank r ends with the outcome o r. -/
def Performs (num : Numerics V) (cpuGroup deviceGroup : ProcessGroup)
    (device : Fin cpuGroup.ranks.length → Device) (uniqueName : String) (hoststaged : Bool)
    (x : Fin cpuGroup.ranks.length → XpuCall V) (o : Fin cpuGroup.ranks.length → Py (Outcome V)) : Prop :=
  ∃ tr, Script.Runs (meaning (O := Unit) num)
    (fun r => (groupMember cpuGroup deviceGroup device uniqueName hoststaged r).perform num (x r)) tr o

/-- With the switch on, a group has exactly the outcomes it has with the switch off,
for ranks that do not reduce two different dtypes with one upcast. -/
theorem hoststaged_refines_device (hex : ExactHalf num) (hr : cpuGroup.ranks = deviceGroup.ranks)
    (x : Fin cpuGroup.ranks.length → XpuCall V)
    (hsep : ∀ r s d e, (x r).reduced = some d → (x s).reduced = some e → reduceDType d = reduceDType e → d = e)
    (o : Fin cpuGroup.ranks.length → Py (Outcome V)) :
    Performs num cpuGroup deviceGroup device uniqueName true x o ↔
      Performs num cpuGroup deviceGroup device uniqueName false x o := by
  have hD : Separated fun d => ∃ r, (x r).reduced = some d := by
    rintro d e ⟨r, hd⟩ ⟨s, he⟩
    exact hsep r s d e hd he
  have hm := staging_carries (O := Unit) hex hD hr (W := cpuGroup.ranks.length)
  have hs : ∀ r, Script.Simulates (staging num cpuGroup) KeepsBuffer
      (DeviceCall deviceGroup fun d => ∃ r, (x r).reduced = some d)
      ((groupMember cpuGroup deviceGroup device uniqueName true r).perform (O := Unit) num (x r))
      ((groupMember cpuGroup deviceGroup device uniqueName false r).perform num (x r)) := fun r =>
    (groupMember cpuGroup deviceGroup device uniqueName false r).stages_perform hex (x r) fun d hd => ⟨r, hd⟩
  constructor
  · rintro ⟨tr, hrun⟩
    exact hrun.of_simulated hm hs
  · rintro ⟨tr, hrun⟩
    exact ⟨_, hrun.simulated hm hs⟩

end Group

theorem intNumerics_exactHalf : ExactHalf intNumerics := ⟨fun _ _ _ => rfl, fun _ _ _ _ => rfl⟩

def pairInput (dtype : Fin 2 → DType) (r : Fin 2) : Tensor Int :=
  { shape := [1], data := [r + 1], wf := rfl, device := pairDevice r, dtype := dtype r }

def pairSum (dtype : Fin 2 → DType) (r : Fin 2) : Tensor Int :=
  { shape := [1], data := [3], wf := rfl, device := pairDevice r, dtype := dtype r }

/-- Two half-precision tensors are summed through the host as on the device. -/
theorem pair_allReduce_staged :
    Performs intNumerics pairCpuGroup pairDeviceGroup pairDevice "tp:0" true
      (fun r => .allReduce (pairInput (fun _ => .float16) r))
      fun r => .ok (.one (pairSum (fun _ => .float16) r)) := by
  have hr : pairCpuGroup.ranks = pairDeviceGroup.ranks := rfl
  refine (hoststaged_refines_device intNumerics_exactHalf hr _ ?_ _).mpr ?_
  · intro r s d e hd he _
    exact Option.some.inj (hd.symm.trans he)
  · refine ⟨_, Prog.GroupRun.of_call (fun r => rfl) (.of_ret ?_)⟩
    exact Fin.forall_fin_two.mpr ⟨rfl, rfl⟩

def mixedDType (r : Fin 2) : DType := if r = 0 then .float16 else .float32

/-- A half-precision and an fp32 tensor: both travel as fp32, so the staged group sums
what the device group rejects. -/
theorem mixed_allReduce_diverges :
    ¬ ∀ o, Performs intNumerics pairCpuGroup pairDeviceGroup pairDevice "tp:0" true
        (fun r => .allReduce (pairInput mixedDType r)) o ↔
      Performs intNumerics pairCpuGroup pairDeviceGroup pairDevice "tp:0" false
        (fun r => .allReduce (pairInput mixedDType r)) o := by
  intro h
  have hstaged : Performs intNumerics pairCpuGroup pairDeviceGroup pairDevice "tp:0" true
      (fun r => .allReduce (pairInput mixedDType r)) fun r => .ok (.one (pairSum mixedDType r)) := by
    refine ⟨_, Prog.GroupRun.of_call (fun r => rfl) (.of_ret ?_)⟩
    exact Fin.forall_fin_two.mpr ⟨rfl, rfl⟩
  have hdevice : Performs intNumerics pairCpuGroup pairDeviceGroup pairDevice "tp:0" false
      (fun r => .allReduce (pairInput mixedDType r)) fun _ => .error .distributedError := by
    refine ⟨_, Prog.GroupRun.of_call (fun r => rfl) (.of_ret ?_)⟩
    exact Fin.forall_fin_two.mpr ⟨rfl, rfl⟩
  obtain ⟨tr, hrun⟩ := (h _).mp hstaged
  obtain ⟨tr', hrun'⟩ := hdevice
  have : NeZero pairCpuGroup.ranks.length := ⟨by decide⟩
  have heq := congrFun (hrun.unique hrun').2 0
  cases heq

end B70DualTP.Communicator
