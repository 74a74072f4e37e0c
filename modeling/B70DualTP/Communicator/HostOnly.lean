import B70DualTP.Communicator.Xpu

/-! What the host-staged communicator hands to torch.distributed: CPU tensors alone in the
operations it stages, the caller's tensor in those it inherits. -/
namespace B70DualTP.Communicator
open Library Torch
variable {V O A B : Type} (num : Numerics V)

def CpuCall (c : Call V O) : Prop := ∀ t ∈ c.tensors, t.device = .cpu

/-- The program never hands an accelerator tensor to torch.distributed. -/
abbrev HostOnly (answers : ∀ c : Call V O, Py c.Resp → Prop) (m : Dist V O A) : Prop :=
  m.Confined answers CpuCall

section Rules
variable {answers : ∀ c : Call V O, Py c.Resp → Prop}

theorem hostOnly_call_bind_iff {c : Call V O} {f : c.Resp → Dist V O B} :
    HostOnly answers (Dist.call c >>= f) ↔ CpuCall c ∧ ∀ y, answers c (.ok y) → HostOnly answers (f y) :=
  Script.confined_ask_bind_iff

theorem hostOnly_call_iff {c : Call V O} : HostOnly answers (Dist.call c) ↔ CpuCall c := by
  apply (Script.ensures_ask c _).trans
  simp

variable (t : Tensor V) (g : ProcessGroup)

theorem hostOnly_broadcast_bind_iff {src : Int} {f : Tensor V → Dist V O B} :
    HostOnly answers (Dist.broadcast t g src >>= f) ↔
      t.device = .cpu ∧ ∀ y, answers (.broadcast t src g) (.ok y) → HostOnly answers (f y) :=
  hostOnly_call_bind_iff.trans (by simp [CpuCall, Call.tensors])

theorem hostOnly_broadcastObjectList_bind_iff {object : Option O} {src : Int} {f : O → Dist V O B} :
    HostOnly answers (Dist.broadcastObjectList g object src >>= f) ↔
      ∀ y, answers (.broadcastObjectList object src g) (.ok y) → HostOnly answers (f y) :=
  hostOnly_call_bind_iff.trans (by simp [CpuCall, Call.tensors])

theorem hostOnly_mqBroadcastObject_bind_iff {object : Option O} {f : O → Dist V O B} :
    HostOnly answers (Dist.mqBroadcastObject object >>= f) ↔
      ∀ y, answers (.mqBroadcastObject object) (.ok y) → HostOnly answers (f y) :=
  hostOnly_call_bind_iff.trans (by simp [CpuCall, Call.tensors])

theorem hostOnly_send_bind_iff {dst : Nat} {f : Unit → Dist V O B} :
    HostOnly answers (Dist.send t g dst >>= f) ↔
      t.device = .cpu ∧ ∀ y, answers (.send t dst g) (.ok y) → HostOnly answers (f y) :=
  hostOnly_call_bind_iff.trans (by simp [CpuCall, Call.tensors])

theorem hostOnly_recv_bind_iff {src : Nat} {f : Tensor V × Nat → Dist V O B} :
    HostOnly answers (Dist.recv t g src >>= f) ↔
      t.device = .cpu ∧ ∀ y, answers (.recv t src g) (.ok y) → HostOnly answers (f y) :=
  hostOnly_call_bind_iff.trans (by simp [CpuCall, Call.tensors])

theorem hostOnly_isend_bind_iff {dst : Nat} {f : Handle → Dist V O B} :
    HostOnly answers (Dist.isend t g dst >>= f) ↔
      t.device = .cpu ∧ ∀ y, answers (.isend t dst g) (.ok y) → HostOnly answers (f y) :=
  hostOnly_call_bind_iff.trans (by simp [CpuCall, Call.tensors])

theorem hostOnly_irecv_bind_iff {src : Nat} {f : Handle → Dist V O B} :
    HostOnly answers (Dist.irecv t g src >>= f) ↔
      t.device = .cpu ∧ ∀ y, answers (.irecv t src g) (.ok y) → HostOnly answers (f y) :=
  hostOnly_call_bind_iff.trans (by simp [CpuCall, Call.tensors])

end Rules

namespace XpuCommunicator
variable {answers : ∀ c : Call V O, Py c.Resp → Prop} (self : XpuCommunicator) (h : self.hoststaged = true)
include h

theorem allReduce_hostOnly (input : Tensor V) : HostOnly answers (self.allReduce num input) := by
  simp only [allReduce, h]
  refine Script.confined_bind (hostOnly_call_iff.mpr ?_) fun cpu => Script.confined_pure _
  simp [CpuCall, Call.tensors]

theorem allGather_hostOnly (input : Tensor V) (dim : Int) : HostOnly answers (self.allGather num input dim) := by
  simp only [allGather, h]
  apply Script.confined_bind (Script.confined_lift _)
  intro n
  refine Script.confined_bind (hostOnly_call_iff.mpr ?_) fun output => ?_
  · simp [CpuCall, Call.tensors]
  · exact Script.confined_bind (Script.confined_lift _) fun output => Script.confined_lift _

theorem reduceScatter_hostOnly (input : Tensor V) (dim : Int) :
    HostOnly answers (self.reduceScatter num input dim) := by
  simp only [reduceScatter, h]
  apply Script.confined_bind (Script.confined_lift _)
  intro inputTensor
  apply Script.confined_bind (Script.confined_lift _)
  intro n
  apply Script.confined_bind (Script.confined_lift _)
  intro _
  refine Script.confined_bind (hostOnly_call_iff.mpr ?_) fun output => ?_
  · simp [CpuCall, Call.tensors]
  · exact Script.confined_bind (Script.confined_lift _) fun output => Script.confined_pure _

theorem reduceScatterv_hostOnly (input : Tensor V) (dim : Int) (sizes : Option (List Nat)) :
    HostOnly answers (self.reduceScatterv num input dim sizes) := by
  simp only [reduceScatterv, h]
  apply Script.confined_bind (Script.confined_lift _)
  intro inputTensor
  apply Script.confined_bind (Script.confined_lift _)
  intro n
  apply Script.confined_bind (Script.confined_lift _)
  intro chunkSize
  split
  · apply Script.confined_lift_bind_iff.mpr
    intro splits hsplits
    refine Script.confined_bind (hostOnly_call_iff.mpr ?_) fun output => ?_
    · intro t ht
      obtain rfl | ht := List.mem_cons.mp ht
      · rfl
      · exact (Tensor.split_ok hsplits t ht).1
    · exact Script.confined_bind (Script.confined_lift _) fun output => Script.confined_pure _
  · refine Script.confined_bind (hostOnly_call_iff.mpr ?_) fun output => ?_
    · simp [CpuCall, Call.tensors]
    · exact Script.confined_bind (Script.confined_lift _) fun output => Script.confined_pure _

theorem allGatherSingle_hostOnly (input : Tensor V) (sizes : Option (List Nat)) :
    HostOnly answers (self.allGatherSingle num input sizes) := by
  simp only [allGatherSingle, h]
  cases sizes with
  | none =>
    apply Script.confined_bind (Script.confined_lift _)
    intro n
    refine Script.confined_bind (hostOnly_call_iff.mpr ?_) fun outputs => ?_
    · simp [CpuCall, Call.tensors]
    · exact Script.confined_bind (Script.confined_lift _) fun output => Script.confined_pure _
  | some sizes =>
    apply Script.confined_bind (Script.confined_lift _)
    intro _
    apply Script.confined_bind (Script.confined_lift _)
    intro n
    apply Script.confined_bind (Script.confined_lift _)
    intro size
    apply Script.confined_bind (Script.confined_lift _)
    intro _
    refine Script.confined_bind (hostOnly_call_iff.mpr ?_) fun outputs => ?_
    · intro t ht
      obtain ht | ht := List.mem_append.mp ht
      · obtain ⟨size', -, rfl⟩ := List.mem_map.mp ht
        rfl
      · obtain rfl := List.mem_singleton.mp ht
        rfl
    · exact Script.confined_bind (Script.confined_lift _) fun output => Script.confined_pure _

private theorem allGatherEach_hostOnly (sizes : Option (List Nat)) (inputs : List (Tensor V)) :
    HostOnly answers (self.allGatherEach num sizes inputs) := by
  induction inputs with
  | nil => exact Script.confined_pure _
  | cons input inputs ih =>
    apply Script.confined_bind (self.allGatherSingle_hostOnly num h input sizes)
    intro output
    exact Script.confined_bind ih fun outputs => Script.confined_pure _

theorem allGatherv_hostOnly (input : TensorArg V) (dim : Int) (sizes : Option (List Nat)) :
    HostOnly answers (self.allGatherv num input dim sizes) := by
  simp only [allGatherv]
  split
  · exact Script.confined_raise _
  · cases input with
    | one input =>
      exact Script.confined_bind (self.allGatherSingle_hostOnly num h input _) fun output => Script.confined_pure _
    | many inputs =>
      exact Script.confined_bind (self.allGatherEach_hostOnly num h _ inputs) fun outputs => Script.confined_pure _

theorem gather_hostOnly (input : Tensor V) (dst dim : Int) :
    HostOnly answers (self.gather num input dst dim) := by
  simp only [gather, h]
  apply Script.confined_bind (Script.confined_lift _)
  intro _
  refine Script.confined_bind (hostOnly_call_iff.mpr ?_) fun output => ?_
  · simp [CpuCall, Call.tensors]
  · split
    · exact Script.confined_bind (Script.confined_lift _) fun output => Script.confined_pure _
    · exact Script.confined_pure _

end XpuCommunicator

namespace DeviceCommunicatorBase
variable {answers : ∀ c : Call V O, Py c.Resp → Prop} (self : DeviceCommunicatorBase)

theorem send_hostOnly_iff (tensor : Tensor V) (dst : Option Int) : HostOnly answers (self.send tensor dst) ↔
    ∀ rank, getItem self.ranks (dst.getD ((self.rankInGroup + 1) % self.worldSize : Nat)) = .ok rank →
      tensor.device = .cpu := by
  refine Script.confined_lift_bind_iff.trans (forall₂_congr fun rank _ => hostOnly_call_iff.trans ?_)
  simp [CpuCall, Call.tensors]

theorem recv_hostOnly_iff (size : List Nat) (dtype : DType) (src : Option Int) :
    HostOnly answers (self.recv num size dtype src) ↔
      ∀ rank, getItem self.ranks (src.getD (((self.rankInGroup : Int) - 1) % self.worldSize)) = .ok rank →
        self.device = .cpu := by
  refine Script.confined_lift_bind_iff.trans (forall₂_congr fun rank _ => ?_)
  rw [Script.confined_bind_iff fun _ => Script.confined_pure _]
  apply hostOnly_call_iff.trans
  simp [CpuCall, Call.tensors]

end DeviceCommunicatorBase
end B70DualTP.Communicator
