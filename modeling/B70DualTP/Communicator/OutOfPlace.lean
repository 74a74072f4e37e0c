import B70DualTP.Communicator.Stored

/-! Collectives out of place: which of them leave the caller's tensor as it was. -/
namespace B70DualTP.Communicator
open Library Torch
variable {V O : Type} (num : Numerics V)

namespace Stored
open Torch.Stored

section Frames
variable {answers : ∀ c : Call V O, Py c.Resp → Prop} {m m' : Memory V} (h : m.Extends m')
include h

private theorem frames_concatAlong (worldSize : Nat) (inputSize : List Nat) (dim : Int) (output : View) :
    Frames answers m m' (concatAlong num worldSize inputSize dim output) fun _ => True := by
  apply Effect.holds_bind (frames_lift h _)
  intro output m₁ h₁ _
  apply Effect.holds_bind (frames_lift h₁ _)
  intro n m₂ h₂ _
  exact frames_reshape num h₂ _ _

private theorem frames_moveBack (output : View) (dim : Int) :
    Frames answers m m' (moveBack num output dim) fun _ => True :=
  Effect.holds_bind (frames_lift h _) fun output _ h₁ _ => frames_contiguous num h₁ output

private theorem frames_castTo_any (v : View) (device : Device) (dtype : DType) :
    Frames answers m m' (castTo num v device dtype) fun _ => True :=
  Effect.holds_mono (frames_castTo num h v device dtype) fun _ _ _ => trivial

private theorem frames_baseAllGather (self : DeviceCommunicatorBase) (input : View) (dim : Int) :
    Frames answers m m' (baseAllGather num self input dim) fun _ => True := by
  apply Effect.holds_bind (frames_lift h _)
  intro n m₁ h₁ _
  apply Effect.holds_bind (frames_empty num h₁ _ _ _)
  intro output m₂ h₂ ho
  apply Effect.holds_bind (frames_allGatherIntoTensor h₂ ho input _)
  intro _ m₃ h₃ _
  apply Effect.holds_bind (frames_reshape num h₃ _ _)
  intro output m₄ h₄ _
  exact frames_concatAlong num h₄ _ _ _ _

variable (self : XpuCommunicator)

private theorem frames_stage (input : View) (dtype : DType) :
    Frames answers m m' (stage num self input dtype) fun _ => True := by
  rw [stage]
  split
  · exact frames_castTo_any num h input .cpu dtype
  · exact Effect.holds_pure h trivial

private theorem frames_unstage (output : View) (device : Device) (dtype : DType) :
    Frames answers m m' (unstage num self output device dtype) fun _ => True := by
  rw [unstage]
  split
  · exact frames_castTo_any num h output device dtype
  · exact Effect.holds_pure h trivial

theorem frames_allGather (input : View) (dim : Int) :
    Frames answers m m' (allGather num self input dim) fun _ => True := by
  rw [allGather]
  split
  · exact frames_baseAllGather num h _ input dim
  · apply Effect.holds_bind (frames_lift h _)
    intro n m₁ h₁ _
    apply Effect.holds_bind (frames_castTo_any num h₁ input .cpu _)
    intro work m₂ h₂ _
    apply Effect.holds_bind (frames_empty num h₂ _ _ _)
    intro output m₃ h₃ ho
    apply Effect.holds_bind (frames_allGatherIntoTensor h₃ ho work _)
    intro _ m₄ h₄ _
    apply Effect.holds_bind (frames_castTo_any num h₄ output _ _)
    intro output m₅ h₅ _
    apply Effect.holds_bind (frames_reshape num h₅ _ _)
    intro output m₆ h₆ _
    exact frames_concatAlong num h₆ _ _ _ _

theorem frames_reduceScatter (input : View) (dim : Int) :
    Frames answers m m' (reduceScatter num self input dim) fun _ => True := by
  apply Effect.holds_bind (frames_lift h _)
  intro moved m₁ h₁ _
  apply Effect.holds_bind (frames_contiguous num h₁ moved)
  intro inputTensor m₂ h₂ _
  apply Effect.holds_bind (frames_lift h₂ _)
  intro n m₃ h₃ _
  apply Effect.holds_bind (frames_lift h₃ _)
  intro _ m₄ h₄ _
  dsimp only
  split
  · apply Effect.holds_bind (frames_castTo_any num h₄ inputTensor .cpu _)
    intro cpuIn m₅ h₅ _
    apply Effect.holds_bind (frames_empty num h₅ _ _ _)
    intro cpuOut m₆ h₆ ho
    apply Effect.holds_bind (frames_reduceScatterTensor h₆ ho cpuIn _)
    intro _ m₇ h₇ _
    apply Effect.holds_bind (frames_castTo_any num h₇ cpuOut _ _)
    intro output m₈ h₈ _
    exact frames_moveBack num h₈ output _
  · apply Effect.holds_bind (frames_empty num h₄ _ _ _)
    intro output m₅ h₅ ho
    apply Effect.holds_bind (frames_reduceScatterTensor h₅ ho inputTensor _)
    intro _ m₆ h₆ _
    exact frames_moveBack num h₆ output _

private theorem frames_scatter {output : View} (ho : Fresh m output) (src : View) (sizes : Option (List Nat)) :
    Frames answers m m' (scatter self output src sizes) fun _ => True := by
  rw [scatter]
  split
  · apply Effect.holds_bind (frames_lift h _)
    intro inputSplits m₁ h₁ _
    exact Torch.Stored.frames_reduceScatter h₁ ho inputSplits _
  · exact frames_reduceScatterTensor h ho src _

theorem frames_reduceScatterv (input : View) (dim : Int) (sizes : Option (List Nat)) :
    Frames answers m m' (reduceScatterv num self input dim sizes) fun _ => True := by
  apply Effect.holds_bind (frames_lift h _)
  intro moved m₁ h₁ _
  apply Effect.holds_bind (frames_contiguous num h₁ moved)
  intro inputTensor m₂ h₂ _
  apply Effect.holds_bind (frames_lift h₂ _)
  intro n m₃ h₃ _
  apply Effect.holds_bind (frames_lift h₃ _)
  intro chunkSize m₄ h₄ _
  apply Effect.holds_bind (frames_stage num h₄ self inputTensor _)
  intro src m₅ h₅ _
  apply Effect.holds_bind (frames_empty num h₅ _ _ _)
  intro output m₆ h₆ ho
  apply Effect.holds_bind (frames_scatter h₆ self ho src sizes)
  intro _ m₇ h₇ _
  apply Effect.holds_bind (frames_unstage num h₇ self output _ _)
  intro output m₈ h₈ _
  exact frames_moveBack num h₈ output _

private theorem frames_gatherInto {work output : View} (ho : Fresh m output) (sizes : Option (List Nat)) :
    Frames answers m m' (gatherInto num self work output sizes) fun _ => True := by
  cases sizes with
  | none =>
    apply Effect.holds_bind (Torch.Stored.frames_allGather h (by simpa using ho) work _)
    intro _ m₁ h₁ _
    exact Effect.holds_pure h₁ trivial
  | some sizes =>
    apply Effect.holds_bind (frames_emptyEach num h _ _ _)
    intro allGatherList m₁ h₁ hl
    apply Effect.holds_bind (Torch.Stored.frames_allGather h₁ hl work _)
    intro _ m₂ h₂ _
    exact Effect.holds_mono (frames_cat num h₂ allGatherList 0) fun _ _ _ => trivial

private theorem frames_allGatherSingle (input : View) (sizes : Option (List Nat)) :
    Frames answers m m' (allGatherSingle num self input sizes) fun _ => True := by
  apply Effect.holds_bind (frames_stage num h self input _)
  intro work m₁ h₁ _
  apply Effect.holds_bind (frames_lift h₁ _)
  intro size m₂ h₂ _
  apply Effect.holds_bind (frames_empty num h₂ _ _ _)
  intro output m₃ h₃ ho
  apply Effect.holds_bind (frames_gatherInto num h₃ self ho sizes)
  intro output m₄ h₄ _
  exact frames_unstage num h₄ self output _ _

private theorem frames_allGatherEach (sizes : Option (List Nat)) (inputs : List View) :
    Frames answers m m' (allGatherEach num self sizes inputs) fun _ => True := by
  induction inputs generalizing m' with
  | nil => exact Effect.holds_pure h trivial
  | cons input inputs ih =>
    apply Effect.holds_bind (frames_allGatherSingle num h self input sizes)
    intro output m₁ h₁ _
    exact Effect.holds_bind (ih h₁) fun outputs m₂ h₂ _ => Effect.holds_pure h₂ trivial

theorem frames_allGatherv (inputs : List View) (dim : Int) (sizes : Option (List Nat)) :
    Frames answers m m' (allGatherv num self inputs dim sizes) fun _ => True := by
  rw [allGatherv]
  split
  · exact Effect.holds_raise _ h
  · exact frames_allGatherEach num h self _ inputs

theorem frames_gather (input : View) (dst dim : Int) :
    Frames answers m m' (gather num self input dst dim) fun _ => True := by
  apply Effect.holds_bind (frames_lift h _)
  intro _ m₁ h₁ _
  apply Effect.holds_bind (frames_stage num h₁ self input _)
  intro work m₂ h₂ _
  apply Effect.holds_bind (frames_empty num h₂ _ _ _)
  intro output m₃ h₃ ho
  apply Effect.holds_bind (Torch.Stored.frames_allGatherIntoTensor h₃ ho work _)
  intro _ m₄ h₄ _
  apply Effect.holds_bind (frames_unstage num h₄ self output _ _)
  intro output m₅ h₅ _
  split
  · apply Effect.holds_bind (frames_concatAlong num h₅ _ _ _ output)
    intro output m₆ h₆ _
    exact Effect.holds_pure h₆ trivial
  · exact Effect.holds_pure h₅ trivial

/-- The reduction works on a copy in the device branch, and in the host-staged branch
when the conversion makes one. -/
theorem frames_allReduce (input : View)
    (hcopy : self.hoststaged = true → input.device = .cpu → input.dtype.isHalf = true) :
    Frames answers m m' (allReduce num self input) fun _ => True := by
  rw [allReduce]
  split
  · rename_i hs
    apply Effect.holds_bind (frames_castTo num h input .cpu _)
    intro cpu m₁ h₁ hcpu
    have hfresh : Fresh m cpu := by
      refine hcpu.resolve_left fun ⟨hd, ht, _⟩ => ?_
      have hhalf := hcopy hs hd
      simp only [reduceDType, hhalf, if_true] at ht
      simp [ht, DType.isHalf] at hhalf
    apply Effect.holds_bind (Torch.Stored.frames_allReduce h₁ hfresh _)
    intro _ m₂ h₂ _
    exact frames_castTo_any num h₂ cpu _ _
  · apply Effect.holds_bind (frames_clone num h input)
    intro output m₁ h₁ ho
    exact Effect.holds_bind (Torch.Stored.frames_allReduce h₁ ho _) fun _ m₂ h₂ _ => Effect.holds_pure h₂ trivial

end Frames
end Stored

/-- The operations of the communicator other than broadcast. -/
inductive Collective where
  | allReduce (input : View)
  | allGather (input : View) (dim : Int)
  | reduceScatter (input : View) (dim : Int)
  | reduceScatterv (input : View) (dim : Int) (sizes : Option (List Nat))
  | allGatherv (inputs : List View) (dim : Int) (sizes : Option (List Nat))
  | gather (input : View) (dst dim : Int)

namespace Collective

def inputs : Collective → List View
  | .allReduce v | .allGather v _ | .reduceScatter v _ | .reduceScatterv v _ _ | .gather v _ _ => [v]
  | .allGatherv vs _ _ => vs

variable (self : XpuCommunicator)

def run : Collective → Stored V O (List View)
  | .allReduce v => do return [← Stored.allReduce num self v]
  | .allGather v dim => do return [← Stored.allGather num self v dim]
  | .reduceScatter v dim => do return [← Stored.reduceScatter num self v dim]
  | .reduceScatterv v dim sizes => do return [← Stored.reduceScatterv num self v dim sizes]
  | .allGatherv vs dim sizes => Stored.allGatherv num self vs dim sizes
  | .gather v dst dim => do
    let output ← Stored.gather num self v dst dim
    return output.toList

/-- What a reduction may leave in its tensor: values that the other members decide, but in
a group of one the tensor's own. -/
def Answers : ∀ c : Call V O, Py c.Resp → Prop
  | .allReduce t g, .ok u => u.shape = t.shape ∧ (g.ranks.length = 1 → u.data = t.data)
  | _, _ => True

/-- After the call, exceptions included, the caller's tensors are as they were. -/
def KeepsInputs (num : Numerics V) (self : XpuCommunicator) (m : Memory V) (c : Collective) : Prop :=
  Prog.Ensures (Answers (V := V) (O := O)) (fun _ => True) (fun p => ∀ v ∈ c.inputs, v.read p.2 = v.read m)
    (c.run num self m)

/-- The reduction is carried out in the caller's tensor, and there is something to reduce. -/
def ReducesInput (self : XpuCommunicator) : Collective → Prop
  | .allReduce v => self.hoststaged = true ∧ v.device = .cpu ∧ v.dtype.isHalf = false ∧
      v.positions.data ≠ [] ∧ 2 ≤ self.worldSize
  | _ => False

variable {num} {self} {m : Memory V}

/-- Where the conversion returns the caller's tensor, the reply is written into it. -/
private theorem run_allReduce_inPlace {v : View} (hs : self.hoststaged = true) (hd : v.device = .cpu)
    (hh : v.dtype.isHalf = false) : (Collective.allReduce v).run (O := O) num self m =
      .call (.allReduce (v.read m) self.cpuGroup) fun
        | .ok u => .ret (.ok [v], m.write v.storage v.positions.data u.data)
        | .error e => .ret (.error e, m) := by
  have hdtype : reduceDType v.dtype = v.dtype := by simp [reduceDType, hh]
  have hself : (Torch.Stored.castTo num v .cpu (reduceDType v.dtype) : Stored V O View) = pure v := by
    rw [← hd, hdtype, Torch.Stored.castTo_self]
  simp only [run, Stored.allReduce, hs, if_true, hself]
  refine congrArg (Prog.call _) (funext fun y => ?_)
  cases y with
  | error e => rfl
  | ok u =>
    rw [Torch.Stored.castTo_self]
    rfl

private theorem keepsInputs_of_frames {c : Collective} (hm : ∀ v ∈ c.inputs, v.storage < m.next)
    (h : Torch.Stored.Frames Answers m m (c.run (O := O) num self) fun _ => True) :
    c.KeepsInputs (O := O) num self m :=
  Prog.Ensures.mono h fun _ hp v hv => View.read_congr (hp.1.2 _ (hm v hv))

private theorem keepsInputs_reducesInput {v : View} (hs : self.hoststaged = true) (hd : v.device = .cpu)
    (hh : v.dtype.isHalf = false) (hempty : v.positions.data = [] ∨ self.worldSize = 1) :
    (Collective.allReduce v).KeepsInputs (O := O) num self m := by
  rw [KeepsInputs, run_allReduce_inPlace hs hd hh]
  refine ⟨trivial, fun y hy => ?_⟩
  cases y with
  | error e => exact fun w _ => rfl
  | ok u =>
    have hsame : m.write v.storage v.positions.data u.data = m := by
      obtain hnil | hone := hempty
      · rw [hnil]
        rfl
      · rw [hy.2 hone]
        exact m.write_self _ _
    intro w _
    rw [hsame]

private theorem not_keepsInputs [Nontrivial V] {v : View} (h : ReducesInput self (.allReduce v)) :
    ¬ (Collective.allReduce v).KeepsInputs (O := O) num self m := by
  obtain ⟨hs, hd, hh, hne, hw⟩ := h
  obtain ⟨i, hi⟩ := List.exists_mem_of_ne_nil _ hne
  obtain ⟨w, hdiff⟩ := exists_ne (m.cell v.storage i)
  let u : Tensor V := { v.read m with
    data := List.replicate v.positions.data.length w
    wf := List.length_replicate.trans v.positions.wf }
  rw [KeepsInputs, run_allReduce_inPlace hs hd hh]
  intro hkeeps
  have hread := hkeeps.2 (.ok u) ⟨rfl, fun hone => absurd hone (ne_of_gt hw)⟩ v (by simp [inputs])
  have hcell : ∀ j ∈ v.positions.data, (m.write v.storage v.positions.data u.data).cell v.storage j =
      m.cell v.storage j := List.map_inj_left.mp (congrArg (·.data) hread)
  exact hdiff ((m.write_replicate v.storage w hi).symm.trans (hcell i hi))

/-- The collectives leave the caller's tensors as they were, whatever the other members
send, but for a host-staged all_reduce of a CPU tensor that needs no upcast. -/
theorem keepsInputs_iff [Nontrivial V] (c : Collective) (hm : ∀ v ∈ c.inputs, v.storage < m.next) :
    c.KeepsInputs (O := O) num self m ↔ ¬ c.ReducesInput self := by
  have hself := Memory.Extends.refl m
  cases c with
  | allReduce v =>
    refine ⟨fun hkeeps h => not_keepsInputs h hkeeps, fun h => ?_⟩
    by_cases hcopy : self.hoststaged = true → v.device = .cpu → v.dtype.isHalf = true
    · exact keepsInputs_of_frames hm (Effect.holds_bind (Stored.frames_allReduce num hself self v hcopy)
        fun _ _ h' _ => Effect.holds_pure h' trivial)
    · push Not at hcopy
      obtain ⟨hs, hd, hh⟩ := hcopy
      simp only [ReducesInput, hs, hd, true_and] at h
      have hpos := self.worldSize_pos
      have hhalf : v.dtype.isHalf = false := by simpa using hh
      refine keepsInputs_reducesInput hs hd hhalf (or_iff_not_imp_left.mpr fun hne => ?_)
      exact (Nat.lt_or_ge 1 _).elim (fun hw => absurd ⟨hhalf, hne, hw⟩ h) fun hw => hw.antisymm hpos
  | allGather v dim =>
    exact iff_of_true (keepsInputs_of_frames hm (Effect.holds_bind (Stored.frames_allGather num hself self v dim)
      fun _ _ h' _ => Effect.holds_pure h' trivial)) id
  | reduceScatter v dim =>
    exact iff_of_true (keepsInputs_of_frames hm (Effect.holds_bind
      (Stored.frames_reduceScatter num hself self v dim) fun _ _ h' _ => Effect.holds_pure h' trivial)) id
  | reduceScatterv v dim sizes =>
    exact iff_of_true (keepsInputs_of_frames hm (Effect.holds_bind
      (Stored.frames_reduceScatterv num hself self v dim sizes) fun _ _ h' _ => Effect.holds_pure h' trivial)) id
  | allGatherv vs dim sizes =>
    exact iff_of_true (keepsInputs_of_frames hm (Stored.frames_allGatherv num hself self vs dim sizes)) id
  | gather v dst dim =>
    exact iff_of_true (keepsInputs_of_frames hm (Effect.holds_bind (Stored.frames_gather num hself self v dst dim)
      fun _ _ h' _ => Effect.holds_pure h' trivial)) id

end Collective

def pairCommunicator (r : Fin 2) : XpuCommunicator :=
  groupMember pairCpuGroup pairDeviceGroup pairDevice "tp:0" true r

def cpuInput (dtype : DType) : View := ⟨⟨⟨[1], [0], rfl⟩, .cpu, dtype⟩, 0⟩

def pairMemory (r : Fin 2) : Memory Int := ⟨1, fun _ _ => r + 1⟩

theorem pair_half_keepsInputs : (Collective.allReduce (cpuInput .float16)).KeepsInputs (O := Unit) intNumerics
    (pairCommunicator 0) (pairMemory 0) :=
  (Collective.keepsInputs_iff _ (by simp [Collective.inputs, cpuInput, pairMemory])).mpr fun h => absurd h.2.2.1 (by decide)

/-- After the float32 reduction the caller's tensor holds the sum. -/
theorem pair_allReduce_overwrites : ∃ tr out, Prog.GroupRun (meaning (O := Unit) intNumerics)
    (fun r => (Collective.allReduce (cpuInput .float32)).run intNumerics (pairCommunicator r) (pairMemory r)) tr out ∧
    ((cpuInput .float32).read (pairMemory 0)).data = [1] ∧ ((cpuInput .float32).read (out 0).2).data = [3] := by
  have hrun : ∀ r, (Collective.allReduce (cpuInput .float32)).run (O := Unit) intNumerics
      (pairCommunicator r) (pairMemory r) = _ := fun r => Collective.run_allReduce_inPlace rfl rfl rfl
  refine ⟨_, fun r => (.ok [cpuInput .float32], (pairMemory r).write 0 [0] [3]), .of_call hrun (.of_ret ?_), rfl, rfl⟩
  exact Fin.forall_fin_two.mpr ⟨rfl, rfl⟩

end B70DualTP.Communicator
