import B70DualTP.Communicator.Gathering

/-! all_gatherv along axis 0: the path with one buffer for every rank, and the shortcut for
uniform sizes, which hands torch.distributed a list with a single buffer. -/
namespace B70DualTP.Communicator
open Library Torch
variable {V O : Type} {num : Numerics V}

/-- Rank r has sizes r rows; the ranks agree on the other axes and the dtype. -/
def Rows {W : Nat} (sizes : Fin W → Nat) (x : Fin W → Tensor V) : Prop :=
  ∃ tail dtype, ∀ r, (x r).shape = sizes r :: tail ∧ (x r).dtype = dtype

section Cat
variable {W : Nat} {sizes : Fin W → Nat} {x : Fin W → Tensor V}

private theorem ofFn_alone {A : Type} (hW : W ≤ 1) (f : Fin W → A) (r : Fin W) : List.ofFn f = [f r] := by
  obtain rfl : W = 1 := by
    have hr := r.2
    omega
  rw [Subsingleton.elim r 0, List.ofFn_succ, List.ofFn_zero]

/-- Along axis 0 the ranks' elements follow each other. -/
theorem catFor_rows {tail : List Nat} {dtype : DType}
    (hx : ∀ r, (x r).shape = sizes r :: tail ∧ (x r).dtype = dtype) (r : Fin W) :
    ∃ u, catFor x 0 r = .ok u ∧ u.shape = (List.ofFn sizes).sum :: tail ∧ u.data = (List.ofFn x).flatMap (·.data) ∧
      u.device = (x r).device ∧ u.dtype = dtype := by
  have hlen : (List.ofFn fun i => (x i).toDevice (x r).device).length = W := List.length_ofFn
  have hmem : ∀ u ∈ List.ofFn fun i => (x i).toDevice (x r).device,
      (∃ n, u.shape = n :: tail) ∧ u.device = (x r).device ∧ u.dtype = dtype := by
    intro u hu
    obtain ⟨i, rfl⟩ := List.mem_ofFn.mp hu
    exact ⟨⟨sizes i, (hx i).1⟩, rfl, (hx i).2⟩
  have hsum : ((List.ofFn fun i => (x i).toDevice (x r).device).map fun u => u.shape.getD 0 0) = List.ofFn sizes := by
    rw [List.map_ofFn]
    congr 1
    funext i
    rw [Function.comp_apply, Tensor.toDevice_shape, (hx i).1]
    rfl
  have hdata := flatMap_toDevice x (x r).device
  rw [catFor]
  cases hts : List.ofFn fun i => (x i).toDevice (x r).device with
  | nil =>
    rw [hts] at hlen
    exact absurd r.2 (by simp [← hlen])
  | cons t ts =>
    rw [hts] at hmem hsum hdata
    have hne : (t :: ts).map (·.toNDArray) ≠ [] := by simp
    have hshape : ∀ a ∈ (t :: ts).map (·.toNDArray), ∃ n, a.shape = n :: tail := by
      intro a ha
      obtain ⟨u, hu, rfl⟩ := List.mem_map.mp ha
      exact (hmem u hu).1
    obtain ⟨a, ha, hashape, hadata⟩ := NDArray.cat?_rows hne hshape
    obtain ⟨-, hdevice, hdtype⟩ := hmem t List.mem_cons_self
    refine ⟨t.withArray a, ?_, ?_, ?_, hdevice, hdtype⟩
    · simp only [Tensor.cat, ha]
    · rw [Tensor.withArray_shape, hashape, ← hsum, List.map_map]
      rfl
    · rw [Tensor.withArray_data, hadata, List.flatMap_map, hdata]

theorem catFor_rows_exists (hx : Rows sizes x) (r : Fin W) : ∃ u, catFor x 0 r = .ok u := by
  obtain ⟨tail, dtype, hx⟩ := hx
  obtain ⟨u, hu, -⟩ := catFor_rows hx r
  exact ⟨u, hu⟩

private theorem cat_singleton {n : Nat} {tail : List Nat} {t : Tensor V} (ht : t.shape = n :: tail) :
    Tensor.cat [t] 0 = .ok t := by
  have hshape : ∀ a ∈ [t].map (·.toNDArray), ∃ n, a.shape = n :: tail := by
    intro a ha
    rw [List.mem_singleton.mp ha]
    exact ⟨n, ht⟩
  obtain ⟨a, ha, hashape, hadata⟩ := NDArray.cat?_rows (by simp) hshape
  simp only [Tensor.cat, ha]
  refine congrArg _ (Tensor.ext' ?_ ?_ rfl rfl)
  · rw [Tensor.withArray_shape, hashape, ht]
    simp [ht]
  · rw [Tensor.withArray_data, hadata]
    simp

theorem catFor_via (x : Fin W → Tensor V) (d : Nat) (device : Device) (r : Fin W) :
    catFor x d r = (Tensor.cat (List.ofFn fun i => (x i).toDevice device) d).map (·.toDevice (x r).device) := by
  rw [← Tensor.cat_toDevice, List.map_ofFn]
  rfl

end Cat

section Runs
variable {cpuGroup deviceGroup : ProcessGroup} {device : Fin cpuGroup.ranks.length → Device} {uniqueName : String}
  (hoststaged : Bool) {sizes : Fin cpuGroup.ranks.length → Nat} {x : Fin cpuGroup.ranks.length → Tensor V}

private theorem reply_buffers (hx : Rows sizes x) (g : ProcessGroup) (r : Fin cpuGroup.ranks.length) :
    meaning (O := O) num (fun r => .allGather ((List.ofFn sizes).map fun size =>
      Tensor.empty num (size :: (x r).shape.drop 1) (x r).dtype (x r).device) (x r) g) r =
        .ok (List.ofFn fun i => (x i).toDevice (x r).device) := by
  obtain ⟨tail, dtype, hrows⟩ := hx
  have hdtype : ∀ r i, (x i).dtype = (x r).dtype := fun r i => (hrows i).2.trans (hrows r).2.symm
  have hbuffers : ∀ r, List.Forall₂ (fun o u => o.Compatible u ∧ o.device = (x r).device)
      ((List.ofFn sizes).map fun size => Tensor.empty num (size :: (x r).shape.drop 1) (x r).dtype (x r).device)
      (List.ofFn x) := by
    intro r
    rw [List.map_ofFn]
    apply forall₂_ofFn
    intro i
    rw [Function.comp_apply, (hrows r).1, (hrows r).2]
    exact ⟨⟨(hrows i).1.symm, (hrows i).2.symm⟩, rfl⟩
  exact meaning_allGather num hdtype hbuffers r

/-- With one buffer for every rank, the tensors are gathered and concatenated. -/
theorem allGatherSingle_delivers (hx : Rows sizes x) :
    Script.Completes (meaning (O := O) num)
      (fun r => (groupMember cpuGroup deviceGroup device uniqueName hoststaged r).allGatherSingle num (x r)
        (some (List.ofFn sizes))) fun y => ∀ r, catFor x 0 r = .ok (y r) := by
  obtain ⟨tail, dtype, hrows⟩ := hx
  have hworld : (List.ofFn sizes).length = cpuGroup.ranks.length := List.length_ofFn
  have hsize : ∀ r : Fin cpuGroup.ranks.length, getItem (List.ofFn sizes) (r : Nat) = .ok (sizes r) := by
    intro r
    rw [getItem_natCast (by rw [List.length_ofFn]; exact r.2), List.getElem_ofFn]
  have hn : ∀ r, getItem (x r).shape 0 = .ok (sizes r) := by
    intro r
    rw [(hrows r).1]
    exact getItem_zero _ _
  cases hoststaged with
  | false =>
    simp only [XpuCommunicator.allGatherSingle, XpuCommunicator.group, XpuCommunicator.worldSize,
      DeviceCommunicatorBase.worldSize, groupMember, hworld, hsize, hn, assert, if_true, Bool.false_eq_true,
      if_false, Script.liftM_eq, Script.lift_ok, pure_bind]
    have hc : Rows sizes x := ⟨tail, dtype, hrows⟩
    refine Script.completes_ask (fun r => ⟨_, reply_buffers hc deviceGroup r, rfl⟩) fun y hy => ?_
    refine Script.completes_lift (P := fun r u => catFor x 0 r = .ok u) (fun r => ?_) fun u hu =>
      Script.completes_pure hu
    rw [← hy r]
    obtain ⟨u, hu⟩ := catFor_rows_exists ⟨tail, dtype, hrows⟩ r
    exact ⟨u, hu, hu⟩
  | true =>
    have hc : Rows sizes fun r => (x r).toDevice .cpu := ⟨tail, dtype, hrows⟩
    simp only [XpuCommunicator.allGatherSingle, XpuCommunicator.group, XpuCommunicator.worldSize,
      DeviceCommunicatorBase.worldSize, groupMember, hworld, hsize, hn, assert, if_true, Script.liftM_eq,
      Script.lift_ok, pure_bind, Tensor.toDevice_shape]
    refine Script.completes_ask (fun r => ⟨_, reply_buffers hc cpuGroup r, rfl⟩) fun y hy => ?_
    refine Script.completes_lift (P := fun r u => catFor x 0 r = .ok (u.toDevice (x r).device)) (fun r => ?_)
      fun u hu => Script.completes_pure hu
    rw [← hy r]
    obtain ⟨u, hu⟩ := catFor_rows_exists ⟨tail, dtype, hrows⟩ r
    rw [catFor_via x 0 .cpu] at hu ⊢
    cases hcat : Tensor.cat (List.ofFn fun i => (x i).toDevice .cpu) 0 with
    | error e =>
      rw [hcat] at hu
      cases hu
    | ok v => exact ⟨v, hcat, rfl⟩

theorem dropUniform_eq_none_iff {sizes : List Nat} :
    XpuCommunicator.dropUniform (some sizes) = none ↔ ∃ n, ∀ size ∈ sizes, size = n := by
  cases sizes with
  | nil => exact iff_of_true rfl ⟨0, fun size h => (by cases h)⟩
  | cons size sizes =>
    by_cases h : (size :: sizes).all (· == size) = true
    · refine iff_of_true (if_pos h) ⟨size, fun size' hsize => ?_⟩
      exact beq_iff_eq.mp (List.all_eq_true.mp h size' hsize)
    · refine iff_of_false (fun hnone => ?_) ?_
      · rw [XpuCommunicator.dropUniform, if_neg h] at hnone
        cases hnone
      · rintro ⟨n, hn⟩
        apply h
        rw [List.all_eq_true]
        intro size' hsize
        rw [hn size' hsize, hn size List.mem_cons_self]
        exact beq_self_eq_true n

theorem dropUniform_eq_some {sizes : List Nat} (h : ¬ ∃ n, ∀ size ∈ sizes, size = n) :
    XpuCommunicator.dropUniform (some sizes) = some sizes := by
  cases sizes with
  | nil => exact absurd ⟨0, fun size h => (by cases h)⟩ h
  | cons size sizes =>
    apply if_neg
    intro hall
    exact h (dropUniform_eq_none_iff.mp (if_pos hall))

theorem allGatherSingle_alone (hW : cpuGroup.ranks.length ≤ 1) (hx : Rows sizes x) :
    Script.Completes (meaning (O := O) num)
      (fun r => (groupMember cpuGroup deviceGroup device uniqueName hoststaged r).allGatherSingle num (x r) none)
        fun y => ∀ r, catFor x 0 r = .ok (y r) := by
  obtain ⟨tail, dtype, hrows⟩ := hx
  have hn : ∀ r, getItem (x r).shape 0 = .ok (sizes r) := by
    intro r
    rw [(hrows r).1]
    exact getItem_zero _ _
  have hcat : ∀ r, catFor x 0 r = .ok (x r) := by
    intro r
    rw [catFor, ofFn_alone hW _ r]
    exact cat_singleton (hrows r).1
  have hreply : ∀ (t : Fin cpuGroup.ranks.length → Tensor V) (g : ProcessGroup),
      (∀ r, (t r).shape = sizes r :: tail ∧ (t r).dtype = dtype) → ∀ r, meaning (O := O) num (fun r =>
        .allGather [.empty num (sizes r * cpuGroup.ranks.length :: (t r).shape.drop 1) (t r).dtype (t r).device]
          (t r) g) r = .ok [t r] := by
    intro t g ht r
    have hdtype : ∀ r i, (t i).dtype = (t r).dtype := fun r i => (ht i).2.trans (ht r).2.symm
    have hbuffers : ∀ r, List.Forall₂ (fun o u => o.Compatible u ∧ o.device = (t r).device)
        [Tensor.empty num (sizes r * cpuGroup.ranks.length :: (t r).shape.drop 1) (t r).dtype (t r).device]
        (List.ofFn t) := by
      intro r
      have hone : cpuGroup.ranks.length = 1 := by
        have hr := r.2
        omega
      rw [ofFn_alone hW t r, hone, (ht r).1, Nat.mul_one]
      exact .cons ⟨⟨(ht r).1.symm, rfl⟩, rfl⟩ .nil
    have h := meaning_allGather (O := O) num (g := g) hdtype hbuffers r
    rwa [ofFn_alone hW _ r] at h
  cases hoststaged with
  | false =>
    simp only [XpuCommunicator.allGatherSingle, XpuCommunicator.group, groupMember, hn, Bool.false_eq_true, if_false,
      Script.liftM_eq, Script.lift_ok, pure_bind]
    refine Script.completes_ask (fun r => ⟨_, hreply x deviceGroup hrows r, rfl⟩) fun y hy => ?_
    simp only [← hy, getItem_zero, Script.lift_ok, pure_bind]
    exact Script.completes_pure hcat
  | true =>
    simp only [XpuCommunicator.allGatherSingle, XpuCommunicator.group, groupMember, hn, if_true, Script.liftM_eq,
      Script.lift_ok, pure_bind, Tensor.toDevice_shape]
    refine Script.completes_ask (fun r => ⟨_, hreply (fun r => (x r).toDevice .cpu) cpuGroup hrows r, rfl⟩)
      fun y hy => ?_
    simp only [← hy, getItem_zero, Script.lift_ok, pure_bind]
    exact Script.completes_pure hcat

/-- With several ranks, the one buffer is refused. -/
theorem allGatherSingle_raises (hW : 2 ≤ cpuGroup.ranks.length) (hx : Rows sizes x) :
    ∃ tr, Script.Runs (meaning (O := O) num)
      (fun r => (groupMember cpuGroup deviceGroup device uniqueName hoststaged r).allGatherSingle num (x r) none) tr
        fun _ => .error .distributedError := by
  obtain ⟨tail, dtype, hrows⟩ := hx
  have hn : ∀ r, getItem (x r).shape 0 = .ok (sizes r) := by
    intro r
    rw [(hrows r).1]
    exact getItem_zero _ _
  have hshort : ∀ o : Tensor V, [o].length ≠ cpuGroup.ranks.length := fun o => by
    rw [List.length_singleton]
    omega
  cases hoststaged with
  | false =>
    simp only [XpuCommunicator.allGatherSingle, XpuCommunicator.group, groupMember, hn, Bool.false_eq_true, if_false,
      Script.liftM_eq, Script.lift_ok, pure_bind]
    exact ⟨_, Script.runs_ask_error fun r => meaning_allGather_short num (hshort _)⟩
  | true =>
    simp only [XpuCommunicator.allGatherSingle, XpuCommunicator.group, groupMember, hn, if_true, Script.liftM_eq,
      Script.lift_ok, pure_bind, Tensor.toDevice_shape]
    exact ⟨_, Script.runs_ask_error fun r => meaning_allGather_short num (hshort _)⟩

theorem allGatherEach_delivers {sizes : Option (List Nat)} (xs : List (Fin cpuGroup.ranks.length → Tensor V))
    (h : ∀ x ∈ xs, Script.Completes (meaning (O := O) num)
      (fun r => (groupMember cpuGroup deviceGroup device uniqueName hoststaged r).allGatherSingle num (x r) sizes)
        fun y => ∀ r, catFor x 0 r = .ok (y r)) :
    Script.Completes (meaning (O := O) num)
      (fun r => (groupMember cpuGroup deviceGroup device uniqueName hoststaged r).allGatherEach num sizes
        (xs.map (· r))) fun ys => ∀ r, xs.mapM (catFor · 0 r) = .ok (ys r) := by
  induction xs with
  | nil => exact Script.completes_pure fun r => rfl
  | cons x xs ih =>
    rw [List.forall_mem_cons] at h
    refine Script.completes_bind h.1 fun y hy => Script.completes_bind (ih h.2) fun ys hys =>
      Script.completes_pure fun r => ?_
    rw [List.mapM_cons, hy r, hys r]
    rfl

end Runs

/-- What the ranks pass: a tensor each, or lists of tensors of one length. -/
inductive GathervInput (V : Type) (W : Nat) where
  | one (tensor : Fin W → Tensor V)
  | many (tensors : List (Fin W → Tensor V))

namespace GathervInput
variable {W : Nat}

def arg (r : Fin W) : GathervInput V W → TensorArg V
  | one x => .one (x r)
  | many xs => .many (xs.map (· r))

def tensors : GathervInput V W → List (Fin W → Tensor V)
  | one x => [x]
  | many xs => xs

def concatFor (r : Fin W) : GathervInput V W → Py (TensorArg V)
  | one x => TensorArg.one <$> catFor x 0 r
  | many xs => TensorArg.many <$> xs.mapM (catFor · 0 r)

end GathervInput

section Function
variable (num : Numerics V) (O : Type) (cpuGroup deviceGroup : ProcessGroup)
  (device : Fin cpuGroup.ranks.length → Device) (uniqueName : String) (hoststaged : Bool)

/-- Every rank gets the concatenation of all ranks' inputs along axis 0. -/
def GathervDelivers (input : GathervInput V cpuGroup.ranks.length) (sizes : Option (List Nat)) : Prop :=
  Script.Completes (meaning (O := O) num)
    (fun r => (groupMember cpuGroup deviceGroup device uniqueName hoststaged r).allGatherv num (input.arg r) 0 sizes)
      fun y => ∀ r, input.concatFor r = .ok (y r)

/-- The result does not depend on whether equal sizes are passed. -/
def GathervCorrect (sizes : Fin cpuGroup.ranks.length → Nat) (input : GathervInput V cpuGroup.ranks.length) : Prop :=
  GathervDelivers num O cpuGroup deviceGroup device uniqueName hoststaged input (some (List.ofFn sizes)) ∧
    ((∃ n, ∀ r, sizes r = n) → GathervDelivers num O cpuGroup deviceGroup device uniqueName hoststaged input none)

variable {num O cpuGroup deviceGroup device uniqueName hoststaged}

theorem gathervDelivers_of_singles {input : GathervInput V cpuGroup.ranks.length} {sizes : Option (List Nat)}
    (h : ∀ x ∈ input.tensors, Script.Completes (meaning (O := O) num)
      (fun r => (groupMember cpuGroup deviceGroup device uniqueName hoststaged r).allGatherSingle num (x r)
        (XpuCommunicator.dropUniform sizes)) fun y => ∀ r, catFor x 0 r = .ok (y r)) :
    GathervDelivers num O cpuGroup deviceGroup device uniqueName hoststaged input sizes := by
  cases input with
  | one x =>
    refine Script.completes_bind (h x (List.mem_singleton_self x)) fun y hy => Script.completes_pure fun r => ?_
    rw [GathervInput.concatFor, hy r]
    rfl
  | many xs =>
    refine Script.completes_bind (allGatherEach_delivers hoststaged xs h) fun ys hys =>
      Script.completes_pure fun r => ?_
    rw [GathervInput.concatFor, hys r]
    rfl

/-- A rank of a larger group that drops the sizes never gets a result. -/
theorem not_gathervDelivers {input : GathervInput V cpuGroup.ranks.length} {sizes : Option (List Nat)}
    {lengths : Fin cpuGroup.ranks.length → Nat} (hW : 2 ≤ cpuGroup.ranks.length)
    (hrows : ∀ x ∈ input.tensors, Rows lengths x) (hne : input.tensors ≠ [])
    (hdrop : XpuCommunicator.dropUniform sizes = none) :
    ¬ GathervDelivers num O cpuGroup deviceGroup device uniqueName hoststaged input sizes := by
  have : NeZero cpuGroup.ranks.length := ⟨by omega⟩
  have hsingle : ∀ x, Rows lengths x → ∃ tr, Script.Runs (meaning (O := O) num)
      (fun r => (groupMember cpuGroup deviceGroup device uniqueName hoststaged r).allGatherSingle num (x r)
        (XpuCommunicator.dropUniform sizes)) tr fun _ => .error .distributedError := by
    intro x hx
    rw [hdrop]
    exact allGatherSingle_raises hoststaged hW hx
  have hfail : ∃ tr, Script.Runs (meaning (O := O) num) (fun r =>
      (groupMember cpuGroup deviceGroup device uniqueName hoststaged r).allGatherv num (input.arg r) 0 sizes) tr
        fun _ => .error .distributedError := by
    cases input with
    | one x =>
      obtain ⟨tr, hrun⟩ := hsingle x (hrows x (List.mem_singleton_self x))
      exact ⟨tr, Script.runs_bind_error hrun⟩
    | many xs =>
      obtain ⟨x, xs, rfl⟩ := List.exists_cons_of_ne_nil hne
      obtain ⟨tr, hrun⟩ := hsingle x (hrows x List.mem_cons_self)
      exact ⟨tr, Script.runs_bind_error (Script.runs_bind_error hrun)⟩
  obtain ⟨tr, hrun⟩ := hfail
  exact Script.not_completes_of_raises hrun

/-- all_gatherv delivers the concatenations unless several ranks pass tensors with equal
sizes: then the sizes are dropped and the shortcut raises. -/
theorem gathervCorrect_iff {sizes : Fin cpuGroup.ranks.length → Nat}
    {input : GathervInput V cpuGroup.ranks.length} (hrows : ∀ x ∈ input.tensors, Rows sizes x) :
    GathervCorrect num O cpuGroup deviceGroup device uniqueName hoststaged sizes input ↔
      cpuGroup.ranks.length ≤ 1 ∨ (¬ ∃ n, ∀ r, sizes r = n) ∨ input.tensors = [] := by
  have hequal_iff : (∃ n, ∀ size ∈ List.ofFn sizes, size = n) ↔ ∃ n, ∀ r, sizes r = n := by
    simp [List.mem_ofFn]
  have huniform : XpuCommunicator.dropUniform (some (List.ofFn sizes)) = none ↔ ∃ n, ∀ r, sizes r = n :=
    dropUniform_eq_none_iff.trans hequal_iff
  constructor
  · rintro ⟨hsome, -⟩
    by_contra hnot
    rw [not_or, not_or, not_not] at hnot
    obtain ⟨hW, hequal, hne⟩ := hnot
    exact not_gathervDelivers (by omega) hrows hne (huniform.mpr hequal) hsome
  · intro h
    have hdropped : ∀ sizes', XpuCommunicator.dropUniform sizes' = none → (∃ n, ∀ r, sizes r = n) →
        GathervDelivers num O cpuGroup deviceGroup device uniqueName hoststaged input sizes' := by
      intro sizes' hdrop hequal
      apply gathervDelivers_of_singles
      intro x hx
      rw [hdrop]
      rcases h with hW | hne | hnil
      · exact allGatherSingle_alone hoststaged hW (hrows x hx)
      · exact absurd hequal hne
      · rw [hnil] at hx
        cases hx
    refine ⟨?_, hdropped none rfl⟩
    by_cases hequal : ∃ n, ∀ r, sizes r = n
    · exact hdropped _ (huniform.mpr hequal) hequal
    · apply gathervDelivers_of_singles
      intro x hx
      rw [dropUniform_eq_some (mt hequal_iff.mp hequal)]
      exact allGatherSingle_delivers hoststaged (hrows x hx)

end Function

/-- Two cards with one and two rows, and with one row each. -/
def raggedInput (r : Fin pairCpuGroup.ranks.length) : Tensor Int :=
  .empty intNumerics [(r : Nat) + 1] .float16 (pairDevice r)

def oneRowInput (r : Fin pairCpuGroup.ranks.length) : Tensor Int :=
  { shape := [1], data := [((r : Nat) : Int)], wf := rfl, device := pairDevice r, dtype := .float16 }

theorem raggedInput_gathers :
    GathervCorrect intNumerics Unit pairCpuGroup pairDeviceGroup pairDevice "tp:0" false (fun r => (r : Nat) + 1)
      (.one raggedInput) := by
  have hrows : Rows (fun r => (r : Nat) + 1) raggedInput := ⟨[], .float16, fun r => ⟨rfl, rfl⟩⟩
  apply (gathervCorrect_iff fun x hx => List.mem_singleton.mp hx ▸ hrows).mpr
  refine .inr (.inl ?_)
  rintro ⟨n, hn⟩
  have h0 : 1 = n := hn ⟨0, Nat.two_pos⟩
  have h1 : 2 = n := hn ⟨1, Nat.one_lt_two⟩
  omega

/-- Equal sizes take the shortcut. -/
theorem oneRowInput_raises :
    ¬ GathervCorrect intNumerics Unit pairCpuGroup pairDeviceGroup pairDevice "tp:0" true (fun _ => 1)
      (.one oneRowInput) := by
  have hrows : Rows (fun _ => 1) oneRowInput := ⟨[], .float16, fun r => ⟨rfl, rfl⟩⟩
  have hne : (GathervInput.one oneRowInput).tensors ≠ [] := List.cons_ne_nil _ _
  rintro ⟨h, -⟩
  exact not_gathervDelivers (by decide) (fun x hx => List.mem_singleton.mp hx ▸ hrows) hne rfl h

end B70DualTP.Communicator
