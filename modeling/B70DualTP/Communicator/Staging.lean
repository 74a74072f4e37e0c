import B70DualTP.Communicator.Xpu

/-! Host staging as a translation of calls: what a device call becomes when its
tensors travel through host memory, and why the collectives do not notice. -/
namespace B70DualTP.Communicator
open Library Torch
variable {V O : Type} (num : Numerics V)

/-- Half-precision values survive the round trip through fp32, and fp32 adds them exactly. -/
structure ExactHalf : Prop where
  castBack : ∀ d : DType, d.isHalf → ∀ v, num.cast .float32 d (num.cast d .float32 v) = v
  castAdd : ∀ d : DType, d.isHalf → ∀ a b,
    num.cast d .float32 (num.add d a b) = num.add .float32 (num.cast d .float32 a) (num.cast d .float32 b)

/-- What the staging copy of a reduction does to one element. -/
def upcast (d : DType) : V → V := if d.isHalf then num.cast d .float32 else id

/-- The host copy that a reduction works on. -/
def stageReduce (t : Tensor V) : Tensor V := t.castTo num .cpu (reduceDType t.dtype)

section Tensors
variable {num} (t : Tensor V)

theorem isHalf_ne_float32 {d : DType} (h : d.isHalf) : d ≠ .float32 := by
  rintro rfl
  cases h

@[simp] theorem stageReduce_shape : (stageReduce num t).shape = t.shape := t.castTo_shape num _ _
@[simp] theorem stageReduce_dtype : (stageReduce num t).dtype = reduceDType t.dtype := rfl

theorem stageReduce_data : (stageReduce num t).data = t.data.map (upcast num t.dtype) := by
  by_cases h : t.dtype.isHalf
  · have hr : reduceDType t.dtype = .float32 := if_pos h
    rw [stageReduce, hr, Tensor.castTo_data_cast _ _ _ _ (isHalf_ne_float32 h)]
    simp [upcast, h]
  · have hr : reduceDType t.dtype = t.dtype := if_neg h
    rw [stageReduce, hr, Tensor.castTo_data_same]
    simp [upcast, h]

theorem unstage (hex : ExactHalf num) : (stageReduce num t).castTo num t.device t.dtype = t := by
  apply Tensor.ext'
  · simp
  · by_cases h : t.dtype.isHalf
    · have hr : reduceDType t.dtype = .float32 := if_pos h
      rw [Tensor.castTo_data_cast _ _ _ _ (by rw [stageReduce_dtype, hr]; exact (isHalf_ne_float32 h).symm)]
      rw [stageReduce_data, stageReduce_dtype, hr]
      simp only [upcast, h, if_true, List.map_map]
      exact (List.map_congr_left fun v _ => hex.castBack _ h v).trans (List.map_id _)
    · have hr : reduceDType t.dtype = t.dtype := if_neg h
      simp only [stageReduce, Tensor.castTo, hr, if_true]
  · rfl
  · rfl

theorem sumData_upcast (hex : ExactHalf num) (d : DType) (xss : List (List V)) :
    sumData num (reduceDType d) (xss.map (List.map (upcast num d))) =
      (sumData num d xss).map (upcast num d) := by
  by_cases h : d.isHalf
  · have hr : reduceDType d = .float32 := if_pos h
    have hu : upcast num d = num.cast d .float32 := if_pos h
    have hz : ∀ xs ys : List V, List.zipWith (num.add .float32) (xs.map (num.cast d .float32))
        (ys.map (num.cast d .float32)) = (List.zipWith (num.add d) xs ys).map (num.cast d .float32) := by
      intro xs ys
      simp only [List.zipWith_map, List.map_zipWith, hex.castAdd d h]
    have hf : ∀ (xss : List (List V)) (xs : List V), (xss.map (List.map (num.cast d .float32))).foldl
        (List.zipWith (num.add .float32)) (xs.map (num.cast d .float32)) =
          (xss.foldl (List.zipWith (num.add d)) xs).map (num.cast d .float32) := by
      intro xss
      induction xss with
      | nil => intro xs; rfl
      | cons ys xss ih => intro xs; simp only [List.map_cons, List.foldl_cons, hz, ih]
    rw [hr, hu]
    cases xss with
    | nil => rfl
    | cons xs xss => exact hf xss xs
  · have hr : reduceDType d = d := if_neg h
    have hu : upcast num d = id := if_neg h
    simp [hr, hu]

theorem fill_stageReduce (xs : List V) :
    (stageReduce num t).fill (xs.map (upcast num t.dtype)) = (t.fill xs).map (stageReduce num) := by
  by_cases h : xs.length = t.shape.prod
  · rw [Tensor.fill_eq_ok h, Tensor.fill_eq_ok (by simpa using h)]
    refine congrArg Except.ok (Tensor.ext' ?_ ?_ rfl rfl)
    · simp
    · simp only [Tensor.withArray_data, stageReduce_data, Tensor.withArray_dtype]
  · rw [Tensor.fill_eq_error h, Tensor.fill_eq_error (by simpa using h)]
    rfl

theorem fill_toDevice (device : Device) (xs : List V) :
    (t.toDevice device).fill xs = (t.fill xs).map (·.toDevice device) := by
  by_cases h : xs.length = t.shape.prod
  · rw [Tensor.fill_eq_ok h, Tensor.fill_eq_ok (by simpa using h)]
    rfl
  · rw [Tensor.fill_eq_error h, Tensor.fill_eq_error (by simpa using h)]
    rfl

theorem fill_hostBuffer (xs : List V) :
    (Tensor.empty num t.shape (reduceDType t.dtype) .cpu).fill (xs.map (upcast num t.dtype)) =
      (t.fill xs).map (stageReduce num) := by
  by_cases h : xs.length = t.shape.prod
  · rw [Tensor.fill_eq_ok h, Tensor.fill_eq_ok (by simpa using h)]
    refine congrArg Except.ok (Tensor.ext' ?_ ?_ rfl rfl)
    · simp
    · simp only [Tensor.withArray_data, stageReduce_data, Tensor.withArray_dtype]
  · rw [Tensor.fill_eq_error h, Tensor.fill_eq_error (by simpa using h)]
    rfl

theorem stageReduce_array : (stageReduce num t).toNDArray = t.toNDArray.map (upcast num t.dtype) :=
  NDArray.ext (stageReduce_shape t) (stageReduce_data t)

theorem split_stageReduce (sizes : List Nat) :
    (stageReduce num t).split sizes = (t.split sizes).map (List.map (stageReduce num)) := by
  simp only [Tensor.split, stageReduce_array, NDArray.split?_map]
  cases t.split? sizes with
  | none => rfl
  | some as =>
    simp only [Option.map_some, Except.map, List.map_map]
    refine congrArg _ (List.map_congr_left fun a _ => ?_)
    apply Tensor.ext'
    · simp
    · simp [stageReduce_data]
    · rfl
    · rfl

end Tensors

section Translation
variable (cpuGroup deviceGroup : ProcessGroup)

/-- The host-staged form of a collective. Output buffers are allocated on the host. -/
def stageCall : Call V O → Call V O
  | .allReduce t _ => .allReduce (stageReduce num t) cpuGroup
  | .allGatherIntoTensor o i _ => .allGatherIntoTensor (o.toDevice .cpu) (i.toDevice .cpu) cpuGroup
  | .allGather os i _ => .allGather (os.map (·.toDevice .cpu)) (i.toDevice .cpu) cpuGroup
  | .reduceScatterTensor o i _ =>
    .reduceScatterTensor (Tensor.empty num o.shape (reduceDType o.dtype) .cpu) (stageReduce num i) cpuGroup
  | .reduceScatter o is _ =>
    .reduceScatter (Tensor.empty num o.shape (reduceDType o.dtype) .cpu) (is.map (stageReduce num)) cpuGroup
  | .broadcast t src _ => .broadcast (t.toDevice .cpu) src cpuGroup
  | c => c

/-- What the staged call leaves on the host, given what the device call leaves. -/
def stageReply : (c : Call V O) → Py c.Resp → Py (stageCall num cpuGroup c).Resp
  | .allReduce .. | .reduceScatterTensor .. | .reduceScatter .. => Except.map (stageReduce num)
  | .allGatherIntoTensor .. | .broadcast .. => Except.map (·.toDevice .cpu)
  | .allGather .. => Except.map (List.map (·.toDevice .cpu))
  | .gather .. | .broadcastObjectList .. | .mqBroadcastObject .. | .send .. | .recv .. => id
  | .isend .. | .irecv .. | .waitSend .. | .waitRecv .. => id

def staging : Prog.Translation (Call V O) (fun c => Py c.Resp) (Call V O) (fun c => Py c.Resp) :=
  ⟨stageCall num cpuGroup, stageReply num cpuGroup⟩

/-- A collective of the device branch; the dtypes it reduces belong to D. -/
def DeviceCall (D : DType → Prop) : Call V O → Prop
  | .allReduce t g => g = deviceGroup ∧ D t.dtype
  | .allGatherIntoTensor _ _ g | .allGather _ _ g | .broadcast _ _ g => g = deviceGroup
  | .reduceScatterTensor o i g => g = deviceGroup ∧ D i.dtype ∧ o.dtype = i.dtype
  | .reduceScatter o is g => g = deviceGroup ∧ D o.dtype ∧ ∀ i ∈ is, D i.dtype
  | _ => False

/-- Upcasting does not identify two dtypes of D. -/
def Separated (D : DType → Prop) : Prop := ∀ d e, D d → D e → reduceDType d = reduceDType e → d = e

def KeepsBuffer : (c : Call V O) → Py c.Resp → Prop
  | .allReduce b _, y | .allGatherIntoTensor b _ _, y | .reduceScatterTensor b _ _, y => ∀ u : Tensor V,
    y = .ok u → u.device = b.device ∧ u.dtype = b.dtype
  | .reduceScatter b _ _, y | .broadcast b _ _, y => ∀ u : Tensor V,
    y = .ok u → u.device = b.device ∧ u.dtype = b.dtype
  | .allGather bs _ _, y => ∀ us : List (Tensor V), y = .ok us → ∀ u ∈ us, ∃ b ∈ bs, u.device = b.device
  | _, _ => True

variable {num cpuGroup deviceGroup} {D : DType → Prop}

section Arguments
variable {A B : Type} {calls : List (Call V O)}

private theorem gatherArgs_stage {sel : Call V O → Option A} {sel' : Call V O → Option B} {f : A → B}
    (h : ∀ c ∈ calls, sel' (stageCall num cpuGroup c) = (sel c).map f) :
    gatherArgs sel' (calls.map (stageCall num cpuGroup)) = (gatherArgs sel calls).map (List.map f) := by
  have hm : (calls.map (stageCall num cpuGroup)).mapM sel' = (calls.mapM sel).map (List.map f) := by
    induction calls with
    | nil => rfl
    | cons c calls ih =>
      rw [List.map_cons, List.mapM_cons, List.mapM_cons, h c (by simp), ih fun c hc => h c (by simp [hc])]
      cases sel c <;> cases calls.mapM sel <;> rfl
  rw [gatherArgs, gatherArgs, hm]
  cases calls.mapM sel <;> rfl

private theorem gatherArgs_mem {sel : Call V O → Option A} {as : List A} (h : gatherArgs sel calls = .ok as) :
    ∀ a ∈ as, ∃ c ∈ calls, sel c = some a := by
  have hm : calls.mapM sel = some as := by
    rw [gatherArgs] at h
    cases hc : calls.mapM sel with
    | none => rw [hc] at h; cases h
    | some bs => rw [hc] at h; cases h; rfl
  clear h
  induction calls generalizing as with
  | nil =>
    cases hm
    simp
  | cons c calls ih =>
    rw [List.mapM_cons] at hm
    cases hs : sel c with
    | none => simp [hs] at hm
    | some a =>
      cases hr : calls.mapM sel with
      | none => simp [hs, hr] at hm
      | some bs =>
        simp [hs, hr] at hm
        subst hm
        intro b hb
        rcases List.mem_cons.mp hb with rfl | hb
        · exact ⟨c, by simp, hs⟩
        · obtain ⟨d, hd, hsd⟩ := ih hr b hb
          exact ⟨d, by simp [hd], hsd⟩

end Arguments

private theorem map_bind_map {A A' B B' : Type} {m : Py A} {g : A → A'} {F : A' → Py B'} {G : A → Py B}
    {f : B → B'} (h : ∀ a, m = .ok a → F (g a) = (G a).map f) : (m.map g >>= F) = (m >>= G).map f := by
  cases m with
  | error e => rfl
  | ok a => exact h a rfl

private theorem require_bind_map {B B' : Type} {p q : Prop} [Decidable p] [Decidable q] (h : p ↔ q)
    {x : Py B} {y : Py B'} {f : B → B'} (hq : q → y = x.map f) :
    (require p >>= fun _ => y) = (require q >>= fun _ => x).map f := by
  by_cases hp : q
  · rw [require, require, if_pos hp, if_pos (h.mpr hp)]
    exact hq hp
  · rw [require, require, if_neg hp, if_neg (mt h.mp hp)]
    rfl

private theorem compatible_stage (hD : Separated D) {t u : Tensor V} (ht : D t.dtype) (hu : D u.dtype) :
    (stageReduce num u).Compatible (stageReduce num t) ↔ u.Compatible t := by
  simp only [Tensor.Compatible, stageReduce_shape, stageReduce_dtype]
  exact and_congr_right fun _ => ⟨hD _ _ hu ht, congrArg _⟩

private theorem forall₂_compatible_stage (hD : Separated D) {us is : List (Tensor V)}
    (hi : ∀ i ∈ is, D i.dtype) (hu : ∀ u ∈ us, D u.dtype) :
    List.Forall₂ Tensor.Compatible (us.map (stageReduce num)) (is.map (stageReduce num)) ↔
      List.Forall₂ Tensor.Compatible us is := by
  induction us generalizing is with
  | nil => simp
  | cons u us ih =>
    cases is with
    | nil => simp
    | cons i is =>
      simp only [List.forall_mem_cons] at hi hu
      simp only [List.map_cons, List.forall₂_cons]
      exact and_congr (compatible_stage hD hi.1 hu.1) (ih hi.2 hu.2)

section Replies
variable {calls : List (Call V O)}

private theorem zip_fill_toDevice (os ts : List (Tensor V)) :
    (((os.map (·.toDevice Device.cpu)).zip (ts.map (·.toDevice Device.cpu))).mapM
        fun p : Tensor V × Tensor V => p.1.fill p.2.data) =
      ((os.zip ts).mapM fun p : Tensor V × Tensor V => p.1.fill p.2.data).map
        (List.map (·.toDevice .cpu)) := by
  induction os generalizing ts with
  | nil => rfl
  | cons o os ih =>
    cases ts with
    | nil => rfl
    | cons t ts =>
      simp only [List.map_cons, List.zip_cons_cons, List.mapM_cons, ih, fill_toDevice, Tensor.toDevice_data]
      cases o.fill t.data <;>
        cases (os.zip ts).mapM (fun p : Tensor V × Tensor V => p.1.fill p.2.data) <;> rfl

private theorem filterMap_column {A B : Type} (f : A → B) (r : Nat) (xss : List (List A)) :
    (xss.map (List.map f)).filterMap (·[r]?) = (xss.filterMap (·[r]?)).map f := by
  rw [List.filterMap_map, List.map_filterMap]
  congr 1
  funext xs
  simp

private theorem data_stageReduce {d : DType} {ts : List (Tensor V)} (hd : ∀ u ∈ ts, u.dtype = d) :
    (ts.map (stageReduce num)).map (·.data) = (ts.map (·.data)).map (List.map (upcast num d)) := by
  simp only [List.map_map]
  apply List.map_congr_left
  intro u hu
  simp [stageReduce_data, hd u hu]

variable (hP : ∀ c ∈ calls, DeviceCall deviceGroup D c) (r : Nat)
include hP

private theorem reply_allReduce (hex : ExactHalf num) (hD : Separated D) (t : Tensor V) (ht : D t.dtype) :
    reply num (calls.map (stageCall num cpuGroup)) r (.allReduce (stageReduce num t) cpuGroup) =
      (reply num calls r (.allReduce t deviceGroup)).map (stageReduce num) := by
  have hs : ∀ c ∈ calls, selAllReduce cpuGroup (stageCall num cpuGroup c) =
      (selAllReduce deviceGroup c).map (stageReduce num) := by
    intro c hc
    have := hP c hc
    cases c <;> simp_all [stageCall, selAllReduce, DeviceCall]
  simp only [reply, gatherArgs_stage hs]
  refine map_bind_map fun ts hg => require_bind_map ?_ fun hc => ?_
  · have hts : ∀ u ∈ ts, D u.dtype := by
      intro u hu
      obtain ⟨c, hc, hsel⟩ := gatherArgs_mem hg u hu
      have := hP c hc
      cases c <;> simp_all [selAllReduce, DeviceCall]
    simp only [List.forall_mem_map]
    exact forall₂_congr fun u hu => compatible_stage hD ht (hts u hu)
  · rw [data_stageReduce fun u hu => (hc u hu).2, stageReduce_dtype, sumData_upcast hex, fill_stageReduce]

private theorem reply_allGatherIntoTensor (o i : Tensor V) :
    reply num (calls.map (stageCall num cpuGroup)) r
        (.allGatherIntoTensor (o.toDevice .cpu) (i.toDevice .cpu) cpuGroup) =
      (reply num calls r (.allGatherIntoTensor o i deviceGroup)).map (·.toDevice .cpu) := by
  have hs : ∀ c ∈ calls, selAllGatherIntoTensor cpuGroup (stageCall num cpuGroup c) =
      (selAllGatherIntoTensor deviceGroup c).map (·.toDevice .cpu) := by
    intro c hc
    have := hP c hc
    cases c <;> simp_all [stageCall, selAllGatherIntoTensor, DeviceCall]
  simp only [reply, gatherArgs_stage hs]
  refine map_bind_map fun ts _ => require_bind_map ?_ fun _ => ?_
  · simp only [List.forall_mem_map]
    exact Iff.rfl
  · rw [List.flatMap_map, fill_toDevice]
    rfl

private theorem reply_allGather (os : List (Tensor V)) (i : Tensor V) :
    reply num (calls.map (stageCall num cpuGroup)) r
        (.allGather (os.map (·.toDevice .cpu)) (i.toDevice .cpu) cpuGroup) =
      (reply num calls r (.allGather os i deviceGroup)).map (List.map (·.toDevice .cpu)) := by
  have hs : ∀ c ∈ calls, selAllGather cpuGroup (stageCall num cpuGroup c) =
      (selAllGather deviceGroup c).map (·.toDevice .cpu) := by
    intro c hc
    have := hP c hc
    cases c <;> simp_all [stageCall, selAllGather, DeviceCall]
  simp only [reply, gatherArgs_stage hs]
  refine map_bind_map fun ts _ => require_bind_map ?_ fun _ => zip_fill_toDevice os ts
  simp only [List.forall₂_map_left_iff, List.forall₂_map_right_iff, List.forall_mem_map]
  exact Iff.rfl

private theorem reply_reduceScatterTensor (hex : ExactHalf num) (hD : Separated D) (o i : Tensor V)
    (hi : D i.dtype) (ho : o.dtype = i.dtype) :
    reply num (calls.map (stageCall num cpuGroup)) r
        (.reduceScatterTensor (Tensor.empty num o.shape (reduceDType o.dtype) .cpu) (stageReduce num i) cpuGroup) =
      (reply num calls r (.reduceScatterTensor o i deviceGroup)).map (stageReduce num) := by
  have hs : ∀ c ∈ calls, selReduceScatterTensor cpuGroup (stageCall num cpuGroup c) =
      (selReduceScatterTensor deviceGroup c).map (stageReduce num) := by
    intro c hc
    have := hP c hc
    cases c <;> simp_all [stageCall, selReduceScatterTensor, DeviceCall]
  simp only [reply, gatherArgs_stage hs]
  refine map_bind_map fun ts hg => require_bind_map ?_ fun hc => ?_
  · have hts : ∀ u ∈ ts, D u.dtype := by
      intro u hu
      obtain ⟨c, hc, hsel⟩ := gatherArgs_mem hg u hu
      have := hP c hc
      cases c <;> simp_all [selReduceScatterTensor, DeviceCall]
    have hq : (∀ u ∈ ts.map (stageReduce num), u.Compatible (stageReduce num i)) ↔
        ∀ u ∈ ts, u.Compatible i := by
      simp only [List.forall_mem_map]
      exact forall₂_congr fun u hu => compatible_stage hD hi (hts u hu)
    refine and_congr ?_ (and_congr hq ?_)
    · simp [ho]
    · simp [NDArray.numel]
  · rw [data_stageReduce fun u hu => (hc.2.1 u hu).2, stageReduce_dtype, sumData_upcast hex, ← map_block, ← ho]
    exact fill_hostBuffer o _

private theorem reply_reduceScatter (hex : ExactHalf num) (hD : Separated D) (o : Tensor V)
    (is : List (Tensor V)) (ho : D o.dtype) (hi : ∀ i ∈ is, D i.dtype) :
    reply num (calls.map (stageCall num cpuGroup)) r
        (.reduceScatter (Tensor.empty num o.shape (reduceDType o.dtype) .cpu) (is.map (stageReduce num)) cpuGroup) =
      (reply num calls r (.reduceScatter o is deviceGroup)).map (stageReduce num) := by
  have hs : ∀ c ∈ calls, selReduceScatter cpuGroup (stageCall num cpuGroup c) =
      (selReduceScatter deviceGroup c).map (List.map (stageReduce num)) := by
    intro c hc
    have := hP c hc
    cases c <;> simp_all [stageCall, selReduceScatter, DeviceCall]
  simp only [reply, gatherArgs_stage hs]
  apply map_bind_map
  intro tss hg
  have hts : ∀ us ∈ tss, ∀ u ∈ us, D u.dtype := by
    intro us hu
    obtain ⟨c, hc, hsel⟩ := gatherArgs_mem hg us hu
    have := hP c hc
    cases c <;> simp_all [selReduceScatter, DeviceCall]
  refine require_bind_map ?_ fun _ => require_bind_map ?_ fun hc => ?_
  · simp only [List.forall_mem_map, List.length_map]
    exact forall₂_congr fun us hus => and_congr_left fun _ => forall₂_compatible_stage hD hi (hts us hus)
  · rw [filterMap_column]
    simp only [List.forall_mem_map]
    apply forall₂_congr
    intro u hu
    obtain ⟨us, hus, hr⟩ := List.mem_filterMap.mp hu
    have hdu := hts us hus u (List.mem_of_getElem? hr)
    simp only [Tensor.Compatible, stageReduce_shape, stageReduce_dtype, Tensor.empty_shape, Tensor.empty_dtype]
    exact and_congr_right fun _ => ⟨hD _ _ hdu ho, congrArg _⟩
  · rw [filterMap_column, data_stageReduce fun u hu => (hc u hu).2, Tensor.empty_dtype, sumData_upcast hex]
    exact fill_hostBuffer o _

private theorem reply_broadcast (hr : cpuGroup.ranks = deviceGroup.ranks) (t : Tensor V) (src : Int) :
    reply num (calls.map (stageCall num cpuGroup)) r (.broadcast (t.toDevice .cpu) src cpuGroup) =
      (reply num calls r (.broadcast t src deviceGroup)).map (·.toDevice .cpu) := by
  have hs : ∀ c ∈ calls, selBroadcast src cpuGroup (stageCall num cpuGroup c) =
      (selBroadcast src deviceGroup c).map (·.toDevice .cpu) := by
    intro c hc
    have := hP c hc
    cases c <;> simp_all [stageCall, selBroadcast, DeviceCall]
  have hg : cpuGroup.groupRank? src = deviceGroup.groupRank? src := by
    rw [ProcessGroup.groupRank?, ProcessGroup.groupRank?, hr]
  simp only [reply, gatherArgs_stage hs, hg]
  apply map_bind_map
  intro ts _
  have hroot : ((deviceGroup.groupRank? src).bind fun k => (ts.map (·.toDevice Device.cpu))[k]?) =
      ((deviceGroup.groupRank? src).bind fun k => ts[k]?).map (·.toDevice .cpu) := by
    cases deviceGroup.groupRank? src <;> simp
  rw [hroot]
  cases (deviceGroup.groupRank? src).bind fun k => ts[k]? with
  | none => rfl
  | some root =>
    refine require_bind_map ?_ fun _ => ?_
    · simp only [List.forall_mem_map]
      exact Iff.rfl
    · rw [fill_toDevice]
      rfl

end Replies

private theorem zip_fill_device {os ts us : List (Tensor V)}
    (h : ((os.zip ts).mapM fun p : Tensor V × Tensor V => p.1.fill p.2.data) = .ok us) :
    ∀ u ∈ us, ∃ o ∈ os, u.device = o.device := by
  induction os generalizing ts us with
  | nil => cases h; simp
  | cons o os ih =>
    cases ts with
    | nil => cases h; simp
    | cons t ts =>
      rw [List.zip_cons_cons, List.mapM_cons] at h
      obtain ⟨v, hv, h⟩ := bind_eq_ok h
      obtain ⟨vs, hvs, h⟩ := bind_eq_ok h
      cases h
      rintro u (_ | ⟨_, hu⟩)
      · exact ⟨o, by simp, (Tensor.fill_ok hv).2.2.1⟩
      · obtain ⟨o', ho', hd⟩ := ih hvs u hu
        exact ⟨o', by simp [ho'], hd⟩

theorem reply_keepsBuffer (calls : List (Call V O)) (r : Nat) (c : Call V O) :
    KeepsBuffer c (reply num calls r c) := by
  cases c with
  | allReduce t g =>
    intro u hu
    obtain ⟨ts, -, hu⟩ := bind_eq_ok hu
    obtain ⟨-, -, hu⟩ := bind_eq_ok hu
    exact (Tensor.fill_ok hu).2.2
  | allGatherIntoTensor o i g =>
    intro u hu
    obtain ⟨ts, -, hu⟩ := bind_eq_ok hu
    obtain ⟨-, -, hu⟩ := bind_eq_ok hu
    exact (Tensor.fill_ok hu).2.2
  | allGather os i g =>
    intro us hu
    obtain ⟨ts, -, hu⟩ := bind_eq_ok hu
    obtain ⟨-, -, hu⟩ := bind_eq_ok hu
    exact zip_fill_device hu
  | reduceScatterTensor o i g =>
    intro u hu
    obtain ⟨ts, -, hu⟩ := bind_eq_ok hu
    obtain ⟨-, -, hu⟩ := bind_eq_ok hu
    exact (Tensor.fill_ok hu).2.2
  | reduceScatter o is g =>
    intro u hu
    obtain ⟨tss, -, hu⟩ := bind_eq_ok hu
    obtain ⟨-, -, hu⟩ := bind_eq_ok hu
    obtain ⟨-, -, hu⟩ := bind_eq_ok hu
    exact (Tensor.fill_ok hu).2.2
  | broadcast t src g =>
    intro u hu
    obtain ⟨ts, -, hu⟩ := bind_eq_ok hu
    cases hroot : (g.groupRank? src).bind fun k => ts[k]? with
    | none => simp [hroot] at hu
    | some root =>
      rw [hroot] at hu
      obtain ⟨-, -, hu⟩ := bind_eq_ok hu
      exact (Tensor.fill_ok hu).2.2
  | _ => trivial

/-- Staging carries every row of device collectives to the row of host collectives:
the replies correspond, and both rows raise or neither does. -/
theorem staging_carries (hex : ExactHalf num) (hD : Separated D) (hr : cpuGroup.ranks = deviceGroup.ranks)
    {W : Nat} : Prog.Carries (staging num cpuGroup) (KeepsBuffer (V := V) (O := O)) (DeviceCall deviceGroup D)
      (meaning (W := W) num) (meaning (W := W) num) where
  answer c _ r := reply_keepsBuffer _ r (c r)
  reply c hP r := by
    have hcalls : ∀ d ∈ List.ofFn c, DeviceCall deviceGroup D d := by
      intro d hd
      obtain ⟨k, rfl⟩ := List.mem_ofFn.mp hd
      exact hP k
    have hm : List.ofFn (fun r => stageCall num cpuGroup (c r)) = (List.ofFn c).map (stageCall num cpuGroup) := by
      rw [List.map_ofFn]
      rfl
    have hcr := hP r
    simp only [meaning, staging, hm]
    generalize c r = d at hcr ⊢
    cases d with
    | allReduce t g =>
      obtain ⟨rfl, ht⟩ := hcr
      exact reply_allReduce hcalls r hex hD t ht
    | allGatherIntoTensor o i g =>
      obtain rfl := hcr
      exact reply_allGatherIntoTensor hcalls r o i
    | allGather os i g =>
      obtain rfl := hcr
      exact reply_allGather hcalls r os i
    | reduceScatterTensor o i g =>
      obtain ⟨rfl, hi, ho⟩ := hcr
      exact reply_reduceScatterTensor hcalls r hex hD o i hi ho
    | reduceScatter o is g =>
      obtain ⟨rfl, ho, hi⟩ := hcr
      exact reply_reduceScatter hcalls r hex hD o is ho hi
    | broadcast t src g =>
      obtain rfl := hcr
      exact reply_broadcast hcalls r hr t src
    | _ => exact hcr.elim

end Translation
end B70DualTP.Communicator
