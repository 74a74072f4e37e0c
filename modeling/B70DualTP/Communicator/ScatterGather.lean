import B70DualTP.Library.Parts
import B70DualTP.Communicator.Gathering
import B70DualTP.Communicator.ScatterAxis
import B70DualTP.Communicator.Scatterv

/-! reduce_scatter and then all_gather along the same axis: the ranks are back with the whole
sum, which is what all_reduce returns, exactly for the axes along which reduce_scatter is right. -/
namespace B70DualTP.Communicator
open Library Torch NDArray
variable {V O : Type}

section Sums
variable {num : Numerics V} {hoststaged : Bool} {W : Nat} {s : List Nat} {dt : DType} {x : Fin W → Tensor V}

theorem sumChunk_eq_ok_iff {r : Fin W} {z y : Tensor V} (hz : elementwiseSum num hoststaged x r = .ok z)
    (hshape : z.shape = s) {d : Nat} (hd : d < s.length) : sumChunk num hoststaged x d r = .ok y ↔
      z.narrow? d (r * (s[d] / W)) (s[d] / W) = some y.toNDArray ∧ y.device = z.device ∧ y.dtype = z.dtype := by
  have hchunk : sumChunk num hoststaged x d r = narrow z d (r * (s[d] / W)) (s[d] / W) := by
    subst hshape
    simp only [sumChunk, hz]
    change (getItem z.shape d >>= fun n => narrow z d (r * (n / W)) (n / W)) = _
    rw [getItem_natCast hd]
    rfl
  rw [hchunk, narrow]
  cases z.narrow? d (r * (s[d] / W)) (s[d] / W) with
  | none => simp
  | some a =>
    constructor
    · intro h
      cases h
      exact ⟨rfl, rfl, rfl⟩
    · rintro ⟨ha, hdevice, hdtype⟩
      cases ha
      exact congrArg Except.ok (Tensor.ext' rfl rfl hdevice.symm hdtype.symm)

private theorem catFor_eq_ok_iff {y : Fin W → Tensor V} {z : Tensor V} {d : Nat} (hy : ∀ i, (y i).dtype = dt) {r : Fin W}
    (hdevice : z.device = (y r).device) (hdtype : z.dtype = dt) :
    catFor y d r = .ok z ↔ cat? d (List.ofFn fun i => (y i).toNDArray) = some z.toNDArray := by
  have hmap : (List.ofFn fun i => (y i).toDevice (y r).device).map (·.toNDArray) =
      List.ofFn fun i => (y i).toNDArray := by
    rw [List.map_ofFn]
    rfl
  have hne : (List.ofFn fun i => (y i).toDevice (y r).device) ≠ [] := by
    intro hnil
    have hlen := congrArg List.length hnil
    rw [List.length_ofFn, List.length_nil] at hlen
    exact absurd r.2 (by omega)
  obtain ⟨t, ts, hts⟩ := List.exists_cons_of_ne_nil hne
  have ht : t.device = (y r).device ∧ t.dtype = dt := by
    have hmem : t ∈ List.ofFn fun i => (y i).toDevice (y r).device := hts ▸ List.mem_cons_self
    obtain ⟨i, rfl⟩ := List.mem_ofFn.mp hmem
    exact ⟨rfl, hy i⟩
  rw [← hmap, catFor, hts]
  simp only [Tensor.cat]
  cases hcat : cat? d ((t :: ts).map (·.toNDArray)) with
  | none => simp
  | some a =>
    constructor
    · intro h
      cases h
      rfl
    · intro h
      cases h
      exact congrArg Except.ok (Tensor.ext' rfl rfl (ht.1.trans hdevice.symm) (ht.2.trans hdtype.symm))

theorem catFor_eq_iff {y : Fin W → Tensor V} {z : Tensor V} {d k : Nat} (hd : d < s.length)
    (hy : ∀ i, (y i).shape = s.set d k ∧ (y i).dtype = dt) (hz : z.shape = s) (hk : s[d] = W * k) {r : Fin W}
    (hdevice : z.device = (y r).device) (hdtype : z.dtype = dt) :
    catFor y d r = .ok z ↔ ∀ i : Fin W, z.narrow? d (i * k) k = some (y i).toNDArray := by
  have hdlen : (s.take d).length = d := List.length_take_of_le hd.le
  have hshape : z.shape = s.take d ++ (W * k) :: s.drop (d + 1) := by
    rw [hz, ← hk, ← List.drop_eq_getElem_cons hd, List.take_append_drop]
  have hparts : ∀ i, (y i).toNDArray.shape = s.take d ++ k :: s.drop (d + 1) := by
    intro i
    rw [(hy i).1, List.set_eq_take_append_cons_drop, if_pos hd]
  rw [catFor_eq_ok_iff (fun i => (hy i).2) hdevice hdtype, ← hdlen]
  constructor
  · intro h i
    exact narrow?_cat? hparts h i
  · intro h
    exact cat?_parts (Nat.zero_lt_of_lt r.2) hshape h

end Sums

section Property
variable (cpuGroup deviceGroup : ProcessGroup) (device : Fin cpuGroup.ranks.length → Device) (uniqueName : String)
  (hoststaged : Bool)

/-- For inputs of shape s, whatever their elements and their arithmetic are, reduce_scatter and
then all_gather along axis dim end on every rank with what all_reduce returns there. -/
def GathersSum (s : List Nat) (dim : Int) : Prop :=
  ∀ (V O : Type) (num : Numerics V) (dt : DType) (x : Fin cpuGroup.ranks.length → Tensor V), Uniform s dt x →
    ∃ z : Fin cpuGroup.ranks.length → Tensor V,
      Script.Completes (meaning (O := O) num)
        (fun r => (groupMember cpuGroup deviceGroup device uniqueName hoststaged r).allReduce num (x r)) (· = z) ∧
      Script.Completes (meaning (O := O) num)
        (fun r => do
          let chunk ← (groupMember cpuGroup deviceGroup device uniqueName hoststaged r).reduceScatter num (x r) dim
          (groupMember cpuGroup deviceGroup device uniqueName hoststaged r).allGather num chunk dim) (· = z)

variable {cpuGroup deviceGroup device uniqueName hoststaged} {s : List Nat} {dim : Int}

/-- The chunks of the sum, put together. -/
theorem gathersSum_of_scattersAlong (hvalid : -(s.length : Int) ≤ dim ∧ dim < s.length)
    (hdvd : s.getD (axisOf s dim) 0 % cpuGroup.ranks.length = 0)
    (h : ScattersAlong cpuGroup deviceGroup device uniqueName hoststaged s dim) :
    GathersSum cpuGroup deviceGroup device uniqueName hoststaged s dim := by
  intro V O num dt x hx
  have hd := axisOf_lt hvalid
  have hnorm : ∀ t : Tensor V, t.shape.length = s.length → normDim t dim = axisOf s dim := by
    intro t ht
    rw [normDim_eq_axisOf (ht ▸ hvalid) rfl, axisOf, axisOf, ht]
  have hchunks := h V O num dt x hx
  generalize axisOf s dim = d at *
  have hget : s.getD d 0 = s[d] := by simp [hd]
  rw [hget] at hdvd
  have hk : s[d] = cpuGroup.ranks.length * (s[d] / cpuGroup.ranks.length) :=
    (Nat.mul_div_cancel' (Nat.dvd_of_mod_eq_zero hdvd)).symm
  choose v hz using fun r => elementwiseSum_exists num hoststaged hx r
  have hsum : ∀ r, elementwiseSum num hoststaged x r = .ok (resultTensor num hoststaged (x r) (v r)) := fun r => (hz r).1
  refine ⟨fun r => resultTensor num hoststaged (x r) (v r), (allReduce_delivers hx).mono fun y hy => ?_, ?_⟩
  · funext r
    exact Except.ok.inj ((hy r).symm.trans (hsum r))
  refine Script.completes_bind hchunks fun y hy => ?_
  have hchunk := fun r => (sumChunk_eq_ok_iff (hsum r) (elementwiseSum_spec hx (hsum r)).1 hd).mp (hy r).1
  have hyx : Uniform (s.set d (s[d] / cpuGroup.ranks.length)) dt y := by
    intro r
    obtain ⟨-, -, hdtype⟩ := hchunk r
    exact ⟨hget ▸ (hy r).2, hdtype.trans (elementwiseSum_spec hx (hsum r)).2.2⟩
  have hlen : (s.set d (s[d] / cpuGroup.ranks.length)).length = s.length := List.length_set
  refine (allGather_delivers hoststaged hyx (hlen ▸ hd) fun r => hnorm (y r) ((hyx r).1 ▸ hlen)).mono fun u hu => ?_
  funext r
  obtain ⟨hshape, hdevice, hdtype⟩ := elementwiseSum_spec hx (hsum r)
  have hcat := (catFor_eq_iff hd hyx hshape hk (hchunk r).2.1.symm hdtype).mpr fun i => by
    rw [elementwiseSum_agrees hx (hsum r) (hsum i)]
    exact (hchunk i).1
  exact Except.ok.inj ((hu r).1.symm.trans hcat)

private theorem length_scatteredShape (W : Nat) {d : Nat} (hd : d < s.length) :
    (scatteredShape W d s).length = s.length := by
  have hlen : (moveAxis 0 d s).length = s.length := length_moveAxis (by omega) hd
  have hcons : ((moveAxis 0 d s).headD 0 / W :: (moveAxis 0 d s).drop 1).length = s.length := by
    rw [List.length_cons, List.length_drop, hlen]
    omega
  rw [scatteredShape, length_moveAxis (by omega) (by omega), hcons]

/-- The whole sum on every rank shows what each rank contributed. -/
theorem scattersAlong_of_gathersSum (hW : 2 ≤ cpuGroup.ranks.length)
    (hvalid : -(s.length : Int) ≤ dim ∧ dim < s.length)
    (h : GathersSum cpuGroup deviceGroup device uniqueName hoststaged s dim) :
    ScattersAlong cpuGroup deviceGroup device uniqueName hoststaged s dim := by
  have : NeZero cpuGroup.ranks.length := ⟨by omega⟩
  intro V O num dt x hx
  obtain ⟨z, hreduce, hgather⟩ := h V O num dt x hx
  have hsum : ∀ r, elementwiseSum num hoststaged x r = .ok (z r) := by
    obtain ⟨y, hy, rfl⟩ := (allReduce_delivers hx).both hreduce
    exact hy
  have hd := axisOf_lt hvalid
  have hnorm : ∀ t : Tensor V, t.shape.length = s.length → normDim t dim = axisOf s dim := by
    intro t ht
    rw [normDim_eq_axisOf (ht ▸ hvalid) rfl, axisOf, axisOf, ht]
  generalize axisOf s dim = d at *
  have hdim : ∀ r, normDim (x r) dim = d := fun r => hnorm (x r) (congrArg List.length (hx r).1)
  by_cases hfront : (moveAxis 0 d s).headD 0 % cpuGroup.ranks.length = 0
  · have hscatters : Script.Completes (meaning (O := O) num)
        (fun r => (groupMember cpuGroup deviceGroup device uniqueName hoststaged r).reduceScatter num (x r) dim)
          (Uniform (scatteredShape cpuGroup.ranks.length d s) dt) := reduceScatter_completes hoststaged hx hd hdim hfront
    obtain ⟨tr, y, hrun, hy⟩ := hscatters
    have hlen := length_scatteredShape cpuGroup.ranks.length hd
    generalize scatteredShape cpuGroup.ranks.length d s = t at hy hlen
    have hd' : d < t.length := by omega
    have hdimy : ∀ r, normDim (y r) dim = d := fun r => hnorm (y r) (by rw [(hy r).1, hlen])
    have hcomposed : Script.Completes (meaning (O := O) num) (fun r => do
        let chunk ← (groupMember cpuGroup deviceGroup device uniqueName hoststaged r).reduceScatter num (x r) dim
        (groupMember cpuGroup deviceGroup device uniqueName hoststaged r).allGather num chunk dim) fun u => ∀ r,
          catFor y d r = .ok (u r) ∧ (u r).shape = t.set d (t[d] * cpuGroup.ranks.length) ∧ (u r).dtype = dt := by
      refine Script.completes_bind (P := (· = y)) ⟨tr, y, hrun, rfl⟩ fun u hu => ?_
      rw [hu]
      exact allGather_delivers hoststaged hy hd' hdimy
    obtain ⟨u, hu, rfl⟩ := hcomposed.both hgather
    refine ⟨tr, y, hrun, fun r => ?_⟩
    obtain ⟨hshape, hdevice, hdtype⟩ := elementwiseSum_spec hx (hsum r)
    have hs : s = t.set d (t[d] * cpuGroup.ranks.length) := hshape.symm.trans (hu r).2.1
    have hsd : s[d] = cpuGroup.ranks.length * t[d] := by
      simp only [hs, List.getElem_set_self, Nat.mul_comm]
    have hk : s[d] / cpuGroup.ranks.length = t[d] := by rw [hsd, Nat.mul_div_cancel_left _ (by omega)]
    have ht : t = s.set d t[d] := by
      rw [hs, List.set_set, List.set_getElem_self]
    have hyd : (y r).device = (u r).device := by
      obtain ⟨v, hv, hvdevice, -⟩ := Tensor.cat_ok (hu r).1
      obtain ⟨i, rfl⟩ := List.mem_ofFn.mp hv
      exact hvdevice.symm
    have hparts := (catFor_eq_iff hd (fun i => ht ▸ hy i) hshape hsd hyd.symm hdtype).mp (hu r).1 r
    refine ⟨(sumChunk_eq_ok_iff (hsum r) hshape hd).mpr ?_, ?_⟩
    · rw [hk]
      exact ⟨hparts, hyd, (hy r).2.trans hdtype.symm⟩
    · have hget : s.getD d 0 = s[d] := by simp [hd]
      rw [hget, hk, (hy r).1]
      exact ht
  · exact absurd hgather (Script.not_completes_of_raises
      (Script.runs_bind_error (reduceScatter_raises hoststaged hx hd hdim hfront)))

/-- reduce_scatter and then all_gather is all_reduce along axes 0 and 1, and beyond them only
for tensors without elements whose shape does not show the difference. -/
theorem gathersSum_iff (hW : 2 ≤ cpuGroup.ranks.length) (hvalid : -(s.length : Int) ≤ dim ∧ dim < s.length)
    (hdvd : s.getD (axisOf s dim) 0 % cpuGroup.ranks.length = 0) :
    GathersSum cpuGroup deviceGroup device uniqueName hoststaged s dim ↔
      axisOf s dim ≤ 1 ∨ s.prod = 0 ∧ CyclicUpTo (axisOf s dim) s := by
  constructor
  · intro h
    exact axis_of_scattersAlong hW hvalid hdvd (scattersAlong_of_gathersSum hW hvalid h)
  · intro h
    exact gathersSum_of_scattersAlong hvalid hdvd (scattersAlong_of_axis hvalid hdvd h)

theorem matrix_gathersSum : GathersSum pairCpuGroup pairDeviceGroup pairDevice "tp:0" true [3, 4] (-1) := by
  have hvalid : -(([3, 4] : List Nat).length : Int) ≤ -1 ∧ (-1 : Int) < ([3, 4] : List Nat).length := by decide
  exact (gathersSum_iff (by decide) hvalid (by decide)).mpr (.inl (by decide))

end Property

section Rows
variable {num : Numerics V} {cpuGroup deviceGroup : ProcessGroup} {device : Fin cpuGroup.ranks.length → Device}
  {uniqueName : String} {n : Nat} {tail : List Nat} {dt : DType} {x : Fin cpuGroup.ranks.length → Tensor V}

private theorem allGatherv_one {hoststaged : Bool} {y : Fin cpuGroup.ranks.length → Tensor V} {sizes : Option (List Nat)}
    {z : Fin cpuGroup.ranks.length → Tensor V} (h : Script.Completes (meaning (O := O) num)
      (fun r => (groupMember cpuGroup deviceGroup device uniqueName hoststaged r).allGatherSingle num (y r)
        (XpuCommunicator.dropUniform sizes)) fun u => ∀ r, catFor y 0 r = .ok (u r))
    (hz : ∀ r, catFor y 0 r = .ok (z r)) : Script.Completes (meaning (O := O) num)
      (fun r => (groupMember cpuGroup deviceGroup device uniqueName hoststaged r).allGatherv num (.one (y r)) 0 sizes)
        (· = fun r => .one (z r)) := by
  refine Script.completes_bind h fun u hu => Script.completes_pure ?_
  funext r
  exact congrArg TensorArg.one (Except.ok.inj ((hu r).symm.trans (hz r)))

/-- reduce_scatterv and then all_gatherv with the same sizes is all_reduce, unless the sizes are
equal: then all_gatherv, which drops them, raises. -/
theorem allGatherv_reduceScatterv_iff (hoststaged : Bool) {sizes : List Nat} (hW : 2 ≤ cpuGroup.ranks.length)
    (hx : Uniform (n :: tail) dt x) (hvalid : ValidSizes cpuGroup.ranks.length n (some sizes)) :
    (∃ z : Fin cpuGroup.ranks.length → Tensor V,
      Script.Completes (meaning (O := O) num)
        (fun r => (groupMember cpuGroup deviceGroup device uniqueName hoststaged r).allReduce num (x r)) (· = z) ∧
      Script.Completes (meaning (O := O) num)
        (fun r => do
          let rows ← (groupMember cpuGroup deviceGroup device uniqueName hoststaged r).reduceScatterv num (x r) 0
            (some sizes)
          (groupMember cpuGroup deviceGroup device uniqueName hoststaged r).allGatherv num (.one rows) 0 (some sizes))
          (· = fun r => .one (z r))) ↔
      ¬ ∃ k, ∀ size ∈ sizes, size = k := by
  have : NeZero cpuGroup.ranks.length := ⟨by omega⟩
  choose v hv using fun r => elementwiseSum_exists num hoststaged hx r
  obtain ⟨u, hu, hscatter⟩ := reduceScatterv_completes (O := O) num deviceGroup device uniqueName hx hvalid hoststaged
  have hscatters := hu.scattersRows hx hvalid.1 hvalid.2 fun r => (hv r).1
  have hrows : Rows (fun r : Fin cpuGroup.ranks.length => sizes.getD r 0)
      fun r => resultTensor num hoststaged (x r) (u r) :=
    ⟨tail, dt, fun r => ⟨hscatters.shape r, hscatters.dtype r⟩⟩
  have hsizes : (List.ofFn fun r : Fin cpuGroup.ranks.length => sizes.getD r 0) = sizes := by
    apply List.ext_getElem
    · rw [List.length_ofFn, hvalid.1]
    · intro i _ hi
      simp [hi]
  constructor
  · rintro ⟨z, -, hgather⟩ hequal
    obtain ⟨tr, y, hrun, rfl⟩ := hscatter
    obtain ⟨tr', hraise⟩ : ∃ tr, Script.Runs (meaning (O := O) num) (fun r => (groupMember cpuGroup deviceGroup device
        uniqueName hoststaged r).allGatherSingle num (resultTensor num hoststaged (x r) (u r)) none) tr
          fun _ => .error .distributedError := allGatherSingle_raises hoststaged hW hrows
    rw [← dropUniform_eq_none_iff.mpr hequal] at hraise
    exact Script.not_completes_of_raises (Script.runs_bind hrun (Script.runs_bind_error hraise)) hgather
  · intro hequal
    refine ⟨fun r => resultTensor num hoststaged (x r) (v r), (allReduce_delivers hx).mono fun z hz => ?_, ?_⟩
    · funext r
      exact Except.ok.inj ((hz r).symm.trans (hv r).1)
    · refine Script.completes_bind hscatter fun y hy => ?_
      rw [hy]
      refine allGatherv_one ?_ hscatters.together
      rw [dropUniform_eq_some hequal, ← hsizes]
      exact allGatherSingle_delivers hoststaged hrows

end Rows

def countingRows (r : Fin pairCpuGroup.ranks.length) : Tensor Int :=
  { shape := [3], data := [(r : Nat), 1, 2], wf := rfl, device := pairDevice r, dtype := .float16 }

theorem countingRows_reduced : ∃ z : Fin pairCpuGroup.ranks.length → Tensor Int,
    Script.Completes (meaning (O := Unit) intNumerics)
      (fun r => (groupMember pairCpuGroup pairDeviceGroup pairDevice "tp:0" false r).allReduce intNumerics
        (countingRows r)) (· = z) ∧
    Script.Completes (meaning (O := Unit) intNumerics)
      (fun r => do
        let rows ← (groupMember pairCpuGroup pairDeviceGroup pairDevice "tp:0" false r).reduceScatterv intNumerics
          (countingRows r) 0 (some [2, 1])
        (groupMember pairCpuGroup pairDeviceGroup pairDevice "tp:0" false r).allGatherv intNumerics (.one rows) 0
          (some [2, 1])) (· = fun r => .one (z r)) := by
  have hx : Uniform [3] .float16 countingRows := fun r => ⟨rfl, rfl⟩
  have hvalid : ValidSizes pairCpuGroup.ranks.length 3 (some [2, 1]) := ⟨rfl, rfl⟩
  refine (allGatherv_reduceScatterv_iff false (by decide) hx hvalid).mpr ?_
  rintro ⟨k, hk⟩
  have htwo := hk 2 (by simp)
  have hone := hk 1 (by simp)
  omega

end B70DualTP.Communicator
