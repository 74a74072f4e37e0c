import B70DualTP.Library.Stacking
import B70DualTP.Communicator.Shapes

/-! all_gather and gather along any axis: what the ranks get is the concatenation of their
inputs along that axis. -/
namespace B70DualTP.Communicator
open Library Torch
variable {V O : Type} {num : Numerics V}

/-- Stacked tensors of one shape, moved and merged, are the tensors concatenated. -/
theorem concatAlong_stack {s : List Nat} {d : Nat} (hd : d < s.length) {t : Tensor V} {ts : List (Tensor V)}
    (hne : ts ≠ []) (hts : ∀ u ∈ ts, u.shape = s ∧ u.device = t.device ∧ u.dtype = t.dtype)
    (ht : t.shape = ts.length :: s) (hdata : t.data = ts.flatMap (·.data)) :
    ∃ u, concatAlong ts.length s d t = .ok u ∧ Tensor.cat ts d = .ok u ∧ u.shape = s.set d (s[d] * ts.length) ∧
      u.dtype = t.dtype := by
  have hsplit : s = s.take d ++ s[d] :: s.drop (d + 1) := by
    rw [← List.drop_eq_getElem_cons hd, List.take_append_drop]
  have hdlen : (s.take d).length = d := List.length_take_of_le hd.le
  have hshape : ∀ x ∈ ts.map (·.toNDArray), x.shape = s.take d ++ s[d] :: s.drop (d + 1) := by
    intro x hx
    obtain ⟨u, hu, rfl⟩ := List.mem_map.mp hx
    exact (hts u hu).1.trans hsplit
  have harrays : t.data = (ts.map (·.toNDArray)).flatMap (·.data) := by
    rw [hdata, List.flatMap_map]
  have hstack : t.shape = (ts.map (·.toNDArray)).length :: (s.take d ++ s[d] :: s.drop (d + 1)) := by
    rw [ht, List.length_map, ← hsplit]
  have hne' : ts.map (·.toNDArray) ≠ [] := mt List.map_eq_nil_iff.mp hne
  obtain ⟨v, a, hv, ha, hcat, hashape⟩ := NDArray.cat?_stack hne' hshape hstack harrays
  rw [hdlen] at hv hcat
  rw [List.length_map] at ha hashape
  refine ⟨t.withArray a, ?_, ?_, ?_, rfl⟩
  · have h0 : wrapIndex t.shape.length 0 = some 0 := wrapIndex_natCast (by simp [ht])
    have h1 : wrapIndex t.shape.length d = some d := wrapIndex_natCast (by simp [ht]; omega)
    have hmove : t.movedim 0 d = .ok (t.withArray v) := by simp only [Tensor.movedim, h0, h1, hv]
    have hsize : sliceTo s d ++ [ts.length * s[d]] ++ sliceFrom s (d + 1) =
        s.take d ++ (ts.length * s[d]) :: s.drop (d + 1) := by
      rw [show ((d : Int) + 1) = ((d + 1 : Nat) : Int) by push_cast; rfl, sliceTo_natCast, sliceFrom_natCast,
        List.append_assoc]
      rfl
    have hreshape : (t.withArray v).reshape (s.take d ++ (ts.length * s[d]) :: s.drop (d + 1)) =
        .ok (t.withArray a) := by
      have ha' : (t.withArray v).reshape? (s.take d ++ (ts.length * s[d]) :: s.drop (d + 1)) = some a := ha
      simp only [Tensor.reshape, ha']
      rfl
    simp only [concatAlong, hmove]
    change (getItem s d >>= fun n => _) = _
    rw [getItem_natCast hd]
    change (t.withArray v).reshape (sliceTo s d ++ [ts.length * s[d]] ++ sliceFrom s (d + 1)) = _
    rw [hsize, hreshape]
  · obtain ⟨u, ts, rfl⟩ := List.exists_cons_of_ne_nil hne
    obtain ⟨-, hdevice, hdtype⟩ := hts u List.mem_cons_self
    simp only [Tensor.cat, hcat]
    simp only [Tensor.withArray, hdevice, hdtype]
  · rw [Tensor.withArray_shape, hashape, List.set_eq_take_append_cons_drop, if_pos hd, Nat.mul_comm]

theorem flatMap_toDevice {W : Nat} (x : Fin W → Tensor V) (device : Device) :
    (List.ofFn fun i => (x i).toDevice device).flatMap (·.data) = (List.ofFn x).flatMap (·.data) := by
  have hmap : (List.ofFn fun i => (x i).toDevice device) = (List.ofFn x).map (·.toDevice device) := by
    rw [List.map_ofFn]
    rfl
  rw [hmap, List.flatMap_map]
  rfl

section Runs
variable {cpuGroup deviceGroup : ProcessGroup} {device : Fin cpuGroup.ranks.length → Device} {uniqueName : String}
  (hoststaged : Bool) {s : List Nat} {dt : DType} {x : Fin cpuGroup.ranks.length → Tensor V}

/-- torch.cat of the ranks' tensors along axis d, on the device of rank r. -/
def catFor {W : Nat} (x : Fin W → Tensor V) (d : Nat) (r : Fin W) : Py (Tensor V) :=
  Tensor.cat (List.ofFn fun i => (x i).toDevice (x r).device) d

/-- The last steps on a rank, from the gathered elements to the concatenation. -/
private theorem concatAlong_gathered {W : Nat} {x : Fin W → Tensor V} (hx : Uniform s dt x) {d : Nat}
    (hd : d < s.length) {r : Fin W} {z : Tensor V} (hshape : z.shape = W :: s)
    (hdata : z.data = (List.ofFn x).flatMap (·.data)) (hdevice : z.device = (x r).device) (hdtype : z.dtype = dt) :
    ∃ u, concatAlong W s d z = .ok u ∧ catFor x d r = .ok u ∧ u.shape = s.set d (s[d] * W) ∧ u.dtype = dt := by
  have hlen : (List.ofFn fun i => (x i).toDevice (x r).device).length = W := List.length_ofFn
  have hne : (List.ofFn fun i => (x i).toDevice (x r).device) ≠ [] := by
    intro h
    rw [h] at hlen
    exact absurd r.2 (by simp [← hlen])
  have hts : ∀ u ∈ List.ofFn fun i => (x i).toDevice (x r).device,
      u.shape = s ∧ u.device = z.device ∧ u.dtype = z.dtype := by
    intro u hu
    obtain ⟨i, rfl⟩ := List.mem_ofFn.mp hu
    exact ⟨(hx i).1, hdevice.symm, (hx i).2.trans hdtype.symm⟩
  have hdata' : z.data = (List.ofFn fun i => (x i).toDevice (x r).device).flatMap (·.data) :=
    hdata.trans (flatMap_toDevice x _).symm
  have h := concatAlong_stack hd hne hts (hshape.trans (by rw [hlen])) hdata'
  rwa [hlen, hdtype] at h

/-- all_gather along any axis returns the concatenation on every rank. -/
theorem allGather_delivers (hx : Uniform s dt x) {d : Nat} (hd : d < s.length) {dim : Int}
    (hdim : ∀ r, normDim (x r) dim = d) :
    Script.Completes (meaning (O := O) num)
      (fun r => (groupMember cpuGroup deviceGroup device uniqueName hoststaged r).allGather num (x r) dim) fun y =>
        ∀ r, catFor x d r = .ok (y r) ∧ (y r).shape = s.set d (s[d] * cpuGroup.ranks.length) ∧ (y r).dtype = dt := by
  have hshape : ∀ r, (x r).shape = s := fun r => (hx r).1
  have hstack : ∀ {t : Tensor V}, t.shape = s.headD 0 * cpuGroup.ranks.length :: s.drop 1 →
      t.shape.prod = (cpuGroup.ranks.length :: s).prod := by
    intro t ht
    cases s with
    | nil => simp at hd
    | cons n s => rw [ht]; simp; ring
  have hhead : getItem s 0 = .ok (s.headD 0) := by
    cases s with
    | nil => simp at hd
    | cons n s => exact getItem_zero n s
  have hnum : ∀ (t o : Tensor V), t.shape = s → o.shape = s.headD 0 * cpuGroup.ranks.length :: s.drop 1 →
      o.numel = cpuGroup.ranks.length * t.numel := by
    intro t o ht ho
    rw [NDArray.numel, hstack ho, List.prod_cons, NDArray.numel, ht]
  cases hoststaged with
  | false =>
    simp only [XpuCommunicator.allGather, DeviceCommunicatorBase.allGather, groupMember, hshape, hdim, hhead,
      Bool.not_false, if_true, Script.liftM_eq, Script.lift_ok, pure_bind]
    refine Script.completes_ask (meaning_allGatherIntoTensor num hx.compatible (fun r => rfl)
      (fun r => hnum _ _ (hshape r) rfl)) fun y hy => ?_
    refine Script.completes_lift (fun r => Tensor.reshape_exists (hstack (hy r).1)) fun z hz => ?_
    refine Script.completes_of_lift (P := fun r u => catFor x d r = .ok u ∧
      u.shape = s.set d (s[d] * cpuGroup.ranks.length) ∧ u.dtype = dt) (fun r => ?_) fun u hu => hu
    obtain ⟨-, hdata, hdevice, hdtype⟩ := hy r
    obtain ⟨hzshape, hzdata, hzdevice, hzdtype⟩ := hz r
    exact concatAlong_gathered hx hd hzshape (hzdata.trans hdata) (hzdevice.trans hdevice)
      ((hzdtype.trans hdtype).trans (hx r).2)
  | true =>
    have hc : Uniform s dt fun r => (x r).toDevice .cpu := hx
    simp only [XpuCommunicator.allGather, groupMember, hshape, hdim, hhead, Bool.not_true, Bool.false_eq_true,
      if_false, Script.liftM_eq, Script.lift_ok, pure_bind]
    refine Script.completes_ask (meaning_allGatherIntoTensor num hc.compatible (fun r => rfl)
      (fun r => hnum _ _ (hshape r) rfl)) fun y hy => ?_
    refine Script.completes_lift (fun r => Tensor.reshape_exists
      (hstack (t := Tensor.toDevice (y r) (x r).device) (hy r).1)) fun z hz => ?_
    refine Script.completes_of_lift (P := fun r u => catFor x d r = .ok u ∧
      u.shape = s.set d (s[d] * cpuGroup.ranks.length) ∧ u.dtype = dt) (fun r => ?_) fun u hu => hu
    obtain ⟨-, hdata, -, hdtype⟩ := hy r
    obtain ⟨hzshape, hzdata, hzdevice, hzdtype⟩ := hz r
    exact concatAlong_gathered hx hd hzshape ((hzdata.trans hdata).trans (flatMap_toDevice x .cpu)) hzdevice
      ((hzdtype.trans hdtype).trans (hx r).2)

theorem allGather_completes (hx : Uniform s dt x) {d : Nat} (hd : d < s.length) {dim : Int}
    (hdim : ∀ r, normDim (x r) dim = d) :
    Script.Completes (meaning (O := O) num)
      (fun r => (groupMember cpuGroup deviceGroup device uniqueName hoststaged r).allGather num (x r) dim)
        (Uniform (s.set d (s[d] * cpuGroup.ranks.length)) dt) :=
  (allGather_delivers hoststaged hx hd hdim).mono fun _ hy r => (hy r).2

/-- What gather returns on a rank: the concatenation at the destination, elsewhere None. -/
def gatheredFor {W : Nat} (x : Fin W → Tensor V) (d : Nat) (dst r : Fin W) : Py (Option (Tensor V)) :=
  if r = dst then some <$> catFor x d r else .ok none

private theorem assertDim_ok {t : Tensor V} {dim : Int} (h : -(t.shape.length : Int) ≤ dim ∧ dim < t.shape.length) :
    assertDim t dim = .ok () := if_pos h

theorem catFor_exists {W : Nat} {x : Fin W → Tensor V} (hx : Uniform s dt x) {d : Nat} (hd : d < s.length)
    (r : Fin W) : ∃ u, catFor x d r = .ok u := by
  have hlen : ((List.ofFn x).flatMap (·.data)).length = (W :: s).prod := by
    have hl : ∀ u ∈ List.ofFn x, u.data.length = s.prod := by
      intro u hu
      obtain ⟨i, rfl⟩ := List.mem_ofFn.mp hu
      rw [(x i).wf, (hx i).1]
    rw [List.length_flatMap, List.map_congr_left hl, List.map_const', List.sum_replicate, List.length_ofFn,
      List.prod_cons]
    rfl
  obtain ⟨u, -, hcat, -⟩ := concatAlong_gathered hx hd (r := r)
    (z := ⟨⟨W :: s, (List.ofFn x).flatMap (·.data), hlen⟩, (x r).device, dt⟩) rfl rfl rfl rfl
  exact ⟨u, hcat⟩

private theorem completes_gatheredFor (hx : Uniform s dt x) {d : Nat} (hd : d < s.length)
    (dst : Fin cpuGroup.ranks.length) :
    Script.Completes (meaning (O := O) num) (fun r => (Script.lift (gatheredFor x d dst r) : Dist V O _)) fun y =>
      ∀ r, gatheredFor x d dst r = .ok (y r) := by
  refine Script.completes_of_lift (P := fun r u => gatheredFor x d dst r = .ok u) (fun r => ?_) fun u hu => hu
  obtain ⟨u, hcat⟩ := catFor_exists hx hd r
  by_cases hr : r = dst
  · refine ⟨some u, ?_⟩
    rw [gatheredFor, if_pos hr, hcat]
    exact ⟨rfl, rfl⟩
  · refine ⟨none, ?_⟩
    rw [gatheredFor, if_neg hr]
    exact ⟨rfl, rfl⟩

private theorem natCast_eq_iff {r dst : Fin cpuGroup.ranks.length} : ((r : Nat) : Int) = (dst : Nat) ↔ r = dst := by
  rw [Int.natCast_inj, Fin.val_inj]

/-- The destination concatenates what all ranks have gathered. -/
private theorem gather_tail (hx : Uniform s dt x) {d : Nat} (hd : d < s.length) (dst : Fin cpuGroup.ranks.length)
    {z : Fin cpuGroup.ranks.length → Tensor V} (hz : ∀ r, (z r).shape = cpuGroup.ranks.length :: s ∧
      (z r).data = (List.ofFn x).flatMap (·.data) ∧ (z r).device = (x r).device ∧ (z r).dtype = dt) :
    Script.Completes (meaning (O := O) num) (fun r => if ((r : Nat) : Int) = (dst : Nat) then
        (Script.lift (concatAlong cpuGroup.ranks.length s d (z r)) : Dist V O _) >>= fun u => pure (some u)
      else pure none) fun y => ∀ r, gatheredFor x d dst r = .ok (y r) := by
  have htail : (fun r : Fin cpuGroup.ranks.length => if ((r : Nat) : Int) = (dst : Nat) then
      (Script.lift (concatAlong cpuGroup.ranks.length s d (z r)) : Dist V O _) >>= fun u => pure (some u)
    else pure none) = fun r => Script.lift (gatheredFor x d dst r) := by
    funext r
    obtain ⟨hshape, hdata, hdevice, hdtype⟩ := hz r
    obtain ⟨u, hu, hcat, -⟩ := concatAlong_gathered hx hd hshape hdata hdevice hdtype
    by_cases hr : r = dst
    · rw [if_pos (natCast_eq_iff.mpr hr), hu, gatheredFor, if_pos hr, hcat]
      rfl
    · rw [if_neg (mt natCast_eq_iff.mp hr), gatheredFor, if_neg hr]
      rfl
  rw [htail]
  exact completes_gatheredFor hx hd dst

/-- The XPU gather stacks the ranks everywhere and concatenates at the destination. -/
theorem gather_delivers (hx : Uniform s dt x) {d : Nat} (hd : d < s.length) {dim : Int}
    (hvalid : -(s.length : Int) ≤ dim ∧ dim < s.length) (hdim : ∀ r, normDim (x r) dim = d)
    (dst : Fin cpuGroup.ranks.length) :
    Script.Completes (meaning (O := O) num)
      (fun r => (groupMember cpuGroup deviceGroup device uniqueName hoststaged r).gather num (x r) (dst : Nat) dim)
        fun y => ∀ r, gatheredFor x d dst r = .ok (y r) := by
  have hshape : ∀ r, (x r).shape = s := fun r => (hx r).1
  have hnum : ∀ (t o : Tensor V), t.shape = s → o.shape = cpuGroup.ranks.length :: s →
      o.numel = cpuGroup.ranks.length * t.numel := by
    intro t o ht ho
    rw [NDArray.numel, NDArray.numel, ho, ht, List.prod_cons]
  have hassert : ∀ r, assertDim (x r) dim = .ok () := fun r => assertDim_ok (by rw [hshape r]; exact hvalid)
  cases hoststaged with
  | false =>
    simp only [XpuCommunicator.gather, XpuCommunicator.group, groupMember, hassert, hdim, hshape, Bool.false_eq_true,
      if_false, Script.liftM_eq, Script.lift_ok, pure_bind]
    refine Script.completes_ask (meaning_allGatherIntoTensor num hx.compatible (fun r => rfl)
      (fun r => hnum _ _ (hshape r) rfl)) fun y hy => gather_tail hx hd dst fun r => ?_
    obtain ⟨hyshape, hdata, hdevice, hdtype⟩ := hy r
    exact ⟨hyshape, hdata, hdevice, hdtype.trans (hx r).2⟩
  | true =>
    have hc : Uniform s dt fun r => (x r).toDevice .cpu := hx
    simp only [XpuCommunicator.gather, XpuCommunicator.group, groupMember, hassert, hdim, hshape, if_true,
      Script.liftM_eq, Script.lift_ok, pure_bind]
    refine Script.completes_ask (meaning_allGatherIntoTensor num hc.compatible (fun r => rfl)
      (fun r => hnum _ _ (hshape r) rfl)) fun y hy => gather_tail hx hd dst fun r => ?_
    obtain ⟨hyshape, hdata, -, hdtype⟩ := hy r
    exact ⟨hyshape, hdata.trans (flatMap_toDevice x .cpu), rfl, hdtype.trans (hx r).2⟩

/-- The base gather collects the tensors at the destination and concatenates them. -/
theorem base_gather_delivers (hranks : cpuGroup.ranks.Nodup) (hmembers : deviceGroup.ranks = cpuGroup.ranks)
    (hx : Uniform s dt x) {d : Nat} (hd : d < s.length) {dim : Int}
    (hvalid : -(s.length : Int) ≤ dim ∧ dim < s.length) (hdim : ∀ r, normDim (x r) dim = d)
    (dst : Fin cpuGroup.ranks.length) :
    Script.Completes (meaning (O := O) num)
      (fun r => (groupMember cpuGroup deviceGroup device uniqueName hoststaged r).toDeviceCommunicatorBase.gather num
        (x r) (dst : Nat) dim) fun y => ∀ r, gatheredFor x d dst r = .ok (y r) := by
  have hshape : ∀ r, (x r).shape = s := fun r => (hx r).1
  have hassert : ∀ r, assertDim (x r) dim = .ok () := fun r => assertDim_ok (by rw [hshape r]; exact hvalid)
  have hrank : getItem cpuGroup.ranks (dst : Nat) = .ok (cpuGroup.ranks.get dst) := getItem_natCast dst.2
  have hnodup : deviceGroup.ranks.Nodup := hmembers ▸ hranks
  have hdst : deviceGroup.ranks[(dst : Nat)]? = some (cpuGroup.ranks.get dst) := by
    rw [hmembers]
    exact List.getElem?_eq_getElem dst.2
  have hbuffers : List.Forall₂ (fun o u => o.Compatible u ∧ o.device = (x dst).device)
      (List.replicate cpuGroup.ranks.length (Tensor.empty num s (x dst).dtype (x dst).device)) (List.ofFn x) := by
    have hfits : ∀ u ∈ List.ofFn x, (Tensor.empty num s (x dst).dtype (x dst).device).Compatible u := by
      intro u hu
      obtain ⟨i, rfl⟩ := List.mem_ofFn.mp hu
      exact ⟨(hx i).1.symm, (hx dst).2.trans (hx i).2.symm⟩
    have h := fits_replicate hfits
    rwa [List.length_ofFn] at h
  simp only [DeviceCommunicatorBase.gather, groupMember, hassert, hdim, hshape, DeviceCommunicatorBase.ranks, hrank,
    Script.liftM_eq, Script.lift_ok, pure_bind, natCast_eq_iff]
  have hreply : ∀ r, meaning (O := O) num (fun r => .gather (x r) (if r = dst then
      some (List.replicate cpuGroup.ranks.length (Tensor.empty num s (x r).dtype (x r).device)) else none)
        (cpuGroup.ranks.get dst) deviceGroup) r =
      .ok (if r = dst then some (List.ofFn fun s => (x s).toDevice (x dst).device) else none) :=
    meaning_gather num hnodup hdst hx.compatible (fun r hr => if_neg hr) (if_pos rfl) hbuffers
  refine Script.completes_ask (fun r => ⟨_, hreply r, rfl⟩) fun y hy => ?_
  convert (completes_gatheredFor hx hd dst : Script.Completes (meaning (O := O) num) _ _) using 2 with r
  rw [← hy r, gatheredFor]
  by_cases hr : r = dst
  · obtain ⟨u, hu⟩ := catFor_exists hx hd dst
    have hcat : Tensor.cat (List.ofFn fun s => (x s).toDevice (x dst).device) d = .ok u := hu
    rw [if_pos hr, if_pos hr, hr, hu]
    simp only [Int.toNat_natCast, hcat]
    rfl
  · rw [if_neg hr, if_neg hr]
    rfl

/-- Along every axis, all_gather returns the concatenation on every rank, and gather the same
on the destination alone, as the base communicator's gather does. -/
theorem gathers_concatenation (hranks : cpuGroup.ranks.Nodup) (hmembers : deviceGroup.ranks = cpuGroup.ranks)
    (hx : Uniform s dt x) {dim : Int} (hvalid : -(s.length : Int) ≤ dim ∧ dim < s.length) :
    Script.Completes (meaning (O := O) num)
        (fun r => (groupMember cpuGroup deviceGroup device uniqueName true r).allGather num (x r) dim)
          (fun y => ∀ r, catFor x (axisOf s dim) r = .ok (y r)) ∧
      ∀ dst : Fin cpuGroup.ranks.length,
        Script.Completes (meaning (O := O) num)
          (fun r => (groupMember cpuGroup deviceGroup device uniqueName hoststaged r).gather num (x r) (dst : Nat) dim)
            (fun y => ∀ r, gatheredFor x (axisOf s dim) dst r = .ok (y r)) ∧
        Script.Completes (meaning (O := O) num)
          (fun r => (groupMember cpuGroup deviceGroup device uniqueName
            hoststaged r).toDeviceCommunicatorBase.gather num (x r) (dst : Nat) dim)
            (fun y => ∀ r, gatheredFor x (axisOf s dim) dst r = .ok (y r)) := by
  have hd := axisOf_lt hvalid
  have hdim : ∀ r, normDim (x r) dim = axisOf s dim := fun r => normDim_eq_axisOf hvalid (hx r).1
  refine ⟨(allGather_delivers true hx hd hdim).mono fun y hy r => (hy r).1, fun dst => ⟨?_, ?_⟩⟩
  · exact gather_delivers hoststaged hx hd hvalid hdim dst
  · exact base_gather_delivers hoststaged hranks hmembers hx hd hvalid hdim dst

end Runs

def rowInput (r : Fin 2) : Tensor Int :=
  { shape := [1, 2], data := [((r : Nat) : Int), 2], wf := rfl, device := pairDevice r, dtype := .float16 }

theorem rowInput_gathers :
    Script.Completes (meaning (O := Unit) intNumerics)
      (fun r => (groupMember pairCpuGroup pairDeviceGroup pairDevice "tp:0" true r).allGather intNumerics
        (rowInput r) (-1)) fun y => ∀ r, catFor rowInput 1 r = .ok (y r) := by
  have hranks : pairCpuGroup.ranks.Nodup := by decide
  have hmembers : pairDeviceGroup.ranks = pairCpuGroup.ranks := rfl
  have hx : Uniform [1, 2] .float16 rowInput := fun r => ⟨rfl, rfl⟩
  have hvalid : -(([1, 2] : List Nat).length : Int) ≤ -1 ∧ (-1 : Int) < ([1, 2] : List Nat).length := by decide
  exact (gathers_concatenation true hranks hmembers hx hvalid).1

end B70DualTP.Communicator
