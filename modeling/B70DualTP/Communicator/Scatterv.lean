import B70DualTP.Communicator.Gatherv
import B70DualTP.Communicator.ScatterAxis

/-! reduce_scatterv along axis 0: every row of the all_reduce result lands on one rank. -/
namespace B70DualTP.Communicator
open Library Torch
variable {V O : Type} {num : Numerics V}

/-- The lengths of the ranks' chunks of n rows. -/
def chunkSizes (worldSize n : Nat) : Option (List Nat) → List Nat
  | some sizes => sizes
  | none => List.replicate worldSize (n / worldSize)

/-- Sizes that the function accepts for n rows. -/
def ValidSizes (worldSize n : Nat) : Option (List Nat) → Prop
  | some sizes => sizes.length = worldSize ∧ sizes.sum = n
  | none => n % worldSize = 0

section Sizes
variable {worldSize n : Nat} {sizes : Option (List Nat)}

theorem length_chunkSizes (h : ValidSizes worldSize n sizes) : (chunkSizes worldSize n sizes).length = worldSize := by
  cases sizes with
  | none => exact List.length_replicate
  | some sizes => exact h.1

theorem sum_chunkSizes (h : ValidSizes worldSize n sizes) : (chunkSizes worldSize n sizes).sum = n := by
  cases sizes with
  | none =>
    rw [chunkSizes, List.sum_replicate, Nat.nsmul_eq_mul]
    exact Nat.mul_div_cancel' (Nat.dvd_of_mod_eq_zero h)
  | some sizes => exact h.2

/-- Unless the list form is used, all chunks have one length. -/
theorem chunkSizes_of_not_ragged (h : ValidSizes worldSize n sizes) (hsizes : XpuCommunicator.ragged sizes = false) :
    ∃ k, chunkSizes worldSize n sizes = List.replicate worldSize k ∧ n = worldSize * k := by
  have hequal : ∃ k, chunkSizes worldSize n sizes = List.replicate worldSize k := by
    rcases sizes with _ | _ | ⟨size, sizes⟩
    · exact ⟨_, rfl⟩
    · exact ⟨0, by rw [← h.1]; rfl⟩
    · refine ⟨size, ?_⟩
      have hcount : (size :: sizes).count size = (size :: sizes).length := by
        simpa [XpuCommunicator.ragged] using hsizes
      have hall := List.count_eq_length.mp hcount
      rw [← h.1]
      exact List.eq_replicate_of_mem fun size' hsize => (hall size' hsize).symm
  obtain ⟨k, hk⟩ := hequal
  refine ⟨k, hk, ?_⟩
  have hsum := sum_chunkSizes h
  rw [hk, List.sum_replicate, Nat.nsmul_eq_mul] at hsum
  exact hsum.symm

end Sizes

section Runs
variable {cpuGroup deviceGroup : ProcessGroup} {device : Fin cpuGroup.ranks.length → Device} {uniqueName : String}
  {n : Nat} {tail : List Nat} {dt : DType} {x : Fin cpuGroup.ranks.length → Tensor V} {sizes : Option (List Nat)}

/-- The part of axis 0 that falls to rank r. -/
def ownRows (sizes : List Nat) (inner r : Nat) (xs : List V) : List V :=
  NDArray.rowSlice inner (sizes.take r).sum (sizes.getD r 0) xs

section Host
variable {c : Fin cpuGroup.ranks.length → Tensor V} {chunks : List Nat} {g : ProcessGroup}
  {o : Fin cpuGroup.ranks.length → Tensor V}

/-- What both collectives leave in the output of rank r. -/
def HoldsOwnRows (num : Numerics V) (c : Fin cpuGroup.ranks.length → Tensor V) (chunks tail : List Nat)
    (r : Fin cpuGroup.ranks.length) (u : Tensor V) : Prop :=
  u.shape = chunks.getD r 0 :: tail ∧
    u.data = ownRows chunks tail.prod r (sumData num (c r).dtype (List.ofFn fun s => (c s).data)) ∧
      u.dtype = (c r).dtype

/-- A complete split, piece by piece. -/
theorem split_exists {W : Nat} {t : Tensor V} (ht : t.shape = chunks.sum :: tail) (hlen : chunks.length = W) :
    ∃ part : Fin W → Tensor V, t.split chunks = .ok (List.ofFn part) ∧ ∀ i, (part i).shape = chunks.getD i 0 :: tail ∧
      (part i).data = ownRows chunks tail.prod i t.data ∧ (part i).device = t.device ∧ (part i).dtype = t.dtype := by
  obtain ⟨us, hus, hshape, hdata⟩ := NDArray.split?_exists ht
  have hl : us.length = W := by
    have h := congrArg List.length hshape
    rw [List.length_map, List.length_map] at h
    exact h.trans hlen
  subst hl
  refine ⟨fun i => t.withArray (us.get i), ?_, fun i => ⟨?_, ?_, rfl, rfl⟩⟩
  · have hmap : (List.ofFn fun i => t.withArray (us.get i)) = us.map t.withArray := by
      apply List.ext_getElem
      · simp
      · intro i _ _
        simp
    simp only [Tensor.split, hus, hmap]
  · have hi : (i : Nat) < chunks.length := by rw [hlen]; exact i.2
    have h := congrArg (·[(i : Nat)]?) hshape
    simpa [hi] using h
  · have hi : (i : Nat) < chunks.length := by rw [hlen]; exact i.2
    have h := congrArg (·[(i : Nat)]?) hdata
    rw [NDArray.splitData_getElem? _ _ _ hi] at h
    simpa [ownRows] using h

private theorem ownRows_sumData (num : Numerics V) (dtype : DType) (chunks : List Nat) (inner r : Nat)
    (xss : List (List V)) : sumData num dtype (xss.map (ownRows chunks inner r)) =
      ownRows chunks inner r (sumData num dtype xss) := by
  apply sumData_map
  · simp [ownRows, NDArray.rowSlice]
  · intro xs ys
    simp [ownRows, NDArray.rowSlice, List.drop_zipWith, List.take_zipWith]

/-- The list form: rank r gets the sum of the r-th pieces. -/
theorem reply_split (hc : Uniform (chunks.sum :: tail) dt c) (hlen : chunks.length = cpuGroup.ranks.length)
    (ho : ∀ r, (o r).shape = chunks.getD r 0 :: tail ∧ (o r).dtype = dt) :
    ∃ part : Fin cpuGroup.ranks.length → List (Tensor V), (∀ r, (c r).split chunks = .ok (part r)) ∧
      ∀ r, ∃ u : Tensor V, meaning (O := O) num (fun r => .reduceScatter (o r) (part r) g) r = .ok u ∧
        HoldsOwnRows num c chunks tail r u ∧ u.device = (o r).device := by
  choose part hpart hshape hdata _ hdtype using fun r => split_exists (hc r).1 hlen
  refine ⟨fun r => List.ofFn (part r), hpart, fun r => ?_⟩
  have hcompatible : ∀ r s i, (part s i).Compatible (part r i) := fun r s i =>
    ⟨(hshape s i).trans (hshape r i).symm, by rw [hdtype, hdtype, (hc s).2, (hc r).2]⟩
  have hfits : ∀ r s, (part s r).Compatible (o r) := fun r s =>
    ⟨(hshape s r).trans (ho r).1.symm, by rw [hdtype, (hc s).2, (ho r).2]⟩
  obtain ⟨u, hu, hushape, hudata, hudevice, hudtype⟩ := meaning_reduceScatter (O := O) num (g := g) hcompatible hfits r
  refine ⟨u, hu, ⟨hushape.trans (ho r).1, ?_, hudtype.trans ((ho r).2.trans (hc r).2.symm)⟩, hudevice⟩
  have hpieces : (List.ofFn fun s => (part s r).data) =
      (List.ofFn fun s => (c s).data).map (ownRows chunks tail.prod r) := by
    rw [List.map_ofFn]
    congr 1
    funext s
    exact hdata s r
  rw [hudata, hpieces, ownRows_sumData, (ho r).2, (hc r).2]

/-- The tensor form: rank r gets the r-th equal chunk of the sum. -/
theorem reply_tensor {k : Nat} (hchunks : chunks = List.replicate cpuGroup.ranks.length k)
    (hc : Uniform (chunks.sum :: tail) dt c)
    (ho : ∀ r, (o r).shape = chunks.getD r 0 :: tail ∧ (o r).dtype = dt) (r : Fin cpuGroup.ranks.length) :
    ∃ u : Tensor V, meaning (O := O) num (fun r => .reduceScatterTensor (o r) (c r) g) r = .ok u ∧
      HoldsOwnRows num c chunks tail r u ∧ u.device = (o r).device := by
  have hsum : chunks.sum = cpuGroup.ranks.length * k := by rw [hchunks, List.sum_replicate, Nat.nsmul_eq_mul]
  have hget : ∀ r : Fin cpuGroup.ranks.length, chunks.getD r 0 = k := fun r => by simp [hchunks]
  have hnumel : ∀ r, (o r).numel = k * tail.prod := fun r => by
    rw [NDArray.numel, (ho r).1, hget r, List.prod_cons]
  have hn : ∀ r, (c r).numel = cpuGroup.ranks.length * (o r).numel := fun r => by
    rw [hnumel r, NDArray.numel, (hc r).1, hsum, List.prod_cons, Nat.mul_assoc]
  have hstart : (chunks.take r).sum = r * k := by
    rw [hchunks, List.take_replicate, Nat.min_eq_left r.2.le, List.sum_replicate, Nat.nsmul_eq_mul]
  obtain ⟨u, hu, hushape, hudata, hudevice, hudtype⟩ := meaning_reduceScatterTensor (O := O) num (g := g) hc.compatible
    (fun r => (ho r).2.trans (hc r).2.symm) hn r
  refine ⟨u, hu, ⟨hushape.trans (ho r).1, ?_, hudtype.trans ((ho r).2.trans (hc r).2.symm)⟩, hudevice⟩
  rw [hudata, hnumel r, ownRows, hstart, hget r, NDArray.rowSlice, block, Nat.mul_assoc]

end Host

/-- reduce_scatterv with the list form, whatever the sizes are. -/
def XpuCommunicator.reduceScattervSplit (self : XpuCommunicator) (num : Numerics V) (input : Tensor V) (dim : Int)
    (sizes : List Nat) : Dist V O (Tensor V) := do
  let dim := normDim input dim
  let inputTensor := (← input.movedim 0 dim).contiguous
  let n ← getItem inputTensor.shape 0
  let chunkSize ← self.chunkSize n (some sizes)
  let outputShape := chunkSize :: inputTensor.shape.drop 1
  let src := if self.hoststaged then inputTensor.castTo num .cpu (reduceDType inputTensor.dtype)
    else inputTensor
  let output := Tensor.empty num outputShape src.dtype src.device
  let inputSplits ← src.split sizes
  let output ← Dist.reduceScatter self.group output inputSplits
  let output := if self.hoststaged then output.castTo num inputTensor.device inputTensor.dtype else output
  return (← output.movedim 0 dim).contiguous

/-- The ranks get the rows of the reduced tensor, and their outputs put it together again. -/
structure ScattersRows (x z y : Fin cpuGroup.ranks.length → Tensor V) (chunks tail : List Nat) (dt : DType) : Prop where
  shape : ∀ r, (y r).shape = chunks.getD r 0 :: tail
  rows : ∀ r, (y r).data = ownRows chunks tail.prod r (z r).data
  device : ∀ r, (y r).device = (x r).device
  dtype : ∀ r, (y r).dtype = dt
  together : ∀ r, catFor y 0 r = .ok (z r)

private theorem movedim_zero {t : Tensor V} (ht : t.shape = n :: tail) : t.movedim 0 0 = .ok t := by
  obtain ⟨u, hu, hshape, hdata, hdevice, hdtype⟩ := Tensor.movedim_front_exists ht
  rw [hu, Tensor.ext' hshape hdata hdevice hdtype]

theorem castTo_ownRows {u v : Tensor V} (device : Device) (dtype : DType) (chunks : List Nat) (inner r : Nat)
    (hd : u.dtype = v.dtype) (hdata : u.data = ownRows chunks inner r v.data) :
    (u.castTo num device dtype).data = ownRows chunks inner r (v.castTo num device dtype).data := by
  rw [Tensor.castTo_data, Tensor.castTo_data, hd, hdata]
  split
  · rfl
  · rw [ownRows, ownRows, NDArray.map_rowSlice]

private theorem chunkSize_eq (hvalid : ValidSizes cpuGroup.ranks.length n sizes) (hoststaged : Bool)
    (r : Fin cpuGroup.ranks.length) :
    (groupMember cpuGroup deviceGroup device uniqueName hoststaged r).chunkSize n sizes =
      .ok ((chunkSizes cpuGroup.ranks.length n sizes).getD r 0) := by
  cases sizes with
  | none =>
    have hassert : assert (n % cpuGroup.ranks.length = 0) "" = .ok () := if_pos hvalid
    change (assert (n % cpuGroup.ranks.length = 0) "" >>= fun _ => _) = _
    rw [hassert]
    simp [chunkSizes]
    rfl
  | some sizes =>
    obtain ⟨hlen, hsum⟩ := hvalid
    have hlength : assert (sizes.length = cpuGroup.ranks.length) "" = .ok () := if_pos hlen
    have htotal : assert (n = sizes.sum) "" = .ok () := if_pos hsum.symm
    have hr : (r : Nat) < sizes.length := by rw [hlen]; exact r.2
    change (assert (sizes.length = cpuGroup.ranks.length) "" >>= fun _ => assert (n = sizes.sum) "" >>= fun _ =>
      getItem sizes (r : Nat)) = _
    rw [hlength, htotal, getItem_natCast hr]
    simp [chunkSizes, hr]
    rfl

theorem catFor_ownRows {W : Nat} {y : Fin W → Tensor V} {chunks : List Nat} {xs : List V}
    (hlen : chunks.length = W) (hxs : xs.length = (chunks.sum :: tail).prod)
    (hshape : ∀ r, (y r).shape = chunks.getD r 0 :: tail) (hdtype : ∀ r, (y r).dtype = dt)
    (hrows : ∀ r, (y r).data = ownRows chunks tail.prod r xs) (r : Fin W) :
    catFor y 0 r = .ok ⟨⟨chunks.sum :: tail, xs, hxs⟩, (y r).device, dt⟩ := by
  have hsizes : (List.ofFn fun r : Fin W => chunks.getD r 0) = chunks := by
    apply List.ext_getElem
    · rw [List.length_ofFn, hlen]
    · intro i _ hi
      simp [hi]
  have hpieces : (List.ofFn y).flatMap (·.data) = xs := by
    have hdata : (List.ofFn y).map (·.data) = NDArray.splitData tail.prod chunks xs := by
      rw [List.map_ofFn]
      apply List.ext_getElem?
      intro i
      rcases Nat.lt_or_ge i W with hi | hi
      · rw [NDArray.splitData_getElem? _ _ _ (hlen.symm ▸ hi), List.getElem?_ofFn, dif_pos hi, Function.comp_apply,
          hrows]
        rfl
      · rw [List.getElem?_eq_none (by rwa [List.length_ofFn]),
          List.getElem?_eq_none (by rwa [NDArray.length_splitData, hlen])]
    rw [List.flatMap_def, hdata, NDArray.flatten_splitData (by rw [hxs, List.prod_cons])]
  obtain ⟨u, hu, hushape, hudata, hudevice, hudtype⟩ := catFor_rows (fun r => ⟨hshape r, hdtype r⟩) r
  rw [hu]
  refine congrArg _ (Tensor.ext' ?_ ?_ hudevice hudtype)
  · rw [hushape, hsizes]
  · rw [hudata, hpieces]

section Partition
variable (num) (deviceGroup) (device) (uniqueName) (hx : Uniform (n :: tail) dt x)
  (hvalid : ValidSizes cpuGroup.ranks.length n sizes)
include hx hvalid

/-- What the inputs are reduced as. -/
private theorem work_uniform (hoststaged : Bool) : Uniform ((chunkSizes cpuGroup.ranks.length n sizes).sum :: tail)
    (if hoststaged then reduceDType dt else dt) fun r => workTensor num hoststaged (x r) := by
  rw [sum_chunkSizes hvalid]
  cases hoststaged with
  | false => exact hx
  | true => exact fun r => ⟨((x r).castTo_shape num _ _).trans (hx r).1, congrArg reduceDType (hx r).2⟩

omit hx hvalid in
/-- The way back to the input's device and dtype. -/
private theorem unstage_completes {hoststaged : Bool} {u : Fin cpuGroup.ranks.length → Tensor V}
    {k : Fin cpuGroup.ranks.length → Nat} (hu : ∀ r, (u r).shape = k r :: tail) :
    Script.Completes (meaning (O := O) num)
      (fun r => (Script.lift ((resultTensor num hoststaged (x r) (u r)).movedim 0 0) : Dist V O _) >>= fun t => pure t)
        fun y => y = fun r => resultTensor num hoststaged (x r) (u r) := by
  have hshape : ∀ r, (resultTensor num hoststaged (x r) (u r)).shape = k r :: tail := by
    intro r
    rw [resultTensor]
    split
    · exact ((u r).castTo_shape num _ _).trans (hu r)
    · exact hu r
  simp only [movedim_zero (hshape _), Script.lift_ok, pure_bind]
  exact Script.completes_pure rfl

/-- The chunk of a rank, as it leaves the reduction. -/
def ScattersChunks (num : Numerics V) (hoststaged : Bool) (x : Fin cpuGroup.ranks.length → Tensor V)
    (chunks tail : List Nat) (u : Fin cpuGroup.ranks.length → Tensor V) : Prop :=
  ∀ r, HoldsOwnRows num (fun r => workTensor num hoststaged (x r)) chunks tail r (u r) ∧
    (u r).device = (workTensor num hoststaged (x r)).device

/-- The list form, with the pieces in the order of the ranks. -/
private theorem split_completes (hoststaged : Bool) (g : ProcessGroup) : ∃ u : Fin cpuGroup.ranks.length → Tensor V,
    ScattersChunks num hoststaged x (chunkSizes cpuGroup.ranks.length n sizes) tail u ∧
    Script.Completes (meaning (O := O) num)
      (fun r => (Script.lift ((workTensor num hoststaged (x r)).split (chunkSizes cpuGroup.ranks.length n sizes)) :
          Dist V O _) >>= fun parts =>
        Dist.reduceScatter g (.empty num ((chunkSizes cpuGroup.ranks.length n sizes).getD r 0 :: tail)
          (workTensor num hoststaged (x r)).dtype (workTensor num hoststaged (x r)).device) parts >>= fun output =>
            (Script.lift ((resultTensor num hoststaged (x r) output).movedim 0 0) : Dist V O _) >>= fun t => pure t)
        fun y => y = fun r => resultTensor num hoststaged (x r) (u r) := by
  have hwork := work_uniform num hx hvalid hoststaged
  obtain ⟨part, hpart, hreply⟩ := reply_split (O := O) (g := g)
    (o := fun r => .empty num ((chunkSizes cpuGroup.ranks.length n sizes).getD r 0 :: tail)
      (workTensor num hoststaged (x r)).dtype (workTensor num hoststaged (x r)).device)
    hwork (length_chunkSizes hvalid) fun r => ⟨rfl, (hwork r).2⟩
  choose u hu hown using hreply
  refine ⟨u, hown, ?_⟩
  simp only [hpart, Script.lift_ok, pure_bind]
  obtain ⟨tr, y, hrun, hy⟩ := unstage_completes (O := O) num (x := x) fun r => (hown r).1.1
  exact ⟨_, y, Script.runs_ask hu hrun, hy⟩

/-- The tensor form. -/
private theorem tensor_completes (hoststaged : Bool) (g : ProcessGroup) {k : Nat}
    (hk : chunkSizes cpuGroup.ranks.length n sizes = List.replicate cpuGroup.ranks.length k) :
    ∃ u : Fin cpuGroup.ranks.length → Tensor V,
      ScattersChunks num hoststaged x (chunkSizes cpuGroup.ranks.length n sizes) tail u ∧
      Script.Completes (meaning (O := O) num)
        (fun r => Dist.reduceScatterTensor (workTensor num hoststaged (x r)) g
          (.empty num ((chunkSizes cpuGroup.ranks.length n sizes).getD r 0 :: tail)
            (workTensor num hoststaged (x r)).dtype (workTensor num hoststaged (x r)).device) >>= fun output =>
              (Script.lift ((resultTensor num hoststaged (x r) output).movedim 0 0) : Dist V O _) >>= fun t => pure t)
          fun y => y = fun r => resultTensor num hoststaged (x r) (u r) := by
  have hwork := work_uniform num hx hvalid hoststaged
  choose u hu hown using reply_tensor (O := O) (g := g)
    (o := fun r => .empty num ((chunkSizes cpuGroup.ranks.length n sizes).getD r 0 :: tail)
      (workTensor num hoststaged (x r)).dtype (workTensor num hoststaged (x r)).device)
    hk hwork fun r => ⟨rfl, (hwork r).2⟩
  obtain ⟨tr, y, hrun, hy⟩ := unstage_completes (O := O) num (x := x) fun r => (hown r).1.1
  exact ⟨u, hown, _, y, Script.runs_ask hu hrun, hy⟩

theorem reduceScatterv_completes (hoststaged : Bool) : ∃ u : Fin cpuGroup.ranks.length → Tensor V,
    ScattersChunks num hoststaged x (chunkSizes cpuGroup.ranks.length n sizes) tail u ∧
    Script.Completes (meaning (O := O) num)
      (fun r => (groupMember cpuGroup deviceGroup device uniqueName hoststaged r).reduceScatterv num (x r) 0 sizes)
        fun y => y = fun r => resultTensor num hoststaged (x r) (u r) := by
  have hshape : ∀ r, (x r).shape = n :: tail := fun r => (hx r).1
  have hmove : ∀ r, (x r).movedim 0 0 = .ok (x r) := fun r => movedim_zero (hshape r)
  have hchunk : ∀ r, (groupMember cpuGroup deviceGroup device uniqueName hoststaged r).chunkSize n sizes = _ :=
    fun r => chunkSize_eq hvalid hoststaged r
  have hdim : ∀ r, normDim (x r) 0 = 0 := fun r => rfl
  cases hragged : XpuCommunicator.ragged sizes with
  | true =>
    have hsizes : sizes.getD [] = chunkSizes cpuGroup.ranks.length n sizes := by
      cases sizes with
      | none => cases hragged
      | some sizes => rfl
    simp only [XpuCommunicator.reduceScatterv, hdim, hmove, hshape, Tensor.contiguous, getItem_zero, hchunk, hragged,
      hsizes, Script.liftM_eq, Script.lift_ok, pure_bind, List.drop_succ_cons, List.drop_zero]
    exact split_completes num hx hvalid hoststaged (if hoststaged then cpuGroup else deviceGroup)
  | false =>
    obtain ⟨k, hk, -⟩ := chunkSizes_of_not_ragged hvalid hragged
    simp only [XpuCommunicator.reduceScatterv, hdim, hmove, hshape, Tensor.contiguous, getItem_zero, hchunk, hragged,
      Bool.false_eq_true, if_false, Script.liftM_eq, Script.lift_ok, pure_bind, List.drop_succ_cons, List.drop_zero]
    exact tensor_completes num hx hvalid hoststaged (if hoststaged then cpuGroup else deviceGroup) hk

private theorem reduceScattervSplit_completes : ∃ u : Fin cpuGroup.ranks.length → Tensor V,
    ScattersChunks num true x (chunkSizes cpuGroup.ranks.length n sizes) tail u ∧
    Script.Completes (meaning (O := O) num)
      (fun r => (groupMember cpuGroup deviceGroup device uniqueName true r).reduceScattervSplit num (x r) 0
        (chunkSizes cpuGroup.ranks.length n sizes)) fun y => y = fun r => resultTensor num true (x r) (u r) := by
  have hshape : ∀ r, (x r).shape = n :: tail := fun r => (hx r).1
  have hmove : ∀ r, (x r).movedim 0 0 = .ok (x r) := fun r => movedim_zero (hshape r)
  have hvalid' : ValidSizes cpuGroup.ranks.length n (some (chunkSizes cpuGroup.ranks.length n sizes)) :=
    ⟨length_chunkSizes hvalid, sum_chunkSizes hvalid⟩
  have hchunk : ∀ r, (groupMember cpuGroup deviceGroup device uniqueName true r).chunkSize n
      (some (chunkSizes cpuGroup.ranks.length n sizes)) = _ := fun r => chunkSize_eq hvalid' true r
  have hdim : ∀ r, normDim (x r) 0 = 0 := fun r => rfl
  simp only [XpuCommunicator.reduceScattervSplit, hdim, hmove, hshape, Tensor.contiguous, getItem_zero, hchunk,
    Script.liftM_eq, Script.lift_ok, pure_bind, List.drop_succ_cons, List.drop_zero]
  exact split_completes (O := O) num hx hvalid' true cpuGroup

end Partition

section Rows
variable {hoststaged : Bool} {chunks : List Nat}

/-- A chunk is determined by the inputs. -/
theorem ScattersChunks.unique {u u' : Fin cpuGroup.ranks.length → Tensor V}
    (hu : ScattersChunks num hoststaged x chunks tail u) (hu' : ScattersChunks num hoststaged x chunks tail u') :
    u = u' := by
  funext r
  obtain ⟨⟨hshape, hdata, hdtype⟩, hdevice⟩ := hu r
  obtain ⟨⟨hshape', hdata', hdtype'⟩, hdevice'⟩ := hu' r
  exact Tensor.ext' (hshape.trans hshape'.symm) (hdata.trans hdata'.symm) (hdevice.trans hdevice'.symm)
    (hdtype.trans hdtype'.symm)

/-- The chunks are the rows of the sum. -/
theorem ScattersChunks.scattersRows (hx : Uniform (n :: tail) dt x) (hlen : chunks.length = cpuGroup.ranks.length)
    (hsum : chunks.sum = n) {u z : Fin cpuGroup.ranks.length → Tensor V}
    (hu : ScattersChunks num hoststaged x chunks tail u) (hz : ∀ r, elementwiseSum num hoststaged x r = .ok (z r)) :
    ScattersRows x z (fun r => resultTensor num hoststaged (x r) (u r)) chunks tail dt := by
  have hrows : ∀ r, (resultTensor num hoststaged (x r) (u r)).data = ownRows chunks tail.prod r (z r).data := by
    intro r
    obtain ⟨⟨-, hdata, hdtype⟩, -⟩ := hu r
    obtain ⟨v, hv, -, hvdata, -, hvdtype⟩ := elementwiseSum_exists num hoststaged hx r
    have hzr : z r = resultTensor num hoststaged (x r) v := Except.ok.inj ((hz r).symm.trans hv)
    have hown : (u r).data = ownRows chunks tail.prod r v.data := hdata.trans (congrArg _ hvdata.symm)
    rw [hzr]
    cases hoststaged with
    | false => exact hown
    | true => exact castTo_ownRows _ _ _ _ _ (hdtype.trans hvdtype.symm) hown
  have hspec := fun r => elementwiseSum_spec hx (hz r)
  have hshape : ∀ r, (resultTensor num hoststaged (x r) (u r)).shape = chunks.getD r 0 :: tail := by
    intro r
    cases hoststaged with
    | false => exact (hu r).1.1
    | true => exact ((u r).castTo_shape num _ _).trans (hu r).1.1
  have hdevice : ∀ r, (resultTensor num hoststaged (x r) (u r)).device = (x r).device := by
    intro r
    cases hoststaged with
    | false => exact (hu r).2
    | true => rfl
  have hdtype : ∀ r, (resultTensor num hoststaged (x r) (u r)).dtype = dt := by
    intro r
    cases hoststaged with
    | false => exact (hu r).1.2.2.trans (hx r).2
    | true => exact (hx r).2
  have hlength : ∀ r, (z r).data.length = (chunks.sum :: tail).prod := by
    intro r
    rw [(z r).wf, (hspec r).1, hsum]
  have hsame : ∀ r r', (z r').data = (z r).data :=
    fun r r' => congrArg NDArray.data (elementwiseSum_agrees hx (hz r') (hz r))
  refine ⟨hshape, hrows, hdevice, hdtype, fun r => ?_⟩
  rw [catFor_ownRows hlen (hlength r) hshape hdtype (fun r' => (hrows r').trans (congrArg _ (hsame r r'))) r]
  refine congrArg Except.ok (Tensor.ext' ?_ rfl ((hdevice r).trans (hspec r).2.1.symm) (hspec r).2.2.symm)
  rw [(hspec r).1]
  exact congrArg (· :: tail) hsum

end Rows

variable (num) (deviceGroup) (device) (uniqueName) in
/-- reduce_scatterv along axis 0 hands every row of the all_reduce result to one rank, and
the shortcut for equal chunks returns what the list form would. -/
theorem reduceScatterv_partitions (hx : Uniform (n :: tail) dt x) (hvalid : ValidSizes cpuGroup.ranks.length n sizes) :
    ∃ z y : Fin cpuGroup.ranks.length → Tensor V,
    Script.Completes (meaning (O := O) num)
      (fun r => (groupMember cpuGroup deviceGroup device uniqueName true r).allReduce num (x r)) (· = z) ∧
    Script.Completes (meaning (O := O) num)
      (fun r => (groupMember cpuGroup deviceGroup device uniqueName true r).reduceScatterv num (x r) 0 sizes) (· = y) ∧
    Script.Completes (meaning (O := O) num)
      (fun r => (groupMember cpuGroup deviceGroup device uniqueName true r).reduceScattervSplit num (x r) 0
        (chunkSizes cpuGroup.ranks.length n sizes)) (· = y) ∧
    ScattersRows x z y (chunkSizes cpuGroup.ranks.length n sizes) tail dt := by
  obtain ⟨u, hu, hscatter⟩ := reduceScatterv_completes (O := O) num deviceGroup device uniqueName hx hvalid true
  obtain ⟨u', hu', hsplit⟩ := reduceScattervSplit_completes (O := O) num deviceGroup device uniqueName hx hvalid
  obtain rfl : u' = u := hu'.unique hu
  choose v hv using fun r => elementwiseSum_exists num true hx r
  refine ⟨fun r => resultTensor num true (x r) (v r), _, (allReduce_delivers hx).mono fun z hz => ?_, hscatter, hsplit,
    hu.scattersRows hx (length_chunkSizes hvalid) (sum_chunkSizes hvalid) fun r => (hv r).1⟩
  funext r
  exact Except.ok.inj ((hz r).symm.trans (hv r).1)

end Runs

/-- Three rows, none for the first card. -/
def threeRows (r : Fin pairCpuGroup.ranks.length) : Tensor Int :=
  { shape := [3], data := [0, 1, 2], wf := rfl, device := pairDevice r, dtype := .float16 }

theorem threeRows_partitions : ∃ z y : Fin pairCpuGroup.ranks.length → Tensor Int,
    Script.Completes (meaning (O := Unit) intNumerics)
      (fun r => (groupMember pairCpuGroup pairDeviceGroup pairDevice "tp:0" true r).allReduce intNumerics
        (threeRows r)) (· = z) ∧
    Script.Completes (meaning (O := Unit) intNumerics)
      (fun r => (groupMember pairCpuGroup pairDeviceGroup pairDevice "tp:0" true r).reduceScatterv intNumerics
        (threeRows r) 0 (some [0, 3])) (· = y) ∧
    Script.Completes (meaning (O := Unit) intNumerics)
      (fun r => (groupMember pairCpuGroup pairDeviceGroup pairDevice "tp:0" true r).reduceScattervSplit intNumerics
        (threeRows r) 0 [0, 3]) (· = y) ∧
    ScattersRows threeRows z y [0, 3] [] .float16 := by
  have hx : Uniform [3] .float16 threeRows := fun r => ⟨rfl, rfl⟩
  have hvalid : ValidSizes pairCpuGroup.ranks.length 3 (some [0, 3]) := ⟨rfl, rfl⟩
  exact reduceScatterv_partitions intNumerics pairDeviceGroup _ "tp:0" hx hvalid

end B70DualTP.Communicator
