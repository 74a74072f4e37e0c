import B70DualTP.Communicator.Shapes

/-! reduce_scatter along any axis: which elements of the sum a rank gets, and for which axes
they are its chunk. -/
namespace B70DualTP.Communicator
open Library Torch NDArray
variable {V O : Type}

section Spec
variable (num : Numerics V) (hoststaged : Bool)

def workTensor (input : Tensor V) : Tensor V :=
  if hoststaged then input.castTo num .cpu (reduceDType input.dtype) else input

def resultTensor (input output : Tensor V) : Tensor V :=
  if hoststaged then output.castTo num input.device input.dtype else output

/-- The elementwise sum of the ranks' tensors, on rank r. -/
def elementwiseSum {W : Nat} (x : Fin W → Tensor V) (r : Fin W) : Py (Tensor V) := do
  let work := fun s => workTensor num hoststaged (x s)
  let sum ← (work r).fill (sumData num (work r).dtype (List.ofFn fun s => (work s).data))
  return resultTensor num hoststaged (x r) sum

/-- What torch's narrow returns: length entries of axis d from start on. -/
def narrow (t : Tensor V) (d start length : Nat) : Py (Tensor V) :=
  match t.narrow? d start length with
  | some a => .ok (t.withArray a)
  | none => .error .runtimeError

/-- The r-th of the W equal consecutive chunks of the sum along axis d. -/
def sumChunk {W : Nat} (x : Fin W → Tensor V) (d : Nat) (r : Fin W) : Py (Tensor V) := do
  let sum ← elementwiseSum num hoststaged x r
  let n ← getItem sum.shape d
  narrow sum d (r * (n / W)) (n / W)

end Spec

section Data
variable {num : Numerics V} {hoststaged : Bool} {s t : List Nat} {f : List Nat → List Nat}

private theorem pullData_nil : pullData s t f ([] : List V) = [] := by simp [pullData, block]

theorem sumData_pullData (hf : ∀ i ∈ indices s, f i ∈ indices t) (dtype : DType) {xss : List (List V)}
    (h : ∀ xs ∈ xss, xs.length = t.prod) :
    sumData num dtype (xss.map (pullData s t f)) = pullData s t f (sumData num dtype xss) := by
  cases xss with
  | nil => exact pullData_nil.symm
  | cons xs xss =>
    rw [List.forall_mem_cons] at h
    obtain ⟨hx, hxs⟩ := h
    simp only [sumData, List.map_cons]
    induction xss generalizing xs with
    | nil => rfl
    | cons ys xss ih =>
      rw [List.forall_mem_cons] at hxs
      obtain ⟨hy, hxs⟩ := hxs
      have hadd : (List.zipWith (num.add dtype) xs ys).length = t.prod := by
        rw [List.length_zipWith, hx, hy, Nat.min_self]
      rw [List.map_cons, List.foldl_cons, zipWith_pullData hf _ hx hy, ih _ hadd hxs, List.foldl_cons]

private theorem castTo_pullData {u v : Tensor V} (device device' : Device) (dtype : DType) (hd : u.dtype = v.dtype)
    (hdata : u.data = pullData s t f v.data) :
    (u.castTo num device dtype).data = pullData s t f (v.castTo num device' dtype).data := by
  rw [Tensor.castTo_data, Tensor.castTo_data, hd, hdata]
  split
  · rfl
  · rw [map_pullData]

end Data

/-- Where reduce_scatter takes its elements from: both moves take the same way. -/
def scatterSource (d start : Nat) : List Nat → List Nat := moveAxis d 0 ∘ shift 0 start ∘ moveAxis d 0

/-- What reduce_scatter leaves on a rank: elements of the sum z, the front axis of the moved
input having been divided. -/
structure Scattered (W d : Nat) (s : List Nat) (r : Fin W) (z y : Tensor V) : Prop where
  shape : y.shape = scatteredShape W d s
  data : y.data = pullData (scatteredShape W d s) s (scatterSource d (r * ((moveAxis 0 d s).headD 0 / W))) z.data
  device : y.device = z.device
  dtype : y.dtype = z.dtype

section Runs
variable {num : Numerics V} {cpuGroup deviceGroup : ProcessGroup} {device : Fin cpuGroup.ranks.length → Device}
  {uniqueName : String} {hoststaged : Bool} {s : List Nat} {dt : DType} {x : Fin cpuGroup.ranks.length → Tensor V}
  {d : Nat}

section Chunk
variable {n k W : Nat} {m : List Nat} (hm : moveAxis 0 d s = n :: m) (hd : d < s.length) (hk : n = W * k)
include hm hd

private theorem unmove_mem : ∀ i ∈ indices (n :: m), moveAxis d 0 i ∈ indices s := by
  intro i hi
  rw [← hm] at hi
  exact moveAxis_mem_indices (by omega) hd hi

omit hm hd in
include hk in
private theorem chunk_mem {r : Nat} (hr : r < W) :
    ∀ i ∈ indices (k :: m), shift 0 (r * k) i ∈ indices (n :: m) := by
  intro i hi
  have hfit : r * k + k ≤ (n :: m).getD 0 0 := by
    have h := Nat.mul_le_mul_right k hr
    rw [Nat.succ_mul, ← hk] at h
    exact h
  exact shift_mem_indices hfit hi

omit hk in
private theorem back_mem :
    ∀ i ∈ indices (moveAxis 0 d (k :: m)), moveAxis d 0 i ∈ indices (k :: m) := by
  intro i hi
  have hmoved : (moveAxis 0 d s).length = s.length := length_moveAxis (by omega) hd
  have hlen : (k :: m).length = s.length := by
    rw [← hmoved, hm]
    rfl
  exact moveAxis_mem_indices (by omega) (by omega) hi

include hk in
/-- The reply to the collective, in terms of the tensors before their axis was moved. -/
private theorem scatter_reply {g : ProcessGroup} {w c o : Fin W → Tensor V} (hw : Uniform s dt w)
    (hc : Uniform (n :: m) dt c) (hdata : ∀ r, (c r).data = pullData (n :: m) s (moveAxis d 0) (w r).data)
    (ho : Uniform (k :: m) dt o) (r : Fin W) :
    ∃ u : Tensor V, meaning (O := O) num (fun r => .reduceScatterTensor (o r) (c r) g) r = .ok u ∧
      u.shape = k :: m ∧ u.data = pullData (k :: m) s (moveAxis d 0 ∘ shift 0 (r * k))
        (sumData num dt (List.ofFn fun s => (w s).data)) ∧ u.device = (o r).device ∧ u.dtype = dt := by
  have hn : ∀ r, (c r).numel = W * (o r).numel := by
    intro r
    rw [NDArray.numel, NDArray.numel, (hc r).1, (ho r).1, List.prod_cons, List.prod_cons, hk, Nat.mul_assoc]
  obtain ⟨u, hu, hushape, hudata, hudevice, hudtype⟩ := meaning_reduceScatterTensor (O := O) num (g := g)
    hc.compatible (fun r => (ho r).2.trans (hc r).2.symm) hn r
  refine ⟨u, hu, hushape.trans (ho r).1, ?_, hudevice, hudtype.trans (ho r).2⟩
  have hlen : ∀ ys ∈ List.ofFn fun s => (w s).data, ys.length = s.prod := by
    intro ys hys
    obtain ⟨r, rfl⟩ := List.mem_ofFn.mp hys
    rw [(w r).wf, (hw r).1]
  have hpulled : (List.ofFn fun r => (c r).data) =
      (List.ofFn fun r => (w r).data).map (pullData (n :: m) s (moveAxis d 0)) := by
    rw [List.map_ofFn]
    congr 1
    funext r
    exact hdata r
  have hsum : (sumData num dt (List.ofFn fun s => (w s).data)).length = s.prod := by
    apply length_sumData num dt _ hlen
    intro hnil
    have hW := congrArg List.length hnil
    rw [List.length_ofFn, List.length_nil] at hW
    exact absurd r.2 (by omega)
  have hnumel : (o r).numel = k * m.prod := by rw [NDArray.numel, (ho r).1, List.prod_cons]
  have hrows : (r + 1) * k ≤ n := hk ▸ Nat.mul_le_mul_right k r.2
  rw [hudata, hnumel, (hc r).2, hpulled, sumData_pullData (unmove_mem hm hd) dt hlen,
    block_eq_pullData hrows (length_pullData (unmove_mem hm hd) hsum),
    pullData_pullData (unmove_mem hm hd) (chunk_mem hk r.2) hsum]

variable (num hoststaged) in
private theorem scatter_back {k : Nat} (hk : n = W * k) {r : Fin W} (input : Tensor V) {u v : Tensor V}
    (hushape : u.shape = k :: m)
    (hudata : u.data = pullData (k :: m) s (moveAxis d 0 ∘ shift 0 (r * k)) v.data)
    (hudevice : u.device = v.device ∨ hoststaged = true) (hudtype : u.dtype = v.dtype) (hv : v.data.length = s.prod) :
    ∃ y, (resultTensor num hoststaged input u).movedim 0 d = .ok y ∧
      Scattered W d s r (resultTensor num hoststaged input v) y := by
  have hlen : (k :: m).length = s.length := by
    have hmoved : (moveAxis 0 d s).length = s.length := length_moveAxis (by omega) hd
    rw [← hmoved, hm]
    rfl
  have hshape : (resultTensor num hoststaged input u).shape = k :: m := by
    rw [resultTensor]
    split
    · rw [Tensor.castTo_shape, hushape]
    · exact hushape
  have hdata : (resultTensor num hoststaged input u).data = pullData (k :: m) s (moveAxis d 0 ∘ shift 0 (r * k))
      (resultTensor num hoststaged input v).data := by
    rw [resultTensor, resultTensor]
    split
    · exact castTo_pullData _ _ _ hudtype hudata
    · exact hudata
  have hsum : (resultTensor num hoststaged input v).data.length = s.prod := by
    rw [resultTensor]
    split
    · rw [Tensor.castTo_data]
      split
      · exact hv
      · rw [List.length_map, hv]
    · exact hv
  obtain ⟨y, hy, hyshape, hydata, hydevice, hydtype⟩ := Tensor.movedim_pulls (t := resultTensor num hoststaged input u)
    (i := 0) (j := d) (by rw [hshape, hlen]; omega) (by rw [hshape, hlen]; exact hd)
  rw [hshape] at hyshape hydata
  have hfront : (moveAxis 0 d s).headD 0 / W = k := by
    rw [hm, List.headD_cons, hk]
    exact Nat.mul_div_cancel_left k (Nat.zero_lt_of_lt r.2)
  have hscattered : scatteredShape W d s = moveAxis 0 d (k :: m) := by
    rw [scatteredShape, hfront, hm]
    rfl
  refine ⟨y, hy, hyshape.trans hscattered.symm, ?_, hydevice.trans ?_, hydtype.trans ?_⟩
  · have hmem : ∀ i ∈ indices (k :: m), (moveAxis d 0 ∘ shift 0 (r * k)) i ∈ indices s :=
      fun i hi => unmove_mem hm hd _ (chunk_mem hk r.2 i hi)
    rw [hydata, hdata, pullData_pullData hmem (back_mem hm hd) hsum, hscattered, hfront]
    rfl
  · rcases hudevice with hdevice | rfl
    · cases hoststaged with
      | false => exact hdevice
      | true => rfl
    · rfl
  · cases hoststaged with
    | false => exact hudtype
    | true => rfl

end Chunk

theorem scatterSource_mem {W : Nat} (hd : d < s.length) (hfront : (moveAxis 0 d s).headD 0 % W = 0) (r : Fin W) :
    ∀ i ∈ indices (scatteredShape W d s), scatterSource d (r * ((moveAxis 0 d s).headD 0 / W)) i ∈ indices s := by
  have hlen : (moveAxis 0 d s).length = s.length := length_moveAxis (by omega) hd
  obtain ⟨n, m, hm⟩ : ∃ n m, moveAxis 0 d s = n :: m := by
    apply List.exists_cons_of_length_pos
    omega
  intro i hi
  rw [scatteredShape, hm, List.headD_cons, List.drop_succ_cons, List.drop_zero] at hi
  rw [hm, List.headD_cons] at hfront ⊢
  have hk : n = W * (n / W) := (Nat.mul_div_cancel' (Nat.dvd_of_mod_eq_zero hfront)).symm
  exact unmove_mem hm hd _ (chunk_mem hk r.2 _ (back_mem hm hd i hi))

variable (num hoststaged) in
theorem elementwiseSum_exists {W : Nat} {x : Fin W → Tensor V} (hx : Uniform s dt x) (r : Fin W) :
    ∃ v : Tensor V, elementwiseSum num hoststaged x r = .ok (resultTensor num hoststaged (x r) v) ∧
      v.shape = s ∧ v.data = sumData num (workTensor num hoststaged (x r)).dtype
        (List.ofFn fun s => (workTensor num hoststaged (x s)).data) ∧
        v.device = (workTensor num hoststaged (x r)).device ∧ v.dtype = (workTensor num hoststaged (x r)).dtype := by
  have hwork : ∀ r, (workTensor num hoststaged (x r)).shape = s := by
    intro r
    rw [workTensor]
    split
    · rw [Tensor.castTo_shape, (hx r).1]
    · exact (hx r).1
  have hlen : (sumData num (workTensor num hoststaged (x r)).dtype
      (List.ofFn fun s => (workTensor num hoststaged (x s)).data)).length =
        (workTensor num hoststaged (x r)).shape.prod := by
    apply length_sumData
    · intro hnil
      have hW := congrArg List.length hnil
      rw [List.length_ofFn, List.length_nil] at hW
      exact absurd r.2 (by omega)
    · intro ys hys
      obtain ⟨r', rfl⟩ := List.mem_ofFn.mp hys
      rw [(workTensor num hoststaged (x r')).wf, hwork, hwork]
  obtain ⟨v, hv, hshape, hdata, hdevice, hdtype⟩ := Tensor.fill_exists hlen
  refine ⟨v, ?_, hshape.trans (hwork r), hdata, hdevice, hdtype⟩
  simp only [elementwiseSum, hv]
  rfl

private theorem sum_eq {W : Nat} {x : Fin W → Tensor V} (hx : Uniform s dt x) {r : Fin W} {z : Tensor V}
    (hz : elementwiseSum num hoststaged x r = .ok z) : ∃ v : Tensor V, z = resultTensor num hoststaged (x r) v ∧
      v.shape = s ∧ v.data = sumData num (if hoststaged then reduceDType dt else dt)
        (List.ofFn fun s => (workTensor num hoststaged (x s)).data) ∧
          v.device = (workTensor num hoststaged (x r)).device ∧ v.dtype = if hoststaged then reduceDType dt else dt := by
  have hwork : (workTensor num hoststaged (x r)).dtype = if hoststaged then reduceDType dt else dt := by
    rw [workTensor]
    split
    · rw [Tensor.castTo_dtype, (hx r).2]
    · exact (hx r).2
  obtain ⟨v, hv, hshape, hdata, hdevice, hdtype⟩ := elementwiseSum_exists num hoststaged hx r
  rw [hwork] at hdata hdtype
  exact ⟨v, Except.ok.inj (hz.symm.trans hv), hshape, hdata, hdevice, hdtype⟩

theorem elementwiseSum_spec {W : Nat} {x : Fin W → Tensor V} (hx : Uniform s dt x) {r : Fin W} {z : Tensor V}
    (hz : elementwiseSum num hoststaged x r = .ok z) : z.shape = s ∧ z.device = (x r).device ∧ z.dtype = dt := by
  obtain ⟨v, rfl, hshape, -, hdevice, hdtype⟩ := sum_eq hx hz
  cases hoststaged with
  | false => exact ⟨hshape, hdevice, hdtype⟩
  | true => exact ⟨((v.castTo_shape num _ _).trans hshape :), rfl, (hx r).2⟩

theorem elementwiseSum_agrees {W : Nat} {x : Fin W → Tensor V} (hx : Uniform s dt x) {r r' : Fin W} {z z' : Tensor V}
    (hz : elementwiseSum num hoststaged x r = .ok z) (hz' : elementwiseSum num hoststaged x r' = .ok z') :
    z.toNDArray = z'.toNDArray := by
  have hshape := (elementwiseSum_spec hx hz).1.trans (elementwiseSum_spec hx hz').1.symm
  obtain ⟨v, rfl, -, hdata, -, hdtype⟩ := sum_eq hx hz
  obtain ⟨v', rfl, -, hdata', -, hdtype'⟩ := sum_eq hx hz'
  refine NDArray.ext hshape ?_
  cases hoststaged with
  | false => exact hdata.trans hdata'.symm
  | true => simp only [resultTensor, if_true, Tensor.castTo_data, hdata, hdata', hdtype, hdtype', (hx r).2, (hx r').2]

theorem allReduce_delivers (hx : Uniform s dt x) :
    Script.Completes (meaning (O := O) num)
      (fun r => (groupMember cpuGroup deviceGroup device uniqueName hoststaged r).allReduce num (x r))
        fun y => ∀ r, elementwiseSum num hoststaged x r = .ok (y r) := by
  choose v hz hvshape hvdata hvdevice hvdtype using elementwiseSum_exists num hoststaged hx
  cases hoststaged with
  | false =>
    have hbind : ∀ r, (groupMember cpuGroup deviceGroup device uniqueName false r).allReduce num (x r) =
        (Dist.allReduce (x r) deviceGroup : Dist V O _) >>= pure := fun r => (bind_pure _).symm
    simp only [hbind]
    refine Script.completes_ask (meaning_allReduce num hx.compatible) fun y hy => Script.completes_pure fun r => ?_
    obtain ⟨hshape, hdata, hdevice, hdtype⟩ := hy r
    rw [hz r]
    refine congrArg _ (Tensor.ext' ?_ ?_ ?_ ?_)
    · exact (hvshape r).trans ((hx r).1.symm.trans hshape.symm)
    · exact (hvdata r).trans hdata.symm
    · exact (hvdevice r).trans hdevice.symm
    · exact (hvdtype r).trans hdtype.symm
  | true =>
    have hc : Uniform s (reduceDType dt) fun r => (x r).castTo num .cpu (reduceDType (x r).dtype) :=
      fun r => ⟨((x r).castTo_shape num _ _).trans (hx r).1, by rw [Tensor.castTo_dtype, (hx r).2]⟩
    refine Script.completes_ask (meaning_allReduce num hc.compatible) fun y hy => Script.completes_pure fun r => ?_
    obtain ⟨hshape, hdata, hdevice, hdtype⟩ := hy r
    have hv : v r = y r := by
      refine Tensor.ext' ?_ ?_ ?_ ?_
      · exact (hvshape r).trans ((hc r).1.symm.trans hshape.symm)
      · exact (hvdata r).trans hdata.symm
      · exact (hvdevice r).trans hdevice.symm
      · exact (hvdtype r).trans hdtype.symm
    rw [hz r, hv]
    rfl

theorem reduceScatter_scatters (hx : Uniform s dt x) (hd : d < s.length) {dim : Int}
    (hdim : ∀ r, normDim (x r) dim = d) (hdvd : (moveAxis 0 d s).headD 0 % cpuGroup.ranks.length = 0) :
    Script.Completes (meaning (O := O) num)
      (fun r => (groupMember cpuGroup deviceGroup device uniqueName hoststaged r).reduceScatter num (x r) dim)
        fun y => ∀ r, ∃ z, elementwiseSum num hoststaged x r = .ok z ∧ z.shape = s ∧
          Scattered cpuGroup.ranks.length d s r z (y r) := by
  have hlen : (moveAxis 0 d s).length = s.length := length_moveAxis (by omega) hd
  obtain ⟨n, m, hm⟩ : ∃ n m, moveAxis 0 d s = n :: m := by
    apply List.exists_cons_of_length_pos
    omega
  rw [hm, List.headD_cons] at hdvd
  have hk : n = cpuGroup.ranks.length * (n / cpuGroup.ranks.length) :=
    (Nat.mul_div_cancel' (Nat.dvd_of_mod_eq_zero hdvd)).symm
  have hmove : ∀ r, ∃ t, (x r).movedim 0 d = .ok t ∧ t.shape = n :: m ∧
      t.data = pullData (n :: m) s (moveAxis d 0) (x r).data ∧ t.device = (x r).device ∧ t.dtype = dt := by
    intro r
    have hs := (hx r).1
    obtain ⟨t, ht, hts, htdata, htdevice, htdtype⟩ := Tensor.movedim_pulls (t := x r) (i := 0) (j := d)
      (by rw [hs]; omega) (by rw [hs]; exact hd)
    rw [hs, hm] at hts htdata
    exact ⟨t, ht, hts, htdata, htdevice, htdtype.trans (hx r).2⟩
  choose v hz hvshape hvdata hvdevice hvdtype using elementwiseSum_exists num hoststaged hx
  have hvlen : ∀ r, (v r).data.length = s.prod := by
    intro r
    rw [(v r).wf, hvshape]
  simp only [XpuCommunicator.reduceScatter, groupMember, hdim, Script.liftM_eq, Tensor.contiguous]
  apply Script.completes_lift hmove
  intro t ht
  have hts : ∀ r, (t r).shape = n :: m := fun r => (ht r).1
  simp only [hts, getItem_zero, List.drop_succ_cons, List.drop_zero, Script.lift_ok, pure_bind]
  refine Script.completes_lift (P := fun _ _ => True) (fun r => ⟨(), if_pos hdvd, trivial⟩) fun _ _ => ?_
  cases hoststaged with
  | false =>
    simp only [Bool.false_eq_true, if_false]
    have ho : Uniform (n / cpuGroup.ranks.length :: m) dt fun r =>
        Tensor.empty num (n / cpuGroup.ranks.length :: m) (t r).dtype (t r).device :=
      fun r => ⟨rfl, (ht r).2.2.2⟩
    have hc : Uniform (n :: m) dt t := fun r => ⟨hts r, (ht r).2.2.2⟩
    refine Script.completes_ask (scatter_reply hm hd hk hx hc (fun r => (ht r).2.1) ho) fun u hu => ?_
    have hback : ∀ r, ∃ y, (u r).movedim 0 d = .ok y ∧ ∃ z, elementwiseSum num false x r = .ok z ∧ z.shape = s ∧
        Scattered cpuGroup.ranks.length d s r z y := by
      intro r
      obtain ⟨hushape, hudata, hudevice, hudtype⟩ := hu r
      have hdata : (u r).data = pullData (n / cpuGroup.ranks.length :: m) s
          (moveAxis d 0 ∘ shift 0 (r * (n / cpuGroup.ranks.length))) (v r).data := by
        rw [hudata, hvdata r]
        exact congrArg (fun dtype => pullData _ _ _ (sumData num dtype _)) (hx r).2.symm
      have hdevice : (u r).device = (v r).device := by
        rw [hvdevice r]
        exact hudevice.trans (ht r).2.2.1
      have hdtype : (u r).dtype = (v r).dtype := by
        rw [hudtype, hvdtype r]
        exact (hx r).2.symm
      obtain ⟨y, hy, hscattered⟩ := scatter_back num false hm hd hk (x r) hushape
        hdata (.inl hdevice) hdtype (hvlen r)
      exact ⟨y, hy, v r, hz r, hvshape r, hscattered⟩
    exact Script.completes_lift hback fun y hy => Script.completes_pure hy
  | true =>
    simp only [if_true]
    have hwork : Uniform s (reduceDType dt) fun r => (x r).castTo num .cpu (reduceDType (x r).dtype) :=
      fun r => ⟨((x r).castTo_shape num _ _).trans (hx r).1, by rw [Tensor.castTo_dtype, (hx r).2]⟩
    have ho : Uniform (n / cpuGroup.ranks.length :: m) (reduceDType dt) fun r =>
        Tensor.empty num (n / cpuGroup.ranks.length :: m) (reduceDType (t r).dtype) .cpu :=
      fun r => ⟨rfl, congrArg reduceDType (ht r).2.2.2⟩
    have hc : Uniform (n :: m) (reduceDType dt) fun r => (t r).castTo num .cpu (reduceDType (t r).dtype) :=
      fun r => ⟨((t r).castTo_shape num _ _).trans (hts r), by rw [Tensor.castTo_dtype, (ht r).2.2.2]⟩
    have hcdata : ∀ r, ((t r).castTo num .cpu (reduceDType (t r).dtype)).data =
        pullData (n :: m) s (moveAxis d 0) ((x r).castTo num .cpu (reduceDType (x r).dtype)).data := by
      intro r
      obtain ⟨-, htdata, -, htdtype⟩ := ht r
      rw [htdtype, (hx r).2]
      exact castTo_pullData _ _ _ (htdtype.trans (hx r).2.symm) htdata
    apply Script.completes_ask (scatter_reply hm hd hk hwork hc hcdata ho)
    intro u hu
    have hback : ∀ r, ∃ y, ((u r).castTo num (t r).device (t r).dtype).movedim 0 d = .ok y ∧
        ∃ z, elementwiseSum num true x r = .ok z ∧ z.shape = s ∧ Scattered cpuGroup.ranks.length d s r z y := by
      intro r
      obtain ⟨hushape, hudata, -, hudtype⟩ := hu r
      have hdata : (u r).data = pullData (n / cpuGroup.ranks.length :: m) s
          (moveAxis d 0 ∘ shift 0 (r * (n / cpuGroup.ranks.length))) (v r).data := by
        rw [hudata, hvdata r]
        exact congrArg (fun dtype => pullData _ _ _ (sumData num (reduceDType dtype) _)) (hx r).2.symm
      have hdtype : (u r).dtype = (v r).dtype := by
        rw [hudtype, hvdtype r]
        exact congrArg reduceDType (hx r).2.symm
      have hresult : (u r).castTo num (t r).device (t r).dtype = resultTensor num true (x r) (u r) := by
        rw [(ht r).2.2.1, (ht r).2.2.2, ← (hx r).2]
        rfl
      obtain ⟨y, hy, hscattered⟩ := scatter_back num true hm hd hk (x r) hushape
        hdata (.inr rfl) hdtype (hvlen r)
      exact ⟨y, hresult ▸ hy, _, hz r, ((v r).castTo_shape num _ _).trans (hvshape r), hscattered⟩
    exact Script.completes_lift hback fun y hy => Script.completes_pure hy

end Runs

section Source
variable {d start : Nat}

/-- Up to axis 1 a move is its own inverse. -/
theorem scatterSource_eq_shift (hd : d ≤ 1) {i : List Nat} (hi : d < i.length) :
    scatterSource d start i = shift d start i := by
  match d, i with
  | 0, j :: i => rfl
  | 1, j :: k :: i => rfl

/-- From axis 2 on, the step is taken along axis 1. -/
theorem scatterSource_replicate {n : Nat} (hd : d + 2 < n) :
    (scatterSource (d + 2) start (List.replicate n 0)).getD (d + 2) 0 = 0 := by
  obtain ⟨n, rfl⟩ : ∃ m, n = m + 1 := ⟨n - 1, by omega⟩
  have hzero : ∀ k l, (List.replicate l 0).getD k 0 = 0 := by
    intro k l
    rw [List.getD_eq_getElem?_getD, List.getElem?_replicate]
    split <;> rfl
  have hfirst : moveAxis (d + 2) 0 (List.replicate (n + 1) 0) = 0 :: List.replicate n 0 := by
    rw [moveAxis, hzero, List.eraseIdx_replicate, if_pos hd]
    rfl
  have hlast : moveAxis (d + 2) 0 (start :: List.replicate n 0) = 0 :: start :: List.replicate (n - 1) 0 := by
    rw [moveAxis, List.getD_cons_succ, hzero, List.eraseIdx_cons_succ, List.eraseIdx_replicate, if_pos (by omega)]
    rfl
  rw [scatterSource, Function.comp_apply, Function.comp_apply, hfirst]
  change (moveAxis (d + 2) 0 (start :: List.replicate n 0)).getD (d + 2) 0 = 0
  rw [hlast, List.getD_cons_succ, List.getD_cons_succ, hzero]

theorem shift_replicate {n : Nat} (hd : d < n) : (shift d start (List.replicate n 0)).getD d 0 = start := by
  simp [shift, hd]

end Source

section Chunks
variable {num : Numerics V} {hoststaged : Bool} {W d : Nat} {s : List Nat} {x : Fin W → Tensor V} {r : Fin W}
  {z : Tensor V} (hz : elementwiseSum num hoststaged x r = .ok z) (hshape : z.shape = s) (hd : d < s.length)
  (hdvd : s[d] % W = 0)
include hz hshape hd hdvd

omit hz hshape in
private theorem chunk_fits : r * (s[d] / W) + s[d] / W ≤ s.getD d 0 := by
  have h := Nat.mul_le_mul_right (s[d] / W) r.2
  rw [Nat.succ_mul, Nat.mul_div_cancel' (Nat.dvd_of_mod_eq_zero hdvd)] at h
  simpa [hd] using h

theorem sumChunk_exists : ∃ u, sumChunk num hoststaged x d r = .ok u ∧ u.shape = s.set d (s[d] / W) ∧
    u.data = pullData (s.set d (s[d] / W)) s (shift d (r * (s[d] / W))) z.data ∧
      u.device = z.device ∧ u.dtype = z.dtype := by
  subst hshape
  have hfits := chunk_fits (r := r) hd hdvd
  have hn : z.narrow? d (r * (z.shape[d] / W)) (z.shape[d] / W) =
      some (z.reindex _ _ fun _ hi => shift_mem_indices hfits hi) := dif_pos ⟨hd, hfits⟩
  refine ⟨z.withArray (z.reindex _ _ fun _ hi => shift_mem_indices hfits hi), ?_, rfl, rfl, rfl, rfl⟩
  simp only [sumChunk, hz]
  change (getItem z.shape d >>= fun n => narrow z d (r * (n / W)) (n / W)) = _
  rw [getItem_natCast hd]
  change narrow z d (r * (z.shape[d] / W)) (z.shape[d] / W) = _
  simp only [narrow, hn]

end Chunks

section Property
variable (cpuGroup deviceGroup : ProcessGroup) (device : Fin cpuGroup.ranks.length → Device) (uniqueName : String)
  (hoststaged : Bool)

/-- For inputs of shape s, whatever their elements and their arithmetic are, rank r gets the
r-th chunk along axis dim of the sum. -/
def ScattersAlong (s : List Nat) (dim : Int) : Prop :=
  ∀ (V O : Type) (num : Numerics V) (dt : DType) (x : Fin cpuGroup.ranks.length → Tensor V), Uniform s dt x →
    Script.Completes (meaning (O := O) num)
      (fun r => (groupMember cpuGroup deviceGroup device uniqueName hoststaged r).reduceScatter num (x r) dim)
        fun y => ∀ r, sumChunk num hoststaged x (axisOf s dim) r = .ok (y r) ∧
          (y r).shape = s.set (axisOf s dim) (s.getD (axisOf s dim) 0 / cpuGroup.ranks.length)

variable {cpuGroup deviceGroup device uniqueName hoststaged} {s : List Nat} {dim : Int}

private theorem cyclicUpTo_of_le_one {d : Nat} (hd : d ≤ 1) (s : List Nat) : CyclicUpTo d s := by
  match d, s with
  | 0, [] => rfl
  | 0, a :: s => simp [CyclicUpTo]
  | 1, [] => rfl
  | 1, [a] => simp [CyclicUpTo]
  | 1, a :: b :: s => simp [CyclicUpTo, List.rotate]

/-- The elements are the chunk's: because both moves are inverse to each other, or because
there are none. -/
private theorem pulls_chunk {d start : Nat} {u : List Nat} {xs : List V} (hd : d < s.length)
    (hlen : xs.length = s.prod) (hu : u.length = s.length) (h : d ≤ 1 ∨ s.prod = 0) :
    pullData u s (scatterSource d start) xs = pullData u s (shift d start) xs := by
  rcases h with h | h
  · apply pullData_congr
    intro i hi
    have hi' : i.length = s.length := (mem_indices.mp hi).length_eq.trans hu
    exact scatterSource_eq_shift h (by omega)
  · rw [List.length_eq_zero_iff.mp (hlen.trans h), pullData_nil, pullData_nil]

theorem scattersAlong_of_axis (hvalid : -(s.length : Int) ≤ dim ∧ dim < s.length)
    (hdvd : s.getD (axisOf s dim) 0 % cpuGroup.ranks.length = 0)
    (h : axisOf s dim ≤ 1 ∨ s.prod = 0 ∧ CyclicUpTo (axisOf s dim) s) :
    ScattersAlong cpuGroup deviceGroup device uniqueName hoststaged s dim := by
  intro V O num dt x hx
  have hd := axisOf_lt hvalid
  have hdim : ∀ r, normDim (x r) dim = axisOf s dim := fun r => normDim_eq_axisOf hvalid (hx r).1
  generalize axisOf s dim = d at *
  have hget : s.getD d 0 = s[d] := by simp [hd]
  rw [hget] at hdvd ⊢
  have hcyclic : CyclicUpTo d s := h.elim (cyclicUpTo_of_le_one · s) And.right
  have hfront := front_eq_of_cyclic hd hcyclic
  have hshape := (scatteredShape_eq_iff hd hdvd (hfront ▸ hdvd)).mpr hcyclic
  apply (reduceScatter_scatters hx hd hdim (hfront ▸ hdvd)).mono
  intro y hy r
  obtain ⟨z, hz, hzshape, hscattered⟩ := hy r
  obtain ⟨u, hu, hushape, hudata, hudevice, hudtype⟩ := sumChunk_exists hz hzshape hd hdvd
  have hyu : u = y r := by
    apply Tensor.ext'
    · rw [hushape, hscattered.shape, hshape]
    · have hlen : z.data.length = s.prod := by rw [z.wf, hzshape]
      rw [hudata, hscattered.data, hshape, hfront]
      exact (pulls_chunk hd hlen List.length_set (h.imp_right And.left)).symm
    · rw [hudevice, hscattered.device]
    · rw [hudtype, hscattered.dtype]
  exact ⟨hu.trans (congrArg _ hyu), hscattered.shape.trans hshape⟩

/-- Rank 0 holds the positions of its elements, the other ranks hold zeros. -/
def positionsInput (s : List Nat) {W : Nat} (r : Fin W) : Tensor Int where
  shape := s
  data := if (r : Nat) = 0 then (List.range s.prod).map Int.ofNat else List.replicate s.prod 0
  wf := by split <;> simp
  device := .accelerator .xpu r
  dtype := .float32

theorem positionsInput_uniform (s : List Nat) (W : Nat) :
    Uniform s .float32 (positionsInput s (W := W)) := fun _ => ⟨rfl, rfl⟩

private theorem sum_zeros {n : Nat} (dtype : DType) {xs : List Int} (hx : xs.length = n) {yss : List (List Int)}
    (h : ∀ ys ∈ yss, ys = List.replicate n 0) : sumData intNumerics dtype (xs :: yss) = xs := by
  rw [sumData]
  induction yss with
  | nil => rfl
  | cons ys yss ih =>
    rw [List.forall_mem_cons] at h
    obtain ⟨rfl, hys⟩ := h
    have hadd : List.zipWith (intNumerics.add dtype) xs (List.replicate n 0) = xs := by
      apply List.ext_getElem
      · simp [hx]
      · intro i _ _
        simp [intNumerics]
    rw [List.foldl_cons, hadd, ih hys]

theorem positionsInput_sum {W : Nat} {r : Fin W} {z : Tensor Int}
    (hz : elementwiseSum intNumerics hoststaged (positionsInput s) r = .ok z) :
    z.data = (List.range s.prod).map Int.ofNat := by
  obtain ⟨v, hv, -, hdata, -⟩ := elementwiseSum_exists intNumerics hoststaged (positionsInput_uniform s W) r
  rw [hv] at hz
  cases hz
  have hcast : ∀ (u : Tensor Int) device dtype, (u.castTo intNumerics device dtype).data = u.data := by
    intro u device dtype
    rw [Tensor.castTo_data]
    split
    · rfl
    · exact List.map_id' u.data
  have hwork : ∀ r : Fin W, (workTensor intNumerics hoststaged (positionsInput s r)).data =
      (positionsInput s r).data := by
    intro r
    rw [workTensor]
    split
    · exact hcast _ _ _
    · rfl
  have hresult : (resultTensor intNumerics hoststaged (positionsInput s r) v).data = v.data := by
    rw [resultTensor]
    split
    · exact hcast _ _ _
    · rfl
  rw [hresult, hdata]
  simp only [hwork]
  cases W with
  | zero => exact r.elim0
  | succ W =>
    rw [List.ofFn_succ]
    apply sum_zeros (n := s.prod)
    · simp [positionsInput]
    · intro ys hys
      obtain ⟨i, rfl⟩ := List.mem_ofFn.mp hys
      simp [positionsInput]

/-- Beyond axis 1, rank 1 is given elements of another place. -/
private theorem misplaced {d k : Nat} (hd : 2 ≤ d) (hlt : d < s.length) (hk : 0 < k) (hfit : 2 * k ≤ s.getD d 0)
    (hs : 0 < s.prod) (hsource : ∀ i ∈ indices (s.set d k), scatterSource d (1 * k) i ∈ indices s) :
    pullData (s.set d k) s (scatterSource d (1 * k)) ((List.range s.prod).map Int.ofNat) ≠
      pullData (s.set d k) s (shift d (1 * k)) ((List.range s.prod).map Int.ofNat) := by
  intro h
  have hshift : ∀ i ∈ indices (s.set d k), shift d (1 * k) i ∈ indices s :=
    fun i hi => shift_mem_indices (by omega) hi
  have hnodup : ((List.range s.prod).map Int.ofNat).Nodup := List.nodup_range.map fun a b hab => Int.ofNat.inj hab
  have hzeros : List.replicate s.length 0 ∈ indices (s.set d k) := by
    rw [mem_indices, List.forall₂_iff_get]
    refine ⟨by simp, fun i hi hi' => ?_⟩
    have hpos : ∀ n ∈ s.set d k, 0 < n := by
      intro n hn
      rcases List.mem_or_eq_of_mem_set hn with hn | rfl
      · exact List.prod_pos_iff_forall_pos_nat.mp hs n hn
      · exact hk
    simpa using hpos _ (List.get_mem _ ⟨i, hi'⟩)
  have heq := eq_of_pullData_eq hsource hnodup (by simp) hshift h hzeros
  obtain ⟨d, rfl⟩ : ∃ e, d = e + 2 := ⟨d - 2, by omega⟩
  have hentry := congrArg (·.getD (d + 2) 0) heq
  simp only [scatterSource_replicate hlt, shift_replicate hlt] at hentry
  omega

theorem axis_of_scattersAlong (hW : 2 ≤ cpuGroup.ranks.length) (hvalid : -(s.length : Int) ≤ dim ∧ dim < s.length)
    (hdvd : s.getD (axisOf s dim) 0 % cpuGroup.ranks.length = 0)
    (h : ScattersAlong cpuGroup deviceGroup device uniqueName hoststaged s dim) :
    axisOf s dim ≤ 1 ∨ s.prod = 0 ∧ CyclicUpTo (axisOf s dim) s := by
  have : NeZero cpuGroup.ranks.length := ⟨by omega⟩
  have hx := positionsInput_uniform s cpuGroup.ranks.length
  have hd := axisOf_lt hvalid
  have hdim : ∀ r, normDim (positionsInput s r : Tensor Int) dim = axisOf s dim :=
    fun r => normDim_eq_axisOf hvalid (hx r).1
  have hrun := h Int Unit intNumerics .float32 (positionsInput s) hx
  generalize axisOf s dim = d at *
  have hget : s.getD d 0 = s[d] := by simp [hd]
  rw [hget] at hdvd hrun
  by_contra hnot
  rw [not_or, not_and_or] at hnot
  obtain ⟨hd2, hnot⟩ := hnot
  have hfront : (moveAxis 0 d s).headD 0 % cpuGroup.ranks.length = 0 := by
    by_contra hfront
    exact Script.not_completes_of_raises (reduceScatter_raises hoststaged hx hd hdim hfront) hrun
  obtain ⟨y, hchunk, hscattered⟩ := hrun.both (reduceScatter_scatters hx hd hdim hfront)
  let r : Fin cpuGroup.ranks.length := ⟨1, hW⟩
  obtain ⟨hu, hushape⟩ := hchunk r
  obtain ⟨z, hz, hzshape, hy⟩ := hscattered r
  have hcyclic : CyclicUpTo d s := (scatteredShape_eq_iff hd hdvd hfront).mp (hy.shape.symm.trans hushape)
  have hs : 0 < s.prod := Nat.pos_of_ne_zero (hnot.resolve_right (not_not_intro hcyclic))
  obtain ⟨u, hu', -, hudata, -⟩ := sumChunk_exists hz hzshape hd hdvd
  cases hu.symm.trans hu'
  have hdata := hy.data
  rw [← hy.shape, hushape, front_eq_of_cyclic hd hcyclic, hudata, positionsInput_sum hz] at hdata
  have hpos : 0 < s[d] := List.prod_pos_iff_forall_pos_nat.mp hs _ (List.getElem_mem hd)
  have hle := Nat.le_of_dvd hpos (Nat.dvd_of_mod_eq_zero hdvd)
  refine misplaced (by omega) hd (Nat.div_pos hle (by omega)) ?_ hs ?_ hdata.symm
  · rw [hget]
    exact (Nat.mul_le_mul_right _ hW).trans (Nat.mul_div_le _ _)
  · have hsource := scatterSource_mem hd hfront r
    rwa [← hy.shape, hushape, front_eq_of_cyclic hd hcyclic] at hsource

/-- reduce_scatter hands out the chunks along axes 0 and 1. Along a later axis the two moves are
not inverse to each other, and the result is right only for tensors without elements whose
shape does not show it. -/
theorem scattersAlong_iff (hW : 2 ≤ cpuGroup.ranks.length) (hvalid : -(s.length : Int) ≤ dim ∧ dim < s.length)
    (hdvd : s.getD (axisOf s dim) 0 % cpuGroup.ranks.length = 0) :
    ScattersAlong cpuGroup deviceGroup device uniqueName hoststaged s dim ↔
      axisOf s dim ≤ 1 ∨ s.prod = 0 ∧ CyclicUpTo (axisOf s dim) s :=
  ⟨axis_of_scattersAlong hW hvalid hdvd, scattersAlong_of_axis hvalid hdvd⟩

theorem matrix_scattersAlong : ScattersAlong pairCpuGroup pairDeviceGroup pairDevice "tp:0" true [3, 4] (-1) := by
  have hvalid : -(([3, 4] : List Nat).length : Int) ≤ -1 ∧ (-1 : Int) < ([3, 4] : List Nat).length := by decide
  exact (scattersAlong_iff (by decide) hvalid (by decide)).mpr (.inl (by decide))

/-- With three axes, the last one, which is the default, comes back undivided. -/
theorem cube_misplaced : ¬ ScattersAlong pairCpuGroup pairDeviceGroup pairDevice "tp:0" true [2, 4, 6] (-1) := by
  have hvalid : -(([2, 4, 6] : List Nat).length : Int) ≤ -1 ∧ (-1 : Int) < ([2, 4, 6] : List Nat).length := by decide
  intro h
  have haxis := axis_of_scattersAlong (by decide) hvalid (by decide) h
  revert haxis
  decide

end Property

end B70DualTP.Communicator
