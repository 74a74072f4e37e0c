import Mathlib.Data.List.Rotate
import B70DualTP.Communicator.Xpu
import B70DualTP.Torch.Collectives

/-! The runs of the collectives on inputs of one shape and dtype, and the shapes of what
they return. -/
namespace B70DualTP.Communicator
open Library Torch
variable {V O : Type} (num : Numerics V)

/-- The tensors of all ranks have one shape and one dtype. -/
def Uniform {W : Nat} (shape : List Nat) (dtype : DType) (t : Fin W → Tensor V) : Prop :=
  ∀ r, (t r).shape = shape ∧ (t r).dtype = dtype

theorem Uniform.compatible {W : Nat} {s : List Nat} {dt : DType} {t : Fin W → Tensor V} (h : Uniform s dt t)
    (r r' : Fin W) : (t r').Compatible (t r) :=
  ⟨(h r').1.trans (h r).1.symm, (h r').2.trans (h r).2.symm⟩

section Steps
variable {t : Tensor V}

def axisOf (s : List Nat) (dim : Int) : Nat := (if dim < 0 then dim + s.length else dim).toNat

theorem axisOf_lt {s : List Nat} {dim : Int} (h : -(s.length : Int) ≤ dim ∧ dim < s.length) :
    axisOf s dim < s.length := by
  rw [axisOf]
  split <;> omega

theorem normDim_eq_axisOf {s : List Nat} {dim : Int} (h : -(s.length : Int) ≤ dim ∧ dim < s.length)
    (hs : t.shape = s) : normDim t dim = axisOf s dim := by
  rw [normDim, axisOf, hs]
  split <;> omega

theorem normDim_eq {dim : Int} (h : -(t.shape.length : Int) ≤ dim ∧ dim < t.shape.length) :
    ∃ d, d < t.shape.length ∧ normDim t dim = d ∧ wrapIndex t.shape.length dim = some d := by
  refine ⟨(if dim < 0 then dim + t.shape.length else dim).toNat, ?_, ?_, ?_⟩
  · split <;> omega
  · rw [normDim]
    split <;> omega
  · rw [wrapIndex, if_pos]
    split <;> omega

end Steps

section Runs
variable {num} {cpuGroup deviceGroup : ProcessGroup} {device : Fin cpuGroup.ranks.length → Device}
  {uniqueName : String} (hoststaged : Bool) {s : List Nat} {dt : DType}
  {x : Fin cpuGroup.ranks.length → Tensor V}

theorem allReduce_completes (hx : Uniform s dt x) :
    Script.Completes (meaning (O := O) num)
      (fun r => (groupMember cpuGroup deviceGroup device uniqueName hoststaged r).allReduce num (x r))
        (Uniform s dt) := by
  cases hoststaged with
  | false =>
    have hbind : ∀ r, (groupMember cpuGroup deviceGroup device uniqueName false r).allReduce num (x r) =
        (Dist.allReduce (x r) deviceGroup : Dist V O _) >>= pure := fun r => (bind_pure _).symm
    simp only [hbind]
    refine Script.completes_ask (meaning_allReduce num hx.compatible) fun y hy => Script.completes_pure ?_
    exact fun r => ⟨(hy r).1.trans (hx r).1, (hy r).2.2.2.trans (hx r).2⟩
  | true =>
    have hc : Uniform s (reduceDType dt) fun r => (x r).castTo num .cpu (reduceDType (x r).dtype) :=
      fun r => ⟨((x r).castTo_shape num _ _).trans (hx r).1, by rw [Tensor.castTo_dtype, (hx r).2]⟩
    refine Script.completes_ask (meaning_allReduce num hc.compatible) fun y hy => Script.completes_pure ?_
    intro r
    rw [Tensor.castTo_shape, (hy r).1]
    exact ⟨(hc r).1, (hx r).2⟩

private theorem movedim_front (hx : Uniform s dt x) {d : Nat} (hd : d < s.length) :
    ∃ n m, moveAxis 0 d s = n :: m ∧
      ∀ r, ∃ t, (x r).movedim 0 d = .ok t ∧ t.shape = n :: m ∧ t.dtype = dt := by
  have hlen : (moveAxis 0 d s).length = s.length := length_moveAxis (by omega) hd
  obtain ⟨n, m, hm⟩ : ∃ n m, moveAxis 0 d s = n :: m := by
    cases hc : moveAxis 0 d s with
    | nil => rw [hc] at hlen; simp at hlen; omega
    | cons n m => exact ⟨n, m, rfl⟩
  refine ⟨n, m, hm, fun r => ?_⟩
  have hs : (x r).shape = s := (hx r).1
  obtain ⟨t, ht, hts, -, -, htt⟩ := Tensor.movedim_pulls (t := x r) (i := 0) (j := d)
    (by rw [hs]; omega) (by rw [hs]; exact hd)
  exact ⟨t, ht, by rw [hts, hs, hm], htt.trans (hx r).2⟩

/-- reduce_scatter moves axis 0 to position dim, divides the axis that is then in front,
and moves that one to position dim. -/
def scatteredShape (worldSize d : Nat) (s : List Nat) : List Nat :=
  moveAxis 0 d ((moveAxis 0 d s).headD 0 / worldSize :: (moveAxis 0 d s).drop 1)

theorem reduceScatter_completes (hx : Uniform s dt x) {d : Nat} (hd : d < s.length) {dim : Int}
    (hdim : ∀ r, normDim (x r) dim = d) (hdvd : (moveAxis 0 d s).headD 0 % cpuGroup.ranks.length = 0) :
    Script.Completes (meaning (O := O) num)
      (fun r => (groupMember cpuGroup deviceGroup device uniqueName hoststaged r).reduceScatter num (x r) dim)
        (Uniform (scatteredShape cpuGroup.ranks.length d s) dt) := by
  have hlen : (moveAxis 0 d s).length = s.length := length_moveAxis (by omega) hd
  obtain ⟨n, m, hm, hmove⟩ := movedim_front hx hd
  rw [hm, List.headD_cons] at hdvd
  simp only [XpuCommunicator.reduceScatter, groupMember, hdim, Script.liftM_eq, Tensor.contiguous]
  apply Script.completes_lift hmove
  intro t ht
  have ht' : Uniform (n :: m) dt t := ht
  have hts : ∀ r, (t r).shape = n :: m := fun r => (ht r).1
  simp only [hts, getItem_zero, List.drop_succ_cons, List.drop_zero, Script.lift_ok, pure_bind]
  refine Script.completes_lift (P := fun _ _ => True) (fun r => ⟨(), if_pos hdvd, trivial⟩) fun _ _ => ?_
  have hnum : ∀ u o : Tensor V, u.shape = n :: m → o.shape = n / cpuGroup.ranks.length :: m →
      u.numel = cpuGroup.ranks.length * o.numel := by
    intro u o hu ho
    rw [NDArray.numel, NDArray.numel, hu, ho, List.prod_cons, List.prod_cons, ← Nat.mul_assoc,
      Nat.mul_div_cancel' (Nat.dvd_of_mod_eq_zero hdvd)]
  have hback : ∀ u : Tensor V, u.shape = n / cpuGroup.ranks.length :: m → u.dtype = dt → ∃ v,
      u.movedim 0 d = .ok v ∧ v.shape = scatteredShape cpuGroup.ranks.length d s ∧ v.dtype = dt := by
    intro u hu hut
    have hl : u.shape.length = s.length := by rw [hu, ← hlen, hm]; rfl
    obtain ⟨v, hv, hvs, -, -, hvt⟩ := Tensor.movedim_pulls (t := u) (i := 0) (j := d) (by omega) (by omega)
    exact ⟨v, hv, by rw [hvs, hu, scatteredShape, hm]; rfl, hvt.trans hut⟩
  cases hoststaged with
  | false =>
    simp only [Bool.false_eq_true, if_false]
    refine Script.completes_ask (meaning_reduceScatterTensor num ht'.compatible (fun r => rfl)
      (fun r => hnum _ _ (hts r) rfl)) fun y hy => ?_
    exact Script.completes_lift (fun r => hback (y r) (hy r).1 ((hy r).2.2.2.trans (ht r).2))
      fun v hv => Script.completes_pure hv
  | true =>
    have hc : Uniform (n :: m) (reduceDType dt) fun r => (t r).castTo num .cpu (reduceDType (t r).dtype) :=
      fun r => ⟨((t r).castTo_shape num _ _).trans (hts r), by rw [Tensor.castTo_dtype, (ht r).2]⟩
    simp only [if_true]
    refine Script.completes_ask (meaning_reduceScatterTensor num hc.compatible (fun r => rfl)
      (fun r => hnum _ _ (hc r).1 rfl)) fun y hy => ?_
    exact Script.completes_lift (fun r => hback (Tensor.castTo num (y r) (t r).device (t r).dtype)
      ((Tensor.castTo_shape num (y r) _ _).trans (hy r).1) (ht r).2) fun v hv => Script.completes_pure hv

/-- When the axis in front is not divisible, every rank raises before it communicates. -/
theorem reduceScatter_raises (hx : Uniform s dt x) {d : Nat} (hd : d < s.length) {dim : Int}
    (hdim : ∀ r, normDim (x r) dim = d) (hdvd : (moveAxis 0 d s).headD 0 % cpuGroup.ranks.length ≠ 0) :
    Script.Runs (meaning (O := O) num)
      (fun r => (groupMember cpuGroup deviceGroup device uniqueName hoststaged r).reduceScatter num (x r) dim)
        [] (fun _ => .error (.assertionError "")) := by
  obtain ⟨n, m, hm, hmove⟩ := movedim_front hx hd
  rw [hm, List.headD_cons] at hdvd
  apply Prog.GroupRun.of_ret
  intro r
  obtain ⟨t, ht, hts, -⟩ := hmove r
  have hassert : assert (n % cpuGroup.ranks.length = 0) "" = .error (.assertionError "") := if_neg hdvd
  simp only [XpuCommunicator.reduceScatter, groupMember, hdim, Script.liftM_eq, Tensor.contiguous, ht,
    Script.lift_ok, pure_bind, hts, getItem_zero]
  change Script.lift (assert (n % cpuGroup.ranks.length = 0) "") >>= _ = _
  rw [hassert]
  rfl

end Runs

section Rows
variable {num} {n m : Nat} {dt : DType} {comm : Fin n → XpuCommunicator} {cpuGroup deviceGroup : ProcessGroup}
  {hoststaged : Bool} {x : Fin n → Tensor V} {K : (Fin n → Call V O) → Prop}

private theorem concatAlong_rows {t : Tensor V} (ht : t.shape = [n, m]) :
    ∃ u, concatAlong n [m] 0 t = .ok u ∧ u.data = t.data ∧ u.device = t.device ∧ u.dtype = t.dtype := by
  obtain ⟨v, hv, hvs, hvdata, hvd, hvt⟩ := Tensor.movedim_front_exists ht
  have hprod : v.shape.prod = [n * m].prod := by simp [hvs, ht]
  obtain ⟨u, hu, -, hudata, hud, hut⟩ := Tensor.reshape_exists hprod
  refine ⟨u, ?_, hudata.trans hvdata, hud.trans hvd, hut.trans hvt⟩
  simp only [concatAlong, hv]
  exact hu

theorem allGather_rows (hcpu : ∀ r, (comm r).cpuGroup = cpuGroup) (hdevice : ∀ r, (comm r).deviceGroup = deviceGroup)
    (hstaged : ∀ r, (comm r).hoststaged = hoststaged) (hsize : cpuGroup.ranks.length = n)
    (hx : Uniform [m] dt x)
    (hK : ∀ o t : Fin n → Tensor V,
      K fun r => .allGatherIntoTensor (o r) (t r) (if hoststaged then cpuGroup else deviceGroup)) :
    Script.Finishes (meaning num) K (fun r => (comm r).allGather num (x r) 0) fun y =>
      ∀ r, (y r).data = (List.ofFn x).flatMap (·.data) ∧ (y r).device = (x r).device ∧ (y r).dtype = dt := by
  have hshape : ∀ r, (x r).shape = [m] := fun r => (hx r).1
  have hworld : ∀ r, (comm r).toDeviceCommunicatorBase.worldSize = n := by
    intro r
    rw [DeviceCommunicatorBase.worldSize, hcpu r, hsize]
  have hdim : ∀ r, normDim (x r) 0 = 0 := fun r => rfl
  have hnum : ∀ t o : Tensor V, t.shape = [m] → o.shape = [m * n] → o.numel = n * t.numel := by
    intro t o ht ho
    simp [NDArray.numel, ht, ho, Nat.mul_comm]
  have hstack : ∀ {t : Tensor V}, t.shape = [m * n] → t.shape.prod = [n, m].prod := by
    intro t ht
    simp [ht, Nat.mul_comm]
  cases hoststaged with
  | false =>
    simp only [XpuCommunicator.allGather, DeviceCommunicatorBase.allGather, hstaged, hworld, hshape, hdim, hdevice,
      getItem_zero, Bool.not_false, if_true, Script.liftM_eq, Script.lift_ok, pure_bind, List.drop_succ_cons,
      List.drop_nil]
    choose y hy hys hydata hyd hyt using meaning_allGatherIntoTensor (O := O) num (g := deviceGroup) hx.compatible
      (o := fun r => .empty num [m * n] (x r).dtype (x r).device) (fun r => rfl) (fun r => hnum _ _ (hshape r) rfl)
    apply Script.finishes_ask (hK _ _) hy
    refine Script.finishes_lift (fun r => Tensor.reshape_exists (hstack (hys r))) fun z hz => ?_
    refine Script.finishes_of_lift (fun r => concatAlong_rows (hz r).1) fun u hu r => ⟨?_, ?_, ?_⟩
    · rw [(hu r).1, (hz r).2.1, hydata r]
    · rw [(hu r).2.1, (hz r).2.2.1, hyd r, Tensor.empty_device]
    · rw [(hu r).2.2, (hz r).2.2.2, hyt r, Tensor.empty_dtype, (hx r).2]
  | true =>
    have hc : Uniform [m] dt fun r => (x r).toDevice .cpu := hx
    simp only [XpuCommunicator.allGather, hstaged, hworld, hshape, hdim, hcpu, getItem_zero, Bool.not_true,
      Bool.false_eq_true, if_false, Script.liftM_eq, Script.lift_ok, pure_bind, List.drop_succ_cons, List.drop_nil]
    choose y hy hys hydata _ hyt using meaning_allGatherIntoTensor (O := O) num (g := cpuGroup) hc.compatible
      (o := fun r => .empty num [m * n] (x r).dtype .cpu) (fun r => rfl) (fun r => hnum _ _ (hshape r) rfl)
    apply Script.finishes_ask (hK _ _) hy
    refine Script.finishes_lift (fun r => Tensor.reshape_exists
      (hstack (t := Tensor.toDevice (y r) (x r).device) (hys r))) fun z hz => ?_
    refine Script.finishes_of_lift (fun r => concatAlong_rows (hz r).1) fun u hu r => ⟨?_, ?_, ?_⟩
    · have hmoved : (List.ofFn fun r => (x r).toDevice .cpu) = (List.ofFn x).map (·.toDevice .cpu) := by
        rw [List.map_ofFn]
        rfl
      rw [(hu r).1, (hz r).2.1, Tensor.toDevice_data, hydata r, hmoved, List.flatMap_map]
      rfl
    · rw [(hu r).2.1, (hz r).2.2.1, Tensor.toDevice_device]
    · rw [(hu r).2.2, (hz r).2.2.2, Tensor.toDevice_dtype, hyt r, Tensor.empty_dtype, (hx r).2]

end Rows

private theorem insertIdx_append (l r : List Nat) (a : Nat) : (l ++ r).insertIdx l.length a = l ++ a :: r := by
  induction l with
  | nil => simp
  | cons b l ih => simpa using ih

private theorem split_at {s : List Nat} {d : Nat} (hd : d + 2 < s.length) :
    ∃ a b m x rest, s = a :: b :: (m ++ x :: rest) ∧ m.length = d := by
  obtain ⟨a, b, t, rfl⟩ : ∃ a b t, s = a :: b :: t := by
    match s, hd with
    | a :: b :: t, _ => exact ⟨a, b, t, rfl⟩
  have ht : d < t.length := by simpa using hd
  exact ⟨a, b, t.take d, t[d], t.drop (d + 1), by rw [← List.drop_eq_getElem_cons ht, List.take_append_drop],
    by rw [List.length_take]; omega⟩

private theorem front_split (a b x : Nat) (m rest : List Nat) :
    moveAxis 0 (m.length + 2) (a :: b :: (m ++ x :: rest)) = b :: (m ++ x :: a :: rest) := by
  have h := insertIdx_append (b :: (m ++ [x])) rest a
  have hl : (b :: (m ++ [x])).length = m.length + 2 := by simp
  rw [hl] at h
  rw [moveAxis_zero_cons]
  simpa using h

private theorem scattered_split (W a b x : Nat) (m rest : List Nat) :
    scatteredShape W (m.length + 2) (a :: b :: (m ++ x :: rest)) = (m ++ [x, a]) ++ (b / W :: rest) := by
  have h := insertIdx_append (m ++ [x, a]) rest (b / W)
  have hl : (m ++ [x, a]).length = m.length + 2 := by simp
  rw [hl] at h
  rw [scatteredShape, front_split, List.headD_cons, List.drop_succ_cons, List.drop_zero, moveAxis_zero_cons]
  simpa using h

private theorem set_split (W a b x : Nat) (m rest : List Nat) :
    (a :: b :: (m ++ x :: rest)).set (m.length + 2) (x / W) = (a :: b :: m) ++ (x / W :: rest) := by
  simp [List.set_append_right]

private theorem rotate_split (a b x : Nat) (m rest : List Nat) :
    ((a :: b :: (m ++ x :: rest)).take (m.length + 3)).rotate 2 = (m ++ [x, a]) ++ [b] ∧
      (a :: b :: (m ++ x :: rest)).take (m.length + 3) = (a :: b :: m) ++ [x] := by
  have ht : (a :: b :: (m ++ x :: rest)).take (m.length + 3) = (a :: b :: m) ++ [x] := by
    simp [List.take_append]
  rw [ht]
  refine ⟨?_, rfl⟩
  rw [List.rotate_eq_drop_append_take (by simp)]
  simp

/-- The axis that reduce_scatter divides is the requested one. -/
def CyclicUpTo (d : Nat) (s : List Nat) : Prop := (s.take (d + 1)).rotate 2 = s.take (d + 1)

instance (d : Nat) (s : List Nat) : Decidable (CyclicUpTo d s) := inferInstanceAs (Decidable (_ = _))

theorem front_eq_of_cyclic {d : Nat} {s : List Nat} (hd : d < s.length) (h : CyclicUpTo d s) :
    (moveAxis 0 d s).headD 0 = s[d] := by
  match d with
  | 0 =>
    match s, hd with
    | a :: s, _ => rfl
  | 1 =>
    match s, hd with
    | a :: b :: s, _ => rfl
  | d + 2 =>
    obtain ⟨a, b, m, x, rest, rfl, rfl⟩ := split_at hd
    obtain ⟨hr, ht⟩ := rotate_split a b x m rest
    rw [CyclicUpTo, hr, ht] at h
    have hbx := (List.append_inj' h rfl).2
    rw [front_split, List.headD_cons]
    simp only [List.getElem_cons_succ]
    rw [List.getElem_append_right (Nat.le_refl _)]
    simpa using List.head_eq_of_cons_eq hbx

/-- The shapes agree exactly when the axes up to the requested one are cyclic. -/
theorem scatteredShape_eq_iff {W d : Nat} {s : List Nat} (hd : d < s.length)
    (hdvd : s[d] % W = 0) (hfront : (moveAxis 0 d s).headD 0 % W = 0) :
    scatteredShape W d s = s.set d (s[d] / W) ↔ CyclicUpTo d s := by
  match d with
  | 0 =>
    obtain ⟨a, s, rfl⟩ := List.exists_cons_of_length_pos hd
    simp [scatteredShape, moveAxis, CyclicUpTo]
  | 1 =>
    obtain _ | ⟨a, _ | ⟨b, s⟩⟩ := s
    · cases hd
    · exact absurd hd (lt_irrefl 1)
    · simp [scatteredShape, moveAxis, CyclicUpTo, List.rotate]
  | d + 2 =>
    obtain ⟨a, b, m, x, rest, rfl, rfl⟩ := split_at hd
    obtain ⟨hr, ht⟩ := rotate_split a b x m rest
    have hx : (a :: b :: (m ++ x :: rest))[m.length + 2] = x := by simp
    have hlen : (m ++ [x, a]).length = (a :: b :: m).length := by simp
    rw [front_split, List.headD_cons] at hfront
    rw [hx] at hdvd ⊢
    have hquot : b / W = x / W ↔ b = x := by
      constructor
      · intro h
        rw [← Nat.mul_div_cancel' (Nat.dvd_of_mod_eq_zero hfront), h,
          Nat.mul_div_cancel' (Nat.dvd_of_mod_eq_zero hdvd)]
      · rintro rfl
        rfl
    have happ : ∀ r r' : List Nat, (m ++ [x, a]) ++ r = (a :: b :: m) ++ r' ↔ m ++ [x, a] = a :: b :: m ∧ r = r' :=
      fun r r' => ⟨fun h => List.append_inj h hlen, fun h => by rw [h.1, h.2]⟩
    rw [CyclicUpTo, hr, ht, scattered_split, set_split, happ, happ, List.cons.injEq, hquot]
    simp

end B70DualTP.Communicator
