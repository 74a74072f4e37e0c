import B70DualTP.Library.Reindexing
import B70DualTP.Torch.Distributed

/-! What the collectives reply when the members' arguments match: the replies exist, and
their shapes and elements are known. -/
namespace B70DualTP.Torch
open Library
variable {V O A : Type} (num : Numerics V)

namespace Tensor
variable {t : Tensor V}

theorem fill_exists {xs : List V} (h : xs.length = t.shape.prod) :
    ∃ u, t.fill xs = .ok u ∧ u.shape = t.shape ∧ u.data = xs ∧ u.device = t.device ∧ u.dtype = t.dtype :=
  ⟨_, fill_eq_ok h, rfl, rfl, rfl, rfl⟩

/-- Moving an axis pulls the elements along the inverse move. -/
theorem movedim_pulls {i j : Nat} (hi : i < t.shape.length) (hj : j < t.shape.length) :
    ∃ u, t.movedim i j = .ok u ∧ u.shape = moveAxis i j t.shape ∧
      u.data = NDArray.pullData (moveAxis i j t.shape) t.shape (moveAxis j i) t.data ∧
        u.device = t.device ∧ u.dtype = t.dtype := by
  have hk : ∀ k ∈ indices (moveAxis i j t.shape), moveAxis j i k ∈ indices t.shape :=
    fun _ hk => moveAxis_mem_indices hi hj hk
  have hm : t.movedim? i j = some (t.reindex _ _ hk) := dif_pos ⟨hi, hj⟩
  refine ⟨t.withArray (t.reindex _ _ hk), ?_, rfl, rfl, rfl, rfl⟩
  simp only [movedim, wrapIndex_natCast hi, wrapIndex_natCast hj, hm]

/-- Moving the first axis to the front moves nothing. -/
theorem movedim_front_exists {n : Nat} {s : List Nat} (hs : t.shape = n :: s) :
    ∃ u, t.movedim 0 0 = .ok u ∧ u.shape = t.shape ∧ u.data = t.data ∧ u.device = t.device ∧ u.dtype = t.dtype := by
  have hlen : 0 < t.shape.length := by
    rw [hs]
    exact Nat.succ_pos _
  obtain ⟨u, hu, hshape, hdata, hdevice, hdtype⟩ := movedim_pulls hlen hlen
  have hfront : moveAxis 0 0 t.shape = t.shape := by
    rw [hs]
    rfl
  have hstay : ∀ i ∈ indices t.shape, moveAxis 0 0 i = i := by
    intro i hi
    rw [hs, mem_indices] at hi
    cases hi
    rfl
  refine ⟨u, hu, hshape.trans hfront, ?_, hdevice, hdtype⟩
  rw [hdata, hfront]
  exact NDArray.pullData_id hstay t.wf

theorem reshape_exists {s : List Nat} (h : t.shape.prod = s.prod) :
    ∃ u, t.reshape s = .ok u ∧ u.shape = s ∧ u.data = t.data ∧ u.device = t.device ∧ u.dtype = t.dtype :=
  ⟨_, reshape_eq_ok h, rfl, rfl, rfl, rfl⟩

end Tensor

theorem length_sumData {n : Nat} (dtype : DType) {xss : List (List V)} (hne : xss ≠ [])
    (h : ∀ xs ∈ xss, xs.length = n) : (sumData num dtype xss).length = n := by
  cases xss with
  | nil => exact absurd rfl hne
  | cons xs xss =>
    rw [List.forall_mem_cons] at h
    obtain ⟨hx, hxs⟩ := h
    clear hne
    simp only [sumData]
    induction xss generalizing xs with
    | nil => exact hx
    | cons ys xss ih =>
      rw [List.forall_mem_cons] at hxs
      refine ih _ ?_ hxs.2
      rw [List.length_zipWith, hx, hxs.1, Nat.min_self]

/-- Elementwise sums commute with whatever commutes with adding two lists. -/
theorem sumData_map (dtype : DType) {f : List V → List V} (hnil : f [] = [])
    (hadd : ∀ xs ys, f (List.zipWith (num.add dtype) xs ys) = List.zipWith (num.add dtype) (f xs) (f ys))
    (xss : List (List V)) : sumData num dtype (xss.map f) = f (sumData num dtype xss) := by
  cases xss with
  | nil => exact hnil.symm
  | cons xs xss =>
    simp only [sumData, List.map_cons]
    induction xss generalizing xs with
    | nil => rfl
    | cons ys xss ih => rw [List.map_cons, List.foldl_cons, ← hadd, ih, List.foldl_cons]

section Rows
variable {W : Nat}

theorem mapM_ofFn {C : Type} {sel : C → Option A} {c : Fin W → C} {a : Fin W → A} (h : ∀ r, sel (c r) = some (a r)) :
    (List.ofFn c).mapM sel = some (List.ofFn a) := by
  induction W with
  | zero => rfl
  | succ W ih => simp [List.ofFn_succ, h, ih fun r => h r.succ]

private theorem filterMap_ofFn {B C : Type} {f : B → Option C} {b : Fin W → B} {c : Fin W → C}
    (h : ∀ r, f (b r) = some (c r)) : (List.ofFn b).filterMap f = List.ofFn c := by
  induction W with
  | zero => rfl
  | succ W ih => simp [List.ofFn_succ, h, ih fun r => h r.succ]

theorem gatherArgs_ofFn {sel : Call V O → Option A} {c : Fin W → Call V O} {a : Fin W → A}
    (h : ∀ r, sel (c r) = some (a r)) : gatherArgs sel (List.ofFn c) = .ok (List.ofFn a) := by
  rw [gatherArgs, mapM_ofFn h]

private theorem ofFn_ne_nil (r : Fin W) (f : Fin W → A) : List.ofFn f ≠ [] := by
  rintro h
  have hl := congrArg List.length h
  rw [List.length_ofFn] at hl
  exact absurd r.2 (by simp [hl])

private theorem forall_ofFn {f : Fin W → A} {p : A → Prop} (h : ∀ r, p (f r)) : ∀ a ∈ List.ofFn f, p a := by
  intro a ha
  obtain ⟨r, rfl⟩ := List.mem_ofFn.mp ha
  exact h r

theorem forall₂_ofFn {B : Type} {p : A → B → Prop} {f : Fin W → A} {f' : Fin W → B} (h : ∀ r, p (f r) (f' r)) :
    List.Forall₂ p (List.ofFn f) (List.ofFn f') := by
  induction W with
  | zero => exact .nil
  | succ W ih =>
    rw [List.ofFn_succ, List.ofFn_succ]
    exact .cons (h 0) (ih fun r => h r.succ)

private theorem map_data (t : Fin W → Tensor V) :
    (List.ofFn t).map (·.data) = List.ofFn fun r => (t r).data := List.map_ofFn

private theorem require_pos {p : Prop} [Decidable p] (h : p) : require p = .ok () := if_pos h

variable {g : ProcessGroup} {t : Fin W → Tensor V}

theorem meaning_allReduce (hc : ∀ r s, (t s).Compatible (t r)) (r : Fin W) :
    ∃ u : Tensor V, meaning (O := O) num (fun r => .allReduce (t r) g) r = .ok u ∧ u.shape = (t r).shape ∧
      u.data = sumData num (t r).dtype (List.ofFn fun s => (t s).data) ∧
        u.device = (t r).device ∧ u.dtype = (t r).dtype := by
  have hargs : gatherArgs (selAllReduce g) (List.ofFn fun r => (Call.allReduce (t r) g : Call V O)) =
      .ok (List.ofFn t) := gatherArgs_ofFn fun r => if_pos rfl
  have hlen : (sumData num (t r).dtype (List.ofFn fun s => (t s).data)).length = (t r).shape.prod := by
    refine length_sumData num _ (ofFn_ne_nil r _) (forall_ofFn fun s => ?_)
    rw [(t s).wf, (hc r s).1]
  obtain ⟨u, hu, hrest⟩ := Tensor.fill_exists hlen
  refine ⟨u, ?_, hrest⟩
  rw [← map_data t] at hu
  simp only [meaning, reply, hargs]
  change (require _ >>= fun _ => _) = _
  rw [require_pos (forall_ofFn (hc r))]
  exact hu

/-- The output holds the inputs one after the other, in rank order. -/
theorem meaning_allGatherIntoTensor {o : Fin W → Tensor V} (hc : ∀ r s, (t s).Compatible (t r))
    (hd : ∀ r, (o r).dtype = (t r).dtype) (hn : ∀ r, (o r).numel = W * (t r).numel) (r : Fin W) :
    ∃ u : Tensor V, meaning (O := O) num (fun r => .allGatherIntoTensor (o r) (t r) g) r = .ok u ∧
      u.shape = (o r).shape ∧ u.data = (List.ofFn t).flatMap (·.data) ∧
        u.device = (o r).device ∧ u.dtype = (o r).dtype := by
  have hargs : gatherArgs (selAllGatherIntoTensor g)
      (List.ofFn fun r => (Call.allGatherIntoTensor (o r) (t r) g : Call V O)) = .ok (List.ofFn t) :=
    gatherArgs_ofFn fun r => if_pos rfl
  have hlen : ((List.ofFn t).flatMap (·.data)).length = (o r).shape.prod := by
    have hl : ∀ u ∈ List.ofFn t, u.data.length = (t r).numel :=
      forall_ofFn fun s => by rw [(t s).wf, (hc r s).1]; rfl
    rw [List.length_flatMap, List.map_congr_left hl, List.map_const', List.sum_replicate, List.length_ofFn]
    exact (hn r).symm
  obtain ⟨u, hu, hrest⟩ := Tensor.fill_exists hlen
  refine ⟨u, ?_, hrest⟩
  simp only [meaning, reply, hargs]
  change (require _ >>= fun _ => _) = _
  rw [require_pos ⟨hd r, forall_ofFn (hc r)⟩]
  exact hu

/-- Rank r gets the r-th part of the sum. -/
theorem meaning_reduceScatterTensor {o : Fin W → Tensor V} (hc : ∀ r s, (t s).Compatible (t r))
    (hd : ∀ r, (o r).dtype = (t r).dtype) (hn : ∀ r, (t r).numel = W * (o r).numel) (r : Fin W) :
    ∃ u : Tensor V, meaning (O := O) num (fun r => .reduceScatterTensor (o r) (t r) g) r = .ok u ∧
      u.shape = (o r).shape ∧
        u.data = block (o r).numel r (sumData num (t r).dtype (List.ofFn fun s => (t s).data)) ∧
          u.device = (o r).device ∧ u.dtype = (o r).dtype := by
  have hargs : gatherArgs (selReduceScatterTensor g)
      (List.ofFn fun r => (Call.reduceScatterTensor (o r) (t r) g : Call V O)) = .ok (List.ofFn t) :=
    gatherArgs_ofFn fun r => if_pos rfl
  have hsum : (sumData num (t r).dtype (List.ofFn fun s => (t s).data)).length = W * (o r).numel := by
    rw [← hn r]
    refine length_sumData num _ (ofFn_ne_nil r _) (forall_ofFn fun s => ?_)
    rw [(t s).wf, (hc r s).1]
    rfl
  have hlen : (block (o r).numel r (sumData num (t r).dtype (List.ofFn fun s => (t s).data))).length =
      (o r).shape.prod := length_block (by rw [hsum]; exact Nat.mul_le_mul_right _ r.2)
  obtain ⟨u, hu, hrest⟩ := Tensor.fill_exists hlen
  refine ⟨u, ?_, hrest⟩
  rw [← map_data t] at hu
  simp only [meaning, reply, hargs, List.length_ofFn]
  change (require _ >>= fun _ => _) = _
  rw [require_pos ⟨hd r, forall_ofFn (hc r), hn r⟩]
  exact hu

/-- Rank r gets the sum of the members' r-th list entries. -/
theorem meaning_reduceScatter {o : Fin W → Tensor V} {part : Fin W → Fin W → Tensor V}
    (hc : ∀ r s i, (part s i).Compatible (part r i)) (ho : ∀ r s, (part s r).Compatible (o r)) (r : Fin W) :
    ∃ u : Tensor V, meaning (O := O) num (fun r => .reduceScatter (o r) (List.ofFn (part r)) g) r = .ok u ∧
      u.shape = (o r).shape ∧ u.data = sumData num (o r).dtype (List.ofFn fun s => (part s r).data) ∧
        u.device = (o r).device ∧ u.dtype = (o r).dtype := by
  have hargs : gatherArgs (selReduceScatter g)
      (List.ofFn fun r => (Call.reduceScatter (o r) (List.ofFn (part r)) g : Call V O)) =
        .ok (List.ofFn fun r => List.ofFn (part r)) := gatherArgs_ofFn fun r => if_pos rfl
  have hcolumn : (List.ofFn fun s => List.ofFn (part s)).filterMap (·[(r : Nat)]?) = List.ofFn fun s => part s r := by
    apply filterMap_ofFn
    intro s
    simp
  have hlen : (sumData num (o r).dtype (List.ofFn fun s => (part s r).data)).length = (o r).shape.prod := by
    refine length_sumData num _ (ofFn_ne_nil r _) (forall_ofFn fun s => ?_)
    rw [(part s r).wf, (ho r s).1]
  obtain ⟨u, hu, hrest⟩ := Tensor.fill_exists hlen
  refine ⟨u, ?_, hrest⟩
  simp only [meaning, reply, hargs]
  change (require _ >>= fun _ => _) = _
  rw [require_pos (forall_ofFn fun s => ⟨forall₂_ofFn (hc r s), by simp⟩)]
  change (require _ >>= fun _ => _) = _
  rw [hcolumn, require_pos (forall_ofFn (ho r)), map_data]
  exact hu

/-- Buffers of the right shapes and dtypes on one device receive copies on that device. -/
theorem fill_zip {device : Device} {os ts : List (Tensor V)}
    (h : List.Forall₂ (fun o u => o.Compatible u ∧ o.device = device) os ts) :
    (os.zip ts).mapM (fun p => p.1.fill p.2.data) = .ok (ts.map (·.toDevice device)) := by
  induction h with
  | nil => rfl
  | @cons o u os ts ho _ ih =>
    obtain ⟨⟨hshape, hdtype⟩, hdevice⟩ := ho
    have hfill : o.fill u.data = .ok (u.toDevice device) := by
      rw [Tensor.fill_eq_ok (u.wf.trans (by rw [hshape]))]
      exact congrArg _ (Tensor.ext' hshape rfl hdevice hdtype)
    rw [List.zip_cons_cons, List.mapM_cons, hfill, ih]
    rfl

theorem fits_replicate {o : Tensor V} {ts : List (Tensor V)} (h : ∀ u ∈ ts, o.Compatible u) :
    List.Forall₂ (fun o' u => o'.Compatible u ∧ o'.device = o.device) (List.replicate ts.length o) ts := by
  induction ts with
  | nil => exact .nil
  | cons u ts ih =>
    rw [List.forall_mem_cons] at h
    exact .cons ⟨h.1, rfl⟩ (ih h.2)

private theorem compatible_of_fits {device : Device} {os ts : List (Tensor V)}
    (h : List.Forall₂ (fun o u => o.Compatible u ∧ o.device = device) os ts) :
    List.Forall₂ Tensor.Compatible os ts := h.imp fun _ _ h => h.1

/-- Every member receives all tensors, on the device of its own buffers. -/
theorem meaning_allGather {os : Fin W → List (Tensor V)} {device : Fin W → Device}
    (hd : ∀ r s, (t s).dtype = (t r).dtype)
    (ho : ∀ r, List.Forall₂ (fun o u => o.Compatible u ∧ o.device = device r) (os r) (List.ofFn t)) (r : Fin W) :
    meaning (O := O) num (fun r => .allGather (os r) (t r) g) r =
      .ok (List.ofFn fun s => (t s).toDevice (device r)) := by
  have hargs : gatherArgs (selAllGather g) (List.ofFn fun r => (Call.allGather (os r) (t r) g : Call V O)) =
      .ok (List.ofFn t) := gatherArgs_ofFn fun r => if_pos rfl
  simp only [meaning, reply, hargs]
  change (require _ >>= fun _ => _) = _
  rw [require_pos ⟨compatible_of_fits (ho r), forall_ofFn (hd r)⟩]
  change (List.zip _ _).mapM _ = _
  rw [fill_zip (ho r), List.map_ofFn]
  rfl

/-- A list that has not one buffer for every member is refused. -/
theorem meaning_allGather_short {os : Fin W → List (Tensor V)} {r : Fin W} (hlen : (os r).length ≠ W) :
    meaning (O := O) num (fun r => .allGather (os r) (t r) g) r = .error .distributedError := by
  have hargs : gatherArgs (selAllGather g) (List.ofFn fun r => (Call.allGather (os r) (t r) g : Call V O)) =
      .ok (List.ofFn t) := gatherArgs_ofFn fun r => if_pos rfl
  simp only [meaning, reply, hargs]
  change (require _ >>= fun _ => _) = _
  rw [require, if_neg]
  · rfl
  · rintro ⟨h, -⟩
    rw [← List.length_ofFn (f := t)] at hlen
    exact hlen h.length_eq

/-- The member with the destination's rank receives all tensors, the others nothing. -/
theorem meaning_gather {os : Fin W → Option (List (Tensor V))} {dst : Fin W} {device : Device}
    (hg : g.ranks.Nodup) {rank : Nat} (hdst : g.ranks[(dst : Nat)]? = some rank)
    (hc : ∀ r s, (t s).Compatible (t r)) (hnone : ∀ r, r ≠ dst → os r = none) {out : List (Tensor V)}
    (hout : os dst = some out)
    (ho : List.Forall₂ (fun o u => o.Compatible u ∧ o.device = device) out (List.ofFn t)) (r : Fin W) :
    meaning (O := O) num (fun r => .gather (t r) (os r) rank g) r =
      .ok (if r = dst then some (List.ofFn fun s => (t s).toDevice device) else none) := by
  have hargs : gatherArgs (selGather rank g) (List.ofFn fun r => (Call.gather (t r) (os r) rank g : Call V O)) =
      .ok (List.ofFn t) := gatherArgs_ofFn fun r => if_pos ⟨rfl, rfl⟩
  have hrank : g.ranks[(r : Nat)]? = some rank ↔ r = dst := by
    constructor
    · intro hr
      have hlt : (r : Nat) < g.ranks.length := (List.getElem?_eq_some_iff.mp hr).1
      exact Fin.ext ((List.getElem?_inj hlt hg).mp (hr.trans hdst.symm))
    · rintro rfl
      exact hdst
  simp only [meaning, reply, hargs]
  change (require _ >>= fun _ => _) = _
  rcases eq_or_ne r dst with rfl | hr
  · rw [require_pos ⟨forall_ofFn (hc r), by simp [hdst, hout]⟩]
    simp only [hout, if_true]
    change (require _ >>= fun _ => _) = _
    rw [require_pos (compatible_of_fits ho), fill_zip ho, List.map_ofFn]
    rfl
  · rw [require_pos ⟨forall_ofFn (hc r), by simp [hrank, hr, hnone r hr]⟩]
    simp only [hnone r hr, if_neg hr]
    rfl

/-- A global rank is found at its own place in a group without repetitions. -/
theorem groupRank?_getElem {g : ProcessGroup} (hg : g.ranks.Nodup) {k : Nat} (h : k < g.ranks.length) :
    g.groupRank? (g.ranks[k] : Nat) = some k := by
  rw [ProcessGroup.groupRank?, List.findIdx?_eq_some_iff_getElem]
  refine ⟨h, by simp, fun j hj => ?_⟩
  have hne : g.ranks[j] ≠ g.ranks[k] := fun he => hj.ne ((hg.getElem_inj_iff).mp he)
  simpa using hne

theorem groupRank?_eq_none {g : ProcessGroup} {src : Int} (h : ∀ rank ∈ g.ranks, (rank : Int) ≠ src) :
    g.groupRank? src = none := by
  rw [ProcessGroup.groupRank?, List.findIdx?_eq_none_iff]
  intro rank hrank
  simpa using h rank hrank

variable {root : Fin W} {src : Int} (hroot : g.groupRank? src = some root)
include hroot

/-- Every member ends with the elements of the root. -/
theorem meaning_broadcast (hc : ∀ r s, (t s).Compatible (t r)) (r : Fin W) :
    ∃ u : Tensor V, meaning (O := O) num (fun r => .broadcast (t r) src g) r = .ok u ∧
      u.shape = (t r).shape ∧ u.data = (t root).data ∧ u.device = (t r).device ∧ u.dtype = (t r).dtype := by
  have hargs : gatherArgs (selBroadcast src g) (List.ofFn fun r => (Call.broadcast (t r) src g : Call V O)) =
      .ok (List.ofFn t) := gatherArgs_ofFn fun r => if_pos ⟨rfl, rfl⟩
  have hsel : (g.groupRank? src).bind (fun k => (List.ofFn t)[k]?) = some (t root) := by simp [hroot]
  have hlen : (t root).data.length = (t r).shape.prod := by rw [(t root).wf, (hc r root).1]
  obtain ⟨u, hu, hrest⟩ := Tensor.fill_exists hlen
  refine ⟨u, ?_, hrest⟩
  simp only [meaning, reply, hargs, Bind.bind, Except.bind, hsel]
  rw [← hu]
  change (require _ >>= fun _ => _) = _
  rw [require_pos (forall_ofFn (hc r))]
  rfl

omit hroot in
/-- A source that is no member is refused on every rank. -/
theorem meaning_broadcast_missing (hmissing : g.groupRank? src = none) (r : Fin W) :
    meaning (O := O) num (fun r => .broadcast (t r) src g) r = .error .distributedError := by
  have hargs : gatherArgs (selBroadcast src g) (List.ofFn fun r => (Call.broadcast (t r) src g : Call V O)) =
      .ok (List.ofFn t) := gatherArgs_ofFn fun r => if_pos ⟨rfl, rfl⟩
  simp only [meaning, reply, hargs, hmissing, Option.bind_none]
  rfl

/-- Every member gets the object of the root. -/
theorem meaning_broadcastObjectList (object : Fin W → Option O) {o : O} (ho : object root = some o) (r : Fin W) :
    meaning (V := V) num (fun r => .broadcastObjectList (object r) src g) r = .ok o := by
  have hargs : gatherArgs (selBroadcastObjectList src g)
      (List.ofFn fun r => (Call.broadcastObjectList (object r) src g : Call V O)) = .ok (List.ofFn object) :=
    gatherArgs_ofFn fun r => if_pos ⟨rfl, rfl⟩
  have hsel : ((g.groupRank? src).bind fun k => (List.ofFn object)[k]?).join = some o := by simp [hroot, ho]
  simp only [meaning, reply, hargs, Bind.bind, Except.bind, hsel]

omit hroot in
/-- The message queue delivers the object of the first member. -/
theorem meaning_mqBroadcastObject [NeZero W] {object : Fin W → Option O} {o : O} (ho : object 0 = some o)
    (r : Fin W) : meaning (V := V) num (fun r => .mqBroadcastObject (object r)) r = .ok o := by
  have hargs : gatherArgs selMqBroadcastObject
      (List.ofFn fun r => (Call.mqBroadcastObject (object r) : Call V O)) = .ok (List.ofFn object) :=
    gatherArgs_ofFn fun r => rfl
  have hhead : (List.ofFn object).head?.join = some o := by
    rw [List.head?_eq_getElem?, List.getElem?_ofFn, dif_pos (NeZero.pos W)]
    exact ho
  simp only [meaning, reply, hargs, Bind.bind, Except.bind, hhead]

end Rows
end B70DualTP.Torch
