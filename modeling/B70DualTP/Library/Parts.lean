import Mathlib.Data.List.FinRange
import B70DualTP.Library.Reindexing
import B70DualTP.Library.Stacking

/-! An axis in equal parts: narrowing to the parts and concatenating them are inverse to
each other. -/
namespace B70DualTP.Library.NDArray
open Library
variable {α : Type} {pre post : List Nat} {W k : Nat}

private theorem shift_append (start n : Nat) (i j : List Nat) :
    shift i.length start (i ++ n :: j) = i ++ (start + n) :: j := by
  induction i with
  | nil => rfl
  | cons m i ih => exact congrArg (m :: ·) ih

/-- Part r of an axis holds, for every leading index, the r-th of W blocks. -/
theorem pullData_part {xs : List α} (hx : xs.length = (pre ++ (W * k) :: post).prod) {r : Nat} (hr : r < W) :
    pullData (pre ++ k :: post) (pre ++ (W * k) :: post) (shift pre.length (r * k)) xs =
      (List.range pre.prod).flatMap fun p => block (k * post.prod) (p * W + r) xs := by
  have hlen : xs.length = pre.prod * W * (k * post.prod) := by
    rw [hx, List.prod_append, List.prod_cons]
    ring
  have hindex : ∀ i ∈ indices pre, ∀ j ∈ indices (k :: post),
      block 1 (ravel (pre ++ (W * k) :: post) (shift pre.length (r * k) (i ++ j))) xs =
        block 1 ((ravel pre i * W + r) * (k :: post).prod + ravel (k :: post) j) xs := by
    intro i hi j hj
    have hil : i.length = pre.length := (mem_indices.mp hi).length_eq
    obtain ⟨n, j, -, -, rfl⟩ := List.forall₂_cons_right_iff.mp (mem_indices.mp hj)
    rw [← hil, shift_append, ravel_append _ _ hil, ravel, ravel, List.prod_cons, List.prod_cons]
    ring_nf
  have hrow : ∀ i ∈ indices pre, ((indices (k :: post)).map (i ++ ·)).flatMap
      (fun i => block 1 (ravel (pre ++ (W * k) :: post) (shift pre.length (r * k) i)) xs) =
        block (k * post.prod) (ravel pre i * W + r) xs := by
    intro i hi
    have hfit : (ravel pre i * W + r + 1) * ((k :: post).prod * 1) ≤ xs.length := by
      have hrows : ravel pre i * W + r + 1 ≤ pre.prod * W := by
        have h := Nat.mul_le_mul_right W (ravel_lt hi)
        rw [Nat.succ_mul] at h
        omega
      rw [hlen, Nat.mul_one, List.prod_cons]
      exact Nat.mul_le_mul_right _ hrows
    rw [List.flatMap_map, List.flatMap_congr (hindex i hi), flatMap_indices (k :: post)
      fun q => block 1 ((ravel pre i * W + r) * (k :: post).prod + q) xs, flatMap_block_base xs hfit, Nat.mul_one,
      List.prod_cons]
  rw [pullData, indices_append, List.flatMap_assoc, List.flatMap_congr hrow]
  exact flatMap_indices pre fun p => block (k * post.prod) (p * W + r) xs

section Blocks
variable {n : Nat}

/-- Block p of lists taken one after the other. -/
private theorem block_flatMap_range {rows : Nat} {f : Nat → List α} (hf : ∀ p < rows, (f p).length = n) {p : Nat}
    (hp : p < rows) : block n p ((List.range rows).flatMap f) = f p := by
  have hall : ∀ ys ∈ (List.range rows).map f, ys.length = n := by
    intro ys hys
    obtain ⟨q, hq, rfl⟩ := List.mem_map.mp hys
    exact hf q (List.mem_range.mp hq)
  have hp' : p < ((List.range rows).map f).length := by simpa using hp
  rw [List.flatMap_def, block_flatten hall hp', List.getElem_map, List.getElem_range]

private theorem flatMap_ofFn (f : NDArray α → List α) (xs : Fin W → NDArray α) {g : Nat → List α}
    (h : ∀ r : Fin W, f (xs r) = g r) : (List.ofFn xs).flatMap f = (List.range W).flatMap g := by
  rw [List.flatMap_def, List.flatMap_def, List.map_ofFn, ← List.map_coe_finRange_eq_range, List.map_map, List.ofFn_eq_map]
  exact congrArg List.flatten (List.map_congr_left fun r _ => h r)

end Blocks

section Parts
variable {xs : Fin W → NDArray α}

/-- The parts of an axis, concatenated. -/
theorem catData_parts {ys : List α} (hy : ys.length = (pre ++ (W * k) :: post).prod)
    (hx : ∀ r : Fin W, (xs r).data =
      pullData (pre ++ k :: post) (pre ++ (W * k) :: post) (shift pre.length (r * k)) ys) :
    catData pre (k * post.prod) (List.ofFn xs) = ys := by
  have hlen : ys.length = pre.prod * (W * (k * post.prod)) := by
    rw [hy, List.prod_append, List.prod_cons]
    ring
  have hfit : ∀ p < pre.prod, (p + 1) * (W * (k * post.prod)) ≤ ys.length := by
    intro p hp
    rw [hlen]
    exact Nat.mul_le_mul_right _ hp
  have hblock : ∀ p < pre.prod, ∀ r : Fin W,
      block (k * post.prod) p (xs r).data = block (k * post.prod) (p * W + r) ys := by
    intro p hp r
    rw [hx, pullData_part hy r.2]
    refine block_flatMap_range (fun q hq => ?_) hp
    rw [← block_block ys r.2]
    apply length_block
    rw [length_block (hfit q hq)]
    exact Nat.mul_le_mul_right _ r.2
  have hrow : ∀ p ∈ List.range pre.prod, (List.ofFn xs).flatMap (fun x => block (k * post.prod) p x.data) =
      block (W * (k * post.prod)) p ys := by
    intro p hp
    have hp' := List.mem_range.mp hp
    rw [← flatMap_block_base ys (hfit p hp')]
    exact flatMap_ofFn _ xs (hblock p hp')
  rw [catData, List.flatMap_congr hrow]
  exact flatMap_block_of_length hlen

theorem part_catData (hx : ∀ r, (xs r).data.length = (pre ++ k :: post).prod) (r : Fin W) :
    pullData (pre ++ k :: post) (pre ++ (W * k) :: post) (shift pre.length (r * k))
      (catData pre (k * post.prod) (List.ofFn xs)) = (xs r).data := by
  have hlen : ∀ r, (xs r).data.length = pre.prod * (k * post.prod) := by
    intro r
    rw [hx, List.prod_append, List.prod_cons]
  have hrow : ∀ p < pre.prod, ∀ x ∈ List.ofFn xs, (block (k * post.prod) p x.data).length = k * post.prod := by
    intro p hp x hx
    obtain ⟨r, rfl⟩ := List.mem_ofFn.mp hx
    apply length_block
    rw [hlen]
    exact Nat.mul_le_mul_right _ hp
  have hrows : ∀ p < pre.prod, ((List.ofFn xs).flatMap fun x => block (k * post.prod) p x.data).length =
      W * (k * post.prod) := by
    intro p hp
    rw [List.length_flatMap, List.map_congr_left (hrow p hp), List.map_const', List.sum_replicate, List.length_ofFn,
      Nat.nsmul_eq_mul]
  have hblock : ∀ p ∈ List.range pre.prod,
      block (k * post.prod) (p * W + r) (catData pre (k * post.prod) (List.ofFn xs)) =
        block (k * post.prod) p (xs r).data := by
    intro p hp
    have hp' := List.mem_range.mp hp
    have hall : ∀ ys ∈ (List.ofFn xs).map fun x => block (k * post.prod) p x.data, ys.length = k * post.prod := by
      intro ys hys
      obtain ⟨x, hx, rfl⟩ := List.mem_map.mp hys
      exact hrow p hp' x hx
    rw [← block_block _ r.2, catData, block_flatMap_range hrows hp', List.flatMap_def, block_flatten hall (by simp),
      List.getElem_map, List.getElem_ofFn]
  have hcat : (catData pre (k * post.prod) (List.ofFn xs)).length = (pre ++ (W * k) :: post).prod := by
    rw [catData, List.length_flatMap, List.map_congr_left fun p hp => hrows p (List.mem_range.mp hp), List.map_const',
      List.sum_replicate, List.length_range, Nat.nsmul_eq_mul, List.prod_append, List.prod_cons]
    ring
  rw [pullData_part hcat r.2, List.flatMap_congr hblock]
  exact flatMap_block_of_length (hlen r)

end Parts

section Arrays
variable {xs : Fin W → NDArray α} {a : NDArray α}

/-- What the parts are. -/
private theorem narrow?_eq_some_iff (ha : a.shape = pre ++ (W * k) :: post) {r : Fin W} {x : NDArray α} :
    a.narrow? pre.length (r * k) k = some x ↔ x.shape = pre ++ k :: post ∧
      x.data = pullData (pre ++ k :: post) (pre ++ (W * k) :: post) (shift pre.length (r * k)) a.data := by
  have hset : a.shape.set pre.length k = pre ++ k :: post := by simp [ha]
  have hfits : pre.length < a.shape.length ∧ r * k + k ≤ a.shape.getD pre.length 0 := by
    have h := Nat.mul_le_mul_right k r.2
    rw [Nat.succ_mul] at h
    simpa [ha] using h
  rw [narrow?, dif_pos hfits, Option.some_inj]
  constructor
  · rintro rfl
    refine ⟨hset, ?_⟩
    rw [← hset, ← ha]
    rfl
  · rintro ⟨hshape, hdata⟩
    rw [← hset, ← ha] at hdata
    exact NDArray.ext (hset.trans hshape.symm) hdata.symm

/-- Equal parts of an axis, put together again, are the whole. -/
theorem cat?_parts (hW : 0 < W) (ha : a.shape = pre ++ (W * k) :: post)
    (h : ∀ r : Fin W, a.narrow? pre.length (r * k) k = some (xs r)) : cat? pre.length (List.ofFn xs) = some a := by
  have hpart := fun r => (narrow?_eq_some_iff ha).mp (h r)
  have hne : List.ofFn xs ≠ [] := by
    intro hnil
    have hlen := congrArg List.length hnil
    rw [List.length_ofFn, List.length_nil] at hlen
    omega
  have hs : ∀ x ∈ List.ofFn xs, x.shape = pre ++ k :: post := by
    intro x hx
    obtain ⟨r, rfl⟩ := List.mem_ofFn.mp hx
    exact (hpart r).1
  have hlen : a.data.length = (pre ++ (W * k) :: post).prod := by rw [a.wf, ha]
  rw [cat?_eq_ofData? hne hs, List.length_ofFn, catData_parts hlen fun r => (hpart r).2, ofData?_eq_some hlen]
  exact congrArg some (NDArray.ext ha.symm rfl)

theorem narrow?_cat? (hs : ∀ r, (xs r).shape = pre ++ k :: post) (h : cat? pre.length (List.ofFn xs) = some a)
    (r : Fin W) : a.narrow? pre.length (r * k) k = some (xs r) := by
  have hne : List.ofFn xs ≠ [] := by
    intro hnil
    have hlen := congrArg List.length hnil
    rw [List.length_ofFn, List.length_nil] at hlen
    exact absurd r.2 (by omega)
  have hshape : ∀ x ∈ List.ofFn xs, x.shape = pre ++ k :: post := by
    intro x hx
    obtain ⟨r, rfl⟩ := List.mem_ofFn.mp hx
    exact hs r
  rw [cat?_eq_ofData? hne hshape, List.length_ofFn, ofData?] at h
  split at h
  · cases h
    refine (narrow?_eq_some_iff rfl).mpr ⟨hs r, (part_catData (fun r => ?_) r).symm⟩
    rw [(xs r).wf, hs]
  · cases h

end Arrays
end B70DualTP.Library.NDArray
