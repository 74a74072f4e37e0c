import B70DualTP.Library.NDArray

/-! Elements pulled out of an array along a map of indices: how such maps compose, that they
respect casts and sums, and the slices of one axis. -/
namespace B70DualTP.Library.NDArray
open Library
variable {α β γ : Type} {s t u : List Nat} {f g : List Nat → List Nat}

/-- For every index of shape s, the element that an array of shape t has at its image. -/
def pullData (s t : List Nat) (f : List Nat → List Nat) (xs : List α) : List α :=
  (indices s).flatMap fun i => block 1 (ravel t (f i)) xs

theorem pullData_congr (h : ∀ i ∈ indices s, f i = g i) (xs : List α) :
    pullData s t f xs = pullData s t g xs := by
  apply List.flatMap_congr
  intro i hi
  rw [h i hi]

theorem pullData_id (h : ∀ i ∈ indices s, f i = i) {xs : List α} (hx : xs.length = s.prod) : pullData s s f xs = xs := by
  rw [pullData_congr h, pullData, flatMap_indices s fun k => block 1 k xs]
  apply flatMap_block_of_length
  rw [hx, Nat.mul_one]

theorem map_pullData (e : α → β) (xs : List α) : (pullData s t f xs).map e = pullData s t f (xs.map e) := by
  simp only [pullData, List.map_flatMap, map_block]

section Maps
variable (hf : ∀ i ∈ indices s, f i ∈ indices t)
include hf

private theorem length_pulled {xs : List α} (hx : xs.length = t.prod) {i : List Nat} (hi : i ∈ indices s) :
    (block 1 (ravel t (f i)) xs).length = 1 := by
  apply length_block
  have hlt := ravel_lt (hf i hi)
  omega

theorem length_pullData {xs : List α} (hx : xs.length = t.prod) : (pullData s t f xs).length = s.prod := by
  have hone : ∀ i ∈ indices s, (block 1 (ravel t (f i)) xs).length = 1 := fun i hi => length_pulled hf hx hi
  rw [pullData, List.length_flatMap, List.map_congr_left hone, ← length_indices]
  simp

theorem block_pullData {xs : List α} (hx : xs.length = t.prod) {i : List Nat} (hi : i ∈ indices s) :
    block 1 (ravel s i) (pullData s t f xs) = block 1 (ravel t (f i)) xs := by
  have hone : ∀ ys ∈ (indices s).map fun i => block 1 (ravel t (f i)) xs, ys.length = 1 := by
    intro ys hys
    obtain ⟨j, hj, rfl⟩ := List.mem_map.mp hys
    exact length_pulled hf hx hj
  have hlt : ravel s i < (indices s).length := by
    rw [length_indices]
    exact ravel_lt hi
  have hlt' : ravel s i < ((indices s).map fun i => block 1 (ravel t (f i)) xs).length := by
    rwa [List.length_map]
  rw [pullData, List.flatMap_def, block_flatten hone hlt', List.getElem_map, getElem_indices hi hlt]

theorem pullData_pullData (hg : ∀ i ∈ indices u, g i ∈ indices s) {xs : List α} (hx : xs.length = t.prod) :
    pullData u s g (pullData s t f xs) = pullData u t (f ∘ g) xs := by
  apply List.flatMap_congr
  intro i hi
  exact block_pullData hf hx (hg i hi)

theorem zipWith_pullData (op : α → β → γ) {xs : List α} {ys : List β} (hx : xs.length = t.prod)
    (hy : ys.length = t.prod) :
    List.zipWith op (pullData s t f xs) (pullData s t f ys) = pullData s t f (List.zipWith op xs ys) := by
  rw [pullData, pullData, pullData]
  have hall : ∀ i ∈ indices s, (block 1 (ravel t (f i)) xs).length = (block 1 (ravel t (f i)) ys).length := by
    intro i hi
    rw [length_pulled hf hx hi, length_pulled hf hy hi]
  generalize indices s = l at hall
  induction l with
  | nil => rfl
  | cons i l ih =>
    rw [List.forall_mem_cons] at hall
    obtain ⟨hi, hl⟩ := hall
    rw [List.flatMap_cons, List.flatMap_cons, List.flatMap_cons, List.zipWith_append hi, ih hl]
    simp [block, List.drop_zipWith, List.take_zipWith]

/-- Equal results name equal positions, when the elements are all different. -/
theorem eq_of_pullData_eq {xs : List α} (hx : xs.Nodup) (hlen : xs.length = t.prod)
    (hg : ∀ i ∈ indices s, g i ∈ indices t) (h : pullData s t f xs = pullData s t g xs) {i : List Nat}
    (hi : i ∈ indices s) : f i = g i := by
  have hblock := (block_pullData hf hlen hi).symm.trans ((congrArg _ h).trans (block_pullData hg hlen hi))
  apply ravel_inj (hf i hi) (hg i hi)
  have hlt := ravel_lt (hf i hi)
  have hlt' := ravel_lt (hg i hi)
  have hat : ∀ k, k < t.prod → (block 1 k xs)[0]? = xs[k]? := by
    intro k hk
    simp [block]
  have hget := congrArg (·[0]?) hblock
  simp only [hat _ hlt, hat _ hlt'] at hget
  exact (List.getElem?_inj (hlen ▸ hlt) hx).mp hget

end Maps

/-- The index start steps further along axis d. -/
def shift (d start : Nat) (i : List Nat) : List Nat := i.modify d (start + ·)

section Shift
variable {d start length : Nat}

theorem shift_mem_indices (h : start + length ≤ s.getD d 0) {i : List Nat} (hi : i ∈ indices (s.set d length)) :
    shift d start i ∈ indices s := by
  rw [mem_indices] at hi ⊢
  rw [shift]
  induction s generalizing d i with
  | nil =>
    cases hi
    cases d <;> exact .nil
  | cons n s ih =>
    cases d with
    | zero =>
      obtain ⟨j, i, hj, htail, rfl⟩ := List.forall₂_cons_right_iff.mp hi
      rw [List.getD_cons_zero] at h
      have hstart : start + j < n := by omega
      exact .cons hstart htail
    | succ d =>
      obtain ⟨j, i, hj, htail, rfl⟩ := List.forall₂_cons_right_iff.mp hi
      rw [List.getD_cons_succ] at h
      exact .cons hj (ih h htail)

/-- The part of axis d that begins at start. -/
def narrow? (d start length : Nat) (a : NDArray α) : Option (NDArray α) :=
  if h : d < a.shape.length ∧ start + length ≤ a.shape.getD d 0 then
    some (a.reindex (a.shape.set d length) (shift d start) fun _ hi => shift_mem_indices h.2 hi)
  else none

/-- A block of rows is a slice of the front axis. -/
theorem block_eq_pullData {n k r : Nat} {xs : List α} (h : (r + 1) * k ≤ n) (hx : xs.length = (n :: s).prod) :
    block (k * s.prod) r xs = pullData (k :: s) (n :: s) (shift 0 (r * k)) xs := by
  have hindex : ∀ i ∈ indices (k :: s), block 1 (ravel (n :: s) (shift 0 (r * k) i)) xs =
      block 1 (r * (k * s.prod) + ravel (k :: s) i) xs := by
    intro i hi
    obtain ⟨j, i, -, -, rfl⟩ := List.forall₂_cons_right_iff.mp (mem_indices.mp hi)
    have hpos : ravel (n :: s) (shift 0 (r * k) (j :: i)) = r * (k * s.prod) + ravel (k :: s) (j :: i) := by
      change (r * k + j) * s.prod + ravel s i = r * (k * s.prod) + (j * s.prod + ravel s i)
      ring
    rw [hpos]
  have hfit : (r + 1) * (k * s.prod * 1) ≤ xs.length := by
    rw [hx, List.prod_cons, Nat.mul_one, ← Nat.mul_assoc]
    exact Nat.mul_le_mul_right _ h
  rw [pullData, List.flatMap_congr hindex, flatMap_indices (k :: s) fun p => block 1 (r * (k * s.prod) + p) xs,
    List.prod_cons, flatMap_block_base xs hfit, Nat.mul_one]

end Shift
end B70DualTP.Library.NDArray
