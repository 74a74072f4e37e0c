import B70DualTP.Library.NDArray

/-! Arrays of one shape, stacked along a new front axis: moving that axis to position d
and merging it with the axis there is concatenation along axis d. -/
namespace B70DualTP.Library.NDArray
open Library
variable {α : Type}

section Axes
variable {pre post : List Nat} {n w d : Nat}

/-- An axis in the middle of a shape, moved to the front. -/
theorem moveAxis_middle (hd : pre.length = d) : moveAxis d 0 (pre ++ w :: post) = w :: (pre ++ post) := by
  subst hd
  have hget : (pre ++ w :: post).getD pre.length 0 = w := by simp
  have herase : (pre ++ w :: post).eraseIdx pre.length = pre ++ post := by
    rw [List.eraseIdx_append_of_length_le le_rfl, Nat.sub_self]
    rfl
  rw [moveAxis, hget, herase]
  rfl

/-- The front axis, moved to the middle. -/
theorem moveAxis_front (hd : pre.length = d) : moveAxis 0 d (w :: (pre ++ post)) = pre ++ w :: post := by
  have hlen : 0 < (pre ++ w :: post).length := by simp
  have hd' : d < (pre ++ w :: post).length := by simp [← hd]
  have h := moveAxis_moveAxis (l := pre ++ w :: post) hd' hlen
  rwa [moveAxis_middle hd] at h

end Axes

section Stack
variable {xs : List (NDArray α)} {pre post : List Nat} {n : Nat}

/-- The elements of a concatenation: for every leading index, one block from each array. -/
def catData (pre : List Nat) (size : Nat) (xs : List (NDArray α)) : List α :=
  (List.range pre.prod).flatMap fun p => xs.flatMap fun x => block size p x.data

theorem cat?_eq_ofData? (hne : xs ≠ []) (hs : ∀ x ∈ xs, x.shape = pre ++ n :: post) :
    cat? pre.length xs = ofData? (pre ++ (xs.length * n) :: post) (catData pre (n * post.prod) xs) := by
  obtain ⟨x, xs, rfl⟩ := List.exists_cons_of_ne_nil hne
  have hx := hs x List.mem_cons_self
  have hvalid : pre.length < x.shape.length ∧ ∀ b ∈ x :: xs, b.shape.eraseIdx pre.length =
      x.shape.eraseIdx pre.length ∧ b.shape.length = x.shape.length := by
    refine ⟨by simp [hx], fun b hb => ?_⟩
    rw [hs b hb, hx]
    exact ⟨rfl, rfl⟩
  have hget : ∀ b ∈ x :: xs, b.shape.getD pre.length 0 = n := by
    intro b hb
    simp [hs b hb]
  have hsum : ((x :: xs).map fun b => b.shape.getD pre.length 0).sum = (x :: xs).length * n := by
    rw [List.map_congr_left hget]
    simp only [List.map_const', List.sum_replicate, List.length_cons, Nat.nsmul_eq_mul]
  have hdata : ∀ p, ((x :: xs).flatMap fun b => block (b.shape.getD pre.length 0 * post.prod) p b.data) =
      (x :: xs).flatMap fun b => block (n * post.prod) p b.data := by
    intro p
    exact List.flatMap_congr fun b hb => by rw [hget b hb]
  have hpre : (x.shape.take pre.length).prod = pre.prod := by simp [hx]
  have hpost : (x.shape.drop (pre.length + 1)).prod = post.prod := by
    rw [hx, ← List.drop_drop, List.drop_left]
    rfl
  have hset : x.shape.set pre.length ((x :: xs).length * n) = pre ++ ((x :: xs).length * n) :: post := by
    simp [hx]
  simp only [cat?, if_pos hvalid, hsum, hset, hpre, hpost, hdata]
  rfl

private theorem flatMap_block_rows {rows size p : Nat} (hp : p < rows) (hl : ∀ x ∈ xs, x.data.length = rows * size) :
    (List.range xs.length).flatMap (fun w => block size (w * rows + p) (xs.flatMap (·.data))) =
      xs.flatMap fun x => block size p x.data := by
  have hall : ∀ ys ∈ xs.map (·.data), ys.length = rows * size := by
    intro ys hys
    obtain ⟨x, hx, rfl⟩ := List.mem_map.mp hys
    exact hl x hx
  have hrow : ∀ x ∈ xs, (block size p x.data).length = size := by
    intro x hx
    apply length_block
    rw [hl x hx]
    exact Nat.mul_le_mul_right size hp
  have hrows : ∀ ys ∈ xs.map fun x => block size p x.data, ys.length = size := by
    intro ys hys
    obtain ⟨x, hx, rfl⟩ := List.mem_map.mp hys
    exact hrow x hx
  have hw : ∀ w ∈ List.range xs.length, block size (w * rows + p) (xs.flatMap (·.data)) =
      block size w (xs.flatMap fun x => block size p x.data) := by
    intro w hw
    have hw' : w < xs.length := List.mem_range.mp hw
    rw [← block_block _ hp, List.flatMap_def, List.flatMap_def, block_flatten hall (by simpa using hw'),
      block_flatten hrows (by simpa using hw'), List.getElem_map, List.getElem_map]
  rw [List.flatMap_congr hw]
  apply flatMap_block_of_length
  rw [List.length_flatMap, List.map_congr_left hrow]
  simp

/-- The row-major law: the stack, its front axis moved to position d, holds the elements
of the concatenation along axis d in their order. -/
theorem movedim?_stack {t : NDArray α} (hs : ∀ x ∈ xs, x.shape = pre ++ n :: post)
    (ht : t.shape = xs.length :: (pre ++ n :: post)) (hdata : t.data = xs.flatMap (·.data)) :
    ∃ v, t.movedim? 0 pre.length = some v ∧ v.shape = pre ++ xs.length :: n :: post ∧
      v.data = catData pre (n * post.prod) xs := by
  have h0 : 0 < t.shape.length := by simp [ht]
  have hd : pre.length < t.shape.length := by
    simp only [ht, List.length_cons, List.length_append]
    omega
  have hv : t.movedim? 0 pre.length = some (t.reindex _ _ fun i hi => moveAxis_mem_indices h0 hd hi) :=
    dif_pos ⟨h0, hd⟩
  have hshape : moveAxis 0 pre.length t.shape = pre ++ xs.length :: n :: post := by rw [ht, moveAxis_front rfl]
  refine ⟨_, hv, hshape, ?_⟩
  change (indices (moveAxis 0 pre.length t.shape)).flatMap
    (fun i => block 1 (ravel t.shape (moveAxis pre.length 0 i)) t.data) = _
  have hlen : t.data.length = xs.length * (pre.prod * (n :: post).prod) := by
    rw [t.wf, ht, List.prod_cons, List.prod_append]
  -- one leading index and one array contribute a block
  have hblock : ∀ i ∈ indices pre, ∀ w ∈ List.range xs.length, ((indices (n :: post)).map (w :: ·)).flatMap
      (fun j => block 1 (ravel t.shape (moveAxis pre.length 0 (i ++ j))) t.data) =
        block (n * post.prod) (w * pre.prod + ravel pre i) t.data := by
    intro i hi w hw
    have hil : i.length = pre.length := (mem_indices.mp hi).length_eq
    have hindex : ∀ j, ravel t.shape (moveAxis pre.length 0 (i ++ w :: j)) =
        (w * pre.prod + ravel pre i) * (n :: post).prod + ravel (n :: post) j := by
      intro j
      rw [moveAxis_middle hil, ht, ravel, ravel_append _ _ hil, List.prod_append]
      ring
    have hfit : (w * pre.prod + ravel pre i + 1) * ((n :: post).prod * 1) ≤ t.data.length := by
      have hw' : w < xs.length := List.mem_range.mp hw
      have hrow : w * pre.prod + ravel pre i + 1 ≤ xs.length * pre.prod := by
        have hi' := ravel_lt hi
        have hstep := Nat.mul_le_mul_right pre.prod hw'
        rw [Nat.succ_mul] at hstep
        omega
      rw [hlen, Nat.mul_one, ← Nat.mul_assoc]
      exact Nat.mul_le_mul_right _ hrow
    rw [List.flatMap_map]
    simp only [hindex]
    rw [flatMap_indices (n :: post) fun k => block 1 ((w * pre.prod + ravel pre i) * (n :: post).prod + k) t.data,
      flatMap_block_base t.data hfit, Nat.mul_one, List.prod_cons]
  have hinner : ∀ i ∈ indices pre, ((indices (xs.length :: n :: post)).map (i ++ ·)).flatMap
      (fun k => block 1 (ravel t.shape (moveAxis pre.length 0 k)) t.data) =
        xs.flatMap fun x => block (n * post.prod) (ravel pre i) x.data := by
    intro i hi
    have hl : ∀ x ∈ xs, x.data.length = pre.prod * (n * post.prod) := by
      intro x hx
      rw [x.wf, hs x hx, List.prod_append, List.prod_cons]
    rw [List.flatMap_map, indices, List.flatMap_assoc, ← flatMap_block_rows (ravel_lt hi) hl, ← hdata]
    exact List.flatMap_congr fun w hw => hblock i hi w hw
  rw [hshape, indices_append, List.flatMap_assoc, List.flatMap_congr hinner]
  exact flatMap_indices pre fun p => xs.flatMap fun x => block (n * post.prod) p x.data

/-- Moving the front axis of a stack to position d and merging it with the axis there
concatenates along axis d. -/
theorem cat?_stack {t : NDArray α} (hne : xs ≠ []) (hs : ∀ x ∈ xs, x.shape = pre ++ n :: post)
    (ht : t.shape = xs.length :: (pre ++ n :: post)) (hdata : t.data = xs.flatMap (·.data)) :
    ∃ v u, t.movedim? 0 pre.length = some v ∧ v.reshape? (pre ++ (xs.length * n) :: post) = some u ∧
      cat? pre.length xs = some u ∧ u.shape = pre ++ (xs.length * n) :: post := by
  obtain ⟨v, hv, hshape, hvdata⟩ := movedim?_stack hs ht hdata
  have hlen : v.data.length = (pre ++ (xs.length * n) :: post).prod := by
    rw [v.wf, hshape]
    simp only [List.prod_append, List.prod_cons]
    ring
  refine ⟨v, _, hv, ofData?_eq_some hlen, ?_, rfl⟩
  rw [cat?_eq_ofData? hne hs, ← hvdata]
  exact ofData?_eq_some hlen

end Stack
private theorem length_rows {xs : List (NDArray α)} {tail : List Nat} (h : ∀ x ∈ xs, ∃ n, x.shape = n :: tail) :
    (xs.flatMap (·.data)).length = ((xs.map fun x => x.shape.getD 0 0).sum :: tail).prod := by
  induction xs with
  | nil => simp
  | cons x xs ih =>
    rw [List.forall_mem_cons] at h
    obtain ⟨⟨n, hn⟩, hxs⟩ := h
    have htail := ih hxs
    rw [List.prod_cons] at htail ⊢
    rw [List.flatMap_cons, List.length_append, htail, x.wf, hn, List.map_cons, hn, List.sum_cons, List.prod_cons,
      List.getD_cons_zero, Nat.add_mul]

theorem cat?_rows {xs : List (NDArray α)} {tail : List Nat} (hne : xs ≠ [])
    (h : ∀ x ∈ xs, ∃ n, x.shape = n :: tail) :
    ∃ u, cat? 0 xs = some u ∧ u.shape = (xs.map fun x => x.shape.getD 0 0).sum :: tail ∧
      u.data = xs.flatMap (·.data) := by
  have hlen := length_rows h
  obtain ⟨x, xs, rfl⟩ := List.exists_cons_of_ne_nil hne
  obtain ⟨n, hn⟩ := h x List.mem_cons_self
  have hvalid : 0 < x.shape.length ∧ ∀ b ∈ x :: xs, b.shape.eraseIdx 0 = x.shape.eraseIdx 0 ∧
      b.shape.length = x.shape.length := by
    refine ⟨by simp [hn], fun b hb => ?_⟩
    obtain ⟨m, hm⟩ := h b hb
    rw [hm, hn]
    exact ⟨rfl, rfl⟩
  have hblock : ∀ b ∈ x :: xs, block (b.shape.getD 0 0 * (x.shape.drop (0 + 1)).prod) 0 b.data = b.data := by
    intro b hb
    obtain ⟨m, hm⟩ := h b hb
    have hb : b.data.length = m * tail.prod := by rw [b.wf, hm, List.prod_cons]
    simp [block, hm, hn, ← hb]
  refine ⟨⟨_, _, hlen⟩, ?_, rfl, rfl⟩
  simp only [cat?, if_pos hvalid, List.take_zero, List.prod_nil, List.range_one, List.flatMap_singleton]
  rw [List.flatMap_congr hblock]
  have hset : x.shape.set 0 ((x :: xs).map fun b => b.shape.getD 0 0).sum =
      ((x :: xs).map fun b => b.shape.getD 0 0).sum :: tail := by rw [hn]; rfl
  rw [hset]
  exact ofData?_eq_some hlen

/-- The elements of count rows from row start on, for rows of a given size. -/
def rowSlice (inner start count : Nat) (xs : List α) : List α := (xs.drop (start * inner)).take (count * inner)

theorem map_rowSlice {β : Type} (f : α → β) (inner start count : Nat) (xs : List α) :
    (rowSlice inner start count xs).map f = rowSlice inner start count (xs.map f) := by
  simp [rowSlice, List.map_take, List.map_drop]

section Split
variable {inner : Nat}

/-- Piece i of a split starts where the pieces before it end. -/
theorem splitData_getElem? (sizes : List Nat) (xs : List α) (i : Nat) (hi : i < sizes.length) :
    (splitData inner sizes xs)[i]? = some (rowSlice inner (sizes.take i).sum (sizes.getD i 0) xs) := by
  induction sizes generalizing xs i with
  | nil => exact absurd hi (Nat.not_lt_zero i)
  | cons k sizes ih =>
    cases i with
    | zero => simp [splitData, rowSlice]
    | succ i =>
      have h := ih (xs.drop (k * inner)) i (Nat.lt_of_succ_lt_succ hi)
      rw [rowSlice, List.drop_drop, ← Nat.add_mul] at h
      simpa [splitData, rowSlice] using h

theorem length_splitData (sizes : List Nat) (xs : List α) : (splitData inner sizes xs).length = sizes.length := by
  induction sizes generalizing xs with
  | nil => rfl
  | cons k sizes ih => simp [splitData, ih]

theorem flatten_splitData {sizes : List Nat} {xs : List α} (h : xs.length = sizes.sum * inner) :
    (splitData inner sizes xs).flatten = xs := by
  induction sizes generalizing xs with
  | nil =>
    rw [List.sum_nil, Nat.zero_mul] at h
    rw [List.length_eq_zero_iff.mp h]
    rfl
  | cons k sizes ih =>
    rw [List.sum_cons, Nat.add_mul] at h
    have htail : (xs.drop (k * inner)).length = sizes.sum * inner := by
      rw [List.length_drop]
      omega
    rw [splitData, List.flatten_cons, ih htail, List.take_append_drop]

private theorem splits_exist {tail : List Nat} {sizes : List Nat} {xs : List α}
    (h : xs.length = sizes.sum * tail.prod) :
    ∃ us : List (NDArray α),
      (sizes.zip (splitData tail.prod sizes xs)).mapM (fun p => ofData? (p.1 :: tail) p.2) = some us ∧
        us.map (·.shape) = sizes.map (· :: tail) ∧ us.map (·.data) = splitData tail.prod sizes xs := by
  induction sizes generalizing xs with
  | nil => exact ⟨[], rfl, rfl, rfl⟩
  | cons k sizes ih =>
    rw [List.sum_cons, Nat.add_mul] at h
    have hhead : (xs.take (k * tail.prod)).length = (k :: tail).prod := by
      rw [List.length_take, List.prod_cons]
      omega
    have htail : (xs.drop (k * tail.prod)).length = sizes.sum * tail.prod := by
      rw [List.length_drop]
      omega
    obtain ⟨us, hus, hshape, hdata⟩ := ih htail
    refine ⟨⟨k :: tail, _, hhead⟩ :: us, ?_, ?_, ?_⟩
    · rw [splitData, List.zip_cons_cons, List.mapM_cons, hus, ofData?_eq_some hhead]
      rfl
    · rw [List.map_cons, List.map_cons, hshape]
    · rw [List.map_cons, splitData, hdata]

theorem split?_exists {a : NDArray α} {tail sizes : List Nat} (ha : a.shape = sizes.sum :: tail) :
    ∃ us, a.split? sizes = some us ∧ us.map (·.shape) = sizes.map (· :: tail) ∧
      us.map (·.data) = splitData tail.prod sizes a.data := by
  have hlen : a.data.length = sizes.sum * tail.prod := by rw [a.wf, ha, List.prod_cons]
  obtain ⟨us, hus, hrest⟩ := splits_exist hlen
  refine ⟨us, ?_, hrest⟩
  simp only [split?, ha, if_true]
  exact hus

end Split

end B70DualTP.Library.NDArray
