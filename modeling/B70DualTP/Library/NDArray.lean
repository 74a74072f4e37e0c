import B70DualTP.Library.RowMajor

/-! Row-major arrays that carry their shape, and the axis operations of array
programming. Every operation is polymorphic in the element type. -/
namespace B70DualTP.Library
variable {α β : Type}

/-- An array owns exactly as many elements as its shape says. -/
@[ext] structure NDArray (α : Type) where
  shape : List Nat
  data : List α
  wf : data.length = shape.prod
  deriving DecidableEq, Repr

/-- Remove the entry at src and put it back at dst. -/
def moveAxis (src dst : Nat) (l : List Nat) : List Nat := (l.eraseIdx src).insertIdx dst (l.getD src 0)

/-- Exchange the entries at i and j. -/
def swapAxes (i j : Nat) (l : List Nat) : List Nat := (l.set i (l.getD j 0)).set j (l.getD i 0)

section Axes
variable {R : Nat → Nat → Prop} {l m : List Nat}

private theorem eraseIdx_related (h : List.Forall₂ R l m) (k : Nat) :
    List.Forall₂ R (l.eraseIdx k) (m.eraseIdx k) := by
  induction h generalizing k with
  | nil => exact .nil
  | cons hr ht ih =>
    cases k with
    | zero => exact ht
    | succ k => exact .cons hr (ih k)

private theorem insertIdx_related (h : List.Forall₂ R l m) {x y : Nat} (hr : R x y) (k : Nat) :
    List.Forall₂ R (l.insertIdx k x) (m.insertIdx k y) := by
  induction h generalizing k with
  | nil =>
    cases k with
    | zero => exact .cons hr .nil
    | succ k => exact .nil
  | cons hh ht ih =>
    cases k with
    | zero => exact .cons hr (.cons hh ht)
    | succ k => exact .cons hh (ih k)

private theorem set_related (h : List.Forall₂ R l m) {x y : Nat} (hr : R x y) (k : Nat) :
    List.Forall₂ R (l.set k x) (m.set k y) := by
  induction h generalizing k with
  | nil => exact .nil
  | cons hh ht ih =>
    cases k with
    | zero => exact .cons hr ht
    | succ k => exact .cons hh (ih k)

private theorem getD_related (h : List.Forall₂ R l m) {k : Nat} (hk : k < m.length) :
    R (l.getD k 0) (m.getD k 0) := by
  induction h generalizing k with
  | nil => simp at hk
  | cons hr ht ih =>
    cases k with
    | zero => exact hr
    | succ k => exact ih (by simpa using hk)

private theorem moveAxis_related (h : List.Forall₂ R l m) {src : Nat} (dst : Nat) (hs : src < m.length) :
    List.Forall₂ R (moveAxis src dst l) (moveAxis src dst m) :=
  insertIdx_related (eraseIdx_related h src) (getD_related h hs) dst

private theorem swapAxes_related (h : List.Forall₂ R l m) {i j : Nat} (hi : i < m.length)
    (hj : j < m.length) : List.Forall₂ R (swapAxes i j l) (swapAxes i j m) :=
  set_related (set_related h (getD_related h hj) i) (getD_related h hi) j

end Axes

theorem length_moveAxis {src dst : Nat} {l : List Nat} (hs : src < l.length) (hd : dst < l.length) :
    (moveAxis src dst l).length = l.length := by
  rw [moveAxis, List.length_insertIdx_of_le_length, List.length_eraseIdx_of_lt hs]
  · omega
  · rw [List.length_eraseIdx_of_lt hs]; omega

theorem moveAxis_zero_cons (dst a : Nat) (l : List Nat) : moveAxis 0 dst (a :: l) = l.insertIdx dst a := rfl

theorem moveAxis_moveAxis {src dst : Nat} {l : List Nat} (hs : src < l.length) (hd : dst < l.length) :
    moveAxis dst src (moveAxis src dst l) = l := by
  have he : dst ≤ (l.eraseIdx src).length := by rw [List.length_eraseIdx_of_lt hs]; omega
  have hg : ((l.eraseIdx src).insertIdx dst (l.getD src 0)).getD dst 0 = l.getD src 0 := by
    rw [List.getD_eq_getElem?_getD, List.getElem?_insertIdx_self, if_pos he]; rfl
  have hx : l.getD src 0 = l[src] := by simp [List.getD_eq_getElem?_getD, hs]
  rw [moveAxis, moveAxis, List.eraseIdx_insertIdx_self, hg, hx]
  exact List.insertIdx_eraseIdx_getElem hs

theorem length_swapAxes (i j : Nat) (l : List Nat) : (swapAxes i j l).length = l.length := by
  simp [swapAxes]

theorem swapAxes_swapAxes {i j : Nat} {l : List Nat} (hi : i < l.length) (hj : j < l.length) :
    swapAxes i j (swapAxes i j l) = l := by
  apply List.ext_getElem
  · simp [swapAxes]
  · intro k hk _
    simp only [swapAxes, List.length_set] at hk
    by_cases hik : i = k <;> by_cases hjk : j = k <;>
      simp_all [swapAxes, List.getElem_set, List.getD_eq_getElem?_getD]

theorem moveAxis_mem_indices {src dst : Nat} {s i : List Nat} (hs : src < s.length) (hd : dst < s.length)
    (h : i ∈ indices (moveAxis src dst s)) : moveAxis dst src i ∈ indices s := by
  rw [mem_indices] at h ⊢
  have hm := moveAxis_related h src (by rwa [length_moveAxis hs hd])
  rwa [moveAxis_moveAxis hs hd] at hm

theorem swapAxes_mem_indices {i j : Nat} {s k : List Nat} (hi : i < s.length) (hj : j < s.length)
    (h : k ∈ indices (swapAxes i j s)) : swapAxes i j k ∈ indices s := by
  rw [mem_indices] at h ⊢
  have hm := swapAxes_related h (i := i) (j := j) (by rwa [length_swapAxes]) (by rwa [length_swapAxes])
  rwa [swapAxes_swapAxes hi hj] at hm

namespace NDArray

def numel (a : NDArray α) : Nat := a.shape.prod

def map (f : α → β) (a : NDArray α) : NDArray β := ⟨a.shape, a.data.map f, by simpa using a.wf⟩

@[simp] theorem map_shape (f : α → β) (a : NDArray α) : (a.map f).shape = a.shape := rfl
@[simp] theorem map_data (f : α → β) (a : NDArray α) : (a.map f).data = a.data.map f := rfl

/-- Give the elements, in their order, another shape of the same size. -/
def ofData? (s : List Nat) (xs : List α) : Option (NDArray α) :=
  if h : xs.length = s.prod then some ⟨s, xs, h⟩ else none

theorem ofData?_eq_some {s : List Nat} {xs : List α} (h : xs.length = s.prod) :
    ofData? s xs = some ⟨s, xs, h⟩ := dif_pos h

theorem ofData?_eq_none {s : List Nat} {xs : List α} (h : xs.length ≠ s.prod) :
    ofData? s xs = none := dif_neg h

def reshape? (s : List Nat) (a : NDArray α) : Option (NDArray α) := ofData? s a.data

/-- The array of shape s whose element at index i is the element of a at f i. -/
def reindex (a : NDArray α) (s : List Nat) (f : List Nat → List Nat)
    (h : ∀ i ∈ indices s, f i ∈ indices a.shape) : NDArray α where
  shape := s
  data := (indices s).flatMap fun i => block 1 (ravel a.shape (f i)) a.data
  wf := by
    have hc : ∀ i ∈ indices s, (block 1 (ravel a.shape (f i)) a.data).length = 1 := by
      intro i hi
      apply length_block
      have := ravel_lt (h i hi)
      rw [a.wf]
      omega
    rw [List.length_flatMap, List.map_congr_left hc, ← length_indices]
    simp

/-- Move the axis src to position dst; the other axes keep their order. -/
def movedim? (src dst : Nat) (a : NDArray α) : Option (NDArray α) :=
  if h : src < a.shape.length ∧ dst < a.shape.length then
    some (a.reindex (moveAxis src dst a.shape) (moveAxis dst src)
      (fun _ hi => moveAxis_mem_indices h.1 h.2 hi))
  else none

def transpose? (i j : Nat) (a : NDArray α) : Option (NDArray α) :=
  if h : i < a.shape.length ∧ j < a.shape.length then
    some (a.reindex (swapAxes i j a.shape) (swapAxes i j)
      (fun _ hk => swapAxes_mem_indices h.1 h.2 hk))
  else none

/-- Concatenate along axis d arrays that agree on every other axis. -/
def cat? (d : Nat) (as : List (NDArray α)) : Option (NDArray α) :=
  match as with
  | [] => none
  | a :: _ =>
    if d < a.shape.length ∧ ∀ b ∈ as, b.shape.eraseIdx d = a.shape.eraseIdx d ∧
        b.shape.length = a.shape.length then
      let outer := (a.shape.take d).prod
      let inner := (a.shape.drop (d + 1)).prod
      ofData? (a.shape.set d (as.map fun b => b.shape.getD d 0).sum)
        ((List.range outer).flatMap fun p => as.flatMap fun b => block (b.shape.getD d 0 * inner) p b.data)
    else none

/-- The consecutive pieces along axis 0 whose lengths are listed. -/
def splitData (inner : Nat) : List Nat → List α → List (List α)
  | [], _ => []
  | k :: ks, xs => xs.take (k * inner) :: splitData inner ks (xs.drop (k * inner))

def split? (sizes : List Nat) (a : NDArray α) : Option (List (NDArray α)) :=
  match a.shape with
  | [] => none
  | n :: s =>
    if sizes.sum = n then
      (sizes.zip (splitData s.prod sizes a.data)).mapM fun p => ofData? (p.1 :: s) p.2
    else none

theorem ofData?_map (f : α → β) (s : List Nat) (xs : List α) :
    ofData? s (xs.map f) = (ofData? s xs).map (NDArray.map f) := by
  by_cases h : xs.length = s.prod
  · rw [ofData?_eq_some h, ofData?_eq_some (by simpa using h)]
    rfl
  · rw [ofData?_eq_none h, ofData?_eq_none (by simpa using h)]
    rfl

private theorem splitData_map (f : α → β) (inner : Nat) (sizes : List Nat) (xs : List α) :
    splitData inner sizes (xs.map f) = (splitData inner sizes xs).map (List.map f) := by
  induction sizes generalizing xs with
  | nil => rfl
  | cons k sizes ih => simp only [splitData, ← List.map_take, ← List.map_drop, ih, List.map_cons]

theorem split?_map (f : α → β) (sizes : List Nat) (a : NDArray α) :
    (a.map f).split? sizes = (a.split? sizes).map (List.map (NDArray.map f)) := by
  have hm : ∀ (s : List Nat) (ps : List (Nat × List α)),
      (ps.map fun p => (p.1, p.2.map f)).mapM (fun p => ofData? (p.1 :: s) p.2) =
        (ps.mapM fun p => ofData? (p.1 :: s) p.2).map (List.map (NDArray.map f)) := by
    intro s ps
    induction ps with
    | nil => rfl
    | cons p ps ih =>
      simp only [List.map_cons, List.mapM_cons, ih, ofData?_map]
      cases ofData? (p.1 :: s) p.2 <;> cases ps.mapM (fun p => ofData? (p.1 :: s) p.2) <;> rfl
  cases hs : a.shape with
  | nil => simp [split?, hs]
  | cons n s =>
    by_cases h : sizes.sum = n
    · have hz : sizes.zip (splitData s.prod sizes (a.data.map f)) =
          (sizes.zip (splitData s.prod sizes a.data)).map fun p => (p.1, p.2.map f) := by
        rw [splitData_map, List.zip_map_right]
        rfl
      simp only [split?, map_shape, map_data, hs, h, if_true, hz, hm]
    · simp [split?, hs, h]

end NDArray
end B70DualTP.Library
