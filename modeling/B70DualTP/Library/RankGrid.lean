import Mathlib.Data.List.Perm.Subperm
import B70DualTP.Library.NDArray

/-! Groups of ranks read off an array: the indices are cut into a key and a member
part, each key names a group, and the member parts order it. -/
namespace B70DualTP.Library
variable {α β : Type}

/-- Groups of size k that cover 0..N-1, each rank in one place of one group. -/
def IsPartition (N k : Nat) (groups : List (List Nat)) : Prop :=
  (∀ g ∈ groups, g.length = k) ∧ groups.flatten.Perm (List.range N)

/-- Two ranks have a group in common. -/
def Together (groups : List (List Nat)) (r r' : Nat) : Prop := ∃ g ∈ groups, r ∈ g ∧ r' ∈ g

/-- A placement of the indices of an array on the ranks 0..N-1. -/
structure RankGrid (N : Nat) where
  keys : List Nat
  members : List Nat
  place : List Nat → Nat
  place_lt : ∀ i ∈ indices (keys ++ members), place i < N
  place_inj : ∀ i ∈ indices (keys ++ members), ∀ j ∈ indices (keys ++ members), place i = place j → i = j
  prod_eq : (keys ++ members).prod = N

namespace RankGrid
variable {N : Nat} (g : RankGrid N)

def group (key : List Nat) : List Nat := (indices g.members).map fun q => g.place (key ++ q)
def groups : List (List Nat) := (indices g.keys).map g.group

theorem append_mem {p q : List Nat} (hp : p ∈ indices g.keys) (hq : q ∈ indices g.members) :
    p ++ q ∈ indices (g.keys ++ g.members) := by
  rw [indices_append]
  exact List.mem_flatMap.mpr ⟨p, hp, List.mem_map_of_mem hq⟩

theorem place_append_inj {p q p' q' : List Nat} (hp : p ∈ indices g.keys) (hq : q ∈ indices g.members)
    (hp' : p' ∈ indices g.keys) (hq' : q' ∈ indices g.members)
    (h : g.place (p ++ q) = g.place (p' ++ q')) : p = p' ∧ q = q' := by
  have he := g.place_inj _ (g.append_mem hp hq) _ (g.append_mem hp' hq') h
  have hl : p.length = p'.length := by
    rw [(mem_indices.mp hp).length_eq, (mem_indices.mp hp').length_eq]
  exact List.append_inj he hl

theorem groups_flatten : g.groups.flatten = (indices (g.keys ++ g.members)).map g.place := by
  rw [groups, indices_append, List.map_flatMap, List.flatMap_def]
  simp only [List.map_map, Function.comp_def]
  rfl

theorem isPartition : IsPartition N g.members.prod g.groups := by
  constructor
  · intro x hx
    obtain ⟨p, -, rfl⟩ := List.mem_map.mp hx
    rw [group, List.length_map, length_indices]
  · rw [groups_flatten]
    have hn : ((indices (g.keys ++ g.members)).map g.place).Nodup :=
      (List.nodup_map_iff_inj_on (nodup_indices _)).mpr fun i hi j hj => g.place_inj i hi j hj
    have hs : (indices (g.keys ++ g.members)).map g.place ⊆ List.range N := by
      intro r hr
      obtain ⟨i, hi, rfl⟩ := List.mem_map.mp hr
      exact List.mem_range.mpr (g.place_lt i hi)
    apply (List.subperm_of_subset hn hs).perm_of_length_le
    rw [List.length_range, List.length_map, length_indices, g.prod_eq]

theorem exists_place {r : Nat} (h : r < N) :
    ∃ p ∈ indices g.keys, ∃ q ∈ indices g.members, g.place (p ++ q) = r := by
  have hr : r ∈ g.groups.flatten := g.isPartition.2.mem_iff.mpr (List.mem_range.mpr h)
  obtain ⟨x, hx, hr⟩ := List.mem_flatten.mp hr
  obtain ⟨p, hp, rfl⟩ := List.mem_map.mp hx
  obtain ⟨q, hq, rfl⟩ := List.mem_map.mp hr
  exact ⟨p, hp, q, hq, rfl⟩

variable {p q p' q' : List Nat}

theorem mem_group (hp : p ∈ indices g.keys) (hq : q ∈ indices g.members) (hp' : p' ∈ indices g.keys) :
    g.place (p ++ q) ∈ g.group p' ↔ p = p' := by
  constructor
  · intro h
    obtain ⟨q', hq', he⟩ := List.mem_map.mp h
    exact (g.place_append_inj hp hq hp' hq' he.symm).1
  · rintro rfl
    exact List.mem_map_of_mem hq

/-- Two ranks share a group exactly when their keys agree. -/
theorem together_iff (hp : p ∈ indices g.keys) (hq : q ∈ indices g.members) (hp' : p' ∈ indices g.keys)
    (hq' : q' ∈ indices g.members) : Together g.groups (g.place (p ++ q)) (g.place (p' ++ q')) ↔ p = p' := by
  constructor
  · rintro ⟨x, hx, h, h'⟩
    obtain ⟨k, hk, rfl⟩ := List.mem_map.mp hx
    exact ((g.mem_group hp hq hk).mp h).trans ((g.mem_group hp' hq' hk).mp h').symm
  · rintro rfl
    exact ⟨_, List.mem_map_of_mem hp, (g.mem_group hp hq hp).mpr rfl, (g.mem_group hp hq' hp).mpr rfl⟩

/-- The place of a rank in its group is the position of its member part. -/
theorem idxOf_group (hp : p ∈ indices g.keys) (hq : q ∈ indices g.members) :
    (g.group p).idxOf (g.place (p ++ q)) = ravel g.members q := by
  have hn : (g.group p).Nodup :=
    (List.nodup_map_iff_inj_on (nodup_indices _)).mpr fun i hi j hj h => (g.place_append_inj hp hi hp hj h).2
  have hlt : ravel g.members q < (g.group p).length := by
    rw [group, List.length_map, length_indices]
    exact ravel_lt hq
  have hget : (g.group p)[ravel g.members q] = g.place (p ++ q) := by
    simp only [group, List.getElem_map, getElem_indices hq]
  rw [← hget]
  exact hn.idxOf_getElem _ hlt

/-- Cutting the flattened groups into rows of the group size gives the groups back. -/
theorem rows_eq_groups :
    (List.range g.keys.prod).map (fun k => block g.members.prod k ((indices (g.keys ++ g.members)).map g.place)) =
      g.groups := by
  have hlen : g.groups.length = g.keys.prod := by rw [groups, List.length_map, length_indices]
  apply List.ext_getElem
  · rw [List.length_map, List.length_range, hlen]
  · intro k hk hk'
    rw [List.getElem_map, List.getElem_range, ← groups_flatten]
    exact block_flatten g.isPartition.1 hk'

/-- The grid of an array in its own order. -/
def ofShape (keys members : List Nat) (h : (keys ++ members).prod = N) : RankGrid N where
  keys := keys
  members := members
  place := ravel (keys ++ members)
  place_lt _ hi := h ▸ ravel_lt hi
  place_inj _ hi _ hj := ravel_inj hi hj
  prod_eq := h

/-- Consecutive blocks of n ranks. -/
def ofBlocks {n : Nat} (h : n ∣ N) : RankGrid N := ofShape [N / n] [n] (by simpa using Nat.div_mul_cancel h)

theorem place_ofBlocks {n : Nat} (h : n ∣ N) (k q : Nat) : (ofBlocks h).place ([k] ++ [q]) = k * n + q := by
  simp [ofBlocks, ofShape, ravel]

theorem map_place_ofBlocks {n : Nat} (h : n ∣ N) :
    (indices ((ofBlocks h).keys ++ (ofBlocks h).members)).map (ofBlocks h).place = List.range N :=
  (map_ravel_indices [N / n, n]).trans (congrArg List.range (by simpa using Nat.div_mul_cancel h))

/-- The grid of an array of shape s with the axes i and j exchanged. -/
def ofSwap (s : List Nat) {i j : Nat} (hi : i < s.length) (hj : j < s.length) (keys members : List Nat)
    (hs : swapAxes i j s = keys ++ members) (hp : (keys ++ members).prod = s.prod) (hN : s.prod = N) :
    RankGrid N where
  keys := keys
  members := members
  place k := ravel s (swapAxes i j k)
  place_lt k hk := hN ▸ ravel_lt (swapAxes_mem_indices hi hj (hs ▸ hk))
  place_inj k hk l hl h := by
    have he := ravel_inj (swapAxes_mem_indices hi hj (hs ▸ hk)) (swapAxes_mem_indices hi hj (hs ▸ hl)) h
    have hlen : ∀ m ∈ indices (keys ++ members), m.length = s.length := by
      intro m hm
      rw [(mem_indices.mp hm).length_eq, ← hs, length_swapAxes]
    rw [← swapAxes_swapAxes (l := k) (hlen k hk ▸ hi) (hlen k hk ▸ hj), he,
      swapAxes_swapAxes (hlen l hl ▸ hi) (hlen l hl ▸ hj)]
  prod_eq := hp.trans hN

end RankGrid

/-- The ranks 0..n-1 in order. -/
def arange (n : Nat) : NDArray Nat := ⟨[n], List.range n, by simp⟩

theorem NDArray.reindex_range {a : NDArray Nat} (ha : a.data = List.range a.shape.prod) (s : List Nat)
    (f : List Nat → List Nat) (h : ∀ i ∈ indices s, f i ∈ indices a.shape) :
    (a.reindex s f h).data = (indices s).map fun i => ravel a.shape (f i) := by
  have hb : ∀ i ∈ indices s, block 1 (ravel a.shape (f i)) a.data = [ravel a.shape (f i)] := by
    intro i hi
    have hlt := ravel_lt (h i hi)
    rw [ha, block_range _ _ _ (by omega)]
    simp
  exact (List.flatMap_congr hb).trans List.map_eq_flatMap.symm

end B70DualTP.Library
