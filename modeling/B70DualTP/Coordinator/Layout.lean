import B70DualTP.Coordinator.ModuleState

/-! The rank lists against the layout they are meant to have: five axes, ranks as
mixed-radix numbers, one family of groups for each axis. -/
namespace B70DualTP.Coordinator
open Library Torch

inductive Axis where
  | ext | dp | pp | pcp | tp
  deriving DecidableEq, Repr

/-- The sizes of the axes, all positive. -/
structure Layout where
  ext : Nat
  dp : Nat
  pp : Nat
  pcp : Nat
  tp : Nat
  ext_pos : 0 < ext
  dp_pos : 0 < dp
  pp_pos : 0 < pp
  pcp_pos : 0 < pcp
  tp_pos : 0 < tp
  deriving DecidableEq, Repr

namespace Layout
variable (l : Layout)

def shape : List Nat := [l.ext, l.dp, l.pp, l.pcp, l.tp]
def worldSize : Nat := l.ext * l.dp * l.pp * l.pcp * l.tp

/-- The mixed-radix digit of a rank on an axis. -/
def coord (a : Axis) (rank : Nat) : Nat :=
  match a, unravel l.shape rank with
  | .ext, [e, _, _, _, _] => e
  | .dp, [_, d, _, _, _] => d
  | .pp, [_, _, p, _, _] => p
  | .pcp, [_, _, _, c, _] => c
  | .tp, [_, _, _, _, t] => t
  | _, _ => 0

def sizes (decodeContext : Nat) : ModelParallelSizes :=
  ⟨l.tp, l.pp, l.pcp, some decodeContext, l.dp⟩

theorem prod_shape : l.shape.prod = l.worldSize := by simp [shape, worldSize]; ring

theorem dvd_worldSize {dcp : Nat} (h : dcp ∣ l.tp) : dcp ∣ l.worldSize := h.trans (Dvd.intro_left _ rfl)

theorem ravel_coords {rank : Nat} (h : rank < l.worldSize) :
    ravel l.shape [l.coord .ext rank, l.coord .dp rank, l.coord .pp rank, l.coord .pcp rank, l.coord .tp rank] =
      rank ∧ [l.coord .ext rank, l.coord .dp rank, l.coord .pp rank, l.coord .pcp rank, l.coord .tp rank] ∈
        indices l.shape := by
  rw [← prod_shape] at h
  have hu : unravel l.shape rank = [l.coord .ext rank, l.coord .dp rank, l.coord .pp rank,
      l.coord .pcp rank, l.coord .tp rank] := rfl
  rw [← hu]
  exact ⟨ravel_unravel h, unravel_mem_indices h⟩

theorem coord_lt {rank : Nat} (h : rank < l.worldSize) : l.coord .ext rank < l.ext ∧ l.coord .dp rank < l.dp ∧
    l.coord .pp rank < l.pp ∧ l.coord .pcp rank < l.pcp ∧ l.coord .tp rank < l.tp := by
  have hm := mem_indices.mp (l.ravel_coords h).2
  simpa [shape] using hm

end Layout

section Grids
variable (l : Layout) (dcp : Nat)

def GroupName.size : GroupName → Nat
  | .tp => l.tp
  | .dcp => dcp
  | .pcp => l.pcp
  | .pp => l.pp
  | .dp => l.dp
  | .ep => l.dp * l.pcp * l.tp

/-- The axes on which the members of a group differ. -/
def GroupName.Varies : GroupName → Axis → Prop
  | .tp, a | .dcp, a => a = .tp
  | .pcp, a => a = .pcp
  | .pp, a => a = .pp
  | .dp, a => a = .dp
  | .ep, a => a = .dp ∨ a = .pcp ∨ a = .tp

/-- The place that the layout gives a rank in its group. -/
def GroupName.coordinate (rank : Nat) : GroupName → Nat
  | .tp => l.coord .tp rank
  | .dcp => l.coord .tp rank % dcp
  | .pcp => l.coord .pcp rank
  | .pp => l.coord .pp rank
  | .dp => l.coord .dp rank
  | .ep => (l.coord .dp rank * l.pcp + l.coord .pcp rank) * l.tp + l.coord .tp rank

variable {dcp} (h : dcp ∣ l.tp)

def GroupName.grid : GroupName → RankGrid l.worldSize
  | .tp => .ofShape [l.ext, l.dp, l.pp, l.pcp] [l.tp] l.prod_shape
  | .dcp => .ofBlocks (l.dvd_worldSize h)
  | .pcp => .ofSwap l.shape (i := 3) (j := 4) (by simp [Layout.shape]) (by simp [Layout.shape])
    [l.ext, l.dp, l.pp, l.tp] [l.pcp] rfl (by simp only [List.cons_append, List.nil_append, Layout.shape, List.prod_cons]; ring)
    l.prod_shape
  | .pp => .ofSwap l.shape (i := 2) (j := 4) (by simp [Layout.shape]) (by simp [Layout.shape])
    [l.ext, l.dp, l.tp, l.pcp] [l.pp] rfl (by simp only [List.cons_append, List.nil_append, Layout.shape, List.prod_cons]; ring)
    l.prod_shape
  | .dp => .ofSwap l.shape (i := 1) (j := 4) (by simp [Layout.shape]) (by simp [Layout.shape])
    [l.ext, l.tp, l.pp, l.pcp] [l.dp] rfl (by simp only [List.cons_append, List.nil_append, Layout.shape, List.prod_cons]; ring)
    l.prod_shape
  | .ep => .ofSwap l.shape (i := 1) (j := 2) (by simp [Layout.shape]) (by simp [Layout.shape])
    [l.ext, l.pp] [l.dp, l.pcp, l.tp] rfl (by simp only [List.cons_append, List.nil_append, Layout.shape, List.prod_cons]; ring)
    l.prod_shape

def GroupName.keyOf (dcp rank : Nat) : GroupName → List Nat
  | .tp => [l.coord .ext rank, l.coord .dp rank, l.coord .pp rank, l.coord .pcp rank]
  | .dcp => [rank / dcp]
  | .pcp => [l.coord .ext rank, l.coord .dp rank, l.coord .pp rank, l.coord .tp rank]
  | .pp => [l.coord .ext rank, l.coord .dp rank, l.coord .tp rank, l.coord .pcp rank]
  | .dp => [l.coord .ext rank, l.coord .tp rank, l.coord .pp rank, l.coord .pcp rank]
  | .ep => [l.coord .ext rank, l.coord .pp rank]

def GroupName.memberOf (dcp rank : Nat) : GroupName → List Nat
  | .tp => [l.coord .tp rank]
  | .dcp => [rank % dcp]
  | .pcp => [l.coord .pcp rank]
  | .pp => [l.coord .pp rank]
  | .dp => [l.coord .dp rank]
  | .ep => [l.coord .dp rank, l.coord .pcp rank, l.coord .tp rank]

/-- Every rank sits at its key and member part in the grid of each family. -/
theorem GroupName.located (kind : GroupName) {rank : Nat} (hr : rank < l.worldSize) :
    kind.keyOf l dcp rank ∈ indices (kind.grid l h).keys ∧
      kind.memberOf l dcp rank ∈ indices (kind.grid l h).members ∧
        (kind.grid l h).place (kind.keyOf l dcp rank ++ kind.memberOf l dcp rank) = rank := by
  have hplace := (l.ravel_coords hr).1
  obtain ⟨he, hd, hp, hc, ht⟩ := l.coord_lt hr
  simp only [mem_indices]
  cases kind with
  | dcp =>
    have hpos : 0 < dcp := Nat.pos_of_dvd_of_pos h l.tp_pos
    refine ⟨?_, ?_, ?_⟩
    · simpa [keyOf, grid, RankGrid.ofBlocks, RankGrid.ofShape] using
        Nat.div_lt_div_of_lt_of_dvd (l.dvd_worldSize h) hr
    · simpa [memberOf, grid, RankGrid.ofBlocks, RankGrid.ofShape] using Nat.mod_lt rank hpos
    · exact (RankGrid.place_ofBlocks (l.dvd_worldSize h) _ _).trans (Nat.div_add_mod' rank dcp)
  | tp => exact ⟨by simp [keyOf, grid, RankGrid.ofShape, *], by simp [memberOf, grid, RankGrid.ofShape, *], hplace⟩
  | _ => exact ⟨by simp [keyOf, grid, RankGrid.ofSwap, *], by simp [memberOf, grid, RankGrid.ofSwap, *], hplace⟩

end Grids

section Source

theorem unbindRows_grid {N : Nat} (g : RankGrid N) {ranks : NDArray Nat}
    (hdata : ranks.data = (indices (g.keys ++ g.members)).map g.place) (hsize : g.members.prod ≠ 0) :
    unbindRows g.members.prod ranks = .ok g.groups := by
  have hnum : ranks.numel = g.keys.prod * g.members.prod := by
    rw [NDArray.numel, ← ranks.wf, hdata, List.length_map, length_indices, List.prod_append]
  have hshape : ranks.data.length = [g.keys.prod, g.members.prod].prod := by
    rw [ranks.wf]
    simpa [NDArray.numel] using hnum
  have hrows : reshapeInfer [g.members.prod] ranks = .ok ⟨_, ranks.data, hshape⟩ := by
    simp [reshapeInfer, hsize, hnum, NDArray.reshape?, NDArray.ofData?_eq_some hshape]
  rw [unbindRows, hrows]
  apply congrArg Except.ok
  simp only [List.headD_cons, hdata]
  exact g.rows_eq_groups

variable (l : Layout) {dcp : Nat} (h : dcp ∣ l.tp)

theorem allRanks_eq (dcp : Nat) : ∃ ranks, allRanks l.worldSize (l.sizes dcp) = .ok ranks ∧ ranks.shape = l.shape ∧
    ranks.data = List.range l.worldSize := by
  have hp : [l.dp, l.pp, l.pcp, l.tp].prod ≠ 0 := by
    simpa [← Nat.pos_iff_ne_zero] using ⟨l.dp_pos, l.pp_pos, l.pcp_pos, l.tp_pos⟩
  have hw : l.worldSize = l.ext * [l.dp, l.pp, l.pcp, l.tp].prod := by
    simp only [Layout.worldSize, List.prod_cons, List.prod_nil]
    ring
  have hs : (arange l.worldSize).data.length = l.shape.prod := by
    rw [l.prod_shape]
    exact List.length_range
  have hn : (arange l.worldSize).numel = l.worldSize := by simp [NDArray.numel, arange]
  refine ⟨⟨l.shape, _, hs⟩, ?_, rfl, rfl⟩
  have hd : l.worldSize / [l.dp, l.pp, l.pcp, l.tp].prod = l.ext := by
    rw [hw, Nat.mul_div_cancel _ (Nat.pos_of_ne_zero hp)]
  have hm : l.worldSize % [l.dp, l.pp, l.pcp, l.tp].prod = 0 := by
    rw [hw, Nat.mul_mod_left]
  simp only [allRanks, Layout.sizes, reshapeInfer, hn, hm, hd]
  rw [if_pos ⟨hp, trivial⟩, NDArray.reshape?]
  have := NDArray.ofData?_eq_some hs
  simp only [Layout.shape] at this
  rw [this]
  rfl

include h in
theorem GroupName.size_ne_zero (kind : GroupName) : kind.size l dcp ≠ 0 := by
  have := l.dp_pos; have := l.pp_pos; have := l.pcp_pos; have := l.tp_pos
  have hd := Nat.pos_of_dvd_of_pos h l.tp_pos
  cases kind with
  | ep => exact Nat.mul_ne_zero (Nat.mul_ne_zero (by omega) (by omega)) (by omega)
  | _ => simp only [size]; omega

theorem GroupName.prod_members (kind : GroupName) : (kind.grid l h).members.prod = kind.size l dcp := by
  cases kind <;> simp [grid, size, RankGrid.ofBlocks, RankGrid.ofShape, RankGrid.ofSwap, Nat.mul_assoc]

private theorem transpose_eq {ranks : NDArray Nat} (hs : ranks.shape = l.shape)
    (hd : ranks.data = List.range l.worldSize) {i j : Nat} (hi : i < l.shape.length) (hj : j < l.shape.length) :
    ∃ swapped, transpose i j ranks = .ok swapped ∧
      swapped.data = (indices (swapAxes i j l.shape)).map fun k => ravel l.shape (swapAxes i j k) := by
  have hij : i < ranks.shape.length ∧ j < ranks.shape.length := by rw [hs]; exact ⟨hi, hj⟩
  have hr : ranks.data = List.range ranks.shape.prod := by rw [hs, l.prod_shape, hd]
  have hk : ∀ k ∈ indices (swapAxes i j ranks.shape), swapAxes i j k ∈ indices ranks.shape :=
    fun k hk => swapAxes_mem_indices hij.1 hij.2 hk
  refine ⟨ranks.reindex _ _ hk, ?_, ?_⟩
  · rw [transpose, NDArray.transpose?, dif_pos hij]
  · rw [NDArray.reindex_range hr, hs]

/-- Each list that initialize_model_parallel builds is the list of groups of a grid. -/
theorem GroupName.groupRanks_eq (kind : GroupName) {ranks : NDArray Nat} (hs : ranks.shape = l.shape)
    (hd : ranks.data = List.range l.worldSize) :
    kind.groupRanks (l.sizes dcp) ranks = .ok (kind.grid l h).groups := by
  have hrow : ∀ rows : NDArray Nat, rows.data =
      (indices ((kind.grid l h).keys ++ (kind.grid l h).members)).map (kind.grid l h).place →
        unbindRows (kind.size l dcp) rows = .ok (kind.grid l h).groups := by
    intro rows hrows
    rw [← kind.prod_members l h]
    exact unbindRows_grid _ hrows (by rw [kind.prod_members l h]; exact kind.size_ne_zero l h)
  cases kind with
  | tp =>
    refine hrow ranks (hd.trans ?_)
    exact (congrArg List.range l.prod_shape.symm).trans (map_ravel_indices l.shape).symm
  | dcp =>
    exact hrow ranks (hd.trans (RankGrid.map_place_ofBlocks (l.dvd_worldSize h)).symm)
  | pcp =>
    obtain ⟨rows, ht, hrows⟩ := transpose_eq l hs hd (i := 3) (j := 4) (by simp [Layout.shape]) (by simp [Layout.shape])
    simp only [groupRanks, ht]
    exact hrow rows hrows
  | pp =>
    obtain ⟨rows, ht, hrows⟩ := transpose_eq l hs hd (i := 2) (j := 4) (by simp [Layout.shape]) (by simp [Layout.shape])
    simp only [groupRanks, ht]
    exact hrow rows hrows
  | dp =>
    obtain ⟨rows, ht, hrows⟩ := transpose_eq l hs hd (i := 1) (j := 4) (by simp [Layout.shape]) (by simp [Layout.shape])
    simp only [groupRanks, ht]
    exact hrow rows hrows
  | ep =>
    obtain ⟨rows, ht, hrows⟩ := transpose_eq l hs hd (i := 1) (j := 2) (by simp [Layout.shape]) (by simp [Layout.shape])
    simp only [groupRanks, ht]
    exact hrow rows hrows

end Source

section Main
variable (l : Layout) {dcp : Nat} (h : dcp ∣ l.tp)

theorem selectGroup_groups {N : Nat} (g : RankGrid N) {p q : List Nat} (hp : p ∈ indices g.keys)
    (hq : q ∈ indices g.members) :
    selectGroup (g.place (p ++ q)) g.groups = some ⟨g.group p, ravel g.members q⟩ := by
  obtain ⟨x, hx, hr, hs⟩ := selectGroup_spec (List.mem_map_of_mem hp) ((g.mem_group hp hq hp).mpr rfl)
  obtain ⟨p', hp', rfl⟩ := List.mem_map.mp hx
  obtain rfl := (g.mem_group hp hq hp').mp hr
  rw [RankGrid.groups, hs, g.idxOf_group hp hq]

private theorem eq_block_add_tp {rank : Nat} (hr : rank < l.worldSize) :
    rank = ravel [l.ext, l.dp, l.pp, l.pcp]
      [l.coord .ext rank, l.coord .dp rank, l.coord .pp rank, l.coord .pcp rank] * l.tp + l.coord .tp rank := by
  have hs := ravel_concat (s := [l.ext, l.dp, l.pp, l.pcp])
    (i := [l.coord .ext rank, l.coord .dp rank, l.coord .pp rank, l.coord .pcp rank]) l.tp (l.coord .tp rank) rfl
  exact (l.ravel_coords hr).1.symm.trans hs

theorem GroupName.ravel_memberOf (kind : GroupName) {rank : Nat} (hr : rank < l.worldSize) :
    ravel (kind.grid l h).members (kind.memberOf l dcp rank) = kind.coordinate l dcp rank := by
  cases kind with
  | dcp =>
    have hmod : rank % dcp = l.coord .tp rank % dcp := by
      obtain ⟨m, hm⟩ := h
      conv_lhs => rw [eq_block_add_tp l hr, hm]
      rw [Nat.mul_left_comm, Nat.mul_add_mod]
    simpa [grid, RankGrid.ofBlocks, RankGrid.ofShape, memberOf, coordinate, ravel] using hmod
  | ep =>
    simp only [grid, RankGrid.ofSwap, memberOf, coordinate, ravel, List.prod_cons, List.prod_nil]
    ring
  | _ => simp [grid, RankGrid.ofShape, RankGrid.ofSwap, memberOf, coordinate, ravel]

theorem GroupName.keyOf_eq_iff (kind : GroupName) (hk : kind ≠ .dcp) (rank rank' : Nat) :
    kind.keyOf l dcp rank = kind.keyOf l dcp rank' ↔
      ∀ a, ¬ kind.Varies a → l.coord a rank = l.coord a rank' := by
  constructor
  · intro he a ha
    cases kind <;> cases a <;> simp_all [keyOf, Varies]
  · intro ha
    have := ha .ext; have := ha .dp; have := ha .pp; have := ha .pcp; have := ha .tp
    cases kind <;> simp_all [keyOf, Varies]

theorem dcp_subset_tp {x : List Nat} (hx : x ∈ (GroupName.dcp.grid l h).groups) :
    ∃ y ∈ (GroupName.tp.grid l h).groups, x ⊆ y := by
  obtain ⟨p, hp, rfl⟩ := List.mem_map.mp hx
  obtain ⟨k, hk, rfl⟩ := mem_indices_singleton.mp hp
  -- the TP group of the first rank of the block
  have hdcp : 0 < dcp := Nat.pos_of_dvd_of_pos h l.tp_pos
  have hmul : (k + 1) * dcp ≤ l.worldSize := (Nat.le_div_iff_mul_le hdcp).mp hk
  have hfirst : k * dcp < l.worldSize := by
    rw [Nat.succ_mul] at hmul
    omega
  have hblock := eq_block_add_tp l hfirst
  obtain ⟨he, hd, hpp, hc, ht⟩ := l.coord_lt hfirst
  have hroom : l.coord .tp (k * dcp) + dcp ≤ l.tp := by
    have hdvd : dcp ∣ l.coord .tp (k * dcp) := by
      have hall : dcp ∣ k * dcp := Dvd.intro_left _ rfl
      rw [hblock] at hall
      exact (Nat.dvd_add_right (h.trans (Dvd.intro_left _ rfl))).mp hall
    obtain ⟨a, ha⟩ := hdvd
    obtain ⟨b, hb⟩ := h
    rw [ha, hb] at ht ⊢
    have hab : a + 1 ≤ b := Nat.lt_of_mul_lt_mul_left ht
    calc dcp * a + dcp = dcp * (a + 1) := by ring
      _ ≤ dcp * b := Nat.mul_le_mul_left dcp hab
  refine ⟨_, List.mem_map_of_mem (GroupName.tp.located l h hfirst).1, ?_⟩
  intro r hr
  obtain ⟨m, hm, rfl⟩ := List.mem_map.mp hr
  obtain ⟨q, hq, rfl⟩ := mem_indices_singleton.mp hm
  refine List.mem_map.mpr ⟨[l.coord .tp (k * dcp) + q], mem_indices_singleton.mpr ⟨_, by omega, rfl⟩, ?_⟩
  · have hs := ravel_concat (s := [l.ext, l.dp, l.pp, l.pcp])
      (i := GroupName.tp.keyOf l dcp (k * dcp)) l.tp (l.coord .tp (k * dcp) + q) rfl
    have hdcpPlace : (GroupName.dcp.grid l h).place ([k] ++ [q]) = k * dcp + q :=
      RankGrid.place_ofBlocks (l.dvd_worldSize h) k q
    rw [hdcpPlace]
    apply hs.trans
    rw [← Nat.add_assoc]
    exact congrArg (· + q) hblock.symm

/-- What initialize_model_parallel builds for a family: a partition into groups of its
size, whose groups are the ranks that agree on the other axes, each rank placed in its
group by its digits. A DCP group is part of a TP group. -/
theorem groupRanks_layout {dcp : Nat} (h : dcp ∣ l.tp) (kind : GroupName) :
    ∃ ranks groups tpGroups, allRanks l.worldSize (l.sizes dcp) = .ok ranks ∧
      kind.groupRanks (l.sizes dcp) ranks = .ok groups ∧
      GroupName.tp.groupRanks (l.sizes dcp) ranks = .ok tpGroups ∧
      IsPartition l.worldSize (kind.size l dcp) groups ∧
      (kind ≠ .dcp → ∀ r < l.worldSize, ∀ r' < l.worldSize,
        (Together groups r r' ↔ ∀ a, ¬ kind.Varies a → l.coord a r = l.coord a r')) ∧
      (kind = .dcp → ∀ x ∈ groups, ∃ y ∈ tpGroups, x ⊆ y) ∧
      ∀ r < l.worldSize, ∃ m, selectGroup r groups = some m ∧ m.BuiltFrom l.worldSize r groups ∧
        m.ranks ∈ groups ∧ r ∈ m.ranks ∧ m.rankInGroup = kind.coordinate l dcp r := by
  obtain ⟨ranks, hall, hs, hd⟩ := allRanks_eq l dcp
  refine ⟨ranks, _, _, hall, kind.groupRanks_eq l h hs hd, GroupName.tp.groupRanks_eq l h hs hd, ?_, ?_, ?_, ?_⟩
  · rw [← kind.prod_members l h]
    exact (kind.grid l h).isPartition
  · intro hk r hr r' hr'
    obtain ⟨hp, hq, hplace⟩ := kind.located l h hr
    obtain ⟨hp', hq', hplace'⟩ := kind.located l h hr'
    have ht := (kind.grid l h).together_iff hp hq hp' hq'
    rw [hplace, hplace'] at ht
    exact ht.trans (kind.keyOf_eq_iff l hk r r')
  · rintro rfl x hx
    exact dcp_subset_tp l h hx
  · intro r hr
    obtain ⟨hp, hq, hplace⟩ := kind.located l h hr
    have hsel := selectGroup_groups (kind.grid l h) hp hq
    have hmem := ((kind.grid l h).mem_group hp hq hp).mpr rfl
    rw [hplace] at hsel hmem
    exact ⟨_, hsel, builtFrom_of_selectGroup hsel, List.mem_map_of_mem hp, hmem, kind.ravel_memberOf l h hr⟩

def layoutExample : Layout := ⟨1, 2, 2, 1, 2, by decide, by decide, by decide, by decide, by decide⟩

/-- Eight ranks, two axes of expert parallelism: two EP groups of four. -/
theorem groupRanks_layout_example : ∃ ranks groups tpGroups, allRanks 8 (layoutExample.sizes 2) = .ok ranks ∧
    GroupName.ep.groupRanks (layoutExample.sizes 2) ranks = .ok groups ∧
    GroupName.tp.groupRanks (layoutExample.sizes 2) ranks = .ok tpGroups ∧ IsPartition 8 4 groups ∧
    (GroupName.ep ≠ .dcp → ∀ r < 8, ∀ r' < 8,
      (Together groups r r' ↔ ∀ a, ¬ GroupName.ep.Varies a → layoutExample.coord a r = layoutExample.coord a r')) ∧
    (GroupName.ep = .dcp → ∀ x ∈ groups, ∃ y ∈ tpGroups, x ⊆ y) ∧
    ∀ r < 8, ∃ m, selectGroup r groups = some m ∧ m.BuiltFrom 8 r groups ∧ m.ranks ∈ groups ∧ r ∈ m.ranks ∧
      m.rankInGroup = GroupName.ep.coordinate layoutExample 2 r := by
  have h : 2 ∣ layoutExample.tp := by decide
  exact groupRanks_layout layoutExample h .ep

end Main

end B70DualTP.Coordinator
