import B70DualTP.Coordinator.Layout

/-! One data-parallel replica, computed four times: by the rank offset, by the explicit
lists of inner_dp_world, by the five-axis layout and by the three-axis layout of the
elastic mode. -/
namespace B70DualTP.Coordinator
open Library Torch

/-- When one grid continues another at an offset, the group of a rank of the first is the
shifted group of the second. -/
theorem selectGroup_shift {N L offset : Nat} (g : RankGrid N) (g' : RankGrid L) (key : List Nat → List Nat)
    (hm : g.members = g'.members) (hkey : ∀ p ∈ indices g'.keys, key p ∈ indices g.keys)
    (hplace : ∀ p ∈ indices g'.keys, ∀ q ∈ indices g'.members,
      g.place (key p ++ q) = offset + g'.place (p ++ q)) {i : Nat} (hi : i < L) :
    ∃ m m', selectGroup (offset + i) g.groups = some m ∧ selectGroup i g'.groups = some m' ∧
      m.ranks = m'.ranks.map (offset + ·) := by
  obtain ⟨p, hp, q, hq, rfl⟩ := g'.exists_place hi
  have hs := selectGroup_groups g (hkey p hp) (by rw [hm]; exact hq)
  rw [hplace p hp q hq] at hs
  refine ⟨_, _, hs, selectGroup_groups g' hp hq, ?_⟩
  simp only [RankGrid.group, hm, List.map_map]
  exact List.map_congr_left fun q' hq' => hplace p hp q' hq'

theorem selectGroup_blocks {n L D d : Nat} (h : n ∣ L) (hd : d < D) (h' : n ∣ D * L) {i : Nat} (hi : i < L) :
    ∃ m m', selectGroup (d * L + i) (RankGrid.ofBlocks h').groups = some m ∧
      selectGroup i (RankGrid.ofBlocks h).groups = some m' ∧ m.ranks = m'.ranks.map (d * L + ·) := by
  obtain ⟨k, rfl⟩ := h
  rcases Nat.eq_zero_or_pos n with rfl | hn
  · omega
  refine selectGroup_shift (.ofBlocks h') (.ofBlocks (Dvd.intro k rfl)) (fun p => [d * k + p.headD 0])
    rfl ?_ ?_ hi
  · intro p hp
    obtain ⟨b, hb, rfl⟩ := mem_indices_singleton.mp hp
    rw [Nat.mul_div_cancel_left _ hn] at hb
    refine mem_indices_singleton.mpr ⟨d * k + b, ?_, rfl⟩
    rw [Nat.mul_left_comm, Nat.mul_div_cancel_left _ hn]
    calc d * k + b < d * k + k := by omega
      _ = (d + 1) * k := by ring
      _ ≤ D * k := Nat.mul_le_mul_right k hd
  · intro p hp q hq
    obtain ⟨b, -, rfl⟩ := mem_indices_singleton.mp hp
    obtain ⟨c, -, rfl⟩ := mem_indices_singleton.mp hq
    rw [List.headD_cons, RankGrid.place_ofBlocks, RankGrid.place_ofBlocks]
    ring

theorem unbindRows_blocks {N n : Nat} (h : n ∣ N) (hn : n ≠ 0) {ranks : NDArray Nat}
    (hd : ranks.data = List.range N) : unbindRows n ranks = .ok (RankGrid.ofBlocks h).groups := by
  have hp : (RankGrid.ofBlocks h).members.prod = n := List.prod_singleton
  have hu := unbindRows_grid (RankGrid.ofBlocks h) (hd.trans (RankGrid.map_place_ofBlocks h).symm) (by rwa [hp])
  rwa [hp] at hu

section Replica
variable (l : Layout)

def Layout.replicaSize : Nat := l.pp * l.pcp * l.tp

/-- The layout without external data parallelism. -/
def Layout.internal : Layout := { l with ext := 1, ext_pos := Nat.one_pos }

theorem worldSize_internal : l.internal.worldSize = l.dp * l.replicaSize := by
  simp only [Layout.worldSize, Layout.internal, Layout.replicaSize]
  ring

theorem replicaSize_pos : 0 < l.replicaSize := Nat.mul_pos (Nat.mul_pos l.pp_pos l.pcp_pos) l.tp_pos

theorem offsetRank_lt {d i : Nat} (hd : d < l.dp) (hi : i < l.replicaSize) :
    offsetRank d l.replicaSize i < l.internal.worldSize := by
  rw [worldSize_internal, offsetRank_nat]
  calc d * l.replicaSize + i < (d + 1) * l.replicaSize := by rw [Nat.succ_mul]; omega
    _ ≤ l.dp * l.replicaSize := Nat.mul_le_mul_right _ hd

theorem coord_dp {rank : Nat} (h : rank < l.internal.worldSize) :
    l.internal.coord .dp rank = rank / l.replicaSize := by
  have hw : [l.dp, l.pp, l.pcp, l.tp].prod = l.dp * l.replicaSize := by
    simp only [Layout.replicaSize, List.prod_cons, List.prod_nil]
    ring
  have hr : [l.pp, l.pcp, l.tp].prod = l.replicaSize := by
    simp only [Layout.replicaSize, List.prod_cons, List.prod_nil]
    ring
  rw [worldSize_internal, ← hw] at h
  change rank % [l.dp, l.pp, l.pcp, l.tp].prod / [l.pp, l.pcp, l.tp].prod = _
  rw [Nat.mod_eq_of_lt h, hr]

theorem coord_dp_offsetRank {d i : Nat} (hd : d < l.dp) (hi : i < l.replicaSize) :
    l.internal.coord .dp (offsetRank d l.replicaSize i) = d := by
  rw [coord_dp l (offsetRank_lt l hd hi), offsetRank_nat, Nat.mul_comm, Nat.mul_add_div (replicaSize_pos l),
    Nat.div_eq_of_lt hi, Nat.add_zero]

theorem innerDp_group {d i : Nat} (hd : d < l.dp) (hi : i < l.replicaSize) :
    ∃ m, selectGroup (offsetRank d l.replicaSize i) (innerDpGroupRanks l.dp l.replicaSize) = some m ∧
      ∀ r, r ∈ m.ranks ↔ r < l.internal.worldSize ∧ l.internal.coord .dp r = d := by
  have hmem : ∀ e j, j < l.replicaSize → (offsetRank d l.replicaSize i = offsetRank e l.replicaSize j → e = d) := by
    intro e j hj he
    have hdiv := congrArg (· / l.replicaSize) he
    simp only [offsetRank_nat, Nat.mul_comm _ l.replicaSize, Nat.mul_add_div (replicaSize_pos l),
      Nat.div_eq_of_lt hi, Nat.div_eq_of_lt hj, Nat.add_zero] at hdiv
    exact hdiv.symm
  have hgroup : (List.range l.replicaSize).map (offsetRank d l.replicaSize) ∈ innerDpGroupRanks l.dp l.replicaSize :=
    List.mem_map_of_mem (List.mem_range.mpr hd)
  obtain ⟨g, hg, hr, hs⟩ := selectGroup_spec hgroup (List.mem_map_of_mem (List.mem_range.mpr hi))
  obtain ⟨e, he, rfl⟩ := List.mem_map.mp hg
  obtain ⟨j, hj, hj'⟩ := List.mem_map.mp hr
  obtain rfl := hmem e j (List.mem_range.mp hj) hj'.symm
  refine ⟨_, hs, fun r => ⟨?_, ?_⟩⟩
  · intro hr
    obtain ⟨k, hk, rfl⟩ := List.mem_map.mp hr
    have hk' := List.mem_range.mp hk
    exact ⟨offsetRank_lt l hd hk', coord_dp_offsetRank l hd hk'⟩
  · rintro ⟨hr, hc⟩
    rw [coord_dp l hr] at hc
    refine List.mem_map.mpr ⟨r % l.replicaSize, List.mem_range.mpr (Nat.mod_lt _ (replicaSize_pos l)), ?_⟩
    rw [← hc]
    exact Nat.div_add_mod' r l.replicaSize

end Replica

section Elastic
variable (l : Layout) {dcp : Nat}

/-- The families that elastic mode builds inside a replica. -/
def GroupName.Inner (kind : GroupName) : Prop := kind = .tp ∨ kind = .dcp ∨ kind = .pcp ∨ kind = .pp

private def localShape : List Nat := [l.pp, l.pcp, l.tp]

private theorem prod_localShape : (localShape l).prod = l.replicaSize := by
  simp only [localShape, Layout.replicaSize, List.prod_cons, List.prod_nil]
  ring

private def localPcpGrid : RankGrid l.replicaSize :=
  .ofSwap (localShape l) (i := 1) (j := 2) (by simp [localShape]) (by simp [localShape]) [l.pp, l.tp] [l.pcp] rfl
    (by simp only [List.cons_append, List.nil_append, localShape, List.prod_cons]; ring) (prod_localShape l)

private def localPpGrid : RankGrid l.replicaSize :=
  .ofSwap (localShape l) (i := 0) (j := 2) (by simp [localShape]) (by simp [localShape]) [l.tp, l.pcp] [l.pp] rfl
    (by simp only [List.cons_append, List.nil_append, localShape, List.prod_cons]; ring) (prod_localShape l)

theorem localAllRanks_data : (localAllRanks (l.sizes dcp)).data = List.range l.replicaSize := by
  simp only [localAllRanks, Layout.sizes, Layout.replicaSize]
  congr 1
  ring

private theorem local_transpose (dcp : Nat) {i j : Nat} (hi : i < (localShape l).length) (hj : j < (localShape l).length) :
    ∃ swapped, transpose i j (localAllRanks (l.sizes dcp)) = .ok swapped ∧
      swapped.data = (indices (swapAxes i j (localShape l))).map fun k => ravel (localShape l) (swapAxes i j k) := by
  have hr : (localAllRanks (l.sizes dcp)).data = List.range (localAllRanks (l.sizes dcp)).shape.prod :=
    (localAllRanks_data l).trans (congrArg List.range (prod_localShape l).symm)
  have hk : ∀ k ∈ indices (swapAxes i j (localShape l)), swapAxes i j k ∈ indices (localShape l) :=
    fun k hk => swapAxes_mem_indices hi hj hk
  refine ⟨(localAllRanks (l.sizes dcp)).reindex _ _ hk, ?_, NDArray.reindex_range hr _ _ _⟩
  rw [transpose, NDArray.transpose?, dif_pos ⟨hi, hj⟩]
  rfl

private theorem local_pcp_eq : GroupName.pcp.localGroupRanks (l.sizes dcp) (localAllRanks (l.sizes dcp)) =
    .ok (localPcpGrid l).groups := by
  obtain ⟨rows, ht, hrows⟩ := local_transpose l dcp (i := 1) (j := 2) (by simp [localShape])
    (by simp [localShape])
  have hp : (localPcpGrid l).members.prod = l.pcp := List.prod_singleton
  have hu := unbindRows_grid (localPcpGrid l) hrows (by rw [hp]; exact Nat.ne_of_gt l.pcp_pos)
  rw [hp] at hu
  simp only [GroupName.localGroupRanks, ht]
  exact hu

private theorem local_pp_eq : GroupName.pp.localGroupRanks (l.sizes dcp) (localAllRanks (l.sizes dcp)) =
    .ok (localPpGrid l).groups := by
  obtain ⟨rows, ht, hrows⟩ := local_transpose l dcp (i := 0) (j := 2) (by simp [localShape])
    (by simp [localShape])
  have hp : (localPpGrid l).members.prod = l.pp := List.prod_singleton
  have hu := unbindRows_grid (localPpGrid l) hrows (by rw [hp]; exact Nat.ne_of_gt l.pp_pos)
  rw [hp] at hu
  simp only [GroupName.localGroupRanks, ht]
  exact hu

/-- The group that elastic mode builds for a local rank, shifted by the offset of its
replica, is the group that the five-axis layout gives its global rank. -/
theorem local_group_shift (h : dcp ∣ l.replicaSize) {kind : GroupName} (hk : kind.Inner) {ranks : NDArray Nat}
    (hs : ranks.shape = l.internal.shape) (hdata : ranks.data = List.range l.internal.worldSize) {d i : Nat}
    (hd : d < l.dp) (hi : i < l.replicaSize) :
    ∃ groups localGroups m m', kind.groupRanks (l.internal.sizes dcp) ranks = .ok groups ∧
      kind.localGroupRanks (l.internal.sizes dcp) (localAllRanks (l.internal.sizes dcp)) = .ok localGroups ∧
      selectGroup (offsetRank d l.replicaSize i) groups = some m ∧ selectGroup i localGroups = some m' ∧
      m.ranks = m'.ranks.map (offsetRank d l.replicaSize) := by
  have hblocks : ∀ n, n ∣ l.replicaSize → n ≠ 0 → ∃ groups localGroups m m',
      unbindRows n ranks = .ok groups ∧
      unbindRows n (localAllRanks (l.internal.sizes dcp)) = .ok localGroups ∧
      selectGroup (offsetRank d l.replicaSize i) groups = some m ∧ selectGroup i localGroups = some m' ∧
      m.ranks = m'.ranks.map (offsetRank d l.replicaSize) := by
    intro n hn hn0
    have hn' : n ∣ l.dp * l.replicaSize := hn.trans (Dvd.intro_left _ rfl)
    obtain ⟨m, m', hm, hm', he⟩ := selectGroup_blocks hn hd hn' hi
    exact ⟨_, _, m, m', unbindRows_blocks hn' hn0 (hdata.trans (congrArg _ (worldSize_internal l))),
      unbindRows_blocks hn hn0 (localAllRanks_data l.internal), hm, hm', he⟩
  have hplace : ∀ a b c, ravel l.internal.shape [0, d, a, b, c] =
      d * l.replicaSize + ravel (localShape l) [a, b, c] := by
    intro a b c
    simp only [Layout.shape, Layout.internal, localShape, Layout.replicaSize, ravel, List.prod_cons, List.prod_nil]
    ring
  have hshift : ∀ (g : RankGrid l.internal.worldSize) (g' : RankGrid l.replicaSize), g.members = g'.members →
      g.keys = 1 :: l.dp :: g'.keys → (∀ p ∈ indices g'.keys, ∀ q ∈ indices g'.members,
        g.place (0 :: d :: p ++ q) = d * l.replicaSize + g'.place (p ++ q)) →
      ∃ m m', selectGroup (offsetRank d l.replicaSize i) g.groups = some m ∧
        selectGroup i g'.groups = some m' ∧ m.ranks = m'.ranks.map (offsetRank d l.replicaSize) := by
    intro g g' hm hk hp
    refine selectGroup_shift g g' (fun p => 0 :: d :: p) hm ?_ hp hi
    intro p hp
    rw [hk, mem_indices]
    exact .cons Nat.one_pos (.cons hd (mem_indices.mp hp))
  rcases hk with rfl | rfl | rfl | rfl
  · exact hblocks l.tp (Dvd.intro_left _ rfl) (Nat.ne_of_gt l.tp_pos)
  · exact hblocks dcp h (Nat.ne_of_gt (Nat.pos_of_dvd_of_pos h (replicaSize_pos l)))
  · obtain ⟨m, m', hm, hm', he⟩ := hshift (GroupName.pcp.grid l.internal (one_dvd l.tp)) (localPcpGrid l) rfl rfl
      (fun p hp q hq => by
        obtain ⟨a, -, b, -, rfl⟩ := mem_indices_pair.mp hp
        obtain ⟨c, -, rfl⟩ := mem_indices_singleton.mp hq
        exact hplace a c b)
    exact ⟨_, _, m, m', GroupName.pcp.groupRanks_eq l.internal (one_dvd l.tp) hs hdata, local_pcp_eq l, hm, hm', he⟩
  · obtain ⟨m, m', hm, hm', he⟩ := hshift (GroupName.pp.grid l.internal (one_dvd l.tp)) (localPpGrid l) rfl rfl
      (fun p hp q hq => by
        obtain ⟨a, -, b, -, rfl⟩ := mem_indices_pair.mp hp
        obtain ⟨c, -, rfl⟩ := mem_indices_singleton.mp hq
        exact hplace c b a)
    exact ⟨_, _, m, m', GroupName.pp.groupRanks_eq l.internal (one_dvd l.tp) hs hdata, local_pp_eq l, hm, hm', he⟩

end Elastic

end B70DualTP.Coordinator
