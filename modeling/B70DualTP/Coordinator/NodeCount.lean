import B70DualTP.Coordinator.SameNode
import Mathlib.Data.Finset.Card

/-! _node_count: a table of node ids, filled by probing in_the_same_node_as from the first
rank of every node. -/
namespace B70DualTP.Coordinator
open Library
variable {W : Nat} {E C N : Type} {R : C → Type}

/-- One pass over enumerate(same_node_flags). -/
def assignFlags (nextNodeId : Nat) (flags : List Bool) (nodeAssignment : Fin W → Nat) : Fin W → Nat :=
  ((List.finRange W).zip flags).foldl (fun assignment (otherRank, isSameNode) =>
    if isSameNode ∧ assignment otherRank = 0 then Function.update assignment otherRank nextNodeId else assignment)
    nodeAssignment

section Function
variable (sameNode : Fin W → Script E C R (List Bool))

/-- for current_rank in range(world_size) -/
def countLoop : List (Fin W) → (Fin W → Nat) → Nat → Script E C R Nat
  | [], _, nextNodeId => return nextNodeId
  | currentRank :: ranks, nodeAssignment, nextNodeId =>
    if nodeAssignment currentRank ≠ 0 then countLoop ranks nodeAssignment nextNodeId
    else do
      let nodeAssignment := Function.update nodeAssignment currentRank (nextNodeId + 1)
      let flags ← sameNode currentRank
      countLoop ranks (assignFlags (nextNodeId + 1) flags nodeAssignment) (nextNodeId + 1)

/-- The function in_the_same_node_as is a parameter: the source rank it takes, the flags it returns. -/
def nodeCount : Script E C R Nat :=
  if W = 1 then return 1 else countLoop sameNode (List.finRange W) (fun _ => 0) 0

end Function

section Loop
variable [DecidableEq N] (node : Fin W → N)

/-- The flags in_the_same_node_as should return for a source. -/
def sameNodeFlags (source : Fin W) : List Bool := List.ofFn fun r => decide (node r = node source)

/-- No smaller rank shares the node. -/
def IsSmallest (s : Fin W) : Prop := ∀ r, node r = node s → s ≤ r

instance decidableIsSmallest (s : Fin W) : Decidable (IsSmallest node s) :=
  inferInstanceAs (Decidable (∀ r, node r = node s → s ≤ r))

/-- Every node is probed once, by its smallest rank. -/
structure ProbesEachNodeOnce (probes : List (Fin W)) : Prop where
  nodup : probes.Nodup
  once : ∀ r, ∃! s, s ∈ probes ∧ node s = node r
  smallest : ∀ s ∈ probes, IsSmallest node s

/-- After the ranks in `done`, the table marks exactly the ranks of their nodes, and the
last id is the number of these nodes. -/
structure Assigned (done : List (Fin W)) (nodeAssignment : Fin W → Nat) (nextNodeId : Nat) : Prop where
  marked : ∀ r, nodeAssignment r ≠ 0 ↔ ∃ s ∈ done, node s = node r
  count : nextNodeId = (done.map node).toFinset.card

variable {node} {done : List (Fin W)} {nodeAssignment : Fin W → Nat} {nextNodeId : Nat}

theorem Assigned.nil : Assigned node [] (fun _ => 0) 0 :=
  ⟨fun r => by simp, rfl⟩

omit [DecidableEq N] in
private theorem exists_mem_append_iff {s r : Fin W} :
    (∃ t ∈ done ++ [s], node t = node r) ↔ (∃ t ∈ done, node t = node r) ∨ node s = node r := by
  simp only [List.mem_append, List.mem_singleton, or_and_right, exists_or, exists_eq_left]

/-- A rank whose node is known is passed over. -/
theorem Assigned.skip (h : Assigned node done nodeAssignment nextNodeId) {s : Fin W} (hs : nodeAssignment s ≠ 0) :
    Assigned node (done ++ [s]) nodeAssignment nextNodeId := by
  obtain ⟨s', hs', hnode⟩ := (h.marked s).mp hs
  constructor
  · intro r
    rw [h.marked r, exists_mem_append_iff]
    constructor
    · exact Or.inl
    · rintro (hr | he)
      · exact hr
      · exact ⟨s', hs', hnode.trans he⟩
  · have hmem : node s ∈ (done.map node).toFinset := by
      rw [List.mem_toFinset]
      exact List.mem_map.mpr ⟨s', hs', hnode⟩
    have hset : ((done ++ [s]).map node).toFinset = (done.map node).toFinset := by
      rw [List.map_append, List.toFinset_append]
      simpa using hmem
    rw [hset]
    exact h.count

private theorem foldl_assign (f : Fin W → Bool) (ranks : List (Fin W)) (a : Fin W → Nat) (r : Fin W) :
    ranks.foldl (fun a s => if f s ∧ a s = 0 then Function.update a s nextNodeId else a) a r =
      if r ∈ ranks ∧ f r ∧ a r = 0 then nextNodeId else a r := by
  induction ranks generalizing a with
  | nil => simp
  | cons s ranks ih =>
    rw [List.foldl_cons, ih]
    rcases eq_or_ne r s with rfl | hr
    · by_cases ha : f r = true ∧ a r = 0
      · rw [if_pos ha, Function.update_self, ite_self, if_pos ⟨List.mem_cons_self, ha⟩]
      · rw [if_neg ha, if_neg fun h => ha h.2, if_neg fun h => ha h.2]
    · have hother : (if f s ∧ a s = 0 then Function.update a s nextNodeId else a) r = a r := by
        split_ifs
        · exact Function.update_of_ne hr _ _
        · rfl
      simp only [hother, List.mem_cons, hr, false_or]

/-- The pass gives the new id to the flagged ranks that have none. -/
theorem assignFlags_ofFn (f : Fin W → Bool) (r : Fin W) :
    assignFlags nextNodeId (List.ofFn f) nodeAssignment r =
      if f r ∧ nodeAssignment r = 0 then nextNodeId else nodeAssignment r := by
  have hzip : (List.finRange W).zip (List.ofFn f) = (List.finRange W).map fun s => (s, f s) := by
    rw [List.ofFn_eq_map, ← List.zip_map', List.map_id']
  rw [assignFlags, hzip, List.foldl_map, foldl_assign]
  simp only [List.mem_finRange, true_and]

/-- A rank whose node is new gets the next id, with all ranks of its node. -/
theorem Assigned.probe (h : Assigned node done nodeAssignment nextNodeId) {s : Fin W} (hs : nodeAssignment s = 0) :
    Assigned node (done ++ [s])
      (assignFlags (nextNodeId + 1) (sameNodeFlags node s) (Function.update nodeAssignment s (nextNodeId + 1)))
      (nextNodeId + 1) := by
  have hnew : ∀ t ∈ done, node t ≠ node s := fun t ht he => (h.marked s).mpr ⟨t, ht, he⟩ hs
  constructor
  · intro r
    rw [sameNodeFlags, assignFlags_ofFn]
    rcases eq_or_ne r s with rfl | hr
    · rw [Function.update_self, if_neg fun h => Nat.succ_ne_zero _ h.2]
      exact iff_of_true (Nat.succ_ne_zero _) (exists_mem_append_iff.mpr (.inr rfl))
    simp only [Function.update_of_ne hr, decide_eq_true_iff]
    by_cases hnode : node r = node s
    · have hr0 : nodeAssignment r = 0 := by
        by_contra hr0
        obtain ⟨t, ht, he⟩ := (h.marked r).mp hr0
        exact hnew t ht (he.trans hnode)
      rw [if_pos ⟨hnode, hr0⟩]
      exact iff_of_true (Nat.succ_ne_zero _) (exists_mem_append_iff.mpr (.inr hnode.symm))
    · rw [if_neg fun h => hnode h.1, h.marked r, exists_mem_append_iff]
      exact (or_iff_left (Ne.symm hnode)).symm
  · have hmem : node s ∉ (done.map node).toFinset := by
      rw [List.mem_toFinset, List.mem_map]
      rintro ⟨t, ht, he⟩
      exact hnew t ht he
    have hset : ((done ++ [s]).map node).toFinset = insert (node s) (done.map node).toFinset := by
      rw [List.map_append, List.toFinset_append, Finset.union_comm]
      rfl
    rw [hset, Finset.card_insert_of_notMem hmem, ← h.count]

/-- The source ranks that are still to be probed, once `done` is behind the loop. -/
theorem assigned_eq_zero_iff (h : Assigned node done nodeAssignment nextNodeId) {s : Fin W} {ranks : List (Fin W)}
    (hsplit : done ++ s :: ranks = List.finRange W) : nodeAssignment s = 0 ↔ IsSmallest node s := by
  have hsorted : (done ++ s :: ranks).Pairwise (· < ·) := by
    rw [hsplit]
    exact List.pairwise_lt_finRange W
  obtain ⟨-, htail, hlt⟩ := List.pairwise_append.mp hsorted
  have hmem : ∀ r, r ∈ done ↔ r < s := by
    intro r
    constructor
    · exact fun hr => hlt r hr s List.mem_cons_self
    · intro hr
      have hall : r ∈ done ++ s :: ranks := by
        rw [hsplit]
        exact List.mem_finRange r
      rcases List.mem_append.mp hall with hd | hd
      · exact hd
      rcases List.mem_cons.mp hd with rfl | hd
      · exact absurd hr (lt_irrefl r)
      · exact absurd hr (lt_asymm ((List.pairwise_cons.mp htail).1 r hd))
  rw [← not_iff_not, ← ne_eq, h.marked s]
  simp only [IsSmallest, hmem, not_forall, not_le]
  constructor
  · rintro ⟨r, hr, he⟩
    exact ⟨r, he, hr⟩
  · rintro ⟨r, he, hr⟩
    exact ⟨r, hr, he⟩

end Loop

section Runs
variable [DecidableEq N] (node : Fin W → N) {meaning : (c : Fin W → C) → ∀ r, R (c r)}

/-- The smallest rank of every node, in increasing order. -/
def firstRanks : List (Fin W) := (List.finRange W).filter (IsSmallest node ·)

theorem mem_firstRanks {s : Fin W} : s ∈ firstRanks node ↔ IsSmallest node s := by
  simp [firstRanks]

theorem firstRanks_probesEachNodeOnce : ProbesEachNodeOnce node (firstRanks node) := by
  constructor
  · exact (List.nodup_finRange W).filter _
  · intro r
    have hne : (Finset.univ.filter fun s => node s = node r).Nonempty := ⟨r, by simp⟩
    obtain ⟨s, hs, hmin⟩ := Finset.exists_min_image _ id hne
    have hnode : node s = node r := (Finset.mem_filter.mp hs).2
    refine ⟨s, ⟨(mem_firstRanks node).mpr fun t ht => ?_, hnode⟩, ?_⟩
    · exact hmin t (Finset.mem_filter.mpr ⟨Finset.mem_univ t, ht.trans hnode⟩)
    · rintro t ⟨ht, htnode⟩
      apply le_antisymm
      · exact (mem_firstRanks node).mp ht s (hnode.trans htnode.symm)
      · exact hmin t (Finset.mem_filter.mpr ⟨Finset.mem_univ t, htnode⟩)
  · exact fun s hs => (mem_firstRanks node).mp hs

variable {node} {meaning : (c : Fin W → C) → ∀ r, Except E (R (c r))}
  {sameNode : Fin W → Fin W → Script E C (fun c => Except E (R c)) (List Bool)} {tr : Fin W → List (Fin W → C)}
  (hsame : ∀ s, IsSmallest node s →
    Script.Runs meaning (fun r => sameNode r s) (tr s) fun _ => .ok (sameNodeFlags node s))
include hsame

theorem countLoop_runs {done : List (Fin W)} {nodeAssignment : Fin W → Nat} {nextNodeId : Nat} (ranks : List (Fin W))
    (hsplit : done ++ ranks = List.finRange W) (h : Assigned node done nodeAssignment nextNodeId) :
    Script.Runs meaning (fun r => countLoop (sameNode r) ranks nodeAssignment nextNodeId)
      ((ranks.filter (IsSmallest node ·)).flatMap tr) fun _ => .ok (Finset.univ.image node).card := by
  induction ranks generalizing done nodeAssignment nextNodeId with
  | nil =>
    have hcount : nextNodeId = (Finset.univ.image node).card := by
      rw [List.append_nil] at hsplit
      rw [h.count, hsplit]
      congr 1
    rw [hcount]
    exact Script.runs_pure _
  | cons s ranks ih =>
    have hsplit' : done ++ [s] ++ ranks = List.finRange W := by rw [List.append_assoc]; exact hsplit
    by_cases hs : nodeAssignment s = 0
    · have hsmallest := (assigned_eq_zero_iff h hsplit).mp hs
      simp only [countLoop, hs, ne_eq, not_true_eq_false, if_false]
      rw [List.filter_cons, if_pos (decide_eq_true hsmallest), List.flatMap_cons]
      exact Script.runs_bind (hsame s hsmallest) (ih hsplit' (h.probe hs))
    · have hsmallest := mt (assigned_eq_zero_iff h hsplit).mpr hs
      simp only [countLoop, ne_eq, hs, not_false_eq_true, if_true]
      rw [List.filter_cons, if_neg (mt of_decide_eq_true hsmallest)]
      exact ih hsplit' (h.skip hs)

/-- Every rank counts the nodes, and the probes are those of the first ranks. -/
theorem nodeCount_runs : Script.Runs meaning (fun r => nodeCount (sameNode r))
    (if W = 1 then [] else (firstRanks node).flatMap tr) fun _ => .ok (Finset.univ.image node).card := by
  by_cases hW : W = 1
  · subst hW
    have hcard : (Finset.univ.image node).card = 1 := by
      rw [Finset.univ_unique, Finset.image_singleton, Finset.card_singleton]
    simp only [nodeCount, if_true, hcard]
    exact Script.runs_pure _
  · simp only [nodeCount, hW, if_false]
    exact countLoop_runs hsame (List.finRange W) (List.nil_append _) .nil

end Runs

section Probes

/-- The call carries the source rank. -/
abbrev ProbeScript (E : Type) (W : Nat) (A : Type) := Script E (Fin W) (fun _ => Except E (List Bool)) A

def probe (source : Fin W) : ProbeScript E W (List Bool) := Script.ask source

/-- Every rank calls with the same source. -/
def probeRow (source : Fin W) : Fin W → Fin W := fun _ => source

/-- All ranks probe these sources, in this order, and return the count. -/
def CountsNodes (meaning : (Fin W → Fin W) → Fin W → Except E (List Bool)) (probes : List (Fin W))
    (count : Nat) : Prop :=
  Script.Runs meaning (fun _ => nodeCount probe) (probes.map probeRow) fun _ => .ok count

variable [DecidableEq N] {node : Fin W → N} {meaning : (Fin W → Fin W) → Fin W → Except E (List Bool)}
  (hmeaning : ∀ s r, meaning (probeRow s) r = .ok (sameNodeFlags node s))
include hmeaning

private theorem countsNodes_firstRanks :
    CountsNodes meaning (if W = 1 then [] else firstRanks node) (Finset.univ.image node).card := by
  have hsame : ∀ s, Script.Runs meaning (fun _ => probe s) [probeRow s] fun _ => .ok (sameNodeFlags node s) := by
    intro s
    apply Prog.GroupRun.of_replies (hmeaning s)
    · exact fun r => ⟨_, rfl, rfl⟩
    · exact .done _
  have h := nodeCount_runs fun s _ => hsame s
  rw [← List.map_eq_flatMap] at h
  rwa [CountsNodes, apply_ite (List.map probeRow)]

/-- The ranks call in_the_same_node_as with one sequence of sources, in which every node
is probed once; a rank that is alone does not call it. -/
theorem nodeCount_probes : ∃ probes : List (Fin W), CountsNodes meaning probes (Finset.univ.image node).card ∧
    (W = 1 → probes = []) ∧ (W ≠ 1 → ProbesEachNodeOnce node probes) := by
  refine ⟨_, countsNodes_firstRanks hmeaning, fun hW => if_pos hW, fun hW => ?_⟩
  rw [if_neg hW]
  exact firstRanks_probesEachNodeOnce node

end Probes

/-- Replies that tell the nodes apart. -/
def flagReplies (node : Fin W → Nat) (c : Fin W → Fin W) (r : Fin W) : Except NodeError (List Bool) :=
  .ok (sameNodeFlags node (c r))

/-- Ranks 0 and 2 share a node. -/
def threeRanks (r : Fin 3) : Nat := r % 2

theorem threeRanks_probes : ∃ probes, CountsNodes (flagReplies threeRanks) probes 2 ∧
    (3 = 1 → probes = []) ∧ (3 ≠ 1 → ProbesEachNodeOnce threeRanks probes) := by
  have hmeaning : ∀ s r, flagReplies threeRanks (probeRow s) r = .ok (sameNodeFlags threeRanks s) := fun _ _ => rfl
  have hcard : (Finset.univ.image threeRanks).card = 2 := by decide
  have h := nodeCount_probes hmeaning
  rwa [hcard] at h

theorem oneRank_not_probed : ¬ ∃ probes, CountsNodes (flagReplies fun _ : Fin 1 => 0) probes 1 ∧
    ProbesEachNodeOnce (fun _ : Fin 1 => 0) probes := by
  rintro ⟨probes, hrun, hprobes⟩
  obtain ⟨htr, -⟩ := hrun.unique (.of_ret fun _ => rfl)
  rw [List.map_eq_nil_iff] at htr
  obtain ⟨s, hs, -⟩ := hprobes.once 0
  rw [htr] at hs
  cases hs.1

/-- The ranks stay in step through all probes and agree on the count, where the smallest rank of
every node gets a segment that the ranks of its node can read and no others can. -/
theorem nodeCount_inTheSameNodeAs [DecidableEq N] {group : NodeGroup} {node : Fin group.worldSize → N}
    (hnccl : group.isNccl = false) (hranks : group.ranks.Nodup)
    {memory : Fin group.worldSize → Fin group.worldSize → LocalMemory}
    (hcreate : ∀ s, IsSmallest node s → ∃ shm, (memory s s).created = .ok shm ∧ shm.buf ≠ none)
    (hnode : ∀ s r, IsSmallest node s → (hasSegment s (memory s) r = true ↔ node r = node s)) :
    ∃ tr, (∀ row ∈ tr, InStep row) ∧
      Script.Runs (nodeMeaning group) (fun r => nodeCount fun s => inTheSameNodeAs group s r (memory s r)) tr
        fun _ => .ok (Finset.univ.image node).card := by
  have hprobe : ∀ s, ∃ tr : List (Fin group.worldSize → NodeCall), IsSmallest node s → (∀ row ∈ tr, InStep row) ∧
      Script.Runs (nodeMeaning group) (fun r => inTheSameNodeAs group s r (memory s r)) tr
        fun _ => .ok (sameNodeFlags node s) := by
    intro s
    by_cases hs : IsSmallest node s
    · obtain ⟨name, hname⟩ := writesMagic_eq_ok_iff.mpr (hcreate s hs)
      obtain ⟨tr, hstep, hrun⟩ := inTheSameNodeAs_runs s (memory s) hnccl hranks hname
      have hflags : hasSegment s (memory s) = fun r => decide (node r = node s) := by
        funext r
        rw [Bool.eq_iff_iff, decide_eq_true_iff]
        exact hnode s r hs
      rw [hflags] at hrun
      exact ⟨tr, fun _ => ⟨hstep, hrun⟩⟩
    · exact ⟨[], fun h => absurd h hs⟩
  choose tr htr using hprobe
  refine ⟨_, ?_, nodeCount_runs fun s hs => (htr s hs).2⟩
  intro row hrow
  split_ifs at hrow
  · cases hrow
  · obtain ⟨s, hs, hmem⟩ := List.mem_flatMap.mp hrow
    exact (htr s ((mem_firstRanks node).mp hs)).1 row hmem

/-- Three ranks, of which 0 and 2 share a node. -/
def threeGroup : NodeGroup := .stateless 3

/-- The segments of a node are read on that node only, and rank 2 cannot create one. -/
def threeMemory (s r : Fin threeGroup.worldSize) : LocalMemory where
  created := if s.1 = 2 then .error .osError else .ok ⟨"psm_0", some magicMessage⟩
  opened _ := if r.1 % 2 = s.1 % 2 then .ok ⟨"psm_0", some magicMessage⟩ else .error .osError

theorem threeMemory_nodeCount : ∃ tr, (∀ row ∈ tr, InStep row) ∧
    Script.Runs (nodeMeaning threeGroup) (fun r => nodeCount fun s => inTheSameNodeAs threeGroup s r (threeMemory s r))
      tr fun _ => .ok (Finset.univ.image fun r : Fin threeGroup.worldSize => r.1 % 2).card := by
  have hcreate : ∀ s : Fin threeGroup.worldSize, IsSmallest (fun r => r.1 % 2) s →
      ∃ shm, (threeMemory s s).created = .ok shm ∧ shm.buf ≠ none := by
    intro s hs
    refine ⟨⟨"psm_0", some magicMessage⟩, if_neg ?_, by simp⟩
    intro hs2
    have hle : s.1 ≤ 0 := hs ⟨0, Nat.succ_pos 2⟩ (by simp [hs2])
    omega
  exact nodeCount_inTheSameNodeAs rfl (by decide) hcreate (by decide)

end B70DualTP.Coordinator
