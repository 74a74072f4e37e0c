import B70DualTP.Coordinator.JobCollectives
import B70DualTP.Coordinator.Pipeline
import B70DualTP.Coordinator.Placement

/-! The pipeline stages of a job that has been set up: which rank follows which, and the TP
groups of two neighbouring stages as the senders and the receivers of a hand-off. -/
namespace B70DualTP.Coordinator
open Library Torch Communicator
variable {N : Nat} {l : Layout}

/-- Ranks with the same digits are the same rank. -/
theorem Layout.coord_ext (l : Layout) {r r' : Nat} (hr : r < l.worldSize) (hr' : r' < l.worldSize)
    (h : ∀ a, l.coord a r = l.coord a r') : r = r' := by
  rw [← (l.ravel_coords hr).1, ← (l.ravel_coords hr').1]
  simp only [h]

/-- The groups of all ranks along one axis of a layout: the members have this digit as their place. -/
structure Along (l : Layout) (axis : Axis) (group : Fin N → GroupCoordinator) : Prop where
  worldSize : l.worldSize = N
  family : Family N group
  mem : ∀ r r' : Fin N, (r' : Nat) ∈ (group r).ranks ↔ ∀ a, a ≠ axis → l.coord a r' = l.coord a r
  rankInGroup : ∀ r, (group r).rankInGroup = l.coord axis r

section Along
variable {axis : Axis} {group : Fin N → GroupCoordinator} (h : Along l axis group)
include h

theorem Along.ext {r r' : Fin N} (hcoord : ∀ a, l.coord a r = l.coord a r') : r = r' :=
  Fin.ext (l.coord_ext (h.worldSize ▸ r.2) (h.worldSize ▸ r'.2) hcoord)

/-- The members have the group's list of ranks, and the place of their digit in it. -/
theorem Along.getElem? {r r' : Fin N} (hmem : (r' : Nat) ∈ (group r).ranks) :
    (group r).ranks[l.coord axis r']? = some (r' : Nat) := by
  have hself := (h.family.member r').wired.rank
  rw [(h.family.member r').rank, h.rankInGroup] at hself
  rw [← (h.family.member r').rank] at hmem
  rw [((h.family.peers r r').shared hmem).1]
  exact hself

theorem Along.worldSize_eq (r r' : Fin N) : (group r).worldSize = (group r').worldSize := (h.family.peers r r').worldSize

theorem Along.isFirstRank (r : Fin N) : (group r).isFirstRank = decide ((group r).rankInGroup = 0) := by
  have hself := (h.family.member r).wired.rank
  have hnodup := (h.family.member r).nodup
  rw [GroupCoordinator.isFirstRank, GroupCoordinator.firstRank, decide_eq_decide]
  have hfirst : (group r).ranks[0]? = some ((group r).ranks.get ⟨0, (group r).worldSize_pos⟩) :=
    List.getElem?_eq_getElem (group r).worldSize_pos
  constructor
  · intro heq
    rw [← heq, ← hself] at hfirst
    exact ((List.getElem?_inj (group r).worldSize_pos hnodup).mp hfirst).symm
  · intro hzero
    rw [hzero, hfirst] at hself
    exact (Option.some.inj hself).symm

theorem Along.isLastRank (r : Fin N) :
    (group r).isLastRank = decide ((group r).rankInGroup + 1 = (group r).worldSize) := by
  have hself := (h.family.member r).wired.rank
  have hnodup := (h.family.member r).nodup
  have hpos := (group r).worldSize_pos
  rw [GroupCoordinator.isLastRank, GroupCoordinator.lastRank, List.getLast_eq_getElem, decide_eq_decide]
  have hlt : (group r).ranks.length - 1 < (group r).ranks.length := by
    rw [GroupCoordinator.worldSize] at hpos
    omega
  have hlast : (group r).ranks[(group r).ranks.length - 1]? = some (group r).ranks[(group r).ranks.length - 1] :=
    List.getElem?_eq_getElem hlt
  constructor
  · intro heq
    rw [← heq, ← hself] at hlast
    have hplace := (List.getElem?_inj hlt hnodup).mp hlast
    rw [GroupCoordinator.worldSize]
    omega
  · intro heq
    have hplace : (group r).rankInGroup = (group r).ranks.length - 1 := by
      rw [GroupCoordinator.worldSize] at heq
      omega
    rw [hplace, hlast] at hself
    exact (Option.some.inj hself).symm

end Along

/-- r' is the member of r's group after r. -/
def Follows (pp : Fin N → GroupCoordinator) (r r' : Fin N) : Prop :=
  (r' : Nat) ∈ (pp r).ranks ∧ (pp r').rankInGroup = (pp r).rankInGroup + 1

section Follows
variable {axis : Axis} {pp : Fin N → GroupCoordinator} (h : Along l axis pp)
include h

theorem follows_iff {r r' : Fin N} : Follows pp r r' ↔
    (∀ a, a ≠ axis → l.coord a r' = l.coord a r) ∧ l.coord axis r' = l.coord axis r + 1 := by
  rw [Follows, h.mem, h.rankInGroup, h.rankInGroup]

theorem Follows.next_unique {r r' r'' : Fin N} (h' : Follows pp r r') (h'' : Follows pp r r'') : r' = r'' := by
  obtain ⟨hsame', hnext'⟩ := (follows_iff h).mp h'
  obtain ⟨hsame'', hnext''⟩ := (follows_iff h).mp h''
  refine h.ext fun a => ?_
  by_cases ha : a = axis
  · subst ha
    rw [hnext', hnext'']
  · rw [hsame' a ha, hsame'' a ha]

theorem Follows.prev_unique {r r' r'' : Fin N} (h' : Follows pp r' r) (h'' : Follows pp r'' r) : r' = r'' := by
  obtain ⟨hsame', hnext'⟩ := (follows_iff h).mp h'
  obtain ⟨hsame'', hnext''⟩ := (follows_iff h).mp h''
  refine h.ext fun a => ?_
  by_cases ha : a = axis
  · subst ha
    omega
  · rw [← hsame' a ha, ← hsame'' a ha]

/-- All but the last have a successor, all but the first a predecessor. -/
theorem exists_follows_iff (r : Fin N) : (∃ r', Follows pp r r') ↔ (pp r).rankInGroup + 1 < (pp r).worldSize := by
  constructor
  · rintro ⟨r', -, hnext⟩
    rw [← hnext, h.worldSize_eq r r']
    exact (pp r').rank_lt
  · intro hlt
    have hlt' : (pp r).rankInGroup + 1 < (pp r).cpuGroup.ranks.length := by
      rw [(h.family.member r).wired.cpuGroup]
      exact hlt
    refine ⟨h.family.colleague r ⟨_, hlt'⟩, ?_, h.family.colleague_rankInGroup r _⟩
    rw [← (h.family.member r).wired.cpuGroup]
    exact List.get_mem _ _

theorem exists_precedes_iff (r : Fin N) : (∃ r', Follows pp r' r) ↔ 0 < (pp r).rankInGroup := by
  constructor
  · rintro ⟨r', -, hnext⟩
    omega
  · intro hpos
    have hlt : (pp r).rankInGroup - 1 < (pp r).cpuGroup.ranks.length := by
      rw [(h.family.member r).wired.cpuGroup]
      have := (pp r).rank_lt
      omega
    refine ⟨h.family.colleague r ⟨_, hlt⟩, ?_, ?_⟩
    · obtain ⟨hranks, -⟩ := h.family.colleague_shared r ⟨_, hlt⟩
      rw [← hranks, ← (h.family.member r).rank]
      exact List.mem_of_getElem? (h.family.member r).wired.rank
    · rw [h.family.colleague_rankInGroup]
      exact (Nat.sub_add_cancel hpos).symm

end Follows

/-- These ranks are the members of one group, in its order. -/
def Row (tp : Fin N → GroupCoordinator) {n : Nat} (b : Fin n → Fin N) : Prop :=
  ∀ i, (tp (b i)).ranks = List.ofFn fun j => (b j : Nat)

section Row
variable {axis : Axis} {tp pp : Fin N → GroupCoordinator} {n : Nat} {a b : Fin n → Fin N}

theorem row_colleague (h : Family N tp) (r : Fin N) : Row tp (h.colleague r) := by
  intro i
  rw [← (h.colleague_shared r i).1, ← (h.member r).wired.cpuGroup]
  exact (List.ofFn_get _).symm

theorem Row.worldSize (hb : Row tp b) (i : Fin n) : (tp (b i)).worldSize = n := by
  rw [GroupCoordinator.worldSize, hb i, List.length_ofFn]

theorem Row.mem (hb : Row tp b) (i j : Fin n) : (b j : Nat) ∈ (tp (b i)).ranks := by
  rw [hb i]
  exact List.mem_ofFn.mpr ⟨j, rfl⟩

theorem Row.injective (h : Along l axis tp) (hb : Row tp b) : Function.Injective fun i => (b i : Nat) := by
  intro i j hij
  have hnodup := (h.family.member (b i)).nodup
  rw [hb i, List.nodup_ofFn] at hnodup
  exact hnodup hij

theorem Row.coord (h : Along l axis tp) (hb : Row tp b) (i : Fin n) : l.coord axis (b i) = i := by
  have hget := h.getElem? (hb.mem i i)
  have hnodup := (h.family.member (b i)).nodup
  have hlt : (i : Nat) < (tp (b i)).ranks.length := by
    rw [hb i, List.length_ofFn]
    exact i.2
  have hi : (tp (b i)).ranks[(i : Nat)]? = some (b i : Nat) := by
    rw [hb i]
    simp
  exact ((List.getElem?_inj hlt hnodup).mp (hi.trans hget.symm)).symm

theorem Row.same (h : Along l axis tp) (hb : Row tp b) (i j : Fin n) {c : Axis} (hc : c ≠ axis) :
    l.coord c (b i) = l.coord c (b j) := (h.mem (b j) (b i)).mp (hb.mem j i) c hc

/-- Ranks with the digits of a row are a row. -/
theorem Row.of_coord (h : Along l axis tp) (ha : Row tp a) (hplace : ∀ i, l.coord axis (b i) = l.coord axis (a i))
    (hsame : ∀ i j c, c ≠ axis → l.coord c (b i) = l.coord c (b j)) : Row tp b := by
  intro i
  have hlength : (tp (b i)).ranks.length = n := (h.worldSize_eq (b i) (a i)).trans (ha.worldSize i)
  apply List.ext_getElem
  · rw [hlength, List.length_ofFn]
  · intro k hk hk'
    have hmem := List.getElem_mem hk
    have hlt := (h.family.member (b i)).lt _ hmem
    have hget : (tp (b i)).ranks[l.coord axis (⟨_, hlt⟩ : Fin N)]? = _ := h.getElem? hmem
    have hnodup := (h.family.member (b i)).nodup
    have hdigit : k = l.coord axis (tp (b i)).ranks[k] :=
      (List.getElem?_inj hk hnodup).mp ((List.getElem?_eq_getElem hk).trans hget.symm)
    rw [List.getElem_ofFn]
    have heq : (⟨_, hlt⟩ : Fin N) = b ⟨k, hlength ▸ hk⟩ := by
      refine h.ext fun c => ?_
      by_cases hc : c = axis
      · subst hc
        rw [← hdigit, hplace, ha.coord h]
      · exact ((h.mem _ _).mp hmem c hc).trans (hsame _ _ c hc)
    exact congrArg Fin.val heq

/-- The successors of a row are a row, and so are its predecessors. -/
theorem Row.next (htp : Along l .tp tp) (hpp : Along l .pp pp) (ha : Row tp a) (hab : ∀ i, Follows pp (a i) (b i)) :
    Row tp b := by
  have hnext := fun i => (follows_iff hpp).mp (hab i)
  refine ha.of_coord htp (fun i => (hnext i).1 .tp (by decide)) fun i j c hc => ?_
  by_cases hpipe : c = .pp
  · subst hpipe
    rw [(hnext i).2, (hnext j).2, ha.same htp i j hc]
  · rw [(hnext i).1 c hpipe, (hnext j).1 c hpipe, ha.same htp i j hc]

theorem Row.prev (htp : Along l .tp tp) (hpp : Along l .pp pp) (hb : Row tp b) (hab : ∀ i, Follows pp (a i) (b i)) :
    Row tp a := by
  have hnext := fun i => (follows_iff hpp).mp (hab i)
  refine hb.of_coord htp (fun i => ((hnext i).1 .tp (by decide)).symm) fun i j c hc => ?_
  by_cases hpipe : c = .pp
  · subst hpipe
    have hi := (hnext i).2
    have hj := (hnext j).2
    have hsame := hb.same htp i j hc
    omega
  · rw [← (hnext i).1 c hpipe, ← (hnext j).1 c hpipe, hb.same htp i j hc]

end Row

/-- The TP and PP groups of all ranks, and the processes that hold them. -/
structure Staged (l : Layout) (tp pp : Fin N → GroupCoordinator) (process : Fin N → Process) : Prop where
  alongTp : Along l .tp tp
  alongPp : Along l .pp pp
  communicator : ∀ r, 1 < (tp r).worldSize → (tp r).deviceCommunicator.isSome = true
  initialized : ∀ r, (process r).isInitialized = true
  registered : ∀ r, (process r).groups (tp r).uniqueName = some (some (tp r))

namespace Staged
variable {tp pp : Fin N → GroupCoordinator} {process : Fin N → Process} (h : Staged l tp pp process) {n : Nat}
  {a b : Fin n → Fin N}

/-- The two TP groups as groups for the all-gather. -/
def gatherGroups (ha : Row tp a) (hb : Row tp b) (hn : 0 < n) :
    GatherGroups n (List.ofFn fun i => (pp (b i)).rank) fun i => process (b i) where
  sender i := tp (a i)
  sender_worldSize := ha.worldSize
  sender_rank i := (h.alongTp.rankInGroup (a i)).trans (ha.coord h.alongTp i)
  receiver i := tp (b i)
  receiver_wired i := (h.alongTp.family.member (b i)).wired
  receiver_ranks i := by simp only [hb i, (h.alongPp.family.member _).rank]
  receiver_rank i := (h.alongTp.rankInGroup (b i)).trans (hb.coord h.alongTp i)
  cpuGroup := (tp (b ⟨0, hn⟩)).cpuGroup
  receiver_cpuGroup i := by
    have hmem := hb.mem i ⟨0, hn⟩
    rw [← (h.alongTp.family.member _).rank] at hmem
    exact ((h.alongTp.family.peers _ _).shared hmem).2.1
  deviceGroup := (tp (b ⟨0, hn⟩)).deviceGroup
  receiver_deviceGroup i := by
    have hmem := hb.mem i ⟨0, hn⟩
    rw [← (h.alongTp.family.member _).rank] at hmem
    exact ((h.alongTp.family.peers _ _).shared hmem).2.2
  hoststaged := (tp (b ⟨0, hn⟩)).deviceCommunicator.any (·.hoststaged)
  communicator hlarge i := by
    have hflag := h.alongTp.family.colleague_hoststaged (b i) (b ⟨0, hn⟩)
    obtain ⟨comm, hcomm⟩ := Option.isSome_iff_exists.mp (h.communicator (b i) (by rwa [hb.worldSize]))
    refine ⟨comm, hcomm, ?_⟩
    rw [← hflag, hcomm, Option.any_some]
  registered i := h.registered (b i)

include h in
/-- The senders and the receivers are different ranks. -/
theorem handoff_nodup (ha : Row tp a) (hb : Row tp b) (hab : ∀ i, Follows pp (a i) (b i)) :
    (List.ofFn (fun i => (pp (a i)).rank) ++ List.ofFn fun i => (pp (b i)).rank).Nodup := by
  simp only [(h.alongPp.family.member _).rank]
  refine List.nodup_append.mpr
    ⟨List.nodup_ofFn.mpr (ha.injective h.alongTp), List.nodup_ofFn.mpr (hb.injective h.alongTp), ?_⟩
  rintro x hx y hy rfl
  obtain ⟨i, rfl⟩ := List.mem_ofFn.mp hx
  obtain ⟨j, hj⟩ := List.mem_ofFn.mp hy
  -- a sender and a receiver differ in the PP digit
  have hsame := hb.same h.alongTp i j (show Axis.pp ≠ .tp by decide)
  have hnext := ((follows_iff h.alongPp).mp (hab i)).2
  rw [hj] at hsame
  omega

include h in
/-- The default destination is the successor, the default source the predecessor. -/
theorem next_place (hab : ∀ i, Follows pp (a i) (b i)) (i : Fin n) :
    (none : Option Int).getD (((pp (a i)).rankInGroup + 1) % (pp (a i)).worldSize : Nat) = (pp (b i)).rankInGroup := by
  have hlt := (exists_follows_iff h.alongPp (a i)).mp ⟨b i, hab i⟩
  rw [Option.getD_none, Nat.mod_eq_of_lt hlt, (hab i).2]

theorem prev_place (hab : ∀ i, Follows pp (a i) (b i)) (i : Fin n) :
    (none : Option Int).getD ((((pp (b i)).rankInGroup : Int) - 1) % (pp (b i)).worldSize) = (pp (a i)).rankInGroup := by
  have hlt := (pp (b i)).rank_lt
  have hnext := (hab i).2
  rw [Option.getD_none, hnext]
  rw [hnext] at hlt
  have hsub : (((pp (a i)).rankInGroup + 1 : Nat) : Int) - 1 = (pp (a i)).rankInGroup := by omega
  rw [hsub, GroupCoordinator.worldSize]
  exact Int.emod_eq_of_lt (by omega) (by omega)

/-- Members of one TP group send to their successors, with or without the TP group as
all_gather_group. -/
def pipeline (hn : 0 < n) (ha : Row tp a) (hb : Row tp b) (hab : ∀ i, Follows pp (a i) (b i)) (grouped : Bool) :
    Pipeline n where
  pos := hn
  sender i := pp (a i)
  receiver i := pp (b i)
  senderProcess i := process (a i)
  receiverProcess i := process (b i)
  sender_initialized i := h.initialized (a i)
  receiver_initialized i := h.initialized (b i)
  sender_wired i := (h.alongPp.family.member (a i)).wired
  receiver_wired i := (h.alongPp.family.member (b i)).wired
  ranks i := by
    have hmem := (hab i).1
    rw [← (h.alongPp.family.member (b i)).rank] at hmem
    exact ((h.alongPp.family.peers _ _).shared hmem).1.symm
  cpuGroup i := by
    have hmem := (hab i).1
    rw [← (h.alongPp.family.member (b i)).rank] at hmem
    exact ((h.alongPp.family.peers _ _).shared hmem).2.1.symm
  deviceGroup i := by
    have hmem := (hab i).1
    rw [← (h.alongPp.family.member (b i)).rank] at hmem
    exact ((h.alongPp.family.peers _ _).shared hmem).2.2.symm
  nodup := h.handoff_nodup ha hb hab
  dst _ := none
  dst_eq := h.next_place hab
  src _ := none
  src_eq := prev_place hab
  gather := if grouped then some (h.gatherGroups ha hb hn) else none

end Staged

section Job
variable {job : List (JobStep N)} {hoststagedTp backend : Option String} {steps : Fin N → List LifeStep}
  {final : Fin N → LifeState}

private theorem along_of_laidOut {dcp : Nat} {axis : Axis} {group : Fin N → GroupCoordinator} {name : GroupName}
    (hN : l.worldSize = N) (hfamily : Family N group)
    (hout : ∀ r : Fin N, name.LaidOut l dcp r ⟨(group r).ranks, (group r).rankInGroup⟩)
    (hshares : ∀ r r', name.Shares l dcp r r' ↔ ∀ a, a ≠ axis → l.coord a r = l.coord a r')
    (hplace : ∀ r, name.placeOf l dcp r = l.coord axis r) : Along l axis group := by
  refine ⟨hN, hfamily, fun r r' => ?_, fun r => (hout r).rankInGroup.trans (hplace r)⟩
  have hlt : (r' : Nat) < l.worldSize := hN ▸ r'.2
  rw [(hout r).ranks r', hshares]
  exact ⟨fun h => h.2, fun h => ⟨hlt, h⟩⟩

/-- The TP and PP groups that the getters of all ranks return lie along their axes. -/
theorem JobRuns.staged (h : JobRuns job hoststagedTp backend steps final) (hN : 0 < N)
    (hdist : ∀ r, (final r).dist.isSome = true) {alive : Fin N → List Nat} {tp pp : Fin N → GroupCoordinator}
    (htp : ∀ r, GetterReturns ⟨(final r).toModuleState, alive r⟩ (.slot (.of .tp)) (tp r))
    (hpp : ∀ r, GetterReturns ⟨(final r).toModuleState, alive r⟩ (.slot (.of .pp)) (pp r))
    (currentDevice : Fin N → Nat) : ∃ l : Layout,
      Staged l tp pp fun r => (Interpreter.mk (final r).toModuleState (alive r)).process (currentDevice r) := by
  obtain ⟨htpFamily, hcomm⟩ := h.family htp
  obtain ⟨hppFamily, -⟩ := h.family hpp
  have hplaced := h.placed
  obtain ⟨sizes, hsizes⟩ : ∃ sizes, placedAfter job none = some sizes := by
    obtain ⟨id, -, replaced, hheld⟩ := (htp ⟨0, hN⟩).held
    obtain ⟨sizes, hsizes, -⟩ := (hplaced ⟨0, hN⟩).selected (.of .tp) _ hheld
    exact ⟨sizes, hsizes⟩
  obtain ⟨l, dcp, hl, hlsizes⟩ := Placed.exists_layout hN (hsizes ▸ hplaced ⟨0, hN⟩)
  have hout : ∀ (name : GroupName) (group : Fin N → GroupCoordinator),
      (∀ r, GetterReturns ⟨(final r).toModuleState, alive r⟩ (.slot (.of name)) (group r)) →
        ∀ r : Fin N, name.LaidOut l dcp r ⟨(group r).ranks, (group r).rankInGroup⟩ := by
    intro name group hget r
    obtain ⟨id, -, replaced, hheld⟩ := (hget r).held
    obtain ⟨sizes', hsizes', hsel⟩ := (hplaced r).selected (.of name) _ hheld
    obtain rfl : sizes' = sizes := Option.some.inj (hsizes'.symm.trans hsizes)
    obtain ⟨g, replaced', hgroup, hlaid⟩ := hsel.laidOut r.2 hl hlsizes
    cases hgroup
    exact hlaid
  refine ⟨l, along_of_laidOut hl htpFamily (hout .tp tp htp) (fun _ _ => Iff.rfl) fun _ => rfl,
    along_of_laidOut hl hppFamily (hout .pp pp hpp) (fun _ _ => Iff.rfl) fun _ => rfl, hcomm rfl, hdist, fun r => ?_⟩
  obtain ⟨id, hid, replaced, hheld⟩ := (htp r).held
  have hfound := ModuleState.Registered.findGroup (h.registered r) hheld hid
  rw [findGroup] at hfound
  split at hfound
  · cases hfound
  · cases hfound
  · rename_i heq
    cases hfound
    exact heq

end Job

end B70DualTP.Coordinator
