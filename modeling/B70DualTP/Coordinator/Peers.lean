import B70DualTP.Library.Twin
import B70DualTP.Coordinator.Layout
import B70DualTP.Coordinator.Lifecycle
import B70DualTP.Coordinator.Replica
import B70DualTP.Coordinator.UniqueNames

/-! The processes of one job run the same set-up code, each as its own rank. Their runs are
compared side by side: the same process groups in the same order, and globals that belong
together. -/
namespace B70DualTP.Coordinator
open Library Torch Communicator

/-- The groups of the k-th list, which holds the caller. -/
structure OwnGroups.Row (own : OwnGroups) (s : ModuleState) (group : DefaultGroup) (backend : Option String)
    (k : Nat) (row : List Nat) : Prop where
  mem : group.rank ∈ row
  ranks : own.ranks = row
  rankInGroup : own.rankInGroup = row.idxOf group.rank
  deviceGroup : own.deviceGroup = ⟨s.requests.length + 2 * k, (s.devBackend backend).getD group.backend, row⟩
  cpuGroup : own.cpuGroup = ⟨s.requests.length + 2 * k + 1, "gloo", row⟩

theorem createGroups_row {s : ModuleState} {group : DefaultGroup} (hd : s.dist = some group)
    (backend : Option String) (groupRanks : List (List Nat)) (own : Option OwnGroups) :
    ∃ own', createGroups group.rank backend groupRanks own s =
        (.ok own', s.request (loopRequests (s.devBackend backend) groupRanks)) ∧
      ∀ o ∈ own', own = some o ∨ ∃ k row, groupRanks[k]? = some row ∧ o.Row s group backend k row := by
  induction groupRanks generalizing s own with
  | nil => exact ⟨own, by simp [createGroups, loopRequests, ModuleState.request], fun o ho => .inl ho⟩
  | cons ranks groupRanks ih =>
    obtain ⟨own', he, hrow⟩ := ih (s := s.request [⟨s.devBackend backend, ranks⟩, ⟨some "gloo", ranks⟩]) hd
      (OwnGroups.pick s group group.rank backend ranks own)
    refine ⟨own', ?_, fun o ho => ?_⟩
    · rw [createGroups_cons hd, he]
      simp [loopRequests]
    · rcases hrow o ho with hpick | ⟨k, row, hk, hrow⟩
      · rw [OwnGroups.pick] at hpick
        split at hpick
        · rename_i hmem
          cases hpick
          exact .inr ⟨0, ranks, rfl, hmem, rfl, rfl, rfl, rfl⟩
        · exact .inl hpick
      · -- two groups have been requested before the rest of the lists
        refine .inr ⟨k + 1, row, hk, hrow.mem, hrow.ranks, hrow.rankInGroup, ?_, ?_⟩
        · rw [hrow.deviceGroup]
          simp only [ModuleState.request_requests, List.length_append, List.length_cons, List.length_nil,
            ModuleState.request_devBackend, ProcessGroup.mk.injEq, and_true]
          omega
        · rw [hrow.cpuGroup]
          simp only [ModuleState.request_requests, List.length_append, List.length_cons, List.length_nil,
            ProcessGroup.mk.injEq, and_true]
          omega

private theorem communicator_uniqueName {own : OwnGroups} {useDeviceCommunicator : Bool} {device : Device}
    {uniqueName : String} {s s' : ModuleState} {comm : Option XpuCommunicator}
    (h : own.communicator useDeviceCommunicator device uniqueName s = (.ok comm, s')) :
    ∀ c ∈ comm, c.uniqueName = uniqueName := by
  intro c hc
  rw [OwnGroups.communicator] at h
  split at h
  · obtain ⟨flag, s₁, -, h₁⟩ := Action.bind_returns h
    split at h₁
    · cases h₁
      cases hc
      rfl
    · cases h₁
  · cases h
    cases hc

/-- What a constructor that returns has built. -/
structure Built (s : ModuleState) (useCustomOpCollectives : Bool) (args : InitArgs) (uniqueName : String)
    (g : GroupCoordinator) (group : DefaultGroup) (k : Nat) (row : List Nat) : Prop where
  dist : s.dist = some group
  list : args.groupRanks[k]? = some row
  mem : group.rank ∈ row
  rank : g.rank = group.rank
  ranks : g.ranks = row
  rankInGroup : g.rankInGroup = row.idxOf group.rank
  deviceGroup : g.deviceGroup =
    ⟨s.requests.length + 2 * k, (s.devBackend args.torchDistributedBackend).getD group.backend, row⟩
  cpuGroup : g.cpuGroup = ⟨s.requests.length + 2 * k + 1, "gloo", row⟩
  uniqueName : g.uniqueName = uniqueName
  mqBroadcaster : g.mqBroadcaster = (args.useMessageQueueBroadcaster && decide (1 < row.length))
  useCustomOpCall : g.useCustomOpCall = useCustomOpCollectives
  hoststaged : g.deviceCommunicator.map (·.hoststaged) =
    if args.useDeviceCommunicator ∧ 1 < row.length then some s.latched else none
  communicator : ∀ comm ∈ g.deviceCommunicator, comm.uniqueName = g.uniqueName ∧ comm.cpuGroup = g.cpuGroup ∧
    comm.deviceGroup = g.deviceGroup ∧ comm.device = g.device ∧ comm.rankInGroup = g.rankInGroup

theorem construct_built {useCustomOpCollectives : Bool} {args : InitArgs} {uniqueName : String} {id : Nat}
    {s s' : ModuleState} {ref : CoordinatorRef}
    (h : GroupCoordinator.construct useCustomOpCollectives args uniqueName id s = (.ok ref, s')) :
    ∃ g group k row, ref.coordinator = .group g s.hoststaged ∧
      Built s useCustomOpCollectives args uniqueName g group k row := by
  cases hd : s.dist with
  | none =>
    have hg : defaultGroup s = (.error notInitialized, s) := by simp [defaultGroup, Action.bind_apply, hd]
    rw [GroupCoordinator.construct, Action.bind_error hg] at h
    cases h
  | some group =>
    obtain ⟨own, hown, hrow⟩ := createGroups_row hd args.torchDistributedBackend args.groupRanks none
    obtain ⟨own', hown', -, hfrom⟩ := createGroups_eq hd args.torchDistributedBackend args.groupRanks none
      (fun _ ho => by cases ho)
    obtain rfl : own = own' := Except.ok.inj (congrArg Prod.fst (hown.symm.trans hown'))
    rw [GroupCoordinator.construct, Action.bind_ok (defaultGroup_eq hd), Action.bind_ok hown] at h
    cases own with
    | none => cases h
    | some own =>
      rcases hrow own rfl with hnone | ⟨k, row, hk, hrow⟩
      · cases hnone
      obtain ⟨device, s₁, hdevice, h₁⟩ := Action.bind_returns h
      obtain ⟨-, rfl⟩ := Action.lift_returns hdevice
      obtain ⟨comm, s₂, hcomm, h₂⟩ := Action.bind_returns h₁
      obtain ⟨comm', hcomm', hflag, hwired⟩ := communicator_eq
        (s := s.request (loopRequests (s.devBackend args.torchDistributedBackend) args.groupRanks))
        (hfrom own rfl).ranks_cpuGroup args.useDeviceCommunicator device uniqueName
      obtain rfl : comm' = comm := Except.ok.inj (congrArg Prod.fst (hcomm'.symm.trans hcomm))
      cases h₂
      refine ⟨_, group, k, row, by rw [(hfrom own rfl).replaced], hd, hk, hrow.mem, rfl, hrow.ranks, hrow.rankInGroup,
        hrow.deviceGroup, hrow.cpuGroup, rfl, by rw [← hrow.ranks], rfl, ?_, fun c hc => ⟨?_, hwired c hc⟩⟩
      · rw [← hrow.ranks]
        exact hflag
      · exact communicator_uniqueName hcomm c hc

/-- Naming and registering the object comes first, and changes nothing that the rest reads. -/
theorem init_built {useCustomOpCollectives : Bool} {args : InitArgs} {s s' : ModuleState} {ref : CoordinatorRef}
    (h : GroupCoordinator.init useCustomOpCollectives args s = (.ok ref, s')) :
    ∃ g group k row, ref.coordinator = .group g s.hoststaged ∧
      Built s useCustomOpCollectives args (s.uniqueName args.groupName) g group k row := by
  rw [init_eq] at h
  obtain ⟨g, group, k, row, href, hbuilt⟩ := construct_built h
  exact ⟨g, group, k, row, href, { hbuilt with }⟩

/-- Lists of one length, of ranks below N, no rank twice. -/
structure Rows (N : Nat) (rows : List (List Nat)) : Prop where
  length : ∃ size, ∀ row ∈ rows, row.length = size
  nodup : rows.flatten.Nodup
  lt : ∀ row ∈ rows, ∀ r ∈ row, r < N

namespace Rows
variable {N : Nat} {rows : List (List Nat)}

theorem of_isPartition {size : Nat} (h : IsPartition N size rows) : Rows N rows := by
  refine ⟨⟨size, h.1⟩, h.2.nodup_iff.mpr List.nodup_range, fun row hrow r hr => ?_⟩
  exact List.mem_range.mp (h.2.mem_iff.mp (List.mem_flatten.mpr ⟨row, hrow, hr⟩))

theorem nodup_row (h : Rows N rows) {row : List Nat} (hrow : row ∈ rows) : row.Nodup :=
  (List.nodup_flatten.mp h.nodup).1 row hrow

theorem index_unique (h : Rows N rows) {k k' : Nat} {row row' : List Nat} (hk : rows[k]? = some row)
    (hk' : rows[k']? = some row') {r : Nat} (hr : r ∈ row) (hr' : r ∈ row') : k = k' := by
  have hpair := (List.nodup_flatten.mp h.nodup).2
  obtain ⟨hlt, rfl⟩ := List.getElem?_eq_some_iff.mp hk
  obtain ⟨hlt', rfl⟩ := List.getElem?_eq_some_iff.mp hk'
  rcases Nat.lt_trichotomy k k' with hlt | heq | hlt
  · exact absurd hr' (List.pairwise_iff_getElem.mp hpair _ _ _ _ hlt hr)
  · exact heq
  · exact absurd hr (List.pairwise_iff_getElem.mp hpair _ _ _ _ hlt hr')

end Rows

/-- Where all_ranks can be formed, the sizes are those of a layout. -/
theorem allRanks_returns {N : Nat} (hN : 0 < N) {sizes : ModelParallelSizes} {ranks : NDArray Nat}
    (h : allRanks N sizes = .ok ranks) : ∃ l : Layout, l.worldSize = N ∧ ranks.shape = l.shape ∧
      ranks.data = List.range N ∧ ∀ dcp, { sizes with decodeContext := some dcp } = l.sizes dcp := by
  have hnumel : (arange N).numel = N := by simp [NDArray.numel, arange]
  simp only [allRanks, reshapeInfer, hnumel] at h
  split at h
  · rename_i hdiv
    obtain ⟨hne, hmod⟩ := hdiv
    have hpos : 0 < sizes.data ∧ 0 < sizes.pipeline ∧ 0 < sizes.prefillContext ∧ 0 < sizes.tensor := by
      simp only [List.prod_cons, List.prod_nil, mul_one, ne_eq, Nat.mul_eq_zero, not_or] at hne
      omega
    have hext : 0 < N / [sizes.data, sizes.pipeline, sizes.prefillContext, sizes.tensor].prod :=
      Nat.div_pos (Nat.le_of_dvd hN (Nat.dvd_of_mod_eq_zero hmod)) (Nat.pos_of_ne_zero hne)
    refine ⟨⟨_, _, _, _, _, hext, hpos.1, hpos.2.1, hpos.2.2.1, hpos.2.2.2⟩, ?_, ?_⟩
    · have hmul := Nat.div_mul_cancel (Nat.dvd_of_mod_eq_zero hmod)
      rw [← Layout.prod_shape]
      exact hmul
    · split at h
      · rename_i rows hrows
        cases h
        rw [NDArray.reshape?, NDArray.ofData?] at hrows
        split at hrows
        · cases hrows
          exact ⟨rfl, rfl, fun _ => rfl⟩
        · cases hrows
      · cases h
  · cases h

theorem unbindRows_ofBlocks {N size : Nat} {ranks : NDArray Nat} {rows : List (List Nat)}
    (hdata : ranks.data = List.range N) (h : unbindRows size ranks = .ok rows) :
    ∃ hdvd : size ∣ N, size ≠ 0 ∧ rows = (RankGrid.ofBlocks hdvd).groups := by
  have hnumel : ranks.numel = N := by rw [NDArray.numel, ← ranks.wf, hdata, List.length_range]
  have hdvd : size ≠ 0 ∧ size ∣ N := by
    obtain ⟨cut, hcut, -⟩ := bind_eq_ok h
    rw [reshapeInfer, List.prod_singleton, hnumel] at hcut
    split at hcut
    · rename_i hdiv
      exact ⟨hdiv.1, Nat.dvd_of_mod_eq_zero hdiv.2⟩
    · cases hcut
  exact ⟨hdvd.2, hdvd.1, Except.ok.inj (h.symm.trans (unbindRows_blocks hdvd.2 hdvd.1 hdata))⟩

/-- The other families do not read the decode-context size. -/
theorem GroupName.groupRanks_grid {l : Layout} {name : GroupName} (hname : name ≠ .dcp) {sizes : ModelParallelSizes}
    (hsizes : ∀ dcp, { sizes with decodeContext := some dcp } = l.sizes dcp) {ranks : NDArray Nat}
    (hshape : ranks.shape = l.shape) (hdata : ranks.data = List.range l.worldSize) {rows : List (List Nat)}
    (h : name.groupRanks sizes ranks = .ok rows) : rows = (name.grid l (one_dvd l.tp)).groups := by
  have hgroups := name.groupRanks_eq l (one_dvd l.tp) hshape hdata
  have hsame : name.groupRanks (l.sizes 1) ranks = name.groupRanks sizes ranks := by
    rw [← hsizes 1]
    cases name with
    | dcp => exact absurd rfl hname
    | _ => rfl
  rw [hsame, h] at hgroups
  exact Except.ok.inj hgroups

theorem GroupName.groupRanks_rows {N : Nat} (hN : 0 < N) {name : GroupName} {sizes : ModelParallelSizes}
    {ranks : NDArray Nat} {rows : List (List Nat)} (hranks : allRanks N sizes = .ok ranks)
    (h : name.groupRanks sizes ranks = .ok rows) : Rows N rows := by
  obtain ⟨l, rfl, hshape, hdata, hsizes⟩ := allRanks_returns hN hranks
  by_cases hname : name = .dcp
  · subst hname
    rw [groupRanks, dcpGroupRanks] at h
    split at h
    · obtain ⟨hdvd, -, rfl⟩ := unbindRows_ofBlocks hdata h
      exact .of_isPartition (RankGrid.ofBlocks hdvd).isPartition
    · cases h
  · obtain rfl := groupRanks_grid hname hsizes hshape hdata h
    exact .of_isPartition (name.grid l (one_dvd l.tp)).isPartition

theorem world_rows (N : Nat) : Rows N [List.range N] := by
  refine ⟨⟨N, by simp⟩, by simpa using List.nodup_range, ?_⟩
  intro row hrow r hr
  rw [List.mem_singleton] at hrow
  subst hrow
  exact List.mem_range.mp hr

theorem innerDp_rows {N dataParallelSize worldSize : Nat} (h : dataParallelSize * worldSize ≤ N) :
    Rows N (innerDpGroupRanks dataParallelSize worldSize) := by
  have hflat : (innerDpGroupRanks dataParallelSize worldSize).flatten = List.range (dataParallelSize * worldSize) := by
    rw [innerDpGroupRanks, ← List.flatMap_def]
    exact range_mul dataParallelSize worldSize
  refine ⟨⟨worldSize, ?_⟩, by rw [hflat]; exact List.nodup_range, fun row hrow r hr => ?_⟩
  · intro row hrow
    obtain ⟨d, -, rfl⟩ := List.mem_map.mp hrow
    rw [List.length_map, List.length_range]
  · have hr' : r ∈ (innerDpGroupRanks dataParallelSize worldSize).flatten := List.mem_flatten.mpr ⟨row, hrow, hr⟩
    rw [hflat, List.mem_range] at hr'
    omega

/-- A group as its constructor leaves it on one rank of a job of N. -/
structure Member (N rank : Nat) (g : GroupCoordinator) : Prop where
  wired : g.Wired
  rank : g.rank = rank
  nodup : g.ranks.Nodup
  lt : ∀ r ∈ g.ranks, r < N
  uniqueName : ∀ comm ∈ g.deviceCommunicator, comm.uniqueName = g.uniqueName

/-- The groups of two ranks in one family: alike, and the same where the ranks share one. -/
structure GroupPeers (g g' : GroupCoordinator) : Prop where
  uniqueName : g.uniqueName = g'.uniqueName
  worldSize : g.worldSize = g'.worldSize
  backend : g.deviceGroup.backend = g'.deviceGroup.backend
  mqBroadcaster : g.mqBroadcaster = g'.mqBroadcaster
  useCustomOpCall : g.useCustomOpCall = g'.useCustomOpCall
  hoststaged : g.deviceCommunicator.map (·.hoststaged) = g'.deviceCommunicator.map (·.hoststaged)
  shared : g'.rank ∈ g.ranks →
    g.ranks = g'.ranks ∧ g.cpuGroup = g'.cpuGroup ∧ g.deviceGroup = g'.deviceGroup
  apart : g'.rank ∉ g.ranks → g.ranks.Disjoint g'.ranks

def Holder.communicates : Holder → Bool
  | .world | .innerDpWorld => false
  | .slot _ => true

/-- What two ranks hold in one global, built with device communicators or without. -/
structure RefPeers (N r r' : Nat) (communicates : Bool) (ref ref' : CoordinatorRef) : Prop where
  groups : ∃ g g' replaced, ref.coordinator = .group g replaced ∧ ref'.coordinator = .group g' replaced ∧
    Member N r g ∧ Member N r' g' ∧ GroupPeers g g' ∧
      (communicates = true → 1 < g.worldSize → g.deviceCommunicator.isSome = true)

/-- The modules of two ranks of a job of N that have run the same calls. -/
structure Peers (N r r' : Nat) (s t : ModuleState) : Prop where
  hoststagedTp : s.hoststagedTp = t.hoststagedTp
  xpuHoststaged : s.xpuHoststaged = t.xpuHoststaged
  dist : ∃ backend : Option String, s.dist = backend.map (⟨N, r, ·⟩) ∧ t.dist = backend.map (⟨N, r', ·⟩)
  requests : s.requests = t.requests
  groupNameCounter : s.groupNameCounter = t.groupNameCounter
  held : ∀ holder, Option.Rel (RefPeers N r r' holder.communicates) (s.held holder) (t.held holder)

section Peers
variable {N r r' : Nat} {s t : ModuleState}

theorem Peers.hoststaged (h : Peers N r r' s t) : s.hoststaged = t.hoststaged := by
  rw [ModuleState.hoststaged, ModuleState.hoststaged, h.hoststagedTp]

theorem Peers.latched (h : Peers N r r' s t) : s.latched = t.latched := by
  rw [ModuleState.latched, ModuleState.latched, h.xpuHoststaged, h.hoststaged]

theorem Peers.devBackend (h : Peers N r r' s t) (backend : Option String) :
    s.devBackend backend = t.devBackend backend := by
  rw [ModuleState.devBackend, ModuleState.devBackend, h.hoststaged]

theorem Peers.uniqueName (h : Peers N r r' s t) (groupName : Option String) :
    s.uniqueName groupName = t.uniqueName groupName := by
  rw [ModuleState.uniqueName, ModuleState.uniqueName, ModuleState.count, ModuleState.count, h.groupNameCounter]

theorem Peers.defaultGroups (h : Peers N r r' s t) {group group' : DefaultGroup} (hs : s.dist = some group)
    (ht : t.dist = some group') : ∃ backend, group = ⟨N, r, backend⟩ ∧ group' = ⟨N, r', backend⟩ := by
  obtain ⟨backend, hbackend, hbackend'⟩ := h.dist
  rw [hs] at hbackend
  rw [ht] at hbackend'
  cases backend with
  | none => cases hbackend
  | some backend => exact ⟨backend, Option.some.inj hbackend, Option.some.inj hbackend'⟩

/-- What two ranks build from the same lists belongs together. -/
theorem Built.peers {c : Bool} {args : InitArgs} {localRank : Int} {name : String} {g g' : GroupCoordinator}
    {group group' : DefaultGroup} {k k' : Nat} {row row' : List Nat} (hrows : Rows N args.groupRanks)
    (h : Peers N r r' s t) (hb : Built s c args name g group k row)
    (hb' : Built t c { args with localRank } name g' group' k' row') : GroupPeers g g' := by
  obtain ⟨backend, rfl, rfl⟩ := h.defaultGroups hb.dist hb'.dist
  have hlist' : args.groupRanks[k']? = some row' := hb'.list
  obtain ⟨size, hsize⟩ := hrows.length
  have hlength : row.length = row'.length :=
    (hsize row (List.mem_of_getElem? hb.list)).trans (hsize row' (List.mem_of_getElem? hlist')).symm
  have hbackend : g.deviceGroup.backend = g'.deviceGroup.backend := by
    rw [hb.deviceGroup, hb'.deviceGroup, h.devBackend]
  refine ⟨hb.uniqueName.trans hb'.uniqueName.symm, ?_, hbackend, ?_,
    hb.useCustomOpCall.trans hb'.useCustomOpCall.symm, ?_, ?_, ?_⟩
  · rw [GroupCoordinator.worldSize, GroupCoordinator.worldSize, hb.ranks, hb'.ranks, hlength]
  · rw [hb.mqBroadcaster, hb'.mqBroadcaster, hlength]
  · rw [hb.hoststaged, hb'.hoststaged, h.latched, hlength]
  · -- the lists are the same one, so the groups were the same requests
    intro hmem
    rw [hb'.rank, hb.ranks] at hmem
    obtain rfl : k = k' := hrows.index_unique hb.list hlist' hmem hb'.mem
    obtain rfl : row = row' := Option.some.inj (hb.list.symm.trans hlist')
    refine ⟨hb.ranks.trans hb'.ranks.symm, ?_, ?_⟩
    · rw [hb.cpuGroup, hb'.cpuGroup, h.requests]
    · rw [hb.deviceGroup, hb'.deviceGroup, h.requests, h.devBackend]
  · intro hmem x hx hx'
    rw [hb.ranks] at hx
    rw [hb'.ranks] at hx'
    obtain rfl : k = k' := hrows.index_unique hb.list hlist' hx hx'
    obtain rfl : row = row' := Option.some.inj (hb.list.symm.trans hlist')
    rw [hb'.rank, hb.ranks] at hmem
    exact hmem hb'.mem

theorem Built.member {c : Bool} {args : InitArgs} {name : String} {g : GroupCoordinator} {group : DefaultGroup}
    {k : Nat} {row : List Nat} (hrows : Rows N args.groupRanks) (hb : Built s c args name g group k row)
    (hwired : g.Wired) : Member N group.rank g := by
  have hmem := List.mem_of_getElem? hb.list
  exact ⟨hwired, hb.rank, by rw [hb.ranks]; exact hrows.nodup_row hmem, by rw [hb.ranks]; exact hrows.lt row hmem,
    fun comm hcomm => (hb.communicator comm hcomm).1⟩

private theorem createsCommunicator_eq {args : InitArgs} {g : GroupCoordinator} {latched : Bool} {row : List Nat}
    (h : g.deviceCommunicator.map (·.hoststaged) = if s.createsCommunicator args then some latched else none)
    (hb : g.deviceCommunicator.map (·.hoststaged) =
      if args.useDeviceCommunicator ∧ 1 < row.length then some latched else none) :
    s.createsCommunicator args = (args.useDeviceCommunicator && decide (1 < row.length)) := by
  rw [h] at hb
  cases hc : s.createsCommunicator args <;> by_cases hu : args.useDeviceCommunicator ∧ 1 < row.length <;>
    simp_all

theorem init_twin (useCustomOpCollectives : Bool) {args : InitArgs} (localRank : Int) (hrows : Rows N args.groupRanks) :
    Action.Twin (Peers N r r') (GroupCoordinator.init useCustomOpCollectives args)
      (GroupCoordinator.init useCustomOpCollectives { args with localRank })
      (RefPeers N r r' args.useDeviceCommunicator) := by
  intro s t ref ref' s' t' h hs ht
  obtain ⟨g, group, k, row, href, hb⟩ := init_built hs
  obtain ⟨g', group', k', row', href', hb'⟩ := init_built ht
  have hc := GroupCoordinator.init_constructs useCustomOpCollectives args s
  have hc' := GroupCoordinator.init_constructs useCustomOpCollectives { args with localRank } t
  have hn := (init_registers useCustomOpCollectives args s).counter
  have hn' := (init_registers useCustomOpCollectives { args with localRank } t).counter
  rw [hs] at hc hn
  rw [ht] at hc' hn'
  obtain ⟨-, g₁, group₁, href₁, hwired, -, -, -, hflag⟩ := hc.ok ref rfl
  obtain ⟨-, g₂, group₂, href₂, hwired', -, -, -, hflag'⟩ := hc'.ok ref' rfl
  obtain ⟨rfl, -⟩ := AnyCoordinator.group.inj (href.symm.trans href₁)
  obtain ⟨rfl, -⟩ := AnyCoordinator.group.inj (href'.symm.trans href₂)
  rw [← h.uniqueName] at hb'
  have hrows' : Rows N { args with localRank }.groupRanks := hrows
  have hpeers := hb.peers hrows h hb'
  obtain ⟨backend, rfl, rfl⟩ := h.defaultGroups hb.dist hb'.dist
  have hmember : Member N r g := hb.member hrows hwired
  have hmember' : Member N r' g' := hb'.member hrows' hwired'
  have hcommunicates : args.useDeviceCommunicator = true → 1 < g.worldSize → g.deviceCommunicator.isSome = true := by
    intro huse hsize
    rw [GroupCoordinator.worldSize, hb.ranks] at hsize
    have hflag := hb.hoststaged
    rw [if_pos ⟨huse, hsize⟩] at hflag
    rw [← Option.isSome_map, hflag]
    rfl
  refine ⟨?_, g, g', s.hoststaged, href, by rw [h.hoststaged]; exact href', hmember, hmember', hpeers, hcommunicates⟩
  have hcreates : s.createsCommunicator args = t.createsCommunicator { args with localRank } := by
    rw [createsCommunicator_eq hflag hb.hoststaged, createsCommunicator_eq hflag' hb'.hoststaged]
    have := hpeers.worldSize
    rw [GroupCoordinator.worldSize, GroupCoordinator.worldSize, hb.ranks, hb'.ranks] at this
    rw [this]
  obtain ⟨common, hcommon, hcommon'⟩ := h.dist
  have hrequests : (s.dist.elim [] fun _ => loopRequests (s.devBackend args.torchDistributedBackend) args.groupRanks) =
      t.dist.elim [] fun _ => loopRequests (t.devBackend args.torchDistributedBackend) args.groupRanks := by
    rw [hcommon, hcommon', h.devBackend]
    cases common <;> rfl
  have hcounter : s'.groupNameCounter = t'.groupNameCounter := by
    rw [hn, hn', ModuleState.count, ModuleState.count, h.groupNameCounter]
  refine (congrArg₂ (Peers N r r') hc.frame hc'.frame).mpr ?_
  refine ⟨h.hoststagedTp, ?_, ⟨common, hcommon, hcommon'⟩, ?_, hcounter, ?_⟩
  · simp only [hcreates, h.latched, h.xpuHoststaged]
  · simp only [h.requests, hrequests]
  · intro holder
    have hheld := h.held holder
    rcases holder with _ | _ | (_ | _ | _ | _ | _ | _) | _ <;> exact hheld

theorem Peers.setSlot (h : Peers N r r' s t) (slot : Slot) {value value' : Option CoordinatorRef}
    (hvalue : Option.Rel (RefPeers N r r' true) value value') :
    Peers N r r' (s.setSlot slot value) (t.setSlot slot value') := by
  have hheld : ∀ holder, Option.Rel (RefPeers N r r' holder.communicates) ((s.setSlot slot value).held holder)
      ((t.setSlot slot value').held holder) := by
    intro holder
    rw [held_setSlot, held_setSlot]
    split
    · rename_i heq
      subst heq
      exact hvalue
    · exact h.held holder
  rcases slot with (_ | _ | _ | _ | _ | _) | _ <;> exact { h with held := hheld }

theorem Peers.setWorld (h : Peers N r r' s t) {value value' : Option CoordinatorRef}
    (hvalue : Option.Rel (RefPeers N r r' false) value value') :
    Peers N r r' { s with world := value } { t with world := value' } :=
  { h with held := fun
    | .world => hvalue
    | .innerDpWorld => h.held .innerDpWorld
    | .slot slot => h.held (.slot slot) }

theorem Peers.setInnerDpWorld (h : Peers N r r' s t) {value value' : Option CoordinatorRef}
    (hvalue : Option.Rel (RefPeers N r r' false) value value') :
    Peers N r r' { s with innerDpWorld := value } { t with innerDpWorld := value' } :=
  { h with held := fun
    | .world => h.held .world
    | .innerDpWorld => hvalue
    | .slot slot => h.held (.slot slot) }

theorem Peers.setNodeCount (h : Peers N r r' s t) (count count' : Option Nat) :
    Peers N r r' { s with nodeCount := count } { t with nodeCount := count' } := { h with }

theorem Peers.request (h : Peers N r r' s t) (requests : List GroupRequest) :
    Peers N r r' (s.request requests) (t.request requests) :=
  { h with requests := by rw [ModuleState.request_requests, ModuleState.request_requests, h.requests] }

theorem Peers.setDist (h : Peers N r r' s t) (backend : Option String) :
    Peers N r r' { s with dist := backend.map (⟨N, r, ·⟩) } { t with dist := backend.map (⟨N, r', ·⟩) } :=
  { h with dist := ⟨backend, rfl, rfl⟩ }

end Peers

end B70DualTP.Coordinator
