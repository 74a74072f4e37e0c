import B70DualTP.Coordinator.ParallelSizes
import B70DualTP.Coordinator.SetupAgreement
import B70DualTP.Coordinator.Teardown

/-! Where the groups of a job lie. After any sequence of set-ups and tear-downs the groups
that the ranks hold are those of one layout, each with its ranks in the order of the layout. -/
namespace B70DualTP.Coordinator
open Library Torch

theorem selectGroup_grid {N : Nat} (g : RankGrid N) {key member : Nat → List Nat}
    (hloc : ∀ r < N, key r ∈ indices g.keys ∧ member r ∈ indices g.members ∧ g.place (key r ++ member r) = r)
    {rank : Nat} (hrank : rank < N) {m : Membership} (h : selectGroup rank g.groups = some m) :
    (∀ r, r ∈ m.ranks ↔ r < N ∧ key r = key rank) ∧ (∀ r ∈ m.ranks, m.ranks.idxOf r = ravel g.members (member r)) ∧
      m.rankInGroup = ravel g.members (member rank) := by
  obtain ⟨hp, hq, hplace⟩ := hloc rank hrank
  have hselect := selectGroup_groups g hp hq
  rw [hplace, h] at hselect
  cases hselect
  have hmem : ∀ r, r ∈ g.group (key rank) ↔ r < N ∧ key r = key rank := by
    intro r
    constructor
    · intro hr
      have hlt : r < N := by
        obtain ⟨q, hq, rfl⟩ := List.mem_map.mp hr
        exact g.place_lt _ (g.append_mem hp hq)
      obtain ⟨hp', hq', hplace'⟩ := hloc r hlt
      exact ⟨hlt, (g.mem_group hp' hq' hp).mp (hplace'.symm ▸ hr)⟩
    · rintro ⟨hlt, hkey⟩
      obtain ⟨hp', hq', hplace'⟩ := hloc r hlt
      rw [← hplace']
      exact (g.mem_group hp' hq' hp).mpr hkey
  refine ⟨hmem, fun r hr => ?_, rfl⟩
  obtain ⟨hlt, hkey⟩ := (hmem r).mp hr
  obtain ⟨hp', hq', hplace'⟩ := hloc r hlt
  have hidx := g.idxOf_group hp' hq'
  rwa [hplace', hkey] at hidx

/-- Two ranks of one group: in a DCP group those of one block, otherwise those that agree on
the axes that the family fixes. -/
def GroupName.Shares (l : Layout) (dcp : Nat) (kind : GroupName) (r r' : Nat) : Prop :=
  match kind with
  | .dcp => r / dcp = r' / dcp
  | kind => ∀ a, ¬ kind.Varies a → l.coord a r = l.coord a r'

def GroupName.placeOf (l : Layout) (dcp rank : Nat) : GroupName → Nat
  | .dcp => rank % dcp
  | kind => kind.coordinate l dcp rank

/-- A rank's list and its index in it are those of the layout. -/
structure GroupName.LaidOut (l : Layout) (dcp : Nat) (kind : GroupName) (rank : Nat) (m : Membership) : Prop where
  ranks : ∀ r, r ∈ m.ranks ↔ r < l.worldSize ∧ kind.Shares l dcp r rank
  order : ∀ r ∈ m.ranks, m.ranks.idxOf r = kind.placeOf l dcp r
  rankInGroup : m.rankInGroup = kind.placeOf l dcp rank

private theorem located_blocks {N dcp : Nat} (hdvd : dcp ∣ N) (hne : dcp ≠ 0) : ∀ r < N,
    [r / dcp] ∈ indices (RankGrid.ofBlocks hdvd).keys ∧ [r % dcp] ∈ indices (RankGrid.ofBlocks hdvd).members ∧
      (RankGrid.ofBlocks hdvd).place ([r / dcp] ++ [r % dcp]) = r := by
  intro r hr
  refine ⟨mem_indices_singleton.mpr ⟨_, Nat.div_lt_div_of_lt_of_dvd hdvd hr, rfl⟩,
    mem_indices_singleton.mpr ⟨_, Nat.mod_lt _ (Nat.pos_of_ne_zero hne), rfl⟩, ?_⟩
  rw [RankGrid.place_ofBlocks hdvd, Nat.div_add_mod']

/-- Each family selects the group of the layout, whether or not the decode-context size
divides the tensor-parallel size. -/
theorem GroupName.laidOut (l : Layout) {dcp : Nat} (kind : GroupName) {ranks : NDArray Nat} {rows : List (List Nat)}
    (hranks : allRanks l.worldSize (l.sizes dcp) = .ok ranks) (hrows : kind.groupRanks (l.sizes dcp) ranks = .ok rows)
    {rank : Nat} (hrank : rank < l.worldSize) {m : Membership} (h : selectGroup rank rows = some m) :
    kind.LaidOut l dcp rank m := by
  obtain ⟨ranks', hranks', hshape, hdata⟩ := allRanks_eq l dcp
  obtain rfl : ranks' = ranks := Except.ok.inj (hranks'.symm.trans hranks)
  by_cases hkind : kind = .dcp
  · subst hkind
    obtain ⟨hdvd, hne, rfl⟩ := unbindRows_ofBlocks hdata hrows
    obtain ⟨hmem, hidx, hplace⟩ := selectGroup_grid _ (located_blocks hdvd hne) hrank h
    have hravel : ∀ r, ravel (RankGrid.ofBlocks hdvd).members [r % dcp] = r % dcp := by
      intro r
      simp [RankGrid.ofBlocks, RankGrid.ofShape, ravel]
    refine ⟨fun r => (hmem r).trans (by simp [Shares]), fun r hr => (hidx r hr).trans (hravel r), ?_⟩
    exact hplace.trans (hravel rank)
  · obtain rfl := groupRanks_grid hkind (fun _ => rfl) hshape hdata hrows
    have hplaceOf : ∀ r < l.worldSize,
        ravel (kind.grid l (one_dvd l.tp)).members (kind.memberOf l 1 r) = kind.placeOf l dcp r := by
      intro r hr
      rw [kind.ravel_memberOf l (one_dvd l.tp) hr]
      cases kind with
      | dcp => exact absurd rfl hkind
      | _ => rfl
    have hshares : ∀ r, kind.keyOf l 1 r = kind.keyOf l 1 rank ↔ kind.Shares l dcp r rank := by
      intro r
      rw [kind.keyOf_eq_iff l hkind]
      cases kind with
      | dcp => exact absurd rfl hkind
      | _ => rfl
    obtain ⟨hmem, hidx, hplace⟩ := selectGroup_grid _ (fun r hr => kind.located l (one_dvd l.tp) hr) hrank h
    refine ⟨fun r => (hmem r).trans (and_congr_right fun _ => hshares r), fun r hr => ?_, hplace.trans (hplaceOf rank hrank)⟩
    exact (hidx r hr).trans (hplaceOf r ((hmem r).mp hr).1)

def Slot.family : Slot → GroupName
  | .of name => name
  | .eplb => .ep

/-- The object is the group that a rank selects from the lists of a family. -/
def Selected (N rank : Nat) (sizes : ModelParallelSizes) (kind : GroupName) (ref : CoordinatorRef) : Prop :=
  ∃ g replaced ranks rows, ref.coordinator = .group g replaced ∧ allRanks N sizes = .ok ranks ∧
    kind.groupRanks sizes ranks = .ok rows ∧ selectGroup rank rows = some ⟨g.ranks, g.rankInGroup⟩

/-- Slots have been filled with groups of these sizes, and nothing else is assigned. -/
structure Fills (N rank : Nat) (sizes : ModelParallelSizes) (s s' : ModuleState) : Prop where
  dist : s'.dist = s.dist
  slot : ∀ slot, s'.slot slot = s.slot slot ∨ ∃ ref, s'.slot slot = some ref ∧ Selected N rank sizes slot.family ref

section Fills
variable {N rank : Nat} {sizes : ModelParallelSizes} {s s' s'' : ModuleState} {env : Environment} {mp : ModelParallel}

theorem Fills.refl (s : ModuleState) : Fills N rank sizes s s := ⟨rfl, fun _ => .inl rfl⟩

theorem Fills.trans (h : Fills N rank sizes s s') (h' : Fills N rank sizes s' s'') : Fills N rank sizes s s'' := by
  refine ⟨h'.dist.trans h.dist, fun slot => ?_⟩
  rcases h'.slot slot with hkept | hfilled
  · rw [hkept]
    exact h.slot slot
  · exact .inr hfilled

theorem Fills.isSome (h : Fills N rank sizes s s') {slot : Slot} (hslot : (s.slot slot).isSome = true) :
    (s'.slot slot).isSome = true := by
  rcases h.slot slot with hkept | ⟨ref, href, -⟩
  · rwa [hkept]
  · rw [href]
    rfl

/-- A rank of a job of N has joined it, or not yet. -/
def ModuleState.Joined (s : ModuleState) (N rank : Nat) : Prop :=
  ∃ backend : Option String, s.dist = backend.map (⟨N, rank, ·⟩)

theorem Fills.joined (h : Fills N rank sizes s s') (hs : s.Joined N rank) : s'.Joined N rank := by
  obtain ⟨backend, hdist⟩ := hs
  exact ⟨backend, h.dist.trans hdist⟩

private theorem init_fills (slot : Slot) {ranks : NDArray Nat} {c : Bool} {args : InitArgs} {ref : CoordinatorRef}
    (hranks : allRanks N sizes = .ok ranks) (hrows : slot.family.groupRanks sizes ranks = .ok args.groupRanks)
    (hs : s.Joined N rank) (h : GroupCoordinator.init c args s = (.ok ref, s')) :
    Fills N rank sizes s (s'.setSlot slot (some ref)) := by
  have hc := GroupCoordinator.init_constructs c args s
  rw [h] at hc
  obtain ⟨-, g, group, href, -, hdist, hselect, -⟩ := hc.ok ref rfl
  obtain ⟨backend, hbackend⟩ := hs
  obtain ⟨backend, rfl, rfl⟩ : ∃ b, backend = some b ∧ group = ⟨N, rank, b⟩ := by
    rw [hdist] at hbackend
    cases backend with
    | none => cases hbackend
    | some backend => exact ⟨backend, rfl, Option.some.inj hbackend⟩
  refine ⟨?_, fun slot' => ?_⟩
  · have hassign : (s'.setSlot slot (some ref)).dist = s'.dist := by
      rcases slot with (_ | _ | _ | _ | _ | _) | _ <;> rfl
    exact hassign.trans (congrArg ModuleState.dist hc.frame :)
  · rw [slot_setSlot]
    split
    · rename_i heq
      subst heq
      exact .inr ⟨ref, rfl, g, s.hoststaged, ranks, args.groupRanks, href, hranks, hrows, hselect⟩
    · have hkept := init_slot c args s slot'
      rw [h] at hkept
      exact .inl hkept

/-- The layout of a set-up without elastic expert parallelism. -/
structure ModelParallel.Arranged (mp : ModelParallel) (N : Nat) (sizes : ModelParallelSizes) : Prop where
  sizes_eq : mp.sizes = sizes
  ranks : Coordinator.allRanks N sizes = .ok mp.allRanks
  elastic : mp.elastic = false

private theorem isSome_setSlot (s : ModuleState) (slot : Slot) (ref : CoordinatorRef) :
    ((s.setSlot slot (some ref)).slot slot).isSome = true := by
  rw [slot_setSlot, if_pos rfl]
  rfl

private theorem initReplicaGroup_fills (hmp : mp.Arranged N sizes) (hs : s.Joined N rank) {name : GroupName} {u : Unit}
    (h : mp.initReplicaGroup env name s = (.ok u, s')) :
    s.slot (.of name) = none ∧ Fills N rank sizes s s' ∧ (s'.slot (.of name)).isSome = true := by
  obtain ⟨_, s₁, hunset, h₁⟩ := Action.bind_returns h
  have hnone := assertUnset_returns hunset
  subst hnone
  rw [Slot.assertUnset, Action.bind_ok (Action.get_apply s₁)] at hunset
  have hnone := assert_returns (Action.lift_returns hunset).1
  obtain ⟨groupRanks, s₂, hlift, h₂⟩ := Action.bind_returns h₁
  obtain ⟨hranks, rfl⟩ := Action.lift_returns hlift
  obtain ⟨world, s₃, hworld, h₃⟩ := Action.bind_returns h₂
  cases getWorldGroup_returns hworld
  obtain ⟨group, s₄, hinit, hassign⟩ := Action.bind_returns h₃
  cases hassign
  refine ⟨hnone, init_fills (.of name) hmp.ranks ?_ hs hinit, isSome_setSlot _ _ _⟩
  obtain ⟨rows, hrows, hreturn⟩ := bind_eq_ok hranks
  rw [hmp.elastic] at hreturn
  cases hreturn
  rw [← hmp.sizes_eq]
  exact hrows

private theorem initAcross_fills (slot : Slot) (hmp : mp.Arranged N sizes) (hs : s.Joined N rank)
    {groupRanks : List (List Nat)} (hrows : slot.family.groupRanks mp.sizes mp.allRanks = .ok groupRanks) {u : Unit}
    (h : mp.initAcross env slot groupRanks s = (.ok u, s')) :
    Fills N rank sizes s s' ∧ (s'.slot slot).isSome = true := by
  obtain ⟨world, s₁, hworld, h₁⟩ := Action.bind_returns h
  cases getWorldGroup_returns hworld
  obtain ⟨group, s₂, hacross, hassign⟩ := Action.bind_returns h₁
  cases hassign
  rw [ModelParallel.acrossGroup, hmp.elastic] at hacross
  rw [hmp.sizes_eq] at hrows
  exact ⟨init_fills slot hmp.ranks hrows hs hacross, isSome_setSlot _ _ _⟩

private theorem initDataParallel_fills (hmp : mp.Arranged N sizes) (hs : s.Joined N rank) {u : Unit}
    (h : mp.initDataParallel env s = (.ok u, s')) :
    Fills N rank sizes s s' ∧ (s'.slot (.of .dp)).isSome = true := by
  obtain ⟨_, s₁, hunset, h₁⟩ := Action.bind_returns h
  cases assertUnset_returns hunset
  obtain ⟨groupRanks, s₂, hlift, hacross⟩ := Action.bind_returns h₁
  obtain ⟨hrows, rfl⟩ := Action.lift_returns hlift
  exact initAcross_fills (.of .dp) hmp hs hrows hacross

private theorem initExpertParallel_fills (hmp : mp.Arranged N sizes) (hs : s.Joined N rank) {u : Unit}
    (h : mp.initExpertParallel env s = (.ok u, s')) : Fills N rank sizes s s' := by
  obtain ⟨_, s₁, hunset, h₁⟩ := Action.bind_returns h
  cases assertUnset_returns hunset
  split at h₁
  · obtain ⟨groupRanks, s₂, hlift, h₂⟩ := Action.bind_returns h₁
    obtain ⟨hrows, rfl⟩ := Action.lift_returns hlift
    obtain ⟨_, s₃, hep, h₃⟩ := Action.bind_returns h₂
    have hfirst := (initAcross_fills (.of .ep) hmp hs hrows hep).1
    obtain ⟨_, s₄, hunset', h₄⟩ := Action.bind_returns h₃
    cases assertUnset_returns hunset'
    split at h₄
    · exact hfirst.trans (initAcross_fills .eplb hmp (hfirst.joined hs) hrows h₄).1
    · cases h₄
      exact hfirst
  · cases h₁
    exact .refl _

end Fills

/-- What is held has been selected from lists of these sizes, and all but the EP groups are held. -/
structure ModuleState.Placed (s : ModuleState) (N rank : Nat) (sizes : Option ModelParallelSizes) : Prop where
  selected : ∀ slot ref, s.slot slot = some ref → ∃ sizes' ∈ sizes, Selected N rank sizes' slot.family ref
  built : sizes.isSome = true → ∀ name, name ≠ .ep → (s.slot (.of name)).isSome = true

/-- The sizes that this call asks for, with the configured number of replicas. -/
def JobStep.sizes {N : Nat} (step : JobStep N) (args : ModelParallelArgs) : Option ModelParallelSizes :=
  step.config.map fun config => ⟨args.tensor, args.pipeline, args.prefillContext, args.decodeContext,
    config.parallelConfig.dataParallelSize⟩

/-- The sizes of the groups that are held after this call, from those before it. -/
def JobStep.place {N : Nat} (step : JobStep N) (placed : Option ModelParallelSizes) : Option ModelParallelSizes :=
  match step.call with
  | .initDistributedEnvironment _ | .destroyDistributedEnvironment => placed
  | .initializeModelParallel args => step.sizes args
  | .ensureModelParallelInitialized args => placed.or (step.sizes args)
  | .destroyModelParallel => none

section Placed
variable {N rank : Nat} {step : JobStep N} {env : Environment} {s s' : ModuleState} {u : Unit}
  {placed : Option ModelParallelSizes}

private theorem modelParallel_arranged (hseen : step.Seen env) (hs : s.Joined N rank) {args : ModelParallelArgs}
    {mp : ModelParallel} (h : modelParallel env args s = (.ok mp, s')) :
    s' = s ∧ ∃ sizes, step.sizes args = some sizes ∧ mp.Arranged N sizes := by
  rw [modelParallel, Action.bind_ok (Action.get_apply s)] at h
  obtain ⟨_, s₁, hassert, h₁⟩ := Action.bind_returns h
  obtain ⟨hassert, rfl⟩ := Action.lift_returns hassert
  obtain ⟨backend, hdist⟩ : ∃ backend, s₁.dist = some ⟨N, rank, backend⟩ := by
    obtain ⟨common, hcommon⟩ := hs
    have hsome : s₁.dist.isSome = true := assert_returns hassert
    cases common with
    | none =>
      rw [hcommon] at hsome
      cases hsome
    | some common => exact ⟨common, hcommon⟩
  obtain ⟨config, s₂, hlift, h₂⟩ := Action.bind_returns h₁
  obtain ⟨hconfig, rfl⟩ := Action.lift_returns hlift
  obtain ⟨⟨worldSize, backend⟩, s₃, hworld, h₃⟩ := Action.bind_returns h₂
  obtain ⟨ranks, s₄, hlift, hpure⟩ := Action.bind_returns h₃
  obtain ⟨hranks, rfl⟩ := Action.lift_returns hlift
  cases hpure
  -- the rank sees the job's configuration
  obtain ⟨d, hsees⟩ := hseen.config
  obtain ⟨config', hstep, rfl⟩ : ∃ config', step.config = some config' ∧ config = config'.ofReplica d := by
    cases hc : step.config with
    | none =>
      rw [getCurrentVllmConfig, hsees, hc] at hconfig
      cases hconfig
    | some config' =>
      rw [getCurrentVllmConfig, hsees, hc] at hconfig
      exact ⟨config', rfl, (Except.ok.inj hconfig).symm⟩
  have helastic : (config'.ofReplica d).parallelConfig.enableElasticEp = false := step.notElastic config' hstep
  rw [worldAndBackend, helastic, if_neg Bool.false_ne_true] at hworld
  rw [Action.bind_ok (defaultGroup_eq hdist)] at hworld
  have hreturn : s' = s₂ ∧ worldSize = N := by
    cases htruthy : truthy args.backend with
    | some backend =>
      simp only [htruthy] at hworld
      cases hworld
      exact ⟨rfl, rfl⟩
    | none =>
      simp only [htruthy] at hworld
      obtain ⟨world, s₅, hget, h₄⟩ := Action.bind_returns hworld
      cases getWorldGroup_returns hget
      obtain ⟨backend, s₆, hlift, hpure⟩ := Action.bind_returns h₄
      obtain ⟨-, rfl⟩ := Action.lift_returns hlift
      cases hpure
      exact ⟨rfl, rfl⟩
  obtain ⟨rfl, rfl⟩ := hreturn
  exact ⟨rfl, _, by rw [JobStep.sizes, hstep]; rfl, rfl, hranks, helastic⟩

/-- A set-up that returns found no group, and leaves those of its own sizes. -/
theorem initializeModelParallel_placed (hseen : step.Seen env) (hs : s.Joined N rank) (hp : s.Placed N rank placed)
    {args : ModelParallelArgs} (h : initializeModelParallel env args s = (.ok u, s')) :
    s'.Placed N rank (step.sizes args) := by
  obtain ⟨mp, s₀, hmp, h₁⟩ := Action.bind_returns h
  obtain ⟨rfl, sizes, hsizes, hmp⟩ := modelParallel_arranged hseen hs hmp
  obtain ⟨_, s₁, htp, h₂⟩ := Action.bind_returns h₁
  obtain ⟨_, s₂, hdcp, h₃⟩ := Action.bind_returns h₂
  obtain ⟨_, s₃, hpcp, h₄⟩ := Action.bind_returns h₃
  obtain ⟨_, s₄, hpp, h₅⟩ := Action.bind_returns h₄
  obtain ⟨_, s₅, hdp, hep⟩ := Action.bind_returns h₅
  obtain ⟨hnone, hfill₁, htp⟩ := initReplicaGroup_fills hmp hs htp
  have hs₁ := hfill₁.joined hs
  obtain ⟨-, hfill₂, hdcp⟩ := initReplicaGroup_fills hmp hs₁ hdcp
  have hs₂ := hfill₂.joined hs₁
  obtain ⟨-, hfill₃, hpcp⟩ := initReplicaGroup_fills hmp hs₂ hpcp
  have hs₃ := hfill₃.joined hs₂
  obtain ⟨-, hfill₄, hpp⟩ := initReplicaGroup_fills hmp hs₃ hpp
  have hs₄ := hfill₄.joined hs₃
  obtain ⟨hfill₅, hdp⟩ := initDataParallel_fills hmp hs₄ hdp
  have hfill₆ := initExpertParallel_fills hmp (hfill₅.joined hs₄) hep
  -- the TP slot was empty, so all were
  have hempty : ∀ slot, s₀.slot slot = none := by
    have hplaced : placed = none := by
      cases placed with
      | none => rfl
      | some _ =>
        have hsome := hp.built rfl .tp nofun
        rw [hnone] at hsome
        cases hsome
    intro slot
    cases hslot : s₀.slot slot with
    | none => rfl
    | some ref =>
      obtain ⟨sizes', hsizes', -⟩ := hp.selected slot ref hslot
      rw [hplaced] at hsizes'
      cases hsizes'
  have hfill := hfill₁.trans (hfill₂.trans (hfill₃.trans (hfill₄.trans (hfill₅.trans hfill₆))))
  rw [hsizes]
  refine ⟨fun slot ref hslot => ?_, fun _ name hname => ?_⟩
  · rcases hfill.slot slot with hkept | ⟨ref', href', hselected⟩
    · rw [hempty slot, hslot] at hkept
      cases hkept
    · obtain rfl : ref' = ref := Option.some.inj (href'.symm.trans hslot)
      exact ⟨sizes, rfl, hselected⟩
  · cases name with
    | tp => exact hfill₆.isSome (hfill₅.isSome (hfill₄.isSome (hfill₃.isSome (hfill₂.isSome htp))))
    | dcp => exact hfill₆.isSome (hfill₅.isSome (hfill₄.isSome (hfill₃.isSome hdcp)))
    | pcp => exact hfill₆.isSome (hfill₅.isSome (hfill₄.isSome hpcp))
    | pp => exact hfill₆.isSome (hfill₅.isSome hpp)
    | dp => exact hfill₆.isSome hdp
    | ep => exact absurd rfl hname

/-- Groups that are found built are left as they are. -/
theorem ensureModelParallelInitialized_placed (hseen : step.Seen env) (hs : s.Joined N rank)
    (hp : s.Placed N rank placed) {args : ModelParallelArgs}
    (h : ensureModelParallelInitialized env args s = (.ok u, s')) :
    s'.Placed N rank (placed.or (step.sizes args)) := by
  obtain ⟨world, s₁, hworld, h₁⟩ := Action.bind_returns h
  cases getWorldGroup_returns hworld
  obtain ⟨backend, s₂, hlift, h₂⟩ := Action.bind_returns h₁
  obtain ⟨-, rfl⟩ := Action.lift_returns hlift
  rw [Action.bind_ok (Action.get_apply s₂)] at h₂
  cases placed with
  | none =>
    split at h₂
    · rename_i hinit
      -- without sizes no TP group is held
      obtain ⟨htp, -⟩ := Bool.and_eq_true_iff.mp hinit
      obtain ⟨ref, href⟩ := Option.isSome_iff_exists.mp htp
      obtain ⟨sizes', hsizes', -⟩ := hp.selected (.of .tp) ref href
      cases hsizes'
    · exact (initializeModelParallel_placed hseen hs hp h₂ :)
  | some sizes =>
    split at h₂
    · rw [Action.bind_ok (Action.get_apply s₂)] at h₂
      obtain ⟨-, rfl⟩ := Action.lift_returns h₂
      exact hp
    · rename_i hinit
      exact absurd (Bool.and_eq_true_iff.mpr ⟨hp.built rfl .tp nofun, hp.built rfl .pp nofun⟩) hinit

end Placed

section Frames
variable {env : Environment} {s : ModuleState}

def SameSlots (s t : ModuleState) : Prop := ∀ slot, t.slot slot = s.slot slot

private theorem init_sameSlots (c : Bool) (args : InitArgs) : Action.Keeps (SameSlots s) (GroupCoordinator.init c args) :=
  fun t ht slot => (init_slot c args t slot).trans (ht slot)

private theorem sameSlots_of_eq {t t' : ModuleState} (ht : SameSlots s t) (h : ∀ slot, t'.slot slot = t.slot slot) :
    SameSlots s t' := fun slot => (h slot).trans (ht slot)

private theorem checkElasticNodes_sameSlots (enableElasticEp : Bool) :
    Action.Keeps (SameSlots s) (checkElasticNodes env enableElasticEp) := by
  simp only [checkElasticNodes]
  split
  · refine Action.keeps_bind defaultGroup_keeps fun _ => ?_
    have hgroup : ∀ ranks backend, Action.Keeps (SameSlots s) (newGroup ranks backend) :=
      newGroup_keeps fun t L ht => sameSlots_of_eq ht fun slot => by
        rcases slot with (_ | _ | _ | _ | _ | _) | _ <;> rfl
    refine Action.keeps_bind (hgroup _ _) fun _ => Action.keeps_bind (Action.keeps_lift _) fun count => ?_
    split
    · exact Action.keeps_raise _
    · exact Action.keeps_pure _
  · exact Action.keeps_pure _

private theorem ensureDefaultGroup_sameSlots (args : InitDistributedArgs) :
    Action.Keeps (SameSlots s) (ensureDefaultGroup env args) := by
  refine Action.keeps_bind Action.keeps_get fun _ => ?_
  split
  · exact Action.keeps_pure _
  · simp only [initDefaultGroup]
    split
    · exact Action.keeps_raise _
    · have hbackend : Action.Keeps (SameSlots s) (worldBackend env args.backend) :=
        Action.keeps_bind (Action.keeps_lift _) fun _ => Action.keeps_bind Action.keeps_get fun _ => Action.keeps_pure _
      refine Action.keeps_bind hbackend fun backend => ?_
      have hinit : ∀ initMethod, Action.Keeps (SameSlots s) (initProcessGroup env backend args initMethod) := by
        intro initMethod
        refine Action.keeps_bind (Action.keeps_lift _) fun _ => Action.keeps_modify fun t ht => ?_
        exact sameSlots_of_eq ht fun slot => by rcases slot with (_ | _ | _ | _ | _ | _) | _ <;> rfl
      refine Action.keeps_bind (hinit _) fun _ => ?_
      exact Action.keeps_bind (checkElasticNodes_sameSlots _) fun _ => Action.keeps_pure _

private theorem initElasticEpWorld_sameSlots (config : ParallelConfig) (localRank : Int) (backend : Option String)
    (rank worldSize : Int) :
    Action.Keeps (SameSlots s) (initElasticEpWorld env config localRank backend rank worldSize) := by
  refine Action.keeps_bind Action.keeps_get fun _ => Action.keeps_bind (Action.keeps_lift _) fun _ => ?_
  refine Action.keeps_bind (Action.keeps_lift _) fun _ => ?_
  have hnew : ∀ groupRanks localRank backend rank,
      Action.Keeps (SameSlots s) (newStatelessGroup env groupRanks localRank backend rank) :=
    fun _ _ _ _ t ht slot => (newStatelessGroup_slot _ _ _ _ t slot).trans (ht slot)
  refine Action.keeps_bind (hnew _ _ _ _) fun world => Action.keeps_bind (Action.keeps_lift _) fun _ => ?_
  split
  · refine Action.keeps_bind (Action.keeps_lift _) fun count => Action.keeps_modify fun t ht => ?_
    exact sameSlots_of_eq ht fun slot => by rcases slot with (_ | _ | _ | _ | _ | _) | _ <;> rfl
  · exact Action.keeps_raise _

private theorem initWorld_sameSlots (localRank : Int) (backend : Option String) :
    Action.Keeps (SameSlots s) (initWorld env localRank backend) := by
  refine Action.keeps_bind defaultGroup_keeps fun group => ?_
  refine Action.keeps_bind Action.keeps_get fun _ => ?_
  split
  · refine Action.keeps_bind (init_sameSlots _ _) fun world => ?_
    have hassign : Action.Keeps (SameSlots s)
        (Action.modify fun t : ModuleState => { t with world := some world } : Setup Unit) :=
      Action.keeps_modify fun t ht => sameSlots_of_eq ht fun slot => by
        rcases slot with (_ | _ | _ | _ | _ | _) | _ <;> rfl
    refine Action.keeps_bind hassign fun _ => ?_
    refine Action.keeps_bind (Action.keeps_lift _) fun count => Action.keeps_modify fun t ht => ?_
    exact sameSlots_of_eq ht fun slot => by rcases slot with (_ | _ | _ | _ | _ | _) | _ <;> rfl
  · exact Action.keeps_lift _

private theorem initReplicaWorld_sameSlots (backend : Option String) :
    Action.Keeps (SameSlots s) (initReplicaWorld env backend) := by
  have hassign : ∀ value : ModuleState → Option CoordinatorRef, Action.Keeps (SameSlots s)
      (Action.modify fun t : ModuleState => { t with innerDpWorld := value t } : Setup Unit) :=
    fun value => Action.keeps_modify fun t ht => sameSlots_of_eq ht fun slot => by
      rcases slot with (_ | _ | _ | _ | _ | _) | _ <;> rfl
  simp only [initReplicaWorld]
  split
  · split
    · exact Action.keeps_raise _
    · simp only [initInnerDpWorld]
      split
      · refine Action.keeps_bind getWorldGroup_keeps fun world => ?_
        exact Action.keeps_bind (init_sameSlots _ _) fun group => hassign fun _ => some group
      · exact hassign (·.world)
  · exact Action.keeps_pure _

theorem initDistributedEnvironment_sameSlots (env : Environment) (args : InitDistributedArgs) :
    SameSlots s (initDistributedEnvironment env args s).2 := by
  suffices h : Action.Keeps (SameSlots s) (initDistributedEnvironment env args) from h s fun _ => rfl
  refine Action.keeps_bind (ensureDefaultGroup_sameSlots _) fun backend => ?_
  split
  · exact initElasticEpWorld_sameSlots _ _ _ _ _
  · exact Action.keeps_bind (initWorld_sameSlots _ _) fun _ => initReplicaWorld_sameSlots _

end Frames

/-- The sizes of the groups that are held after a job's calls, from those before them. -/
def placedAfter {N : Nat} (job : List (JobStep N)) (placed : Option ModelParallelSizes) : Option ModelParallelSizes :=
  job.foldl (fun placed step => step.place placed) placed

section Runs
variable {N rank : Nat} {s s' : ModuleState} {placed : Option ModelParallelSizes}

private theorem Placed.of_sameSlots (hp : s.Placed N rank placed) (h : SameSlots s s') : s'.Placed N rank placed where
  selected slot ref hslot := hp.selected slot ref ((h slot).symm.trans hslot)
  built hplaced name hname := by
    rw [h]
    exact hp.built hplaced name hname

private theorem toLife_returns {A : Type} {m : Setup A} {u u' : LifeState} {a : A} (h : m.toLife u = (.ok a, u')) :
    m u.toModuleState = (.ok a, u'.toModuleState) :=
  Prod.ext (congrArg Prod.fst h :) (congrArg (fun r : Py A × LifeState => r.2.toModuleState) h :)

theorem run_placed {step : JobStep N} {made : LifeStep} (h : step.RunBy rank made) {u u' : LifeState}
    (hu : u.toModuleState.Joined N rank) (hp : u.toModuleState.Placed N rank placed) (hrun : made.run u = (.ok (), u')) :
    u'.toModuleState.Placed N rank (step.place placed) := by
  obtain ⟨env, call⟩ := made
  have hcall := h.call
  rw [JobStep.place]
  cases hstep : step.call with
  | initDistributedEnvironment backend =>
    rw [hstep] at hcall
    obtain ⟨args, rfl, -⟩ := hcall
    have hsame : SameSlots u.toModuleState u'.toModuleState := by
      have hkept := initDistributedEnvironment_sameSlots env.toEnvironment args (s := u.toModuleState)
      rwa [toLife_returns hrun] at hkept
    exact Placed.of_sameSlots hp hsame
  | initializeModelParallel args =>
    rw [hstep] at hcall
    cases hcall
    exact initializeModelParallel_placed h.seen hu hp (toLife_returns hrun)
  | ensureModelParallelInitialized args =>
    rw [hstep] at hcall
    cases hcall
    exact ensureModelParallelInitialized_placed h.seen hu hp (toLife_returns hrun)
  | destroyModelParallel =>
    rw [hstep] at hcall
    cases hcall
    have hcleared := (destroyModelParallel_returns hrun).1
    refine ⟨fun slot ref hslot => ?_, fun hplaced => by cases hplaced⟩
    cases (hcleared slot).symm.trans hslot
  | destroyDistributedEnvironment =>
    rw [hstep] at hcall
    cases hcall
    exact Placed.of_sameSlots hp (destroyDistributedEnvironment_returns hrun).2.2.2

theorem runAll_placed (hN : 0 < N) {job : List (JobStep N)} {made : List LifeStep}
    (h : List.Forall₂ (·.RunBy rank) job made) {u u' : LifeState} (hu : LifePeers N rank rank u u)
    (hp : u.toModuleState.Placed N rank placed) (hrun : runAll made u = (.ok (), u')) :
    u'.toModuleState.Placed N rank (placedAfter job placed) := by
  induction h generalizing u placed with
  | nil =>
    cases hrun
    exact hp
  | cons hstep _ ih =>
    obtain ⟨_, u₁, hfirst, hrest⟩ := Action.bind_returns hrun
    have hpeers := (run_twin hN hstep hstep _ _ _ _ _ _ hu hfirst hfirst).1
    obtain ⟨backend, hdist, -⟩ := Peers.dist hu
    exact ih hpeers (run_placed hstep ⟨backend, hdist⟩ hp hfirst) hrest

theorem fresh_placed (hoststagedTp : Option String) (dist : Option DefaultGroup) :
    (LifeState.fresh hoststagedTp dist).toModuleState.Placed N rank none := by
  refine ⟨fun slot ref hslot => ?_, fun hplaced => by cases hplaced⟩
  rcases slot with (_ | _ | _ | _ | _ | _) | _ <;> cases hslot

end Runs

section Job
variable {N : Nat} {job : List (JobStep N)} {hoststagedTp backend : Option String} {steps : Fin N → List LifeStep}
  {final : Fin N → LifeState}

theorem Selected.laidOut {rank : Nat} (hrank : rank < N) {sizes : ModelParallelSizes} {l : Layout} {dcp : Nat}
    (hN : l.worldSize = N) (hsizes : sizes = l.sizes dcp) {kind : GroupName} {ref : CoordinatorRef}
    (h : Selected N rank sizes kind ref) :
    ∃ g replaced, ref.coordinator = .group g replaced ∧ kind.LaidOut l dcp rank ⟨g.ranks, g.rankInGroup⟩ := by
  obtain ⟨g, replaced, ranks, rows, href, hranks, hrows, hselect⟩ := h
  subst hN hsizes
  exact ⟨g, replaced, href, kind.laidOut l hranks hrows hrank hselect⟩

/-- The sizes show a layout: that of the TP group, and the decode-context size of the DCP group. -/
theorem Placed.exists_layout {s : ModuleState} {rank : Nat} (hrank : rank < N) {sizes : ModelParallelSizes}
    (hp : s.Placed N rank (some sizes)) : ∃ (l : Layout) (dcp : Nat), l.worldSize = N ∧ sizes = l.sizes dcp := by
  obtain ⟨ref, href⟩ := Option.isSome_iff_exists.mp (hp.built rfl .dcp nofun)
  obtain ⟨_, hsizes, -, -, ranks, rows, -, hranks, hrows, -⟩ := hp.selected (.of .dcp) ref href
  cases hsizes
  obtain ⟨l, hl, -, -, hlsizes⟩ := allRanks_returns (Nat.zero_lt_of_lt hrank) hranks
  obtain ⟨dcp, hdcp⟩ : ∃ dcp, sizes.decodeContext = some dcp := by
    cases hdcp : sizes.decodeContext with
    | none =>
      simp only [Slot.family, GroupName.groupRanks, dcpGroupRanks, hdcp] at hrows
      cases hrows
    | some dcp => exact ⟨dcp, rfl⟩
  exact ⟨l, dcp, hl, by rw [← hlsizes dcp, ← hdcp]⟩

theorem JobRuns.placed (h : JobRuns job hoststagedTp backend steps final) (r : Fin N) :
    (final r).toModuleState.Placed N r (placedAfter job none) :=
  runAll_placed (Nat.zero_lt_of_lt r.2) (h.made r) (fresh_peers N r r hoststagedTp backend) (fresh_placed _ _)
    (h.returns r)

/-- What the ranks of a job hold after its calls: no group of model parallelism, or the groups
of one layout, all but those of EP. -/
theorem JobRuns.holds_layout (h : JobRuns job hoststagedTp backend steps final) (hN : 0 < N) :
    match placedAfter job none with
    | none => ∀ r slot, (final r).slot slot = none
    | some sizes => ∃ (l : Layout) (dcp : Nat), l.worldSize = N ∧ sizes = l.sizes dcp ∧
        (∀ r, ∀ name, name ≠ .ep → ((final r).slot (.of name)).isSome = true) ∧
          ∀ r slot ref, (final r).slot slot = some ref → ∃ g replaced, ref.coordinator = .group g replaced ∧
            slot.family.LaidOut l dcp r ⟨g.ranks, g.rankInGroup⟩ := by
  have hplaced := h.placed
  cases hjob : placedAfter job none with
  | none =>
    intro r slot
    cases hslot : (final r).slot slot with
    | none => rfl
    | some ref =>
      obtain ⟨sizes, hsizes, -⟩ := (hplaced r).selected slot ref hslot
      rw [hjob] at hsizes
      cases hsizes
  | some sizes =>
    rw [hjob] at hplaced
    obtain ⟨l, dcp, hl, hsizes⟩ := Placed.exists_layout hN (hplaced ⟨0, hN⟩)
    refine ⟨l, dcp, hl, hsizes, fun r => (hplaced r).built rfl, fun r slot ref hslot => ?_⟩
    obtain ⟨_, hsome, hselected⟩ := (hplaced r).selected slot ref hslot
    cases hsome
    exact hselected.laidOut r.2 hl hsizes

end Job

theorem replicas_hold_layout : match placedAfter replicasJob none with
    | none => ∀ r slot, (replicasFinal r).slot slot = none
    | some sizes => ∃ (l : Layout) (dcp : Nat), l.worldSize = 4 ∧ sizes = l.sizes dcp ∧
        (∀ r, ∀ name, name ≠ .ep → ((replicasFinal r).slot (.of name)).isSome = true) ∧
          ∀ r slot ref, (replicasFinal r).slot slot = some ref → ∃ g replaced, ref.coordinator = .group g replaced ∧
            slot.family.LaidOut l dcp r ⟨g.ranks, g.rankInGroup⟩ := replicas_run.holds_layout (by decide)

end B70DualTP.Coordinator
