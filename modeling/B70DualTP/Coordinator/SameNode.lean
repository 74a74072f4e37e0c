import B70DualTP.Torch.Collectives
import Mathlib.Algebra.BigOperators.Fin

/-! in_the_same_node_as: one rank creates a segment of shared memory, the others open it,
and the collectives around it go on whatever fails locally. -/
namespace B70DualTP.Coordinator
open Library Torch

inductive NodeError where
  | osError
  | assertionError (message : String)
  /-- Another exception of the shared memory. -/
  | other
  | distributedError
  deriving DecidableEq, Repr

/-- A ProcessGroup or a StatelessProcessGroup, whose ranks count from 0. -/
inductive NodeGroup where
  | torch (pg : ProcessGroup)
  | stateless (worldSize : Nat)

namespace NodeGroup

/-- Global ranks of the processes in the group. -/
def ranks : NodeGroup → List Nat
  | torch pg => pg.ranks
  | stateless worldSize => List.range worldSize

def isNccl : NodeGroup → Bool
  | torch pg => pg.backend == "nccl"
  | stateless _ => false

abbrev worldSize (group : NodeGroup) : Nat := group.ranks.length

end NodeGroup

/-- What travels over the group. -/
inductive NodeMessage where
  | name (name : String)
  | flags (flags : List Nat)
  deriving DecidableEq, Repr

inductive NodeCall where
  | broadcast (message : Option NodeMessage) (src : Nat)
  | barrier
  | allReduce (flags : List Nat)
  deriving DecidableEq, Repr

def NodeCall.Resp : NodeCall → Type
  | broadcast .. => NodeMessage
  | barrier => Unit
  | allReduce _ => List Nat

abbrev NodeScript (A : Type) := Script NodeError NodeCall (fun c => Except NodeError c.Resp) A

namespace NodeScript

def broadcast (message : Option NodeMessage) (src : Nat) : NodeScript NodeMessage :=
  Script.ask (NodeCall.broadcast message src)
def barrier : NodeScript Unit := Script.ask NodeCall.barrier
def allReduce (flags : List Nat) : NodeScript (List Nat) := Script.ask (NodeCall.allReduce flags)

end NodeScript

def sumFlags (worldSize : Nat) (rows : List (List Nat)) : List Nat :=
  rows.foldl (List.zipWith (· + ·)) (List.replicate worldSize 0)

def selBroadcastMessage (src : Nat) : NodeCall → Option (Option NodeMessage)
  | .broadcast message src' => if src' = src then some message else none
  | _ => none

def selFlags : NodeCall → Option (List Nat)
  | .allReduce flags => some flags
  | _ => none

def nodeReply (group : NodeGroup) (calls : List NodeCall) : (c : NodeCall) → Except NodeError c.Resp
  | .broadcast _ src =>
    match (calls.mapM (selBroadcastMessage src)).bind fun messages =>
        (group.ranks.idxOf? src).bind fun root => messages[root]?.join with
    | some message => .ok message
    | none => .error .distributedError
  | .barrier => if ∀ c ∈ calls, c = .barrier then .ok () else .error .distributedError
  | .allReduce _ =>
    match calls.mapM selFlags with
    | some rows => .ok (sumFlags group.worldSize rows)
    | none => .error .distributedError

def nodeMeaning (group : NodeGroup) (c : Fin group.worldSize → NodeCall) (r : Fin group.worldSize) :
    Except NodeError (c r).Resp := nodeReply group (List.ofFn c) (c r)

/-- A SharedMemory object: its name and its buffer, if it has one. -/
structure Segment where
  name : String
  buf : Option (List Char)
  deriving DecidableEq, Repr

/-- What SharedMemory(create=True, size=128) and SharedMemory(name=name) give on a rank. -/
structure LocalMemory where
  created : Except NodeError Segment
  opened : String → Except NodeError Segment

def magicMessage : List Char := "magic_message".toList

def Segment.assertBuffer (shm : Segment) (message : String) : Except NodeError (List Char) :=
  match shm.buf with
  | some buf => .ok buf
  | none => .error (.assertionError message)

def LocalMemory.readsMagic (memory : LocalMemory) (name : String) : Except NodeError Bool := do
  let shm ← memory.opened name
  let buf ← shm.assertBuffer "Buffer was not opened"
  return buf.take magicMessage.length == magicMessage

def LocalMemory.writesMagic (memory : LocalMemory) : Except NodeError String := do
  let shm ← memory.created
  let _ ← shm.assertBuffer "Buffer was not created"
  return shm.name

/-- Without torch the rows of flags are broadcast one after the other. -/
def broadcastFlags (flags : List Nat) : List Nat → List Nat → NodeScript (List Nat)
  | [], aggregated => return aggregated
  | i :: ranks, aggregated => do
    match ← NodeScript.broadcast (some (.flags flags)) i with
    | .flags rankData => broadcastFlags flags ranks (List.zipWith (· + ·) aggregated rankData)
    | .name _ => Script.raise .other

def aggregate (group : NodeGroup) (flags : List Nat) : NodeScript (List Nat) :=
  match group with
  | .torch _ => NodeScript.allReduce flags
  | .stateless worldSize => broadcastFlags flags (List.range worldSize) (List.replicate worldSize 0)

section Function
variable (group : NodeGroup) (source rank : Fin group.worldSize) (memory : LocalMemory)

/-- The body of the try statement: the own flag. -/
def markRank : NodeScript Bool := do
  if rank = source then
    let name ← memory.writesMagic
    let _ ← NodeScript.broadcast (some (.name name)) (group.ranks.get source)
    return true
  else
    match ← NodeScript.broadcast none (group.ranks.get source) with
    | .name name => memory.readsMagic name
    | .flags _ => Script.raise .other

/-- with contextlib.suppress(OSError) -/
def suppressOSError (m : NodeScript Bool) : NodeScript Bool := do
  match ← Script.attempt m with
  | .ok flag => return flag
  | .error .osError => return false
  | .error e => Script.raise e

/-- try ... except Exception -/
def exceptException (m : NodeScript Bool) : NodeScript Bool := do
  match ← Script.attempt m with
  | .ok flag => return flag
  | .error _ => return false

def inTheSameNodeAs : NodeScript (List Bool) := do
  if group.isNccl then
    Script.raise (.assertionError "in_the_same_node_as should be tested with a non-NCCL group.")
  let flag ← exceptException (suppressOSError (markRank group source rank memory))
  let isInTheSameNode := (List.replicate group.worldSize 0).set rank (if flag then 1 else 0)
  NodeScript.barrier
  let aggregatedData ← aggregate group isInTheSameNode
  return aggregatedData.map (· == 1)

end Function

/-- The calls meet in one collective. -/
def NodeCall.Meets : NodeCall → NodeCall → Prop
  | broadcast _ src, broadcast _ src' => src = src'
  | barrier, barrier => True
  | allReduce _, allReduce _ => True
  | _, _ => False

def InStep {W : Nat} (row : Fin W → NodeCall) : Prop := ∀ r r', (row r).Meets (row r')

section Replies
variable {group : NodeGroup} {src : Nat} {root : Fin group.worldSize}

theorem nodeMeaning_broadcast (hroot : group.ranks.idxOf? src = some (root : Nat)) {m : NodeMessage}
    {messages : Fin group.worldSize → Option NodeMessage} (hm : messages root = some m) (r : Fin group.worldSize) :
    nodeMeaning group (fun r => .broadcast (messages r) src) r = .ok m := by
  have hsel : (List.ofFn fun r => NodeCall.broadcast (messages r) src).mapM (selBroadcastMessage src) =
      some (List.ofFn messages) := mapM_ofFn fun r => if_pos rfl
  have hget : (List.ofFn messages)[(root : Nat)]?.join = some m := by simp [hm]
  simp only [nodeMeaning, nodeReply, hsel, Option.bind_some, hroot, hget]

theorem nodeMeaning_barrier (r : Fin group.worldSize) : nodeMeaning group (fun _ => .barrier) r = .ok () := by
  apply if_pos
  intro c hc
  obtain ⟨_, rfl⟩ := List.mem_ofFn.mp hc
  rfl

theorem nodeMeaning_allReduce (flags : Fin group.worldSize → List Nat) (r : Fin group.worldSize) :
    nodeMeaning group (fun r => .allReduce (flags r)) r = .ok (sumFlags group.worldSize (List.ofFn flags)) := by
  have hsel : (List.ofFn fun r => NodeCall.allReduce (flags r)).mapM selFlags = some (List.ofFn flags) :=
    mapM_ofFn fun r => rfl
  simp only [nodeMeaning, nodeReply, hsel]

end Replies

private theorem getD_foldl_zipWith (k : Nat) (rows : List (List Nat)) (acc : List Nat)
    (h : ∀ row ∈ rows, row.length = acc.length) :
    (rows.foldl (List.zipWith (· + ·)) acc).length = acc.length ∧
      (rows.foldl (List.zipWith (· + ·)) acc).getD k 0 = acc.getD k 0 + (rows.map (·.getD k 0)).sum := by
  induction rows generalizing acc with
  | nil => exact ⟨rfl, rfl⟩
  | cons row rows ih =>
    rw [List.forall_mem_cons] at h
    have hlen : (List.zipWith (· + ·) acc row).length = acc.length := by
      rw [List.length_zipWith, h.1, Nat.min_self]
    have hhead : (List.zipWith (· + ·) acc row).getD k 0 = acc.getD k 0 + row.getD k 0 := by
      rcases Nat.lt_or_ge k acc.length with hk | hk
      · have hk' : k < row.length := h.1 ▸ hk
        simp [List.getD, List.getElem?_zipWith, List.getElem?_eq_getElem hk, List.getElem?_eq_getElem hk']
      · have hk' : row.length ≤ k := h.1 ▸ hk
        simp [List.getD, List.getElem?_zipWith, List.getElem?_eq_none hk, List.getElem?_eq_none hk']
    obtain ⟨hl, hs⟩ := ih _ fun row' hrow => (h.2 row' hrow).trans hlen.symm
    refine ⟨hl.trans hlen, ?_⟩
    rw [List.foldl_cons, hs, hhead, List.map_cons, List.sum_cons, Nat.add_assoc]

/-- Each rank contributes its own entry and zeros elsewhere. -/
theorem sumFlags_oneHot {W : Nat} (b : Fin W → Nat) :
    sumFlags W (List.ofFn fun r => (List.replicate W 0).set r (b r)) = List.ofFn b := by
  have hrows : ∀ row ∈ List.ofFn fun r => (List.replicate W 0).set r (b r),
      row.length = (List.replicate W 0).length := by
    intro row hrow
    obtain ⟨r, rfl⟩ := List.mem_ofFn.mp hrow
    exact List.length_set
  have hfold := fun k => getD_foldl_zipWith k _ _ hrows
  apply List.ext_getElem
  · rw [sumFlags, (hfold 0).1, List.length_replicate, List.length_ofFn]
  intro k hk hk'
  have hkW : k < W := by rwa [List.length_ofFn] at hk'
  have hcol : ∀ r : Fin W, ((List.replicate W 0).set r (b r)).getD k 0 = if r = ⟨k, hkW⟩ then b r else 0 := by
    intro r
    rcases eq_or_ne r ⟨k, hkW⟩ with rfl | hr
    · simp [List.getD, hkW]
    · have hne : (r : Nat) ≠ k := fun h => hr (Fin.ext h)
      rw [List.getD_eq_getElem?_getD, List.getElem?_set_ne hne, if_neg hr]
      simp [hkW]
  have hget : (sumFlags W _).getD k 0 = _ := (hfold k).2
  rw [List.map_ofFn, List.sum_ofFn] at hget
  simp only [Function.comp_apply, hcol, Finset.sum_ite_eq', Finset.mem_univ, if_true] at hget
  rw [List.getElem_eq_getD 0, hget, List.getElem_ofFn]
  simp [List.getD, hkW]

section Runs
variable {group : NodeGroup}

theorem idxOf?_ranks (hranks : group.ranks.Nodup) (r : Fin group.worldSize) :
    group.ranks.idxOf? (group.ranks.get r) = some (r : Nat) := by
  rw [List.idxOf?_eq_some_iff]
  refine ⟨r.2, rfl, fun j hj he => hj.ne ?_⟩
  exact (hranks.getElem_inj_iff).mp he

private theorem broadcastFlags_runs {n : Nat} (flags : Fin (NodeGroup.stateless n).worldSize → List Nat)
    (ranks : List (Fin (NodeGroup.stateless n).worldSize)) (acc : List Nat) :
    Script.Runs (nodeMeaning (.stateless n)) (fun r => broadcastFlags (flags r) (ranks.map (↑)) acc)
      (ranks.map fun (i : Fin _) r => .broadcast (some (.flags (flags r))) i)
      fun _ => .ok ((ranks.map flags).foldl (List.zipWith (· + ·)) acc) := by
  induction ranks generalizing acc with
  | nil => exact Script.runs_pure _
  | cons i ranks ih =>
    have hi : (List.range n).idxOf? (i : Nat) = some (i : Nat) := by
      have h := idxOf?_ranks (show (NodeGroup.stateless n).ranks.Nodup from List.nodup_range) i
      have hget : (NodeGroup.stateless n).ranks.get i = (i : Nat) := List.getElem_range i.2
      rwa [hget] at h
    have hreply : ∀ r, nodeMeaning (.stateless n) (fun r => .broadcast (some (.flags (flags r))) i) r =
        .ok (.flags (flags i)) := nodeMeaning_broadcast hi rfl
    exact Script.runs_ask hreply (ih _)

theorem aggregate_runs (flags : Fin group.worldSize → List Nat) :
    ∃ tr, (∀ row ∈ tr, InStep row) ∧ Script.Runs (nodeMeaning group) (fun r => aggregate group (flags r)) tr
      fun _ => .ok (sumFlags group.worldSize (List.ofFn flags)) := by
  cases group with
  | torch pg =>
    refine ⟨[fun r => .allReduce (flags r)], ?_, ?_⟩
    · rintro row hrow r r'
      rw [List.mem_singleton.mp hrow]
      trivial
    · apply Prog.GroupRun.of_replies (nodeMeaning_allReduce flags)
      · exact fun r => ⟨_, rfl, rfl⟩
      · exact Script.runs_pure _
  | stateless n =>
    have h := broadcastFlags_runs flags (List.finRange _) (List.replicate n 0)
    have hrange : (List.finRange (NodeGroup.stateless n).worldSize).map (↑) = List.range n := by
      rw [List.map_coe_finRange_eq_range]
      exact congrArg List.range List.length_range
    have hsum : ((List.finRange _).map flags).foldl (List.zipWith (· + ·)) (List.replicate n 0) =
        sumFlags (NodeGroup.stateless n).worldSize (List.ofFn flags) := by
      rw [sumFlags, ← List.ofFn_eq_map]
      exact congrArg (fun m => (List.ofFn flags).foldl _ (List.replicate m 0)) List.length_range.symm
    rw [hrange, hsum] at h
    refine ⟨_, ?_, h⟩
    rintro row hrow r r'
    obtain ⟨i, -, rfl⟩ := List.mem_map.mp hrow
    rfl

section Mark
variable (source : Fin group.worldSize) (memory : Fin group.worldSize → LocalMemory)

/-- How the body of the try statement ends on a rank, once the source has a segment. -/
def markOutcome (name : String) (r : Fin group.worldSize) : Except NodeError Bool :=
  if r = source then .ok true else (memory r).readsMagic name

private theorem mark_runs (hranks : group.ranks.Nodup) {name : String}
    (hname : (memory source).writesMagic = .ok name) :
    ∃ tr, (∀ row ∈ tr, InStep row) ∧
      Script.Runs (nodeMeaning group) (fun r => markRank group source r (memory r)) tr
        (markOutcome source memory name) := by
  have hreply : ∀ r, nodeMeaning group (fun r =>
      .broadcast (if r = source then some (.name name) else none) (group.ranks.get source)) r = .ok (.name name) :=
    nodeMeaning_broadcast (idxOf?_ranks hranks source) (if_pos rfl)
  refine ⟨_, ?_, Prog.GroupRun.of_replies hreply ?_ (.done (markOutcome source memory name))⟩
  · intro row hrow r r'
    rw [List.mem_singleton.mp hrow]
    rfl
  · intro r
    by_cases hr : r = source
    · have hmark : markRank group source r (memory r) =
          NodeScript.broadcast (if r = source then some (.name name) else none) (group.ranks.get source) >>=
            fun _ => pure true := by
        rw [markRank, if_pos hr, if_pos hr, Script.liftM_eq, hr, hname]
        rfl
      have hout : markOutcome source memory name r = .ok true := if_pos hr
      refine ⟨_, hmark.trans (Script.ask_bind _ _), ?_⟩
      rw [hout]
      rfl
    · have hmark : markRank group source r (memory r) =
          NodeScript.broadcast (if r = source then some (.name name) else none) (group.ranks.get source) >>=
            fun | .name name => liftM ((memory r).readsMagic name) | .flags _ => Script.raise .other := by
        rw [markRank, if_neg hr, if_neg hr]
      have hout : markOutcome source memory name r = (memory r).readsMagic name := if_neg hr
      refine ⟨_, hmark.trans (Script.ask_bind _ _), ?_⟩
      rw [hout]
      rfl

private theorem swallow_runs {ms : Fin group.worldSize → NodeScript Bool}
    {tr : List (Fin group.worldSize → NodeCall)} {a : Fin group.worldSize → Except NodeError Bool}
    (h : Script.Runs (nodeMeaning group) ms tr a) :
    Script.Runs (nodeMeaning group) (fun r => exceptException (suppressOSError (ms r))) tr
      fun r => .ok ((a r).toOption.getD false) := by
  have hsuppress : Script.Runs (nodeMeaning group) (fun r => suppressOSError (ms r)) (tr ++ [])
      fun r => if a r = .error .osError then .ok false else a r := by
    refine Script.runs_bind (Script.runs_attempt h) (.of_ret fun r => ?_)
    rcases a r with (_ | _ | _ | _) | flag <;> rfl
  have hexcept : Script.Runs (nodeMeaning group) (fun r => exceptException (suppressOSError (ms r))) (tr ++ [] ++ [])
      fun r => .ok ((a r).toOption.getD false) := by
    refine Script.runs_bind (Script.runs_attempt hsuppress) (.of_ret fun r => ?_)
    rcases a r with (_ | _ | _ | _) | flag <;> rfl
  rwa [List.append_nil, List.append_nil] at hexcept

/-- Rank r created the segment, or it opened it and read the magic message. -/
def hasSegment (r : Fin group.worldSize) : Bool :=
  if r = source then (memory r).writesMagic.toOption.isSome
  else ((memory source).writesMagic.bind (memory r).readsMagic).toOption.getD false

/-- The ranks call the same collectives and, where they finish, agree on who has the segment. -/
def StaysInStep : Prop :=
  ∃ tr out, Script.Runs (nodeMeaning group) (fun r => inTheSameNodeAs group source r (memory r)) tr out ∧
    (∀ row ∈ tr, InStep row) ∧
      (group.isNccl = false → ∀ r, out r = .ok (List.ofFn (hasSegment source memory)))

private theorem swallowed_eq_hasSegment {name : String} (hname : (memory source).writesMagic = .ok name)
    (r : Fin group.worldSize) :
    (markOutcome source memory name r).toOption.getD false = hasSegment source memory r := by
  rw [markOutcome, hasSegment, hname]
  split_ifs with hr
  · rw [hr, hname]
    rfl
  · rfl

private theorem inTheSameNodeAs_eq (hnccl : group.isNccl = false) (r : Fin group.worldSize) (memory : LocalMemory) :
    inTheSameNodeAs group source r memory =
      exceptException (suppressOSError (markRank group source r memory)) >>= fun flag =>
        NodeScript.barrier >>= fun _ =>
          aggregate group ((List.replicate group.worldSize 0).set r (if flag then 1 else 0)) >>= fun aggregated =>
            pure (aggregated.map (· == 1)) := by
  rw [inTheSameNodeAs, hnccl]
  rfl

theorem nccl_runs (hnccl : group.isNccl = true) :
    Script.Runs (nodeMeaning group) (fun r => inTheSameNodeAs group source r (memory r)) []
      fun _ => .error (.assertionError "in_the_same_node_as should be tested with a non-NCCL group.") := by
  apply Prog.GroupRun.of_ret
  intro r
  rw [inTheSameNodeAs, hnccl]
  rfl

/-- Once the source has its segment, nothing that happens locally moves a rank out of step. -/
theorem inTheSameNodeAs_runs (hnccl : group.isNccl = false) (hranks : group.ranks.Nodup) {name : String}
    (hname : (memory source).writesMagic = .ok name) :
    ∃ tr, (∀ row ∈ tr, InStep row) ∧
      Script.Runs (nodeMeaning group) (fun r => inTheSameNodeAs group source r (memory r)) tr
        fun _ => .ok (List.ofFn (hasSegment source memory)) := by
  obtain ⟨tr, hstep, hmark⟩ := mark_runs source memory hranks hname
  have hflag := swallow_runs hmark
  simp only [swallowed_eq_hasSegment source memory hname] at hflag
  obtain ⟨tr', hstep', hsum⟩ := aggregate_runs fun r : Fin group.worldSize =>
    (List.replicate group.worldSize 0).set r (if hasSegment source memory r then 1 else 0)
  rw [sumFlags_oneHot] at hsum
  have hread : (List.ofFn fun r => if hasSegment source memory r then 1 else 0).map (· == 1) =
      List.ofFn (hasSegment source memory) := by
    rw [List.map_ofFn]
    congr 1
    funext r
    rw [Function.comp_apply]
    cases hasSegment source memory r <;> rfl
  have hend := Script.runs_bind (f := fun _ aggregated => pure (aggregated.map (· == 1))) hsum (Script.runs_pure _)
  rw [hread] at hend
  have hbarrier := Script.runs_ask (c := fun _ => .barrier) (f := fun _ _ => _) nodeMeaning_barrier hend
  refine ⟨tr ++ (fun _ => .barrier) :: (tr' ++ []), ?_, ?_⟩
  · intro row hrow
    rw [List.append_nil, List.mem_append, List.mem_cons] at hrow
    rcases hrow with hrow | rfl | hrow
    · exact hstep row hrow
    · exact fun _ _ => trivial
    · exact hstep' row hrow
  · simp only [inTheSameNodeAs_eq source hnccl]
    exact Script.runs_bind hflag hbarrier

/-- The source waits in the barrier, the others in the broadcast of the name. -/
theorem not_staysInStep (hnccl : group.isNccl = false) {r : Fin group.worldSize} (hr : r ≠ source) {e : NodeError}
    (hfail : (memory source).writesMagic = .error e) : ¬ StaysInStep source memory := by
  rintro ⟨tr, out, hrun, hstep, -⟩
  have hsource : ∃ k, inTheSameNodeAs group source source (memory source) = Prog.call .barrier k := by
    rw [inTheSameNodeAs_eq source hnccl, markRank, if_pos rfl, Script.liftM_eq, hfail]
    cases e <;> exact ⟨_, rfl⟩
  have hother : ∃ k, inTheSameNodeAs group source r (memory r) =
      Prog.call (.broadcast none (group.ranks.get source)) k := by
    rw [inTheSameNodeAs_eq source hnccl, markRank, if_neg hr]
    exact ⟨_, rfl⟩
  obtain ⟨k, hk⟩ := hsource
  obtain ⟨k', hk'⟩ := hother
  obtain ⟨row, rest, rfl, hrow⟩ := hrun.head_of_call hk
  obtain ⟨row', rest', he, hrow'⟩ := hrun.head_of_call hk'
  obtain ⟨rfl, -⟩ := List.cons.inj he
  have hmeets := hstep row List.mem_cons_self source r
  rw [hrow, hrow'] at hmeets
  exact hmeets

theorem writesMagic_eq_ok_iff {memory : LocalMemory} :
    (∃ name, memory.writesMagic = .ok name) ↔ ∃ shm, memory.created = .ok shm ∧ shm.buf ≠ none := by
  constructor
  · rintro ⟨name, hname⟩
    rcases hc : memory.created with e | ⟨shmName, _ | buf⟩
    · simp [LocalMemory.writesMagic, hc, Bind.bind, Except.bind] at hname
    · simp [LocalMemory.writesMagic, hc, Segment.assertBuffer, Bind.bind, Except.bind] at hname
    · exact ⟨_, rfl, by simp⟩
  · rintro ⟨⟨shmName, buf⟩, hc, hbuf⟩
    obtain ⟨chars, rfl⟩ := Option.ne_none_iff_exists'.mp hbuf
    exact ⟨shmName, by rw [LocalMemory.writesMagic, hc]; rfl⟩

/-- The ranks of in_the_same_node_as stay in step unless the source fails before it has
broadcast the name of its segment. -/
theorem staysInStep_iff (hranks : group.ranks.Nodup) (hW : 2 ≤ group.worldSize) :
    StaysInStep source memory ↔
      group.isNccl = true ∨ ∃ shm, (memory source).created = .ok shm ∧ shm.buf ≠ none := by
  rw [← writesMagic_eq_ok_iff]
  constructor
  · intro h
    by_contra hnot
    rw [not_or, Bool.not_eq_true, not_exists] at hnot
    obtain ⟨hnccl, hname⟩ := hnot
    have : Nontrivial (Fin group.worldSize) := Fin.nontrivial_iff_two_le.mpr hW
    obtain ⟨r, hr⟩ := exists_ne source
    cases hfail : (memory source).writesMagic with
    | error e => exact not_staysInStep source memory hnccl hr hfail h
    | ok name => exact hname name hfail
  · intro h
    cases hnccl : group.isNccl with
    | true =>
      refine ⟨[], _, nccl_runs source memory hnccl, fun _ h => (by cases h), fun h => ?_⟩
      rw [hnccl] at h
      cases h
    | false =>
      rw [hnccl] at h
      obtain ⟨name, hname⟩ := h.resolve_left Bool.false_ne_true
      obtain ⟨tr, hstep, hrun⟩ := inTheSameNodeAs_runs source memory hnccl hranks hname
      exact ⟨tr, _, hrun, hstep, fun _ _ => rfl⟩

end Mark
end Runs

def twoRanks : NodeGroup := .torch ⟨0, "gloo", [0, 1]⟩
def rankZero : Fin twoRanks.worldSize := ⟨0, Nat.two_pos⟩

def brokenMemory : LocalMemory := ⟨.error .osError, fun _ => .error .osError⟩

/-- Rank 0 creates a segment that the others cannot open. -/
def halfMemory (r : Fin twoRanks.worldSize) : LocalMemory :=
  if r = rankZero then ⟨.ok ⟨"psm_0", some []⟩, fun _ => .error .other⟩ else brokenMemory

theorem halfMemory_staysInStep : StaysInStep rankZero halfMemory :=
  (staysInStep_iff rankZero halfMemory (by decide) (by decide)).mpr (.inr ⟨⟨"psm_0", some []⟩, rfl, by decide⟩)

theorem brokenMemory_not_staysInStep :
    2 ≤ twoRanks.worldSize ∧ twoRanks.ranks.Nodup ∧ ¬ StaysInStep rankZero fun _ => brokenMemory := by
  have hne : (⟨1, Nat.one_lt_two⟩ : Fin twoRanks.worldSize) ≠ rankZero := by decide
  exact ⟨by decide, by decide, not_staysInStep _ _ rfl hne rfl⟩

end B70DualTP.Coordinator
