import B70DualTP.Communicator.Shapes
import B70DualTP.Coordinator.TensorMail

/-! The hand-off between two pipeline stages: n senders and n receivers, a sequence of
dictionaries, and any order in which messages arrive. -/
namespace B70DualTP.Coordinator
open Library Torch Communicator
variable {V X A : Type} (num : Numerics V) (codec : Codec V (MetadataList X))

/-- The groups for the all-gather, one of the senders and one of the receivers; member i is
sender or receiver i, and the custom ops find the receivers' group. -/
structure GatherGroups (n : Nat) (receiverRanks : List Nat) (process : Fin n → Process) where
  sender : Fin n → GroupCoordinator
  sender_worldSize : ∀ i, (sender i).worldSize = n
  sender_rank : ∀ i, (sender i).rankInGroup = i
  receiver : Fin n → GroupCoordinator
  receiver_wired : ∀ i, (receiver i).Wired
  receiver_ranks : ∀ i, (receiver i).ranks = receiverRanks
  receiver_rank : ∀ i, (receiver i).rankInGroup = i
  cpuGroup : ProcessGroup
  receiver_cpuGroup : ∀ i, (receiver i).cpuGroup = cpuGroup
  deviceGroup : ProcessGroup
  receiver_deviceGroup : ∀ i, (receiver i).deviceGroup = deviceGroup
  hoststaged : Bool
  /-- A group of one rank has no communicator. -/
  communicator : 1 < n → ∀ i, ∃ comm, (receiver i).deviceCommunicator = some comm ∧ comm.hoststaged = hoststaged
  registered : ∀ i, (process i).groups (receiver i).uniqueName = some (some (receiver i))

/-- Sender i and receiver i are members of one pipeline group, and each names the other. -/
structure Pipeline (n : Nat) where
  pos : 0 < n
  sender : Fin n → GroupCoordinator
  receiver : Fin n → GroupCoordinator
  senderProcess : Fin n → Process
  receiverProcess : Fin n → Process
  sender_initialized : ∀ i, (senderProcess i).isInitialized = true
  receiver_initialized : ∀ i, (receiverProcess i).isInitialized = true
  sender_wired : ∀ i, (sender i).Wired
  receiver_wired : ∀ i, (receiver i).Wired
  ranks : ∀ i, (receiver i).ranks = (sender i).ranks
  cpuGroup : ∀ i, (receiver i).cpuGroup = (sender i).cpuGroup
  deviceGroup : ∀ i, (receiver i).deviceGroup = (sender i).deviceGroup
  nodup : (List.ofFn (fun i => (sender i).rank) ++ List.ofFn fun i => (receiver i).rank).Nodup
  dst : Fin n → Option Int
  dst_eq : ∀ i, (dst i).getD (((sender i).rankInGroup + 1) % (sender i).worldSize : Nat) = (receiver i).rankInGroup
  src : Fin n → Option Int
  src_eq : ∀ i, (src i).getD ((((receiver i).rankInGroup : Int) - 1) % (receiver i).worldSize) = (sender i).rankInGroup
  gather : Option (GatherGroups n (List.ofFn fun i => (receiver i).rank) receiverProcess)

/-- One call of send_tensor_dict on every sender and of recv_tensor_dict on every receiver. -/
structure Transfer (n : Nat) (V X : Type) where
  dicts : Fin n → TensorDict V X
  /-- An all_gather_group is passed, if there is one. -/
  grouped : Bool
  overrides : Overrides

/-- Shape and dtype of a tensor. -/
def Value.layout : Value V X → Option (List Nat × DType)
  | .tensor t => some (t.shape, t.dtype)
  | .other _ => none

namespace Pipeline
variable {n : Nat} (p : Pipeline n)

def sendGroup (t : Transfer n V X) (i : Fin n) : Option GroupCoordinator :=
  if t.grouped then p.gather.map (·.sender i) else none

def recvGroup (t : Transfer n V X) (i : Fin n) : Option GroupCoordinator :=
  if t.grouped then p.gather.map (·.receiver i) else none

/-- What the senders must agree on. -/
structure Agrees (p : Pipeline n) (t : Transfer n V X) : Prop where
  plain : ∀ i, (t.dicts i).Plain
  layout : ∀ i j, (t.dicts i).entries.map (fun e => (e.1, e.2.layout)) =
    (t.dicts j).entries.map fun e => (e.1, e.2.layout)
  divides : ∀ i key u, (key, .tensor u) ∈ (t.dicts i).entries →
    t.overrides.bind (·.lookup key) = some true → n ∣ u.numel
  replicated : ∀ i j key u w, (key, .tensor u) ∈ (t.dicts i).entries → (key, .tensor w) ∈ (t.dicts j).entries →
    GroupCoordinator.shouldUseAllGather key u.numel (p.sendGroup t i) t.overrides = true → u.data = w.data

def sends (i : Fin n) : List (Transfer n V X) → Dist V (MetadataList X) (List (Option (Entries V X)))
  | [] => return []
  | t :: ts => do
    let result ← (p.sender i).sendTensorDict (p.senderProcess i) codec (p.sendGroup t i) t.overrides (t.dicts i) (p.dst i)
    let results ← sends i ts
    return result :: results

def receives (i : Fin n) : List (Transfer n V X) → Dist V (MetadataList X) (List (Option (Entries V X)))
  | [] => return []
  | t :: ts => do
    let result ← (p.receiver i).recvTensorDict num (p.receiverProcess i) codec (p.recvGroup t i) t.overrides (p.src i)
    let results ← receives i ts
    return result :: results

section Decisions
variable {p} {t : Transfer n V X} {key : String} {k : Nat}

theorem sendGroup_cases (t : Transfer n V X) :
    (∃ g, p.gather = some g ∧ t.grouped = true ∧ (∀ i, p.sendGroup t i = some (g.sender i)) ∧
      ∀ i, p.recvGroup t i = some (g.receiver i)) ∨
    (∀ i, p.sendGroup t i = none) ∧ ∀ i, p.recvGroup t i = none := by
  cases hg : t.grouped with
  | false => exact .inr ⟨fun i => by simp [sendGroup, hg], fun i => by simp [recvGroup, hg]⟩
  | true =>
    cases hgather : p.gather with
    | none => exact .inr ⟨fun i => by simp [sendGroup, hg, hgather], fun i => by simp [recvGroup, hg, hgather]⟩
    | some g => exact .inl ⟨g, rfl, rfl, fun i => by simp [sendGroup, hg, hgather], fun i => by
        simp [recvGroup, hg, hgather]⟩

theorem receiver_worldSize (g : GatherGroups n (List.ofFn fun i => (p.receiver i).rank) p.receiverProcess)
    (i : Fin n) : (g.receiver i).worldSize = n := by
  rw [GroupCoordinator.worldSize, g.receiver_ranks, List.length_ofFn]

theorem shouldUseAllGather_eq (t : Transfer n V X) (i j : Fin n) :
    GroupCoordinator.shouldUseAllGather key k (p.sendGroup t i) t.overrides =
      GroupCoordinator.shouldUseAllGather key k (p.recvGroup t j) t.overrides := by
  obtain ⟨g, -, -, hs, hr⟩ | ⟨hs, hr⟩ := sendGroup_cases (p := p) t
  · simp only [hs, hr, GroupCoordinator.shouldUseAllGather, g.sender_worldSize, receiver_worldSize]
  · rw [hs, hr]

theorem outgoing_eq (t : Transfer n V X) (i : Fin n) (key : String) (u : Tensor V) :
    GroupCoordinator.outgoing (p.sendGroup t i) t.overrides key u =
      GroupCoordinator.outgoing (p.recvGroup t i) t.overrides key u := by
  rw [GroupCoordinator.outgoing, GroupCoordinator.outgoing, shouldUseAllGather_eq t i i]
  obtain ⟨g, -, -, hs, hr⟩ | ⟨hs, hr⟩ := sendGroup_cases (p := p) t
  · simp only [hs, hr, GroupCoordinator.sliceFor, Option.elim, g.sender_worldSize, receiver_worldSize,
      g.sender_rank, g.receiver_rank]
  · rw [hs, hr]

/-- The messages of sender i, as receiver i describes them. -/
def mail (p : Pipeline n) (i : Fin n) (t : Transfer n V X) : List (ProcessGroup × Tensor V) :=
  (p.receiver i).dictMail codec (p.recvGroup t i) t.overrides (t.dicts i)

theorem sender_dictMail (i : Fin n) :
    (p.sender i).dictMail codec (p.sendGroup t i) t.overrides (t.dicts i) = p.mail codec i t := by
  have htensors : ∀ tensors : List (String × Tensor V),
      (p.sender i).tensorMail (p.sendGroup t i) t.overrides tensors =
        (p.receiver i).tensorMail (p.recvGroup t i) t.overrides tensors := by
    intro tensors
    induction tensors with
    | nil => rfl
    | cons e tensors ih =>
      simp only [GroupCoordinator.tensorMail, outgoing_eq, ih, GroupCoordinator.commGroup, p.cpuGroup, p.deviceGroup]
  rw [mail, GroupCoordinator.dictMail, GroupCoordinator.dictMail, htensors, p.cpuGroup]

theorem Agrees.sendable (h : p.Agrees t) (i : Fin n) :
    GroupCoordinator.Sendable (p.recvGroup t i) t.overrides (keyedTensors (t.dicts i).entries) := by
  rintro ⟨key, u⟩ hu -
  rw [mem_keyedTensors] at hu
  by_cases huse : GroupCoordinator.shouldUseAllGather key u.numel (p.recvGroup t i) t.overrides = true
  · obtain ⟨g, -, -, -, hr⟩ | ⟨-, hr⟩ := sendGroup_cases (p := p) t
    · rw [hr i] at huse
      have hdvd : n ∣ u.numel := by
        simp only [GroupCoordinator.shouldUseAllGather, receiver_worldSize] at huse
        cases ho : t.overrides with
        | none =>
          rw [ho] at huse
          exact Nat.dvd_of_mod_eq_zero (by simpa using huse)
        | some overrides =>
          rw [ho] at huse
          cases hl : overrides.lookup key with
          | none =>
            simp only [hl] at huse
            exact Nat.dvd_of_mod_eq_zero (by simpa using huse)
          | some forced =>
            simp only [hl, Option.getD_some] at huse
            exact h.divides i key u hu (by simp [ho, hl, huse])
      rw [← receiver_worldSize g i] at hdvd
      obtain ⟨w, hw, -⟩ := GroupCoordinator.sliceFor_eq (g.receiver i) hdvd
      exact ⟨w, by rw [GroupCoordinator.outgoing, hr i, if_pos huse, hw]⟩
    · rw [hr i] at huse
      cases huse
  · exact ⟨u, if_neg huse⟩

end Decisions

/-- The global ranks of pair i. -/
abbrev a (i : Fin n) : Nat := (p.sender i).rank
abbrev b (i : Fin n) : Nat := (p.receiver i).rank

theorem sender_injective : Function.Injective p.a := List.nodup_ofFn.mp (List.nodup_append.mp p.nodup).1

theorem receiver_injective : Function.Injective p.b := List.nodup_ofFn.mp (List.nodup_append.mp p.nodup).2.1

theorem sender_ne_receiver (i j : Fin n) : p.a i ≠ p.b j :=
  (List.nodup_append.mp p.nodup).2.2 _ (List.mem_ofFn.mpr ⟨i, rfl⟩) _ (List.mem_ofFn.mpr ⟨j, rfl⟩)

private theorem index_ne (i : Fin n) : (p.receiver i).rankInGroup ≠ (p.sender i).rankInGroup := by
  intro h
  have hs := (p.sender_wired i).rank
  have hr := (p.receiver_wired i).rank
  rw [p.ranks i, h, hs] at hr
  exact p.sender_ne_receiver i i (Option.some.inj hr)

theorem sender_towards (i : Fin n) : (p.sender i).Towards (p.receiver i).rankInGroup (p.b i) where
  lt := by
    have hlt := (p.receiver i).rank_lt
    rwa [p.ranks i] at hlt
  ne := p.index_ne i
  rank := by
    rw [← p.ranks i]
    exact (p.receiver_wired i).rank

theorem receiver_towards (i : Fin n) : (p.receiver i).Towards (p.sender i).rankInGroup (p.a i) where
  lt := by
    have hlt := (p.sender i).rank_lt
    rwa [← p.ranks i] at hlt
  ne := (p.index_ne i).symm
  rank := by
    rw [p.ranks i]
    exact (p.sender_wired i).rank

section Runs
variable {p} {num} {codec} {ts : List (Transfer n V X)} {chan : Link → Channel (Tensor V)}

/-- Sender i leaves the messages of all its dictionaries on its links. -/
theorem sends_solo (hts : ∀ t ∈ ts, p.Agrees t) (i : Fin n) {mail : List (ProcessGroup × Tensor V)}
    (hm : Mail (p.a i) (p.b i) mail [] chan) :
    (network num).SoloOk A (p.a i) chan (p.sends codec i ts) fun _ chan' =>
      Mail (p.a i) (p.b i) (mail ++ ts.flatMap (p.mail codec i)) [] chan' ∧ Elsewhere (p.a i) (p.b i) chan chan' := by
  induction ts generalizing mail chan with
  | nil => exact Protocol.soloOk_pure ⟨by simpa using hm, .refl _ _ _⟩
  | cons t ts ih =>
    obtain ⟨ht, hrest⟩ := List.forall_mem_cons.mp hts
    have hsend : GroupCoordinator.Sendable (p.sendGroup t i) t.overrides (keyedTensors (t.dicts i).entries) := by
      intro e he hne
      obtain ⟨u, hu⟩ := ht.sendable i e he hne
      exact ⟨u, (outgoing_eq t i e.1 e.2).trans hu⟩
    refine Protocol.soloOk_bind (GroupCoordinator.sendTensorDict_solo (p.sender_initialized i) (p.sender_towards i)
      (p.dst_eq i) hsend hm) ?_
    rintro result chan₁ ⟨-, hm₁, he₁⟩
    rw [sender_dictMail] at hm₁
    apply Protocol.soloOk_bind (ih hrest hm₁)
    rintro results chan₂ ⟨hm₂, he₂⟩
    rw [List.append_assoc] at hm₂
    exact Protocol.soloOk_pure ⟨hm₂, he₁.trans he₂⟩

theorem ranks_of_gather (g : GatherGroups n (List.ofFn p.b) p.receiverProcess) :
    g.cpuGroup.ranks = List.ofFn p.b ∧ g.deviceGroup.ranks = List.ofFn p.b := by
  let i : Fin n := ⟨0, p.pos⟩
  have hw := g.receiver_wired i
  rw [← g.receiver_cpuGroup i, ← g.receiver_deviceGroup i, hw.cpuGroup, hw.deviceGroup, g.receiver_ranks]
  exact ⟨rfl, rfl⟩

/-- The receivers' all-gather puts their slices together, in rank order. -/
theorem gather_finishes (g : GatherGroups n (List.ofFn p.b) p.receiverProcess) {m : Nat} {dt : DType}
    {x : Fin n → Tensor V} (hx : Uniform [m] dt x) :
    Script.Finishes (meaning num) (Protocol.JoinRow (network (O := MetadataList X) num) p.b)
      (fun i => (g.receiver i).allGather num (p.receiverProcess i) (x i) 0) fun y =>
        ∀ i, (y i).data = (List.ofFn x).flatMap (·.data) ∧ (y i).device = (x i).device ∧ (y i).dtype = dt := by
  have hworld : ∀ i, (g.receiver i).worldSize = n := receiver_worldSize g
  by_cases hone : n = 1
  · subst hone
    simp only [GroupCoordinator.allGather, hworld, if_true]
    refine Script.finishes_pure fun i => ⟨?_, rfl, (hx i).2⟩
    obtain rfl : i = 0 := Subsingleton.elim i 0
    simp
  · have hdim : ∀ i, assertDim (x i) 0 = .ok () := by
      intro i
      rw [assertDim, (hx i).1]
      rfl
    have hfind : ∀ i, findGroup (p.receiverProcess i).groups (g.receiver i).uniqueName = .ok (g.receiver i) :=
      fun i => by rw [findGroup, g.registered i]
    have hlarge : 1 < n := Nat.lt_of_le_of_ne p.pos (Ne.symm hone)
    choose comm hsome hhoststaged using g.communicator hlarge
    have hcomm : ∀ i, (g.receiver i).communicator = .ok (comm i) :=
      fun i => by rw [GroupCoordinator.communicator, hsome i]
    have hdirect : ∀ i, ((g.receiver i).allGather num (p.receiverProcess i) (x i) 0 :
        Dist V (MetadataList X) (Tensor V)) = (comm i).allGather num (x i) 0 := by
      intro i
      simp only [GroupCoordinator.allGather, hworld, hone, if_false, hdim, Coordinator.allGather,
        GroupCoordinator.allGatherOutPlace, hfind, hcomm, Script.liftM_eq, Script.lift_ok, pure_bind, ite_self]
    have hwired := fun i => (g.receiver_wired i).communicator (comm i) (hsome i)
    obtain ⟨hcpu, hdevice⟩ := ranks_of_gather g
    simp only [hdirect]
    refine allGather_rows (fun i => (hwired i).1.trans (g.receiver_cpuGroup i))
      (fun i => (hwired i).2.1.trans (g.receiver_deviceGroup i)) hhoststaged
      (by rw [hcpu, List.length_ofFn]) hx fun o t => ⟨if g.hoststaged then g.cpuGroup else g.deviceGroup, ?_, fun i => rfl⟩
    change (if g.hoststaged then g.cpuGroup else g.deviceGroup).ranks = _
    split
    · exact hcpu
    · exact hdevice

variable (num) in
/-- An entry that did not come in slices has its value already. -/
theorem postprocess_ready (process : Process) {group : Option GroupCoordinator} {overrides : Overrides}
    {key : String} {v : Value V X} {q : String × Pending V X}
    (hq : GroupCoordinator.Receives group overrides GroupCoordinator.Arrived (key, v) q)
    (hready : ∀ t, v = .tensor t → t.numel ≠ 0 →
      GroupCoordinator.shouldUseAllGather key t.numel group overrides = false) :
    ∃ w, v.Same w ∧ ∀ pending, GroupCoordinator.postprocess num process group (q :: pending) =
      GroupCoordinator.postprocess num process group pending >>= fun entries => pure ((key, w) :: entries) := by
  cases hq with
  | object key x =>
    refine ⟨.other (.object x), ?_, fun pending => rfl⟩
    exact rfl
  | @empty key t u hzero hfit =>
    have hnil : ∀ w : Tensor V, w.shape = t.shape → w.data = [] := by
      intro w hw
      rw [← List.length_eq_zero_iff, w.wf, hw]
      exact hzero
    refine ⟨.tensor u, ?_, fun pending => rfl⟩
    exact ⟨hfit.1, (hnil u hfit.1).trans (hnil t rfl).symm, hfit.2.1, hfit.2.2⟩
  | @whole key t u h hne huse hfit hdata =>
    refine ⟨.tensor u, ?_, fun pending => rfl⟩
    exact ⟨hfit.1, hdata, hfit.2.1, hfit.2.2⟩
  | slice hne huse hm hfit hdata =>
    rw [hready _ rfl hne] at huse
    cases huse

/-- An entry that came in slices: this rank's slice. -/
theorem pending_slice {group : Option GroupCoordinator} {overrides : Overrides} {key : String} {t : Tensor V}
    {q : String × Pending V X} (hq : GroupCoordinator.Receives group overrides GroupCoordinator.Arrived (key, .tensor t) q)
    (hne : t.numel ≠ 0) (huse : GroupCoordinator.shouldUseAllGather key t.numel group overrides = true) :
    ∃ m u h, q = (key, .slice u h t.shape) ∧ GroupCoordinator.outgoing group overrides key t = .ok m ∧
      GroupCoordinator.Fits u m ∧ u.data = m.data := by
  cases hq with
  | empty hzero _ => exact absurd hzero hne
  | whole _ hwhole _ _ =>
    rw [huse] at hwhole
    cases hwhole
  | slice _ _ hm hfit hdata => exact ⟨_, _, _, rfl, hm, hfit, hdata⟩

/-- The slices of one tensor are gathered, and its shape is restored. -/
theorem postprocess_slices {t : Transfer n V X} {key : String} {s : List Nat} {dt : DType} {x : Fin n → Tensor V}
    {es : Fin n → Entries V X} {q : Fin n → String × Pending V X} {pending : Fin n → List (String × Pending V X)}
    (hx : Uniform s dt x) (hsame : ∀ i j, (x i).data = (x j).data) (hne : s.prod ≠ 0)
    (huse : ∀ i, GroupCoordinator.shouldUseAllGather key s.prod (p.recvGroup t i) t.overrides = true)
    (hq : ∀ i, GroupCoordinator.Receives (p.recvGroup t i) t.overrides GroupCoordinator.Arrived (key, .tensor (x i)) (q i))
    (hrest : Script.Finishes (meaning num) (Protocol.JoinRow (network (O := MetadataList X) num) p.b)
      (fun i => GroupCoordinator.postprocess num (p.receiverProcess i) (p.recvGroup t i) (pending i))
      fun result => ∀ i, SameEntries (es i) (result i)) :
    Script.Finishes (meaning num) (Protocol.JoinRow (network (O := MetadataList X) num) p.b)
      (fun i => GroupCoordinator.postprocess num (p.receiverProcess i) (p.recvGroup t i) (q i :: pending i))
      fun result => ∀ i, SameEntries ((key, .tensor (x i)) :: es i) (result i) := by
  have hnumel : ∀ i, (x i).numel = s.prod := fun i => congrArg List.prod (hx i).1
  have huse' : ∀ i, GroupCoordinator.shouldUseAllGather key (x i).numel (p.recvGroup t i) t.overrides = true :=
    fun i => by rw [hnumel i]; exact huse i
  choose m u h hslice hm hfit hdata using fun i => pending_slice (hq i) (by rw [hnumel i]; exact hne) (huse' i)
  obtain ⟨g, -, -, -, hr⟩ | ⟨-, hr⟩ := sendGroup_cases (p := p) t
  · have hdvd : n ∣ s.prod := by
      let i : Fin n := ⟨0, p.pos⟩
      obtain ⟨g', hg', hdvd⟩ := GroupCoordinator.divides_of_outgoing (huse' i) (hm i)
      rw [hr i, Option.some.injEq] at hg'
      rwa [← hg', receiver_worldSize g i, hnumel i] at hdvd
    have hpart : ∀ i, (m i).shape = [s.prod / n] ∧ (m i).dtype = dt ∧
        (m i).data = block (s.prod / n) i (x i).data ∧ (m i).device = (x i).device := by
      intro i
      have hmi := hm i
      have hdvd' : (g.receiver i).worldSize ∣ (x i).numel := by rwa [receiver_worldSize g i, hnumel i]
      obtain ⟨w, hw, hws, hwdata, hwd, hwt⟩ := GroupCoordinator.sliceFor_eq (g.receiver i) hdvd'
      rw [GroupCoordinator.outgoing, if_pos (huse' i), hr i, hw] at hmi
      cases hmi
      rw [receiver_worldSize g i, hnumel i] at hws hwdata
      rw [g.receiver_rank i] at hwdata
      exact ⟨hws, hwt.trans (hx i).2, hwdata, hwd⟩
    have hu : Uniform [s.prod / n] dt u :=
      fun i => ⟨(hfit i).1.trans (hpart i).1, (hfit i).2.1.trans (hpart i).2.1⟩
    -- the slices of equal tensors, put together
    have hjoin : ∀ j, (List.ofFn u).flatMap (·.data) = (x j).data := by
      intro j
      have hblock : ∀ i, (u i).data = block (s.prod / n) i (x j).data := fun i => by
        rw [hdata i, (hpart i).2.2.1, hsame i j]
      have hlen : (x j).data.length = n * (s.prod / n) := by
        rw [(x j).wf, (hx j).1, Nat.mul_div_cancel' hdvd]
      calc (List.ofFn u).flatMap (·.data)
          = (List.finRange n).flatMap fun i : Fin n => block (s.prod / n) i (x j).data := by
            rw [List.ofFn_eq_map, List.flatMap_map]
            exact List.flatMap_congr fun i _ => hblock i
        _ = (List.range n).flatMap fun k => block (s.prod / n) k (x j).data := by
            rw [← List.map_coe_finRange_eq_range, List.flatMap_map]
        _ = (x j).data := flatMap_block_of_length hlen
    simp only [hslice, hr, GroupCoordinator.postprocess] at hrest ⊢
    apply Script.finishes_bind (gather_finishes g hu)
    intro y hy
    have hshape : ∀ i, (y i).shape.prod = (x i).shape.prod := fun i => by
      rw [← (y i).wf, (hy i).1, hjoin i, (x i).wf]
    refine Script.finishes_lift (fun i => Tensor.reshape_exists (hshape i)) fun z hz => ?_
    refine Script.finishes_bind hrest fun rest hsame' => Script.finishes_pure fun i => .cons ⟨rfl, ?_⟩ (hsame' i)
    obtain ⟨hzs, hzdata, hzd, hzt⟩ := hz i
    obtain ⟨hydata, hyd, hyt⟩ := hy i
    refine ⟨hzs, hzdata.trans (hydata.trans (hjoin i)), (hzt.trans hyt).trans (hx i).2.symm, ?_⟩
    rw [hzd, hyd, (hfit i).2.2, (hpart i).2.2.2]
  · have hfalse := huse' ⟨0, p.pos⟩
    rw [hr] at hfalse
    cases hfalse

/-- The receivers run the postprocess functions together: every dictionary is restored. -/
theorem postprocess_finishes {t : Transfer n V X} {L : List (String × Option (List Nat × DType))}
    {entries : Fin n → Entries V X} {pending : Fin n → List (String × Pending V X)}
    (hL : ∀ i, (entries i).map (fun e => (e.1, e.2.layout)) = L)
    (hrep : ∀ i j key u w, (key, .tensor u) ∈ entries i → (key, .tensor w) ∈ entries j →
      GroupCoordinator.shouldUseAllGather key u.numel (p.sendGroup t i) t.overrides = true → u.data = w.data)
    (hpending : ∀ i, List.Forall₂ (GroupCoordinator.Receives (p.recvGroup t i) t.overrides GroupCoordinator.Arrived)
      (entries i) (pending i)) :
    Script.Finishes (meaning num) (Protocol.JoinRow (network (O := MetadataList X) num) p.b)
      (fun i => GroupCoordinator.postprocess num (p.receiverProcess i) (p.recvGroup t i) (pending i))
      fun result => ∀ i, SameEntries (entries i) (result i) := by
  induction L generalizing entries pending with
  | nil =>
    have hnil : ∀ i, entries i = [] := fun i => List.map_eq_nil_iff.mp (hL i)
    have hnil' : ∀ i, pending i = [] := by
      intro i
      have hi := hpending i
      rw [hnil i] at hi
      exact List.forall₂_nil_left_iff.mp hi
    simp only [hnil']
    apply Script.finishes_pure
    intro i
    rw [hnil i]
    exact .nil
  | cons head L ih =>
    obtain ⟨key, l⟩ := head
    have hsplit : ∀ i, ∃ v es, entries i = (key, v) :: es ∧ v.layout = l ∧
        es.map (fun e => (e.1, e.2.layout)) = L := by
      intro i
      obtain ⟨⟨key', v⟩, es, he, hv, hes⟩ := List.map_eq_cons_iff.mp (hL i)
      obtain ⟨rfl, hl⟩ := Prod.mk.inj hv
      exact ⟨v, es, he, hl, hes⟩
    choose v es hentries hv hes using hsplit
    have hhead : ∀ i, ∃ q qs, pending i = q :: qs ∧
        GroupCoordinator.Receives (p.recvGroup t i) t.overrides GroupCoordinator.Arrived (key, v i) q ∧
          List.Forall₂ (GroupCoordinator.Receives (p.recvGroup t i) t.overrides GroupCoordinator.Arrived) (es i) qs := by
      intro i
      have hi := hpending i
      rw [hentries i] at hi
      obtain ⟨q, qs, hq, hqs, he⟩ := List.forall₂_cons_left_iff.mp hi
      exact ⟨q, qs, he, hq, hqs⟩
    choose q qs hqueue hq hqs using hhead
    have hrest := ih hes (fun i j key' u w hu hw => hrep i j key' u w (by rw [hentries i]; exact .tail _ hu)
      (by rw [hentries j]; exact .tail _ hw)) hqs
    simp only [hqueue, hentries]
    by_cases hslices : ∃ s dt, l = some (s, dt) ∧ s.prod ≠ 0 ∧
        GroupCoordinator.shouldUseAllGather key s.prod (p.recvGroup t ⟨0, p.pos⟩) t.overrides = true
    · obtain ⟨s, dt, rfl, hne, huse⟩ := hslices
      have huses : ∀ i, GroupCoordinator.shouldUseAllGather key s.prod (p.recvGroup t i) t.overrides = true := by
        intro i
        rw [← shouldUseAllGather_eq t i, shouldUseAllGather_eq t i ⟨0, p.pos⟩]
        exact huse
      have htensor : ∀ i, ∃ x, v i = .tensor x ∧ x.shape = s ∧ x.dtype = dt := by
        intro i
        have hvi := hv i
        cases hw : v i with
        | other w => simp [hw, Value.layout] at hvi
        | tensor x => exact ⟨x, rfl, by simpa [hw, Value.layout] using hvi⟩
      choose x hxv hxs using htensor
      simp only [hxv] at hq hentries ⊢
      refine postprocess_slices hxs (fun i j => ?_) hne huses hq hrest
      apply hrep i j key (x i) (x j) (by rw [hentries i]; exact .head _) (by rw [hentries j]; exact .head _)
      rw [shouldUseAllGather_eq t i i, NDArray.numel, (hxs i).1]
      exact huses i
    · have hready : ∀ i x, v i = .tensor x → x.numel ≠ 0 →
          GroupCoordinator.shouldUseAllGather key x.numel (p.recvGroup t i) t.overrides = false := by
        intro i x hx hne
        by_contra huse
        rw [Bool.not_eq_false, ← shouldUseAllGather_eq t i, shouldUseAllGather_eq t i ⟨0, p.pos⟩] at huse
        exact hslices ⟨x.shape, x.dtype, by rw [← hv i, hx]; rfl, hne, huse⟩
      choose w hw hpost using fun i => postprocess_ready num (p.receiverProcess i) (hq i) (hready i)
      simp only [hpost]
      exact Script.finishes_bind hrest fun rest hsame =>
        Script.finishes_pure fun i => .cons ⟨rfl, hw i⟩ (hsame i)

end Runs

/-- The links of the pairs are the only ones that have changed. -/
def Outside (p : Pipeline n) (chan chan' : Link → Channel (Tensor V)) : Prop :=
  ∀ k, (∀ i, ¬ Between (p.a i) (p.b i) k) → chan' k = chan k

/-- Dictionary by dictionary, receiver i has what sender i sent. -/
def Delivered (i : Fin n) (ts : List (Transfer n V X)) (results : List (Option (Entries V X))) : Prop :=
  List.Forall₂ (fun t result => ∃ entries, result = some entries ∧ SameEntries (t.dicts i).entries entries) ts results

theorem between_injective (i j : Fin n) (k : Link) (hi : Between (p.a i) (p.b i) k) (hj : Between (p.a j) (p.b j) k) :
    i = j := p.sender_injective (hi.1.symm.trans hj.1)

section Receivers
variable {p} {num} {codec} {ts : List (Transfer n V X)} {chan : Link → Channel (Tensor V)}
  {all claimed : Fin n → List (ProcessGroup × Tensor V)}

theorem arrivals_together (hloads : ∀ m, codec.loads (codec.dumps m) = some m)
    (hsize : ∀ k, codec.toNat (codec.ofNat k) = k) {t : Transfer n V X} (ht : p.Agrees t)
    (hall : ∀ i, ∃ rest, all i = claimed i ++ (p.mail codec i t ++ rest))
    (hm : ∀ i, Mail (p.a i) (p.b i) (all i) (claimed i) chan) :
    (network num).TogetherOk A p.b chan
      (fun i => GroupCoordinator.arrivals num codec (p.receiver i) (p.recvGroup t i) t.overrides (p.receiverProcess i)
        (p.src i)) fun pending chan' =>
      (∀ i, List.Forall₂ (GroupCoordinator.Receives (p.recvGroup t i) t.overrides GroupCoordinator.Arrived)
        (t.dicts i).entries (pending i) ∧ Mail (p.a i) (p.b i) (all i) (claimed i ++ p.mail codec i t) chan') ∧
        p.Outside chan chan' := by
  have hlocal : ∀ i (pending : List (String × Pending V X)), Protocol.LocalTo (Between (p.a i) (p.b i)) fun chan' =>
      List.Forall₂ (GroupCoordinator.Receives (p.recvGroup t i) t.overrides GroupCoordinator.Arrived)
        (t.dicts i).entries pending ∧ Mail (p.a i) (p.b i) (all i) (claimed i ++ p.mail codec i t) chan' :=
    fun i pending chan₁ chan₂ hsame h => ⟨h.1, mail_local _ _ _ _ _ _ hsame h.2⟩
  refine Protocol.togetherOk_of_soloOk p.receiver_injective p.between_injective (fun i => mail_local _ _ _ _)
    hlocal (fun i chan₁ hi => ?_) hm
  obtain ⟨rest, hrest⟩ := hall i
  refine Protocol.solo_mono (GroupCoordinator.arrivals_solo hloads hsize (p.receiver_towards i) (p.src_eq i) (ht.plain i)
    (ht.sendable i) hrest hi) ?_
  rintro x chan₂ ⟨pending, hx, hpending, hm₂, helse⟩
  exact ⟨pending, hx, ⟨hpending, hm₂⟩, helse⟩

variable (num) in
/-- The receivers take the mail and restore the dictionaries. -/
theorem receives_together (hloads : ∀ m, codec.loads (codec.dumps m) = some m)
    (hsize : ∀ k, codec.toNat (codec.ofNat k) = k) (hts : ∀ t ∈ ts, p.Agrees t)
    (hall : ∀ i, all i = claimed i ++ ts.flatMap (p.mail codec i))
    (hm : ∀ i, Mail (p.a i) (p.b i) (all i) (claimed i) chan) :
    (network num).TogetherOk A p.b chan (fun i => p.receives num codec i ts) fun results chan' =>
      (∀ i, Delivered i ts (results i)) ∧ (∀ i, Mail (p.a i) (p.b i) (all i) (all i) chan') ∧ p.Outside chan chan' := by
  have : NeZero n := ⟨p.pos.ne'⟩
  induction ts generalizing claimed chan with
  | nil =>
    refine Protocol.togetherOk_pure ⟨fun i => .nil, fun i => ?_, fun _ _ => rfl⟩
    have hi := hm i
    rwa [show claimed i = all i by simpa using (hall i).symm] at hi
  | cons t ts ih =>
    obtain ⟨ht, hrest⟩ := List.forall_mem_cons.mp hts
    have hone : ∀ i, (p.receiver i).worldSize ≠ 1 := fun i => by
      have := (p.receiver_towards i).two_le
      omega
    simp only [receives, GroupCoordinator.recvTensorDict_eq (p.receiver_initialized _) (hone _), bind_assoc, pure_bind]
    refine Protocol.togetherOk_bind (arrivals_together hloads hsize ht (fun i => ⟨_, hall i⟩) hm) ?_
    rintro pending chan₁ ⟨harrived, hout₁⟩
    refine Protocol.togetherOk_bind (Protocol.togetherOk_of_finishes p.receiver_injective (fun _ _ _ => rfl)
      (postprocess_finishes (fun i => ht.layout i ⟨0, p.pos⟩) ht.replicated fun i => (harrived i).1)) ?_
    rintro entries _ ⟨hsame, rfl⟩
    have hnext : ∀ i, all i = (claimed i ++ p.mail codec i t) ++ ts.flatMap (p.mail codec i) := fun i => by
      rw [hall i, List.flatMap_cons, List.append_assoc]
    refine Protocol.togetherOk_bind (ih hrest hnext fun i => (harrived i).2) ?_
    rintro results chan₂ ⟨hresults, hm₂, hout₂⟩
    exact Protocol.togetherOk_pure ⟨fun i => .cons ⟨entries i, rfl, hsame i⟩ (hresults i), hm₂,
      fun k hk => (hout₂ k hk).trans (hout₁ k hk)⟩

end Receivers

/-- The program of every rank; the ranks outside the pairs have nothing to do. -/
def programs (ts : List (Transfer n V X)) (rank : Nat) : Dist V (MetadataList X) (List (Option (Entries V X))) :=
  match (List.finRange n).find? (p.a · = rank), (List.finRange n).find? (p.b · = rank) with
  | some i, _ => p.sends codec i ts
  | none, some i => p.receives num codec i ts
  | none, none => pure []

abbrev NetworkState (V X : Type) :=
  State Nat Link (Tensor V) (Call V (MetadataList X)) (fun c => Py c.Resp) (Py (List (Option (Entries V X))))

def start (ts : List (Transfer n V X)) : NetworkState V X := ⟨p.programs num codec ts, fun _ => ⟨[], 0, 0⟩⟩

/-- Every rank has returned, the receivers with what was sent, and no message is left over. -/
def HandedOff (ts : List (Transfer n V X)) (s : NetworkState V X) : Prop :=
  (∀ rank, ∃ results, s.procs rank = .ret (.ok results)) ∧
    (∀ i, ∃ results, s.procs (p.b i) = .ret (.ok results) ∧ Delivered i ts results) ∧
      ∀ k, (s.chan k).arrived = (s.chan k).sent.length ∧ (s.chan k).claimed = (s.chan k).sent.length

section HandOff
variable {p} {num} {codec} {ts : List (Transfer n V X)}

private theorem find_eq {f : Fin n → Nat} (hf : Function.Injective f) (i : Fin n) :
    (List.finRange n).find? (fun j => f j = f i) = some i := by
  cases h : (List.finRange n).find? (fun j => decide (f j = f i)) with
  | none => simpa using List.find?_eq_none.mp h i (List.mem_finRange i)
  | some j => rw [hf (by simpa using List.find?_some h : f j = f i)]

private theorem find_eq_none {f : Fin n → Nat} {rank : Nat} (h : ∀ i, rank ≠ f i) :
    (List.finRange n).find? (fun j => f j = rank) = none :=
  List.find?_eq_none.mpr fun i _ => by simpa using (h i).symm

theorem programs_sender (i : Fin n) : p.programs num codec ts (p.a i) = p.sends codec i ts := by
  rw [programs, find_eq p.sender_injective i]

theorem programs_receiver (i : Fin n) : p.programs num codec ts (p.b i) = p.receives num codec i ts := by
  rw [programs, find_eq_none fun j => (p.sender_ne_receiver j i).symm, find_eq p.receiver_injective i]

theorem programs_other {rank : Nat} (ha : ∀ i, rank ≠ p.a i) (hb : ∀ i, rank ≠ p.b i) :
    p.programs num codec ts rank = pure [] := by
  rw [programs, find_eq_none ha, find_eq_none hb]

variable (num codec) in
theorem sends_together (hts : ∀ t ∈ ts, p.Agrees t) {chan : Link → Channel (Tensor V)}
    (hm : ∀ i, Mail (p.a i) (p.b i) [] [] chan) :
    (network num).TogetherOk A p.a chan (fun i => p.sends codec i ts) fun _ chan' =>
      (∀ i, Mail (p.a i) (p.b i) (ts.flatMap (p.mail codec i)) [] chan') ∧ p.Outside chan chan' := by
  refine Protocol.togetherOk_of_soloOk p.sender_injective p.between_injective (fun i => mail_local _ _ _ _)
    (fun i (_ : List (Option (Entries V X))) => mail_local _ _ _ _) (fun i chan₁ hi => ?_) hm
  exact sends_solo hts i hi

/-- A state in which all ranks have returned and all messages have arrived is final. -/
theorem HandedOff.final {s : NetworkState V X} (h : p.HandedOff ts s) : Final (network num).Step s := by
  obtain ⟨hret, -, hchan⟩ := h
  intro s' hstep
  cases hstep with
  | @act rank ch o next x c hp ho =>
    obtain ⟨results, hr⟩ := hret rank
    rw [hr] at hp
    cases hp
  | @arrive ch x c ho =>
    cases ho with
    | arrive hlt => exact hlt.ne (hchan ch).1
  | @join g hne hg =>
    obtain ⟨rank, hrank⟩ := List.exists_mem_of_ne_nil _ hne
    obtain ⟨results, hr⟩ := hret rank
    have hready := hg rank hrank
    rw [hr] at hready
    exact hready

end HandOff
end Pipeline

theorem stage_rank_lt (x y : Nat) (k : Fin 2) : (k : Nat) < [x, y].length := k.2

/-- Member k of a group of two ranks, of which 0 and 1 send to 2 and 3. -/
def stageMember (name : String) (id x y : Nat) (k : Fin 2) : GroupCoordinator where
  uniqueName := name
  rank := [x, y].get k
  ranks := [x, y]
  localRank := [x, y].get k
  rankInGroup := k
  rank_lt := stage_rank_lt x y k
  cpuGroup := ⟨id, "gloo", [x, y]⟩
  deviceGroup := ⟨id + 1, "xccl", [x, y]⟩
  device := pairDevice k
  deviceCommunicator := some (groupMember ⟨id, "gloo", [x, y]⟩ ⟨id + 1, "xccl", [x, y]⟩ pairDevice name false k)
  mqBroadcaster := false
  useCustomOpCall := true

theorem stageMember_wired (name : String) (id x y : Nat) (k : Fin 2) : (stageMember name id x y k).Wired := by
  refine ⟨?_, rfl, rfl, fun comm h => ?_⟩
  · match k with
    | 0 | 1 => rfl
  · cases h
    exact ⟨rfl, rfl, rfl, rfl⟩

/-- The process of member i of the second stage. -/
def stageProcess (i : Fin 2) : Process where
  isInitialized := true
  groups name := if name = "tp:0" then some (some (stageMember "tp:0" 4 2 3 i)) else none
  currentDevice := i

def stageGathers : GatherGroups 2
    (List.ofFn fun i : Fin 2 => (stageMember "pp:0" (6 + 2 * i) i (i + 2) ⟨1, Nat.one_lt_two⟩).rank) stageProcess where
  sender := stageMember "tp:0" 0 0 1
  sender_worldSize _ := rfl
  sender_rank _ := rfl
  receiver := stageMember "tp:0" 4 2 3
  receiver_wired := stageMember_wired "tp:0" 4 2 3
  receiver_ranks _ := rfl
  receiver_rank _ := rfl
  cpuGroup := ⟨4, "gloo", [2, 3]⟩
  receiver_cpuGroup _ := rfl
  deviceGroup := ⟨5, "xccl", [2, 3]⟩
  receiver_deviceGroup _ := rfl
  hoststaged := false
  communicator _ _ := ⟨_, rfl, rfl⟩
  registered _ := rfl

def twoStages : Pipeline 2 where
  pos := Nat.two_pos
  sender i := stageMember "pp:0" (6 + 2 * i) i (i + 2) ⟨0, Nat.two_pos⟩
  receiver i := stageMember "pp:0" (6 + 2 * i) i (i + 2) ⟨1, Nat.one_lt_two⟩
  senderProcess := pairProcess
  receiverProcess := stageProcess
  sender_initialized _ := rfl
  receiver_initialized _ := rfl
  sender_wired i := stageMember_wired _ _ _ _ _
  receiver_wired i := stageMember_wired _ _ _ _ _
  ranks _ := rfl
  cpuGroup _ := rfl
  deviceGroup _ := rfl
  nodup := by decide
  dst _ := none
  dst_eq _ := rfl
  src _ := none
  src_eq _ := rfl
  gather := some stageGathers

/-- The first tensor is sent in slices, the second, which differs, as a whole. -/
def stageTransfer : Transfer 2 Int Int where
  dicts i :=
    { entries := [("hidden", .tensor cardTensor), ("step", .other (.object 3)),
        ("lengths", .tensor ⟨⟨[3], [i, 5, 7], rfl⟩, .cpu, .int64⟩),
        ("none", .tensor ⟨⟨[0, 4], [], rfl⟩, pairDevice i, .float16⟩)]
      nodup := by simp }
  grouped := true
  overrides := none

theorem stageTransfer_agrees : twoStages.Agrees stageTransfer where
  plain i := by simp [TensorDict.Plain, stageTransfer]
  layout i j := rfl
  divides i key u _ h := by cases h
  replicated i j key u w hu hw huse := by
    simp only [stageTransfer, List.mem_cons, Prod.mk.injEq, Value.tensor.injEq, reduceCtorEq, and_false,
      List.not_mem_nil, or_false, false_or] at hu hw
    obtain ⟨rfl, rfl⟩ | ⟨rfl, rfl⟩ | ⟨rfl, rfl⟩ := hu
    · obtain rfl : w = cardTensor := by simpa using hw
      rfl
    · have hodd : (3 % 2 == 0) = true := huse
      cases hodd
    · obtain rfl := (by simpa using hw : w = ⟨⟨[0, 4], [], rfl⟩, pairDevice j, .float16⟩)
      rfl

end B70DualTP.Coordinator
