import B70DualTP.Library.Cascade
import B70DualTP.Coordinator.Stages

/-! Batches through the pipeline stages of a job. Every rank gets a dictionary from the rank
before it, works on it and sends the result to the rank after it; all ranks run at once. -/
namespace B70DualTP.Coordinator
open Library Torch Communicator
variable {V X A : Type} {N : Nat} (num : Numerics V) (codec : Codec V (MetadataList X))

/-- What the ranks do with a batch, as functions of the global rank and of the batch. -/
structure Relay (V X : Type) where
  start : Nat → Nat → Entries V X
  work : Nat → Nat → Entries V X → TensorDict V X
  /-- The TP group is passed as all_gather_group. -/
  grouped : Bool
  overrides : Overrides

namespace Relay
variable (w : Relay V X)

def group (tp : GroupCoordinator) : Option GroupCoordinator := if w.grouped then some tp else none

section Programs
variable (process : Process) (tp pp : GroupCoordinator) (rank : Nat)

/-- The first stage starts a batch, the others receive it. -/
def input (k : Nat) : Dist V (MetadataList X) (Entries V X) :=
  if pp.isFirstRank then return w.start rank k else do
    match ← pp.recvTensorDict num process codec (w.group tp) w.overrides none with
    | some entries => return entries
    | none => Script.raise (.assertionError "")

/-- All stages but the last send it on. -/
def forward (output : TensorDict V X) : Dist V (MetadataList X) Unit :=
  if pp.isLastRank then return () else do
    let _ ← pp.sendTensorDict process codec (w.group tp) w.overrides output none

def batch (k : Nat) : Dist V (MetadataList X) (TensorDict V X) := do
  let entries ← w.input num codec process tp pp rank k
  let output := w.work rank k entries
  w.forward codec process tp pp output
  return output

/-- The program of a rank: one batch after the other. -/
def run : List Nat → Dist V (MetadataList X) (List (TensorDict V X))
  | [] => return []
  | k :: ks => do
    let output ← w.batch num codec process tp pp rank k
    let outputs ← run ks
    return output :: outputs

end Programs

/-- The members' dictionaries have one layout, and the tensors that travel in slices are the same. -/
structure Alike (g : GroupCoordinator) (d : Nat → Entries V X) : Prop where
  layout : ∀ r ∈ g.ranks, ∀ r' ∈ g.ranks,
    (d r).map (fun e => (e.1, e.2.layout)) = (d r').map fun e => (e.1, e.2.layout)
  replicated : ∀ r ∈ g.ranks, ∀ r' ∈ g.ranks, ∀ key u u', (key, .tensor u) ∈ d r → (key, .tensor u') ∈ d r' →
    GroupCoordinator.shouldUseAllGather key u.numel (w.group g) w.overrides = true → u.data = u'.data

/-- The members can send these dictionaries. -/
structure Ready (g : GroupCoordinator) (d : Nat → TensorDict V X) : Prop where
  alike : w.Alike g fun rank => (d rank).entries
  plain : ∀ r ∈ g.ranks, (d r).Plain
  divides : ∀ r ∈ g.ranks, ∀ key u, (key, .tensor u) ∈ (d r).entries →
    w.overrides.bind (·.lookup key) = some true → g.worldSize ∣ u.numel

/-- The members of the TP groups stay in agreement, up to the last stage. -/
structure Sound (tp pp : Fin N → GroupCoordinator) : Prop where
  start : ∀ r, (pp r).isFirstRank = true → ∀ k, w.Alike (tp r) fun rank => w.start rank k
  work : ∀ r, (pp r).isLastRank = false → ∀ k d, w.Alike (tp r) d →
    w.Alike (tp r) fun rank => (w.work rank k (d rank)).entries
  plain : ∀ r, (pp r).isLastRank = false → ∀ rank ∈ (tp r).ranks, ∀ k entries, (w.work rank k entries).Plain
  divides : ∀ r, (pp r).isLastRank = false → ∀ rank ∈ (tp r).ranks, ∀ k entries key u,
    (key, .tensor u) ∈ (w.work rank k entries).entries → w.overrides.bind (·.lookup key) = some true →
      (tp r).worldSize ∣ u.numel

section Agreement
variable {w} {g : GroupCoordinator}

theorem Sound.ready {tp pp : Fin N → GroupCoordinator} (hw : w.Sound tp pp) {r : Fin N}
    (hr : (pp r).isLastRank = false) (k : Nat) {d : Nat → Entries V X} (hd : w.Alike (tp r) d) :
    w.Ready (tp r) fun rank => w.work rank k (d rank) :=
  ⟨hw.work r hr k d hd, fun rank hrank => hw.plain r hr rank hrank k _,
    fun rank hrank => hw.divides r hr rank hrank k _⟩

private theorem layout_same {v v' : Value V X} (h : v.Same v') : v'.layout = v.layout := by
  cases v <;> cases v' <;> simp_all [Value.Same, Value.layout]

private theorem map_layout_same {e e' : Entries V X} (h : SameEntries e e') :
    e'.map (fun p => (p.1, p.2.layout)) = e.map fun p => (p.1, p.2.layout) := by
  induction h with
  | nil => rfl
  | cons hp _ ih => simp only [List.map_cons, hp.1, layout_same hp.2, ih]

private theorem mem_same {e e' : Entries V X} (h : SameEntries e e') {key : String} {u' : Tensor V}
    (hu' : (key, Value.tensor u') ∈ e') :
    ∃ u, (key, Value.tensor u) ∈ e ∧ u.numel = u'.numel ∧ u.data = u'.data := by
  induction h with
  | nil => cases hu'
  | @cons p q _ _ hp _ ih =>
    rcases List.mem_cons.mp hu' with rfl | hu'
    · obtain ⟨key', v⟩ := p
      obtain ⟨rfl, hsame⟩ := hp
      cases v with
      | other v => cases hsame
      | tensor u =>
        obtain ⟨hshape, hdata, -⟩ := hsame
        exact ⟨u, List.mem_cons_self, by rw [NDArray.numel, NDArray.numel, hshape], hdata.symm⟩
    · obtain ⟨u, hu, hrest⟩ := ih hu'
      exact ⟨u, List.mem_cons_of_mem _ hu, hrest⟩

/-- Dictionaries that come from those of another group of the same size agree as these do. -/
theorem Alike.transport {g' : GroupCoordinator} {d d' : Nat → Entries V X} (hd : w.Alike g d)
    (hsize : g'.worldSize = g.worldSize) (h : ∀ r ∈ g'.ranks, ∃ s ∈ g.ranks, SameEntries (d s) (d' r)) :
    w.Alike g' d' := by
  have huse : ∀ key numel, GroupCoordinator.shouldUseAllGather key numel (w.group g') w.overrides =
      GroupCoordinator.shouldUseAllGather key numel (w.group g) w.overrides := by
    intro key numel
    simp only [group]
    split
    · simp only [GroupCoordinator.shouldUseAllGather, hsize]
    · rfl
  refine ⟨fun r hr r' hr' => ?_, fun r hr r' hr' key u u' hu hu' hgather => ?_⟩
  · obtain ⟨s, hs, hsame⟩ := h r hr
    obtain ⟨s', hs', hsame'⟩ := h r' hr'
    rw [map_layout_same hsame, map_layout_same hsame']
    exact hd.layout s hs s' hs'
  · obtain ⟨s, hs, hsame⟩ := h r hr
    obtain ⟨s', hs', hsame'⟩ := h r' hr'
    obtain ⟨t, ht, hnumel, hdata⟩ := mem_same hsame hu
    obtain ⟨t', ht', -, hdata'⟩ := mem_same hsame' hu'
    rw [← hdata, ← hdata']
    exact hd.replicated s hs s' hs' key t t' ht ht' (by rwa [hnumel, ← huse])

private theorem sameEntries_refl (e : Entries V X) : SameEntries e e := by
  refine List.forall₂_same.mpr fun p _ => ⟨rfl, ?_⟩
  cases p.2 with
  | tensor t => exact ⟨rfl, rfl, rfl, rfl⟩
  | other v => rfl

theorem Ready.transport {g' : GroupCoordinator} {d d' : Nat → TensorDict V X} (hd : w.Ready g d)
    (hranks : g'.ranks = g.ranks) (h : ∀ r ∈ g.ranks, d' r = d r) : w.Ready g' d' := by
  have hsize : g'.worldSize = g.worldSize := by
    rw [GroupCoordinator.worldSize, GroupCoordinator.worldSize, hranks]
  refine ⟨hd.alike.transport hsize fun r hr => ?_, fun r hr => ?_, fun r hr => ?_⟩
  · rw [hranks] at hr
    exact ⟨r, hr, by rw [h r hr]; exact sameEntries_refl _⟩
  · rw [hranks] at hr
    rw [h r hr]
    exact hd.plain r hr
  · rw [hranks] at hr
    rw [h r hr, hsize]
    exact hd.divides r hr

end Agreement

section Transfers
variable {num} {codec} {n : Nat} {p : Pipeline n} {t : Transfer n V X} {chan : Link → Channel (Tensor V)}

variable (num) in
theorem receive_together (hloads : ∀ m, codec.loads (codec.dumps m) = some m)
    (hsize : ∀ k, codec.toNat (codec.ofNat k) = k) (ht : p.Agrees t)
    {all claimed : Fin n → List (ProcessGroup × Tensor V)}
    (hall : ∀ i, ∃ rest, all i = claimed i ++ (p.mail codec i t ++ rest))
    (hm : ∀ i, Mail (p.a i) (p.b i) (all i) (claimed i) chan) :
    (network num).TogetherOk A p.b chan (fun i => (p.receiver i).recvTensorDict num (p.receiverProcess i) codec
      (p.recvGroup t i) t.overrides (p.src i)) fun results chan' =>
        (∀ i, ∃ entries, results i = some entries ∧ SameEntries (t.dicts i).entries entries) ∧
          (∀ i, Mail (p.a i) (p.b i) (all i) (claimed i ++ p.mail codec i t) chan') ∧ p.Outside chan chan' := by
  have : NeZero n := ⟨p.pos.ne'⟩
  have hone : ∀ i, (p.receiver i).worldSize ≠ 1 := fun i => by
    have := (p.receiver_towards i).two_le
    omega
  simp only [GroupCoordinator.recvTensorDict_eq (p.receiver_initialized _) (hone _)]
  refine Protocol.togetherOk_bind (Pipeline.arrivals_together hloads hsize ht hall hm) ?_
  rintro pending chan₁ ⟨harrived, hout⟩
  refine Protocol.togetherOk_bind (Protocol.togetherOk_of_finishes p.receiver_injective (fun _ _ _ => rfl)
    (Pipeline.postprocess_finishes (fun i => ht.layout i ⟨0, p.pos⟩) ht.replicated fun i => (harrived i).1)) ?_
  rintro entries _ ⟨hsame, rfl⟩
  exact Protocol.togetherOk_pure ⟨fun i => ⟨entries i, rfl, hsame i⟩, fun i => (harrived i).2, hout⟩

variable (num codec) in
theorem send_together (ht : p.Agrees t) {mail : Fin n → List (ProcessGroup × Tensor V)}
    (hm : ∀ i, Mail (p.a i) (p.b i) (mail i) [] chan) :
    (network num).TogetherOk A p.a chan (fun i => (p.sender i).sendTensorDict (p.senderProcess i) codec
      (p.sendGroup t i) t.overrides (t.dicts i) (p.dst i)) fun _ chan' =>
        (∀ i, Mail (p.a i) (p.b i) (mail i ++ p.mail codec i t) [] chan') ∧ p.Outside chan chan' := by
  refine Protocol.togetherOk_of_soloOk p.sender_injective p.between_injective (fun i => mail_local _ _ _ _)
    (fun i (_ : Option (Entries V X)) => mail_local _ _ _ _) (fun i chan₁ hi => ?_) hm
  have hsend : GroupCoordinator.Sendable (p.sendGroup t i) t.overrides (keyedTensors (t.dicts i).entries) := by
    intro e he hne
    obtain ⟨u, hu⟩ := ht.sendable i e he hne
    exact ⟨u, (Pipeline.outgoing_eq t i e.1 e.2).trans hu⟩
  apply Protocol.solo_mono (GroupCoordinator.sendTensorDict_solo (p.sender_initialized i) (p.sender_towards i)
    (p.dst_eq i) hsend hi)
  rintro x chan₂ ⟨result, hx, -, hmail, helse⟩
  rw [Pipeline.sender_dictMail] at hmail
  exact ⟨result, hx, hmail, helse⟩

end Transfers

/-- The messages of a dictionary for rank r. -/
def mail (tp pp : Fin N → GroupCoordinator) (r : Fin N) (d : TensorDict V X) : List (ProcessGroup × Tensor V) :=
  (pp r).dictMail codec (w.group (tp r)) w.overrides d

/-- The messages of the batches ks. -/
def batchMail (tp pp : Fin N → GroupCoordinator) (ks : List Nat) (out : Nat → Nat → TensorDict V X) (r : Fin N) :
    List (ProcessGroup × Tensor V) := ks.flatMap fun k => w.mail codec tp pp r (out k r)

/-- What a rank starts from: its own dictionary, or that of the rank before it. -/
def Input (pp : Fin N → GroupCoordinator) (r : Fin N) (k : Nat) (sent : Nat → TensorDict V X) (e : Entries V X) : Prop :=
  if (pp r).isFirstRank then e = w.start r k else ∃ r', Follows pp r' r ∧ SameEntries (sent r').entries e

/-- The output of a rank in a batch, when the ranks before it have these outputs. -/
def Works (pp : Fin N → GroupCoordinator) (r : Fin N) (k : Nat) (sent : Nat → TensorDict V X) (output : TensorDict V X) :
    Prop := ∃ e, w.Input pp r k sent e ∧ output = w.work r k e

/-- The links to a row and from it, with what has been sent and what has been claimed. -/
structure RowMail (pp : Fin N → GroupCoordinator) {n : Nat} (b : Fin n → Fin N)
    (all claimed mailed : Fin N → List (ProcessGroup × Tensor V)) (chan : Link → Channel (Tensor V)) : Prop where
  incoming : ∀ r i, Follows pp r (b i) → Mail r (b i) (all r) (claimed r) chan
  outgoing : ∀ i r, Follows pp (b i) r → Mail (b i) r (mailed (b i)) [] chan

def OutsideRow (pp : Fin N → GroupCoordinator) {n : Nat} (b : Fin n → Fin N) (chan chan' : Link → Channel (Tensor V)) :
    Prop :=
  ∀ link, (∀ r i, Follows pp r (b i) → ¬ Between r (b i) link) → (∀ i r, Follows pp (b i) r → ¬ Between (b i) r link) →
    chan' link = chan link

section Rows
variable {w} {num} {codec} {l : Layout} {tp pp : Fin N → GroupCoordinator} {process : Fin N → Process}
  (h : Staged l tp pp process) (hw : w.Sound tp pp) {n : Nat} {a b : Fin n → Fin N} {chan : Link → Channel (Tensor V)}

private def transfer (w : Relay V X) (a : Fin n → Fin N) (d : Nat → TensorDict V X) : Transfer n V X :=
  ⟨fun i => d (a i), w.grouped, w.overrides⟩

section Transfer
variable (hn : 0 < n) (ha : Row tp a) (hb : Row tp b) (hab : ∀ i, Follows pp (a i) (b i)) (d : Nat → TensorDict V X)

private theorem sendGroup_eq (i : Fin n) :
    (h.pipeline hn ha hb hab w.grouped).sendGroup (transfer w a d) i = w.group (tp (a i)) := by
  by_cases hgrouped : w.grouped = true
  · simp [Pipeline.sendGroup, Staged.pipeline, transfer, group, hgrouped, Staged.gatherGroups]
  · simp [Pipeline.sendGroup, transfer, group, hgrouped]

private theorem recvGroup_eq (i : Fin n) :
    (h.pipeline hn ha hb hab w.grouped).recvGroup (transfer w a d) i = w.group (tp (b i)) := by
  by_cases hgrouped : w.grouped = true
  · simp [Pipeline.recvGroup, Staged.pipeline, transfer, group, hgrouped, Staged.gatherGroups]
  · simp [Pipeline.recvGroup, transfer, group, hgrouped]

private theorem mail_eq (i : Fin n) : (h.pipeline hn ha hb hab w.grouped).mail codec i (transfer w a d) =
    w.mail codec tp pp (a i) (d (a i)) := by
  rw [← Pipeline.sender_dictMail, sendGroup_eq h hn ha hb hab d]
  rfl

private theorem transfer_agrees (hd : ∀ i, w.Ready (tp (a i)) d) :
    (h.pipeline hn ha hb hab w.grouped).Agrees (transfer w a d) where
  plain i := (hd i).plain _ (ha.mem i i)
  layout i j := (hd i).alike.layout _ (ha.mem i i) _ (ha.mem i j)
  divides i key u hu hforced := by
    rw [← ha.worldSize i]
    exact (hd i).divides _ (ha.mem i i) key u hu hforced
  replicated i j key u u' hu hu' huse := by
    rw [sendGroup_eq h hn ha hb hab d] at huse
    exact (hd i).alike.replicated _ (ha.mem i i) _ (ha.mem i j) key u u' hu hu' huse

end Transfer

include h in
private theorem rank_eq (r : Fin N) : (pp r).rank = r := (h.alongPp.family.member r).rank

include h in
private theorem stage_eq (hb : Row tp b) (i j : Fin n) : (pp (b i)).rankInGroup = (pp (b j)).rankInGroup := by
  rw [h.alongPp.rankInGroup, h.alongPp.rankInGroup]
  exact hb.same h.alongTp i j (by decide)

include h hw in
theorem input_together (hloads : ∀ m, codec.loads (codec.dumps m) = some m)
    (hsize : ∀ k, codec.toNat (codec.ofNat k) = k) (hn : 0 < n) (hb : Row tp b) (k : Nat) {sent : Nat → TensorDict V X}
    {all claimed : Fin N → List (ProcessGroup × Tensor V)} (hready : ∀ r i, Follows pp r (b i) → w.Ready (tp r) sent)
    (hall : ∀ r i, Follows pp r (b i) → ∃ rest, all r = claimed r ++ (w.mail codec tp pp r (sent r) ++ rest))
    (hm : ∀ r i, Follows pp r (b i) → Mail r (b i) (all r) (claimed r) chan) :
    (network num).TogetherOk A (fun i => (b i : Nat)) chan
      (fun i => w.input num codec (process (b i)) (tp (b i)) (pp (b i)) (b i) k) fun e chan' =>
        (∃ d : Nat → Entries V X, (∀ i, d (b i) = e i) ∧ ∀ i, w.Alike (tp (b i)) d) ∧
          (∀ i, w.Input pp (b i) k sent (e i)) ∧
            (∀ r i, Follows pp r (b i) → Mail r (b i) (all r) (claimed r ++ w.mail codec tp pp r (sent r)) chan') ∧
              ∀ link, (∀ r i, Follows pp r (b i) → ¬ Between r (b i) link) → chan' link = chan link := by
  have hsame : ∀ i, (pp (b i)).isFirstRank = (pp (b ⟨0, hn⟩)).isFirstRank := by
    intro i
    rw [h.alongPp.isFirstRank, h.alongPp.isFirstRank, stage_eq h hb i ⟨0, hn⟩]
  cases hfirst : (pp (b ⟨0, hn⟩)).isFirstRank with
  | true =>
    have hno : ∀ r i, ¬ Follows pp r (b i) := by
      intro r i hr
      have hpos := (exists_precedes_iff h.alongPp (b i)).mp ⟨r, hr⟩
      have hzero := (hsame i).trans hfirst
      rw [h.alongPp.isFirstRank, decide_eq_true_eq] at hzero
      omega
    simp only [input, hsame, hfirst, if_true]
    refine Protocol.togetherOk_pure ⟨⟨fun rank => w.start rank k, fun _ => rfl, fun i => ?_⟩, fun i => ?_,
      fun r i hr => absurd hr (hno r i), fun _ _ => rfl⟩
    · exact hw.start _ ((hsame i).trans hfirst) k
    · rw [Input, if_pos ((hsame i).trans hfirst)]
  | false =>
    have hprev : ∀ i, ∃ r, Follows pp r (b i) := by
      intro i
      rw [exists_precedes_iff h.alongPp]
      have hpos := (hsame i).trans hfirst
      rw [h.alongPp.isFirstRank, decide_eq_false_iff_not] at hpos
      omega
    choose a hab using hprev
    have huniq : ∀ r i, Follows pp r (b i) → r = a i := fun r i hr => hr.prev_unique h.alongPp (hab i)
    have ha : Row tp a := hb.prev h.alongTp h.alongPp hab
    have hagrees := transfer_agrees h hn ha hb hab sent fun i => hready _ i (hab i)
    have hA : (h.pipeline hn ha hb hab w.grouped).a = fun i => (a i : Nat) := funext fun i => rank_eq h (a i)
    have hI : (h.pipeline hn ha hb hab w.grouped).b = fun i => (b i : Nat) := funext fun i => rank_eq h (b i)
    have hall' : ∀ i, ∃ rest, all (a i) = claimed (a i) ++
        ((h.pipeline hn ha hb hab w.grouped).mail codec i (transfer w a sent) ++ rest) := by
      intro i
      rw [mail_eq h hn ha hb hab sent]
      exact hall _ i (hab i)
    have hm' : ∀ i, Mail ((h.pipeline hn ha hb hab w.grouped).a i) ((h.pipeline hn ha hb hab w.grouped).b i)
        (all (a i)) (claimed (a i)) chan := by
      intro i
      rw [congrFun hA i, congrFun hI i]
      exact hm _ i (hab i)
    have htake := receive_together (A := A) num hloads hsize hagrees hall' hm'
    rw [hI] at htake
    simp only [recvGroup_eq h hn ha hb hab sent] at htake
    simp only [input, hsame, hfirst, Bool.false_eq_true, if_false]
    refine Protocol.togetherOk_bind htake ?_
    rintro results chan₁ ⟨hresults, hmail, hout⟩
    choose e he hsent using hresults
    simp only [he]
    have hinj := hb.injective h.alongTp
    let d : Nat → Entries V X := Function.extend (fun i => (b i : Nat)) e fun _ => []
    have hd : ∀ i, d (b i) = e i := fun i => hinj.extend_apply e _ i
    refine Protocol.togetherOk_pure ⟨⟨d, hd, fun i => ?_⟩, fun i => ?_, fun r i hr => ?_, fun link hlink => ?_⟩
    · refine (hready _ i (hab i)).alike.transport ((hb.worldSize i).trans (ha.worldSize i).symm) fun r hr => ?_
      rw [hb i] at hr
      obtain ⟨j, rfl⟩ := List.mem_ofFn.mp hr
      refine ⟨a j, ha.mem i j, ?_⟩
      rw [hd j]
      exact hsent j
    · rw [Input, (hsame i).trans hfirst, if_neg Bool.false_ne_true]
      exact ⟨a i, hab i, hsent i⟩
    · obtain rfl := huniq r i hr
      have hmi := hmail i
      rwa [mail_eq h hn ha hb hab sent, congrFun hA i] at hmi
    · refine hout link fun i => ?_
      rw [congrFun hA i, congrFun hI i]
      exact hlink _ i (hab i)

include h in
variable (num codec) in
theorem forward_together (hn : 0 < n) (hb : Row tp b) {out : Nat → TensorDict V X}
    (hready : ∀ i, (pp (b i)).isLastRank = false → w.Ready (tp (b i)) out)
    {mailed : Fin N → List (ProcessGroup × Tensor V)}
    (hm : ∀ i r, Follows pp (b i) r → Mail (b i) r (mailed (b i)) [] chan) :
    (network num).TogetherOk A (fun i => (b i : Nat)) chan
      (fun i => w.forward codec (process (b i)) (tp (b i)) (pp (b i)) (out (b i))) fun _ chan' =>
        (∀ i r, Follows pp (b i) r → Mail (b i) r (mailed (b i) ++ w.mail codec tp pp (b i) (out (b i))) [] chan') ∧
          ∀ link, (∀ i r, Follows pp (b i) r → ¬ Between (b i) r link) → chan' link = chan link := by
  have hsame : ∀ i, (pp (b i)).isLastRank = (pp (b ⟨0, hn⟩)).isLastRank := by
    intro i
    rw [h.alongPp.isLastRank, h.alongPp.isLastRank, stage_eq h hb i ⟨0, hn⟩, h.alongPp.worldSize_eq _ (b ⟨0, hn⟩)]
  cases hlast : (pp (b ⟨0, hn⟩)).isLastRank with
  | true =>
    have hno : ∀ i r, ¬ Follows pp (b i) r := by
      intro i r hr
      have hlt := (exists_follows_iff h.alongPp (b i)).mp ⟨r, hr⟩
      have hend := (hsame i).trans hlast
      rw [h.alongPp.isLastRank, decide_eq_true_eq] at hend
      omega
    simp only [forward, hsame, hlast, if_true]
    exact Protocol.togetherOk_pure ⟨fun i r hr => absurd hr (hno i r), fun _ _ => rfl⟩
  | false =>
    have hnext : ∀ i, ∃ r, Follows pp (b i) r := by
      intro i
      rw [exists_follows_iff h.alongPp]
      have hlt := (pp (b i)).rank_lt
      have hend := (hsame i).trans hlast
      rw [h.alongPp.isLastRank, decide_eq_false_iff_not] at hend
      rw [GroupCoordinator.worldSize] at hend ⊢
      omega
    choose c hbc using hnext
    have huniq : ∀ i r, Follows pp (b i) r → r = c i := fun i r hr => hr.next_unique h.alongPp (hbc i)
    have hc : Row tp c := hb.next h.alongTp h.alongPp hbc
    have hagrees := transfer_agrees h hn hb hc hbc out fun i => hready i ((hsame i).trans hlast)
    have hI : (h.pipeline hn hb hc hbc w.grouped).a = fun i => (b i : Nat) := funext fun i => rank_eq h (b i)
    have hC : (h.pipeline hn hb hc hbc w.grouped).b = fun i => (c i : Nat) := funext fun i => rank_eq h (c i)
    have hm' : ∀ i, Mail ((h.pipeline hn hb hc hbc w.grouped).a i) ((h.pipeline hn hb hc hbc w.grouped).b i)
        (mailed (b i)) [] chan := by
      intro i
      rw [congrFun hI i, congrFun hC i]
      exact hm i _ (hbc i)
    have hpost := send_together (A := A) num codec hagrees hm'
    rw [hI] at hpost
    simp only [sendGroup_eq h hn hb hc hbc out] at hpost
    simp only [forward, hsame, hlast, Bool.false_eq_true, if_false]
    refine Protocol.togetherOk_bind hpost ?_
    rintro _ chan₁ ⟨hmail, hout⟩
    refine Protocol.togetherOk_pure ⟨fun i r hr => ?_, fun link hlink => ?_⟩
    · obtain rfl := huniq i r hr
      have hmi := hmail i
      rwa [mail_eq h hn hb hc hbc out, congrFun hC i] at hmi
    · refine hout link fun i => ?_
      rw [congrFun hI i, congrFun hC i]
      exact hlink i _ (hbc i)

include h in
private theorem links_apart (hb : Row tp b) {i j : Fin n} {r r' : Fin N} {link : Link} (hr : Follows pp r (b j))
    (hlink : Between r (b j) link) : ¬ Between (b i) r' link := by
  intro hlink'
  obtain rfl : r = b i := Fin.ext (hlink.1.symm.trans hlink'.1)
  have hnext := hr.2
  rw [stage_eq h hb j i] at hnext
  omega

include h hw in
theorem batch_together (hloads : ∀ m, codec.loads (codec.dumps m) = some m)
    (hsize : ∀ k, codec.toNat (codec.ofNat k) = k) (hn : 0 < n) (hb : Row tp b) (k : Nat) {sent : Nat → TensorDict V X}
    {all claimed mailed : Fin N → List (ProcessGroup × Tensor V)}
    (hready : ∀ r i, Follows pp r (b i) → w.Ready (tp r) sent)
    (hall : ∀ r i, Follows pp r (b i) → ∃ rest, all r = claimed r ++ (w.mail codec tp pp r (sent r) ++ rest))
    (hm : RowMail pp b all claimed mailed chan) :
    (network num).TogetherOk A (fun i => (b i : Nat)) chan
      (fun i => w.batch num codec (process (b i)) (tp (b i)) (pp (b i)) (b i) k) fun output chan' =>
        ∃ out : Nat → TensorDict V X, (∀ i, output i = out (b i)) ∧ (∀ i, w.Works pp (b i) k sent (out (b i))) ∧
          (∀ i, (pp (b i)).isLastRank = false → w.Ready (tp (b i)) out) ∧
            RowMail pp b all (fun r => claimed r ++ w.mail codec tp pp r (sent r))
              (fun r => mailed r ++ w.mail codec tp pp r (out r)) chan' ∧ OutsideRow pp b chan chan' := by
  refine Protocol.togetherOk_bind (input_together h hw hloads hsize hn hb k hready hall hm.incoming) ?_
  rintro e chan₁ ⟨⟨d, hd, halike⟩, hinput, hmail₁, hout₁⟩
  let out : Nat → TensorDict V X := fun rank => w.work rank k (d rank)
  have hout : ∀ i, w.work (b i) k (e i) = out (b i) := fun i => by rw [← hd i]
  have hready' : ∀ i, (pp (b i)).isLastRank = false → w.Ready (tp (b i)) out := fun i hi => hw.ready hi k (halike i)
  have hkeep : ∀ i r, Follows pp (b i) r → Mail (b i) r (mailed (b i)) [] chan₁ := fun i r hr =>
    mail_local _ _ _ _ chan chan₁ (fun link hlink => hout₁ link fun r' j hr' hlink' => links_apart h hb hr' hlink' hlink)
      (hm.outgoing i r hr)
  simp only [hout]
  refine Protocol.togetherOk_bind (forward_together num codec h hn hb hready' hkeep) ?_
  rintro _ chan₂ ⟨hmail₂, hout₂⟩
  refine Protocol.togetherOk_pure ⟨out, fun _ => rfl, fun i => ⟨e i, hinput i, (hout i).symm⟩, hready',
    ⟨fun r i hr => ?_, hmail₂⟩, fun link hto hfrom => (hout₂ link hfrom).trans (hout₁ link hto)⟩
  -- what the row sends is on other links
  exact mail_local _ _ _ _ chan₁ chan₂
    (fun link hlink => hout₂ link fun j r' hr' hlink' => links_apart h hb hr hlink hlink') (hmail₁ r i hr)

include h hw in
theorem run_together (hloads : ∀ m, codec.loads (codec.dumps m) = some m)
    (hsize : ∀ k, codec.toNat (codec.ofNat k) = k) (hn : 0 < n) (hb : Row tp b) {ks : List Nat} (hks : ks.Nodup)
    {sent : Nat → Nat → TensorDict V X} {all claimed mailed : Fin N → List (ProcessGroup × Tensor V)}
    (hready : ∀ k ∈ ks, ∀ r i, Follows pp r (b i) → w.Ready (tp r) (sent k))
    (hall : ∀ r i, Follows pp r (b i) → all r = claimed r ++ w.batchMail codec tp pp ks sent r)
    (hm : RowMail pp b all claimed mailed chan) :
    (network num).TogetherOk A (fun i => (b i : Nat)) chan
      (fun i => w.run num codec (process (b i)) (tp (b i)) (pp (b i)) (b i) ks) fun outputs chan' =>
        ∃ out : Nat → Nat → TensorDict V X, (∀ i, outputs i = ks.map fun k => out k (b i)) ∧
          (∀ k ∈ ks, ∀ i, w.Works pp (b i) k (sent k) (out k (b i))) ∧
            (∀ k ∈ ks, ∀ i, (pp (b i)).isLastRank = false → w.Ready (tp (b i)) (out k)) ∧
              RowMail pp b all all (fun r => mailed r ++ w.batchMail codec tp pp ks out r) chan' ∧
                OutsideRow pp b chan chan' := by
  induction ks generalizing claimed mailed chan with
  | nil =>
    refine Protocol.togetherOk_pure ⟨fun _ _ => ⟨[], List.nodup_nil⟩, fun _ => rfl, by simp, by simp,
      ⟨fun r i hr => ?_, fun i r hr => ?_⟩, fun _ _ _ => rfl⟩
    · have hdone : all r = claimed r := by simpa [batchMail] using hall r i hr
      have hmail := hm.incoming r i hr
      rwa [← hdone] at hmail
    · simpa [batchMail] using hm.outgoing i r hr
  | cons k ks ih =>
    obtain ⟨hk, hks⟩ := List.nodup_cons.mp hks
    rw [List.forall_mem_cons] at hready
    refine Protocol.togetherOk_bind (batch_together h hw hloads hsize hn hb k hready.1 (fun r i hr => ⟨_, hall r i hr⟩)
      hm) ?_
    rintro output chan₁ ⟨out₀, hout₀, hworks₀, hready₀, hmail₁, houtside₁⟩
    refine Protocol.togetherOk_bind (ih hks hready.2 (fun r i hr => ?_) hmail₁) ?_
    · rw [hall r i hr, List.append_assoc]
      rfl
    rintro outputs chan₂ ⟨outs, houts, hworks, hreadys, hmail₂, houtside₂⟩
    let out (k' : Nat) : Nat → TensorDict V X := if k' = k then out₀ else outs k'
    have hhead : out k = out₀ := if_pos rfl
    have htail : ∀ k' ∈ ks, out k' = outs k' := fun k' hk' => if_neg fun he : k' = k => hk (he ▸ hk')
    have hmap : ∀ r : Nat, (ks.map fun k' => out k' r) = ks.map fun k' => outs k' r := fun r =>
      List.map_congr_left fun k' hk' => by rw [htail k' hk']
    have hbatches : ∀ r, w.batchMail codec tp pp (k :: ks) out r =
        w.mail codec tp pp r (out₀ r) ++ w.batchMail codec tp pp ks outs r := by
      intro r
      rw [batchMail, List.flatMap_cons, hhead]
      exact congrArg _ (List.flatMap_congr fun k' hk' => by rw [htail k' hk'])
    refine Protocol.togetherOk_pure ⟨out, fun i => ?_, ?_, ?_, ⟨hmail₂.incoming, fun i r hr => ?_⟩, ?_⟩
    · rw [List.map_cons, hhead, hmap, ← hout₀, ← houts]
    · refine List.forall_mem_cons.mpr ⟨hhead ▸ hworks₀, fun k' hk' => ?_⟩
      rw [htail k' hk']
      exact hworks k' hk'
    · refine List.forall_mem_cons.mpr ⟨hhead ▸ hready₀, fun k' hk' => ?_⟩
      rw [htail k' hk']
      exact hreadys k' hk'
    · have hmail := hmail₂.outgoing i r hr
      rwa [List.append_assoc, ← hbatches] at hmail
    · exact fun link hto hfrom => (houtside₂ link hto hfrom).trans (houtside₁ link hto hfrom)

end Rows

/-- Where the job is when the ranks with a value in v have returned it, and the others have not
begun. -/
structure Progress (tp pp : Fin N → GroupCoordinator) (ks : List Nat) (out : Nat → Nat → TensorDict V X)
    (v : Fin N → Option (List (TensorDict V X))) (chan : Link → Channel (Tensor V)) : Prop where
  value : ∀ r outputs, v r = some outputs → outputs = ks.map fun k => out k r
  works : ∀ r, (v r).isSome = true → ∀ k ∈ ks, w.Works pp r k (out k) (out k r)
  ready : ∀ r, (v r).isSome = true → (pp r).isLastRank = false → ∀ k ∈ ks, w.Ready (tp r) (out k)
  earlier : ∀ r r', Follows pp r r' → (v r').isSome = true → (v r).isSome = true
  mail : ∀ r r', Follows pp r r' → Mail r r' (if (v r).isSome then w.batchMail codec tp pp ks out r else [])
    (if (v r').isSome then w.batchMail codec tp pp ks out r else []) chan
  rest : ∀ link, (∀ r r', Follows pp r r' → ¬ Between r r' link) → chan link = ⟨[], 0, 0⟩

section Progress
variable {w} {codec} {l : Layout} {tp pp : Fin N → GroupCoordinator} {process : Fin N → Process}
  (h : Staged l tp pp process) {ks : List Nat} {v v' : Fin N → Option (List (TensorDict V X))}
  {chan chan' : Link → Channel (Tensor V)} {out out' : Nat → Nat → TensorDict V X}

theorem Works.congr {r : Fin N} {k : Nat} {sent sent' : Nat → TensorDict V X} {output : TensorDict V X}
    (hsent : ∀ r', Follows pp r' r → sent' r' = sent r') (hw : w.Works pp r k sent output) :
    w.Works pp r k sent' output := by
  obtain ⟨e, he, houtput⟩ := hw
  refine ⟨e, ?_, houtput⟩
  unfold Input at he ⊢
  split
  · rwa [if_pos ‹_›] at he
  · rw [if_neg ‹_›] at he
    obtain ⟨r', hr', hsame⟩ := he
    exact ⟨r', hr', by rwa [hsent r' hr']⟩

theorem batchMail_congr {r : Fin N} (hout : ∀ k ∈ ks, out' k r = out k r) :
    w.batchMail codec tp pp ks out' r = w.batchMail codec tp pp ks out r :=
  List.flatMap_congr fun k hk => by rw [hout k hk]

include h in
theorem Progress.row (hp : w.Progress codec tp pp ks out v chan) {n : Nat} {b : Fin n → Fin N} (hb : Row tp b)
    (hnone : ∀ i, v (b i) = none) (hlow : ∀ q i, Follows pp q (b i) → (v q).isSome = true)
    {outputs : Fin n → List (TensorDict V X)} {outs : Nat → Nat → TensorDict V X}
    (houts : ∀ i, outputs i = ks.map fun k => outs k (b i))
    (hworks : ∀ k ∈ ks, ∀ i, w.Works pp (b i) k (out k) (outs k (b i)))
    (hready : ∀ k ∈ ks, ∀ i, (pp (b i)).isLastRank = false → w.Ready (tp (b i)) (outs k))
    (hmail : RowMail pp b (w.batchMail codec tp pp ks out) (w.batchMail codec tp pp ks out)
      (w.batchMail codec tp pp ks outs) chan') (houtside : OutsideRow pp b chan chan')
    (hin : ∀ i, v' (b i) = some (outputs i)) (hrest : ∀ q, (∀ i, b i ≠ q) → v' q = v q) :
    ∃ out', w.Progress codec tp pp ks out' v' chan' := by
  let out' (k : Nat) (rank : Nat) : TensorDict V X := if ∃ i, (b i : Nat) = rank then outs k rank else out k rank
  have hrow : ∀ k i, out' k (b i) = outs k (b i) := fun k i => if_pos ⟨i, rfl⟩
  have hoff : ∀ q : Fin N, (∀ i, b i ≠ q) → ∀ k, out' k q = out k q :=
    fun q hq k => if_neg fun ⟨i, hi⟩ => hq i (Fin.ext hi)
  have hsplit : ∀ q : Fin N, (∃ i, b i = q) ∨ ∀ i, b i ≠ q := fun q => by
    by_cases hq : ∃ i, b i = q
    · exact .inl hq
    · exact .inr fun i hi => hq ⟨i, hi⟩
  -- a rank that has returned is not of the row, nor is one before the row
  have hdone : ∀ q, (v q).isSome = true → ∀ i, b i ≠ q := by
    rintro _ hq i rfl
    rw [hnone i] at hq
    cases hq
  have hbefore : ∀ q i, Follows pp q (b i) → ∀ k, out' k q = out k q := fun q i hq => hoff q (hdone q (hlow q i hq))
  have hafter : ∀ i q, Follows pp (b i) q → v q = none := by
    intro i q hq
    by_contra hsome
    exact hdone _ (hp.earlier _ q hq (Option.isSome_iff_ne_none.mpr hsome)) i rfl
  have hgroup : ∀ q : Fin N, (∀ i, b i ≠ q) → ∀ rank ∈ (tp q).ranks, ∀ i, (b i : Nat) ≠ rank := by
    rintro q hq _ hrank i rfl
    have hmem : (q : Nat) ∈ (tp (b i)).ranks :=
      (h.alongTp.mem (b i) q).mpr fun a ha => ((h.alongTp.mem q (b i)).mp hrank a ha).symm
    rw [hb i] at hmem
    obtain ⟨j, hj⟩ := List.mem_ofFn.mp hmem
    exact hq j (Fin.ext hj)
  refine ⟨out', ?_, ?_, ?_, ?_, ?_, ?_⟩
  · intro q value hq
    rcases hsplit q with ⟨i, rfl⟩ | hq'
    · rw [hin i] at hq
      cases hq
      rw [houts i]
      exact List.map_congr_left fun k _ => (hrow k i).symm
    · rw [hrest q hq'] at hq
      rw [hp.value q value hq]
      exact List.map_congr_left fun k _ => (hoff q hq' k).symm
  · intro q hq k hk
    rcases hsplit q with ⟨i, rfl⟩ | hq'
    · rw [hrow k i]
      exact (hworks k hk i).congr fun r' hr' => hbefore r' i hr' k
    · rw [hrest q hq'] at hq
      rw [hoff q hq' k]
      exact (hp.works q hq k hk).congr fun r' hr' => hoff r' (hdone r' (hp.earlier r' q hr' hq)) k
  · intro q hq hlast k hk
    rcases hsplit q with ⟨i, rfl⟩ | hq'
    · refine (hready k hk i hlast).transport rfl fun rank hrank => ?_
      rw [hb i] at hrank
      obtain ⟨j, rfl⟩ := List.mem_ofFn.mp hrank
      exact hrow k j
    · rw [hrest q hq'] at hq
      exact (hp.ready q hq hlast k hk).transport rfl fun rank hrank => if_neg fun ⟨i, hi⟩ => hgroup q hq' rank hrank i hi
  · intro q q' hqq' hq'
    rcases hsplit q with ⟨i, rfl⟩ | hq
    · rw [hin i]
      rfl
    · rw [hrest q hq]
      rcases hsplit q' with ⟨i, rfl⟩ | hnext
      · exact hlow q i hqq'
      · exact hp.earlier q q' hqq' (hrest q' hnext ▸ hq')
  · intro q q' hqq'
    rcases hsplit q with ⟨i, rfl⟩ | hq
    · have hnext : ∀ j, b j ≠ q' := by
        rintro j rfl
        have hplace := hqq'.2
        rw [stage_eq h hb j i] at hplace
        omega
      rw [hin i, hrest q' hnext, hafter i q' hqq', batchMail_congr fun k _ => hrow k i]
      exact hmail.outgoing i q' hqq'
    · rcases hsplit q' with ⟨i, rfl⟩ | hnext
      · rw [hrest q hq, hin i, hlow q i hqq', batchMail_congr fun k _ => hoff q hq k]
        exact hmail.incoming q i hqq'
      · rw [hrest q hq, hrest q' hnext, batchMail_congr fun k _ => hoff q hq k]
        refine mail_local _ _ _ _ chan chan' (fun link hlink => houtside link ?_ ?_) (hp.mail q q' hqq')
        · exact fun r i _ hlink' => hnext i (Fin.ext (hlink'.2.symm.trans hlink.2))
        · exact fun i r _ hlink' => hq i (Fin.ext (hlink'.1.symm.trans hlink.1))
  · intro link hlink
    rw [houtside link (fun r i => hlink r (b i)) fun i r => hlink (b i) r]
    exact hp.rest link hlink

variable {num}

include h in
theorem relay_together (hw : w.Sound tp pp) (hloads : ∀ m, codec.loads (codec.dumps m) = some m)
    (hsize : ∀ k, codec.toNat (codec.ofNat k) = k) (hks : ks.Nodup) :
    (network num).TogetherOk A (fun r : Fin N => (r : Nat)) (fun _ => ⟨[], 0, 0⟩)
      (fun r => w.run num codec (process r) (tp r) (pp r) r ks) fun outputs chan' =>
        ∃ out, w.Progress codec tp pp ks out (fun r => some (outputs r)) chan' := by
  have hfamily := h.alongTp.family
  refine Protocol.togetherOk_of_levels (fun v chan => ∃ out, w.Progress codec tp pp ks out v chan)
    (fun r => (pp r).rankInGroup) Fin.val_injective (fun r i j hij => hfamily.colleague_injective r (congrArg Fin.val hij))
    hfamily.colleague_self hfamily.colleague_class ?_ ?_
  · refine ⟨fun _ _ => ⟨[], List.nodup_nil⟩, ?_⟩
    constructor <;> intros <;> simp_all [Mail]
  · rintro v chan r ⟨out, hp⟩ hnone hlow
    have hb : Row tp (hfamily.colleague r) := row_colleague hfamily r
    have hn : 0 < (tp r).cpuGroup.ranks.length := by
      rw [(hfamily.member r).wired.cpuGroup]
      exact (tp r).worldSize_pos
    obtain ⟨i₀, hi₀⟩ := hfamily.colleague_self r
    have hprev : ∀ q i, Follows pp q (hfamily.colleague r i) → (v q).isSome = true := by
      intro q i hq
      apply hlow
      have hnext := hq.2
      rw [stage_eq h hb i i₀, hi₀] at hnext
      omega
    have hmail : RowMail pp (hfamily.colleague r) (w.batchMail codec tp pp ks out) (fun _ => []) (fun _ => []) chan := by
      refine ⟨fun q i hq => ?_, fun i q hq => ?_⟩
      · have hlink := hp.mail q _ hq
        rwa [hprev q i hq, hnone i] at hlink
      · have hlink := hp.mail _ q hq
        have hnext : v q = none := by
          by_contra hsome
          have hdone := hp.earlier _ q hq (Option.isSome_iff_ne_none.mpr hsome)
          rw [hnone i] at hdone
          cases hdone
        rwa [hnone i, hnext] at hlink
    have hready : ∀ k ∈ ks, ∀ q i, Follows pp q (hfamily.colleague r i) → w.Ready (tp q) (out k) := by
      intro k hk q i hq
      have hlt := (exists_follows_iff h.alongPp q).mp ⟨_, hq⟩
      refine hp.ready q (hprev q i hq) ?_ k hk
      rw [h.alongPp.isLastRank, decide_eq_false_iff_not]
      omega
    have hall : ∀ q i, Follows pp q (hfamily.colleague r i) → w.batchMail codec tp pp ks out q =
        (fun _ => []) q ++ w.batchMail codec tp pp ks out q := fun _ _ _ => rfl
    refine Protocol.togetherOk_mono (run_together h hw hloads hsize hn hb hks hready hall hmail) ?_
    rintro outputs chan' ⟨outs, houts, hworks, hready', hmail', houtside⟩ v' hin hrest
    exact hp.row h hb hnone hprev houts hworks hready' hmail' houtside hin hrest

end Progress

abbrev RelayState (V X : Type) :=
  State Nat Link (Tensor V) (Call V (MetadataList X)) (fun c => Py c.Resp) (Py (List (TensorDict V X)))

section Job
variable (process : Fin N → Process) (tp pp : Fin N → GroupCoordinator) (ks : List Nat)

/-- The program of every rank; there are no others. -/
def programs (rank : Nat) : Dist V (MetadataList X) (List (TensorDict V X)) :=
  if h : rank < N then w.run num codec (process ⟨rank, h⟩) (tp ⟨rank, h⟩) (pp ⟨rank, h⟩) rank ks else return []

def initial : RelayState V X := ⟨w.programs num codec process tp pp ks, fun _ => ⟨[], 0, 0⟩⟩

/-- Every rank has returned its outputs, each batch as the stage before it sent it, and no message
is left over. -/
def Finished (s : RelayState V X) : Prop :=
  ∃ out : Nat → Nat → TensorDict V X, (∀ r : Fin N, s.procs r = .ret (.ok (ks.map fun k => out k r))) ∧
    (∀ r : Fin N, ∀ k ∈ ks, w.Works pp r k (out k) (out k r)) ∧
      ∀ link, (s.chan link).arrived = (s.chan link).sent.length ∧ (s.chan link).claimed = (s.chan link).sent.length

end Job
end Relay

section Job
variable {job : List (JobStep N)} {hoststagedTp backend : Option String} {steps : Fin N → List LifeStep}
  {final : Fin N → LifeState}

end Job
/-- Two stages of two ranks. Each stage adds one to every tensor and puts the number of the batch
in place of any other value. -/
def stagesConfig : VllmConfig where
  parallelConfig := ⟨false, false, some "mp", 1, 1, 1, 0, 4, 4, "tcp://10.0.0.1:29500", "tcp://10.0.0.1:29501"⟩
  isMoe := none

def stagesStep (call : JobCall) : JobStep 4 where
  config := some stagesConfig
  isBackendAvailable _ := true
  isGlooAvailable := true
  useCustomOpCollectives := true
  call := call
  notElastic := by rintro c ⟨⟩; rfl
  replicas_le := by rintro c ⟨⟩; decide

def stagesJob : List (JobStep 4) :=
  [stagesStep (.initDistributedEnvironment (some "xccl")),
    stagesStep (.ensureModelParallelInitialized ⟨2, 2, 1, some 1, none⟩)]

def stagesEnvironment : LifeEnvironment := { replicaEnvironment 1 with config := some stagesConfig }

def stagesSteps (r : Fin 4) : List LifeStep :=
  [⟨stagesEnvironment, .initDistributedEnvironment ⟨4, (r : Nat), some "env://", (r : Nat), some "xccl"⟩⟩,
    ⟨stagesEnvironment, .ensureModelParallelInitialized ⟨2, 2, 1, some 1, none⟩⟩]

def stagesFinal (r : Fin 4) : LifeState := (runAll (stagesSteps r) (.fresh none none)).2

theorem stages_run : JobRuns stagesJob none none stagesSteps stagesFinal := by
  refine ⟨fun r => ?_, fun r => Prod.ext ?_ rfl⟩
  · have hseen : ∀ call, (stagesStep call).Seen stagesEnvironment.toEnvironment := fun call => ⟨⟨0, rfl⟩, rfl, rfl, rfl⟩
    have hjoins : Joins 4 r stagesEnvironment.toEnvironment
        ⟨4, (r : Nat), some "env://", (r : Nat), some "xccl"⟩ := by
      refine ⟨rfl, rfl, ?_⟩
      intro _ _ _ p hp
      exact (Except.ok.inj hp).symm
    exact .cons ⟨hseen _, _, rfl, rfl, hjoins⟩ (.cons ⟨hseen _, rfl⟩ .nil)
  · revert r
    decide +kernel

def stagesHeld (name : GroupName) (r : Fin 4) : GroupCoordinator :=
  ((stagesFinal r).slot (.of name)).elim (pairCoordinator (Fin.last 1)) fun ref =>
    match ref.coordinator with
    | .group g _ => g
    | .stateless _ => pairCoordinator (Fin.last 1)

def bump (k : Nat) : Value Int Int → Value Int Int
  | .tensor t => .tensor (t.withArray (t.map (· + 1)))
  | .other _ => .other (.object k)

def bumpEntries (k : Nat) (entries : Entries Int Int) : Entries Int Int := entries.map fun e => (e.1, bump k e.2)

def stagesRelay : Relay Int Int where
  start rank k := [("hidden", .tensor cardTensor), ("step", .other (.object k)),
    ("lengths", .tensor ⟨⟨[3], [rank, 5, 7], rfl⟩, .cpu, .int64⟩)]
  work _ k entries :=
    if h : ((bumpEntries k entries).map Prod.fst).Nodup then ⟨bumpEntries k entries, h⟩ else ⟨[], List.nodup_nil⟩
  grouped := true
  overrides := none

private theorem layout_bumpEntries (k : Nat) (entries : Entries Int Int) :
    (bumpEntries k entries).map (fun e => (e.1, e.2.layout)) = entries.map fun e => (e.1, e.2.layout) := by
  rw [bumpEntries, List.map_map]
  refine List.map_congr_left fun e _ => ?_
  obtain ⟨key, v⟩ := e
  cases v <;> rfl

private theorem mem_bumpEntries {k : Nat} {entries : Entries Int Int} {key : String} {u : Tensor Int}
    (hu : (key, .tensor u) ∈ bumpEntries k entries) :
    ∃ t : Tensor Int, (key, .tensor t) ∈ entries ∧ t.numel = u.numel ∧ u.data = t.data.map (· + 1) := by
  obtain ⟨⟨key', v⟩, he, heq⟩ := List.mem_map.mp hu
  cases v with
  | other v => cases heq
  | tensor t =>
    cases heq
    exact ⟨t, he, rfl, rfl⟩

private theorem bumped_alike {g : GroupCoordinator} {k : Nat} {d : Nat → Entries Int Int} (hd : stagesRelay.Alike g d) :
    stagesRelay.Alike g fun rank => (stagesRelay.work rank k (d rank)).entries := by
  have hsame : ∀ r ∈ g.ranks, ∀ r' ∈ g.ranks,
      (bumpEntries k (d r)).map (fun e => (e.1, e.2.layout)) = (bumpEntries k (d r')).map fun e => (e.1, e.2.layout) := by
    intro r hr r' hr'
    rw [layout_bumpEntries, layout_bumpEntries]
    exact hd.layout r hr r' hr'
  have hkeys : ∀ r ∈ g.ranks, ∀ r' ∈ g.ranks,
      (bumpEntries k (d r)).map Prod.fst = (bumpEntries k (d r')).map Prod.fst := by
    intro r hr r' hr'
    have hkeys := congrArg (List.map Prod.fst) (hsame r hr r' hr')
    rwa [List.map_map, List.map_map] at hkeys
  have hwork : ∀ r, ((bumpEntries k (d r)).map Prod.fst).Nodup →
      (stagesRelay.work r k (d r)).entries = bumpEntries k (d r) := fun r h => congrArg TensorDict.entries (dif_pos h)
  have hnone : ∀ r, ¬ ((bumpEntries k (d r)).map Prod.fst).Nodup → (stagesRelay.work r k (d r)).entries = [] :=
    fun r h => congrArg TensorDict.entries (dif_neg h)
  refine ⟨fun r hr r' hr' => ?_, fun r hr r' hr' key u u' hu hu' huse => ?_⟩
  · by_cases h : ((bumpEntries k (d r)).map Prod.fst).Nodup
    · rw [hwork r h, hwork r' (hkeys r hr r' hr' ▸ h)]
      exact hsame r hr r' hr'
    · rw [hnone r h, hnone r' (hkeys r hr r' hr' ▸ h)]
  · by_cases h : ((bumpEntries k (d r)).map Prod.fst).Nodup
    · simp only [hwork r h, hwork r' (hkeys r hr r' hr' ▸ h)] at hu hu'
      obtain ⟨t, ht, hnumel, hdata⟩ := mem_bumpEntries hu
      obtain ⟨t', ht', -, hdata'⟩ := mem_bumpEntries hu'
      rw [hdata, hdata', hd.replicated r hr r' hr' key t t' ht ht' (by rwa [hnumel])]
    · simp only [hnone r h] at hu
      cases hu

theorem stagesRelay_sound {tp pp : Fin 4 → GroupCoordinator} (htp : ∀ r, (tp r).worldSize = 2) :
    stagesRelay.Sound tp pp where
  start r _ k := by
    refine ⟨fun _ _ _ _ => rfl, fun r₁ _ r₂ _ key u u' hu hu' huse => ?_⟩
    simp only [stagesRelay, List.mem_cons, Prod.mk.injEq, Value.tensor.injEq, reduceCtorEq, and_false,
      List.not_mem_nil, or_false, false_or] at hu hu'
    obtain ⟨rfl, rfl⟩ | ⟨rfl, rfl⟩ := hu
    · obtain rfl : u' = cardTensor := by simpa using hu'
      rfl
    · -- three elements are not sent in slices
      have hodd : (3 % (tp r).worldSize == 0) = true := huse
      rw [htp r] at hodd
      cases hodd
  work _ _ _ _ hd := bumped_alike hd
  plain r _ rank _ k entries := by
    intro e he m
    simp only [stagesRelay] at he
    split at he
    · obtain ⟨⟨key, v⟩, -, rfl⟩ := List.mem_map.mp he
      cases v <;> simp [bump]
    · cases he
  divides _ _ _ _ _ _ _ _ _ h := by cases h

end B70DualTP.Coordinator
