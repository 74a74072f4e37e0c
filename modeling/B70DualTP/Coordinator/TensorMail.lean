import B70DualTP.Torch.Network
import B70DualTP.Coordinator.Broadcast
import B70DualTP.Coordinator.PointToPoint

/-! One sender and one receiver of tensor dictionaries on the network: the messages that
the sender's loops leave on its links, and what the receiver's loops make of them. -/
namespace B70DualTP.Coordinator
open Library Torch Communicator
variable {V X A : Type} (num : Numerics V) (codec : Codec V (MetadataList X))

namespace GroupCoordinator
variable (self : GroupCoordinator) (group : Option GroupCoordinator) (overrides : Overrides)

/-- The messages of the tensors of a dictionary, each with its group; empty tensors have none. -/
def tensorMail : List (String × Tensor V) → List (ProcessGroup × Tensor V)
  | [] => []
  | (key, t) :: tensors =>
    if t.numel = 0 then tensorMail tensors
    else match outgoing group overrides key t with
      | .ok u => (self.commGroup u, u) :: tensorMail tensors
      | .error _ => tensorMail tensors

/-- The messages of a dictionary: the metadata list in two parts, then the tensors. -/
def dictMail (d : TensorDict V X) : List (ProcessGroup × Tensor V) :=
  (self.cpuGroup, codec.sizeTensor (splitTensorDict d).1) ::
    (self.cpuGroup, codec.objectTensor (splitTensorDict d).1) :: self.tensorMail group overrides (keyedTensors d.entries)

/-- Every tensor that is sent in slices has a number of elements that divides. -/
def Sendable (tensors : List (String × Tensor V)) : Prop :=
  ∀ p ∈ tensors, p.2.numel ≠ 0 → ∃ u, outgoing group overrides p.1 p.2 = .ok u

variable {num} {codec} {self} {group} {overrides} {a b : Nat} {mail claimed rest : List (ProcessGroup × Tensor V)}
  {chan : Link → Channel (Tensor V)}

/-- The handle belongs to a message of the mail. -/
def Sent (b : Nat) (mail : List (ProcessGroup × Tensor V)) (h : Handle) : Prop :=
  h.peer = b ∧ ∃ t, (onGroup h.group mail)[h.index]? = some t

private theorem onGroup_append_get {g : ProcessGroup} {i : Nat} {t : Tensor V} (mail' : List (ProcessGroup × Tensor V))
    (h : (onGroup g mail)[i]? = some t) : (onGroup g (mail ++ mail'))[i]? = some t := by
  rw [onGroup_append, List.getElem?_append_left (List.getElem?_eq_some_iff.mp h).1, h]

theorem isendTensors_solo {dst : Int} (hdst : getItem self.ranks dst = .ok b) {tensors : List (String × Tensor V)}
    (hsend : Sendable group overrides tensors) (hm : Mail a b mail claimed chan) :
    (network num).SoloOk A a chan (self.isendTensors (X := X) group overrides dst tensors) fun hs chan' =>
      (∀ h ∈ hs, Sent b (mail ++ self.tensorMail group overrides tensors) h) ∧
        Mail a b (mail ++ self.tensorMail group overrides tensors) claimed chan' ∧ Elsewhere a b chan chan' := by
  induction tensors generalizing mail chan with
  | nil => exact Protocol.soloOk_pure ⟨by simp, by simpa [tensorMail] using hm, .refl _ _ _⟩
  | cons p tensors ih =>
    obtain ⟨key, t⟩ := p
    obtain ⟨ht, hrest⟩ := List.forall_mem_cons.mp hsend
    by_cases hzero : t.numel = 0
    · simp only [isendTensors, tensorMail, hzero, if_true]
      exact ih hrest hm
    · obtain ⟨u, hu⟩ := ht hzero
      simp only [isendTensors, tensorMail, hzero, if_false, hu, hdst, Script.liftM_eq, Script.lift_ok, pure_bind]
      apply Protocol.soloOk_bind (isend_solo hm)
      rintro h chan₁ ⟨⟨hpeer, hget⟩, hm₁, he₁⟩
      apply Protocol.soloOk_bind (ih hrest hm₁)
      rintro hs chan₂ ⟨hsent, hm₂, he₂⟩
      rw [List.append_assoc, List.singleton_append] at hsent hm₂
      refine Protocol.soloOk_pure ⟨List.forall_mem_cons.mpr ⟨⟨hpeer, u, ?_⟩, hsent⟩, hm₂, he₁.trans he₂⟩
      have hmore := onGroup_append_get (self.tensorMail group overrides tensors) hget
      rwa [List.append_assoc, List.singleton_append] at hmore

theorem waitAll_solo (hm : Mail a b mail claimed chan) {hs : List Handle} (hsent : ∀ h ∈ hs, Sent b mail h) :
    (network num).SoloOk A a chan (waitAll (V := V) (X := X) hs) fun _ chan' => chan' = chan := by
  induction hs with
  | nil => exact Protocol.soloOk_pure rfl
  | cons h hs ih =>
    obtain ⟨⟨hpeer, t, hget⟩, hrest⟩ := List.forall_mem_cons.mp hsent
    apply Protocol.soloOk_bind (waitSend_solo hm hpeer hget)
    rintro _ chan₁ rfl
    exact ih hrest

/-- The index names another member of the group, with a global rank. -/
structure Towards (member : GroupCoordinator) (index rank : Nat) : Prop where
  lt : index < member.worldSize
  ne : index ≠ member.rankInGroup
  rank : member.ranks[index]? = some rank

theorem Towards.getItem {index : Nat} (h : self.Towards index b) : Torch.getItem self.ranks (index : Int) = .ok b := by
  rw [getItem_natCast h.lt]
  exact congrArg _ (Option.some.inj ((List.getElem?_eq_getElem h.lt).symm.trans h.rank))

theorem Towards.two_le {index : Nat} (h : self.Towards index b) : 2 ≤ self.worldSize := by
  have hlt : self.rankInGroup < self.worldSize := self.rank_lt
  have hlt' := h.lt
  have hne := h.ne
  omega

theorem sendObject_solo {index : Nat} (hto : self.Towards index b) (m : MetadataList X)
    (hm : Mail a b mail claimed chan) : (network num).SoloOk A a chan (self.sendObject (X := X) codec m index)
      fun _ chan' => Mail a b (mail ++ [(self.cpuGroup, codec.sizeTensor m), (self.cpuGroup, codec.objectTensor m)])
        claimed chan' ∧ Elsewhere a b chan chan' := by
  have hassert : self.assertDst index = .ok () := if_pos (by exact_mod_cast hto.lt)
  have hassert' : assert ((index : Int) ≠ self.rankInGroup)
      "Invalid destination rank. Destination rank is the same as the current rank." = .ok () :=
    if_pos (by exact_mod_cast hto.ne)
  simp only [sendObject, hassert, hassert', hto.getItem, Script.liftM_eq, Script.lift_ok, pure_bind]
  apply Protocol.soloOk_bind (send_solo hm)
  rintro _ chan₁ ⟨hm₁, he₁⟩
  apply Protocol.solo_mono (send_solo hm₁)
  rintro x chan₂ ⟨y, hx, hm₂, he₂⟩
  exact ⟨y, hx, by simpa using hm₂, he₁.trans he₂⟩

theorem sendTensorDict_solo {process : Process} (hinit : process.isInitialized = true) {index : Nat}
    (hto : self.Towards index b) {dst : Option Int}
    (hdst : dst.getD ((self.rankInGroup + 1) % self.worldSize : Nat) = index) {d : TensorDict V X}
    (hsend : Sendable group overrides (keyedTensors d.entries)) (hm : Mail a b mail claimed chan) :
    (network num).SoloOk A a chan (self.sendTensorDict process codec group overrides d dst) fun result chan' =>
      result = none ∧ Mail a b (mail ++ self.dictMail codec group overrides d) claimed chan' ∧
        Elsewhere a b chan chan' := by
  have htwo := hto.two_le
  have hskip : ¬ ((!process.isInitialized) = true ∨ self.worldSize = 1) := by
    rw [hinit]
    simp only [Bool.not_true, Bool.false_eq_true, false_or]
    omega
  have hone : ¬ self.worldSize ≤ 1 := by omega
  have hassert : self.assertDst index = .ok () := if_pos (by exact_mod_cast hto.lt)
  have hkeys : assert (d.tensorKeys.length = (splitTensorDict d).2.length) "" = .ok () :=
    if_pos (length_tensorKeys d)
  simp only [sendTensorDict, if_neg hskip, isendTensorDict, if_neg hone, hdst, hassert, Script.liftM_eq,
    Script.lift_ok, pure_bind, zip_tensorKeys, bind_assoc, hkeys]
  apply Protocol.soloOk_bind (sendObject_solo hto _ hm)
  rintro _ chan₁ ⟨hm₁, he₁⟩
  apply Protocol.soloOk_bind (isendTensors_solo hto.getItem hsend hm₁)
  rintro hs chan₂ ⟨hsent, hm₂, he₂⟩
  apply Protocol.soloOk_bind (waitAll_solo hm₂ hsent)
  rintro _ chan₃ rfl
  rw [List.append_assoc] at hm₂
  exact Protocol.soloOk_pure ⟨rfl, hm₂, he₁.trans he₂⟩

/-- The buffer is one for the tensor, possibly on another card. -/
def Fits (buffer t : Tensor V) : Prop :=
  buffer.shape = t.shape ∧ buffer.dtype = t.dtype ∧ buffer.device.type = t.device.type

theorem Fits.receive {buffer t : Tensor V} (h : Fits buffer t) :
    ∃ u, buffer.receive t = .ok u ∧ Fits u t ∧ u.data = t.data := by
  have hlen : t.data.length = buffer.shape.prod := by rw [t.wf, h.1]
  refine ⟨buffer.withArray ⟨buffer.shape, t.data, hlen⟩, ?_, h, rfl⟩
  change (require (t.dtype = buffer.dtype) >>= fun _ => buffer.fill t.data) = _
  rw [require, if_pos h.2.1.symm, Tensor.fill_eq_ok hlen]
  rfl

theorem metadata_fits (index : Nat) (t : Tensor V) : Fits ((metadataOf t).empty num index) t := by
  refine ⟨rfl, rfl, ?_⟩
  change (t.device.type.at index).type = _
  cases t.device <;> rfl

theorem Fits.commGroup {buffer t : Tensor V} (h : Fits buffer t) : self.commGroup buffer = self.commGroup t := by
  rw [GroupCoordinator.commGroup, GroupCoordinator.commGroup, Tensor.isCpu_congr h.2.2]

theorem divides_of_outgoing {key : String} {t u : Tensor V}
    (huse : shouldUseAllGather key t.numel group overrides = true) (hu : outgoing group overrides key t = .ok u) :
    ∃ g, group = some g ∧ g.worldSize ∣ t.numel := by
  cases group with
  | none => cases huse
  | some g =>
    refine ⟨g, rfl, by_contra fun hdvd => ?_⟩
    rw [outgoing, if_pos huse, sliceFor_error g hdvd] at hu
    cases hu

theorem Fits.slice {key : String} {buffer t u : Tensor V} (h : Fits buffer t)
    (huse : shouldUseAllGather key t.numel group overrides = true) (hu : outgoing group overrides key t = .ok u) :
    ∃ w, sliceFor group buffer = .ok w ∧ Fits w u := by
  obtain ⟨g, rfl, hdvd⟩ := divides_of_outgoing huse hu
  have hnumel : buffer.numel = t.numel := congrArg List.prod h.1
  obtain ⟨u', hu', hus, -, hud, hut⟩ := sliceFor_eq g hdvd
  have hdvd' : g.worldSize ∣ buffer.numel := by rwa [hnumel]
  obtain ⟨w, hw, hws, -, hwd, hwt⟩ := sliceFor_eq g hdvd'
  rw [outgoing, if_pos huse, hu'] at hu
  cases hu
  exact ⟨w, hw, by rw [hws, hus, hnumel], by rw [hwt, hut, h.2.1], by rw [hwd, hud, h.2.2]⟩

/-- An entry of the sender and what the receiver has of it; a buffer and its handle are
in the relation P with the message. -/
inductive Receives (group : Option GroupCoordinator) (overrides : Overrides)
    (P : Tensor V → Tensor V → Handle → Prop) : String × Value V X → String × Pending V X → Prop where
  | object (key : String) (x : X) :
      Receives group overrides P (key, .other (.object x)) (key, .ready (.other (.object x)))
  | empty {key : String} {t u : Tensor V} (hzero : t.numel = 0) (hfit : Fits u t) :
      Receives group overrides P (key, .tensor t) (key, .ready (.tensor u))
  | whole {key : String} {t u : Tensor V} {h : Handle} (hne : t.numel ≠ 0)
      (huse : shouldUseAllGather key t.numel group overrides = false) (hfit : Fits u t) (hP : P t u h) :
      Receives group overrides P (key, .tensor t) (key, .whole u h)
  | slice {key : String} {t m u : Tensor V} {h : Handle} (hne : t.numel ≠ 0)
      (huse : shouldUseAllGather key t.numel group overrides = true)
      (hm : outgoing group overrides key t = .ok m) (hfit : Fits u m) (hP : P m u h) :
      Receives group overrides P (key, .tensor t) (key, .slice u h t.shape)

/-- The message that the handle waits for. -/
def Awaits (a : Nat) (mail : List (ProcessGroup × Tensor V)) (m _u : Tensor V) (h : Handle) : Prop :=
  h.peer = a ∧ (onGroup h.group mail)[h.index]? = some m

def Arrived (m u : Tensor V) (_h : Handle) : Prop := u.data = m.data

theorem irecvEntries_solo {process : Process} {index : Nat} (hfrom : self.Towards index a) {entries : Entries V X}
    (hplain : ∀ p ∈ entries, ∀ m, p.2 ≠ .other (.metadata m))
    (hsend : Sendable group overrides (keyedTensors entries)) {all : List (ProcessGroup × Tensor V)}
    (hall : all = claimed ++ (self.tensorMail group overrides (keyedTensors entries) ++ rest))
    (hm : Mail a b all claimed chan) :
    (network num).SoloOk A b chan
      (self.irecvEntries num process group overrides index (entries.map fun p => (p.1, p.2.toMeta)))
      fun pending chan' => List.Forall₂ (Receives group overrides (Awaits a all)) entries pending ∧
        Mail a b all (claimed ++ self.tensorMail group overrides (keyedTensors entries)) chan' ∧
          Elsewhere a b chan chan' := by
  induction entries generalizing claimed chan with
  | nil => exact Protocol.soloOk_pure ⟨.nil, by simpa [keyedTensors, tensorMail] using hm, .refl _ _ _⟩
  | cons p entries ih =>
    obtain ⟨key, v⟩ := p
    obtain ⟨hv, hrest⟩ := List.forall_mem_cons.mp hplain
    cases v with
    | other v =>
      cases v with
      | metadata m => exact absurd rfl (hv m)
      | object x =>
        simp only [List.map_cons, Value.toMeta, irecvEntries, keyedTensors] at hsend hall ⊢
        apply Protocol.soloOk_bind (ih hrest hsend hall hm)
        rintro pending chan₁ ⟨hpending, hm₁, he₁⟩
        exact Protocol.soloOk_pure ⟨.cons (.object key x) hpending, hm₁, he₁⟩
    | tensor t =>
      simp only [keyedTensors] at hsend hall ⊢
      obtain ⟨ht, hsends⟩ := List.forall_mem_cons.mp hsend
      have hfit : Fits ((metadataOf t).empty num process.currentDevice) t := metadata_fits _ t
      have hnumel : ((metadataOf t).empty num process.currentDevice).numel = t.numel := rfl
      simp only [List.map_cons, Value.toMeta, irecvEntries, hnumel]
      by_cases hzero : t.numel = 0
      · simp only [tensorMail, hzero, if_true] at hall ⊢
        apply Protocol.soloOk_bind (ih hrest hsends hall hm)
        rintro pending chan₁ ⟨hpending, hm₁, he₁⟩
        exact Protocol.soloOk_pure ⟨.cons (.empty hzero hfit) hpending, hm₁, he₁⟩
      · obtain ⟨u, hu⟩ := ht hzero
        simp only [tensorMail, hzero, if_false, hu, List.cons_append] at hall ⊢
        have hnext : all = (claimed ++ [(self.commGroup u, u)]) ++
            (self.tensorMail group overrides (keyedTensors entries) ++ rest) := by
          rw [hall, List.append_assoc, List.singleton_append]
        rw [hall] at hm
        by_cases huse : shouldUseAllGather key t.numel group overrides = true
        · obtain ⟨w, hw, hwfit⟩ := hfit.slice huse hu
          simp only [huse, if_true, hw, hfrom.getItem, Script.liftM_eq, Script.lift_ok, pure_bind, hwfit.commGroup]
          apply Protocol.soloOk_bind (irecv_solo hm w)
          rintro h chan₁ ⟨hawaits, hm₁, he₁⟩
          rw [← hall] at hawaits hm₁
          apply Protocol.soloOk_bind (ih hrest hsends hnext hm₁)
          rintro pending chan₂ ⟨hpending, hm₂, he₂⟩
          rw [List.append_assoc, List.singleton_append] at hm₂
          exact Protocol.soloOk_pure ⟨.cons (.slice hzero huse hu hwfit hawaits) hpending, hm₂, he₁.trans he₂⟩
        · have hwhole : u = t := by
            rw [outgoing, if_neg huse] at hu
            exact (Except.ok.inj hu).symm
          subst hwhole
          rw [Bool.not_eq_true] at huse
          simp only [huse, Bool.false_eq_true, if_false, hfrom.getItem, Script.liftM_eq, Script.lift_ok, pure_bind,
            hfit.commGroup]
          apply Protocol.soloOk_bind (irecv_solo hm _)
          rintro h chan₁ ⟨hawaits, hm₁, he₁⟩
          rw [← hall] at hawaits hm₁
          apply Protocol.soloOk_bind (ih hrest hsends hnext hm₁)
          rintro pending chan₂ ⟨hpending, hm₂, he₂⟩
          rw [List.append_assoc, List.singleton_append] at hm₂
          exact Protocol.soloOk_pure ⟨.cons (.whole hzero huse hfit hawaits) hpending, hm₂, he₁.trans he₂⟩

theorem waitEntries_solo {entries : Entries V X} {pending : List (String × Pending V X)}
    (hpending : List.Forall₂ (Receives group overrides (Awaits a mail)) entries pending)
    (hm : Mail a b mail claimed chan) :
    (network num).SoloOk A b chan (waitEntries (X := X) pending) fun pending' chan' =>
      List.Forall₂ (Receives group overrides Arrived) entries pending' ∧ chan' = chan := by
  induction hpending with
  | nil => exact Protocol.soloOk_pure ⟨.nil, rfl⟩
  | cons hhead _ ih =>
    cases hhead with
    | object key x =>
      apply Protocol.soloOk_bind ih
      rintro pending' _ ⟨hrest, rfl⟩
      exact Protocol.soloOk_pure ⟨.cons (.object key x) hrest, rfl⟩
    | empty hzero hfit =>
      apply Protocol.soloOk_bind ih
      rintro pending' _ ⟨hrest, rfl⟩
      exact Protocol.soloOk_pure ⟨.cons (.empty hzero hfit) hrest, rfl⟩
    | whole hne huse hfit hawaits =>
      obtain ⟨u, hu, hfit', hdata⟩ := hfit.receive
      apply Protocol.soloOk_bind (waitRecv_solo hm hawaits.1 hawaits.2 hu)
      rintro _ _ ⟨rfl, rfl⟩
      apply Protocol.soloOk_bind ih
      rintro pending' _ ⟨hrest, rfl⟩
      exact Protocol.soloOk_pure ⟨.cons (.whole hne huse hfit' hdata) hrest, rfl⟩
    | slice hne huse hmsg hfit hawaits =>
      obtain ⟨u, hu, hfit', hdata⟩ := hfit.receive
      apply Protocol.soloOk_bind (waitRecv_solo hm hawaits.1 hawaits.2 hu)
      rintro _ _ ⟨rfl, rfl⟩
      apply Protocol.soloOk_bind ih
      rintro pending' _ ⟨hrest, rfl⟩
      exact Protocol.soloOk_pure ⟨.cons (.slice hne huse hmsg hfit' hdata) hrest, rfl⟩

theorem recvObject_solo (hloads : ∀ m, codec.loads (codec.dumps m) = some m)
    (hsize : ∀ n, codec.toNat (codec.ofNat n) = n) {index : Nat} (hfrom : self.Towards index a) (m : MetadataList X)
    (hm : Mail a b (claimed ++ (self.cpuGroup, codec.sizeTensor m) :: (self.cpuGroup, codec.objectTensor m) :: rest)
      claimed chan) :
    (network num).SoloOk A b chan (self.recvObject (X := X) num codec index) fun m' chan' => m' = m ∧
      Mail a b (claimed ++ (self.cpuGroup, codec.sizeTensor m) :: (self.cpuGroup, codec.objectTensor m) :: rest)
        (claimed ++ [(self.cpuGroup, codec.sizeTensor m), (self.cpuGroup, codec.objectTensor m)]) chan' ∧
          Elsewhere a b chan chan' := by
  have hassert : self.assertSrc index = .ok () := if_pos (by exact_mod_cast hfrom.lt)
  have hassert' : assert ((index : Int) ≠ self.rankInGroup)
      "Invalid source rank. Source rank is the same as the current rank." = .ok () :=
    if_pos (by exact_mod_cast hfrom.ne)
  have hfit : Fits (Tensor.empty num [1] .int64 .cpu) (codec.sizeTensor m) := ⟨rfl, rfl, rfl⟩
  obtain ⟨u, hu, -, hdata⟩ := hfit.receive
  have hitem : item u = .ok (codec.ofNat (codec.objectTensor m).numel) := by
    rw [item, hdata]
    rfl
  have hnumel : (codec.objectTensor m).numel = (codec.dumps m).length := List.prod_singleton
  have hfit' : Fits (Tensor.empty num [(codec.dumps m).length] .uint8 .cpu) (codec.objectTensor m) := ⟨rfl, rfl, rfl⟩
  obtain ⟨w, hw, -, hbytes⟩ := hfit'.receive
  have hobject : codec.loads w.data = some m := by
    rw [hbytes]
    exact hloads m
  simp only [recvObject, hassert, hassert', hfrom.getItem, Script.liftM_eq, Script.lift_ok, pure_bind]
  apply Protocol.soloOk_bind (recv_solo hm hu)
  rintro _ chan₁ ⟨rfl, hm₁, he₁⟩
  have hsplit : claimed ++ (self.cpuGroup, codec.sizeTensor m) :: (self.cpuGroup, codec.objectTensor m) :: rest =
      (claimed ++ [(self.cpuGroup, codec.sizeTensor m)]) ++ (self.cpuGroup, codec.objectTensor m) :: rest := by simp
  rw [hsplit] at hm₁
  simp only [hitem, Script.lift_ok, pure_bind, hsize, hnumel]
  apply Protocol.soloOk_bind (recv_solo hm₁ hw)
  rintro _ chan₂ ⟨rfl, hm₂, he₂⟩
  simp only [hobject]
  refine Protocol.soloOk_pure ⟨rfl, ?_, he₁.trans he₂⟩
  rw [hsplit]
  simpa using hm₂

/-- The receiver's part before the postprocess functions: the metadata and all that arrives. -/
def arrivals (num : Numerics V) (codec : Codec V (MetadataList X)) (self : GroupCoordinator)
    (group : Option GroupCoordinator) (overrides : Overrides) (process : Process) (src : Option Int) :
    Dist V (MetadataList X) (List (String × Pending V X)) := do
  let src := src.getD (((self.rankInGroup : Int) - 1) % self.worldSize)
  self.assertSrc src
  let recvMetadataList ← self.recvObject num codec src
  let entries ← self.irecvEntries num process group overrides src recvMetadataList.items
  waitEntries entries

theorem recvTensorDict_eq {process : Process} (hinit : process.isInitialized = true) (hone : self.worldSize ≠ 1)
    (src : Option Int) : self.recvTensorDict num process codec group overrides src =
      arrivals num codec self group overrides process src >>= fun pending =>
        postprocess num process group pending >>= fun entries => pure (some entries) := by
  have hskip : ¬ ((!process.isInitialized) = true ∨ self.worldSize = 1) := by simp [hinit, hone]
  simp only [recvTensorDict, irecvTensorDict, if_neg hskip, arrivals, bind_assoc, pure_bind]

theorem arrivals_solo (hloads : ∀ m, codec.loads (codec.dumps m) = some m)
    (hsize : ∀ n, codec.toNat (codec.ofNat n) = n) {process : Process} {index : Nat} (hfrom : self.Towards index a)
    {src : Option Int} (hsrc : src.getD (((self.rankInGroup : Int) - 1) % self.worldSize) = index)
    {d : TensorDict V X} (hplain : d.Plain) (hsend : Sendable group overrides (keyedTensors d.entries))
    {all : List (ProcessGroup × Tensor V)} (hall : all = claimed ++ (self.dictMail codec group overrides d ++ rest))
    (hm : Mail a b all claimed chan) :
    (network num).SoloOk A b chan (arrivals num codec self group overrides process src) fun pending chan' =>
      List.Forall₂ (Receives group overrides Arrived) d.entries pending ∧
        Mail a b all (claimed ++ self.dictMail codec group overrides d) chan' ∧ Elsewhere a b chan chan' := by
  have hassert : self.assertSrc index = .ok () := if_pos (by exact_mod_cast hfrom.lt)
  simp only [arrivals, hsrc, hassert, Script.liftM_eq, Script.lift_ok, pure_bind]
  simp only [dictMail, List.cons_append] at hall
  rw [hall] at hm
  apply Protocol.soloOk_bind (recvObject_solo hloads hsize hfrom (splitTensorDict d).1 hm)
  rintro _ chan₁ ⟨rfl, hm₁, he₁⟩
  rw [← hall] at hm₁
  have hnext : all = (claimed ++ [(self.cpuGroup, codec.sizeTensor (splitTensorDict d).1),
      (self.cpuGroup, codec.objectTensor (splitTensorDict d).1)]) ++
        (self.tensorMail group overrides (keyedTensors d.entries) ++ rest) := by
    rw [hall]
    simp
  apply Protocol.soloOk_bind (irecvEntries_solo hfrom hplain hsend hnext hm₁)
  rintro pending chan₂ ⟨hpending, hm₂, he₂⟩
  apply Protocol.solo_mono (waitEntries_solo hpending hm₂)
  rintro x chan₃ ⟨pending', hx, hpending', rfl⟩
  refine ⟨pending', hx, hpending', ?_, he₁.trans he₂⟩
  simpa [dictMail] using hm₂

end GroupCoordinator
end B70DualTP.Coordinator
