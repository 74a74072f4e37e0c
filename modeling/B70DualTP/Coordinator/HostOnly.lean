import B70DualTP.Communicator.HostOnly
import B70DualTP.Coordinator.PointToPoint

/-! Which operations of a host-staged coordinator keep accelerator tensors away from
torch.distributed, and exactly when the others do. -/
namespace B70DualTP.Coordinator
open Library Torch Communicator
variable {V X A B : Type} (num : Numerics V)

/-- The communication operations of a coordinator, with the arguments of this rank. -/
inductive Operation (V X : Type) where
  | allReduce (input : Tensor V)
  | allGather (input : Tensor V) (dim : Int)
  | allGatherv (input : TensorArg V) (dim : Int) (sizes : Option (List Nat))
  | reduceScatter (input : Tensor V) (dim : Int)
  | reduceScatterv (input : Tensor V) (dim : Int) (sizes : Option (List Nat))
  | gather (input : Tensor V) (dst dim : Int)
  | broadcast (input : Tensor V) (src : Int)
  | broadcastTensorDict (tensorDict : Option (TensorDict V X)) (src : Int)
  | isendTensorDict (allGatherGroup : Option GroupCoordinator) (allGatherTensors : Overrides)
      (tensorDict : TensorDict V X) (dst : Option Int)
  | sendTensorDict (allGatherGroup : Option GroupCoordinator) (allGatherTensors : Overrides)
      (tensorDict : TensorDict V X) (dst : Option Int)
  | irecvTensorDict (allGatherGroup : Option GroupCoordinator) (allGatherTensors : Overrides) (src : Option Int)
  | recvTensorDict (allGatherGroup : Option GroupCoordinator) (allGatherTensors : Overrides) (src : Option Int)
  | send (tensor : Tensor V) (dst : Option Int)
  | recv (size : List Nat) (dtype : DType) (src : Option Int)

section Run
variable (process : Process) (self : GroupCoordinator) (codec : Codec V (MetadataList X))

/-- The calls of an operation; its result is dropped. -/
def Operation.run : Operation V X → Dist V (MetadataList X) Unit
  | .allReduce input => do let _ ← self.allReduce num process input
  | .allGather input dim => do let _ ← self.allGather num process input dim
  | .allGatherv input dim sizes => do let _ ← self.allGatherv num input dim sizes
  | .reduceScatter input dim => do let _ ← self.reduceScatter num process input dim
  | .reduceScatterv input dim sizes => do let _ ← self.reduceScatterv num input dim sizes
  | .gather input dst dim => do let _ ← self.gather num input dst dim
  | .broadcast input src => do let _ ← self.broadcast input src
  | .broadcastTensorDict tensorDict src => do let _ ← self.broadcastTensorDict num process tensorDict src
  | .isendTensorDict group overrides tensorDict dst => do
    let _ ← self.isendTensorDict codec group overrides tensorDict dst
  | .sendTensorDict group overrides tensorDict dst => do
    let _ ← self.sendTensorDict process codec group overrides tensorDict dst
  | .irecvTensorDict group overrides src => do let _ ← self.irecvTensorDict num process codec group overrides src
  | .recvTensorDict group overrides src => do let _ ← self.recvTensorDict num process codec group overrides src
  | .send tensor dst => self.send tensor dst
  | .recv size dtype src => do let _ ← self.recv num size dtype src

/-- What the other ranks may reply: the metadata they send is the list given, and a rank
that sends to itself or receives from itself gets no reply. -/
def Answers (incoming : MetadataList X) : (c : Call V (MetadataList X)) → Py c.Resp → Prop
  | .broadcastObjectList .., y | .mqBroadcastObject .., y => ∀ m, y = .ok m → m = incoming
  | .send _ dst _, y => ∀ u, y = .ok u → dst ≠ self.rank
  | .recv buffer src _, y => ∀ p, y = .ok p → src ≠ self.rank ∧
      (buffer.dtype = .uint8 → ∀ m, codec.loads p.1.data = some m → m = incoming)
  | _, _ => True

end Run

/-- The coordinator's communicators are host-staged. -/
def GroupCoordinator.Staged (self : GroupCoordinator) : Prop :=
  ∀ comm ∈ self.deviceCommunicator, comm.hoststaged = true

section Condition
variable (process : Process) (self : GroupCoordinator)

/-- An index, possibly negative, of a rank of the group. -/
def GroupCoordinator.InRange (i : Int) : Prop := -(self.worldSize : Int) ≤ i ∧ i < self.worldSize

/-- An index of a rank other than this one. -/
def GroupCoordinator.Peer (i : Int) : Prop := ∃ r, getItem self.ranks i = .ok r ∧ r ≠ self.rank

def GroupCoordinator.nextIndex (dst : Option Int) : Int := dst.getD ((self.rankInGroup + 1) % self.worldSize : Nat)
def GroupCoordinator.prevIndex (src : Option Int) : Int :=
  src.getD (((self.rankInGroup : Int) - 1) % self.worldSize)

/-- The shape of an entry divides evenly, where a slice of it is sent. -/
def Sliceable (allGatherGroup : Option GroupCoordinator) (allGatherTensors : Overrides) (key : String)
    (numel : Nat) : Bool :=
  !GroupCoordinator.shouldUseAllGather key numel allGatherGroup allGatherTensors ||
    decide (allGatherGroup.elim 1 (·.worldSize) ∣ numel)

/-- What the loops over a dictionary see of its tensors, empty ones left out. -/
def tensorSpecs : List (String × Tensor V) → List (String × Nat × DeviceType)
  | [] => []
  | (key, t) :: tensors =>
    if t.numel = 0 then tensorSpecs tensors else (key, t.numel, t.device.type) :: tensorSpecs tensors

/-- The same of received metadata. -/
def metadataSpecs : List (String × MetaValue X) → List (String × Nat × DeviceType)
  | [] => []
  | (_, .object _) :: items => metadataSpecs items
  | (key, .metadata m) :: items =>
    if m.size.prod = 0 then metadataSpecs items else (key, m.size.prod, m.device) :: metadataSpecs items

def AllCpu (specs : List (String × Nat × DeviceType)) : Prop := ∀ p ∈ specs, p.2.2 = .cpu

/-- The entries that are reached before one that cannot be sliced. -/
def reached (allGatherGroup : Option GroupCoordinator) (allGatherTensors : Overrides)
    (specs : List (String × Nat × DeviceType)) : List (String × Nat × DeviceType) :=
  specs.takeWhile fun p => Sliceable allGatherGroup allGatherTensors p.1 p.2.1

/-- The condition under which an operation hands over CPU tensors alone. The incoming
metadata matters to the receiving operations. -/
def Operation.Condition (incoming : MetadataList X) : Operation V X → Prop
  | .allReduce .. | .allGather .. | .allGatherv .. | .reduceScatter .. | .reduceScatterv .. | .gather .. => True
  | .broadcast input src => self.InRange src → input.device = .cpu
  | .broadcastTensorDict tensorDict src =>
    process.isInitialized = true → self.InRange src → (self.mqBroadcaster = true → src = 0) →
      if (self.rankInGroup : Int) = src then ∀ d ∈ tensorDict, AllCpu (tensorSpecs (keyedTensors d.entries))
      else AllCpu (metadataSpecs incoming.items)
  | .isendTensorDict group overrides tensorDict dst =>
    self.Peer (self.nextIndex dst) → AllCpu (reached group overrides (tensorSpecs (keyedTensors tensorDict.entries)))
  | .sendTensorDict group overrides tensorDict dst =>
    process.isInitialized = true → self.Peer (self.nextIndex dst) →
      AllCpu (reached group overrides (tensorSpecs (keyedTensors tensorDict.entries)))
  | .irecvTensorDict group overrides src | .recvTensorDict group overrides src =>
    process.isInitialized = true → self.Peer (self.prevIndex src) →
      AllCpu (reached group overrides (metadataSpecs incoming.items))
  | .send tensor dst => self.InRange (self.nextIndex dst) → tensor.device = .cpu
  | .recv _ _ src => self.InRange (self.prevIndex src) → self.device = .cpu

end Condition

theorem assert_ok_iff {p : Prop} [Decidable p] {message : String} {u : Unit} : assert p message = .ok u ↔ p := by
  simp [assert]

section Rules
variable {num} {self : GroupCoordinator} {codec : Codec V (MetadataList X)} {incoming : MetadataList X}

theorem GroupCoordinator.inRange_iff {i : Int} : self.InRange i ↔ ∃ r, getItem self.ranks i = .ok r :=
  exists_getItem_iff.symm

theorem GroupCoordinator.Peer.lt {i : Int} (h : self.Peer i) : i < self.worldSize := by
  obtain ⟨r, hr, -⟩ := h
  exact (GroupCoordinator.inRange_iff.mpr ⟨r, hr⟩).2

theorem GroupCoordinator.Wired.getItem_own (hself : self.Wired) : getItem self.ranks self.rankInGroup = .ok self.rank := by
  rw [getItem_natCast self.rank_lt]
  exact congrArg Except.ok (Option.some.inj ((List.getElem?_eq_getElem self.rank_lt).symm.trans hself.rank))

theorem GroupCoordinator.Peer.ne {i : Int} (h : self.Peer i) (hself : self.Wired) : i ≠ self.rankInGroup := by
  rintro rfl
  obtain ⟨r, hr, hne⟩ := h
  rw [hself.getItem_own] at hr
  exact hne (Except.ok.inj hr).symm

/-- Sending an object hands over CPU tensors; it succeeds towards a peer alone. -/
theorem sendObject_bind_iff (hself : self.Wired) (obj : MetadataList X) (dst : Int)
    (f : Unit → Dist V (MetadataList X) B) :
    HostOnly (Answers self codec incoming) (self.sendObject codec obj dst >>= f) ↔
      (self.Peer dst → HostOnly (Answers self codec incoming) (f ())) := by
  simp only [GroupCoordinator.sendObject, GroupCoordinator.assertDst, bind_assoc, Script.liftM_eq, HostOnly,
    Script.confined_lift_bind_iff, hostOnly_send_bind_iff, assert_ok_iff]
  constructor
  · intro h hpeer
    obtain ⟨r, hr, hne⟩ := id hpeer
    have hsent := (h () hpeer.lt () (hpeer.ne hself) r hr).2 () fun _ _ => hne
    exact hsent.2 () fun _ _ => hne
  · intro h _ _ _ _ r hr
    exact ⟨rfl, fun _ hy => ⟨rfl, fun _ _ => h ⟨r, hr, hy () rfl⟩⟩⟩

/-- Receiving an object allocates CPU tensors; from a peer it returns what was sent. -/
theorem recvObject_bind_iff (hcodec : ∀ m, codec.loads (codec.dumps m) = some m) (hself : self.Wired) (src : Int)
    (f : MetadataList X → Dist V (MetadataList X) B) :
    HostOnly (Answers self codec incoming) (self.recvObject num codec src >>= f) ↔
      (self.Peer src → HostOnly (Answers self codec incoming) (f incoming)) := by
  simp only [GroupCoordinator.recvObject, GroupCoordinator.assertSrc, bind_assoc, Script.liftM_eq, HostOnly,
    Script.confined_lift_bind_iff, hostOnly_recv_bind_iff, assert_ok_iff]
  constructor
  · intro h hpeer
    obtain ⟨r, hr, hne⟩ := id hpeer
    let sizeTensor : Tensor V := { shape := [1], data := [codec.ofNat 0], wf := rfl, device := .cpu, dtype := .int64 }
    let objectTensor : Tensor V :=
      { shape := [(codec.dumps incoming).length], data := codec.dumps incoming, wf := by simp, device := .cpu,
        dtype := .uint8 }
    have hsize := (h () hpeer.lt () (hpeer.ne hself) r hr).2 (sizeTensor, r) fun p hp => by
      cases hp
      exact ⟨hne, fun hd => by cases hd⟩
    have hobject := (hsize (codec.ofNat 0) rfl).2 (objectTensor, r) fun p hp => by
      cases hp
      refine ⟨hne, fun _ m hm => ?_⟩
      rw [hcodec incoming] at hm
      exact (Option.some.inj hm).symm
    have hrest := hobject () rfl
    rw [hcodec incoming] at hrest
    exact hrest
  · intro h _ _ _ _ r hr
    refine ⟨rfl, fun sizeReply hsize size _ => ⟨rfl, fun objectReply hobject _ _ => ?_⟩⟩
    cases hloads : codec.loads objectReply.1.data with
    | none => exact Script.confined_raise _
    | some m =>
      obtain ⟨hne, hm⟩ := hobject objectReply rfl
      obtain rfl := hm rfl m hloads
      exact h ⟨r, hr, hne⟩

/-- The source's broadcast of an object needs an index in range, which is 0 for the
message queue. -/
theorem broadcastObject_source_iff (hW : 2 ≤ self.worldSize) {src : Int} (hsrc : (self.rankInGroup : Int) = src)
    (obj : MetadataList X) (p : Dist V (MetadataList X) B) :
    HostOnly (Answers self codec incoming) (self.broadcastObject (some obj) src >>= fun _ => p) ↔
      ((self.mqBroadcaster = true → src = 0) → HostOnly (Answers self codec incoming) p) := by
  have hW' : ¬ self.worldSize = 1 := by omega
  have hlt : src < self.worldSize := by
    have := self.rank_lt
    simp only [GroupCoordinator.worldSize]
    omega
  have hitem : ∃ r, getItem self.ranks src = .ok r := ⟨_, hsrc ▸ getItem_natCast self.rank_lt⟩
  obtain ⟨r, hr⟩ := hitem
  cases hmq : self.mqBroadcaster <;>
    simp only [GroupCoordinator.broadcastObject, GroupCoordinator.assertSrc, bind_assoc, Script.liftM_eq, HostOnly,
      Script.confined_lift_bind_iff, hostOnly_broadcastObjectList_bind_iff, hostOnly_mqBroadcastObject_bind_iff,
      assert_ok_iff, hmq, hW', hsrc, pure_bind, if_true, if_false, Bool.false_eq_true]
  · constructor
    · intro h _
      exact h () hlt r hr incoming fun m hm => (Except.ok.inj hm).symm
    · intro h _ _ _ _ _ _
      exact h fun hf => hf.elim
  · constructor
    · intro h hzero
      exact h () hlt () (hzero trivial) incoming fun m hm => (Except.ok.inj hm).symm
    · intro h _ _ _ hzero _ _
      exact h fun _ => hzero

/-- A receiver of the broadcast of an object gets what was sent. -/
theorem broadcastObject_receiver_iff (hW : 2 ≤ self.worldSize) {src : Int} (hsrc : (self.rankInGroup : Int) ≠ src)
    (f : Option (MetadataList X) → Dist V (MetadataList X) B) :
    HostOnly (Answers self codec incoming) (self.broadcastObject none src >>= f) ↔
      (self.InRange src → (self.mqBroadcaster = true → src = 0) →
        HostOnly (Answers self codec incoming) (f (some incoming))) := by
  have hW' : ¬ self.worldSize = 1 := by omega
  cases hmq : self.mqBroadcaster <;>
    simp only [GroupCoordinator.broadcastObject, GroupCoordinator.assertSrc, bind_assoc, Script.liftM_eq, HostOnly,
      Script.confined_lift_bind_iff, hostOnly_broadcastObjectList_bind_iff, hostOnly_mqBroadcastObject_bind_iff,
      assert_ok_iff, hmq, hW', hsrc, pure_bind, if_true, if_false, Bool.false_eq_true]
  · constructor
    · intro h hin _
      obtain ⟨r, hr⟩ := GroupCoordinator.inRange_iff.mp hin
      exact h () hin.2 r hr incoming fun m hm => (Except.ok.inj hm).symm
    · intro h _ _ r hr y hy
      obtain rfl := hy y rfl
      exact h (GroupCoordinator.inRange_iff.mpr ⟨r, hr⟩) fun hf => hf.elim
  · constructor
    · intro h hin hzero
      exact h () hin.2 () (hzero trivial) incoming fun m hm => (Except.ok.inj hm).symm
    · intro h _ hlt _ hzero y hy
      obtain rfl := hy y rfl
      exact h ⟨by omega, hlt⟩ fun _ => hzero

private theorem device_eq_cpu_iff {d : Device} : d.type = .cpu ↔ d = .cpu := by
  cases d <;> simp [Device.type]

private theorem allCpu_cons_iff {p : String × Nat × DeviceType} {specs : List (String × Nat × DeviceType)} :
    AllCpu (p :: specs) ↔ p.2.2 = .cpu ∧ AllCpu specs := List.forall_mem_cons

/-- The source broadcasts every nonempty tensor. -/
theorem broadcastTensors_iff {src : Int} (hin : self.InRange src) (tensors : List (String × Tensor V)) :
    HostOnly (Answers self codec incoming) (self.broadcastTensors src (tensors.map Prod.snd)) ↔
      AllCpu (tensorSpecs tensors) := by
  obtain ⟨r, hr⟩ := GroupCoordinator.inRange_iff.mp hin
  induction tensors with
  | nil => simp [GroupCoordinator.broadcastTensors, AllCpu, tensorSpecs, Script.confined_pure]
  | cons p tensors ih =>
    obtain ⟨key, t⟩ := p
    simp only [List.map_cons, GroupCoordinator.broadcastTensors, tensorSpecs]
    by_cases ht : t.numel = 0
    · simpa [ht] using ih
    · simp only [ht, ne_eq, not_false_eq_true, if_true, if_false, Script.liftM_eq, HostOnly,
        Script.confined_lift_bind_iff, hostOnly_broadcast_bind_iff, allCpu_cons_iff, device_eq_cpu_iff, ← ih]
      constructor
      · intro h
        exact ⟨(h r hr).1, (h r hr).2 t trivial⟩
      · rintro ⟨hd, hrest⟩ _ _
        exact ⟨hd, fun _ _ => hrest⟩

private theorem type_at (d : DeviceType) (index : Nat) : (d.at index).type = d := by cases d <;> rfl

private theorem TensorMetadata.empty_device_eq_cpu_iff (m : TensorMetadata) (num : Numerics V) (index : Nat) :
    (m.empty num index).device = .cpu ↔ m.device = .cpu := by
  have htype : (m.empty num index).device.type = m.device := type_at m.device index
  rw [← device_eq_cpu_iff, htype]

/-- A receiver broadcasts into every nonempty tensor it allocates. -/
theorem broadcastEntries_iff {process : Process} {src : Int} (hin : self.InRange src)
    (items : List (String × MetaValue X)) :
    HostOnly (Answers self codec incoming) (self.broadcastEntries num process src items) ↔
      AllCpu (metadataSpecs items) := by
  obtain ⟨r, hr⟩ := GroupCoordinator.inRange_iff.mp hin
  induction items with
  | nil => simp [GroupCoordinator.broadcastEntries, AllCpu, metadataSpecs, Script.confined_pure]
  | cons p items ih =>
    obtain ⟨key, m | x⟩ := p
    · have hnumel : (m.empty num process.currentDevice).numel = m.size.prod := rfl
      have hdevice := m.empty_device_eq_cpu_iff num process.currentDevice
      simp only [GroupCoordinator.broadcastEntries, metadataSpecs, hnumel]
      by_cases hm : m.size.prod = 0
      · simp only [hm, if_true, pure_bind]
        exact (Script.confined_bind_iff fun _ => Script.confined_pure _).trans ih
      · simp only [hm, if_false, Script.liftM_eq, HostOnly, Script.confined_lift_bind_iff,
          hostOnly_broadcast_bind_iff, Script.confined_bind_iff fun _ => Script.confined_pure _, allCpu_cons_iff,
          hdevice, ← ih]
        constructor
        · intro h
          exact ⟨(h r hr).1, (h r hr).2 (m.empty num process.currentDevice) trivial⟩
        · rintro ⟨hd, hrest⟩ _ _
          exact ⟨hd, fun _ _ => hrest⟩
    · simp only [GroupCoordinator.broadcastEntries, metadataSpecs]
      exact (Script.confined_bind_iff fun _ => Script.confined_pure _).trans ih

section Slices
variable {group : Option GroupCoordinator} {overrides : Overrides} {key : String} {t : Tensor V}

/-- A slice is taken, and stays on the tensor's device, exactly when the shape divides. -/
theorem sliceFor_cases (huse : GroupCoordinator.shouldUseAllGather key t.numel group overrides = true) :
    if Sliceable group overrides key t.numel then
      ∃ u, GroupCoordinator.sliceFor group t = .ok u ∧ u.device = t.device
    else GroupCoordinator.sliceFor group t = .error .runtimeError := by
  cases group with
  | none => simp [GroupCoordinator.shouldUseAllGather] at huse
  | some group =>
    by_cases hdvd : group.worldSize ∣ t.numel
    · obtain ⟨u, hu, -, -, hd, -⟩ := GroupCoordinator.sliceFor_eq group hdvd
      rw [if_pos (by simp [Sliceable, hdvd])]
      exact ⟨u, hu, hd⟩
    · rw [if_neg (by simp [Sliceable, huse, hdvd])]
      exact GroupCoordinator.sliceFor_error group hdvd

theorem outgoing_cases :
    if Sliceable group overrides key t.numel then
      ∃ u, GroupCoordinator.outgoing group overrides key t = .ok u ∧ u.device = t.device
    else GroupCoordinator.outgoing group overrides key t = .error .runtimeError := by
  simp only [GroupCoordinator.outgoing]
  by_cases huse : GroupCoordinator.shouldUseAllGather key t.numel group overrides = true
  · simpa only [huse, if_true] using sliceFor_cases huse
  · rw [if_pos (by simp [Sliceable, huse]), if_neg huse]
    exact ⟨t, rfl, rfl⟩

theorem reached_cons (p : String × Nat × DeviceType) (specs : List (String × Nat × DeviceType)) :
    reached group overrides (p :: specs) =
      if Sliceable group overrides p.1 p.2.1 then p :: reached group overrides specs else [] := by
  simp only [reached, List.takeWhile_cons]

/-- The sending loop hands over the nonempty tensors up to one that cannot be sliced. -/
theorem isendTensors_iff {dst : Int} (hin : self.InRange dst) (tensors : List (String × Tensor V)) :
    HostOnly (Answers self codec incoming) (self.isendTensors group overrides dst tensors) ↔
      AllCpu (reached group overrides (tensorSpecs tensors)) := by
  obtain ⟨r, hr⟩ := GroupCoordinator.inRange_iff.mp hin
  induction tensors with
  | nil => simp [GroupCoordinator.isendTensors, AllCpu, reached, tensorSpecs, Script.confined_pure]
  | cons p tensors ih =>
    obtain ⟨key, t⟩ := p
    simp only [GroupCoordinator.isendTensors, tensorSpecs]
    by_cases ht : t.numel = 0
    · simpa only [ht, if_true] using ih
    · have hout : if Sliceable group overrides key t.numel then
          ∃ u, GroupCoordinator.outgoing group overrides key t = .ok u ∧ u.device = t.device
        else GroupCoordinator.outgoing group overrides key t = .error .runtimeError := outgoing_cases
      simp only [ht, if_false, reached_cons, Script.liftM_eq, HostOnly, Script.confined_lift_bind_iff,
        hostOnly_isend_bind_iff, Script.confined_bind_iff fun _ => Script.confined_pure _]
      cases hs : Sliceable group overrides key t.numel with
      | false =>
        simp only [hs, Bool.false_eq_true, if_false] at hout
        simp [hout, AllCpu]
      | true =>
        simp only [hs, if_true] at hout
        obtain ⟨u, hu, hd⟩ := hout
        simp only [if_true, allCpu_cons_iff, device_eq_cpu_iff, ← ih]
        constructor
        · intro h
          have hsent := h u hu r hr
          exact ⟨hd ▸ hsent.1, hsent.2 ⟨0, self.cpuGroup, 0⟩ trivial⟩
        · rintro ⟨hcpu, hrest⟩ v hv _ _
          obtain rfl := Except.ok.inj (hu.symm.trans hv)
          exact ⟨hd.trans hcpu, fun _ _ => hrest⟩

/-- The receiving loop allocates on the devices of the metadata, up to an entry that
cannot be sliced. -/
theorem irecvEntries_iff {process : Process} {src : Int} (hin : self.InRange src)
    (items : List (String × MetaValue X)) :
    HostOnly (Answers self codec incoming) (self.irecvEntries num process group overrides src items) ↔
      AllCpu (reached group overrides (metadataSpecs items)) := by
  obtain ⟨r, hr⟩ := GroupCoordinator.inRange_iff.mp hin
  induction items with
  | nil => simp [GroupCoordinator.irecvEntries, AllCpu, reached, metadataSpecs, Script.confined_pure]
  | cons p items ih =>
    obtain ⟨key, m | x⟩ := p
    · have hnumel : (m.empty num process.currentDevice).numel = m.size.prod := rfl
      have hdevice := m.empty_device_eq_cpu_iff num process.currentDevice
      simp only [GroupCoordinator.irecvEntries, metadataSpecs, hnumel]
      by_cases hm : m.size.prod = 0
      · simp only [hm, if_true]
        exact (Script.confined_bind_iff fun _ => Script.confined_pure _).trans ih
      · simp only [hm, if_false, reached_cons]
        by_cases huse : GroupCoordinator.shouldUseAllGather key m.size.prod group overrides = true
        · have hcases := sliceFor_cases (t := m.empty num process.currentDevice) huse
          simp only [huse, if_true, Script.liftM_eq, HostOnly, Script.confined_lift_bind_iff,
            hostOnly_irecv_bind_iff, Script.confined_bind_iff fun _ => Script.confined_pure _]
          cases hs : Sliceable group overrides key m.size.prod with
          | false =>
            simp only [hnumel, hs, Bool.false_eq_true, if_false] at hcases
            simp [hcases, AllCpu]
          | true =>
            simp only [hnumel, hs, if_true] at hcases
            obtain ⟨u, hu, hd⟩ := hcases
            simp only [if_true, allCpu_cons_iff, ← hdevice, ← ih]
            constructor
            · intro h
              have hposted := h u hu r hr
              exact ⟨hd ▸ hposted.1, hposted.2 ⟨0, self.cpuGroup, 0⟩ trivial⟩
            · rintro ⟨hcpu, hrest⟩ v hv _ _
              obtain rfl := Except.ok.inj (hu.symm.trans hv)
              exact ⟨hd.trans hcpu, fun _ _ => hrest⟩
        · have hs : Sliceable group overrides key m.size.prod = true := by simp [Sliceable, huse]
          simp only [huse, hs, if_true, Bool.false_eq_true, if_false, Script.liftM_eq, HostOnly,
            Script.confined_lift_bind_iff, hostOnly_irecv_bind_iff,
            Script.confined_bind_iff fun _ => Script.confined_pure _, allCpu_cons_iff, hdevice, ← ih]
          constructor
          · intro h
            exact ⟨(h r hr).1, (h r hr).2 ⟨0, self.cpuGroup, 0⟩ trivial⟩
          · rintro ⟨hd, hrest⟩ _ _
            exact ⟨hd, fun _ _ => hrest⟩
    · simp only [GroupCoordinator.irecvEntries, metadataSpecs]
      exact (Script.confined_bind_iff fun _ => Script.confined_pure _).trans ih

end Slices

end Rules

section Delegating
variable {answers : ∀ c : Call V (MetadataList X), Py c.Resp → Prop} {process : Process} {self : GroupCoordinator}

/-- All registered coordinators are host-staged. -/
def Process.Staged (process : Process) : Prop :=
  ∀ name g, process.groups name = some (some g) → g.Staged

private theorem communicator_bind_hostOnly (hs : self.Staged) {f : XpuCommunicator → Dist V (MetadataList X) B}
    (hf : ∀ comm, comm.hoststaged = true → HostOnly answers (f comm)) :
    HostOnly answers (Script.lift self.communicator >>= f) := by
  refine Script.confined_lift_bind_iff.mpr fun comm hcomm => hf comm ?_
  simp only [GroupCoordinator.communicator] at hcomm
  split at hcomm
  · rename_i comm' hc
    cases hcomm
    exact hs comm hc
  · cases hcomm

private theorem findGroup_bind_hostOnly (hs : process.Staged) (groupName : String)
    {f : GroupCoordinator → Dist V (MetadataList X) B} (hf : ∀ g, g.Staged → HostOnly answers (f g)) :
    HostOnly answers (Script.lift (findGroup process.groups groupName) >>= f) := by
  refine Script.confined_lift_bind_iff.mpr fun g hg => hf g ?_
  simp only [findGroup] at hg
  split at hg
  · cases hg
  · cases hg
  · rename_i g' hfound
    cases hg
    exact hs groupName g hfound

variable (hp : process.Staged) (hs : self.Staged)
include hp hs

private theorem allReduce_hostOnly (input : Tensor V) : HostOnly answers (self.allReduce num process input) := by
  simp only [GroupCoordinator.allReduce]
  split
  · exact Script.confined_pure _
  · have hout : ∀ g : GroupCoordinator, g.Staged → HostOnly answers (g.allReduceOutPlace num input) :=
      fun g hg => communicator_bind_hostOnly hg fun comm h => comm.allReduce_hostOnly num h input
    split
    · exact findGroup_bind_hostOnly hp _ hout
    · exact hout self hs

private theorem allGather_hostOnly (input : Tensor V) (dim : Int) :
    HostOnly answers (self.allGather num process input dim) := by
  simp only [GroupCoordinator.allGather]
  split
  · exact Script.confined_pure _
  · have hout : ∀ g : GroupCoordinator, g.Staged → HostOnly answers (g.allGatherOutPlace num input dim) :=
      fun g hg => communicator_bind_hostOnly hg fun comm h => comm.allGather_hostOnly num h input dim
    apply Script.confined_bind (Script.confined_lift _)
    intro _
    split
    · exact findGroup_bind_hostOnly hp _ hout
    · exact hout self hs

private theorem reduceScatter_hostOnly (input : Tensor V) (dim : Int) :
    HostOnly answers (self.reduceScatter num process input dim) := by
  simp only [GroupCoordinator.reduceScatter]
  split
  · exact Script.confined_pure _
  · have hout : ∀ g : GroupCoordinator, g.Staged → HostOnly answers (g.reduceScatterOutPlace num input dim) :=
      fun g hg => communicator_bind_hostOnly hg fun comm h => comm.reduceScatter_hostOnly num h input dim
    apply Script.confined_bind (Script.confined_lift _)
    intro _
    split
    · exact findGroup_bind_hostOnly hp _ hout
    · exact hout self hs

end Delegating

section PointToPoint
variable {self : GroupCoordinator} {codec : Codec V (MetadataList X)} {incoming : MetadataList X}
  {process : Process} {group : Option GroupCoordinator} {overrides : Overrides}

private theorem waitAll_hostOnly (handles : List Handle) :
    HostOnly (Answers self codec incoming) (GroupCoordinator.waitAll (X := X) handles) := by
  induction handles with
  | nil => exact Script.confined_pure _
  | cons handle handles ih =>
    refine Script.confined_bind (hostOnly_call_iff.mpr ?_) fun _ => ih
    simp [CpuCall, Call.tensors]

private theorem waitEntries_hostOnly (entries : List (String × Pending V X)) :
    HostOnly (Answers self codec incoming) (GroupCoordinator.waitEntries entries) := by
  induction entries with
  | nil => exact Script.confined_pure _
  | cons p entries ih =>
    obtain ⟨key, v | ⟨buffer, handle⟩ | ⟨buffer, handle, origShape⟩⟩ := p
    · exact Script.confined_bind ih fun _ => Script.confined_pure _
    all_goals
      refine Script.confined_bind (hostOnly_call_iff.mpr ?_) fun _ =>
        Script.confined_bind ih fun _ => Script.confined_pure _
      simp [CpuCall, Call.tensors]

/-- The all-gathers of the postprocess step go through a staged communicator. -/
private theorem postprocess_hostOnly (hp : process.Staged) (hg : ∀ g ∈ group, g.Staged)
    (entries : List (String × Pending V X)) :
    HostOnly (Answers self codec incoming) (GroupCoordinator.postprocess num process group entries) := by
  induction entries with
  | nil => exact Script.confined_pure _
  | cons p entries ih =>
    obtain ⟨key, v | ⟨buffer, handle⟩ | ⟨buffer, handle, origShape⟩⟩ := p
    · exact Script.confined_bind ih fun _ => Script.confined_pure _
    · exact Script.confined_bind ih fun _ => Script.confined_pure _
    · simp only [GroupCoordinator.postprocess]
      cases group with
      | none => exact Script.confined_raise _
      | some g =>
        apply Script.confined_bind (allGather_hostOnly num hp (hg g rfl) buffer 0)
        intro gathered
        apply Script.confined_bind (Script.confined_lift _)
        intro full
        exact Script.confined_bind ih fun _ => Script.confined_pure _

theorem GroupCoordinator.Peer.inRange {i : Int} (h : self.Peer i) : self.InRange i := by
  obtain ⟨r, hr, -⟩ := h
  exact GroupCoordinator.inRange_iff.mpr ⟨r, hr⟩

private theorem isendTensorDict_iff (hself : self.Wired) (hW : 2 ≤ self.worldSize) (tensorDict : TensorDict V X)
    (dst : Option Int) :
    HostOnly (Answers self codec incoming) (self.isendTensorDict codec group overrides tensorDict dst) ↔
      (self.Peer (self.nextIndex dst) →
        AllCpu (reached group overrides (tensorSpecs (keyedTensors tensorDict.entries)))) := by
  have hW' : ¬ self.worldSize ≤ 1 := by omega
  simp only [GroupCoordinator.isendTensorDict, hW', if_false, GroupCoordinator.assertDst, Script.liftM_eq, HostOnly,
    Script.confined_lift_bind_iff, assert_ok_iff, sendObject_bind_iff hself, zip_tensorKeys]
  constructor
  · intro h hpeer
    exact (isendTensors_iff hpeer.inRange _).mp (h () hpeer.lt hpeer () (length_tensorKeys tensorDict))
  · intro h _ _ hpeer _ _
    exact (isendTensors_iff hpeer.inRange _).mpr (h hpeer)

private theorem irecvTensorDict_iff (hcodec : ∀ m, codec.loads (codec.dumps m) = some m) (hself : self.Wired)
    (hW : 2 ≤ self.worldSize) (src : Option Int) :
    HostOnly (Answers self codec incoming) (self.irecvTensorDict num process codec group overrides src) ↔
      (process.isInitialized = true → self.Peer (self.prevIndex src) →
        AllCpu (reached group overrides (metadataSpecs incoming.items))) := by
  have hW' : ¬ self.worldSize = 1 := by omega
  simp only [GroupCoordinator.irecvTensorDict, hW', or_false]
  cases hi : process.isInitialized with
  | false => simp [Script.confined_pure]
  | true =>
    simp only [Bool.not_true, Bool.false_eq_true, if_false, GroupCoordinator.assertSrc, Script.liftM_eq, HostOnly,
      Script.confined_lift_bind_iff, assert_ok_iff, recvObject_bind_iff hcodec hself, true_implies,
      Script.confined_bind_iff fun _ => Script.confined_pure _]
    constructor
    · intro h hpeer
      exact (irecvEntries_iff hpeer.inRange _).mp (h () hpeer.lt hpeer)
    · intro h _ _ hpeer
      exact (irecvEntries_iff hpeer.inRange _).mpr (h hpeer)

private theorem broadcastTensorDict_iff (hW : 2 ≤ self.worldSize) (tensorDict : Option (TensorDict V X)) (src : Int) :
    HostOnly (Answers self codec incoming) (self.broadcastTensorDict num process tensorDict src) ↔
      (Operation.broadcastTensorDict tensorDict src).Condition process self incoming := by
  have hW' : ¬ self.worldSize = 1 := by omega
  simp only [GroupCoordinator.broadcastTensorDict, Operation.Condition, hW', or_false]
  cases hi : process.isInitialized with
  | false => simp [Script.confined_pure]
  | true =>
    simp only [Bool.not_true, Bool.false_eq_true, if_false, GroupCoordinator.assertSrc, Script.liftM_eq, HostOnly,
      Script.confined_lift_bind_iff, assert_ok_iff, true_implies]
    by_cases hsrc : (self.rankInGroup : Int) = src
    · have hin : self.InRange src := by
        have := self.rank_lt
        simp only [GroupCoordinator.InRange, GroupCoordinator.worldSize]
        omega
      simp only [hsrc, if_true]
      cases tensorDict with
      | none => simp [Script.confined_raise]
      | some d =>
        simp only [broadcastObject_source_iff hW hsrc, Script.confined_bind_iff fun _ => Script.confined_pure _,
          ← map_snd_keyedTensors]
        constructor
        · intro h hin' hzero e he
          obtain rfl := Option.some.inj he
          exact (broadcastTensors_iff hin _).mp (h () hin.2 hzero)
        · intro h _ _ hzero
          exact (broadcastTensors_iff hin _).mpr (h hin hzero d rfl)
    · simp only [hsrc, if_false, broadcastObject_receiver_iff hW hsrc,
        Script.confined_bind_iff fun _ => Script.confined_pure _]
      constructor
      · intro h hin hzero
        exact (broadcastEntries_iff hin _).mp (h () hin.2 hin hzero)
      · intro h _ _ hin hzero
        exact (broadcastEntries_iff hin _).mpr (h hin hzero)

end PointToPoint

section Main
variable {self : GroupCoordinator} {codec : Codec V (MetadataList X)}

/-- The group that an operation all-gathers over. -/
def Operation.allGatherGroup : Operation V X → Option GroupCoordinator
  | .isendTensorDict group .. | .sendTensorDict group .. | .irecvTensorDict group ..
  | .recvTensorDict group .. => group
  | _ => none

private theorem forall_getItem_iff {i : Int} {p : Prop} :
    (∀ r, getItem self.ranks i = .ok r → p) ↔ (self.InRange i → p) := by
  rw [GroupCoordinator.inRange_iff, forall_exists_index]

private theorem hostOnly_discard {answers : ∀ c : Call V (MetadataList X), Py c.Resp → Prop}
    {m : Dist V (MetadataList X) A} :
    HostOnly answers (do let _ ← m; pure ()) ↔ HostOnly answers m :=
  Script.confined_bind_iff fun _ => Script.confined_pure _

/-- For every operation of a host-staged coordinator: it hands CPU tensors alone to
torch.distributed, whatever the other ranks reply, exactly under its condition. -/
theorem hostOnly_iff (num : Numerics V) (codec : Codec V (MetadataList X))
    (hcodec : ∀ m, codec.loads (codec.dumps m) = some m) (process : Process) (hp : process.Staged)
    (self : GroupCoordinator) (hself : self.Wired) (hW : 2 ≤ self.worldSize)
    (comm : XpuCommunicator) (hcomm : self.deviceCommunicator = some comm) (hstaged : comm.hoststaged = true)
    (operation : Operation V X) (hgroup : ∀ g ∈ operation.allGatherGroup, g.Staged) (incoming : MetadataList X) :
    HostOnly (Answers self codec incoming) (operation.run num process self codec) ↔
      operation.Condition process self incoming := by
  have hW' : ¬ self.worldSize = 1 := by omega
  have hs : self.Staged := fun c hc => by
    rw [hcomm] at hc
    cases hc
    exact hstaged
  have hcommunicator : self.communicator = .ok comm := by simp [GroupCoordinator.communicator, hcomm]
  obtain ⟨hcpu, -, hdevice, hrank⟩ := hself.communicator comm hcomm
  have hranks : comm.ranks = self.ranks := by rw [DeviceCommunicatorBase.ranks, hcpu, hself.cpuGroup]
  have hsize : comm.toDeviceCommunicatorBase.worldSize = self.worldSize := congrArg List.length hranks
  cases operation with
  | allReduce input =>
    exact iff_of_true (hostOnly_discard.mpr (allReduce_hostOnly num hp hs input)) trivial
  | allGather input dim =>
    exact iff_of_true (hostOnly_discard.mpr (allGather_hostOnly num hp hs input dim)) trivial
  | allGatherv input dim sizes =>
    refine iff_of_true (hostOnly_discard.mpr ?_) trivial
    exact communicator_bind_hostOnly hs fun comm h => comm.allGatherv_hostOnly num h input dim sizes
  | reduceScatter input dim =>
    exact iff_of_true (hostOnly_discard.mpr (reduceScatter_hostOnly num hp hs input dim)) trivial
  | reduceScatterv input dim sizes =>
    refine iff_of_true (hostOnly_discard.mpr ?_) trivial
    exact communicator_bind_hostOnly hs fun comm h => comm.reduceScatterv_hostOnly num h input dim sizes
  | gather input dst dim =>
    refine iff_of_true (hostOnly_discard.mpr ?_) trivial
    simp only [GroupCoordinator.gather, hW', if_false]
    exact communicator_bind_hostOnly hs fun comm h => comm.gather_hostOnly num h input dst dim
  | broadcast input src =>
    apply hostOnly_discard.trans
    simp only [GroupCoordinator.broadcast, hW', if_false, GroupCoordinator.assertSrc, Script.liftM_eq, HostOnly,
      Script.confined_lift_bind_iff, assert_ok_iff, Operation.Condition]
    constructor
    · intro h hin
      obtain ⟨r, hr⟩ := GroupCoordinator.inRange_iff.mp hin
      exact hostOnly_call_iff.mp (h () hin.2 r hr) input (by simp [Call.tensors])
    · intro h _ _ r hr
      apply hostOnly_call_iff.mpr
      intro t ht
      obtain rfl := List.mem_singleton.mp ht
      exact h (GroupCoordinator.inRange_iff.mpr ⟨r, hr⟩)
  | broadcastTensorDict tensorDict src => exact hostOnly_discard.trans (broadcastTensorDict_iff num hW tensorDict src)
  | isendTensorDict group overrides tensorDict dst =>
    exact hostOnly_discard.trans (isendTensorDict_iff hself hW tensorDict dst)
  | sendTensorDict group overrides tensorDict dst =>
    apply hostOnly_discard.trans
    simp only [GroupCoordinator.sendTensorDict, Operation.Condition, hW', or_false]
    cases hi : process.isInitialized with
    | false => simp [Script.confined_pure]
    | true =>
      simp only [Bool.not_true, Bool.false_eq_true, if_false, true_implies]
      refine (Script.confined_bind_iff fun handles => ?_).trans (isendTensorDict_iff hself hW tensorDict dst)
      exact Script.confined_bind (waitAll_hostOnly handles) fun _ => Script.confined_pure _
  | irecvTensorDict group overrides src => exact hostOnly_discard.trans (irecvTensorDict_iff num hcodec hself hW src)
  | recvTensorDict group overrides src =>
    refine hostOnly_discard.trans (Iff.trans ?_ (irecvTensorDict_iff num hcodec hself hW src))
    apply Script.confined_bind_iff
    intro entries
    cases entries with
    | none => exact Script.confined_pure _
    | some entries =>
      apply Script.confined_bind (waitEntries_hostOnly entries)
      intro received
      exact Script.confined_bind (postprocess_hostOnly num hp hgroup received) fun _ => Script.confined_pure _
  | send tensor dst =>
    simp only [Operation.run, GroupCoordinator.send, hcommunicator, Script.liftM_eq, Script.lift_ok, pure_bind]
    apply (comm.send_hostOnly_iff tensor dst).trans
    rw [hranks, hrank, hsize, forall_getItem_iff]
    rfl
  | recv size dtype src =>
    apply hostOnly_discard.trans
    simp only [GroupCoordinator.recv, hcommunicator, Script.liftM_eq, Script.lift_ok, pure_bind]
    apply (comm.recv_hostOnly_iff num size dtype src).trans
    rw [hranks, hrank, hsize, hdevice, forall_getItem_iff]
    rfl

end Main

theorem pairCoordinator_staged (r : Fin 2) : (pairCoordinator r).Staged := by
  rintro comm ⟨rfl⟩
  rfl

theorem pairProcess_staged (r : Fin 2) : (pairProcess r).Staged := by
  intro name g hg
  simp only [pairProcess, pairGroups] at hg
  split at hg
  · cases hg
    exact pairCoordinator_staged r
  · cases hg

/-- A staged all-reduce of a tensor on a card. -/
theorem pair_allReduce_hostOnly : HostOnly (Answers (pairCoordinator 0) byteCodec ⟨[], List.nodup_nil⟩)
    ((Operation.allReduce cardTensor).run intNumerics (pairProcess 0) (pairCoordinator 0) byteCodec) :=
  (hostOnly_iff intNumerics byteCodec byteCodec_loads (pairProcess 0) (pairProcess_staged 0) (pairCoordinator 0)
    (pairCoordinator_wired 0) (by decide) _ rfl rfl (.allReduce cardTensor) (fun _ h => by cases h) _).mpr trivial

/-- The coordinator's own broadcast hands the tensor on as it is. -/
theorem pair_broadcast_not_hostOnly : ¬ HostOnly (Answers (pairCoordinator 0) byteCodec ⟨[], List.nodup_nil⟩)
    ((Operation.broadcast cardTensor 0).run intNumerics (pairProcess 0) (pairCoordinator 0) byteCodec) := by
  intro h
  have hcall : CpuCall (Call.broadcast cardTensor 0 pairDeviceGroup : Call Int (MetadataList Int)) := h.1
  have hdevice := hcall cardTensor (by simp [Call.tensors])
  cases hdevice

end B70DualTP.Coordinator
