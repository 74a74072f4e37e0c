import B70DualTP.Library.Schedule
import B70DualTP.Torch.Distributed

/-! torch.distributed between ranks: messages of one sender, one receiver and one group
keep their order, and the members of a group meet in its collectives. -/
namespace B70DualTP.Torch
open Library
variable {V O A B : Type} (num : Numerics V)

/-- Where a message travels; src and dst are global ranks. -/
structure Link where
  src : Nat
  dst : Nat
  group : ProcessGroup
  deriving DecidableEq

/-- A message must have the dtype and the number of elements of the buffer. -/
def Tensor.receive (buffer message : Tensor V) : Py (Tensor V) := do
  require (message.dtype = buffer.dtype)
  buffer.fill message.data

def onIndex (f : Nat → Py A) : Reply (Tensor V) → Py A
  | .index i => f i
  | .message _ => .error .distributedError

def onMessage (f : Tensor V → Py A) : Reply (Tensor V) → Py A
  | .index _ => .error .distributedError
  | .message m => f m

/-- What a call of the rank does to the network. -/
def move (rank : Nat) : (c : Call V O) → Move Link (Tensor V) ProcessGroup (Py c.Resp)
  | .send t dst g => .channel ⟨rank, dst, g⟩ (.emit t) fun _ => .ok ()
  | .recv t src g => .channel ⟨src, rank, g⟩ .take (onMessage fun m => (t.receive m).map (·, src))
  | .isend t dst g => .channel ⟨rank, dst, g⟩ (.emit t) (onIndex fun i => .ok ⟨dst, g, i⟩)
  | .irecv _ src g => .channel ⟨src, rank, g⟩ .claim (onIndex fun i => .ok ⟨src, g, i⟩)
  | .waitSend h => .channel ⟨rank, h.peer, h.group⟩ (.await h.index) fun _ => .ok ()
  | .waitRecv h t => .channel ⟨h.peer, rank, h.group⟩ (.await h.index) (onMessage t.receive)
  | .allReduce _ g | .allGatherIntoTensor _ _ g | .allGather _ _ g | .reduceScatterTensor _ _ g => .join g
  | .reduceScatter _ _ g | .gather _ _ _ g | .broadcast _ _ g | .broadcastObjectList _ _ g => .join g
  -- shared memory is not part of the network
  | .mqBroadcastObject _ => .stuck

/-- The network of all ranks. -/
def network : Protocol Nat Link (Tensor V) ProcessGroup (Call V O) (fun c => Py c.Resp) where
  move := move
  members := ProcessGroup.ranks
  joint _ := reply num

/-- A rank sends on links from itself, receives on links to itself, and carries nothing. -/
private theorem move_ends {rank : Nat} {c : Call V O} {ch : Link} {o : Op (Tensor V)}
    {f : Reply (Tensor V) → Py c.Resp} (h : move rank c = .channel ch o f) :
    (o.side = some .sender → ch.src = rank) ∧ (o.side = some .receiver → ch.dst = rank) ∧
      o.side ≠ some .carrier := by
  cases c <;> simp only [move, Move.channel.injEq, reduceCtorEq] at h <;> obtain ⟨rfl, rfl, -⟩ := h <;>
    simp [Op.side]

theorem network_separate : (network (V := V) (O := O) num).Separate where
  apart {p q c d ch o o' f f'} hp hq hpq := by
    obtain ⟨hsend, hrecv, hcarry⟩ := move_ends hp
    obtain ⟨hsend', hrecv', -⟩ := move_ends hq
    intro side hside hside'
    cases side with
    | sender => exact hpq ((hsend hside).symm.trans (hsend' hside'))
    | receiver => exact hpq ((hrecv hside).symm.trans (hrecv' hside'))
    | carrier => exact hcarry hside
  carried {p c ch o f} hp := by
    intro side hside hside'
    cases hside'
    exact (move_ends hp).2.2 hside

/-- The messages of one group, in order. -/
def onGroup (g : ProcessGroup) (mail : List (ProcessGroup × Tensor V)) : List (Tensor V) :=
  mail.filterMap fun p => if p.1 = g then some p.2 else none

@[simp] theorem onGroup_nil (g : ProcessGroup) : onGroup g ([] : List (ProcessGroup × Tensor V)) = [] := rfl

theorem onGroup_append (g : ProcessGroup) (mail mail' : List (ProcessGroup × Tensor V)) :
    onGroup g (mail ++ mail') = onGroup g mail ++ onGroup g mail' := List.filterMap_append ..

theorem onGroup_singleton (g : ProcessGroup) (p : ProcessGroup × Tensor V) :
    onGroup g [p] = if p.1 = g then [p.2] else [] := by
  by_cases h : p.1 = g <;> simp [onGroup, h]

/-- Rank a has sent the mail to rank b, all of it has arrived, and b has claimed the first part. -/
def Mail (a b : Nat) (mail claimed : List (ProcessGroup × Tensor V)) (chan : Link → Channel (Tensor V)) : Prop :=
  ∀ g, chan ⟨a, b, g⟩ = ⟨onGroup g mail, (onGroup g mail).length, (onGroup g claimed).length⟩

def Between (a b : Nat) (k : Link) : Prop := k.src = a ∧ k.dst = b

/-- Nothing has changed but the links from a to b. -/
def Elsewhere (a b : Nat) (chan chan' : Link → Channel (Tensor V)) : Prop := ∀ k, ¬ Between a b k → chan' k = chan k

theorem mail_local (a b : Nat) (mail claimed : List (ProcessGroup × Tensor V)) :
    Protocol.LocalTo (Between a b) (Mail a b mail claimed) :=
  fun _ _ hsame h g => (hsame ⟨a, b, g⟩ ⟨rfl, rfl⟩).trans (h g)

section Mail
variable {num} {a b : Nat} {mail claimed rest : List (ProcessGroup × Tensor V)}
  {chan chan' chan'' : Link → Channel (Tensor V)} {t u buffer : Tensor V} {g : ProcessGroup} {h : Handle}

theorem Elsewhere.refl (a b : Nat) (chan : Link → Channel (Tensor V)) : Elsewhere a b chan chan := fun _ _ => rfl

theorem Elsewhere.trans (h₁ : Elsewhere a b chan chan') (h₂ : Elsewhere a b chan' chan'') : Elsewhere a b chan chan'' :=
  fun k hk => (h₂ k hk).trans (h₁ k hk)

private theorem elsewhere_update (c : Channel (Tensor V)) : Elsewhere a b chan (Function.update chan ⟨a, b, g⟩ c) :=
  fun k hk => Function.update_of_ne (fun he : k = ⟨a, b, g⟩ => hk ⟨congrArg Link.src he, congrArg Link.dst he⟩) _ _

private theorem update_group {c : Channel (Tensor V)} {g' : ProcessGroup} (hg : g ≠ g') :
    Function.update chan ⟨a, b, g⟩ c ⟨a, b, g'⟩ = chan ⟨a, b, g'⟩ :=
  Function.update_of_ne (fun he => hg (congrArg Link.group he).symm) _ _

private theorem mail_posted (hm : Mail a b mail claimed chan) (t : Tensor V) (g : ProcessGroup) :
    Mail a b (mail ++ [(g, t)]) claimed (Function.update chan ⟨a, b, g⟩
      ⟨(chan ⟨a, b, g⟩).sent ++ [t], (chan ⟨a, b, g⟩).arrived + 1, (chan ⟨a, b, g⟩).claimed⟩) := by
  intro g'
  rw [onGroup_append, onGroup_singleton]
  by_cases hg : g = g'
  · subst hg
    simp [hm g]
  · simp [update_group hg, hg, hm g']

private theorem mail_claimed (hm : Mail a b (claimed ++ (g, t) :: rest) claimed chan) :
    Mail a b (claimed ++ (g, t) :: rest) (claimed ++ [(g, t)]) (Function.update chan ⟨a, b, g⟩
      { chan ⟨a, b, g⟩ with claimed := (chan ⟨a, b, g⟩).claimed + 1 }) := by
  intro g'
  rw [onGroup_append _ claimed [(g, t)], onGroup_singleton]
  by_cases hg : g = g'
  · subst hg
    simp [hm g]
  · simp [update_group hg, hg, hm g']

private theorem next_message : (onGroup g (claimed ++ (g, t) :: rest))[(onGroup g claimed).length]? = some t := by
  rw [onGroup_append, List.getElem?_append_right (Nat.le_refl _), Nat.sub_self]
  simp [onGroup]

private theorem posted (hm : Mail a b mail claimed chan) {c : Call V O} {reply : Reply (Tensor V) → Py c.Resp}
    {y : c.Resp} (hmove : move a c = .channel ⟨a, b, g⟩ (.emit t) reply)
    (hy : reply (.index (onGroup g mail).length) = .ok y) :
    (network num).SoloOk A a chan (Dist.call c) fun z chan' =>
      z = y ∧ Mail a b (mail ++ [(g, t)]) claimed chan' ∧ Elsewhere a b chan chan' := by
  have hcall : (network num).SoloOk A a chan (Dist.call c) fun z chan' => z = y ∧ chan' =
      Function.update chan ⟨a, b, g⟩ { chan ⟨a, b, g⟩ with sent := (chan ⟨a, b, g⟩).sent ++ [t] } := by
    refine Protocol.soloOk_ask hmove (.emit t _) ?_ ⟨rfl, rfl⟩
    rw [hm g]
    exact hy
  apply Protocol.soloOk_then_arrive ⟨a, b, g⟩ hcall
  rintro z chan' ⟨rfl, rfl⟩
  refine ⟨by simp [hm g], rfl, ?_, ?_⟩
  · simpa using mail_posted hm t g
  · simpa using elsewhere_update _

theorem send_solo (hm : Mail a b mail claimed chan) : (network num).SoloOk A a chan
    (Dist.send t g b : Dist V O Unit) fun _ chan' =>
      Mail a b (mail ++ [(g, t)]) claimed chan' ∧ Elsewhere a b chan chan' := by
  apply Protocol.solo_mono (posted (y := ()) hm rfl rfl)
  rintro x chan' ⟨y, hx, -, h⟩
  exact ⟨y, hx, h⟩

theorem isend_solo (hm : Mail a b mail claimed chan) : (network num).SoloOk A a chan
    (Dist.isend t g b : Dist V O Handle) fun h chan' =>
      (h.peer = b ∧ (onGroup h.group (mail ++ [(g, t)]))[h.index]? = some t) ∧
        Mail a b (mail ++ [(g, t)]) claimed chan' ∧ Elsewhere a b chan chan' := by
  apply Protocol.solo_mono (posted (c := .isend t b g) (y := (⟨b, g, (onGroup g mail).length⟩ : Handle)) hm rfl rfl)
  rintro x chan' ⟨y, hx, rfl, hmail⟩
  refine ⟨_, hx, ⟨rfl, ?_⟩, hmail⟩
  rw [onGroup_append, List.getElem?_append_right (Nat.le_refl _), Nat.sub_self, onGroup_singleton, if_pos rfl]
  rfl

theorem waitSend_solo (hm : Mail a b mail claimed chan) (hpeer : h.peer = b)
    (hsent : (onGroup h.group mail)[h.index]? = some t) : (network num).SoloOk A a chan
      (Dist.waitSend h : Dist V O Unit) fun _ chan' => chan' = chan := by
  have hlink := hm h.group
  have hmove : move a (.waitSend h : Call V O) =
      .channel ⟨a, b, h.group⟩ (.await h.index) fun _ => .ok () := by
    rw [← hpeer]
    rfl
  refine Protocol.soloOk_ask hmove (x := .message t) (d := chan ⟨a, b, h.group⟩) (.await ?_ ?_) rfl
    (Function.update_eq_self _ _)
  · rw [hlink]
    exact (List.getElem?_eq_some_iff.mp hsent).1
  · rw [hlink]
    exact hsent

theorem recv_solo (hm : Mail a b (claimed ++ (g, t) :: rest) claimed chan) (hfit : buffer.receive t = .ok u) :
    (network num).SoloOk A b chan (Dist.recv buffer g a : Dist V O (Tensor V × Nat)) fun y chan' =>
      y = (u, a) ∧ Mail a b (claimed ++ (g, t) :: rest) (claimed ++ [(g, t)]) chan' ∧ Elsewhere a b chan chan' := by
  have hlink := hm g
  have hnext : (onGroup g (claimed ++ (g, t) :: rest))[(onGroup g claimed).length]? = some t := next_message
  have hmove : move b (.recv buffer a g : Call V O) =
      .channel ⟨a, b, g⟩ .take (onMessage fun m => (buffer.receive m).map (·, a)) := rfl
  refine Protocol.soloOk_ask hmove (x := .message t) (.take ?_ ?_) ?_ ⟨rfl, mail_claimed hm, elsewhere_update _⟩
  · rw [hlink]
    exact (List.getElem?_eq_some_iff.mp hnext).1
  · rw [hlink]
    exact hnext
  · simp only [onMessage, hfit]
    rfl

theorem irecv_solo (hm : Mail a b (claimed ++ (g, t) :: rest) claimed chan) (buffer : Tensor V) :
    (network num).SoloOk A b chan (Dist.irecv buffer g a : Dist V O Handle) fun h chan' =>
      (h.peer = a ∧ (onGroup h.group (claimed ++ (g, t) :: rest))[h.index]? = some t) ∧
        Mail a b (claimed ++ (g, t) :: rest) (claimed ++ [(g, t)]) chan' ∧ Elsewhere a b chan chan' := by
  have hlink := hm g
  have hmove : move b (.irecv buffer a g : Call V O) =
      .channel ⟨a, b, g⟩ .claim (onIndex fun i => .ok ⟨a, g, i⟩) := rfl
  refine Protocol.soloOk_ask hmove (.claim _) rfl ⟨⟨rfl, ?_⟩, mail_claimed hm, elsewhere_update _⟩
  rw [hlink]
  exact next_message

theorem waitRecv_solo (hm : Mail a b mail claimed chan) (hpeer : h.peer = a)
    (hsent : (onGroup h.group mail)[h.index]? = some t) (hfit : buffer.receive t = .ok u) :
    (network num).SoloOk A b chan (Dist.waitRecv buffer h : Dist V O (Tensor V)) fun y chan' => y = u ∧ chan' = chan := by
  have hlink := hm h.group
  have hmove : move b (.waitRecv h buffer : Call V O) =
      .channel ⟨a, b, h.group⟩ (.await h.index) (onMessage buffer.receive) := by
    rw [← hpeer]
    rfl
  refine Protocol.soloOk_ask hmove (x := .message t) (d := chan ⟨a, b, h.group⟩) (.await ?_ ?_) hfit
    ⟨rfl, Function.update_eq_self _ _⟩
  · rw [hlink]
    exact (List.getElem?_eq_some_iff.mp hsent).1
  · rw [hlink]
    exact hsent

end Mail
end B70DualTP.Torch
