import B70DualTP.Torch.Tensor
import B70DualTP.Library.Script

/-! The calls a rank makes to torch.distributed and the documented meaning of the
collectives. A call carries the tensors it is given; its reply is what it leaves in
the buffers it writes. -/
namespace B70DualTP.Torch
open Library
variable {V O : Type}

structure ProcessGroup where
  id : Nat
  backend : String
  /-- Global ranks of the members, in group-rank order. -/
  ranks : List Nat
  deriving DecidableEq, Repr

/-- A nonblocking operation in flight: the index counts the messages of its channel. -/
structure Handle where
  peer : Nat
  group : ProcessGroup
  index : Nat
  deriving DecidableEq, Repr

inductive Call (V O : Type) where
  | allReduce (tensor : Tensor V) (group : ProcessGroup)
  | allGatherIntoTensor (output input : Tensor V) (group : ProcessGroup)
  | allGather (outputs : List (Tensor V)) (input : Tensor V) (group : ProcessGroup)
  | reduceScatterTensor (output input : Tensor V) (group : ProcessGroup)
  | reduceScatter (output : Tensor V) (inputs : List (Tensor V)) (group : ProcessGroup)
  /-- dst is a global rank; it alone passes a list to gather into. -/
  | gather (input : Tensor V) (outputs : Option (List (Tensor V))) (dst : Nat) (group : ProcessGroup)
  /-- src is a global rank. -/
  | broadcast (tensor : Tensor V) (src : Int) (group : ProcessGroup)
  /-- The source passes its object, the others none. -/
  | broadcastObjectList (object : Option O) (src : Int) (group : ProcessGroup)
  /-- The shared-memory message queue of a coordinator; its writer is group rank 0. -/
  | mqBroadcastObject (object : Option O)
  | send (tensor : Tensor V) (dst : Nat) (group : ProcessGroup)
  /-- Replies with the received tensor and the rank it came from. -/
  | recv (buffer : Tensor V) (src : Nat) (group : ProcessGroup)
  | isend (tensor : Tensor V) (dst : Nat) (group : ProcessGroup)
  | irecv (buffer : Tensor V) (src : Nat) (group : ProcessGroup)
  | waitSend (handle : Handle)
  | waitRecv (handle : Handle) (buffer : Tensor V)
  deriving DecidableEq

namespace Call

@[reducible] def Resp : Call V O → Type
  | .allReduce .. | .allGatherIntoTensor .. | .reduceScatterTensor .. | .reduceScatter .. => Tensor V
  | .broadcast .. | .waitRecv .. => Tensor V
  | .allGather .. => List (Tensor V)
  | .gather .. => Option (List (Tensor V))
  | .broadcastObjectList .. | .mqBroadcastObject .. => O
  | .send .. | .waitSend .. => Unit
  | .recv .. => Tensor V × Nat
  | .isend .. | .irecv .. => Handle

/-- The tensors that a call hands to torch.distributed. -/
def tensors : Call V O → List (Tensor V)
  | .allReduce t _ | .broadcast t .. | .send t .. | .isend t .. => [t]
  | .recv t .. | .irecv t .. => [t]
  | .allGatherIntoTensor o i _ | .reduceScatterTensor o i _ => [o, i]
  | .allGather os i _ => os ++ [i]
  | .gather i os .. => os.getD [] ++ [i]
  | .reduceScatter o is _ => o :: is
  | .broadcastObjectList .. | .mqBroadcastObject .. | .waitSend .. | .waitRecv .. => []

end Call

/-- A rank's program: it calls torch.distributed and may raise. -/
abbrev Dist (V O A : Type) := Script PyError (Call V O) (fun c => Py c.Resp) A

namespace Dist
variable (t : Tensor V) (g : ProcessGroup)

def call (c : Call V O) : Dist V O c.Resp := Script.ask c

abbrev allReduce : Dist V O (Tensor V) := call (.allReduce t g)
abbrev allGatherIntoTensor (output : Tensor V) : Dist V O (Tensor V) := call (.allGatherIntoTensor output t g)
abbrev allGather (outputs : List (Tensor V)) : Dist V O (List (Tensor V)) := call (.allGather outputs t g)
abbrev reduceScatterTensor (output : Tensor V) : Dist V O (Tensor V) := call (.reduceScatterTensor output t g)
abbrev reduceScatter (output : Tensor V) (inputs : List (Tensor V)) : Dist V O (Tensor V) :=
  call (.reduceScatter output inputs g)
abbrev gather (outputs : Option (List (Tensor V))) (dst : Nat) : Dist V O (Option (List (Tensor V))) :=
  call (.gather t outputs dst g)
abbrev broadcast (src : Int) : Dist V O (Tensor V) := call (.broadcast t src g)
abbrev broadcastObjectList (object : Option O) (src : Int) : Dist V O O :=
  call (.broadcastObjectList object src g)
abbrev mqBroadcastObject (object : Option O) : Dist V O O := call (.mqBroadcastObject object)
abbrev send (dst : Nat) : Dist V O Unit := call (.send t dst g)
abbrev recv (src : Nat) : Dist V O (Tensor V × Nat) := call (.recv t src g)
abbrev isend (dst : Nat) : Dist V O Handle := call (.isend t dst g)
abbrev irecv (src : Nat) : Dist V O Handle := call (.irecv t src g)
abbrev waitSend (handle : Handle) : Dist V O Unit := call (.waitSend handle)
abbrev waitRecv (handle : Handle) : Dist V O (Tensor V) := call (.waitRecv handle t)

end Dist

section Collectives
variable (num : Numerics V)

/-- Elementwise sum of equally long lists, folded in rank order. -/
def sumData (dtype : DType) : List (List V) → List V
  | [] => []
  | xs :: xss => xss.foldl (List.zipWith (num.add dtype)) xs

/-- Two tensors a collective accepts side by side. -/
def Tensor.Compatible (s t : Tensor V) : Prop := s.shape = t.shape ∧ s.dtype = t.dtype

instance (s t : Tensor V) : Decidable (s.Compatible t) := inferInstanceAs (Decidable (_ ∧ _))

/-- The arguments of the members' calls, when all make the call that sel selects. -/
def gatherArgs {A : Type} (sel : Call V O → Option A) (calls : List (Call V O)) : Py (List A) :=
  match calls.mapM sel with
  | some as => .ok as
  | none => .error .distributedError

def require (cond : Prop) [Decidable cond] : Py Unit := if cond then .ok () else .error .distributedError

def selAllReduce (g : ProcessGroup) : Call V O → Option (Tensor V)
  | .allReduce t g' => if g' = g then some t else none
  | _ => none

def selAllGatherIntoTensor (g : ProcessGroup) : Call V O → Option (Tensor V)
  | .allGatherIntoTensor _ i g' => if g' = g then some i else none
  | _ => none

def selAllGather (g : ProcessGroup) : Call V O → Option (Tensor V)
  | .allGather _ i g' => if g' = g then some i else none
  | _ => none

def selReduceScatterTensor (g : ProcessGroup) : Call V O → Option (Tensor V)
  | .reduceScatterTensor _ i g' => if g' = g then some i else none
  | _ => none

def selReduceScatter (g : ProcessGroup) : Call V O → Option (List (Tensor V))
  | .reduceScatter _ is g' => if g' = g then some is else none
  | _ => none

def selGather (dst : Nat) (g : ProcessGroup) : Call V O → Option (Tensor V)
  | .gather i _ dst' g' => if dst' = dst ∧ g' = g then some i else none
  | _ => none

def selBroadcast (src : Int) (g : ProcessGroup) : Call V O → Option (Tensor V)
  | .broadcast t src' g' => if src' = src ∧ g' = g then some t else none
  | _ => none

def selBroadcastObjectList (src : Int) (g : ProcessGroup) : Call V O → Option (Option O)
  | .broadcastObjectList o src' g' => if src' = src ∧ g' = g then some o else none
  | _ => none

def selMqBroadcastObject : Call V O → Option (Option O)
  | .mqBroadcastObject o => some o
  | _ => none

/-- The position in the group of a global rank. -/
def ProcessGroup.groupRank? (g : ProcessGroup) (rank : Int) : Option Nat :=
  g.ranks.findIdx? fun r : Nat => decide ((r : Int) = rank)

/-- What the member with group rank r gets from a call, given the calls of all
members in group-rank order. A collective whose members disagree raises. -/
def reply (calls : List (Call V O)) (r : Nat) : (c : Call V O) → Py c.Resp
  | .allReduce t g => do
    let ts ← gatherArgs (selAllReduce g) calls
    require (∀ u ∈ ts, u.Compatible t)
    t.fill (sumData num t.dtype (ts.map (·.data)))
  | .allGatherIntoTensor o i g => do
    let ts ← gatherArgs (selAllGatherIntoTensor g) calls
    require (o.dtype = i.dtype ∧ ∀ u ∈ ts, u.Compatible i)
    o.fill (ts.flatMap (·.data))
  | .allGather os i g => do
    let ts ← gatherArgs (selAllGather g) calls
    require (List.Forall₂ Tensor.Compatible os ts ∧ ∀ u ∈ ts, u.dtype = i.dtype)
    (os.zip ts).mapM fun p => p.1.fill p.2.data
  | .reduceScatterTensor o i g => do
    let ts ← gatherArgs (selReduceScatterTensor g) calls
    require (o.dtype = i.dtype ∧ (∀ u ∈ ts, u.Compatible i) ∧ i.numel = calls.length * o.numel)
    o.fill (block o.numel r (sumData num i.dtype (ts.map (·.data))))
  | .reduceScatter o is g => do
    let tss ← gatherArgs (selReduceScatter g) calls
    require (∀ us ∈ tss, List.Forall₂ Tensor.Compatible us is ∧ us.length = calls.length)
    let column := tss.filterMap (·[r]?)
    require (∀ u ∈ column, u.Compatible o)
    o.fill (sumData num o.dtype (column.map (·.data)))
  | .gather i os dst g => do
    let ts ← gatherArgs (selGather dst g) calls
    require ((∀ u ∈ ts, u.Compatible i) ∧ (g.ranks[r]? = some dst ↔ os.isSome))
    match os with
    | none => .ok none
    | some os =>
      require (List.Forall₂ Tensor.Compatible os ts)
      (some ·) <$> (os.zip ts).mapM fun p => p.1.fill p.2.data
  | .broadcast t src g => do
    let ts ← gatherArgs (selBroadcast src g) calls
    match (g.groupRank? src).bind (ts[·]?) with
    | some root =>
      require (∀ u ∈ ts, u.Compatible t)
      t.fill root.data
    | none => .error .distributedError
  | .broadcastObjectList _ src g => do
    let os ← gatherArgs (selBroadcastObjectList src g) calls
    match ((g.groupRank? src).bind (os[·]?)).join with
    | some o => .ok o
    | none => .error .distributedError
  | .mqBroadcastObject _ => do
    let os ← gatherArgs selMqBroadcastObject calls
    match os.head?.join with
    | some o => .ok o
    | none => .error .distributedError
  | _ => .error .distributedError

/-- The meaning of one row of collective calls in a group of W ranks. -/
def meaning {W : Nat} (c : Fin W → Call V O) (r : Fin W) : Py (c r).Resp := reply num (List.ofFn c) r (c r)

end Collectives
end B70DualTP.Torch
