import B70DualTP.Communicator.Xpu
import B70DualTP.Torch.Network

/-! The collectives of the communicator are joint calls of one group: of the CPU group when
host-staged, of the device group otherwise. -/
namespace B70DualTP.Communicator
open Library Torch
variable {V O A : Type} (num : Numerics V)

abbrev JoinsOnly (g : ProcessGroup) (rank : Nat) (m : Dist V O A) : Prop :=
  m.Confined (fun _ _ => True) fun c => move rank c = .join g

theorem joinsOnly_call {g : ProcessGroup} {rank : Nat} {c : Call V O} (h : move rank c = .join g) :
    JoinsOnly g rank (Dist.call c) := by
  apply (Script.ensures_ask c _).mpr
  exact ⟨h, fun _ _ => trivial⟩

namespace XpuCommunicator
variable (self : XpuCommunicator) (rank : Nat)

theorem allReduce_joinsOnly (input : Tensor V) : JoinsOnly self.group rank (self.allReduce num input : Dist V O _) := by
  rw [group, allReduce]
  split
  · exact Script.confined_bind (joinsOnly_call rfl) fun cpu => Script.confined_pure _
  · exact joinsOnly_call rfl

private theorem concatAlong_joinsOnly (g : ProcessGroup) (worldSize : Nat) (s : List Nat) (dim : Int)
    (reshaped : Py (Tensor V)) : JoinsOnly g rank
      (do concatAlong worldSize s dim (← reshaped) : Dist V O (Tensor V)) :=
  Script.confined_bind (Script.confined_lift _) fun _ => Script.confined_lift _

theorem allGather_joinsOnly (input : Tensor V) (dim : Int) :
    JoinsOnly self.group rank (self.allGather num input dim : Dist V O _) := by
  rw [group, allGather]
  cases self.hoststaged with
  | false =>
    apply Script.confined_bind (Script.confined_lift _)
    intro n
    exact Script.confined_bind (joinsOnly_call rfl) fun output => concatAlong_joinsOnly _ _ _ _ _ _
  | true =>
    apply Script.confined_bind (Script.confined_lift _)
    intro n
    exact Script.confined_bind (joinsOnly_call rfl) fun output => concatAlong_joinsOnly _ _ _ _ _ _

theorem reduceScatter_joinsOnly (input : Tensor V) (dim : Int) :
    JoinsOnly self.group rank (self.reduceScatter num input dim : Dist V O _) := by
  rw [group, reduceScatter]
  apply Script.confined_bind (Script.confined_lift _)
  intro inputTensor
  apply Script.confined_bind (Script.confined_lift _)
  intro n
  apply Script.confined_bind (Script.confined_lift _)
  intro _
  cases self.hoststaged with
  | false =>
    exact Script.confined_bind (joinsOnly_call rfl) fun output =>
      Script.confined_bind (Script.confined_lift _) fun _ => Script.confined_pure _
  | true =>
    exact Script.confined_bind (joinsOnly_call rfl) fun output =>
      Script.confined_bind (Script.confined_lift _) fun _ => Script.confined_pure _

theorem gather_joinsOnly (input : Tensor V) (dst dim : Int) :
    JoinsOnly self.group rank (self.gather num input dst dim : Dist V O _) := by
  rw [gather]
  apply Script.confined_bind (Script.confined_lift _)
  intro _
  apply Script.confined_bind (joinsOnly_call rfl)
  intro output
  dsimp only
  split
  · exact Script.confined_bind (Script.confined_lift _) fun _ => Script.confined_pure _
  · exact Script.confined_pure _

end XpuCommunicator
end B70DualTP.Communicator
