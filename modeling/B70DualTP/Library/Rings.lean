import Mathlib.GroupTheory.Perm.Cycle.Basic

/-! Lists without a common element, read as rings: each element is followed by the next one of
its list, and the last one by the first. -/
namespace B70DualTP.Library
variable {α : Type}

/-- Every element has a list that holds it, the same one for all elements of the list. -/
structure Rings (α : Type) where
  row : α → List α
  place : α → Nat
  row_place : ∀ a, (row a)[place a]? = some a
  shared : ∀ a, ∀ b ∈ row a, row b = row a
  nodup : ∀ a, (row a).Nodup

namespace Rings
variable (R : Rings α)

theorem place_lt (a : α) : R.place a < (R.row a).length := (List.getElem?_eq_some_iff.mp (R.row_place a)).1

theorem length_pos (a : α) : 0 < (R.row a).length := Nat.zero_lt_of_lt (R.place_lt a)

/-- The element that many places on. -/
def ahead (k : Nat) (a : α) : α := (R.row a).get ⟨(R.place a + k) % (R.row a).length, Nat.mod_lt _ (R.length_pos a)⟩

theorem getElem?_ahead (k : Nat) (a : α) : (R.row a)[(R.place a + k) % (R.row a).length]? = some (R.ahead k a) :=
  List.getElem?_eq_getElem (Nat.mod_lt _ (R.length_pos a))

theorem ahead_mem (k : Nat) (a : α) : R.ahead k a ∈ R.row a := List.get_mem _ _

theorem row_ahead (k : Nat) (a : α) : R.row (R.ahead k a) = R.row a := R.shared a _ (R.ahead_mem k a)

theorem place_unique {a b : α} {i : Nat} (h : (R.row a)[i]? = some b) : R.place b = i := by
  have hself := R.row_place b
  rw [R.shared a b (List.mem_of_getElem? h)] at hself
  obtain ⟨hlt, -⟩ := List.getElem?_eq_some_iff.mp h
  exact ((List.getElem?_inj hlt (R.nodup a)).mp (h.trans hself.symm)).symm

theorem place_ahead (k : Nat) (a : α) : R.place (R.ahead k a) = (R.place a + k) % (R.row a).length :=
  R.place_unique (R.getElem?_ahead k a)

theorem eq_of_place {a b : α} (hmem : b ∈ R.row a) (hplace : R.place b = R.place a) : b = a := by
  have hb := R.row_place b
  rw [R.shared a b hmem, hplace, R.row_place a] at hb
  exact (Option.some.inj hb).symm

theorem ahead_ahead (j k : Nat) (a : α) : R.ahead j (R.ahead k a) = R.ahead (k + j) a := by
  refine R.eq_of_place ?_ ?_
  · rw [R.row_ahead, ← R.row_ahead k a]
    exact R.ahead_mem j _
  · rw [R.place_ahead, R.row_ahead, R.place_ahead, R.place_ahead, Nat.mod_add_mod, Nat.add_assoc]

theorem ahead_eq_self_iff {k : Nat} {a : α} : R.ahead k a = a ↔ (R.row a).length ∣ k := by
  have hplace : (R.place a) % (R.row a).length = R.place a := Nat.mod_eq_of_lt (R.place_lt a)
  constructor
  · intro h
    have hback : (R.place a + k) % (R.row a).length = R.place a := by rw [← R.place_ahead, h]
    rw [← Nat.modEq_zero_iff_dvd]
    refine Nat.ModEq.add_left_cancel' (R.place a) ?_
    rw [Nat.ModEq, hback, Nat.add_zero, hplace]
  · intro h
    refine R.eq_of_place (R.ahead_mem k a) ?_
    rw [R.place_ahead, Nat.add_mod, Nat.mod_eq_zero_of_dvd h, Nat.add_zero, Nat.mod_mod, hplace]

theorem exists_ahead {a b : α} (h : b ∈ R.row a) : ∃ k, R.ahead k a = b := by
  have hb := R.place_lt b
  rw [R.shared a b h] at hb
  have ha := R.place_lt a
  refine ⟨(R.row a).length - R.place a + R.place b, ?_⟩
  have hmem : R.ahead ((R.row a).length - R.place a + R.place b) a ∈ R.row b := by
    rw [R.shared a b h]
    exact R.ahead_mem _ a
  refine R.eq_of_place hmem ?_
  rw [R.place_ahead, ← Nat.add_assoc, Nat.add_sub_cancel' ha.le, Nat.add_mod_left, Nat.mod_eq_of_lt hb]

theorem ahead_length (a : α) : R.ahead (R.row a).length a = a := R.ahead_eq_self_iff.mpr dvd_rfl

theorem behind_ahead (a : α) : R.ahead ((R.row (R.ahead 1 a)).length - 1) (R.ahead 1 a) = a := by
  rw [R.row_ahead, R.ahead_ahead, Nat.add_sub_cancel' (R.length_pos a), R.ahead_length]

theorem ahead_behind (a : α) : R.ahead 1 (R.ahead ((R.row a).length - 1) a) = a := by
  rw [R.ahead_ahead, Nat.sub_add_cancel (R.length_pos a), R.ahead_length]

def shift : Equiv.Perm α where
  toFun := R.ahead 1
  invFun a := R.ahead ((R.row a).length - 1) a
  left_inv := R.behind_ahead
  right_inv := R.ahead_behind

theorem shift_apply (a : α) : R.shift a = R.ahead 1 a := rfl
theorem shift_inv_apply (a : α) : R.shift⁻¹ a = R.ahead ((R.row a).length - 1) a := rfl

theorem shift_pow (k : Nat) (a : α) : (R.shift ^ k) a = R.ahead k a := by
  induction k with
  | zero => exact (R.ahead_eq_self_iff.mpr (dvd_zero _)).symm
  | succ k ih => rw [pow_succ', Equiv.Perm.mul_apply, ih, R.shift_apply, R.ahead_ahead]

theorem row_shift_zpow (i : Int) (a : α) : R.row ((R.shift ^ i) a) = R.row a := by
  induction i using Int.induction_on generalizing a with
  | zero => rfl
  | succ i ih => rw [zpow_add_one, Equiv.Perm.mul_apply, ih, R.shift_apply, R.row_ahead]
  | pred i ih => rw [zpow_sub_one, Equiv.Perm.mul_apply, ih, R.shift_inv_apply, R.row_ahead]

/-- The cycles are the lists. -/
theorem sameCycle_iff {a b : α} : R.shift.SameCycle a b ↔ b ∈ R.row a := by
  constructor
  · rintro ⟨i, rfl⟩
    rw [← R.row_shift_zpow i a]
    exact List.mem_of_getElem? (R.row_place _)
  · intro h
    obtain ⟨k, rfl⟩ := R.exists_ahead h
    exact ⟨k, by rw [zpow_natCast, R.shift_pow]⟩

end Rings
end B70DualTP.Library
