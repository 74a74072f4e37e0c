import Mathlib.Logic.Function.Basic

/-! Names that hold objects. Objects are numbered as they are made; some have been released,
and no name may be left with one of these. -/
namespace B70DualTP.Library
variable {H : Type}

/-- The object that each name holds, the number of the next object, and the released ones. -/
@[ext] structure Holding (H : Type) where
  holder : H → Option Nat
  next : Nat
  released : List Nat

namespace Holding
variable {share : H → H → Prop} {o : Holding H}

/-- Held objects are made and not released, and only sharing names hold one object together. -/
structure Sound (share : H → H → Prop) (o : Holding H) : Prop where
  made : ∀ {h i}, o.holder h = some i → i < o.next
  live : ∀ {h i}, o.holder h = some i → i ∉ o.released
  unmade : ∀ {i}, i ∈ o.released → i < o.next
  separate : ∀ {h h' i}, o.holder h = some i → o.holder h' = some i → h = h' ∨ share h h'

/-- An object that exists, and that no name holds. -/
structure Loose (o : Holding H) (i : Nat) : Prop where
  made : i < o.next
  live : i ∉ o.released
  unheld : ∀ h, o.holder h ≠ some i

def make (o : Holding H) : Holding H := { o with next := o.next + 1 }

theorem Sound.make (hs : o.Sound share) : o.make.Sound share where
  made hi := Nat.lt_succ_of_lt (hs.made hi)
  live := hs.live
  unmade hi := Nat.lt_succ_of_lt (hs.unmade hi)
  separate := hs.separate

theorem Sound.loose_make (hs : o.Sound share) : o.make.Loose o.next where
  made := Nat.lt_succ_self o.next
  live hi := Nat.lt_irrefl _ (hs.unmade hi)
  unheld _ hi := Nat.lt_irrefl _ (hs.made hi)

section Names
variable [DecidableEq H] {h h' : H}

def assign (h : H) (value : Option Nat) (o : Holding H) : Holding H :=
  { o with holder := Function.update o.holder h value }

private theorem assign_self (value : Option Nat) : (o.assign h value).holder h = value := by
  simp [assign]

private theorem assign_other (hne : h' ≠ h) (value : Option Nat) : (o.assign h value).holder h' = o.holder h' := by
  simp [assign, hne]

theorem Sound.clear (hs : o.Sound share) (h : H) : (o.assign h none).Sound share := by
  have hold : ∀ {h' i}, (o.assign h none).holder h' = some i → o.holder h' = some i := by
    intro h' i hi
    rcases eq_or_ne h' h with rfl | hne
    · rw [assign_self] at hi
      cases hi
    · rwa [assign_other hne] at hi
  exact ⟨fun hi => hs.made (hold hi), fun hi => hs.live (hold hi), hs.unmade,
    fun hi hi' => hs.separate (hold hi) (hold hi')⟩

theorem Sound.assign (hs : o.Sound share) {i : Nat} (hi : o.Loose i) (h : H) : (o.assign h (some i)).Sound share := by
  have hold : ∀ {h' j}, (o.assign h (some i)).holder h' = some j →
      (h' = h ∧ j = i) ∨ (h' ≠ h ∧ o.holder h' = some j) := by
    intro h' j hj
    rcases eq_or_ne h' h with rfl | hne
    · rw [assign_self] at hj
      exact .inl ⟨rfl, (Option.some.inj hj).symm⟩
    · rw [assign_other hne] at hj
      exact .inr ⟨hne, hj⟩
  refine ⟨fun hj => ?_, fun hj => ?_, hs.unmade, fun hj hj' => ?_⟩
  · rcases hold hj with ⟨-, rfl⟩ | ⟨-, hj⟩
    · exact hi.made
    · exact hs.made hj
  · rcases hold hj with ⟨-, rfl⟩ | ⟨-, hj⟩
    · exact hi.live
    · exact hs.live hj
  · rcases hold hj with ⟨rfl, rfl⟩ | ⟨-, hold₁⟩
    · rcases hold hj' with ⟨rfl, -⟩ | ⟨-, hold₂⟩
      · exact .inl rfl
      · exact absurd hold₂ (hi.unheld _)
    · rcases hold hj' with ⟨rfl, rfl⟩ | ⟨-, hold₂⟩
      · exact absurd hold₁ (hi.unheld _)
      · exact hs.separate hold₁ hold₂

theorem Sound.copy (hs : o.Sound share) (hto : share h h') (hfrom : share h' h)
    (hself : ∀ k, share h' k → k = h) : (o.assign h (o.holder h')).Sound share := by
  have hold : ∀ {k i}, (o.assign h (o.holder h')).holder k = some i →
      (k = h ∧ o.holder h' = some i) ∨ (k ≠ h ∧ o.holder k = some i) := by
    intro k i hi
    rcases eq_or_ne k h with rfl | hne
    · rw [assign_self] at hi
      exact .inl ⟨rfl, hi⟩
    · rw [assign_other hne] at hi
      exact .inr ⟨hne, hi⟩
  have hnear : ∀ {k i}, o.holder h' = some i → o.holder k = some i → k ≠ h → k = h' := by
    intro k i hi hk hne
    rcases hs.separate hi hk with rfl | hshare
    · rfl
    · exact absurd (hself k hshare) hne
  refine ⟨fun hi => ?_, fun hi => ?_, hs.unmade, fun hi hi' => ?_⟩
  · rcases hold hi with ⟨-, hi⟩ | ⟨-, hi⟩ <;> exact hs.made hi
  · rcases hold hi with ⟨-, hi⟩ | ⟨-, hi⟩ <;> exact hs.live hi
  · rcases hold hi with ⟨rfl, hold₁⟩ | ⟨hne, hold₁⟩
    · rcases hold hi' with ⟨rfl, -⟩ | ⟨hne, hold₂⟩
      · exact .inl rfl
      · exact .inr (hnear hold₁ hold₂ hne ▸ hto)
    · rcases hold hi' with ⟨rfl, hold₂⟩ | ⟨-, hold₂⟩
      · exact .inr (hnear hold₂ hold₁ hne ▸ hfrom)
      · exact hs.separate hold₁ hold₂

/-- Give a name a new object, or nothing. -/
def renew (h : H) (new : Bool) (o : Holding H) : Holding H :=
  if new then o.make.assign h (some o.next) else o.assign h none

theorem Sound.renew (hs : o.Sound share) (h : H) (new : Bool) : (o.renew h new).Sound share := by
  cases new with
  | false => exact hs.clear h
  | true => exact hs.make.assign hs.loose_make h

/-- Release what a name holds, and clear the name. -/
def drop (h : H) (o : Holding H) : Holding H :=
  { o.assign h none with released := (o.holder h).toList ++ o.released }

theorem Sound.drop (hs : o.Sound share)
    (halone : ∀ h' i, share h h' → o.holder h = some i → o.holder h' ≠ some i) : (o.drop h).Sound share := by
  have hclear := hs.clear h
  refine ⟨hclear.made, fun {h' i} hi hmem => ?_, fun {i} hi => ?_, hclear.separate⟩
  · rcases List.mem_append.mp hmem with hmem | hmem
    · have hdropped : o.holder h = some i := Option.mem_toList.mp hmem
      rcases eq_or_ne h' h with rfl | hne
      · rw [show (o.drop h').holder h' = none from assign_self none] at hi
        cases hi
      · have hi' : o.holder h' = some i := (assign_other hne none).symm.trans hi
        rcases hs.separate hdropped hi' with rfl | hshare
        · exact hne rfl
        · exact halone h' i hshare hdropped hi'
    · exact hclear.live hi hmem
  · rcases List.mem_append.mp hi with hi | hi
    · exact hs.made (Option.mem_toList.mp hi)
    · exact hs.unmade hi

end Names
end Holding
end B70DualTP.Library
