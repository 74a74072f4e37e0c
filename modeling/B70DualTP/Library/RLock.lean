import Mathlib.Tactic.ByContra

/-! A reentrant lock: its owner may take it again, the others wait until it has been given back as
often as it was taken. -/
namespace B70DualTP.Library
variable {ι : Type}

/-- Who holds the lock, and how often it has been taken. -/
structure RLock (ι : Type) where
  owner : Option ι
  count : Nat
  wf : owner.isSome = true ↔ 0 < count

namespace RLock

def free : RLock ι := ⟨none, 0, by simp⟩

/-- The owner keeps the lock after the first of several releases. -/
theorem wf_pred {l : RLock ι} {t : ι} (h : 1 < l.count) : (some t).isSome = true ↔ 0 < l.count - 1 :=
  iff_of_true rfl (Nat.sub_pos_of_lt h)

variable [DecidableEq ι]

/-- Where there is no result, the caller has to wait. -/
def acquire (l : RLock ι) (t : ι) : Option (RLock ι) :=
  match l.owner with
  | none => some ⟨some t, 1, by simp⟩
  | some u => if u = t then some ⟨some t, l.count + 1, by simp⟩ else none

/-- Only the owner may give the lock back. -/
def release (l : RLock ι) (t : ι) : Option (RLock ι) :=
  if l.owner = some t then
    if h : 1 < l.count then some ⟨some t, l.count - 1, wf_pred h⟩ else some free
  else none

/-- How often t holds the lock. -/
def depth (l : RLock ι) (t : ι) : Nat := if l.owner = some t then l.count else 0

theorem depth_pos_iff {l : RLock ι} {t : ι} : 0 < l.depth t ↔ l.owner = some t := by
  rw [depth]
  split
  · rename_i h
    exact iff_of_true (l.wf.mp (by rw [h]; rfl)) h
  · rename_i h
    exact iff_of_false (Nat.lt_irrefl 0) h

/-- Two threads never hold the lock at once. -/
theorem owner_unique {l : RLock ι} {t u : ι} (ht : 0 < l.depth t) (hu : 0 < l.depth u) : t = u := by
  rw [depth_pos_iff] at ht hu
  exact Option.some.inj (ht.symm.trans hu)

theorem depth_acquire {l l' : RLock ι} {t : ι} (h : l.acquire t = some l') (u : ι) :
    l'.depth u = l.depth u + if u = t then 1 else 0 := by
  rw [acquire] at h
  split at h
  · rename_i hfree
    cases h
    by_cases hu : u = t
    · subst hu
      simp [depth, hfree]
    · simp [depth, hfree, hu, Ne.symm hu]
  · rename_i owner howner
    split at h
    · rename_i hsame
      subst hsame
      cases h
      by_cases hu : u = owner
      · subst hu
        simp [depth, howner]
      · simp [depth, howner, hu, Ne.symm hu]
    · cases h

/-- The lock can be taken where nobody else holds it. -/
theorem exists_acquire {l : RLock ι} {t : ι} (h : ∀ u, u ≠ t → l.depth u = 0) : ∃ l', l.acquire t = some l' := by
  rw [acquire]
  split
  · exact ⟨_, rfl⟩
  · rename_i owner howner
    have hsame : owner = t := by
      by_contra hne
      have hpos := depth_pos_iff.mpr howner
      rw [h owner hne] at hpos
      exact Nat.lt_irrefl 0 hpos
    exact ⟨_, if_pos hsame⟩

theorem depth_release {l l' : RLock ι} {t : ι} (h : l.release t = some l') (u : ι) :
    l.depth u = l'.depth u + if u = t then 1 else 0 := by
  rw [release] at h
  split at h
  · rename_i howner
    have hpos : 0 < l.count := l.wf.mp (by rw [howner]; rfl)
    split at h
    · cases h
      by_cases hu : u = t
      · subst hu
        simp [depth, howner]
        omega
      · simp [depth, howner, hu, Ne.symm hu]
    · cases h
      have hone : l.count = 1 := by omega
      by_cases hu : u = t
      · subst hu
        simp [depth, free, howner, hone]
      · simp [depth, free, howner, hu, Ne.symm hu]
  · cases h

theorem exists_release {l : RLock ι} {t : ι} (h : 0 < l.depth t) : ∃ l', l.release t = some l' := by
  rw [release, if_pos (depth_pos_iff.mp h)]
  split
  · exact ⟨_, rfl⟩
  · exact ⟨_, rfl⟩

end RLock
end B70DualTP.Library
