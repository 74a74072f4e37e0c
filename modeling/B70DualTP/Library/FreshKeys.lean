import Mathlib.Data.List.Basic
import Mathlib.Data.List.Nodup
import Mathlib.Data.String.Basic

/-! Fresh keys from counters. Every base has a counter of its own, and a key shows the
base and the count. -/
namespace B70DualTP.Library
variable {B K : Type} [DecidableEq B]

def freshKeys (key : B → Nat → K) : List B → (B → Nat) → List K
  | [], _ => []
  | b :: bs, counter => key b (counter b) :: freshKeys key bs (Function.update counter b (counter b + 1))

/-- A later key shows a count that its base has not had before. -/
theorem mem_freshKeys {key : B → Nat → K} {bs : List B} {counter : B → Nat} {k : K}
    (h : k ∈ freshKeys key bs counter) : ∃ b n, counter b ≤ n ∧ k = key b n := by
  induction bs generalizing counter with
  | nil => cases h
  | cons b bs ih =>
    rcases List.mem_cons.mp h with rfl | h
    · exact ⟨b, counter b, le_rfl, rfl⟩
    · obtain ⟨b', n, hn, hk⟩ := ih h
      refine ⟨b', n, ?_, hk⟩
      by_cases hb : b' = b
      · subst hb
        rw [Function.update_self] at hn
        omega
      · rwa [Function.update_of_ne hb] at hn

/-- If a key can be read back, then no key is made twice. -/
theorem freshKeys_nodup {key : B → Nat → K} (hkey : Function.Injective2 key) (bs : List B) (counter : B → Nat) :
    (freshKeys key bs counter).Nodup := by
  induction bs generalizing counter with
  | nil => exact List.nodup_nil
  | cons b bs ih =>
    refine List.nodup_cons.mpr ⟨?_, ih _⟩
    intro h
    obtain ⟨b', n, hn, hk⟩ := mem_freshKeys h
    obtain ⟨rfl, rfl⟩ := hkey hk
    rw [Function.update_self] at hn
    omega

/-- A text is taken apart at its last separator. -/
theorem append_cons_inj_of_notMem_right {α : Type} {c : α} {xs xs' ys ys' : List α} (hys : c ∉ ys)
    (hys' : c ∉ ys') (h : xs ++ c :: ys = xs' ++ c :: ys') : xs = xs' ∧ ys = ys' := by
  rcases List.append_eq_append_iff.mp h with ⟨zs, rfl, hz⟩ | ⟨zs, rfl, hz⟩
  · cases zs with
    | nil => exact ⟨by simp, by simpa using hz⟩
    | cons z zs =>
      have hmem : c ∈ ys := by
        rw [(List.cons.inj hz).2]
        simp
      exact absurd hmem hys
  · cases zs with
    | nil => exact ⟨by simp, by simpa using hz.symm⟩
    | cons z zs =>
      have hmem : c ∈ ys' := by
        rw [(List.cons.inj hz).2]
        simp
      exact absurd hmem hys'

/-- The base, a colon and the count in decimal. -/
def numbered (base : String) (count : Nat) : String := s!"{base}:{count}"

theorem toList_numbered (base : String) (count : Nat) :
    (numbered base count).toList = base.toList ++ ':' :: Nat.toDigits 10 count := by
  change (toString base ++ toString ":" ++ Nat.repr count).toList = _
  rw [String.toList_append, String.toList_append, Nat.toList_repr, List.append_assoc]
  rfl

/-- A base without a colon is what comes before the first one. -/
theorem takeWhile_numbered {base : String} (hbase : ':' ∉ base.toList) (count : Nat) :
    (numbered base count).toList.takeWhile (· ≠ ':') = base.toList := by
  have hinside : ∀ c ∈ base.toList, decide (c ≠ ':') = true :=
    fun c hc => decide_eq_true fun heq => hbase (heq ▸ hc)
  rw [toList_numbered, List.takeWhile_append_of_pos hinside]
  simp

private theorem colon_notMem_toDigits (count : Nat) : ':' ∉ Nat.toDigits 10 count := by
  intro h
  have hdigit := Nat.isDigit_of_mem_toDigits (by decide) (by decide) h
  exact absurd hdigit (by decide)

/-- Whatever the base looks like, it and the count can be read back. -/
theorem numbered_injective2 : Function.Injective2 numbered := by
  intro base base' count count' h
  have hlist := congrArg String.toList h
  rw [toList_numbered, toList_numbered] at hlist
  obtain ⟨hbase, hcount⟩ := append_cons_inj_of_notMem_right (colon_notMem_toDigits count)
    (colon_notMem_toDigits count') hlist
  refine ⟨String.toList_injective hbase, ?_⟩
  rw [← Nat.ofDigitChars_ten_toDigits (n := count), hcount, Nat.ofDigitChars_ten_toDigits]

end B70DualTP.Library
