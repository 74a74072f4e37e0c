import Mathlib.Logic.Relation

/-! Step relations with the diamond property: one run to a final state decides every run. -/
namespace B70DualTP.Library
variable {S : Type} {r : S → S → Prop} {a b z : S} {n k : Nat}

/-- Two different steps from one state can each be followed by the other. -/
def Diamond (r : S → S → Prop) : Prop := ∀ ⦃a b c⦄, r a b → r a c → b = c ∨ ∃ d, r b d ∧ r c d

inductive Steps (r : S → S → Prop) : Nat → S → S → Prop where
  | refl (a : S) : Steps r 0 a a
  | head {n : Nat} {a b c : S} (hab : r a b) (hbc : Steps r n b c) : Steps r (n + 1) a c

theorem Steps.of_reflTransGen (h : Relation.ReflTransGen r a b) : ∃ n, Steps r n a b := by
  induction h using Relation.ReflTransGen.head_induction_on with
  | refl => exact ⟨0, .refl _⟩
  | head hac _ ih =>
    obtain ⟨n, hn⟩ := ih
    exact ⟨n + 1, .head hac hn⟩

def Final (r : S → S → Prop) (z : S) : Prop := ∀ c, ¬ r z c

theorem Steps.eq_of_final (h : Steps r n a b) (ha : Final r a) : b = a := by
  cases h with
  | refl a => rfl
  | head hac _ => exact absurd hac (ha _)

/-- Any first step is one step of the way to the final state. -/
theorem Diamond.head (hr : Diamond r) (h : Steps r n a z) (hz : Final r z) (hab : r a b) :
    ∃ m, n = m + 1 ∧ Steps r m b z := by
  induction h generalizing b with
  | refl a => exact absurd hab (hz b)
  | @head n a c z hac hcz ih =>
    obtain rfl | ⟨d, hcd, hbd⟩ := hr hac hab
    · exact ⟨n, rfl, hcz⟩
    · obtain ⟨m, rfl, hdz⟩ := ih hz hcd
      exact ⟨m + 1, rfl, .head hbd hdz⟩

/-- Whatever steps are taken from a, the run ends, always in the same state, which
satisfies Q. -/
def Converges (r : S → S → Prop) (a : S) (Q : S → Prop) : Prop :=
  ∃ n z, Final r z ∧ Q z ∧ ∀ k b, Steps r k a b → k ≤ n ∧ Steps r (n - k) b z

theorem Diamond.converges {Q : S → Prop} (hr : Diamond r) (h : Relation.ReflTransGen r a z) (hz : Final r z)
    (hQ : Q z) : Converges r a Q := by
  obtain ⟨n, hn⟩ := Steps.of_reflTransGen h
  refine ⟨n, z, hz, hQ, fun k b hk => ?_⟩
  clear h
  induction hk generalizing n with
  | refl a => exact ⟨Nat.zero_le n, hn⟩
  | @head k a c b hac _ ih =>
    obtain ⟨m, rfl, hm⟩ := hr.head hn hz hac
    obtain ⟨hle, hbz⟩ := ih m hm
    exact ⟨Nat.succ_le_succ hle, by rwa [Nat.add_sub_add_right]⟩

theorem Steps.mono {r' : S → S → Prop} (h : Steps r n a b) (hr : ∀ a b, r a b → r' a b) : Steps r' n a b := by
  induction h with
  | refl a => exact .refl a
  | head hab _ ih => exact .head (hr _ _ hab) ih

/-- The steps between states with an invariant are all the steps there are. -/
theorem Steps.within {I : S → Prop} (hI : ∀ a b, I a → r a b → I b) (ha : I a) (h : Steps r n a b) :
    Steps (fun a b => I a ∧ r a b) n a b := by
  induction h with
  | refl a => exact .refl a
  | head hab _ ih => exact .head ⟨ha, hab⟩ (ih (hI _ _ ha hab))

theorem Steps.reflTransGen (h : Steps r n a b) : Relation.ReflTransGen r a b := by
  induction h with
  | refl a => exact .refl
  | head hab _ ih => exact .head hab ih

/-- It is enough that steps commute where an invariant holds. -/
theorem Diamond.converges_within {I Q : S → Prop} (hI : ∀ a b, I a → r a b → I b)
    (hr : Diamond fun a b => I a ∧ r a b) (ha : I a) (h : Relation.ReflTransGen r a z) (hz : Final r z) (hQ : Q z) :
    Converges r a Q := by
  obtain ⟨m, hm⟩ := Steps.of_reflTransGen h
  obtain ⟨n, z', -, rfl, hall⟩ := hr.converges (Q := fun z' => z' = z) (hm.within hI ha).reflTransGen
    (fun c hc => hz c hc.2) rfl
  refine ⟨n, z', hz, hQ, ?_⟩
  intro k b hk
  obtain ⟨hle, hrest⟩ := hall k b (hk.within hI ha)
  exact ⟨hle, hrest.mono fun _ _ hab => hab.2⟩

end B70DualTP.Library
