import B70DualTP.Library.Action

/-! Two runs of actions side by side: what relates their states before relates them after,
if both return. -/
namespace B70DualTP.Library
variable {E F S T A B C D : Type}

namespace Action

/-- From related states, two actions that both return end in related states, with related
results. -/
def Twin (R : S → T → Prop) (m : Action E S A) (n : Action F T B) (P : A → B → Prop) : Prop :=
  ∀ s t a b s' t', R s t → m s = (.ok a, s') → n t = (.ok b, t') → R s' t' ∧ P a b

variable {R : S → T → Prop} {P : A → B → Prop} {Q : C → D → Prop}

theorem twin_pure {a : A} {b : B} (h : P a b) : Twin R (pure a : Action E S A) (pure b : Action F T B) P := by
  intro s t a' b' s' t' hR hm hn
  cases hm
  cases hn
  exact ⟨hR, h⟩

theorem twin_raise_left (e : E) (n : Action F T B) : Twin R (raise e : Action E S A) n P := by
  intro s t a b s' t' _ hm
  cases hm

theorem twin_raise_right (m : Action E S A) (e : F) : Twin R m (raise e : Action F T B) P := by
  intro s t a b s' t' _ _ hn
  cases hn

theorem twin_get : Twin R (get : Action E S S) (get : Action F T T) R := by
  intro s t a b s' t' hR hm hn
  cases hm
  cases hn
  exact ⟨hR, hR⟩

theorem twin_lift {x : Except E A} {y : Except F B} (h : ∀ a b, x = .ok a → y = .ok b → P a b) :
    Twin R (lift x : Action E S A) (lift y : Action F T B) P := by
  intro s t a b s' t' hR hm hn
  obtain ⟨hx, rfl⟩ := lift_returns hm
  obtain ⟨hy, rfl⟩ := lift_returns hn
  exact ⟨hR, h a b hx hy⟩

theorem twin_modify {f : S → S} {g : T → T} (h : ∀ s t, R s t → R (f s) (g t)) :
    Twin R (modify f : Action E S Unit) (modify g : Action F T Unit) fun _ _ => True := by
  intro s t a b s' t' hR hm hn
  cases hm
  cases hn
  exact ⟨h s t hR, trivial⟩

theorem twin_bind {m : Action E S A} {n : Action F T B} {f : A → Action E S C} {g : B → Action F T D}
    (hm : Twin R m n P) (hf : ∀ a b, P a b → Twin R (f a) (g b) Q) : Twin R (m >>= f) (n >>= g) Q := by
  intro s t c d s'' t'' hR hl hr
  obtain ⟨a, s', hma, hfa⟩ := bind_returns hl
  obtain ⟨b, t', hnb, hgb⟩ := bind_returns hr
  obtain ⟨hR', hP⟩ := hm s t a b s' t' hR hma hnb
  exact hf a b hP s' t' c d s'' t'' hR' hfa hgb

/-- Actions on parts of larger states, which relate when their parts do. -/
theorem twin_on {S' T' : Type} {view : S' → S} {put : S → S' → S'} {view' : T' → T} {put' : T → T' → T'}
    (hview : ∀ s u, view (put s u) = s) (hview' : ∀ t u, view' (put' t u) = t) {m : Action E S A}
    {n : Action F T B} (h : Twin R m n P) :
    Twin (fun u v => R (view u) (view' v)) (on view put m) (on view' put' n) P := by
  intro u v a b u' v' hR hm hn
  obtain ⟨hma, rfl⟩ := Prod.mk.inj hm
  obtain ⟨hnb, rfl⟩ := Prod.mk.inj hn
  have hpart := h (view u) (view' v) a b _ _ hR (Prod.ext hma rfl) (Prod.ext hnb rfl)
  simpa only [hview, hview'] using hpart

/-- Actions that keep the part that matters of their own states. -/
theorem twin_of_keeps {X Y : Type} {f : S → X} {g : T → Y} {R : X → Y → Prop} {m : Action E S A} {n : Action F T B}
    (hm : ∀ s, f (m s).2 = f s) (hn : ∀ t, g (n t).2 = g t) :
    Twin (fun s t => R (f s) (g t)) m n fun _ _ => True := by
  intro s t a b s' t' hR hma hnb
  have hs := hm s
  have ht := hn t
  rw [hma] at hs
  rw [hnb] at ht
  refine ⟨?_, trivial⟩
  simp only at hs ht ⊢
  rw [hs, ht]
  exact hR

end Action
end B70DualTP.Library
