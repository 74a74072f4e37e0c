import Mathlib.Logic.Basic

/-! Actions on a state that may raise: what was done before an exception stays done. -/
namespace B70DualTP.Library
variable {E S A B : Type}

def Action (E S A : Type) : Type := S → Except E A × S

namespace Action

protected def pure (a : A) : Action E S A := fun s => (.ok a, s)
def raise (e : E) : Action E S A := fun s => (.error e, s)

protected def bind (m : Action E S A) (f : A → Action E S B) : Action E S B := fun s =>
  match m s with
  | (.ok a, s') => f a s'
  | (.error e, s') => (.error e, s')

instance : Monad (Action E S) where
  pure := Action.pure
  bind := Action.bind

def lift (x : Except E A) : Action E S A := fun s => (x, s)

instance : MonadLift (Except E) (Action E S) := ⟨lift⟩

def get : Action E S S := fun s => (.ok s, s)
def modify (f : S → S) : Action E S Unit := fun s => (.ok (), f s)

/-- An action on a part of a larger state. -/
def on {T : Type} (view : T → S) (put : S → T → T) (m : Action E S A) : Action E T A := fun t =>
  ((m (view t)).1, put (m (view t)).2 t)

def tryFinally (m : Action E S A) (cleanup : Action E S Unit) : Action E S A := fun s =>
  match cleanup (m s).2 with
  | (.ok _, s') => ((m s).1, s')
  | (.error e, s') => (.error e, s')

@[simp] theorem pure_apply (a : A) (s : S) : (pure a : Action E S A) s = (.ok a, s) := rfl
@[simp] theorem raise_apply (e : E) (s : S) : (raise e : Action E S A) s = (.error e, s) := rfl
@[simp] theorem lift_apply (x : Except E A) (s : S) : (lift x : Action E S A) s = (x, s) := rfl
@[simp] theorem liftM_eq (x : Except E A) : (liftM x : Action E S A) = lift x := rfl
@[simp] theorem get_apply (s : S) : (get : Action E S S) s = (.ok s, s) := rfl
@[simp] theorem modify_apply (f : S → S) (s : S) : (modify f : Action E S Unit) s = (.ok (), f s) := rfl

theorem bind_apply (m : Action E S A) (f : A → Action E S B) (s : S) :
    (m >>= f) s = match m s with
      | (.ok a, s') => f a s'
      | (.error e, s') => (.error e, s') := rfl

theorem bind_ok {m : Action E S A} {f : A → Action E S B} {s s' : S} {a : A} (h : m s = (.ok a, s')) :
    (m >>= f) s = f a s' := by rw [bind_apply, h]

theorem bind_error {m : Action E S A} {f : A → Action E S B} {s s' : S} {e : E} (h : m s = (.error e, s')) :
    (m >>= f) s = (.error e, s') := by rw [bind_apply, h]

theorem bind_returns {m : Action E S A} {f : A → Action E S B} {s s'' : S} {b : B} (h : (m >>= f) s = (.ok b, s'')) :
    ∃ a s', m s = (.ok a, s') ∧ f a s' = (.ok b, s'') := by
  rw [bind_apply] at h
  rcases hm : m s with ⟨_ | a, s'⟩ <;> rw [hm] at h
  · cases h
  · exact ⟨a, s', rfl, h⟩

theorem lift_returns {x : Except E A} {s s' : S} {a : A} (h : (lift x : Action E S A) s = (.ok a, s')) :
    x = .ok a ∧ s' = s := ⟨congrArg Prod.fst h, (congrArg Prod.snd h).symm⟩

/-- From a state with I and P, the action keeps I, raise or return, and returns with Q. -/
def Triple (I P : S → Prop) (m : Action E S A) (Q : A → S → Prop) : Prop :=
  ∀ s, I s → P s → I (m s).2 ∧ ∀ a, (m s).1 = .ok a → Q a (m s).2

/-- The action keeps I, from any state that has it. -/
def Keeps (I : S → Prop) (m : Action E S A) : Prop := ∀ s, I s → I (m s).2

variable {I P : S → Prop} {Q : A → S → Prop} {R : B → S → Prop}

theorem Triple.keeps {m : Action E S A} (h : Triple I (fun _ => True) m Q) : Keeps I m :=
  fun s hs => (h s hs trivial).1

theorem Keeps.triple {m : Action E S A} (h : Keeps I m) : Triple I P m fun _ _ => True :=
  fun s hs _ => ⟨h s hs, fun _ _ => trivial⟩

theorem keeps_pure (a : A) : Keeps I (pure a : Action E S A) := fun _ h => h
theorem keeps_raise (e : E) : Keeps I (raise e : Action E S A) := fun _ h => h
theorem keeps_lift (x : Except E A) : Keeps I (lift x : Action E S A) := fun _ h => h
theorem keeps_get : Keeps I (get : Action E S S) := fun _ h => h
theorem keeps_modify {f : S → S} (h : ∀ s, I s → I (f s)) : Keeps I (modify f : Action E S Unit) := h

theorem keeps_bind {m : Action E S A} {f : A → Action E S B} (hm : Keeps I m) (hf : ∀ a, Keeps I (f a)) :
    Keeps I (m >>= f) := by
  intro s hs
  have h := hm s hs
  rw [bind_apply]
  rcases hc : m s with ⟨_ | a, s'⟩ <;> rw [hc] at h
  · exact h
  · exact hf a s' h

theorem triple_of_fact {p : Prop} {m : Action E S A} (h : p → Triple I (fun _ => True) m Q) :
    Triple I (fun _ => p) m Q := fun s hs hp => h hp s hs trivial

theorem triple_pure {a : A} (h : ∀ s, I s → P s → Q a s) : Triple I P (pure a : Action E S A) Q :=
  fun s hs hp => ⟨hs, fun b hb => by cases hb; exact h s hs hp⟩

theorem triple_raise (e : E) : Triple I P (raise e : Action E S A) Q := fun _ hs _ => ⟨hs, fun _ h => by cases h⟩

theorem triple_lift {x : Except E A} (h : ∀ a s, x = .ok a → I s → P s → Q a s) :
    Triple I P (lift x : Action E S A) Q := fun s hs hp => ⟨hs, fun a ha => h a s ha hs hp⟩

theorem triple_modify {f : S → S} {Q : Unit → S → Prop} (h : ∀ s, I s → P s → I (f s) ∧ Q () (f s)) :
    Triple I P (modify f : Action E S Unit) Q := fun s hs hp => ⟨(h s hs hp).1, fun _ _ => (h s hs hp).2⟩

theorem triple_bind {m : Action E S A} {f : A → Action E S B} (hm : Triple I P m Q)
    (hf : ∀ a, Triple I (Q a) (f a) R) : Triple I P (m >>= f) R := by
  intro s hs hp
  have h := hm s hs hp
  rw [bind_apply]
  rcases hc : m s with ⟨_ | a, s'⟩ <;> rw [hc] at h
  · exact ⟨h.1, fun _ hb => by cases hb⟩
  · exact hf a s' h.1 (h.2 a rfl)

/-- What the first action guarantees of its result is at hand in the second. -/
theorem keeps_bind_of {p : A → Prop} {m : Action E S A} {f : A → Action E S B}
    (hm : Triple I (fun _ => True) m fun a _ => p a) (hf : ∀ a, p a → Keeps I (f a)) : Keeps I (m >>= f) := by
  have hfact : ∀ a, Triple I (fun _ => p a) (f a) fun _ _ => True := fun a => triple_of_fact fun ha => (hf a ha).triple
  exact (triple_bind hm hfact).keeps

theorem Triple.mono {P' : S → Prop} {Q' : A → S → Prop} {m : Action E S A} (h : Triple I P m Q)
    (hP : ∀ s, P' s → P s) (hQ : ∀ a s, Q a s → Q' a s) : Triple I P' m Q' :=
  fun s hs hp => ⟨(h s hs (hP s hp)).1, fun a ha => hQ a _ ((h s hs (hP s hp)).2 a ha)⟩

end Action
end B70DualTP.Library
