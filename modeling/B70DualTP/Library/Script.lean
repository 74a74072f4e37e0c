import B70DualTP.Library.Program

/-! Programs that may also raise: an exception ends the program, and a call may
itself reply with one. -/
namespace B70DualTP.Library
variable {E C D : Type} {R : C → Type} {S : D → Type} {A B : Type}

def Script (E C : Type) (R : C → Type) (A : Type) : Type := Prog C R (Except E A)

namespace Script

def raise (e : E) : Script E C R A := Prog.ret (.error e)

protected def bind (m : Script E C R A) (f : A → Script E C R B) : Script E C R B :=
  Prog.bind m fun
    | .ok a => f a
    | .error e => raise e

instance : Monad (Script E C R) where
  pure a := Prog.ret (.ok a)
  bind := Script.bind

/-- Run a computation that makes no call. -/
def lift : Except E A → Script E C R A := Prog.ret

instance : MonadLift (Except E) (Script E C R) := ⟨lift⟩

/-- Make one call; if the reply is an exception, raise it. -/
def ask {R : C → Type} (c : C) : Script E C (fun c => Except E (R c)) (R c) := Prog.call c Prog.ret

theorem ask_bind {R : C → Type} (c : C) (f : R c → Script E C (fun c => Except E (R c)) A) :
    (ask c >>= f) = Prog.call c fun y => Script.bind (lift y) f := rfl

/-- Run a script; an exception becomes its value. -/
def attempt (m : Script E C R A) : Script E C R (Except E A) := Prog.bind m fun x => .ret (.ok x)

@[simp] theorem raise_bind (e : E) (f : A → Script E C R B) :
    ((raise e : Script E C R A) >>= f) = raise e := rfl
@[simp] theorem liftM_eq (x : Except E A) : (liftM x : Script E C R A) = lift x := rfl
@[simp] theorem lift_ok (a : A) : (lift (.ok a) : Script E C R A) = pure a := rfl

instance : LawfulMonad (Script E C R) := by
  refine LawfulMonad.mk' _ ?_ (fun _ _ => rfl) ?_
  · intro A p
    change Script E C R A at p
    induction p with
    | ret a => cases a <;> rfl
    | call c k ih => exact congrArg (Prog.call c) (funext ih)
  · intro A B F p f g
    change Script E C R A at p
    induction p with
    | ret a => cases a <;> rfl
    | call c k ih => exact congrArg (Prog.call c) (funext ih)

section Ensures
variable {answers : ∀ c, R c → Prop} {P : C → Prop}

/-- What a script ensures of its outcome, an exception included. -/
def Ensures (answers : ∀ c, R c → Prop) (P : C → Prop) (Q : Except E A → Prop) (m : Script E C R A) : Prop :=
  Prog.Ensures answers P Q m

@[simp] theorem ensures_bind (m : Script E C R A) (f : A → Script E C R B) (Q : Except E B → Prop) :
    (m >>= f).Ensures answers P Q ↔ m.Ensures answers P fun
      | .ok a => (f a).Ensures answers P Q
      | .error e => Q (.error e) := by
  apply (Prog.ensures_bind m _ Q).trans
  have hc : ∀ x : Except E A, Prog.Ensures answers P Q (match x with
      | .ok a => f a
      | .error e => raise e) ↔ (match x with
      | .ok a => (f a).Ensures answers P Q
      | .error e => Q (.error e)) := by
    intro x
    cases x <;> exact Iff.rfl
  exact ⟨fun h => h.mono fun x => (hc x).mp, fun h => h.mono fun x => (hc x).mpr⟩

end Ensures

@[simp] theorem ensures_ask {R : C → Type} {answers : ∀ c, Except E (R c) → Prop} {P : C → Prop} (c : C)
    (Q : Except E (R c) → Prop) :
    (ask c : Script E C (fun c => Except E (R c)) (R c)).Ensures answers P Q ↔
      P c ∧ ∀ y, answers c y → Q y := Iff.rfl

def Confined (answers : ∀ c, R c → Prop) (P : C → Prop) (m : Script E C R A) : Prop :=
  m.Ensures answers P fun _ => True

section Confined
variable {answers : ∀ c, R c → Prop} {P : C → Prop}

theorem confined_pure (a : A) : (pure a : Script E C R A).Confined answers P := trivial
theorem confined_raise (e : E) : (raise e : Script E C R A).Confined answers P := trivial
theorem confined_lift (x : Except E A) : (lift x : Script E C R A).Confined answers P := trivial

theorem confined_bind {m : Script E C R A} {f : A → Script E C R B} (hm : m.Confined answers P)
    (hf : ∀ a, (f a).Confined answers P) : (m >>= f).Confined answers P := by
  refine (ensures_bind m f _).mpr (Prog.Ensures.mono hm fun x _ => ?_)
  cases x with
  | ok a => exact hf a
  | error e => trivial

/-- Only the calls of the first part matter when the rest is confined in any case. -/
theorem confined_bind_iff {m : Script E C R A} {f : A → Script E C R B} (hf : ∀ a, (f a).Confined answers P) :
    (m >>= f).Confined answers P ↔ m.Confined answers P := by
  refine ⟨fun h => ?_, fun h => confined_bind h hf⟩
  exact Prog.Ensures.mono ((ensures_bind m f _).mp h) fun _ _ => trivial

theorem confined_lift_bind_iff {x : Except E A} {f : A → Script E C R B} :
    ((lift x : Script E C R A) >>= f).Confined answers P ↔ ∀ a, x = .ok a → (f a).Confined answers P := by
  cases x with
  | ok a => exact ⟨fun h b hb => by cases hb; exact h, fun h => h a rfl⟩
  | error e => exact ⟨fun _ b hb => (by cases hb), fun _ => confined_raise e⟩

end Confined

theorem confined_ask_bind_iff {R : C → Type} {answers : ∀ c, Except E (R c) → Prop} {P : C → Prop} {c : C}
    {f : R c → Script E C (fun c => Except E (R c)) B} :
    (ask c >>= f).Confined answers P ↔ P c ∧ ∀ y, answers c (.ok y) → (f y).Confined answers P := by
  refine (ensures_bind _ f _).trans ((ensures_ask c _).trans (and_congr_right fun _ => ?_))
  constructor
  · exact fun h y hy => h (.ok y) hy
  · intro h y hy
    cases y with
    | ok y => exact h y hy
    | error e => trivial

section Lockstep
variable {R : C → Type} {W : Nat} {meaning : (c : Fin W → C) → ∀ r, Except E (R (c r))}

abbrev Runs (meaning : (c : Fin W → C) → ∀ r, Except E (R (c r)))
    (ms : Fin W → Script E C (fun c => Except E (R c)) A) (tr : List (Fin W → C))
    (a : Fin W → Except E A) : Prop := Prog.GroupRun meaning ms tr a

theorem runs_pure (a : Fin W → A) :
    Runs meaning (fun r => (pure (a r) : Script E C (fun c => Except E (R c)) A)) [] fun r => .ok (a r) :=
  .done _

theorem runs_raise (e : Fin W → E) :
    Runs meaning (fun r => (raise (e r) : Script E C (fun c => Except E (R c)) A)) [] fun r => .error (e r) :=
  .done _

theorem runs_ask {c : Fin W → C} {f : ∀ r, R (c r) → Script E C (fun c => Except E (R c)) A}
    {y : ∀ r, R (c r)} {tr : List (Fin W → C)} {a : Fin W → Except E A}
    (hy : ∀ r, meaning c r = .ok (y r)) (h : Runs meaning (fun r => f r (y r)) tr a) :
    Runs meaning (fun r => ask (c r) >>= f r) (c :: tr) a := by
  have hs : (fun r => (lift (meaning c r) : Script E C (fun c => Except E (R c)) _) >>= f r) =
      fun r => f r (y r) := by
    funext r
    rw [hy r]
    rfl
  refine Prog.GroupRun.of_call (fun r => rfl) ?_
  rw [Runs, ← hs] at h
  exact h

theorem runs_ask_error {c : Fin W → C} {f : ∀ r, R (c r) → Script E C (fun c => Except E (R c)) A}
    {e : Fin W → E} (hy : ∀ r, meaning c r = .error (e r)) :
    Runs meaning (fun r => ask (c r) >>= f r) [c] fun r => .error (e r) := by
  have hs : ∀ r, ((lift (meaning c r) : Script E C (fun c => Except E (R c)) _) >>= f r) =
      raise (e r) := by
    intro r
    rw [hy r]
    rfl
  exact Prog.GroupRun.of_call (fun r => rfl) (.of_ret hs)

theorem runs_bind {ms : Fin W → Script E C (fun c => Except E (R c)) A}
    {f : Fin W → A → Script E C (fun c => Except E (R c)) B} {tr tr' : List (Fin W → C)} {a : Fin W → A}
    {b : Fin W → Except E B} (h : Runs meaning ms tr fun r => .ok (a r))
    (h' : Runs meaning (fun r => f r (a r)) tr' b) : Runs meaning (fun r => ms r >>= f r) (tr ++ tr') b :=
  Prog.GroupRun.bind h h'

theorem runs_bind_error {ms : Fin W → Script E C (fun c => Except E (R c)) A}
    {f : Fin W → A → Script E C (fun c => Except E (R c)) B} {tr : List (Fin W → C)} {e : Fin W → E}
    (h : Runs meaning ms tr fun r => .error (e r)) :
    Runs meaning (fun r => ms r >>= f r) tr fun r => .error (e r) := by
  have hbind := Prog.GroupRun.bind h (f := fun r => fun
    | .ok a => f r a
    | .error e => raise e) (runs_raise e)
  rwa [List.append_nil] at hbind

theorem runs_attempt {ms : Fin W → Script E C (fun c => Except E (R c)) A} {tr : List (Fin W → C)}
    {a : Fin W → Except E A} (h : Runs meaning ms tr a) :
    Runs meaning (fun r => attempt (ms r)) tr fun r => .ok (a r) := by
  induction h with
  | done a => exact runs_pure a
  | step c k _ ih => exact .step c (fun r y => attempt (k r y)) ih

/-- A run ends with a value on every rank, and the values satisfy Q. -/
def Completes (meaning : (c : Fin W → C) → ∀ r, Except E (R (c r)))
    (ms : Fin W → Script E C (fun c => Except E (R c)) A) (Q : (Fin W → A) → Prop) : Prop :=
  ∃ tr a, Runs meaning ms tr (fun r => .ok (a r)) ∧ Q a

variable {Q : (Fin W → A) → Prop}

theorem Completes.mono {Q' : (Fin W → A) → Prop} {ms : Fin W → Script E C (fun c => Except E (R c)) A}
    (h : Completes meaning ms Q) (hQ : ∀ a, Q a → Q' a) : Completes meaning ms Q' := by
  obtain ⟨tr, a, hrun, ha⟩ := h
  exact ⟨tr, a, hrun, hQ a ha⟩

theorem completes_pure {a : Fin W → A} (h : Q a) :
    Completes meaning (fun r => (pure (a r) : Script E C (fun c => Except E (R c)) A)) Q :=
  ⟨[], a, runs_pure a, h⟩

theorem completes_ask {c : Fin W → C} {f : ∀ r, R (c r) → Script E C (fun c => Except E (R c)) A}
    {P : ∀ r, R (c r) → Prop} (hy : ∀ r, ∃ y, meaning c r = .ok y ∧ P r y)
    (h : ∀ y : ∀ r, R (c r), (∀ r, P r (y r)) → Completes meaning (fun r => f r (y r)) Q) :
    Completes meaning (fun r => ask (c r) >>= f r) Q := by
  choose y hy hP using hy
  obtain ⟨tr, a, hrun, hQ⟩ := h y hP
  exact ⟨_, a, runs_ask hy hrun, hQ⟩

theorem completes_lift {x : Fin W → Except E B} {f : Fin W → B → Script E C (fun c => Except E (R c)) A}
    {P : Fin W → B → Prop} (hx : ∀ r, ∃ b, x r = .ok b ∧ P r b)
    (h : ∀ b : Fin W → B, (∀ r, P r (b r)) → Completes meaning (fun r => f r (b r)) Q) :
    Completes meaning (fun r => lift (x r) >>= f r) Q := by
  choose b hb hP using hx
  have hs : (fun r => (lift (x r) : Script E C (fun c => Except E (R c)) B) >>= f r) = fun r => f r (b r) := by
    funext r
    rw [hb r]
    rfl
  rw [hs]
  exact h b hP

theorem completes_of_lift {x : Fin W → Except E A} {P : Fin W → A → Prop} (hx : ∀ r, ∃ a, x r = .ok a ∧ P r a)
    (hQ : ∀ a : Fin W → A, (∀ r, P r (a r)) → Q a) :
    Completes meaning (fun r => (lift (x r) : Script E C (fun c => Except E (R c)) A)) Q := by
  choose a ha hP using hx
  exact ⟨[], a, .of_ret fun r => congrArg Prog.ret (ha r), hQ a hP⟩

theorem completes_bind {ms : Fin W → Script E C (fun c => Except E (R c)) B}
    {fs : Fin W → B → Script E C (fun c => Except E (R c)) A} {P : (Fin W → B) → Prop}
    (hm : Completes meaning ms P) (hf : ∀ b, P b → Completes meaning (fun r => fs r (b r)) Q) :
    Completes meaning (fun r => ms r >>= fs r) Q := by
  obtain ⟨tr, b, hrun, hb⟩ := hm
  obtain ⟨tr', a, hrun', hQ⟩ := hf b hb
  exact ⟨_, a, runs_bind hrun hrun', hQ⟩

/-- A run all of whose rows satisfy K ends with values that satisfy Q. -/
def Finishes (meaning : (c : Fin W → C) → ∀ r, Except E (R (c r))) (K : (Fin W → C) → Prop)
    (ms : Fin W → Script E C (fun c => Except E (R c)) A) (Q : (Fin W → A) → Prop) : Prop :=
  ∃ tr a, Runs meaning ms tr (fun r => .ok (a r)) ∧ (∀ c ∈ tr, K c) ∧ Q a

section Finishes
variable {K : (Fin W → C) → Prop}

theorem finishes_pure {a : Fin W → A} (h : Q a) :
    Finishes meaning K (fun r => (pure (a r) : Script E C (fun c => Except E (R c)) A)) Q :=
  ⟨[], a, runs_pure a, fun _ h => (by cases h), h⟩

theorem finishes_ask {c : Fin W → C} {f : ∀ r, R (c r) → Script E C (fun c => Except E (R c)) A}
    {y : ∀ r, R (c r)} (hK : K c) (hy : ∀ r, meaning c r = .ok (y r))
    (h : Finishes meaning K (fun r => f r (y r)) Q) : Finishes meaning K (fun r => ask (c r) >>= f r) Q := by
  obtain ⟨tr, a, hrun, htr, hQ⟩ := h
  exact ⟨_, a, runs_ask hy hrun, List.forall_mem_cons.mpr ⟨hK, htr⟩, hQ⟩

theorem finishes_lift {x : Fin W → Except E B} {f : Fin W → B → Script E C (fun c => Except E (R c)) A}
    {P : Fin W → B → Prop} (hx : ∀ r, ∃ b, x r = .ok b ∧ P r b)
    (h : ∀ b : Fin W → B, (∀ r, P r (b r)) → Finishes meaning K (fun r => f r (b r)) Q) :
    Finishes meaning K (fun r => lift (x r) >>= f r) Q := by
  choose b hb hP using hx
  simp only [hb, lift_ok, pure_bind]
  exact h b hP

theorem finishes_of_lift {x : Fin W → Except E A} {P : Fin W → A → Prop} (hx : ∀ r, ∃ a, x r = .ok a ∧ P r a)
    (hQ : ∀ a : Fin W → A, (∀ r, P r (a r)) → Q a) :
    Finishes meaning K (fun r => (lift (x r) : Script E C (fun c => Except E (R c)) A)) Q := by
  choose a ha hP using hx
  simp only [ha, lift_ok]
  exact finishes_pure (hQ a hP)

theorem finishes_bind {ms : Fin W → Script E C (fun c => Except E (R c)) B}
    {fs : Fin W → B → Script E C (fun c => Except E (R c)) A} {P : (Fin W → B) → Prop}
    (hm : Finishes meaning K ms P) (hf : ∀ b, P b → Finishes meaning K (fun r => fs r (b r)) Q) :
    Finishes meaning K (fun r => ms r >>= fs r) Q := by
  obtain ⟨tr, b, hrun, htr, hb⟩ := hm
  obtain ⟨tr', a, hrun', htr', hQ⟩ := hf b hb
  exact ⟨_, a, runs_bind hrun hrun', List.forall_mem_append.mpr ⟨htr, htr'⟩, hQ⟩

end Finishes

theorem not_completes_of_raises [NeZero W] {ms : Fin W → Script E C (fun c => Except E (R c)) A}
    {tr : List (Fin W → C)} {e : Fin W → E} (h : Runs meaning ms tr fun r => .error (e r)) :
    ¬ Completes meaning ms Q := by
  rintro ⟨tr', a, hrun, -⟩
  have he := congrFun (h.unique hrun).2 0
  cases he

/-- What holds of the values of one completed run and of another holds of the same values. -/
theorem Completes.both [NeZero W] {ms : Fin W → Script E C (fun c => Except E (R c)) A}
    {Q' : (Fin W → A) → Prop} (h : Completes meaning ms Q) (h' : Completes meaning ms Q') : ∃ a, Q a ∧ Q' a := by
  obtain ⟨tr, a, hrun, ha⟩ := h
  obtain ⟨tr', a', hrun', ha'⟩ := h'
  have he : a = a' := funext fun r => Except.ok.inj (congrFun (hrun.unique hrun').2 r)
  exact ⟨a, ha, he ▸ ha'⟩

/-- All runs that complete do so with the same values. -/
theorem Completes.and_iff [NeZero W] {ms : Fin W → Script E C (fun c => Except E (R c)) A}
    {Q' : (Fin W → A) → Prop} {p : Prop} (h : Completes meaning ms Q) (hp : ∀ a, Q a → (Q' a ↔ p)) :
    Completes meaning ms Q' ↔ p := by
  obtain ⟨tr, a, hrun, ha⟩ := h
  constructor
  · rintro ⟨tr', a', hrun', ha'⟩
    have he : a = a' := funext fun r => Except.ok.inj (congrFun (hrun.unique hrun').2 r)
    exact (hp a ha).mp (he ▸ ha')
  · intro h
    exact ⟨tr, a, hrun, (hp a ha).mpr h⟩

end Lockstep

/-- Simulation between scripts; outcomes, exceptions included, are equal. -/
abbrev Simulates (T : Prog.Translation C R D S) (answers : ∀ c, R c → Prop) (P : C → Prop)
    (p : Script E D S A) (q : Script E C R A) : Prop := Prog.Simulates T answers P p q

section Simulation
variable {T : Prog.Translation C R D S} {answers : ∀ c, R c → Prop} {P : C → Prop}

theorem simulates_lift (x : Except E A) : Simulates T answers P (lift x : Script E D S A) (lift x) := .ret _

theorem simulates_bind {p : Script E D S A} {q : Script E C R A} {f : A → Script E D S B}
    {g : A → Script E C R B} (h : Simulates T answers P p q)
    (hf : ∀ a, Simulates T answers P (f a) (g a)) : Simulates T answers P (p >>= f) (q >>= g) := by
  apply Prog.Simulates.bind h
  intro a
  cases a with
  | ok a => exact hf a
  | error e => exact .ret _

/-- Both scripts start with the same computation that makes no call. -/
theorem simulates_lift_bind {x : Except E A} {f : A → Script E D S B} {g : A → Script E C R B}
    (hf : ∀ a, x = .ok a → Simulates T answers P (f a) (g a)) :
    Simulates T answers P (lift x >>= f) (lift x >>= g) := by
  cases x with
  | ok a => exact hf a rfl
  | error e => exact .ret _

/-- The same, where one script first maps the value of that computation. -/
theorem simulates_map_bind {A' : Type} {x : Except E A} {h : A → A'} {f : A' → Script E D S B}
    {g : A → Script E C R B} (hf : ∀ a, x = .ok a → Simulates T answers P (f (h a)) (g a)) :
    Simulates T answers P (lift (x.map h) >>= f) (lift x >>= g) := by
  cases x with
  | ok a => exact hf a rfl
  | error e => exact .ret _

end Simulation
end Script
end B70DualTP.Library
