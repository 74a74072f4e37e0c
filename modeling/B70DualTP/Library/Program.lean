import Mathlib.Algebra.GroupWithZero.Nat
import Mathlib.Tactic.Choose

/-! Programs that call an environment, their weakest preconditions, lockstep runs
of a group of such programs, and simulation between two call alphabets. -/
namespace B70DualTP.Library
variable {C D : Type} {R : C → Type} {S : D → Type} {A B : Type}

/-- A program has returned, or it makes a call and continues with the reply. -/
inductive Prog (C : Type) (R : C → Type) (A : Type) where
  | ret (a : A) : Prog C R A
  | call (c : C) (k : R c → Prog C R A) : Prog C R A

namespace Prog

protected def bind : Prog C R A → (A → Prog C R B) → Prog C R B
  | .ret a, f => f a
  | .call c k, f => .call c fun y => (k y).bind f

instance : Monad (Prog C R) where
  pure := .ret
  bind := Prog.bind

@[simp] theorem ret_bind (a : A) (f : A → Prog C R B) : (Prog.ret a >>= f) = f a := rfl
@[simp] theorem call_bind (c : C) (k : R c → Prog C R A) (f : A → Prog C R B) :
    (Prog.call c k >>= f) = .call c fun y => k y >>= f := rfl

protected theorem bind_ret (p : Prog C R A) : (p >>= fun a => .ret a) = p := by
  induction p with
  | ret a => rfl
  | call c k ih => rw [call_bind]; exact congrArg _ (funext ih)

protected theorem bind_assoc {E : Type} (p : Prog C R A) (f : A → Prog C R B) (g : B → Prog C R E) :
    (p >>= f >>= g) = p >>= fun a => f a >>= g := by
  induction p with
  | ret a => rfl
  | call c k ih => simp only [call_bind, ih]

/-- Every call satisfies P and every result satisfies Q, whatever the replies
that the environment is allowed to give. -/
def Ensures (answers : ∀ c, R c → Prop) (P : C → Prop) (Q : A → Prop) : Prog C R A → Prop
  | .ret a => Q a
  | .call c k => P c ∧ ∀ y, answers c y → (k y).Ensures answers P Q

variable {answers : ∀ c, R c → Prop} {P : C → Prop} {Q Q' : A → Prop}

@[simp] theorem ensures_call (c : C) (k : R c → Prog C R A) :
    (Prog.call c k).Ensures answers P Q ↔ P c ∧ ∀ y, answers c y → (k y).Ensures answers P Q := Iff.rfl

theorem ensures_bind (p : Prog C R A) (f : A → Prog C R B) (Q : B → Prop) :
    (p >>= f).Ensures answers P Q ↔ p.Ensures answers P (fun a => (f a).Ensures answers P Q) := by
  induction p with
  | ret a => exact Iff.rfl
  | call c k ih => simp only [call_bind, ensures_call, ih]

theorem Ensures.mono {p : Prog C R A} (h : p.Ensures answers P Q) (hQ : ∀ a, Q a → Q' a) :
    p.Ensures answers P Q' := by
  induction p with
  | ret a => exact hQ a h
  | call c k ih => exact ⟨h.1, fun y hy => ih y (h.2 y hy)⟩

/-- A group runs in lockstep: all members make a call, each receives its reply to
the whole row of calls. The trace lists the rows. A row that mixes a call with a
returned member has no successor: the caller waits forever. -/
inductive GroupRun {W : Nat} (meaning : (c : Fin W → C) → ∀ r, R (c r)) :
    (Fin W → Prog C R A) → List (Fin W → C) → (Fin W → A) → Prop where
  | done (a : Fin W → A) : GroupRun meaning (fun r => .ret (a r)) [] a
  | step (c : Fin W → C) (k : ∀ r, R (c r) → Prog C R A) {tr : List (Fin W → C)} {a : Fin W → A}
      (next : GroupRun meaning (fun r => k r (meaning c r)) tr a) :
      GroupRun meaning (fun r => .call (c r) (k r)) (c :: tr) a

section Lockstep
variable {W : Nat} {meaning : (c : Fin W → C) → ∀ r, R (c r)}

theorem GroupRun.of_ret {ps : Fin W → Prog C R A} {a : Fin W → A} (h : ∀ r, ps r = .ret (a r)) :
    GroupRun meaning ps [] a := by
  obtain rfl : ps = fun r => .ret (a r) := funext h
  exact .done a

theorem GroupRun.of_call {ps : Fin W → Prog C R A} {c : Fin W → C} {k : ∀ r, R (c r) → Prog C R A}
    (h : ∀ r, ps r = .call (c r) (k r)) {tr : List (Fin W → C)} {a : Fin W → A}
    (next : GroupRun meaning (fun r => k r (meaning c r)) tr a) : GroupRun meaning ps (c :: tr) a := by
  obtain rfl : ps = fun r => .call (c r) (k r) := funext h
  exact .step c k next

theorem GroupRun.of_replies {ps qs : Fin W → Prog C R A} {c : Fin W → C} {y : ∀ r, R (c r)}
    (hy : ∀ r, meaning c r = y r) (h : ∀ r, ∃ k, ps r = .call (c r) k ∧ k (y r) = qs r)
    {tr : List (Fin W → C)} {a : Fin W → A} (next : GroupRun meaning qs tr a) : GroupRun meaning ps (c :: tr) a := by
  choose k hk hq using h
  refine .of_call hk ?_
  obtain rfl : qs = fun r => k r (meaning c r) := funext fun r => by rw [hy, hq]
  exact next

theorem GroupRun.bind {ps : Fin W → Prog C R A} {f : Fin W → A → Prog C R B}
    {tr tr' : List (Fin W → C)} {a : Fin W → A} {b : Fin W → B} (h : GroupRun meaning ps tr a)
    (h' : GroupRun meaning (fun r => f r (a r)) tr' b) :
    GroupRun meaning (fun r => ps r >>= f r) (tr ++ tr') b := by
  induction h with
  | done a => exact h'
  | step c k _ ih => exact .step c (fun r y => k r y >>= f r) (ih h')

/-- A nonempty group has at most one run from given programs. -/
theorem GroupRun.unique [NeZero W] {ps : Fin W → Prog C R A} {tr tr' : List (Fin W → C)}
    {a a' : Fin W → A} (h : GroupRun meaning ps tr a) (h' : GroupRun meaning ps tr' a') :
    tr = tr' ∧ a = a' := by
  induction h generalizing tr' a' with
  | done a =>
    generalize hp : (fun r => Prog.ret (a r) : Fin W → Prog C R A) = ps at h'
    cases h' with
    | done a' => exact ⟨rfl, funext fun r => Prog.ret.inj (congrFun hp r)⟩
    | step c k _ => cases congrFun hp 0
  | step c k _ ih =>
    generalize hp : (fun r => Prog.call (c r) (k r) : Fin W → Prog C R A) = ps at h'
    cases h' with
    | done a' => cases congrFun hp 0
    | step c' k' next =>
      obtain rfl : c = c' := funext fun r => (Prog.call.inj (congrFun hp r)).1
      obtain rfl : k = k' := funext fun r => eq_of_heq (Prog.call.inj (congrFun hp r)).2
      obtain ⟨rfl, rfl⟩ := ih next
      exact ⟨rfl, rfl⟩

/-- The first row of a run in which a member is about to make a call. -/
theorem GroupRun.head_of_call {ps : Fin W → Prog C R A} {tr : List (Fin W → C)} {a : Fin W → A}
    (h : GroupRun meaning ps tr a) {r : Fin W} {c : C} {k : R c → Prog C R A} (hr : ps r = .call c k) :
    ∃ row rest, tr = row :: rest ∧ row r = c := by
  cases h with
  | done a => cases hr
  | step row k' _ => exact ⟨row, _, rfl, (Prog.call.inj hr).1⟩

/-- What each member ensures of its own calls holds of the rows of a run. -/
theorem GroupRun.rows {ps : Fin W → Prog C R A} {tr : List (Fin W → C)} {a : Fin W → A} {K : Fin W → C → Prop}
    (h : GroupRun meaning ps tr a) (hp : ∀ r, (ps r).Ensures (fun _ _ => True) (K r) fun _ => True) :
    ∀ c ∈ tr, ∀ r, K r (c r) := by
  induction h with
  | done a => exact fun _ hc => by cases hc
  | step c k _ ih =>
    exact List.forall_mem_cons.mpr ⟨fun r => (hp r).1, ih fun r => (hp r).2 _ trivial⟩

end Lockstep

/-- A way to make every call of one alphabet with a call of another, and to read
the replies of the first as replies of the second. -/
structure Translation (C : Type) (R : C → Type) (D : Type) (S : D → Type) where
  call : C → D
  reply : ∀ c, R c → S (call c)

/-- The first program makes the translated calls of the second, and treats each
translated reply that the environment may give as the second treats the reply itself. -/
inductive Simulates (T : Translation C R D S) (answers : ∀ c, R c → Prop) (P : C → Prop) :
    Prog D S A → Prog C R A → Prop where
  | ret (a : A) : Simulates T answers P (.ret a) (.ret a)
  | call {c : C} {k : S (T.call c) → Prog D S A} {k' : R c → Prog C R A} (hc : P c)
      (h : ∀ y, answers c y → Simulates T answers P (k (T.reply c y)) (k' y)) :
      Simulates T answers P (.call (T.call c) k) (.call c k')

section Simulation
variable {T : Translation C R D S} {W : Nat} {meaning : (c : Fin W → C) → ∀ r, R (c r)}
  {meaning' : (d : Fin W → D) → ∀ r, S (d r)}

theorem Simulates.bind {p : Prog D S A} {q : Prog C R A} {f : A → Prog D S B} {g : A → Prog C R B}
    (h : Simulates T answers P p q) (hf : ∀ a, Simulates T answers P (f a) (g a)) :
    Simulates T answers P (p >>= f) (q >>= g) := by
  induction h with
  | ret a => exact hf a
  | call hc _ ih => exact .call hc ih

private theorem Simulates.ret_right {p : Prog D S A} {a : A} (h : Simulates T answers P p (.ret a)) :
    p = .ret a := by
  cases h with
  | ret a => rfl

private theorem Simulates.ret_left {q : Prog C R A} {a : A} (h : Simulates T answers P (.ret a) q) :
    q = .ret a := by
  cases h with
  | ret a => rfl

private theorem Simulates.call_right {p : Prog D S A} {c : C} {k' : R c → Prog C R A}
    (h : Simulates T answers P p (.call c k')) : ∃ k, p = .call (T.call c) k ∧ P c ∧
      ∀ y, answers c y → Simulates T answers P (k (T.reply c y)) (k' y) := by
  cases h with
  | call hc h => exact ⟨_, rfl, hc, h⟩

private theorem Simulates.call_left {d : D} {k : S d → Prog D S A} {q : Prog C R A}
    (h : Simulates T answers P (.call d k) q) : ∃ (c : C) (k' : R c → Prog C R A) (hd : T.call c = d),
      q = .call c k' ∧ P c ∧ ∀ y, answers c y → Simulates T answers P (k (hd ▸ T.reply c y)) (k' y) := by
  cases h with
  | call hc h => exact ⟨_, _, rfl, rfl, hc, h⟩

/-- The translation carries a row of calls that satisfy P to a row whose replies are
the translated replies. -/
structure Carries (T : Translation C R D S) (answers : ∀ c, R c → Prop) (P : C → Prop)
    (meaning : (c : Fin W → C) → ∀ r, R (c r)) (meaning' : (d : Fin W → D) → ∀ r, S (d r)) : Prop where
  answer : ∀ c : Fin W → C, (∀ r, P (c r)) → ∀ r, answers (c r) (meaning c r)
  reply : ∀ c : Fin W → C, (∀ r, P (c r)) →
    ∀ r, meaning' (fun r => T.call (c r)) r = T.reply (c r) (meaning c r)

/-- Lockstep runs transfer along member-wise simulations. -/
theorem GroupRun.simulated (hm : Carries T answers P meaning meaning')
    {ps : Fin W → Prog C R A} {qs : Fin W → Prog D S A} {tr : List (Fin W → C)} {a : Fin W → A}
    (h : GroupRun meaning ps tr a) (hs : ∀ r, Simulates T answers P (qs r) (ps r)) :
    GroupRun meaning' qs (tr.map fun c r => T.call (c r)) a := by
  induction h generalizing qs with
  | done a => exact .of_ret fun r => (hs r).ret_right
  | step c k _ ih =>
    choose k' hq hc hk using fun r => (hs r).call_right
    refine .of_call hq (ih fun r => ?_)
    rw [hm.reply c hc r]
    exact hk r _ (hm.answer c hc r)

/-- The converse: a run of the simulating programs comes from a run of the others. -/
theorem GroupRun.of_simulated (hm : Carries T answers P meaning meaning')
    {ps : Fin W → Prog C R A} {qs : Fin W → Prog D S A} {tr : List (Fin W → D)} {a : Fin W → A}
    (h : GroupRun meaning' qs tr a) (hs : ∀ r, Simulates T answers P (qs r) (ps r)) :
    ∃ tr', GroupRun meaning ps tr' a := by
  induction h generalizing ps with
  | done a => exact ⟨[], .of_ret fun r => (hs r).ret_left⟩
  | step d k _ ih =>
    choose c k' hd hq hc hk using fun r => (hs r).call_left
    obtain rfl : (fun r => T.call (c r)) = d := funext hd
    obtain ⟨tr', hrun⟩ := @ih (fun r => k' r (meaning c r)) fun r => by
      have hr : Simulates T answers P (k r (T.reply (c r) (meaning c r))) (k' r (meaning c r)) :=
        hk r _ (hm.answer c hc r)
      rwa [← hm.reply c hc r] at hr
    exact ⟨c :: tr', .of_call hq hrun⟩

end Simulation
end Prog
end B70DualTP.Library
