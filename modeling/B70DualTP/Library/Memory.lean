import B70DualTP.Library.Script
import Mathlib.Data.List.Range
import Mathlib.Order.Lattice
import Mathlib.Order.Nat

/-! Programs that call an environment and work on a memory of numbered storages: writing,
allocating, and the relation to scripts that pass values. -/
namespace B70DualTP.Library
variable {V : Type}

/-- Storages are numbered below next; each maps positions to values. -/
structure Memory (V : Type) where
  next : Nat
  cell : Nat → Nat → V

namespace Memory

def set (m : Memory V) (k i : Nat) (v : V) : Memory V where
  next := m.next
  cell := fun k' i' => if k' = k ∧ i' = i then v else m.cell k' i'

def write (m : Memory V) (k : Nat) (positions : List Nat) (vs : List V) : Memory V :=
  (positions.zip vs).foldl (fun m p => m.set k p.1 p.2) m

/-- A new storage that holds the values from position 0 on. -/
def alloc (m : Memory V) (default : V) (vs : List V) : Memory V where
  next := m.next + 1
  cell := fun k i => if k = m.next then vs.getD i default else m.cell k i

/-- The storages of m are in m' as they are in m. -/
def Extends (m m' : Memory V) : Prop := m.next ≤ m'.next ∧ ∀ k < m.next, m'.cell k = m.cell k

theorem Extends.refl (m : Memory V) : m.Extends m := ⟨le_rfl, fun _ _ => rfl⟩

theorem Extends.trans {m₁ m₂ m₃ : Memory V} (h : m₁.Extends m₂) (h' : m₂.Extends m₃) : m₁.Extends m₃ :=
  ⟨h.1.trans h'.1, fun k hk => (h'.2 k (hk.trans_le h.1)).trans (h.2 k hk)⟩

theorem extends_alloc (m : Memory V) (default : V) (vs : List V) : m.Extends (m.alloc default vs) :=
  ⟨Nat.le_succ _, fun _ hk => funext fun _ => if_neg hk.ne⟩

@[simp] theorem write_next (m : Memory V) (k : Nat) (positions : List Nat) (vs : List V) :
    (m.write k positions vs).next = m.next := by
  rw [write]
  generalize positions.zip vs = ps
  induction ps generalizing m with
  | nil => rfl
  | cons p ps ih => exact ih (m.set k p.1 p.2)

theorem write_other (m : Memory V) {k k' i : Nat} {positions : List Nat} {vs : List V}
    (h : k' = k → i ∉ positions) : (m.write k positions vs).cell k' i = m.cell k' i := by
  have hps : k' = k → ∀ p ∈ positions.zip vs, i ≠ p.1 := by
    rintro hk p hp rfl
    exact h hk (List.of_mem_zip hp).1
  rw [write]
  generalize positions.zip vs = ps at hps
  induction ps generalizing m with
  | nil => rfl
  | cons p ps ih =>
    refine (ih _ fun hk q hq => hps hk q (List.mem_cons_of_mem _ hq)).trans ?_
    simp only [set]
    rw [if_neg]
    rintro ⟨hk, hi⟩
    exact hps hk p List.mem_cons_self hi

theorem write_extends (m m' : Memory V) {k : Nat} (hk : m.next ≤ k) (h : m.Extends m') (positions : List Nat)
    (vs : List V) : m.Extends (m'.write k positions vs) := by
  refine ⟨by simpa using h.1, fun k' hk' => funext fun i => ?_⟩
  rw [write_other m' fun he => absurd he (by omega), h.2 k' hk']

theorem write_self (m : Memory V) (k : Nat) (positions : List Nat) :
    m.write k positions (positions.map (m.cell k)) = m := by
  induction positions with
  | nil => rfl
  | cons i positions ih =>
    have hset : m.set k i (m.cell k i) = m := by
      obtain ⟨next, cell⟩ := m
      refine congrArg (Memory.mk next) (funext fun k' => funext fun i' => ?_)
      dsimp only
      split
      · rename_i h
        rw [h.1, h.2]
      · rfl
    refine Eq.trans ?_ ih
    change (m.set k i (m.cell k i)).write k positions _ = _
    rw [hset]

theorem write_replicate (m : Memory V) (k : Nat) (w : V) {positions : List Nat} {i : Nat} (hi : i ∈ positions) :
    (m.write k positions (List.replicate positions.length w)).cell k i = w := by
  induction positions generalizing m with
  | nil => cases hi
  | cons j positions ih =>
    change ((m.set k j w).write k positions (List.replicate positions.length w)).cell k i = w
    by_cases hmem : i ∈ positions
    · exact ih _ hmem
    · obtain rfl : i = j := (List.mem_cons.mp hi).resolve_right hmem
      rw [write_other _ fun _ => hmem]
      simp [set]

end Memory

section Effect
variable {E S C : Type} {R : C → Type} {A B : Type}

/-- A script with a state; an exception leaves the state as it is then. -/
def Effect (E S C : Type) (R : C → Type) (A : Type) : Type := S → Prog C R (Except E A × S)

namespace Effect

protected def pure (a : A) : Effect E S C R A := fun s => .ret (.ok a, s)
def raise (e : E) : Effect E S C R A := fun s => .ret (.error e, s)

protected def bind (m : Effect E S C R A) (f : A → Effect E S C R B) : Effect E S C R B := fun s =>
  (m s).bind fun
    | (.ok a, s') => f a s'
    | (.error e, s') => .ret (.error e, s')

instance : Monad (Effect E S C R) where
  pure := Effect.pure
  bind := Effect.bind

def lift (x : Except E A) : Effect E S C R A := fun s => .ret (x, s)

instance : MonadLift (Except E) (Effect E S C R) := ⟨lift⟩

def get : Effect E S C R S := fun s => .ret (.ok s, s)
def modify (f : S → S) : Effect E S C R Unit := fun s => .ret (.ok (), f s)

/-- Make one call; if the reply is an exception, raise it. -/
def ask {R : C → Type} (c : C) : Effect E S C (fun c => Except E (R c)) (R c) :=
  fun s => .call c fun y => .ret (y, s)

/-- From the state s, whatever the environment replies: the state at the end satisfies I,
and a value that is returned satisfies Q. -/
def Holds (answers : ∀ c, R c → Prop) (I : S → Prop) (s : S) (m : Effect E S C R A) (Q : A → S → Prop) : Prop :=
  (m s).Ensures answers (fun _ => True) fun p => I p.2 ∧ ∀ a, p.1 = .ok a → Q a p.2

variable {answers : ∀ c, R c → Prop} {I : S → Prop} {s : S} {Q : A → S → Prop} {Q' : B → S → Prop}

theorem holds_pure {a : A} (hI : I s) (hQ : Q a s) : Holds answers I s (pure a : Effect E S C R A) Q :=
  ⟨hI, fun _ h => by cases h; exact hQ⟩

theorem holds_raise (e : E) (hI : I s) : Holds answers I s (raise e : Effect E S C R A) Q :=
  ⟨hI, fun _ h => by cases h⟩

theorem holds_lift {x : Except E A} (hI : I s) (hQ : ∀ a, x = .ok a → Q a s) :
    Holds answers I s (lift x : Effect E S C R A) Q := ⟨hI, hQ⟩

theorem holds_get {Q : S → S → Prop} (hI : I s) (hQ : Q s s) : Holds answers I s (get : Effect E S C R S) Q :=
  ⟨hI, fun _ h => by cases h; exact hQ⟩

theorem holds_modify {f : S → S} {Q : Unit → S → Prop} (hI : I (f s)) (hQ : Q () (f s)) :
    Holds answers I s (modify f : Effect E S C R Unit) Q := ⟨hI, fun _ _ => hQ⟩

theorem holds_mono {m : Effect E S C R A} {Q' : A → S → Prop} (hm : Holds answers I s m Q)
    (h : ∀ a s', Q a s' → Q' a s') : Holds answers I s m Q' :=
  Prog.Ensures.mono hm fun p hp => ⟨hp.1, fun a ha => h a p.2 (hp.2 a ha)⟩

theorem holds_bind {m : Effect E S C R A} {f : A → Effect E S C R B} (hm : Holds answers I s m Q)
    (hf : ∀ a s', I s' → Q a s' → Holds answers I s' (f a) Q') : Holds answers I s (m >>= f) Q' := by
  refine (Prog.ensures_bind (m s) _ _).mpr (Prog.Ensures.mono hm ?_)
  rintro ⟨x, s'⟩ ⟨hI, hQ⟩
  cases x with
  | ok a => exact hf a s' hI (hQ a rfl)
  | error e => exact ⟨hI, fun _ h => by cases h⟩

theorem holds_ask {R : C → Type} {answers : ∀ c, Except E (R c) → Prop} {c : C} {Q : R c → S → Prop} (hI : I s)
    (hQ : ∀ y, answers c (.ok y) → Q y s) :
    Holds answers I s (ask c : Effect E S C (fun c => Except E (R c)) (R c)) Q := by
  refine ⟨trivial, fun y hy => ⟨hI, fun a ha => ?_⟩⟩
  obtain rfl : y = .ok a := ha
  exact hQ a hy

end Effect
end Effect
end B70DualTP.Library
