import B70DualTP.Library.Diamond
import Mathlib.Data.Multiset.Filter
import Mathlib.Data.Set.Lattice

/-! A host that launches tasks and waits for their events. The tasks run by themselves:
every access of theirs to the shared memory is a step that may come at any time. -/
namespace B70DualTP.Library
variable {H C V : Type}

/-- One element of a task: loads, then a store. -/
inductive Access (C V : Type) where
  | load (c : C) (next : V → Access C V)
  | store (c : C) (v : V)

namespace Access

/-- The cells it may still load. -/
def reads : Access C V → Set C
  | .load c next => {c} ∪ ⋃ v, (next v).reads
  | .store _ _ => ∅

/-- The cells it may store to. -/
def writes : Access C V → Set C
  | .load _ next => ⋃ v, (next v).writes
  | .store c _ => {c}

/-- The cell it stores to in any case. -/
def stores : Access C V → Set C
  | .load _ next => ⋂ v, (next v).stores
  | .store c _ => {c}

def exec [DecidableEq C] : Access C V → (C → V) → C → V
  | .load c next, memory => (next (memory c)).exec memory
  | .store c v, memory => Function.update memory c v

end Access

/-- What is outstanding of a task: its elements, and its completion. -/
inductive Pending (C V : Type) where
  | access (a : Access C V)
  | completion

namespace Pending

def reads : Pending C V → Set C
  | .access a => a.reads
  | .completion => ∅

def writes : Pending C V → Set C
  | .access a => a.writes
  | .completion => ∅

def stores : Pending C V → Set C
  | .access a => a.stores
  | .completion => ∅

/-- Neither stores to a cell that the other touches. -/
def Apart (p q : Pending C V) : Prop :=
  (∀ c ∈ p.writes, c ∉ q.reads ∧ c ∉ q.writes) ∧ ∀ c ∈ q.writes, c ∉ p.reads ∧ c ∉ p.writes

theorem Apart.symm {p q : Pending C V} (h : p.Apart q) : q.Apart p := ⟨h.2, h.1⟩

theorem Apart.mono {p p' q : Pending C V} (h : p.Apart q) (hr : p'.reads ⊆ p.reads) (hw : p'.writes ⊆ p.writes) :
    p'.Apart q :=
  ⟨fun c hc => h.1 c (hw hc), fun c hc => ⟨fun hc' => (h.2 c hc).1 (hr hc'), fun hc' => (h.2 c hc).2 (hw hc')⟩⟩

end Pending

inductive HostCommand (H C V : Type) where
  | reset (event : H)
  | launch (event : H) (task : List (Access C V))
  | wait (event : H)

/-- The outstanding parts of all tasks, each under the event of its task. -/
abbrev Flight (H C V : Type) := Multiset (H × Pending C V)

def started (event : H) (task : List (Access C V)) : Flight H C V :=
  ((event, .completion) :: task.map fun a => (event, .access a) : List (H × Pending C V))

@[ext] structure AsyncState (H C V : Type) where
  memory : C → V
  signalled : H → Bool
  commands : List (HostCommand H C V)
  flight : Flight H C V

namespace AsyncState
variable [DecidableEq H] [DecidableEq C]

/-- One command. Waiting takes until the event is signalled. -/
def host (s : AsyncState H C V) : Option (AsyncState H C V) :=
  match s.commands with
  | [] => none
  | .reset event :: commands => some { s with signalled := Function.update s.signalled event false, commands }
  | .launch event task :: commands => some { s with commands, flight := started event task + s.flight }
  | .wait event :: commands => if s.signalled event then some { s with commands } else none

/-- One access, or the completion of a task, which signals its event. -/
def perform (s : AsyncState H C V) (event : H) (p : Pending C V) (rest : Flight H C V) : AsyncState H C V :=
  match p with
  | .access (.load c next) => { s with flight := (event, .access (next (s.memory c))) ::ₘ rest }
  | .access (.store c v) => { s with memory := Function.update s.memory c v, flight := rest }
  | .completion => { s with signalled := Function.update s.signalled event true, flight := rest }

/-- The completion of a task comes after all its elements. -/
def Enabled (event : H) (p : Pending C V) (rest : Flight H C V) : Prop :=
  p = .completion → ∀ x ∈ rest, x.1 ≠ event

/-- The host and everything in flight take their steps in any order. -/
inductive Step (s : AsyncState H C V) : AsyncState H C V → Prop where
  | host {s' : AsyncState H C V} (h : s.host = some s') : Step s s'
  | work (event : H) (p : Pending C V) (rest : Flight H C V) (h : s.flight = (event, p) ::ₘ rest)
      (henabled : Enabled event p rest) : Step s (s.perform event p rest)

end AsyncState

section Flight
variable {event : H} {p q : Pending C V} {F G : Flight H C V} {task : List (Access C V)}

instance pendingApart_symm : Std.Symm (fun x y : H × Pending C V => x.2.Apart y.2) := ⟨fun _ _ h => h.symm⟩

def Flight.Independent (F : Flight H C V) : Prop := F.Pairwise fun x y => x.2.Apart y.2

theorem Flight.independent_add :
    Flight.Independent (F + G) ↔
      Flight.Independent F ∧ Flight.Independent G ∧ ∀ x ∈ F, ∀ y ∈ G, x.2.Apart y.2 := by
  induction F using Quotient.inductionOn with
  | h l =>
    induction G using Quotient.inductionOn with
    | h l' =>
      simp only [Flight.Independent, Multiset.quot_mk_to_coe, Multiset.coe_add, Multiset.pairwise_coe_iff_pairwise,
        List.pairwise_append, Multiset.mem_coe]

theorem Flight.independent_cons :
    Flight.Independent ((event, p) ::ₘ F) ↔ (∀ y ∈ F, p.Apart y.2) ∧ Flight.Independent F := by
  rw [← Multiset.singleton_add, Flight.independent_add]
  constructor
  · rintro ⟨-, hF, h⟩
    exact ⟨h (event, p) (Multiset.mem_singleton_self _), hF⟩
  · rintro ⟨h, hF⟩
    refine ⟨⟨[(event, p)], rfl, List.pairwise_singleton _ _⟩, hF, ?_⟩
    intro x hx
    rw [Multiset.mem_singleton.mp hx]
    exact h

theorem apart_completion (p : Pending C V) : p.Apart .completion :=
  ⟨fun c _ => ⟨Set.notMem_empty c, Set.notMem_empty c⟩, fun c hc => absurd hc (Set.notMem_empty c)⟩

theorem mem_started {x : H × Pending C V} : x ∈ started event task ↔
    x = (event, .completion) ∨ ∃ a ∈ task, x = (event, .access a) := by
  simp only [started, Multiset.mem_coe, List.mem_cons, List.mem_map, eq_comm]

theorem fst_of_mem_started {x : H × Pending C V} (h : x ∈ started event task) : x.1 = event := by
  rcases mem_started.mp h with rfl | ⟨a, -, rfl⟩
  · rfl
  · rfl

theorem started_independent (h : task.Pairwise fun a b => (Pending.access a).Apart (.access b)) :
    Flight.Independent (started event task) := by
  rw [Flight.Independent, started, Multiset.pairwise_coe_iff_pairwise, List.pairwise_cons, List.pairwise_map]
  exact ⟨fun x _ => (apart_completion x.2).symm, h⟩

/-- What a step in flight leaves of itself. -/
private def leaves (memory : C → V) (event : H) : Pending C V → Flight H C V
  | .access (.load c next) => {(event, .access (next (memory c)))}
  | _ => 0

private theorem fst_of_mem_leaves {memory : C → V} {x : H × Pending C V} (h : x ∈ leaves memory event p) :
    x.1 = event := by
  rcases p with (_ | _) | _
  · rw [Multiset.mem_singleton.mp h]
  · cases h
  · cases h

end Flight

namespace AsyncState
variable [DecidableEq H] {event : H} {p : Pending C V} {F : Flight H C V} {commands : List (HostCommand H C V)}
  {signalled : H → Bool}

/-- Whenever the host waits, and at its end, what may be outstanding is independent. An
event is reset and launched while nothing of it is outstanding, launched only after a
reset, and waited for only after a launch. -/
def Disciplined : List (HostCommand H C V) → (H → Bool) → Flight H C V → Prop
  | [], _, F => F.Independent
  | .reset event :: commands, signalled, F =>
    (∀ x ∈ F, x.1 ≠ event) ∧ Disciplined commands (Function.update signalled event false) F
  | .launch event task :: commands, signalled, F =>
    signalled event = false ∧ (∀ x ∈ F, x.1 ≠ event) ∧ Disciplined commands signalled (started event task + F)
  | .wait event :: commands, signalled, F =>
    F.Independent ∧ (signalled event = true ∨ (event, .completion) ∈ F) ∧
      Disciplined commands (Function.update signalled event true) (F.filter (·.1 ≠ event))

theorem Disciplined.independent (h : Disciplined commands signalled F) : F.Independent := by
  induction commands generalizing signalled F with
  | nil => exact h
  | cons command commands ih =>
    cases command with
    | reset event => exact ih h.2
    | launch event task => exact (Flight.independent_add.mp (ih h.2.2)).2.1
    | wait event => exact h.1

/-- An access may go on to touch fewer cells, or come to its end. -/
theorem Disciplined.proceed {a : Access C V} {G : Flight H C V}
    (h : Disciplined commands signalled ((event, .access a) ::ₘ F)) (hG : G.Independent)
    (hwithin : ∀ y ∈ G, y.1 = event ∧ y.2.reads ⊆ a.reads ∧ y.2.writes ⊆ a.writes) :
    Disciplined commands signalled (G + F) := by
  have hne : ∀ {F : Flight H C V} {event'}, (∀ x ∈ (event, Pending.access a) ::ₘ F, x.1 ≠ event') →
      ∀ x ∈ G + F, x.1 ≠ event' := by
    intro F event' hall x hx
    obtain ⟨hevent, hF⟩ := Multiset.forall_mem_cons.mp hall
    rcases Multiset.mem_add.mp hx with hx | hx
    · rwa [(hwithin x hx).1]
    · exact hF x hx
  have hindependent : ∀ {F : Flight H C V}, Flight.Independent ((event, .access a) ::ₘ F) →
      Flight.Independent (G + F) := by
    intro F hF
    obtain ⟨hapart, hF⟩ := Flight.independent_cons.mp hF
    refine Flight.independent_add.mpr ⟨hG, hF, ?_⟩
    intro x hx y hy
    exact (hapart y hy).mono (hwithin x hx).2.1 (hwithin x hx).2.2
  induction commands generalizing signalled F with
  | nil => exact hindependent h
  | cons command commands ih =>
    cases command with
    | reset event' => exact ⟨hne h.1, ih h.2⟩
    | launch event' task =>
      obtain ⟨hsignalled, hflight, hnext⟩ := h
      rw [Multiset.add_cons] at hnext
      refine ⟨hsignalled, hne hflight, ?_⟩
      rw [← Multiset.add_assoc, Multiset.add_comm (started event' task), Multiset.add_assoc]
      exact ih hnext
    | wait event' =>
      obtain ⟨hF, hlaunched, hnext⟩ := h
      refine ⟨hindependent hF, ?_, ?_⟩
      · rcases hlaunched with hs | hmem
        · exact .inl hs
        · rcases Multiset.mem_cons.mp hmem with heq | hmem
          · cases heq
          · exact .inr (Multiset.mem_add.mpr (.inr hmem))
      · rw [Multiset.filter_add]
        by_cases he : event = event'
        · have hnone : G.filter (·.1 ≠ event') = 0 := by
            rw [Multiset.filter_eq_nil]
            intro y hy hy'
            exact hy' ((hwithin y hy).1.trans he)
          rw [Multiset.filter_cons_of_neg _ (by simpa using he)] at hnext
          rwa [hnone, Multiset.zero_add]
        · have hall : G.filter (·.1 ≠ event') = G := by
            rw [Multiset.filter_eq_self]
            intro y hy
            rwa [(hwithin y hy).1]
          rw [Multiset.filter_cons_of_pos _ (by simpa using he)] at hnext
          rw [hall]
          exact ih hnext

/-- A task may complete before it is waited for. -/
theorem Disciplined.complete (h : Disciplined commands signalled ((event, .completion) ::ₘ F)) :
    Disciplined commands (Function.update signalled event true) F := by
  induction commands generalizing signalled F with
  | nil => exact (Flight.independent_cons.mp h).2
  | cons command commands ih =>
    cases command with
    | reset event' =>
      obtain ⟨hne, hF⟩ := Multiset.forall_mem_cons.mp h.1
      refine ⟨hF, ?_⟩
      rw [Function.update_comm hne]
      exact ih h.2
    | launch event' task =>
      obtain ⟨hs, hne, hnext⟩ := h
      obtain ⟨hne, hF⟩ := Multiset.forall_mem_cons.mp hne
      rw [Multiset.add_cons] at hnext
      refine ⟨?_, hF, ih hnext⟩
      rwa [Function.update_of_ne (Ne.symm hne)]
    | wait event' =>
      obtain ⟨hF, hlaunched, hnext⟩ := h
      refine ⟨(Flight.independent_cons.mp hF).2, ?_, ?_⟩
      · by_cases he : event' = event
        · subst he
          exact .inl (Function.update_self _ _ _)
        · rw [Function.update_of_ne he]
          rcases hlaunched with hs | hmem
          · exact .inl hs
          · rcases Multiset.mem_cons.mp hmem with heq | hmem
            · exact absurd (congrArg Prod.fst heq) he
            · exact .inr hmem
      · by_cases he : event = event'
        · subst he
          rw [Multiset.filter_cons_of_neg _ (by simp)] at hnext
          rwa [Function.update_idem]
        · rw [Multiset.filter_cons_of_pos _ (by simpa using he)] at hnext
          rw [Function.update_comm he]
          exact ih hnext

/-- What every step of a disciplined host keeps. -/
structure Safe (s : AsyncState H C V) : Prop where
  disciplined : Disciplined s.commands s.signalled s.flight
  /-- A signalled event has nothing outstanding. -/
  quiet : ∀ x ∈ s.flight, s.signalled x.1 = false

theorem Safe.forall_ne {s : AsyncState H C V} (hs : s.Safe) (h : s.signalled event = true) :
    ∀ x ∈ s.flight, x.1 ≠ event := by
  rintro x hx rfl
  rw [hs.quiet x hx] at h
  cases h

theorem Safe.host {s s' : AsyncState H C V} (hs : s.Safe) (h : s.host = some s') : s'.Safe := by
  have hne : ∀ event, s.signalled event = true → ∀ x ∈ s.flight, x.1 ≠ event := fun _ => hs.forall_ne
  obtain ⟨hd, hq⟩ := hs
  obtain ⟨memory, signalled, commands, flight⟩ := s
  cases commands with
  | nil => cases h
  | cons command commands =>
    cases command with
    | reset event =>
      cases h
      refine ⟨hd.2, fun x hx => ?_⟩
      simp only []
      rw [Function.update_of_ne (hd.1 x hx)]
      exact hq x hx
    | launch event task =>
      cases h
      refine ⟨hd.2.2, fun x hx => ?_⟩
      rcases Multiset.mem_add.mp hx with hx | hx
      · rw [fst_of_mem_started hx]
        exact hd.1
      · exact hq x hx
    | wait event =>
      simp only [AsyncState.host] at h
      split at h
      · rename_i hsignalled
        cases h
        refine ⟨?_, hq⟩
        have hnext := hd.2.2
        rw [Multiset.filter_eq_self.mpr (hne event hsignalled),
          Function.update_eq_self_iff.mpr hsignalled.symm] at hnext
        exact hnext
      · cases h

variable [DecidableEq C]

theorem Safe.perform {s : AsyncState H C V} {rest : Flight H C V} (hs : s.Safe) (h : s.flight = (event, p) ::ₘ rest)
    (henabled : Enabled event p rest) : (s.perform event p rest).Safe := by
  obtain ⟨hd, hq⟩ := hs
  rw [h] at hd hq
  obtain ⟨hevent, hrest⟩ := Multiset.forall_mem_cons.mp hq
  cases p with
  | completion =>
    refine ⟨hd.complete, fun x hx => ?_⟩
    simp only [AsyncState.perform]
    rw [Function.update_of_ne (henabled rfl x hx)]
    exact hrest x hx
  | access a =>
    cases a with
    | load c next =>
      refine ⟨?_, Multiset.forall_mem_cons.mpr ⟨hevent, hrest⟩⟩
      refine hd.proceed (G := {(event, .access (next (s.memory c)))}) ⟨[_], rfl, List.pairwise_singleton _ _⟩ ?_
      intro y hy
      rw [Multiset.mem_singleton.mp hy]
      refine ⟨rfl, ?_, Set.subset_iUnion (fun v => (next v).writes) _⟩
      exact Set.subset_union_of_subset_right (Set.subset_iUnion (fun v => (next v).reads) _) _
    | store c v =>
      refine ⟨?_, hrest⟩
      have hnext := hd.proceed (G := 0) (Multiset.pairwise_zero _) fun y hy => absurd hy (Multiset.notMem_zero y)
      rwa [Multiset.zero_add] at hnext

theorem Safe.step {s s' : AsyncState H C V} (hs : s.Safe) (h : Step s s') : s'.Safe := by
  cases h with
  | host h => exact hs.host h
  | work event p rest h henabled => exact hs.perform h henabled

theorem Safe.steps {s s' : AsyncState H C V} {n : Nat} (hs : s.Safe) (h : Steps Step n s s') : s'.Safe := by
  induction h with
  | refl s => exact hs
  | head hstep _ ih => exact ih (hs.step hstep)

/-- A command that the host can take before a step in flight, it can take after it. -/
private theorem host_work {s s' : AsyncState H C V} {rest : Flight H C V} (hs : s.Safe) (hhost : s.host = some s')
    (h : s.flight = (event, p) ::ₘ rest) (henabled : Enabled event p rest) :
    ∃ t, (s.perform event p rest).host = some t ∧ Step s' t := by
  obtain ⟨hd, hq⟩ := hs
  obtain ⟨memory, signalled, commands, flight⟩ := s
  obtain rfl : flight = (event, p) ::ₘ rest := h
  cases commands with
  | nil => cases hhost
  | cons command commands =>
    cases command with
    | reset event' =>
      cases hhost
      refine ⟨_, ?_, .work event p rest rfl henabled⟩
      cases p with
      | access a => cases a <;> rfl
      | completion =>
        have hne : event ≠ event' := hd.1 (event, .completion) (Multiset.mem_cons_self _ _)
        simp only [perform, AsyncState.host]
        rw [Function.update_comm hne]
    | launch event' task =>
      cases hhost
      have hne : event ≠ event' := hd.2.1 (event, p) (Multiset.mem_cons_self _ _)
      refine ⟨_, ?_, .work event p (started event' task + rest) (Multiset.add_cons _ _ _) ?_⟩
      · cases p with
        | access a =>
          cases a with
          | load c next => simp only [perform, AsyncState.host, Multiset.add_cons]
          | store c v => rfl
        | completion => rfl
      · intro hp x hx
        rcases Multiset.mem_add.mp hx with hx | hx
        · rw [fst_of_mem_started hx]
          exact Ne.symm hne
        · exact henabled hp x hx
    | wait event' =>
      simp only [AsyncState.host] at hhost
      split at hhost
      · rename_i hsignalled
        cases hhost
        refine ⟨_, ?_, .work event p rest rfl henabled⟩
        cases p with
        | access a => cases a <;> simp [perform, AsyncState.host, hsignalled]
        | completion =>
          have hstill : Function.update signalled event true event' = true := by
            by_cases he : event' = event
            · rw [he, Function.update_self]
            · rwa [Function.update_of_ne he]
          exact if_pos hstill
      · cases hhost

private theorem flight_perform (s : AsyncState H C V) (event : H) (p : Pending C V) (rest : Flight H C V) :
    (s.perform event p rest).flight = leaves s.memory event p + rest := by
  rcases p with (_ | _) | _
  · exact (Multiset.singleton_add _ _).symm
  · exact (Multiset.zero_add rest).symm
  · exact (Multiset.zero_add rest).symm

/-- A step is not disturbed by one that does not conflict with it. -/
private theorem leaves_perform (s : AsyncState H C V) {event' : H} {q : Pending C V} {rest : Flight H C V}
    (h : p.Apart q) : leaves (s.perform event p rest).memory event' q = leaves s.memory event' q := by
  rcases q with (⟨c', next'⟩ | ⟨c', v'⟩) | _
  · rcases p with (⟨c, next⟩ | ⟨c, v⟩) | _
    · rfl
    · have hne : c' ≠ c := by
        rintro rfl
        exact (h.1 c' (Set.mem_singleton c')).1 (.inl (Set.mem_singleton c'))
      simp only [leaves, perform]
      rw [Function.update_of_ne hne]
    · rfl
  · rfl
  · rfl

private theorem perform_comm (s : AsyncState H C V) {event' : H} {q : Pending C V} {rest : Flight H C V}
    (h : p.Apart q) :
    (s.perform event p ((event', q) ::ₘ rest)).perform event' q (leaves s.memory event p + rest) =
      (s.perform event' q ((event, p) ::ₘ rest)).perform event p (leaves s.memory event' q + rest) := by
  have hflight : leaves (s.perform event p ((event', q) ::ₘ rest)).memory event' q + (leaves s.memory event p + rest) =
      leaves (s.perform event' q ((event, p) ::ₘ rest)).memory event p + (leaves s.memory event' q + rest) := by
    rw [leaves_perform s h, leaves_perform s h.symm, ← Multiset.add_assoc, ← Multiset.add_assoc,
      Multiset.add_comm (leaves s.memory event p)]
  apply AsyncState.ext
  · rcases p with (⟨c, next⟩ | ⟨c, v⟩) | _ <;> rcases q with (⟨c', next'⟩ | ⟨c', v'⟩) | _ <;> try rfl
    -- two stores
    have hne : c ≠ c' := by
      rintro rfl
      exact (h.1 c (Set.mem_singleton c)).2 (Set.mem_singleton c)
    exact Function.update_comm hne _ _ _
  · rcases p with (_ | _) | _ <;> rcases q with (_ | _) | _ <;> try rfl
    -- two completions
    simp only [perform]
    by_cases he : event = event'
    · rw [he]
    · exact Function.update_comm he _ _ _
  · rcases p with (_ | _) | _ <;> rcases q with (_ | _) | _ <;> rfl
  · rw [flight_perform, flight_perform, hflight]

/-- Two different steps in flight can be taken in either order. -/
private theorem work_work {s : AsyncState H C V} {event' : H} {q : Pending C V} {rest : Flight H C V} (hs : s.Safe)
    (h : s.flight = (event, p) ::ₘ (event', q) ::ₘ rest) (henabled : Enabled event p ((event', q) ::ₘ rest))
    (henabled' : Enabled event' q ((event, p) ::ₘ rest)) :
    ∃ t, Step (s.perform event p ((event', q) ::ₘ rest)) t ∧ Step (s.perform event' q ((event, p) ::ₘ rest)) t := by
  have hapart : p.Apart q :=
    (Flight.independent_cons.mp (h ▸ hs.disciplined.independent)).1 (event', q) (Multiset.mem_cons_self _ _)
  have hfirst : (s.perform event p ((event', q) ::ₘ rest)).flight =
      (event', q) ::ₘ (leaves s.memory event p + rest) := by
    rw [flight_perform, Multiset.add_cons]
  have hsecond : (s.perform event' q ((event, p) ::ₘ rest)).flight =
      (event, p) ::ₘ (leaves s.memory event' q + rest) := by
    rw [flight_perform, Multiset.add_cons]
  -- a completion that was possible stays so: what is left of the other step has its event
  have hstill : Enabled event' q (leaves s.memory event p + rest) := by
    intro hq x hx
    obtain ⟨hp, hrest⟩ := Multiset.forall_mem_cons.mp (henabled' hq)
    rcases Multiset.mem_add.mp hx with hx | hx
    · rw [fst_of_mem_leaves hx]
      exact hp
    · exact hrest x hx
  have hstill' : Enabled event p (leaves s.memory event' q + rest) := by
    intro hp x hx
    obtain ⟨hq, hrest⟩ := Multiset.forall_mem_cons.mp (henabled hp)
    rcases Multiset.mem_add.mp hx with hx | hx
    · rw [fst_of_mem_leaves hx]
      exact hq
    · exact hrest x hx
  refine ⟨_, .work event' q _ hfirst hstill, ?_⟩
  rw [perform_comm s hapart]
  exact .work event p _ hsecond hstill'

private theorem safe_diamond : Diamond fun s s' : AsyncState H C V => s.Safe ∧ Step s s' := by
  rintro s b c ⟨hs, hb⟩ ⟨-, hc⟩
  have hsafeb := hs.step hb
  have hsafec := hs.step hc
  cases hb with
  | host hb =>
    cases hc with
    | host hc => exact .inl (Option.some.inj (hb.symm.trans hc))
    | work event p rest hF henabled =>
      obtain ⟨t, hhost, hstep⟩ := host_work hs hb hF henabled
      exact .inr ⟨t, ⟨hsafeb, hstep⟩, ⟨hsafec, .host hhost⟩⟩
  | work event p rest hF henabled =>
    cases hc with
    | host hc =>
      obtain ⟨t, hhost, hstep⟩ := host_work hs hc hF henabled
      exact .inr ⟨t, ⟨hsafeb, .host hhost⟩, ⟨hsafec, hstep⟩⟩
    | work event' q rest' hF' henabled' =>
      rcases Multiset.cons_eq_cons.mp (hF.symm.trans hF') with ⟨heq, rfl⟩ | ⟨-, others, rfl, rfl⟩
      · cases heq
        exact .inl rfl
      · obtain ⟨t, ht, ht'⟩ := work_work hs hF henabled henabled'
        exact .inr ⟨t, ⟨hsafeb, ht⟩, ⟨hsafec, ht'⟩⟩

/-- Every task as a whole, in the order of the launches. -/
def sequential : List (HostCommand H C V) → (C → V) → C → V
  | [], memory => memory
  | .launch _ task :: commands, memory =>
    sequential commands (task.foldl (fun memory a => a.exec memory) memory)
  | _ :: commands, memory => sequential commands memory

private theorem exec_run (a : Access C V) (memory : C → V) (signalled : H → Bool)
    (commands : List (HostCommand H C V)) (rest : Flight H C V) :
    Relation.ReflTransGen Step ⟨memory, signalled, commands, (event, .access a) ::ₘ rest⟩
      ⟨a.exec memory, signalled, commands, rest⟩ := by
  induction a with
  | load c next ih =>
    refine .head (.work event (.access (.load c next)) rest rfl ?_) (ih (memory c))
    intro h
    cases h
  | store c v =>
    refine .single (.work event (.access (.store c v)) rest rfl ?_)
    intro h
    cases h

private theorem task_run (event : H) (task : List (Access C V)) (memory : C → V) (signalled : H → Bool)
    (commands : List (HostCommand H C V)) :
    Relation.ReflTransGen Step ⟨memory, signalled, commands, started event task⟩
      ⟨task.foldl (fun memory a => a.exec memory) memory, Function.update signalled event true, commands, 0⟩ := by
  induction task generalizing memory with
  | nil =>
    refine .single (.work event .completion 0 rfl ?_)
    intro _ x hx
    cases hx
  | cons a task ih =>
    have hstarted : started event (a :: task) = (event, .access a) ::ₘ started event task := by
      simp only [started, List.map_cons, ← Multiset.cons_coe]
      exact Multiset.cons_swap _ _ _
    rw [hstarted]
    exact (exec_run a memory signalled commands _).trans (ih _)

private theorem sequential_run {commands : List (HostCommand H C V)} {memory : C → V} {signalled : H → Bool}
    (hs : Safe ⟨memory, signalled, commands, 0⟩) :
    ∃ signalled', Relation.ReflTransGen Step ⟨memory, signalled, commands, 0⟩
      ⟨sequential commands memory, signalled', [], 0⟩ := by
  induction commands generalizing memory signalled with
  | nil => exact ⟨signalled, .refl⟩
  | cons command commands ih =>
    cases command with
    | reset event =>
      have hstep : Step ⟨memory, signalled, .reset event :: commands, 0⟩
        (⟨memory, Function.update signalled event false, commands, 0⟩ : AsyncState H C V) := .host rfl
      obtain ⟨signalled', hrun⟩ := ih (hs.step hstep)
      exact ⟨signalled', .head hstep hrun⟩
    | launch event task =>
      have hstep : Step ⟨memory, signalled, .launch event task :: commands, 0⟩
        ⟨memory, signalled, commands, started event task + 0⟩ := .host rfl
      have htask := task_run event task memory signalled commands
      rw [Multiset.add_zero] at hstep
      obtain ⟨n, hsteps⟩ := Steps.of_reflTransGen htask
      obtain ⟨signalled', hrun⟩ := ih ((hs.step hstep).steps hsteps)
      exact ⟨signalled', .head hstep (htask.trans hrun)⟩
    | wait event =>
      have hsignalled : signalled event = true := by
        rcases hs.disciplined.2.1 with h | h
        · exact h
        · cases h
      have hstep : Step ⟨memory, signalled, .wait event :: commands, 0⟩
        (⟨memory, signalled, commands, 0⟩ : AsyncState H C V) := .host (if_pos hsignalled)
      obtain ⟨signalled', hrun⟩ := ih (hs.step hstep)
      exact ⟨signalled', .head hstep hrun⟩

theorem final_of_done {memory : C → V} {signalled : H → Bool} :
    Final Step (⟨memory, signalled, [], 0⟩ : AsyncState H C V) := by
  intro s h
  cases h with
  | host h => cases h
  | work event p rest h henabled => exact Multiset.zero_ne_cons h

/-- In whatever order the steps of a disciplined host and its tasks come, they come to an
end, which is the one of the sequential order. -/
theorem Safe.converges {memory : C → V} {signalled : H → Bool} {commands : List (HostCommand H C V)}
    (hs : Safe ⟨memory, signalled, commands, 0⟩) :
    Converges Step ⟨memory, signalled, commands, 0⟩ fun z : AsyncState H C V =>
      z.commands = [] ∧ z.flight = 0 ∧ z.memory = sequential commands memory := by
  obtain ⟨signalled', hrun⟩ := sequential_run hs
  exact safe_diamond.converges_within (fun _ _ hs h => hs.step h) hs hrun final_of_done ⟨rfl, rfl, rfl⟩

end AsyncState

/-- The tasks of a round: no two of their elements conflict. -/
structure Round (task task' : List (Access C V)) : Prop where
  left : task.Pairwise fun a b => (Pending.access a).Apart (.access b)
  right : task'.Pairwise fun a b => (Pending.access a).Apart (.access b)
  across : ∀ a ∈ task, ∀ b ∈ task', (Pending.access a).Apart (.access b)

section Round
variable {event event' : H} {task task' : List (Access C V)}

theorem Round.independent (h : Round task task') :
    Flight.Independent (started event' task' + (started event task + 0)) := by
  rw [Multiset.add_zero]
  refine Flight.independent_add.mpr ⟨started_independent h.right, started_independent h.left, ?_⟩
  intro x hx y hy
  rcases mem_started.mp hx with rfl | ⟨b, hb, rfl⟩
  · exact (apart_completion y.2).symm
  · rcases mem_started.mp hy with rfl | ⟨a, ha, rfl⟩
    · exact apart_completion _
    · exact (h.across a ha b hb).symm

private theorem forall_mem_launched (hne : event ≠ event') : ∀ x ∈ started event task + 0, x.1 ≠ event' := by
  intro x hx
  rw [Multiset.add_zero] at hx
  rwa [fst_of_mem_started hx]

private theorem forall_mem_none {P : H × Pending C V → Prop} : ∀ x ∈ (0 : Flight H C V), P x :=
  fun x hx => absurd hx (Multiset.notMem_zero x)

variable [DecidableEq H]

theorem filter_started_self : (started event task).filter (·.1 ≠ event) = 0 := by
  rw [Multiset.filter_eq_nil]
  intro x hx hne
  exact hne (fst_of_mem_started hx)

theorem filter_started_of_ne (h : event ≠ event') :
    (started event task).filter (·.1 ≠ event') = started event task := by
  rw [Multiset.filter_eq_self]
  intro x hx
  rwa [fst_of_mem_started hx]

end Round

namespace AsyncState

theorem sequential_append [DecidableEq C] (commands commands' : List (HostCommand H C V)) (memory : C → V) :
    sequential (commands ++ commands') memory = sequential commands' (sequential commands memory) := by
  induction commands generalizing memory with
  | nil => rfl
  | cons command commands ih => cases command <;> exact ih _

variable [DecidableEq H] {event event' : H} {task task' : List (Access C V)} {commands : List (HostCommand H C V)}
  {signalled : H → Bool}

private theorem waits_disciplined (hne : event ≠ event') (h : Round task task')
    (hrest : ∀ signalled, Disciplined commands signalled 0) :
    Disciplined (.wait event :: .wait event' :: commands) signalled
      (started event' task' + (started event task + 0)) := by
  refine ⟨h.independent, .inr ?_, ?_⟩
  · exact Multiset.mem_add.mpr (.inr (Multiset.mem_add.mpr (.inl (mem_started.mpr (.inl rfl)))))
  · rw [Multiset.filter_add, Multiset.filter_add, filter_started_of_ne (Ne.symm hne), filter_started_self,
      Multiset.filter_zero, Multiset.add_zero, Multiset.add_zero]
    refine ⟨started_independent h.right, .inr (mem_started.mpr (.inl rfl)), ?_⟩
    rw [filter_started_self]
    exact hrest _

theorem disciplined_task (h : task.Pairwise fun a b => (Pending.access a).Apart (.access b))
    (hrest : ∀ signalled, Disciplined commands signalled 0) :
    Disciplined (.reset event :: .launch event task :: .wait event :: commands) signalled 0 := by
  refine ⟨forall_mem_none, Function.update_self _ _ _, forall_mem_none, ?_⟩
  rw [Multiset.add_zero]
  refine ⟨started_independent h, .inr (mem_started.mpr (.inl rfl)), ?_⟩
  rw [filter_started_self]
  exact hrest _

theorem disciplined_round (hne : event ≠ event') (h : Round task task')
    (hrest : ∀ signalled, Disciplined commands signalled 0) :
    Disciplined (.reset event :: .launch event task :: .reset event' :: .launch event' task' ::
      .wait event :: .wait event' :: commands) signalled 0 := by
  refine ⟨forall_mem_none, Function.update_self _ _ _, forall_mem_none, ?_⟩
  exact ⟨forall_mem_launched hne, Function.update_self _ _ _, forall_mem_launched hne, waits_disciplined hne h hrest⟩

theorem disciplined_round_resets_first (hne : event ≠ event') (h : Round task task')
    (hrest : ∀ signalled, Disciplined commands signalled 0) :
    Disciplined (.reset event :: .reset event' :: .launch event task :: .launch event' task' ::
      .wait event :: .wait event' :: commands) signalled 0 := by
  refine ⟨forall_mem_none, forall_mem_none, ?_, forall_mem_none, Function.update_self _ _ _,
    forall_mem_launched hne, waits_disciplined hne h hrest⟩
  rw [Function.update_of_ne hne, Function.update_self]

end AsyncState
end B70DualTP.Library
