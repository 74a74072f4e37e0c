import B70DualTP.Library.Lockstep
import B70DualTP.Repro.AllReduce
import Mathlib.Algebra.Group.Basic
import Mathlib.Tactic.Abel

/-! The overlapping copies and kernels of b70_allreduce_bench.cpp, when every copy
delivers its data. -/
namespace B70DualTP.Repro
open Library AsyncState
variable {V : Type}

def delivered : Delivery := fun _ _ => true

/-- Calls of the two functions in this order, whose copies deliver their data. -/
def mixture [Add V] (N : Nat) (l : List Transport) : Program V := calls N (l.map (·, delivered))

section Sums
variable [AddCommMonoid V] (N : Nat) (memory : Cell → V)

/-- One call leaves the sum on both cards. -/
theorem pass_delivered (transport : Transport) {i : Nat} (hi : i < N) :
    transport.pass N delivered memory (.a0, i) = memory (.a0, i) + memory (.a1, i) ∧
      transport.pass N delivered memory (.a1, i) = memory (.a0, i) + memory (.a1, i) := by
  cases transport with
  | peer =>
    constructor
    · simp [Transport.pass, added, copied, delivered, hi]
    · simp [Transport.pass, added, copied, delivered, hi, add_comm]
  | host =>
    constructor
    · simp [Transport.pass, added, copied, delivered, hi]
    · simp [Transport.pass, added, copied, delivered, hi, add_comm]

/-- Each further call doubles it. -/
theorem passes_delivered (l : List Transport) {i : Nat} (hi : i < N) (v : V) (h0 : memory (.a0, i) = v)
    (h1 : memory (.a1, i) = v) :
    passes N memory (l.map (·, delivered)) (.a0, i) = 2 ^ l.length • v ∧
      passes N memory (l.map (·, delivered)) (.a1, i) = 2 ^ l.length • v := by
  induction l generalizing memory v with
  | nil =>
    rw [List.length_nil, pow_zero, one_nsmul]
    exact ⟨h0, h1⟩
  | cons transport l ih =>
    obtain ⟨hsum0, hsum1⟩ := pass_delivered N memory transport hi
    rw [h0, h1, ← two_nsmul] at hsum0 hsum1
    rw [List.length_cons, pow_succ, mul_nsmul']
    exact ih _ _ hsum0 hsum1

end Sums

/-- The cells that the calls work on. -/
def inputs : Set Cell := {c | c.1 = .a0 ∨ c.1 = .a1}

section Initialised
variable {N : Nat} {D : Set Cell}

theorem copyTask_reads {dst src : Buffer} {written : Nat → Bool} (h : ∀ i < N, (src, i) ∈ D) :
    ∀ a ∈ (copyTask dst src N written : List (Access Cell V)), a.reads ⊆ D := by
  intro a ha c hc
  obtain ⟨i, hi, rfl⟩ := List.mem_map.mp ha
  obtain ⟨hsrc, rfl⟩ := (copyElement_within dst src i).reads c hc
  obtain ⟨buffer, i⟩ := c
  obtain rfl := List.mem_singleton.mp hsrc
  exact h i (List.mem_range.mp (List.mem_filter.mp hi).1)

theorem addTask_reads [Add V] {a t : Buffer} (ha : ∀ i < N, (a, i) ∈ D) (ht : ∀ i < N, (t, i) ∈ D) :
    ∀ x ∈ (addTask a t N : List (Access Cell V)), x.reads ⊆ D := by
  intro x hx c hc
  obtain ⟨i, hi, rfl⟩ := List.mem_map.mp hx
  obtain ⟨hsource, rfl⟩ := (addElement_within a t i).reads c hc
  obtain ⟨buffer, i⟩ := c
  rcases List.mem_cons.mp hsource with rfl | hsource
  · exact ha i (List.mem_range.mp hi)
  · obtain rfl := List.mem_singleton.mp hsource
    exact ht i (List.mem_range.mp hi)

theorem mem_storesOf_copyTask {dst src : Buffer} {i : Nat} (hi : i < N) :
    (dst, i) ∈ storesOf (copyTask dst src N (delivered dst) : List (Access Cell V)) := by
  refine ⟨copyElement dst src i, List.mem_map.mpr ⟨i, ?_, rfl⟩, (copyElement_within dst src i).stores⟩
  exact List.mem_filter.mpr ⟨List.mem_range.mpr hi, rfl⟩

variable [Add V] {program : Program V}

private theorem addBoth_initialised (ha0 : ∀ i < N, (.a0, i) ∈ D) (ht0 : ∀ i < N, (.t0, i) ∈ D)
    (ha1 : ∀ i < N, (.a1, i) ∈ D) (ht1 : ∀ i < N, (.t1, i) ∈ D) (hrest : Initialised program D 0) :
    Initialised (addBoth N ++ program) D 0 := by
  refine initialised_round (by decide) (addTask_reads ha0 ht0) (addTask_reads ha1 ht1) (hrest.mono ?_)
  exact Set.subset_union_left.trans Set.subset_union_left

theorem ar_initialised (hinputs : inputs ⊆ D) (hrest : Initialised program D 0) (transport : Transport) :
    Initialised (transport.ar N delivered ++ program) D 0 := by
  have ha0 : ∀ i < N, (Buffer.a0, i) ∈ D := fun i _ => hinputs (.inl rfl)
  have ha1 : ∀ i < N, (Buffer.a1, i) ∈ D := fun i _ => hinputs (.inr rfl)
  cases transport with
  | peer =>
    refine initialised_round_resets_first (by decide) (copyTask_reads ha1) (copyTask_reads ha0) ?_
    refine addBoth_initialised ?_ ?_ ?_ ?_ (hrest.mono (Set.subset_union_left.trans Set.subset_union_left))
    · exact fun i hi => .inl (.inl (ha0 i hi))
    · exact fun i hi => .inl (.inr (mem_storesOf_copyTask hi))
    · exact fun i hi => .inl (.inl (ha1 i hi))
    · exact fun i hi => .inr (mem_storesOf_copyTask hi)
  | host =>
    refine initialised_round (by decide) (copyTask_reads ha0) (copyTask_reads ha1) ?_
    refine initialised_round (by decide) (copyTask_reads ?_) (copyTask_reads ?_) ?_
    · exact fun i hi => .inr (mem_storesOf_copyTask hi)
    · exact fun i hi => .inl (.inr (mem_storesOf_copyTask hi))
    · refine addBoth_initialised ?_ ?_ ?_ ?_ (hrest.mono ?_)
      · exact fun i hi => .inl (.inl (.inl (.inl (ha0 i hi))))
      · exact fun i hi => .inl (.inr (mem_storesOf_copyTask hi))
      · exact fun i hi => .inl (.inl (.inl (.inl (ha1 i hi))))
      · exact fun i hi => .inr (mem_storesOf_copyTask hi)
      · exact ((Set.subset_union_left.trans Set.subset_union_left).trans Set.subset_union_left).trans
          Set.subset_union_left

theorem mixture_initialised (l : List Transport) : Initialised (mixture N l : Program V) inputs 0 := by
  induction l with
  | nil => exact trivial
  | cons transport l ih => exact ar_initialised subset_rfl ih transport

end Initialised

/-- The calls are race-free and compute the sum. However the copies, the kernels and the
host interleave: the calls come to an end with x+y on both cards, doubled by each further
call; at no time do two outstanding accesses conflict; and with other contents of the
staging buffers the same steps would be taken, with the same values loaded. -/
theorem ar_race_free [AddCommMonoid V] (N : Nat) (transport : Transport) (l : List Transport) (memory : Cell → V)
    (signalled : Event → Bool) :
    let s : AsyncState Event Cell V := ⟨memory, signalled, mixture N (transport :: l), 0⟩
    Converges Step s (fun z => z.commands = [] ∧ z.flight = 0 ∧ ∀ i < N,
      z.memory (.a0, i) = 2 ^ l.length • (memory (.a0, i) + memory (.a1, i)) ∧
      z.memory (.a1, i) = 2 ^ l.length • (memory (.a0, i) + memory (.a1, i))) ∧
    (∀ n s', Steps Step n s s' → s'.flight.Independent) ∧
    ∀ n s' memory', Steps Step n s s' → (∀ i, memory' (.a0, i) = memory (.a0, i) ∧ memory' (.a1, i) = memory (.a1, i)) →
      ∃ memory'', Steps Step n (s.withMemory memory') (s'.withMemory memory'') := by
  intro s
  have hsafe : s.Safe := calls_safe N _ memory signalled
  refine ⟨?_, fun n s' h => (hsafe.steps h).disciplined.independent, ?_⟩
  · obtain ⟨n, z, hz, ⟨hcommands, hflight, hmemory⟩, hall⟩ :=
      calls_converge N ((transport :: l).map (·, delivered)) memory signalled
    refine ⟨n, z, hz, ⟨hcommands, hflight, fun i hi => ?_⟩, hall⟩
    rw [hmemory]
    obtain ⟨h0, h1⟩ := pass_delivered N memory transport hi
    exact passes_delivered N _ l hi _ h0 h1
  · intro n s' memory' h hsame
    have hsettled : Settled inputs s := by
      refine ⟨fun x hx => absurd hx (Multiset.notMem_zero x), mixture_initialised (transport :: l)⟩
    have hagree : ∀ c ∈ inputs, s.memory c = memory' c := by
      rintro ⟨buffer, i⟩ hc
      rcases hc with rfl | rfl
      · exact (hsame i).1.symm
      · exact (hsame i).2.symm
    obtain ⟨memory'', -, hrun⟩ := hsettled.lockstep hsafe memory' hagree h
    exact ⟨memory'', hrun⟩

end B70DualTP.Repro
