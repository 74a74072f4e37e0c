import B70DualTP.Library.Async
import Mathlib.Data.List.Range

/-! b70_allreduce_bench.cpp: the all-reduce of two cards over peer copies and through host
memory, as the host submits it. -/
namespace B70DualTP.Repro
open Library AsyncState
variable {V : Type}

/-- a0 and t0 are on the first card, a1 and t1 on the second, h0 and h1 in host memory. -/
inductive Buffer where
  | a0
  | t0
  | a1
  | t1
  | h0
  | h1
  deriving DecidableEq, Repr

abbrev Cell := Buffer × Nat

inductive Event where
  | e0
  | e1
  | d0
  | d1
  | u0
  | u1
  | ev0
  | ev1
  deriving DecidableEq, Repr

abbrev Program (V : Type) := List (HostCommand Event Cell V)

def copyElement (dst src : Buffer) (i : Nat) : Access Cell V := .load (src, i) fun v => .store (dst, i) v

/-- a[i] += t[i] -/
def addElement [Add V] (a t : Buffer) (i : Nat) : Access Cell V :=
  .load (a, i) fun x => .load (t, i) fun y => .store (a, i) (x + y)

/-- A copy of N elements, of which it writes some. -/
def copyTask (dst src : Buffer) (N : Nat) (written : Nat → Bool) : List (Access Cell V) :=
  ((List.range N).filter written).map (copyElement dst src)

def addTask [Add V] (a t : Buffer) (N : Nat) : List (Access Cell V) := (List.range N).map (addElement a t)

/-- A queue's submission returns a new event. -/
def submit (event : Event) (task : List (Access Cell V)) : Program V := [.reset event, .launch event task]

/-- Which elements the copies of a call write, by the buffer they copy into. -/
abbrev Delivery := Buffer → Nat → Bool

def addBoth [Add V] (N : Nat) : Program V :=
  submit .ev0 (addTask .a0 .t0 N) ++ submit .ev1 (addTask .a1 .t1 N) ++ [.wait .ev0, .wait .ev1]

def peerAr [Add V] (N : Nat) (delivery : Delivery) : Program V :=
  [.reset .e0, .reset .e1,
    .launch .e0 (copyTask .t0 .a1 N (delivery .t0)),
    .launch .e1 (copyTask .t1 .a0 N (delivery .t1)),
    .wait .e0, .wait .e1] ++ addBoth N

def hostAr [Add V] (N : Nat) (delivery : Delivery) : Program V :=
  submit .d0 (copyTask .h0 .a0 N (delivery .h0)) ++ submit .d1 (copyTask .h1 .a1 N (delivery .h1)) ++
    [.wait .d0, .wait .d1] ++
  submit .u0 (copyTask .t0 .h1 N (delivery .t0)) ++ submit .u1 (copyTask .t1 .h0 N (delivery .t1)) ++
    [.wait .u0, .wait .u1] ++ addBoth N

inductive Transport where
  | peer
  | host
  deriving DecidableEq, Repr

def Transport.ar [Add V] (N : Nat) (delivery : Delivery) : Transport → Program V
  | .peer => peerAr N delivery
  | .host => hostAr N delivery

/-- The access works on element i: it loads from the sources and stores to dst. -/
structure Within (a : Access Cell V) (dst : Buffer) (sources : List Buffer) (i : Nat) : Prop where
  reads : ∀ c ∈ a.reads, c.1 ∈ sources ∧ c.2 = i
  writes : ∀ c ∈ a.writes, c = (dst, i)
  stores : (dst, i) ∈ a.stores

theorem copyElement_within (dst src : Buffer) (i : Nat) :
    Within (copyElement dst src i : Access Cell V) dst [src] i := by
  constructor
  · rintro c (rfl | hc)
    · exact ⟨List.mem_singleton_self src, rfl⟩
    · obtain ⟨v, hv⟩ := Set.mem_iUnion.mp hc
      cases hv
  · intro c hc
    obtain ⟨v, hv⟩ := Set.mem_iUnion.mp hc
    exact hv
  · exact Set.mem_iInter.mpr fun v => Set.mem_singleton (dst, i)

theorem addElement_within [Add V] (a t : Buffer) (i : Nat) :
    Within (addElement a t i : Access Cell V) a [a, t] i := by
  constructor
  · rintro c (rfl | hc)
    · exact ⟨List.mem_cons_self, rfl⟩
    · obtain ⟨x, rfl | hx⟩ := Set.mem_iUnion.mp hc
      · exact ⟨List.mem_cons_of_mem _ (List.mem_singleton_self t), rfl⟩
      · obtain ⟨y, hy⟩ := Set.mem_iUnion.mp hx
        cases hy
  · intro c hc
    obtain ⟨x, hx⟩ := Set.mem_iUnion.mp hc
    obtain ⟨y, hy⟩ := Set.mem_iUnion.mp hx
    exact hy
  · exact Set.mem_iInter.mpr fun x => Set.mem_iInter.mpr fun y => Set.mem_singleton (a, i)

theorem Within.apart {a b : Access Cell V} {dst dst' : Buffer} {sources sources' : List Buffer} {i j : Nat}
    (ha : Within a dst sources i) (hb : Within b dst' sources' j)
    (h : i ≠ j ∨ dst ≠ dst' ∧ dst ∉ sources' ∧ dst' ∉ sources) : (Pending.access a).Apart (.access b) := by
  have hconflict : ∀ {a b : Access Cell V} {dst dst' : Buffer} {sources sources' : List Buffer} {i j : Nat},
      Within a dst sources i → Within b dst' sources' j → (i ≠ j ∨ dst ≠ dst' ∧ dst ∉ sources') →
      ∀ c ∈ a.writes, c ∉ b.reads ∧ c ∉ b.writes := by
    intro a b dst dst' sources sources' i j ha hb h c hc
    obtain rfl := ha.writes c hc
    constructor
    · intro hread
      obtain ⟨hsource, hi⟩ := hb.reads _ hread
      rcases h with h | h
      · exact h hi
      · exact h.2 hsource
    · intro hwrite
      cases hb.writes _ hwrite
      rcases h with h | h
      · exact h rfl
      · exact h.1 rfl
  refine ⟨hconflict ha hb ?_, hconflict hb ha ?_⟩
  · exact h.imp_right fun h => ⟨h.1, h.2.1⟩
  · exact h.imp Ne.symm fun h => ⟨Ne.symm h.1, h.2.2⟩

/-- A task of one access for each of its elements. -/
def Elementwise (task : List (Access Cell V)) (dst : Buffer) (sources : List Buffer) : Prop :=
  ∃ (indices : List Nat) (element : Nat → Access Cell V), indices.Nodup ∧ task = indices.map element ∧
    ∀ i, Within (element i) dst sources i

theorem copyTask_elementwise (dst src : Buffer) (N : Nat) (written : Nat → Bool) :
    Elementwise (copyTask dst src N written : List (Access Cell V)) dst [src] :=
  ⟨_, _, List.nodup_range.filter written, rfl, copyElement_within dst src⟩

theorem addTask_elementwise [Add V] (a t : Buffer) (N : Nat) :
    Elementwise (addTask a t N : List (Access Cell V)) a [a, t] :=
  ⟨_, _, List.nodup_range, rfl, addElement_within a t⟩

theorem Elementwise.pairwise {task : List (Access Cell V)} {dst : Buffer} {sources : List Buffer}
    (h : Elementwise task dst sources) : task.Pairwise fun a b => (Pending.access a).Apart (.access b) := by
  obtain ⟨indices, element, hnodup, rfl, hwithin⟩ := h
  rw [List.pairwise_map]
  exact hnodup.imp fun hij => (hwithin _).apart (hwithin _) (.inl hij)

/-- Two tasks make a round if neither stores to a buffer of the other. -/
theorem Elementwise.round {task task' : List (Access Cell V)} {dst dst' : Buffer} {sources sources' : List Buffer}
    (h : Elementwise task dst sources) (h' : Elementwise task' dst' sources')
    (hne : dst ≠ dst' ∧ dst ∉ sources' ∧ dst' ∉ sources) : Round task task' := by
  refine ⟨h.pairwise, h'.pairwise, ?_⟩
  obtain ⟨indices, element, -, rfl, hwithin⟩ := h
  obtain ⟨indices', element', -, rfl, hwithin'⟩ := h'
  intro a ha b hb
  obtain ⟨i, -, rfl⟩ := List.mem_map.mp ha
  obtain ⟨j, -, rfl⟩ := List.mem_map.mp hb
  exact (hwithin i).apart (hwithin' j) (.inr hne)

section Disciplined
variable [Add V] {N : Nat} {delivery : Delivery} {program : Program V}

theorem addBoth_disciplined (hrest : ∀ signalled, Disciplined program signalled 0) (signalled : Event → Bool) :
    Disciplined (addBoth N ++ program) signalled 0 :=
  disciplined_round (by decide)
    ((addTask_elementwise .a0 .t0 N).round (addTask_elementwise .a1 .t1 N) (by decide)) hrest

theorem ar_disciplined (hrest : ∀ signalled, Disciplined program signalled 0) (transport : Transport)
    (signalled : Event → Bool) : Disciplined (transport.ar N delivery ++ program) signalled 0 := by
  cases transport with
  | peer =>
    have hcopies := (copyTask_elementwise (V := V) .t0 .a1 N (delivery .t0)).round
      (copyTask_elementwise .t1 .a0 N (delivery .t1)) (by decide)
    exact disciplined_round_resets_first (by decide) hcopies (addBoth_disciplined hrest)
  | host =>
    have hdown := (copyTask_elementwise (V := V) .h0 .a0 N (delivery .h0)).round
      (copyTask_elementwise .h1 .a1 N (delivery .h1)) (by decide)
    have hup := (copyTask_elementwise (V := V) .t0 .h1 N (delivery .t0)).round
      (copyTask_elementwise .t1 .h0 N (delivery .t1)) (by decide)
    exact disciplined_round (by decide) hdown fun _ => disciplined_round (by decide) hup (addBoth_disciplined hrest)

end Disciplined

def copied (dst src : Buffer) (N : Nat) (written : Nat → Bool) (memory : Cell → V) : Cell → V := fun c =>
  if c.1 = dst ∧ c.2 < N ∧ written c.2 = true then memory (src, c.2) else memory c

def added [Add V] (a t : Buffer) (N : Nat) (memory : Cell → V) : Cell → V := fun c =>
  if c.1 = a ∧ c.2 < N then memory (a, c.2) + memory (t, c.2) else memory c

/-- Accesses that each compute an element from the cells of its own place can be read off
the memory before them. -/
theorem foldl_elements {dst : Buffer} {element : Nat → Access Cell V} (value : (Cell → V) → Nat → V)
    (hexec : ∀ i memory, (element i).exec memory = Function.update memory (dst, i) (value memory i))
    (hvalue : ∀ i memory memory', (∀ buffer, memory (buffer, i) = memory' (buffer, i)) →
      value memory i = value memory' i)
    (N : Nat) (written : Nat → Bool) (memory : Cell → V) :
    (((List.range N).filter written).map element).foldl (fun memory a => a.exec memory) memory = fun c =>
      if c.1 = dst ∧ c.2 < N ∧ written c.2 = true then value memory c.2 else memory c := by
  induction N with
  | zero =>
    funext c
    simp
  | succ N ih =>
    rw [List.range_succ, List.filter_append, List.map_append, List.foldl_append, ih]
    funext ⟨buffer, i⟩
    by_cases hw : written N = true
    · simp only [List.filter_cons_of_pos hw, List.filter_nil, List.map_cons, List.map_nil, List.foldl_cons,
        List.foldl_nil, hexec]
      by_cases hc : (buffer, i) = (dst, N)
      · cases hc
        rw [Function.update_self]
        simpa [hw] using hvalue N _ _ fun buffer => by simp
      · rw [Function.update_of_ne hc]
        apply if_congr _ rfl rfl
        constructor
        · exact fun ⟨hb, hlt, hwi⟩ => ⟨hb, by omega, hwi⟩
        · rintro ⟨rfl, hlt, hwi⟩
          have hne : i ≠ N := by
            rintro rfl
            exact hc rfl
          exact ⟨rfl, by omega, hwi⟩
    · simp only [List.filter_cons_of_neg hw, List.filter_nil, List.map_nil, List.foldl_nil]
      apply if_congr _ rfl rfl
      constructor
      · exact fun ⟨hb, hlt, hwi⟩ => ⟨hb, by omega, hwi⟩
      · rintro ⟨hb, hlt, hwi⟩
        have hne : i ≠ N := by
          rintro rfl
          exact hw hwi
        exact ⟨hb, by omega, hwi⟩

theorem foldl_copyTask (dst src : Buffer) (N : Nat) (written : Nat → Bool) (memory : Cell → V) :
    (copyTask dst src N written).foldl (fun memory a => a.exec memory) memory = copied dst src N written memory :=
  foldl_elements (fun memory i => memory (src, i)) (fun _ _ => rfl) (fun _ _ _ h => h src) N written memory

theorem foldl_addTask [Add V] (a t : Buffer) (N : Nat) (memory : Cell → V) :
    (addTask a t N).foldl (fun memory a => a.exec memory) memory = added a t N memory := by
  have hall : addTask (V := V) a t N = ((List.range N).filter fun _ => true).map (addElement a t) := by
    rw [addTask, List.filter_true]
  rw [hall, foldl_elements (fun memory i => memory (a, i) + memory (t, i)) (fun _ _ => rfl)
    (fun _ _ _ h => by rw [h a, h t])]
  funext c
  simp [added]

/-- The memory after a call, when its copies write what delivery says. -/
def Transport.pass [Add V] (N : Nat) (delivery : Delivery) (memory : Cell → V) : Transport → Cell → V
  | .peer =>
    added .a1 .t1 N (added .a0 .t0 N (copied .t1 .a0 N (delivery .t1) (copied .t0 .a1 N (delivery .t0) memory)))
  | .host =>
    added .a1 .t1 N (added .a0 .t0 N (copied .t1 .h0 N (delivery .t1) (copied .t0 .h1 N (delivery .t0)
      (copied .h1 .a1 N (delivery .h1) (copied .h0 .a0 N (delivery .h0) memory)))))

section Calls
variable [Add V] (N : Nat)

theorem sequential_ar (delivery : Delivery) (memory : Cell → V) (transport : Transport) :
    sequential (transport.ar N delivery) memory = transport.pass N delivery memory := by
  cases transport with
  | peer =>
    simp only [Transport.ar, peerAr, addBoth, submit, List.cons_append, List.nil_append, sequential, foldl_copyTask,
      foldl_addTask, Transport.pass]
  | host =>
    simp only [Transport.ar, hostAr, addBoth, submit, List.cons_append, List.nil_append, sequential, foldl_copyTask,
      foldl_addTask, Transport.pass]

/-- Calls one after the other, each with what its copies write. -/
def calls : List (Transport × Delivery) → Program V
  | [] => []
  | (transport, delivery) :: rest => transport.ar N delivery ++ calls rest

def passes (memory : Cell → V) : List (Transport × Delivery) → Cell → V
  | [] => memory
  | (transport, delivery) :: rest => passes (transport.pass N delivery memory) rest

theorem calls_disciplined (l : List (Transport × Delivery)) (signalled : Event → Bool) :
    Disciplined (calls N l : Program V) signalled 0 := by
  induction l generalizing signalled with
  | nil => exact Multiset.pairwise_zero _
  | cons call rest ih => exact ar_disciplined ih call.1 signalled

theorem calls_safe (l : List (Transport × Delivery)) (memory : Cell → V) (signalled : Event → Bool) :
    Safe ⟨memory, signalled, calls N l, 0⟩ :=
  ⟨calls_disciplined N l signalled, fun x hx => absurd hx (Multiset.notMem_zero x)⟩

theorem sequential_calls (l : List (Transport × Delivery)) (memory : Cell → V) :
    sequential (calls N l) memory = passes N memory l := by
  induction l generalizing memory with
  | nil => rfl
  | cons call rest ih =>
    rw [calls, sequential_append, sequential_ar, ih]
    rfl

/-- However the copies and kernels of these calls interleave, the passes say what is in
memory at the end. -/
theorem calls_converge (l : List (Transport × Delivery)) (memory : Cell → V) (signalled : Event → Bool) :
    Converges Step ⟨memory, signalled, calls N l, 0⟩ fun z : AsyncState Event Cell V =>
      z.commands = [] ∧ z.flight = 0 ∧ z.memory = passes N memory l := by
  rw [← sequential_calls]
  exact (calls_safe N l memory signalled).converges

end Calls

end B70DualTP.Repro
