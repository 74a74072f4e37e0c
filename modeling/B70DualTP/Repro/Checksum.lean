import B70DualTP.Repro.AllReduce

/-! The benchmark of b70_allreduce_bench.cpp around the two all-reduces: at every size one
checked call of each, then many timed ones. -/
namespace B70DualTP.Repro
open Library AsyncState
variable {V : Type}

/-- The three constants, in an arithmetic where the sum of the inputs is 3.0. -/
structure Constants (V : Type) [Add V] where
  one : V
  two : V
  three : V
  one_add_two : one + two = three
  two_add_one : two + one = three

/-- The memory, and how many calls have been made so far. -/
structure Machine (V : Type) where
  memory : Cell → V
  call : Nat

section Benchmark
variable [Add V] (constants : Constants V) (deliveries : Nat → Delivery)

def fill (buffer : Buffer) (v : V) (N : Nat) (memory : Cell → V) : Cell → V := fun c =>
  if c.1 = buffer ∧ c.2 < N then v else memory c

def Machine.resetInputs (s : Machine V) (N : Nat) : Machine V :=
  { s with memory := fill .a1 constants.two N (fill .a0 constants.one N s.memory) }

/-- One call, when the copies of the n-th call write what deliveries says. -/
def Machine.ar (s : Machine V) (transport : Transport) (N : Nat) : Machine V :=
  ⟨transport.pass N (deliveries s.call) s.memory, s.call + 1⟩

def Machine.repeatAr (s : Machine V) (transport : Transport) (N : Nat) : Nat → Machine V
  | 0 => s
  | n + 1 => (s.ar deliveries transport N).repeatAr transport N n

/-- What is on the first card. -/
def Machine.check [DecidableEq V] (s : Machine V) (N : Nat) : Bool :=
  (List.range N).all fun i => s.memory (.a0, i) == constants.three

def sizes : List Nat := [4096, 16384, 65536, 262144, 1 <<< 20, 4 <<< 20, 16 <<< 20, 64 <<< 20]

def iters (S : Nat) : Nat := max 20 (min 3000 ((1 <<< 30) / S))

def sizeText (S : Nat) : String := if S < 1 <<< 20 then s!"{S / 1024}KB" else s!"{S / (1 <<< 20)}MB"

/-- What is printed of a size, less the times. -/
structure Line where
  msg : String
  note : String
  deriving DecidableEq, Repr

/-- After the correctness pass of a transport. -/
def Machine.correctness (s : Machine V) (transport : Transport) (N : Nat) : Machine V :=
  (s.resetInputs constants N).ar deliveries transport N

/-- After the timed calls of a transport. -/
def Machine.timing (s : Machine V) (transport : Transport) (S : Nat) : Machine V :=
  ((s.resetInputs constants (S / 4)).repeatAr deliveries transport (S / 4) 5).repeatAr deliveries transport (S / 4)
    (iters S)

def Machine.measure [DecidableEq V] (s : Machine V) (S : Nat) : Line × Machine V :=
  let N := S / 4
  let peer := s.correctness constants deliveries .peer N
  let okp := peer.check constants N
  let host := peer.correctness constants deliveries .host N
  let okh := host.check constants N
  (⟨sizeText S, if okp && okh then "verified" else "CHECKSUM-FAIL"⟩,
    (host.timing constants deliveries .peer S).timing constants deliveries .host S)

def Machine.sweep [DecidableEq V] (s : Machine V) : List Nat → List Line
  | [] => []
  | S :: rest => (s.measure constants deliveries S).1 :: (s.measure constants deliveries S).2.sweep rest

/-- The state in which the sizes after these begin. -/
def Machine.after [DecidableEq V] (s : Machine V) : List Nat → Machine V
  | [] => s
  | S :: rest => (s.measure constants deliveries S).2.after rest

def main [DecidableEq V] (memory : Cell → V) : List Line := Machine.sweep constants deliveries ⟨memory, 0⟩ sizes

/-- The copies of a call bring element i of each input to the other card. -/
def Transport.Delivers (delivery : Delivery) (i : Nat) : Transport → Prop
  | .peer => delivery .t0 i = true ∧ delivery .t1 i = true
  | .host => (delivery .h1 i = true ∧ delivery .t0 i = true) ∧ delivery .h0 i = true ∧ delivery .t1 i = true

/-- The correctness pass from this state is an all-reduce: everything is delivered, and
both cards end up with the sum. -/
def Machine.Correct (s : Machine V) (transport : Transport) (N : Nat) : Prop :=
  ∀ i < N, transport.Delivers (deliveries s.call) i ∧
    (s.correctness constants deliveries transport N).memory (.a0, i) = constants.three ∧
    (s.correctness constants deliveries transport N).memory (.a1, i) = constants.three

/-- The line for the k-th size says CHECKSUM-FAIL unless both correctness passes are right. -/
def FailsUnlessCorrect [DecidableEq V] (memory : Cell → V) (k : Fin sizes.length) : Prop :=
  let s := Machine.after constants deliveries ⟨memory, 0⟩ (sizes.take k)
  let N := sizes[k] / 4
  ¬ (s.Correct constants deliveries .peer N ∧
      (s.correctness constants deliveries .peer N).Correct constants deliveries .host N) →
    ∀ line ∈ (main constants deliveries memory)[k]?, line.note = "CHECKSUM-FAIL"

/-- When the check can be trusted, in terms of what a size begins with and which elements
its copies write. Either all is delivered, or the first card misses an element in whose
place it finds a value that does not pass for the second card's input. -/
def Machine.Detects (s : Machine V) (N : Nat) : Prop :=
  (∀ i < N, Transport.peer.Delivers (deliveries s.call) i ∧ Transport.host.Delivers (deliveries (s.call + 1)) i) ∨
  (∃ i < N, deliveries s.call .t0 i = false ∧ constants.one + s.memory (.t0, i) ≠ constants.three) ∨
  ∃ i < N, deliveries (s.call + 1) .t0 i = true ∧ deliveries (s.call + 1) .h1 i = false ∧
    constants.one + s.memory (.h1, i) ≠ constants.three

section Passes
variable {constants deliveries} {s : Machine V} {N i : Nat}

theorem peer_a0 (hi : i < N) : (s.correctness constants deliveries .peer N).memory (.a0, i) =
    constants.one + if deliveries s.call .t0 i = true then constants.two else s.memory (.t0, i) := by
  simp [Machine.correctness, Machine.ar, Machine.resetInputs, Transport.pass, added, copied, fill, hi]

theorem peer_a1 (hi : i < N) : (s.correctness constants deliveries .peer N).memory (.a1, i) =
    constants.two + if deliveries s.call .t1 i = true then constants.one else s.memory (.t1, i) := by
  simp [Machine.correctness, Machine.ar, Machine.resetInputs, Transport.pass, added, copied, fill, hi]

theorem peer_t0 (hi : i < N) : (s.correctness constants deliveries .peer N).memory (.t0, i) =
    if deliveries s.call .t0 i = true then constants.two else s.memory (.t0, i) := by
  simp [Machine.correctness, Machine.ar, Machine.resetInputs, Transport.pass, added, copied, fill, hi]

theorem peer_h1 : (s.correctness constants deliveries .peer N).memory (.h1, i) = s.memory (.h1, i) := by
  simp [Machine.correctness, Machine.ar, Machine.resetInputs, Transport.pass, added, copied, fill]

theorem host_a0 (hi : i < N) : (s.correctness constants deliveries .host N).memory (.a0, i) =
    constants.one + if deliveries s.call .t0 i = true then
      (if deliveries s.call .h1 i = true then constants.two else s.memory (.h1, i)) else s.memory (.t0, i) := by
  simp [Machine.correctness, Machine.ar, Machine.resetInputs, Transport.pass, added, copied, fill, hi]

theorem host_a1 (hi : i < N) : (s.correctness constants deliveries .host N).memory (.a1, i) =
    constants.two + if deliveries s.call .t1 i = true then
      (if deliveries s.call .h0 i = true then constants.one else s.memory (.h0, i)) else s.memory (.t1, i) := by
  simp [Machine.correctness, Machine.ar, Machine.resetInputs, Transport.pass, added, copied, fill, hi]

/-- Where everything is delivered, both cards end up with the sum. -/
theorem correct_iff (transport : Transport) : s.Correct constants deliveries transport N ↔
    ∀ i < N, transport.Delivers (deliveries s.call) i := by
  constructor
  · exact fun h i hi => (h i hi).1
  · intro h i hi
    refine ⟨h i hi, ?_⟩
    cases transport with
    | peer =>
      obtain ⟨ht0, ht1⟩ := h i hi
      rw [peer_a0 hi, peer_a1 hi, if_pos ht0, if_pos ht1]
      exact ⟨constants.one_add_two, constants.two_add_one⟩
    | host =>
      obtain ⟨⟨hh1, ht0⟩, hh0, ht1⟩ := h i hi
      rw [host_a0 hi, host_a1 hi, if_pos ht0, if_pos ht1, if_pos hh1, if_pos hh0]
      exact ⟨constants.one_add_two, constants.two_add_one⟩

variable [DecidableEq V]

theorem check_iff : s.check constants N = true ↔ ∀ i < N, s.memory (.a0, i) = constants.three := by
  simp only [Machine.check, List.all_eq_true, List.mem_range, beq_iff_eq]

/-- The first card passes the check of the peer pass. -/
theorem peer_check_iff : (s.correctness constants deliveries .peer N).check constants N = true ↔
    ∀ i < N, deliveries s.call .t0 i = false → constants.one + s.memory (.t0, i) = constants.three := by
  rw [check_iff]
  apply forall₂_congr
  intro i hi
  rw [peer_a0 hi]
  cases deliveries s.call .t0 i with
  | true => simp [constants.one_add_two]
  | false => simp

/-- After a peer pass that passed the check, an element that is not written to t0 does not
show: its old value there makes the sum right. -/
theorem host_check_iff (hpeer : (s.correctness constants deliveries .peer N).check constants N = true) :
    ((s.correctness constants deliveries .peer N).correctness constants deliveries .host N).check constants N = true ↔
      ∀ i < N, deliveries (s.call + 1) .t0 i = true → deliveries (s.call + 1) .h1 i = false →
        constants.one + s.memory (.h1, i) = constants.three := by
  have hcall : (s.correctness constants deliveries .peer N).call = s.call + 1 := rfl
  rw [check_iff] at hpeer ⊢
  apply forall₂_congr
  intro i hi
  have hstale := hpeer i hi
  rw [peer_a0 hi, ← peer_t0 hi] at hstale
  rw [host_a0 hi, hcall, peer_h1]
  cases deliveries (s.call + 1) .t0 i with
  | false => simpa using hstale
  | true =>
    cases deliveries (s.call + 1) .h1 i with
    | true => simp [constants.one_add_two]
    | false => simp

theorem note_eq (S : Nat) : (s.measure constants deliveries S).1.note = "CHECKSUM-FAIL" ↔
    ¬ ((s.correctness constants deliveries .peer (S / 4)).check constants (S / 4) = true ∧
      ((s.correctness constants deliveries .peer (S / 4)).correctness constants deliveries .host (S / 4)).check
        constants (S / 4) = true) := by
  simp only [Machine.measure, ← Bool.and_eq_true]
  split
  · rename_i h
    simp [h]
  · rename_i h
    simp [h]

/-- One size, from any state. -/
theorem measure_detects_iff (S : Nat) :
    (¬ (s.Correct constants deliveries .peer (S / 4) ∧
        (s.correctness constants deliveries .peer (S / 4)).Correct constants deliveries .host (S / 4)) →
      (s.measure constants deliveries S).1.note = "CHECKSUM-FAIL") ↔ s.Detects constants deliveries (S / 4) := by
  have hcall : (s.correctness constants deliveries .peer (S / 4)).call = s.call + 1 := rfl
  rw [note_eq, correct_iff, correct_iff, hcall, Machine.Detects]
  constructor
  · intro h
    by_cases hall : ∀ i < S / 4, Transport.peer.Delivers (deliveries s.call) i ∧
        Transport.host.Delivers (deliveries (s.call + 1)) i
    · exact .inl hall
    · have hfail := h fun ⟨hpeer, hhost⟩ => hall fun i hi => ⟨hpeer i hi, hhost i hi⟩
      by_cases hp : (s.correctness constants deliveries .peer (S / 4)).check constants (S / 4) = true
      · have hh : ¬ _ := fun hh => hfail ⟨hp, hh⟩
        rw [host_check_iff hp] at hh
        push Not at hh
        exact .inr (.inr hh)
      · rw [peer_check_iff] at hp
        push Not at hp
        exact .inr (.inl hp)
  · rintro (hall | ⟨i, hi, ht0, hne⟩ | ⟨i, hi, ht0, hh1, hne⟩) hbad ⟨hp, hh⟩
    · exact hbad ⟨fun i hi => (hall i hi).1, fun i hi => (hall i hi).2⟩
    · exact hne (peer_check_iff.mp hp i hi ht0)
    · exact hne ((host_check_iff hp).mp hh i hi ht0 hh1)

theorem sweep_getElem? (l : List Nat) (k : Nat) : (s.sweep constants deliveries l)[k]? =
    l[k]?.map fun S => ((s.after constants deliveries (l.take k)).measure constants deliveries S).1 := by
  induction l generalizing s k with
  | nil => rfl
  | cons S l ih =>
    cases k with
    | zero => rfl
    | succ k => exact ih k

end Passes

theorem main_getElem? [DecidableEq V] (memory : Cell → V) (k : Fin sizes.length) :
    (main constants deliveries memory)[k]? = some
      ((Machine.after constants deliveries ⟨memory, 0⟩ (sizes.take k)).measure constants deliveries sizes[k]).1 := by
  refine (sweep_getElem? sizes k).trans ?_
  rw [List.getElem?_eq_getElem k.2]
  rfl

/-- The note says CHECKSUM-FAIL for whatever goes wrong exactly where the check can see
it: a size begins with nothing, in the staging buffers of the first card, that passes for
what is not delivered. -/
theorem failsUnlessCorrect_iff [DecidableEq V] (memory : Cell → V) (k : Fin sizes.length) :
    FailsUnlessCorrect constants deliveries memory k ↔
      (Machine.after constants deliveries ⟨memory, 0⟩ (sizes.take k)).Detects constants deliveries (sizes[k] / 4) := by
  rw [← measure_detects_iff]
  constructor
  · exact fun h hbad => h hbad _ (main_getElem? constants deliveries memory k)
  · intro h hbad line hmem
    rw [Option.mem_def, main_getElem?] at hmem
    cases hmem
    exact h hbad

end Benchmark

def intConstants : Constants Int := ⟨1, 2, 3, rfl, rfl⟩

/-- Nothing is written to the second card. -/
def firstCardOnly : Nat → Delivery := fun _ buffer _ => buffer != .t1

/-- The first line says verified although the second card never got the first one's input:
the check reads a0 alone. -/
theorem firstCardOnly_verified : ¬ FailsUnlessCorrect intConstants firstCardOnly (fun _ => 0) ⟨0, by decide⟩ := by
  intro h
  have hdetects := (measure_detects_iff _).mp fun hbad =>
    h hbad _ (main_getElem? intConstants firstCardOnly (fun _ => 0) ⟨0, by decide⟩)
  rcases hdetects with hall | ⟨i, -, ht0, -⟩ | ⟨i, -, -, hh1, -⟩
  · have ht1 := (hall 0 (by decide)).1.2
    cases ht1
  · cases ht0
  · cases hh1

end B70DualTP.Repro
