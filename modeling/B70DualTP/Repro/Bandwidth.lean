import Mathlib.Data.List.Basic

/-! b70_p2p_bandwidth.cpp: peer copies between two cards at several sizes, and the check of
what they left. -/
namespace B70DualTP.Repro.Bandwidth

/-- float((i*2654435761u) % seedmod), with i of 64 bits. The value is a natural number,
which a float holds exactly. -/
def pattern (seedmod i : Nat) : Nat := i * 2654435761 % (1 <<< 64) % seedmod

def SM : Nat := 1000003
def MB : Nat := 1024 * 1024
def sizes : List Nat := [1 * MB, 4 * MB, 16 * MB, 64 * MB, 256 * MB, 512 * MB]
def MAXN : Nat := 512 * MB / 4

structure Cards where
  b0 : Nat → Nat
  b1 : Nat → Nat

/-- The second card's engine pulls from the first, or the first card's from the second. -/
inductive Direction where
  | forward
  | reverse
  deriving DecidableEq, Repr

namespace Cards

/-- A copy call over N elements, of which the engine writes some. -/
def copy (c : Cards) (d : Direction) (N : Nat) (written : Nat → Bool) : Cards :=
  match d with
  | .forward => { c with b1 := fun i => if i < N ∧ written i = true then c.b0 i else c.b1 i }
  | .reverse => { c with b0 := fun i => if i < N ∧ written i = true then c.b1 i else c.b0 i }

end Cards

/-- How the engines behave. -/
structure Engine where
  /-- Whether a call of a pass writes an element. -/
  written : (bytes : Nat) → Direction → (call : Nat) → Nat → Bool
  /-- The bidirectional phase, in which both engines copy at once: the elements they write,
  in the order in which they are written. -/
  overlapped : (bytes : Nat) → List (Direction × Nat)

/-- The copy calls of one loop. -/
def copies (engine : Engine) (d : Direction) (bytes first : Nat) : Nat → Cards → Cards
  | 0, c => c
  | n + 1, c => copies engine d bytes (first + 1) n (c.copy d (bytes / 4) (engine.written bytes d first))

def benchCopy (engine : Engine) (d : Direction) (bytes warmup iters : Nat) (c : Cards) : Cards :=
  copies engine d bytes warmup iters (copies engine d bytes 0 warmup c)

def bidirectional (engine : Engine) (bytes : Nat) (c : Cards) : Cards :=
  (engine.overlapped bytes).foldl (fun c write => c.copy write.1 (bytes / 4) fun i => i == write.2) c

def verify (dst : Nat → Nat) (N seedmod : Nat) : Bool := (List.range N).all fun i => dst i == pattern seedmod i

def warm : Nat := 3
def iters (bytes : Nat) : Nat := max 10 (min 2000 (2 * 1024 * MB / bytes))

/-- What is printed of a size, less the bandwidths. -/
structure Result where
  bytes : Nat
  ok : Direction → Bool

def Result.verdict (result : Result) (d : Direction) : String := if result.ok d then "ok" else "CORRUPT"

def measure (engine : Engine) (bytes : Nat) (c : Cards) : Result × Cards :=
  let N := bytes / 4
  let c := benchCopy engine .forward bytes warm (iters bytes) c
  let okFwd := verify c.b1 N SM
  let c := benchCopy engine .reverse bytes warm (iters bytes) c
  let okRev := verify c.b0 N SM
  (⟨bytes, fun d => match d with
    | .forward => okFwd
    | .reverse => okRev⟩, bidirectional engine bytes c)

def sweep (engine : Engine) : List Nat → Cards → List Result
  | [], _ => []
  | bytes :: rest, c => (measure engine bytes c).1 :: sweep engine rest (measure engine bytes c).2

/-- Both buffers are filled before the first copy. -/
def initial (memory : Cards) : Cards where
  b0 i := if i < MAXN then pattern SM i else memory.b0 i
  b1 i := if i < MAXN then pattern SM i else memory.b1 i

def main (engine : Engine) (memory : Cards) : List Result := sweep engine sizes (initial memory)

/-- Some call of the pass at this size writes the element. -/
def Engine.PassWrites (engine : Engine) (bytes : Nat) (d : Direction) (i : Nat) : Prop :=
  i < bytes / 4 ∧ ∃ call < warm + iters bytes, engine.written bytes d call i = true

/-- Some copy of this pass or of an earlier one writes the element. -/
def Engine.Delivers (engine : Engine) (earlier : List Nat) (bytes : Nat) (d : Direction) (i : Nat) : Prop :=
  engine.PassWrites bytes d i ∨ ∃ bytes' ∈ earlier, engine.PassWrites bytes' d i ∨
    i < bytes' / 4 ∧ (d, i) ∈ engine.overlapped bytes'

/-- The line for a size does not say ok where data was dropped. -/
def NeverOkOnDrop (engine : Engine) (memory : Cards) (k : Fin sizes.length) (d : Direction) : Prop :=
  (∃ i < sizes[k] / 4, ¬ engine.Delivers (sizes.take k) sizes[k] d i) →
    ∀ result ∈ (main engine memory)[k]?, result.ok d = false ∧ result.verdict d = "CORRUPT"

def Intact (c : Cards) : Prop := ∀ i < MAXN, c.b0 i = pattern SM i ∧ c.b1 i = pattern SM i

theorem initial_intact (memory : Cards) : Intact (initial memory) := by
  intro i hi
  exact ⟨if_pos hi, if_pos hi⟩

/-- A copy moves the pattern onto itself, whatever it writes. -/
theorem Intact.copy {c : Cards} (h : Intact c) (d : Direction) (N : Nat) (written : Nat → Bool) :
    Intact (c.copy d N written) := by
  intro i hi
  obtain ⟨h0, h1⟩ := h i hi
  cases d with
  | forward =>
    refine ⟨h0, ?_⟩
    simp only [Cards.copy]
    split
    · exact h0
    · exact h1
  | reverse =>
    refine ⟨?_, h1⟩
    simp only [Cards.copy]
    split
    · exact h1
    · exact h0

theorem Intact.copies {engine : Engine} {c : Cards} (h : Intact c) (d : Direction) (bytes first n : Nat) :
    Intact (copies engine d bytes first n c) := by
  induction n generalizing first c with
  | zero => exact h
  | succ n ih => exact ih (h.copy d _ _) (first + 1)

theorem Intact.benchCopy {c : Cards} (h : Intact c) (engine : Engine) (d : Direction) (bytes warmup iters : Nat) :
    Intact (benchCopy engine d bytes warmup iters c) := (h.copies d bytes 0 warmup).copies d bytes warmup iters

theorem Intact.bidirectional {engine : Engine} {c : Cards} (h : Intact c) (bytes : Nat) :
    Intact (bidirectional engine bytes c) := by
  rw [Bandwidth.bidirectional]
  induction engine.overlapped bytes generalizing c with
  | nil => exact h
  | cons write writes ih => exact ih (h.copy write.1 _ _)

theorem verify_of_intact {dst : Nat → Nat} {N : Nat} (h : ∀ i < MAXN, dst i = pattern SM i) (hN : N ≤ MAXN) :
    verify dst N SM = true := by
  rw [verify, List.all_eq_true]
  intro i hi
  have hlt := List.mem_range.mp hi
  rw [h i (by omega)]
  exact beq_self_eq_true _

theorem Intact.measure {c : Cards} (h : Intact c) (engine : Engine) {bytes : Nat} (hbytes : bytes / 4 ≤ MAXN) :
    (∀ d, (measure engine bytes c).1.ok d = true) ∧ Intact (measure engine bytes c).2 := by
  have hfwd := h.benchCopy engine .forward bytes warm (iters bytes)
  have hrev := hfwd.benchCopy engine .reverse bytes warm (iters bytes)
  refine ⟨fun d => ?_, hrev.bidirectional bytes⟩
  cases d with
  | forward => exact verify_of_intact (fun i hi => (hfwd i hi).2) hbytes
  | reverse => exact verify_of_intact (fun i hi => (hrev i hi).1) hbytes

theorem sweep_ok {engine : Engine} {c : Cards} (h : Intact c) {l : List Nat} (hl : ∀ bytes ∈ l, bytes / 4 ≤ MAXN) :
    ∀ result ∈ sweep engine l c, ∀ d, result.ok d = true := by
  induction l generalizing c with
  | nil =>
    intro result hresult
    cases hresult
  | cons bytes l ih =>
    obtain ⟨hbytes, hrest⟩ := List.forall_mem_cons.mp hl
    obtain ⟨hok, hnext⟩ := h.measure engine hbytes
    intro result hresult
    rcases List.mem_cons.mp hresult with rfl | hresult
    · exact hok
    · exact ih hnext hrest result hresult

/-- Both buffers hold what the check looks for from the start, so every line says ok,
whatever the engines do. -/
theorem main_ok (engine : Engine) (memory : Cards) : ∀ result ∈ main engine memory, ∀ d, result.ok d = true :=
  sweep_ok (initial_intact memory) (by decide)

theorem length_sweep (engine : Engine) (l : List Nat) (c : Cards) : (sweep engine l c).length = l.length := by
  induction l generalizing c with
  | nil => rfl
  | cons bytes l ih => rw [sweep, List.length_cons, ih, List.length_cons]

private theorem exists_ok (engine : Engine) (memory : Cards) (k : Fin sizes.length) (d : Direction) :
    ∃ result ∈ (main engine memory)[k]?, result.ok d = true := by
  have hlt : (k : Nat) < (main engine memory).length := by
    rw [main, length_sweep]
    exact k.2
  exact ⟨_, List.getElem?_eq_getElem hlt, main_ok engine memory _ (List.getElem_mem hlt) d⟩

/-- The benchmark keeps the promise of its header exactly where nothing was dropped: at a
size and in a direction where every element has been written by some copy so far. -/
theorem neverOkOnDrop_iff (engine : Engine) (memory : Cards) (k : Fin sizes.length) (d : Direction) :
    NeverOkOnDrop engine memory k d ↔ ∀ i < sizes[k] / 4, engine.Delivers (sizes.take k) sizes[k] d i := by
  constructor
  · intro h i hi
    by_contra hdropped
    obtain ⟨result, hresult, hok⟩ := exists_ok engine memory k d
    obtain ⟨hfalse, -⟩ := h ⟨i, hi, hdropped⟩ result hresult
    rw [hok] at hfalse
    cases hfalse
  · rintro h ⟨i, hi, hdropped⟩
    exact absurd (h i hi) hdropped

def silentEngine : Engine := ⟨fun _ _ _ _ => false, fun _ => []⟩

/-- The first line says ok although not one element was copied. -/
theorem silentEngine_ok : ¬ NeverOkOnDrop silentEngine ⟨fun _ => 0, fun _ => 0⟩ ⟨0, by decide⟩ .forward := by
  intro h
  obtain ⟨result, hresult, hok⟩ := exists_ok silentEngine ⟨fun _ => 0, fun _ => 0⟩ ⟨0, by decide⟩ .forward
  have hdropped : ¬ silentEngine.Delivers (sizes.take 0) sizes[0] .forward 0 := by
    rintro (⟨-, call, -, hwritten⟩ | ⟨bytes, hbytes, -⟩)
    · cases hwritten
    · cases hbytes
  obtain ⟨hfalse, -⟩ := h ⟨0, by decide, hdropped⟩ result hresult
  rw [hok] at hfalse
  cases hfalse

end B70DualTP.Repro.Bandwidth
