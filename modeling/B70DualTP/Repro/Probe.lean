import B70DualTP.Repro.Bandwidth
import Mathlib.Data.List.FinRange
import Mathlib.Data.Nat.ModEq

/-! b70_p2p_canaccess_probe.cpp and b70_p2p_copy_probe.cpp: one direct copy between two cards
whose result is compared with its source. -/
namespace B70DualTP.Repro.Probe
open Bandwidth

/-- Four bytes of a buffer, read as a float: all of them 0xAB, which makes a value below zero, or a
natural number that a float holds exactly. -/
inductive Word where
  | filler
  | number (n : Nat)
  deriving DecidableEq, Repr

def N : Nat := 4 * 1024 * 1024

abbrev Buffer := Fin N → Word

/-- How the driver answers the two calls of a direct copy; zero is ZE_RESULT_SUCCESS. -/
structure Driver where
  create : Nat
  append : Nat
  /-- The element that the copy puts in the place of another one, if it writes there. -/
  source : Fin N → Option (Fin N)

/-- l0_copy and l0_dev2dev: the result code, and the destination. -/
def l0Copy (driver : Driver) (dst src : Buffer) : Int × Buffer :=
  if driver.create ≠ 0 then (-1, dst)
  else (if driver.append = 0 then 1 else -1, fun i => (driver.source i).elim (dst i) src)

/-- The elements that differ from what is expected of them. -/
def mismatched (dst : Buffer) (expected : Nat → Nat) : Nat :=
  (List.finRange N).countP fun i => dst i != .number (expected i)

/-- What is printed, and the exit code. -/
structure Report where
  lines : List String
  exit : Nat
  deriving DecidableEq, Repr

def hex (code : Nat) : String := String.ofList (Nat.toDigits 16 code)

theorem mismatched_eq_zero_iff {dst : Buffer} {expected : Nat → Nat} :
    mismatched dst expected = 0 ↔ ∀ i, dst i = .number (expected i) := by
  simp [mismatched, List.countP_eq_zero]

theorem l0Copy_returns_iff {driver : Driver} {dst src : Buffer} :
    (l0Copy driver dst src).1 = 1 ↔ driver.create = 0 ∧ driver.append = 0 := by
  rw [l0Copy]
  split
  · rename_i hcreate
    simp [hcreate]
  · rename_i hcreate
    split <;> simp_all

theorem l0Copy_dst {driver : Driver} (h : driver.create = 0) (dst src : Buffer) (i : Fin N) :
    (l0Copy driver dst src).2 i = (driver.source i).elim (dst i) src := by
  rw [l0Copy, if_neg (not_not.mpr h)]

/-- One direction between the two cards. -/
structure Link where
  /-- Both buffers are allocated. -/
  allocates : Bool
  driver : Driver

def oneDir (tag : String) (link : Link) : List String × Bool :=
  if link.allocates then
    let copied := l0Copy link.driver (fun _ => .filler) fun i => .number (pattern SM i)
    if copied.1 = 1 then
      let errs := mismatched copied.2 (pattern SM)
      let checksum := if errs = 0 then "PASS" else "FAIL"
      ([s!"  {tag}: zeCommandListAppendMemoryCopy=SUCCESS  checksum={checksum} ({errs}/{N} mismatched)"], errs = 0)
    else ([s!"  {tag}: zeCommandListAppendMemoryCopy=FAILED (clean error, no copy)"], false)
  else ([s!"  {tag}: ALLOC-FAIL"], false)

structure Hardware where
  /-- Discrete Level-Zero GPUs. -/
  gpus : Nat
  /-- What zeDeviceCanAccessPeer returns, and what it leaves in its argument. -/
  canAccess : Direction → Nat × Nat
  link : Direction → Link

def Hardware.accessLine (hw : Hardware) (tag : String) (d : Direction) : String :=
  let ret := hex (hw.canAccess d).1
  let canAccess := (hw.canAccess d).2
  s!"  {tag} : ret=0x{ret}  canAccess={canAccess}"

def resultLine (access copied verified : Bool) : String :=
  let canAccessPeer := if access then "YES" else "NO"
  let copyVerify := if copied then "PASS" else "FAIL"
  let verdict := if verified then "VERIFIED" else "BROKEN"
  s!"RESULT: canAccessPeer={canAccessPeer}  copy_verify={copyVerify}  =>  P2P_{verdict}"

def canAccessProbe (hw : Hardware) : Report :=
  let gpus := hw.gpus
  let head := s!"Discrete Level-Zero GPUs: {gpus}"
  if hw.gpus < 2 then ⟨[head, "RESULT: NEED-2-GPUS"], 2⟩
  else
    let ab := (hw.canAccess .forward).2 != 0
    let ba := (hw.canAccess .reverse).2 != 0
    let fwd := oneDir "dev0->dev1" (hw.link .forward)
    let rev := oneDir "dev1->dev0" (hw.link .reverse)
    let peerOk := ab && ba && fwd.2 && rev.2
    ⟨[head, "--- CHECK 1: zeDeviceCanAccessPeer ---", hw.accessLine "dev0->dev1" .forward,
        hw.accessLine "dev1->dev0" .reverse, "--- CHECK 2: direct L0 peer copy + verify ---"] ++ fwd.1 ++ rev.1 ++
      ["", resultLine (ab && ba) (fwd.2 && rev.2) peerOk], if peerOk then 0 else 1⟩

/-- No overflow: the pattern is a multiple of the index modulo SM. -/
theorem pattern_of_lt {i : Nat} (h : i < N) : pattern SM i = i * 2654435761 % SM := by
  have hsmall : i * 2654435761 < 1 <<< 64 :=
    calc i * 2654435761 ≤ N * 2654435761 := Nat.mul_le_mul_right _ h.le
      _ < 1 <<< 64 := by decide
  exact congrArg (· % SM) (Nat.mod_eq_of_lt hsmall)

/-- The factor is invertible modulo SM, so the pattern tells indices apart that differ modulo SM. -/
theorem pattern_eq_iff {i j : Nat} (hi : i < N) (hj : j < N) : pattern SM i = pattern SM j ↔ i ≡ j [MOD SM] := by
  have hcoprime : SM.gcd 2654435761 = 1 := by decide
  rw [pattern_of_lt hi, pattern_of_lt hj]
  exact ⟨fun h => Nat.ModEq.cancel_right_of_coprime hcoprime h, fun h => h.mul_right _⟩

/-- The copy says that it succeeds, and gives every element a value from its own place, or from one
that is a multiple of m away. -/
def Driver.Delivers (driver : Driver) (m : Nat) : Prop :=
  driver.create = 0 ∧ driver.append = 0 ∧ ∀ i, ∃ j, driver.source i = some j ∧ (j : Nat) ≡ i [MOD m]

theorem oneDir_iff {tag : String} {link : Link} :
    (oneDir tag link).2 = true ↔ link.allocates = true ∧ link.driver.Delivers SM := by
  have hplace : link.driver.create = 0 → ∀ i : Fin N,
      (l0Copy link.driver (fun _ => .filler) fun i => .number (pattern SM i)).2 i = .number (pattern SM i) ↔
        ∃ j, link.driver.source i = some j ∧ (j : Nat) ≡ i [MOD SM] := by
    intro hcreate i
    rw [l0Copy_dst hcreate]
    cases link.driver.source i with
    | none => simp
    | some j => simp [pattern_eq_iff j.2 i.2]
  rw [oneDir]
  split
  · rename_i hallocates
    dsimp only
    split
    · rename_i hreturns
      obtain ⟨hcreate, happend⟩ := l0Copy_returns_iff.mp hreturns
      simp only [decide_eq_true_eq, mismatched_eq_zero_iff, hplace hcreate]
      exact ⟨fun h => ⟨hallocates, hcreate, happend, h⟩, fun h => h.2.2.2⟩
    · rename_i hfails
      refine iff_of_false Bool.false_ne_true fun h => hfails ?_
      exact l0Copy_returns_iff.mpr ⟨h.2.1, h.2.2.1⟩
  · rename_i hfails
    exact iff_of_false Bool.false_ne_true fun h => hfails h.1

/-- The probe ends with exit code 0 exactly when both cards can access each other and both copies
have delivered every element. No element that is left unwritten passes, and none that is taken
from another place, unless the places are a multiple of 1000003 apart. -/
theorem verified_iff (hw : Hardware) : (canAccessProbe hw).exit = 0 ↔ 2 ≤ hw.gpus ∧ ∀ d : Direction,
    (hw.canAccess d).2 ≠ 0 ∧ (hw.link d).allocates = true ∧ (hw.link d).driver.Delivers SM := by
  have hboth : ∀ p : Direction → Prop, (∀ d, p d) ↔ p .forward ∧ p .reverse :=
    fun p => ⟨fun h => ⟨h _, h _⟩, fun h d => by cases d <;> simp only [h]⟩
  rw [canAccessProbe]
  split
  · rename_i hfew
    exact iff_of_false (by simp) fun h => Nat.not_lt.mpr h.1 hfew
  · rename_i henough
    simp only [ite_eq_left_iff, Nat.one_ne_zero, imp_false, not_not, Bool.and_eq_true, bne_iff_ne, ne_eq, oneDir_iff,
      hboth]
    constructor
    · rintro ⟨⟨⟨hab, hba⟩, hfwd⟩, hrev⟩
      exact ⟨Nat.not_lt.mp henough, ⟨hab, hfwd⟩, hba, hrev⟩
    · rintro ⟨-, ⟨hab, hfwd⟩, hba, hrev⟩
      exact ⟨⟨⟨hab, hba⟩, hfwd⟩, hrev⟩

def copyResult (driver : Driver) : String :=
  let append := hex driver.append
  let outcome := if driver.append = 0 then "(copy done)" else "(FAILED)"
  s!"  zeCommandListAppendMemoryCopy -> 0x{append} {outcome}"

def copyLines (driver : Driver) : List String :=
  let create := hex driver.create
  s!"  zeCommandListCreateImmediate  -> 0x{create}" :: if driver.create = 0 then [copyResult driver] else []

def deviceLine (device : String × Nat) : String :=
  let name := device.1
  let i := device.2
  s!"  dev[{i}] = {name}"

def checksumLine (errs : Nat) : String :=
  let checksum := if errs = 0 then "PASS" else "FAIL"
  s!"  checksum: {checksum}"

def l0P2p (l0 : Int) (errs : Nat) : String := if l0 = 1 ∧ errs = 0 then "WORKS" else "BROKEN(ze-error)"
def hostStaged (errh : Nat) : String := if errh = 0 then "WORKS" else "BROKEN"

def worksLine (direct staged : String) : String := s!"RESULT: l0_p2p={direct}  host_staged={staged}"

/-- SYCL's own copies through host memory are exact. -/
def copyProbe (gpus : List String) (link : Link) : Report :=
  let size := gpus.length
  let head := s!"Discrete Level-Zero GPUs: {size}" :: gpus.zipIdx.map deviceLine
  if gpus.length < 2 then ⟨head ++ ["RESULT: NEED-2-GPUS"], 2⟩
  else if link.allocates then
    let p0 : Buffer := fun i => .number (i % 1000)
    let copied := l0Copy link.driver (fun _ => .number 0) p0
    let errs := if copied.1 = 1 then mismatched copied.2 (· % 1000) else 0
    let hbuf := p0
    let errh := mismatched hbuf (· % 1000)
    ⟨head ++ ["--- TEST 1: L0 direct copy dev0 -> dev1 ---"] ++ copyLines link.driver ++
      (if copied.1 = 1 then [checksumLine errs] else []) ++
      ["--- TEST 2: host-staged copy dev0 -> host -> dev1 ---", checksumLine errh, "",
        worksLine (l0P2p copied.1 errs) (hostStaged errh)], 0⟩
  else ⟨head ++ ["RESULT: ALLOC-FAIL"], 3⟩

/-- What this probe sees of a copy: places are told apart modulo 1000 only, and an element that is
left unwritten shows only where it is not zero. -/
def Driver.SeemsToDeliver (driver : Driver) : Prop :=
  driver.create = 0 ∧ driver.append = 0 ∧
    ∀ i, (∃ j, driver.source i = some j ∧ (j : Nat) ≡ i [MOD 1000]) ∨ driver.source i = none ∧ (i : Nat) ≡ 0 [MOD 1000]

theorem seemsToDeliver_iff {driver : Driver} {p0 : Buffer} (hp0 : p0 = fun i => .number (i % 1000)) :
    ((l0Copy driver (fun _ => .number 0) p0).1 = 1 ∧
      mismatched (l0Copy driver (fun _ => .number 0) p0).2 (· % 1000) = 0) ↔ driver.SeemsToDeliver := by
  rw [l0Copy_returns_iff, mismatched_eq_zero_iff, and_assoc]
  refine and_congr_right fun hcreate => and_congr_right fun _ => forall_congr' fun i => ?_
  rw [l0Copy_dst hcreate, hp0]
  cases driver.source i with
  | none => simp [Nat.ModEq, eq_comm]
  | some j => simp [Nat.ModEq]

theorem l0P2p_eq (l0 : Int) (errs : Nat) : l0P2p l0 (if l0 = 1 then errs else 0) =
    if l0 = 1 ∧ errs = 0 then "WORKS" else "BROKEN(ze-error)" := by
  have hguard : (l0 = 1 ∧ (if l0 = 1 then errs else 0) = 0) ↔ l0 = 1 ∧ errs = 0 :=
    and_congr_right fun hl0 => by rw [if_pos hl0]
  rw [l0P2p]
  exact if_congr hguard rfl rfl

/-- The last line says WORKS of the direct copy exactly when it seems to deliver, and always of the
staged one. The exit code depends on neither. -/
theorem works_iff (gpus : List String) (link : Link) (hgpus : 2 ≤ gpus.length) (hlink : link.allocates = true) :
    (copyProbe gpus link).exit = 0 ∧ ((copyProbe gpus link).lines.getLast? =
      some "RESULT: l0_p2p=WORKS  host_staged=WORKS" ↔ link.driver.SeemsToDeliver) ∧
      ((copyProbe gpus link).lines.getLast? =
        some "RESULT: l0_p2p=BROKEN(ze-error)  host_staged=WORKS" ↔ ¬ link.driver.SeemsToDeliver) := by
  have hstaged : mismatched (fun i => .number (i % 1000)) (· % 1000) = 0 := mismatched_eq_zero_iff.mpr fun _ => rfl
  rw [copyProbe, if_neg (Nat.not_lt.mpr hgpus), if_pos hlink]
  refine ⟨rfl, ?_⟩
  have hhost : hostStaged 0 = "WORKS" := rfl
  simp only [List.getLast?_append, List.getLast?_cons_cons, List.getLast?_singleton, Option.some_or, Option.some.injEq,
    hstaged, hhost, l0P2p_eq]
  by_cases hseems : link.driver.SeemsToDeliver
  · rw [if_pos ((seemsToDeliver_iff rfl).mpr hseems)]
    exact ⟨iff_of_true (by decide) hseems, iff_of_false (by decide) (not_not.mpr hseems)⟩
  · rw [if_neg fun h => hseems ((seemsToDeliver_iff rfl).mp h)]
    exact ⟨iff_of_false (by decide) hseems, iff_of_true (by decide) hseems⟩

/-- A copy that drops every thousandth element. -/
def droppingDriver : Driver := ⟨0, 0, fun i => if i.1 % 1000 = 0 then none else some i⟩

/-- It goes unnoticed. -/
theorem dropping_works : (copyProbe ["B70", "B70"] ⟨true, droppingDriver⟩).exit = 0 ∧
    (copyProbe ["B70", "B70"] ⟨true, droppingDriver⟩).lines.getLast? =
      some "RESULT: l0_p2p=WORKS  host_staged=WORKS" := by
  obtain ⟨hexit, hworks, -⟩ := works_iff ["B70", "B70"] ⟨true, droppingDriver⟩ (by decide) rfl
  refine ⟨hexit, hworks.mpr ⟨rfl, rfl, fun i => ?_⟩⟩
  by_cases hi : i.1 % 1000 = 0
  · exact .inr ⟨if_pos hi, hi⟩
  · exact .inl ⟨i, if_neg hi, rfl⟩

end B70DualTP.Repro.Probe
