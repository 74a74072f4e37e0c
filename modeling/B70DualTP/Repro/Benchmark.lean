import B70DualTP.Library.Drained
import B70DualTP.Repro.Checksum

/-! The commands that main of b70_allreduce_bench.cpp submits. Its checks come to the same
results however the copies and kernels interleave. -/
namespace B70DualTP.Repro
open Library AsyncState
variable {V : Type}

def fillTask (buffer : Buffer) (v : V) (N : Nat) : List (Access Cell V) :=
  (List.range N).map fun i => .store (buffer, i) v

theorem fillTask_elementwise (buffer : Buffer) (v : V) (N : Nat) : Elementwise (fillTask buffer v N) buffer [] := by
  refine ⟨_, _, List.nodup_range, rfl, fun i => ⟨?_, ?_, ?_⟩⟩
  · intro c hc
    cases hc
  · exact fun c hc => hc
  · exact Set.mem_singleton _

theorem foldl_fillTask (buffer : Buffer) (v : V) (N : Nat) (memory : Cell → V) :
    (fillTask buffer v N).foldl (fun memory a => a.exec memory) memory = fill buffer v N memory := by
  have hall : fillTask buffer v N = ((List.range N).filter fun _ => true).map fun i => .store (buffer, i) v := by
    rw [fillTask, List.filter_true]
  rw [hall, foldl_elements (fun _ _ => v) (fun _ _ => rfl) (fun _ _ _ _ => rfl)]
  funext c
  simp [fill]

/-- What main has the cards do, in the order of its lines. A check only reads. -/
inductive Stage where
  | resetInputs (N : Nat)
  | ar (transport : Transport) (N : Nat)

/-- One fresh all-reduce. -/
def correctnessStages (transport : Transport) (N : Nat) : List Stage := [.resetInputs N, .ar transport N]

def timingStages (transport : Transport) (S : Nat) : List Stage :=
  .resetInputs (S / 4) ::
    (List.replicate 5 (.ar transport (S / 4)) ++ List.replicate (iters S) (.ar transport (S / 4)))

def sizeStages (S : Nat) : List Stage :=
  correctnessStages .peer (S / 4) ++ (correctnessStages .host (S / 4) ++
    (timingStages .peer S ++ timingStages .host S))

def mainStages : List Stage := sizes.flatMap sizeStages

/-- What comes before the check of peer_ar at the k-th size. -/
def peerCheck (k : Fin sizes.length) : List Stage :=
  (sizes.take k).flatMap sizeStages ++ correctnessStages .peer (sizes.get k / 4)

/-- What comes before the check of host_ar. -/
def hostCheck (k : Fin sizes.length) : List Stage := peerCheck k ++ correctnessStages .host (sizes.get k / 4)

theorem hostCheck_startsMain (k : Fin sizes.length) : hostCheck k <+: mainStages := by
  refine ⟨timingStages .peer (sizes.get k) ++ timingStages .host (sizes.get k) ++ (sizes.drop (k + 1)).flatMap sizeStages, ?_⟩
  conv_rhs => rw [mainStages, ← List.take_append_drop k sizes, List.drop_eq_getElem_cons k.2]
  rw [List.flatMap_append, List.flatMap_cons, hostCheck, peerCheck, sizeStages]
  simp only [List.append_assoc, List.get_eq_getElem]

theorem peerCheck_startsMain (k : Fin sizes.length) : peerCheck k <+: mainStages :=
  (List.prefix_append _ _).trans (hostCheck_startsMain k)

section Commands
variable [Add V] (constants : Constants V) (deliveries : Nat → Delivery)

/-- The two fills of reset_inputs, each waited for at once. -/
def resetInputs (N : Nat) : Program V :=
  submit .ev0 (fillTask .a0 constants.one N) ++ .wait .ev0 ::
    (submit .ev1 (fillTask .a1 constants.two N) ++ [.wait .ev1])

/-- The commands of a stage, before which so many calls have been made. -/
def Stage.commands (call : Nat) : Stage → Program V
  | .resetInputs N => Repro.resetInputs constants N
  | .ar transport N => transport.ar N (deliveries call)

def Stage.nextCall (call : Nat) : Stage → Nat
  | .resetInputs _ => call
  | .ar _ _ => call + 1

def commands (call : Nat) : List Stage → Program V
  | [] => []
  | stage :: stages => stage.commands constants deliveries call ++ commands (stage.nextCall call) stages

theorem commands_append (call : Nat) (stages stages' : List Stage) :
    commands constants deliveries call (stages ++ stages') =
      commands constants deliveries call stages ++
        commands constants deliveries (stages.foldl Stage.nextCall call) stages' := by
  induction stages generalizing call with
  | nil => rfl
  | cons stage stages ih => rw [List.cons_append, commands, ih, commands, List.append_assoc, List.foldl_cons]

theorem ar_waitsForAll (transport : Transport) (N : Nat) (delivery : Delivery) :
    WaitsForAll (transport.ar N delivery : Program V) := by
  cases transport with
  | peer => simp [Transport.ar, peerAr, addBoth, submit, WaitsForAll]
  | host => simp [Transport.ar, hostAr, addBoth, submit, WaitsForAll]

theorem commands_waitsForAll (call : Nat) (stages : List Stage) :
    WaitsForAll (commands constants deliveries call stages) := by
  induction stages generalizing call with
  | nil => exact trivial
  | cons stage stages ih =>
    refine WaitsForAll.append ?_ (ih _)
    cases stage with
    | resetInputs N => simp [Stage.commands, resetInputs, submit, WaitsForAll]
    | ar transport N => exact ar_waitsForAll transport N _

theorem commands_disciplined (call : Nat) (stages : List Stage) (signalled : Event → Bool) :
    Disciplined (commands constants deliveries call stages) signalled 0 := by
  induction stages generalizing call signalled with
  | nil => exact Multiset.pairwise_zero _
  | cons stage stages ih =>
    cases stage with
    | resetInputs N =>
      refine disciplined_task (fillTask_elementwise .a0 constants.one N).pairwise fun _ => ?_
      exact disciplined_task (fillTask_elementwise .a1 constants.two N).pairwise (ih _)
    | ar transport N => exact ar_disciplined (ih _) transport signalled

theorem commands_safe (call : Nat) (stages : List Stage) (memory : Cell → V) (signalled : Event → Bool) :
    Safe ⟨memory, signalled, commands constants deliveries call stages, 0⟩ :=
  ⟨commands_disciplined constants deliveries call stages signalled, fun x hx => absurd hx (Multiset.notMem_zero x)⟩

def Machine.stage (s : Machine V) : Stage → Machine V
  | .resetInputs N => s.resetInputs constants N
  | .ar transport N => s.ar deliveries transport N

def Machine.stages (s : Machine V) (l : List Stage) : Machine V := l.foldl (Machine.stage constants deliveries) s

theorem sequential_commands (s : Machine V) (stages : List Stage) :
    sequential (commands constants deliveries s.call stages) s.memory = (s.stages constants deliveries stages).memory := by
  induction stages generalizing s with
  | nil => rfl
  | cons stage stages ih =>
    rw [commands, sequential_append]
    cases stage with
    | resetInputs N =>
      have hfill : sequential (resetInputs constants N) s.memory = (s.resetInputs constants N).memory := by
        simp only [resetInputs, submit, List.cons_append, List.nil_append, sequential, foldl_fillTask,
          Machine.resetInputs]
      exact (congrArg _ hfill).trans (ih (s.resetInputs constants N))
    | ar transport N =>
      exact (congrArg _ (sequential_ar N _ _ transport)).trans (ih (s.ar deliveries transport N))

theorem stages_append (s : Machine V) (l l' : List Stage) : s.stages constants deliveries (l ++ l') =
    (s.stages constants deliveries l).stages constants deliveries l' := List.foldl_append

theorem repeatAr_eq (s : Machine V) (transport : Transport) (N n : Nat) :
    s.repeatAr deliveries transport N n = s.stages constants deliveries (List.replicate n (.ar transport N)) := by
  induction n generalizing s with
  | zero => rfl
  | succ n ih => exact ih _

/-- The host has run the commands of these stages, and no more. -/
def Arrived (memory : Cell → V) (signalled : Event → Bool) (done : List Stage) (z : AsyncState Event Cell V) : Prop :=
  ∃ n, Steps Step n ⟨memory, signalled, commands constants deliveries 0 mainStages, 0⟩ z ∧
    z.commands = (commands constants deliveries 0 mainStages).drop (commands constants deliveries 0 done).length

section Arrived
variable {constants deliveries} {memory : Cell → V} {signalled : Event → Bool} {done : List Stage}

theorem Arrived.refines {z : AsyncState Event Cell V} (h : Arrived constants deliveries memory signalled done z)
    (hdone : done <+: mainStages) : z.flight = 0 ∧
    z.memory = (Machine.stages constants deliveries ⟨memory, 0⟩ done).memory := by
  obtain ⟨n, hrun, hz⟩ := h
  obtain ⟨rest, hrest⟩ := hdone
  rw [← hrest, commands_append] at hrun hz
  rw [List.drop_left] at hz
  have h := (commands_safe constants deliveries 0 done memory signalled).arrived
    (commands_waitsForAll constants deliveries 0 done) hrun hz
  rwa [← sequential_commands]

theorem exists_arrived (hdone : done <+: mainStages) : ∃ z, Arrived constants deliveries memory signalled done z := by
  obtain ⟨rest, hrest⟩ := hdone
  obtain ⟨n, z, hrun, hz⟩ := (commands_safe constants deliveries 0 done memory signalled).exists_arrived
    (commands constants deliveries (done.foldl Stage.nextCall 0) rest)
  refine ⟨z, n, ?_⟩
  rw [← hrest, commands_append, List.drop_left]
  exact ⟨hrun, hz⟩

end Arrived

section Lines
variable [DecidableEq V]

theorem measure_eq (s : Machine V) (S : Nat) :
    (s.measure constants deliveries S).2 = s.stages constants deliveries (sizeStages S) := by
  have htiming : ∀ (s : Machine V) (transport : Transport),
      s.timing constants deliveries transport S = s.stages constants deliveries (timingStages transport S) := by
    intro s transport
    rw [Machine.timing, repeatAr_eq constants, repeatAr_eq constants, ← stages_append]
    rfl
  simp only [Machine.measure, htiming, sizeStages, stages_append]
  rfl

theorem after_eq (s : Machine V) (l : List Nat) :
    s.after constants deliveries l = s.stages constants deliveries (l.flatMap sizeStages) := by
  induction l generalizing s with
  | nil => rfl
  | cons S l ih => rw [Machine.after, ih, measure_eq, List.flatMap_cons, stages_append]

/-- The result of check(N) in a state of the cards. -/
def checks (z : AsyncState Event Cell V) (N : Nat) : Bool := Machine.check constants ⟨z.memory, 0⟩ N

/-- The whole benchmark is race-free and comes to an end, whatever its copies fail to
deliver, and at each check nothing is outstanding: the line of a size says what the
machine that runs call after call finds. -/
theorem main_interleaved (memory : Cell → V) (signalled : Event → Bool) :
    let s : AsyncState Event Cell V := ⟨memory, signalled, commands constants deliveries 0 mainStages, 0⟩
    Converges Step s (fun z => z.commands = [] ∧ z.flight = 0 ∧
      z.memory = (Machine.after constants deliveries ⟨memory, 0⟩ sizes).memory) ∧
    (∀ n z, Steps Step n s z → z.flight.Independent) ∧
    ∀ (k : Fin sizes.length) (zp zh : AsyncState Event Cell V),
      Arrived constants deliveries memory signalled (peerCheck k) zp →
      Arrived constants deliveries memory signalled (hostCheck k) zh →
      zp.flight = 0 ∧ zh.flight = 0 ∧ (main constants deliveries memory)[k]? = some ⟨sizeText (sizes.get k),
        if checks constants zp (sizes.get k / 4) && checks constants zh (sizes.get k / 4) then "verified"
        else "CHECKSUM-FAIL"⟩ := by
  intro s
  have hsafe : s.Safe := commands_safe constants deliveries 0 mainStages memory signalled
  refine ⟨?_, fun n z h => (hsafe.steps h).disciplined.independent, ?_⟩
  · rw [after_eq, ← sequential_commands]
    exact hsafe.converges
  · intro k zp zh hzp hzh
    obtain ⟨hflight, hmemory⟩ := hzp.refines (peerCheck_startsMain k)
    obtain ⟨hflight', hmemory'⟩ := hzh.refines (hostCheck_startsMain k)
    refine ⟨hflight, hflight', ?_⟩
    rw [hostCheck, stages_append, peerCheck, stages_append, ← after_eq] at hmemory'
    rw [peerCheck, stages_append, ← after_eq] at hmemory
    rw [main_getElem?, checks, checks, hmemory, hmemory']
    rfl

end Lines
end Commands

/-- The first size, where nothing is written to the second card. -/
theorem firstCardOnly_interleaved : ∃ zp zh,
    Arrived intConstants firstCardOnly (fun _ => 0) (fun _ => false) (peerCheck ⟨0, by decide⟩) zp ∧
    Arrived intConstants firstCardOnly (fun _ => 0) (fun _ => false) (hostCheck ⟨0, by decide⟩) zh ∧
    zp.flight = 0 ∧ zh.flight = 0 ∧ (main intConstants firstCardOnly fun _ => 0)[0]? = some ⟨"4KB",
      if checks intConstants zp 1024 && checks intConstants zh 1024 then "verified" else "CHECKSUM-FAIL"⟩ := by
  obtain ⟨zp, hzp⟩ : ∃ z, Arrived intConstants firstCardOnly (fun _ => 0) (fun _ => false) _ z :=
    exists_arrived (peerCheck_startsMain ⟨0, by decide⟩)
  obtain ⟨zh, hzh⟩ : ∃ z, Arrived intConstants firstCardOnly (fun _ => 0) (fun _ => false) _ z :=
    exists_arrived (hostCheck_startsMain ⟨0, by decide⟩)
  exact ⟨zp, zh, hzp, hzh, (main_interleaved intConstants firstCardOnly _ _).2.2 _ zp zh hzp hzh⟩

end B70DualTP.Repro
