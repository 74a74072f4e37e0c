import B70DualTP.Library.Async

/-! A host that waits for every task that it launches. Whenever it has come to some point of
its commands, the tasks launched before that point have left what they leave one by one. -/
namespace B70DualTP.Library
namespace AsyncState
variable {H C V : Type}

/-- Every task that is launched is waited for later. -/
def WaitsForAll : List (HostCommand H C V) → Prop
  | [] => True
  | .reset _ :: commands => WaitsForAll commands
  | .launch event _ :: commands => .wait event ∈ commands ∧ WaitsForAll commands
  | .wait _ :: commands => WaitsForAll commands

theorem WaitsForAll.append {first second : List (HostCommand H C V)} (h : WaitsForAll first)
    (h' : WaitsForAll second) : WaitsForAll (first ++ second) := by
  induction first with
  | nil => exact h'
  | cons command first ih =>
    cases command with
    | reset event => exact ih h
    | launch event task => exact ⟨List.mem_append_left _ h.1, ih h.2⟩
    | wait event => exact ih h

/-- What is outstanding will be waited for, too. -/
structure Draining (s : AsyncState H C V) : Prop where
  launches : WaitsForAll s.commands
  flight : ∀ x ∈ s.flight, .wait x.1 ∈ s.commands

theorem Draining.flight_eq_zero {s : AsyncState H C V} (hs : s.Draining) (h : s.commands = []) : s.flight = 0 := by
  refine Multiset.eq_zero_of_forall_notMem fun x hx => ?_
  have hwait := hs.flight x hx
  rw [h] at hwait
  cases hwait

variable [DecidableEq H] {event : H} {p : Pending C V}

theorem Draining.host {s s' : AsyncState H C V} (hs : s.Draining) (hsafe : s.Safe) (h : s.host = some s') :
    s'.Draining := by
  have hne : ∀ event, s.signalled event = true → ∀ x ∈ s.flight, x.1 ≠ event := fun _ => hsafe.forall_ne
  obtain ⟨hlaunches, hflight⟩ := hs
  obtain ⟨memory, signalled, commands, flight⟩ := s
  cases commands with
  | nil => cases h
  | cons command commands =>
    cases command with
    | reset event =>
      cases h
      refine ⟨hlaunches, fun x hx => ?_⟩
      rcases List.mem_cons.mp (hflight x hx) with hwait | hwait
      · cases hwait
      · exact hwait
    | launch event task =>
      cases h
      refine ⟨hlaunches.2, fun x hx => ?_⟩
      rcases Multiset.mem_add.mp hx with hx | hx
      · rw [fst_of_mem_started hx]
        exact hlaunches.1
      · rcases List.mem_cons.mp (hflight x hx) with hwait | hwait
        · cases hwait
        · exact hwait
    | wait event =>
      simp only [AsyncState.host] at h
      split at h
      · rename_i hsignalled
        cases h
        refine ⟨hlaunches, fun x hx => ?_⟩
        rcases List.mem_cons.mp (hflight x hx) with hwait | hwait
        · cases hwait
          exact absurd rfl (hne x.1 hsignalled x hx)
        · exact hwait
      · cases h

variable [DecidableEq C]

theorem perform_commands (s : AsyncState H C V) (rest : Flight H C V) :
    (s.perform event p rest).commands = s.commands := by
  rcases p with (_ | _) | _ <;> rfl

theorem Draining.perform {s : AsyncState H C V} {rest : Flight H C V} (hs : s.Draining)
    (h : s.flight = (event, p) ::ₘ rest) : (s.perform event p rest).Draining := by
  obtain ⟨hlaunches, hflight⟩ := hs
  rw [h] at hflight
  obtain ⟨hevent, hrest⟩ := Multiset.forall_mem_cons.mp hflight
  rcases p with (_ | _) | _
  · exact ⟨hlaunches, Multiset.forall_mem_cons.mpr ⟨hevent, hrest⟩⟩
  · exact ⟨hlaunches, hrest⟩
  · exact ⟨hlaunches, hrest⟩

theorem Draining.step {s s' : AsyncState H C V} (hs : s.Draining) (hsafe : s.Safe) (h : Step s s') : s'.Draining := by
  cases h with
  | host h => exact hs.host hsafe h
  | work event p rest h henabled => exact hs.perform h

theorem Draining.steps {s s' : AsyncState H C V} {n : Nat} (hs : s.Draining) (hsafe : s.Safe) (h : Steps Step n s s') :
    s'.Draining := by
  induction h with
  | refl s => exact hs
  | head hstep _ ih => exact ih (hs.step hsafe hstep) (hsafe.step hstep)

def withCommands (s : AsyncState H C V) (commands : List (HostCommand H C V)) : AsyncState H C V := { s with commands }

theorem perform_withCommands (s : AsyncState H C V) (commands : List (HostCommand H C V)) (rest : Flight H C V) :
    (s.perform event p rest).withCommands commands = (s.withCommands commands).perform event p rest := by
  rcases p with (_ | _) | _ <;> rfl

/-- A step either leaves the commands alone or takes the first one. -/
theorem Step.commands {s s' : AsyncState H C V} (h : Step s s') : s'.commands = s.commands ∧
    (∀ commands, Step (s.withCommands commands) (s'.withCommands commands)) ∨
    ∃ command, s.commands = command :: s'.commands ∧
      ∀ commands, Step (s.withCommands (command :: commands)) (s'.withCommands commands) := by
  cases h with
  | work event p rest hflight henabled =>
    refine .inl ⟨perform_commands s rest, fun commands => ?_⟩
    rw [perform_withCommands]
    exact .work event p rest hflight henabled
  | host h =>
    obtain ⟨memory, signalled, commands, flight⟩ := s
    cases commands with
    | nil => cases h
    | cons command commands =>
      cases command with
      | reset event =>
        cases h
        exact .inr ⟨_, rfl, fun _ => .host rfl⟩
      | launch event task =>
        cases h
        exact .inr ⟨_, rfl, fun _ => .host rfl⟩
      | wait event =>
        simp only [AsyncState.host] at h
        split at h
        · rename_i hsignalled
          cases h
          exact .inr ⟨_, rfl, fun _ => .host (if_pos hsignalled)⟩
        · cases h

theorem Steps.length_commands_le {s s' : AsyncState H C V} {n : Nat} (h : Steps Step n s s') :
    s'.commands.length ≤ s.commands.length := by
  induction h with
  | refl s => exact le_rfl
  | head hstep _ ih =>
    rcases hstep.commands with ⟨hcommands, -⟩ | ⟨command, hcommands, -⟩
    · rwa [hcommands] at ih
    · rw [hcommands]
      exact ih.trans (Nat.le_succ _)

/-- Until the host comes to the second half of its commands, it runs the first one. -/
theorem Steps.of_append {s s' : AsyncState H C V} {n : Nat} {first second : List (HostCommand H C V)}
    (h : Steps Step n s s') (hs : s.commands = first ++ second) (hs' : s'.commands = second) :
    Steps Step n (s.withCommands first) (s'.withCommands []) := by
  induction h generalizing first with
  | refl s =>
    rw [hs, List.append_left_eq_self] at hs'
    rw [hs']
    exact .refl _
  | @head n s b s' hstep hrest ih =>
    rcases hstep.commands with ⟨hcommands, hwith⟩ | ⟨command, hcommands, hwith⟩
    · exact .head (hwith first) (ih (hcommands.trans hs) hs')
    · cases first with
      | nil =>
        have hle := Steps.length_commands_le hrest
        rw [hs', ← List.nil_append second, ← hs, hcommands, List.length_cons] at hle
        omega
      | cons command' first =>
        rw [hcommands, List.cons_append, List.cons.injEq] at hs
        obtain ⟨rfl, hb⟩ := hs
        exact .head (hwith first) (ih hb hs')

/-- More commands do not keep the first ones from being run. -/
theorem Steps.append {s s' : AsyncState H C V} {n : Nat} (h : Steps Step n s s') (second : List (HostCommand H C V)) :
    Steps Step n (s.withCommands (s.commands ++ second)) (s'.withCommands (s'.commands ++ second)) := by
  induction h with
  | refl s => exact .refl _
  | @head n s b s' hstep _ ih =>
    rcases hstep.commands with ⟨hcommands, hwith⟩ | ⟨command, hcommands, hwith⟩
    · rw [← hcommands]
      exact .head (hwith _) ih
    · rw [hcommands]
      exact .head (hwith _) ih

section Arrival
variable {memory : C → V} {signalled : H → Bool} {first second : List (HostCommand H C V)}

/-- When the host has run the first half of its commands, nothing of it is outstanding. -/
theorem Safe.arrived {s : AsyncState H C V} {n : Nat} (hsafe : Safe ⟨memory, signalled, first, 0⟩)
    (hwaits : WaitsForAll first) (h : Steps Step n ⟨memory, signalled, first ++ second, 0⟩ s)
    (hs : s.commands = second) : s.flight = 0 ∧ s.memory = sequential first memory := by
  have hrun : Steps Step n ⟨memory, signalled, first, 0⟩ (s.withCommands []) := Steps.of_append h rfl hs
  have hdraining : Draining (⟨memory, signalled, first, 0⟩ : AsyncState H C V) :=
    ⟨hwaits, fun x hx => absurd hx (Multiset.notMem_zero x)⟩
  have hflight : s.flight = 0 := (hdraining.steps hsafe hrun).flight_eq_zero rfl
  refine ⟨hflight, ?_⟩
  obtain ⟨m, z, -, ⟨-, -, hmemory⟩, hall⟩ := hsafe.converges
  obtain ⟨-, hrest⟩ := hall n _ hrun
  have hdone : s.withCommands [] = ⟨s.memory, s.signalled, [], 0⟩ := by rw [withCommands, hflight]
  have hz : z = ⟨s.memory, s.signalled, [], 0⟩ := (hdone ▸ hrest).eq_of_final final_of_done
  rwa [hz] at hmemory

/-- It does come to that point. -/
theorem Safe.exists_arrived (hsafe : Safe ⟨memory, signalled, first, 0⟩) (second : List (HostCommand H C V)) :
    ∃ n s, Steps Step n ⟨memory, signalled, first ++ second, 0⟩ s ∧ s.commands = second := by
  obtain ⟨n, z, -, ⟨hcommands, -, -⟩, hall⟩ := hsafe.converges
  obtain ⟨-, hrun⟩ := hall 0 _ (.refl _)
  refine ⟨_, _, Steps.append hrun second, ?_⟩
  rw [hcommands]
  rfl

end Arrival
end AsyncState
end B70DualTP.Library
