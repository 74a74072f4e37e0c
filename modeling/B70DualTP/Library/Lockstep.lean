import B70DualTP.Library.Async

/-! Cells whose old contents are never observed: every load of a launched task finds a cell
that was there from the start or has been stored to. -/
namespace B70DualTP.Library.AsyncState
variable {H C V : Type} [DecidableEq H] {event : H} {F : Flight H C V} {commands : List (HostCommand H C V)}
  {D D' : Set C}

/-- Tasks load only cells of D. A task that has been waited for adds the cells it stores to. -/
def Initialised : List (HostCommand H C V) → Set C → Flight H C V → Prop
  | [], _, _ => True
  | .reset _ :: commands, D, F => Initialised commands D F
  | .launch event task :: commands, D, F =>
    (∀ a ∈ task, a.reads ⊆ D) ∧ Initialised commands D (started event task + F)
  | .wait event :: commands, D, F =>
    Initialised commands (D ∪ {c | ∃ x ∈ F, x.1 = event ∧ c ∈ x.2.stores}) (F.filter (·.1 ≠ event))

theorem Initialised.mono (h : Initialised commands D F) (hD : D ⊆ D') : Initialised commands D' F := by
  induction commands generalizing D D' F with
  | nil => exact trivial
  | cons command commands ih =>
    cases command with
    | reset event => exact ih h hD
    | launch event task => exact ⟨fun a ha => (h.1 a ha).trans hD, ih h.2 hD⟩
    | wait event => exact ih h (Set.union_subset_union_left _ hD)

theorem Initialised.replace {a b : Access C V} (h : Initialised commands D ((event, .access a) ::ₘ F))
    (hab : a.stores ⊆ b.stores) : Initialised commands D ((event, .access b) ::ₘ F) := by
  induction commands generalizing D F with
  | nil => exact trivial
  | cons command commands ih =>
    cases command with
    | reset event' => exact ih h
    | launch event' task =>
      obtain ⟨htask, hnext⟩ := h
      rw [Multiset.add_cons] at hnext
      refine ⟨htask, ?_⟩
      rw [Multiset.add_cons]
      exact ih hnext
    | wait event' =>
      rw [Initialised] at h ⊢
      have hcells : {c | ∃ x ∈ (event, Pending.access a) ::ₘ F, x.1 = event' ∧ c ∈ x.2.stores} ⊆
          {c | ∃ x ∈ (event, Pending.access b) ::ₘ F, x.1 = event' ∧ c ∈ x.2.stores} := by
        rintro c ⟨x, hx, he, hc⟩
        rcases Multiset.mem_cons.mp hx with rfl | hx
        · exact ⟨_, Multiset.mem_cons_self _ _, he, hab hc⟩
        · exact ⟨x, Multiset.mem_cons_of_mem hx, he, hc⟩
      have hnext := h.mono (Set.union_subset_union_right D hcells)
      by_cases he : event = event'
      · rw [Multiset.filter_cons_of_neg _ (by simpa using he)] at hnext ⊢
        exact hnext
      · rw [Multiset.filter_cons_of_pos _ (by simpa using he)] at hnext ⊢
        exact ih hnext

theorem Initialised.finish {p : Pending C V} (h : Initialised commands D ((event, p) ::ₘ F)) :
    Initialised commands (D ∪ p.stores) F := by
  induction commands generalizing D F with
  | nil => exact trivial
  | cons command commands ih =>
    cases command with
    | reset event' => exact ih h
    | launch event' task =>
      obtain ⟨htask, hnext⟩ := h
      rw [Multiset.add_cons] at hnext
      exact ⟨fun a ha => (htask a ha).trans Set.subset_union_left, ih hnext⟩
    | wait event' =>
      rw [Initialised] at h ⊢
      by_cases he : event = event'
      · rw [Multiset.filter_cons_of_neg _ (by simpa using he)] at h
        refine h.mono ?_
        rintro c (hc | ⟨x, hx, hxe, hc⟩)
        · exact .inl (.inl hc)
        · rcases Multiset.mem_cons.mp hx with rfl | hx
          · exact .inl (.inr hc)
          · exact .inr ⟨x, hx, hxe, hc⟩
      · rw [Multiset.filter_cons_of_pos _ (by simpa using he)] at h
        refine (ih h).mono ?_
        rintro c ((hc | ⟨x, hx, hxe, hc⟩) | hc)
        · exact .inl (.inl hc)
        · rcases Multiset.mem_cons.mp hx with rfl | hx
          · exact absurd hxe he
          · exact .inr ⟨x, hx, hxe, hc⟩
        · exact .inl (.inr hc)

/-- What is outstanding, and what the host will launch, loads initialised cells. -/
structure Settled (D : Set C) (s : AsyncState H C V) : Prop where
  reads : ∀ x ∈ s.flight, x.2.reads ⊆ D
  initialised : Initialised s.commands D s.flight

def withMemory (s : AsyncState H C V) (memory : C → V) : AsyncState H C V := { s with memory }

variable {s s' : AsyncState H C V} {memory : C → V}

private theorem host_twin (hs : s.Safe) (hD : Settled D s) (hhost : s.host = some s') :
    Settled D s' ∧ s'.memory = s.memory ∧ (s.withMemory memory).host = some (s'.withMemory memory) := by
  obtain ⟨contents, signalled, commands, flight⟩ := s
  cases commands with
  | nil => cases hhost
  | cons command commands =>
    cases command with
    | reset event =>
      cases hhost
      exact ⟨⟨hD.reads, hD.initialised⟩, rfl, rfl⟩
    | launch event task =>
      cases hhost
      refine ⟨⟨?_, hD.initialised.2⟩, rfl, rfl⟩
      intro x hx
      rcases Multiset.mem_add.mp hx with hx | hx
      · rcases mem_started.mp hx with rfl | ⟨a, ha, rfl⟩
        · exact Set.empty_subset D
        · exact hD.initialised.1 a ha
      · exact hD.reads x hx
    | wait event =>
      simp only [host] at hhost
      split at hhost
      · rename_i hsignalled
        cases hhost
        refine ⟨⟨hD.reads, ?_⟩, rfl, if_pos hsignalled⟩
        have hnone : ∀ x ∈ flight, x.1 ≠ event := hs.forall_ne hsignalled
        have hcells : {c | ∃ x ∈ flight, x.1 = event ∧ c ∈ x.2.stores} = (∅ : Set C) := by
          rw [Set.eq_empty_iff_forall_notMem]
          rintro c ⟨x, hx, he, -⟩
          exact hnone x hx he
        have hnext := hD.initialised
        rw [Initialised, hcells, Set.union_empty, Multiset.filter_eq_self.mpr hnone] at hnext
        exact hnext
      · cases hhost

variable [DecidableEq C]

private theorem work_twin {p : Pending C V} {rest : Flight H C V} (hD : Settled D s)
    (hm : ∀ c ∈ D, s.memory c = memory c) (h : s.flight = (event, p) ::ₘ rest) :
    ∃ D' memory', D ⊆ D' ∧ Settled D' (s.perform event p rest) ∧
      (∀ c ∈ D', (s.perform event p rest).memory c = memory' c) ∧
      (s.withMemory memory).perform event p rest = (s.perform event p rest).withMemory memory' := by
  obtain ⟨hreads, hinit⟩ := hD
  rw [h] at hreads hinit
  obtain ⟨hevent, hrest⟩ := Multiset.forall_mem_cons.mp hreads
  rcases p with (⟨c, next⟩ | ⟨c, v⟩) | _
  · -- a load finds an initialised cell, where the two memories agree
    have hc : s.memory c = memory c := hm c (hevent (.inl (Set.mem_singleton c)))
    refine ⟨D, memory, subset_rfl, ⟨?_, hinit.replace ?_⟩, hm, ?_⟩
    · refine Multiset.forall_mem_cons.mpr ⟨?_, hrest⟩
      exact (Set.subset_iUnion (fun v => (next v).reads) _).trans (Set.subset_union_right.trans hevent)
    · exact Set.iInter_subset (fun v => (next v).stores) _
    · simp only [perform, withMemory, hc]
  · refine ⟨D ∪ {c}, Function.update memory c v, Set.subset_union_left, ⟨?_, hinit.finish⟩, ?_, rfl⟩
    · exact fun x hx => (hrest x hx).trans Set.subset_union_left
    · intro c' hc'
      simp only [perform]
      by_cases he : c' = c
      · rw [he, Function.update_self, Function.update_self]
      · rw [Function.update_of_ne he, Function.update_of_ne he]
        rcases hc' with hc' | hc'
        · exact hm c' hc'
        · exact absurd hc' he
  · refine ⟨D, memory, subset_rfl, ⟨hrest, ?_⟩, hm, rfl⟩
    have hfinish := hinit.finish
    rwa [Pending.stores, Set.union_empty] at hfinish

/-- Started with other contents outside D, the host and the tasks can take the same steps:
the same commands, the same accesses with the same values loaded. -/
theorem Settled.lockstep {n : Nat} (hD : Settled D s) (hs : s.Safe) (memory : C → V)
    (hm : ∀ c ∈ D, s.memory c = memory c) (h : Steps Step n s s') :
    ∃ memory', (∀ c ∈ D, s'.memory c = memory' c) ∧ Steps Step n (s.withMemory memory) (s'.withMemory memory') := by
  induction h generalizing D memory with
  | refl s => exact ⟨memory, hm, .refl _⟩
  | @head n s t z hstep _ ih =>
    have hsafe := hs.step hstep
    cases hstep with
    | host hhost =>
      obtain ⟨hnext, hsame, hhost'⟩ : Settled D t ∧ t.memory = s.memory ∧
        (s.withMemory memory).host = some (t.withMemory memory) := host_twin hs hD hhost
      have hagree : ∀ c ∈ D, t.memory c = memory c := by rwa [hsame]
      obtain ⟨memory', hm', hrun⟩ := ih hnext hsafe memory hagree
      exact ⟨memory', hm', .head (.host hhost') hrun⟩
    | work event p rest hF henabled =>
      obtain ⟨D', memory', hDD', hnext, hagree, hperform⟩ := work_twin hD hm hF
      obtain ⟨memory'', hm'', hrun⟩ := ih hnext hsafe memory' hagree
      refine ⟨memory'', fun c hc => hm'' c (hDD' hc), .head ?_ hrun⟩
      rw [← hperform]
      exact .work event p rest hF henabled

omit [DecidableEq C]
variable {event' : H} {task task' : List (Access C V)}

def storesOf (task : List (Access C V)) : Set C := {c | ∃ a ∈ task, c ∈ a.stores}

omit [DecidableEq H] in
private theorem stores_started {c : C} (h : c ∈ storesOf task) :
    ∃ x ∈ started event task, x.1 = event ∧ c ∈ x.2.stores := by
  obtain ⟨a, ha, hc⟩ := h
  exact ⟨(event, .access a), mem_started.mpr (.inr ⟨a, ha, rfl⟩), rfl, hc⟩

theorem initialised_round (hne : event ≠ event') (h : ∀ a ∈ task, a.reads ⊆ D) (h' : ∀ a ∈ task', a.reads ⊆ D)
    (hrest : Initialised commands (D ∪ storesOf task ∪ storesOf task') 0) :
    Initialised (.reset event :: .launch event task :: .reset event' :: .launch event' task' ::
      .wait event :: .wait event' :: commands) D 0 := by
  have hsecond : Initialised (.wait event' :: commands) (D ∪ storesOf task) (started event' task') := by
    rw [Initialised, filter_started_self]
    exact hrest.mono (Set.union_subset_union_right _ fun c hc => stores_started hc)
  refine ⟨h, h', ?_⟩
  rw [Initialised, Multiset.add_zero, Multiset.filter_add, filter_started_of_ne (Ne.symm hne), filter_started_self,
    Multiset.add_zero]
  refine hsecond.mono (Set.union_subset_union_right D ?_)
  intro c hc
  obtain ⟨x, hx, hevent, hstores⟩ := stores_started hc
  exact ⟨x, Multiset.mem_add.mpr (.inr hx), hevent, hstores⟩

theorem initialised_round_resets_first (hne : event ≠ event') (h : ∀ a ∈ task, a.reads ⊆ D)
    (h' : ∀ a ∈ task', a.reads ⊆ D) (hrest : Initialised commands (D ∪ storesOf task ∪ storesOf task') 0) :
    Initialised (.reset event :: .reset event' :: .launch event task :: .launch event' task' ::
      .wait event :: .wait event' :: commands) D 0 :=
  initialised_round hne h h' hrest

end B70DualTP.Library.AsyncState
