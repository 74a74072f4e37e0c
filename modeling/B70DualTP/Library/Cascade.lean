import Mathlib.Data.Finset.Max
import Mathlib.Data.Fintype.Basic
import B70DualTP.Library.Schedule

/-! Classes of processes that run once the classes below them have run. An invariant of the
results so far and of the channels is carried from class to class. -/
namespace B70DualTP.Library.Protocol
variable {ι K M G C E A B : Type} [DecidableEq ι] [DecidableEq K] {n : Nat} {I : Fin n → ι} {chan : K → Channel M}
  {size : Fin n → Nat} {member : ∀ r, Fin (size r) → Fin n}

section Programs
variable {R : C → Type} {P : Protocol ι K M G C R}

private theorem inClass_iff (hself : ∀ r, ∃ i, member r i = r)
    (hclass : ∀ q r i j, member q i = member r j → ∀ i', ∃ j', member r j' = member q i') (r q : Fin n)
    (i : Fin (size q)) : (∃ j, member r j = member q i) ↔ ∃ j, member r j = q := by
  obtain ⟨i₀, hi₀⟩ := hself q
  constructor
  · rintro ⟨j, hj⟩
    obtain ⟨j', hj'⟩ := hclass q r i j hj.symm i₀
    exact ⟨j', hj'.trans hi₀⟩
  · rintro ⟨j, hj⟩
    exact hclass q r i₀ j (hi₀.trans hj.symm) i

/-- The classes run one after the other, each when those of a lower level have results. -/
theorem together_of_levels (Inv : (Fin n → Option B) → (K → Channel M) → Prop) (level : Fin n → Nat)
    (hinj : Function.Injective I) (hmember : ∀ r, Function.Injective (member r)) (hself : ∀ r, ∃ i, member r i = r)
    (hclass : ∀ q r i j, member q i = member r j → ∀ i', ∃ j', member r j' = member q i')
    {ms : Fin n → Prog C R B} (hstart : Inv (fun _ => none) chan)
    (hstep : ∀ v chan r, Inv v chan → (∀ i, v (member r i) = none) →
      (∀ q, level q < level r → (v q).isSome = true) →
        P.Together A (fun i => I (member r i)) chan (fun i => ms (member r i)) fun b chan' =>
          ∀ v', (∀ i, v' (member r i) = some (b i)) → (∀ q, (∀ i, member r i ≠ q) → v' q = v q) → Inv v' chan') :
    P.Together A I chan ms fun b chan' => Inv (fun r => some (b r)) chan' := by
  classical
  intro procs f hp
  -- from any point at which some classes have results and the others have not started
  have hrest : ∀ k (v : Fin n → Option B) chan₁ procs₁, (Finset.univ.filter fun r => v r = none).card = k →
      Inv v chan₁ → P.Reaches ⟨procs, chan⟩ ⟨procs₁, chan₁⟩ → (∀ q i, v (member q i) = none ↔ v q = none) →
      (∀ r b, v r = some b → procs₁ (I r) = f r b) → (∀ r, v r = none → procs₁ (I r) = ms r >>= f r) →
      (∀ p, (∀ r, p ≠ I r) → procs₁ p = procs p) →
        ∃ (b : Fin n → B) (chan' : K → Channel M) (procs' : ι → Prog C R A), Inv (fun r => some (b r)) chan' ∧
          P.Reaches ⟨procs, chan⟩ ⟨procs', chan'⟩ ∧ (∀ r, procs' (I r) = f r (b r)) ∧
            ∀ p, (∀ r, p ≠ I r) → procs' p = procs p := by
    intro k
    induction k using Nat.strong_induction_on with
    | _ k ih =>
      intro v chan₁ procs₁ hcard hinv hrun hclosed hdone hwait hoff
      by_cases hall : ∃ r, v r = none
      · obtain ⟨r₀, hr₀⟩ := hall
        obtain ⟨r, hr, hmin⟩ := Finset.exists_min_image (Finset.univ.filter fun r => v r = none) level
          ⟨r₀, by simpa using hr₀⟩
        have hr : v r = none := by simpa using hr
        have hlow : ∀ q, level q < level r → (v q).isSome = true := by
          intro q hq
          by_contra hnone
          have hle := hmin q (by simpa using hnone)
          omega
        have hnone : ∀ i, v (member r i) = none := fun i => (hclosed r i).mpr hr
        obtain ⟨b, chan₂, procs₂, hinv₂, hrun₂, hI, hoff₂⟩ :=
          hstep v chan₁ r hinv hnone hlow procs₁ (fun i => f (member r i)) fun i => hwait _ (hnone i)
        let v' : Fin n → Option B := fun q => if h : ∃ i, member r i = q then some (b h.choose) else v q
        have hin : ∀ i, v' (member r i) = some (b i) := by
          intro i
          have h : ∃ j, member r j = member r i := ⟨i, rfl⟩
          simp only [v', dif_pos h, hmember r h.choose_spec]
        have hout : ∀ q, (∀ i, member r i ≠ q) → v' q = v q := fun q hq => dif_neg fun ⟨i, hi⟩ => hq i hi
        have hsplit : ∀ q, (∃ i, member r i = q) ∨ ∀ i, member r i ≠ q := by
          intro q
          by_cases h : ∃ i, member r i = q
          · exact .inl h
          · exact .inr fun i hi => h ⟨i, hi⟩
        have hlt : (Finset.univ.filter fun q => v' q = none).card < k := by
          rw [← hcard]
          refine Finset.card_lt_card ⟨fun q hq => ?_, fun hsub => ?_⟩
          · rcases hsplit q with ⟨i, rfl⟩ | hq'
            · simp [hin] at hq
            · simpa [hout q hq'] using hq
          · obtain ⟨i, hi⟩ := hself r
            have hmem := hsub (by simpa using hr : r ∈ Finset.univ.filter fun q => v q = none)
            rw [← hi] at hmem
            simp [hin] at hmem
        refine ih _ hlt v' chan₂ procs₂ rfl (hinv₂ v' hin hout) (hrun.trans hrun₂) ?_ ?_ ?_ ?_
        · intro q i
          rcases hsplit q with hq | hq
          · obtain ⟨j, hj⟩ := (inClass_iff hself hclass r q i).mpr hq
            obtain ⟨j', rfl⟩ := hq
            rw [← hj, hin, hin]
            simp
          · have hq' : ∀ j, member r j ≠ member q i := by
              intro j hj
              obtain ⟨j', hj'⟩ := (inClass_iff hself hclass r q i).mp ⟨j, hj⟩
              exact hq j' hj'
            rw [hout q hq, hout _ hq']
            exact hclosed q i
        · intro q c hc
          rcases hsplit q with ⟨i, rfl⟩ | hq
          · rw [hin] at hc
            cases hc
            exact hI i
          · rw [hoff₂ _ fun i hi => hq i (hinj hi).symm]
            exact hdone q c (hout q hq ▸ hc)
        · intro q hnone'
          rcases hsplit q with ⟨i, rfl⟩ | hq
          · rw [hin] at hnone'
            cases hnone'
          · rw [hoff₂ _ fun i hi => hq i (hinj hi).symm]
            exact hwait q (hout q hq ▸ hnone')
        · intro p hp'
          rw [hoff₂ p fun i => hp' _, hoff p hp']
      · -- all classes have run
        have hsome : ∀ r, ∃ b, v r = some b := by
          intro r
          cases hr : v r with
          | none => exact absurd ⟨r, hr⟩ hall
          | some b => exact ⟨b, rfl⟩
        choose b hb using hsome
        obtain rfl : v = fun r => some (b r) := funext hb
        exact ⟨b, chan₁, procs₁, hinv, hrun, fun r => hdone r _ rfl, hoff⟩
  exact hrest _ (fun _ => none) chan procs rfl hstart .refl (fun _ _ => Iff.rfl) (fun _ _ h => by cases h)
    (fun r _ => hp r) fun _ _ => rfl

end Programs

/-- The same for scripts that raise no exception. -/
theorem togetherOk_of_levels {R : C → Type} {P : Protocol ι K M G C fun c => Except E (R c)}
    (Inv : (Fin n → Option B) → (K → Channel M) → Prop) (level : Fin n → Nat)
    (hinj : Function.Injective I) (hmember : ∀ r, Function.Injective (member r)) (hself : ∀ r, ∃ i, member r i = r)
    (hclass : ∀ q r i j, member q i = member r j → ∀ i', ∃ j', member r j' = member q i')
    {ms : Fin n → Script E C (fun c => Except E (R c)) B}
    (hstart : Inv (fun _ => none) chan)
    (hstep : ∀ v chan r, Inv v chan → (∀ i, v (member r i) = none) →
      (∀ q, level q < level r → (v q).isSome = true) →
        P.TogetherOk A (fun i => I (member r i)) chan (fun i => ms (member r i)) fun b chan' =>
          ∀ v', (∀ i, v' (member r i) = some (b i)) → (∀ q, (∀ i, member r i ≠ q) → v' q = v q) → Inv v' chan') :
    P.TogetherOk A I chan ms fun b chan' => Inv (fun r => some (b r)) chan' := by
  let InvOk (v : Fin n → Option (Except E B)) (chan : K → Channel M) : Prop :=
    ∃ w : Fin n → Option B, (∀ r, v r = (w r).map .ok) ∧ Inv w chan
  have htogether : P.Together A I chan ms fun x chan' => InvOk (fun r => some (x r)) chan' := by
    refine together_of_levels InvOk level hinj hmember hself hclass ⟨fun _ => none, fun _ => rfl, hstart⟩ ?_
    rintro v chan₁ r ⟨w, hw, hinv⟩ hnone hlow procs f hp
    have hnone' : ∀ i, w (member r i) = none := fun i => by simpa [hw] using hnone i
    have hlow' : ∀ q, level q < level r → (w q).isSome = true := fun q hq => by simpa [hw] using hlow q hq
    obtain ⟨x, chan', procs', ⟨b, hx, hb⟩, hrun⟩ := hstep w chan₁ r hinv hnone' hlow' procs f hp
    refine ⟨x, chan', procs', fun v' hin hout => ?_, hrun⟩
    -- the results as values
    have hval : ∀ q, ∃ c : Option B, v' q = c.map .ok ∧ (∀ i, member r i = q → c = some (b i)) ∧
        ((∀ i, member r i ≠ q) → c = w q) := by
      intro q
      by_cases hq : ∃ i, member r i = q
      · obtain ⟨i, rfl⟩ := hq
        refine ⟨some (b i), by rw [hin, hx]; rfl, fun j hj => ?_, fun h => absurd rfl (h i)⟩
        rw [hmember r hj]
      · have hq' : ∀ i, member r i ≠ q := fun i hi => hq ⟨i, hi⟩
        exact ⟨w q, (hout q hq').trans (hw q), fun i hi => absurd hi (hq' i), fun _ => rfl⟩
    choose w' hv' hin' hout' using hval
    exact ⟨w', hv', hb w' (fun i => hin' _ i rfl) hout'⟩
  intro procs f hp
  obtain ⟨x, chan', procs', ⟨w, hw, hinv⟩, hrun⟩ := htogether procs f hp
  have hsome : ∀ r, ∃ b, w r = some b ∧ x r = .ok b := by
    intro r
    obtain ⟨b, hb, hx⟩ := Option.map_eq_some_iff.mp (hw r).symm
    exact ⟨b, hb, hx.symm⟩
  choose b hb hx using hsome
  obtain rfl : w = fun r => some (b r) := funext hb
  exact ⟨x, chan', procs', ⟨b, hx, hinv⟩, hrun⟩

end B70DualTP.Library.Protocol
