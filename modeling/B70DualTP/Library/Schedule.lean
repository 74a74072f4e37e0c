import B70DualTP.Library.Network
import Mathlib.Data.List.OfFn
import Mathlib.Data.List.FinRange
import Mathlib.Data.List.Nodup

/-! Runs of a network in one convenient order: a process by itself, processes one after
the other, and a group in lockstep. -/
namespace B70DualTP.Library.Protocol
variable {ι K M G C E : Type} {R : C → Type} {A B D : Type} (P : Protocol ι K M G C R) [DecidableEq ι] [DecidableEq K]

abbrev Reaches (s s' : State ι K M C R A) : Prop := Relation.ReflTransGen P.Step s s'

/-- Where all processes have returned and all messages have arrived, nothing can happen. -/
theorem final_of_returned {P : Protocol ι K M G C R} {s : State ι K M C R A} (hret : ∀ p, ∃ a, s.procs p = .ret a)
    (hchan : ∀ k, (s.chan k).arrived = (s.chan k).sent.length) : Final P.Step s := by
  intro s' hstep
  cases hstep with
  | @act p ch o next x c hp ho =>
    obtain ⟨a, ha⟩ := hret p
    rw [ha] at hp
    cases hp
  | @arrive ch x c ho =>
    cases ho with
    | arrive hlt => exact hlt.ne (hchan ch)
  | @join g hne hg =>
    obtain ⟨p, hp⟩ := List.exists_mem_of_ne_nil _ hne
    obtain ⟨a, ha⟩ := hret p
    have hready := hg p hp
    rw [ha] at hready
    exact hready

/-- Process p can run m by itself, with the arrivals it needs; its value and the channels
then satisfy Q. -/
def Solo (A : Type) (p : ι) (chan : K → Channel M) (m : Prog C R B) (Q : B → (K → Channel M) → Prop) : Prop :=
  ∀ (procs : ι → Prog C R A) (f : B → Prog C R A), procs p = m >>= f →
    ∃ b chan', Q b chan' ∧ P.Reaches ⟨procs, chan⟩ ⟨Function.update procs p (f b), chan'⟩

section Solo
variable {P} {p : ι} {chan : K → Channel M} {Q : B → (K → Channel M) → Prop}

theorem solo_ret {b : B} (h : Q b chan) : P.Solo A p chan (.ret b) Q := by
  intro procs f hp
  have hsame : Function.update procs p (f b) = procs := by
    rw [Function.update_eq_self_iff]
    exact hp.symm
  exact ⟨b, chan, h, by rw [hsame]⟩

theorem solo_bind {m : Prog C R D} {g : D → Prog C R B} {Q' : D → (K → Channel M) → Prop}
    (hm : P.Solo A p chan m Q') (hg : ∀ d chan', Q' d chan' → P.Solo A p chan' (g d) Q) :
    P.Solo A p chan (m >>= g) Q := by
  intro procs f hp
  obtain ⟨d, chan₁, hd, hrun⟩ := hm procs (fun d => g d >>= f) (by rw [hp, Prog.bind_assoc])
  obtain ⟨b, chan₂, hb, hrun'⟩ := hg d chan₁ hd (Function.update procs p (g d >>= f)) f (by simp)
  refine ⟨b, chan₂, hb, hrun.trans ?_⟩
  rwa [Function.update_idem] at hrun'

theorem solo_call {c : C} {ch : K} {o : Op M} {reply : Reply M → R c} {x : Reply M} {d : Channel M}
    {Q : R c → (K → Channel M) → Prop} (hmove : P.move p c = .channel ch o reply) (ho : o.Runs (chan ch) x d)
    (h : Q (reply x) (Function.update chan ch d)) : P.Solo A p chan (.call c .ret) Q := by
  intro procs f hp
  refine ⟨_, _, h, .single ?_⟩
  have hoffer : P.offer p (procs p) = some (ch, o, fun x => f (reply x)) := by
    rw [hp]
    simp [offer, hmove]
  exact .act (s := ⟨procs, chan⟩) hoffer ho

/-- A message arrives after what the process did. -/
theorem solo_then_arrive (ch : K) {m : Prog C R B} {Q' : B → (K → Channel M) → Prop} (hm : P.Solo A p chan m Q')
    (h : ∀ b chan', Q' b chan' → (chan' ch).arrived < (chan' ch).sent.length ∧
      Q b (Function.update chan' ch { chan' ch with arrived := (chan' ch).arrived + 1 })) :
    P.Solo A p chan m Q := by
  intro procs f hp
  obtain ⟨b, chan', hb, hrun⟩ := hm procs f hp
  obtain ⟨hlt, hQ⟩ := h b chan' hb
  exact ⟨b, _, hQ, hrun.tail (.arrive (s := ⟨_, chan'⟩) (.arrive hlt))⟩

theorem solo_mono {m : Prog C R B} {Q' : B → (K → Channel M) → Prop} (hm : P.Solo A p chan m Q)
    (h : ∀ b chan', Q b chan' → Q' b chan') : P.Solo A p chan m Q' := by
  intro procs f hp
  obtain ⟨b, chan', hb, hrun⟩ := hm procs f hp
  exact ⟨b, chan', h b chan' hb, hrun⟩

end Solo

/-- The processes I i can run the programs ms i while the others stand still; their values
and the channels then satisfy Q. -/
def Together {n : Nat} (A : Type) (I : Fin n → ι) (chan : K → Channel M) (ms : Fin n → Prog C R B)
    (Q : (Fin n → B) → (K → Channel M) → Prop) : Prop :=
  ∀ (procs : ι → Prog C R A) (f : Fin n → B → Prog C R A), (∀ i, procs (I i) = ms i >>= f i) →
    ∃ b chan' procs', Q b chan' ∧ P.Reaches ⟨procs, chan⟩ ⟨procs', chan'⟩ ∧ (∀ i, procs' (I i) = f i (b i)) ∧
      ∀ p, (∀ i, p ≠ I i) → procs' p = procs p

def LocalTo (own : K → Prop) (Q : (K → Channel M) → Prop) : Prop :=
  ∀ chan chan', (∀ k, own k → chan' k = chan k) → Q chan → Q chan'

section Together
variable {P} {n : Nat} {I : Fin n → ι} {chan : K → Channel M} {Q : (Fin n → B) → (K → Channel M) → Prop}

theorem together_ret {b : Fin n → B} (h : Q b chan) : P.Together A I chan (fun i => .ret (b i)) Q :=
  fun procs _ hp => ⟨b, chan, procs, h, .refl, hp, fun _ _ => rfl⟩

theorem together_bind {ms : Fin n → Prog C R D} {gs : Fin n → D → Prog C R B}
    {Q' : (Fin n → D) → (K → Channel M) → Prop} (hm : P.Together A I chan ms Q')
    (hg : ∀ d chan', Q' d chan' → P.Together A I chan' (fun i => gs i (d i)) Q) :
    P.Together A I chan (fun i => ms i >>= gs i) Q := by
  intro procs f hp
  obtain ⟨d, chan₁, procs₁, hd, hrun, hI, hoff⟩ :=
    hm procs (fun i d => gs i d >>= f i) fun i => by rw [hp i, Prog.bind_assoc]
  obtain ⟨b, chan₂, procs₂, hb, hrun', hI', hoff'⟩ := hg d chan₁ hd procs₁ f hI
  exact ⟨b, chan₂, procs₂, hb, hrun.trans hrun', hI', fun p h => (hoff' p h).trans (hoff p h)⟩

/-- Processes that work on channels of their own run one after the other. -/
theorem together_of_solo (hinj : Function.Injective I) {own : Fin n → K → Prop}
    (hown : ∀ i j k, own i k → own j k → i = j) {ms : Fin n → Prog C R B} {Pre : Fin n → (K → Channel M) → Prop}
    {Post : Fin n → B → (K → Channel M) → Prop} (hpre : ∀ i, LocalTo (own i) (Pre i))
    (hpost : ∀ i b, LocalTo (own i) (Post i b))
    (hsolo : ∀ i chan, Pre i chan →
      P.Solo A (I i) chan (ms i) fun b chan' => Post i b chan' ∧ ∀ k, ¬ own i k → chan' k = chan k)
    (h : ∀ i, Pre i chan) :
    P.Together A I chan ms fun b chan' => (∀ i, Post i (b i) chan') ∧ ∀ k, (∀ i, ¬ own i k) → chan' k = chan k := by
  intro procs f hp
  -- the processes in the list have run, the others have not
  have hlist : ∀ l : List (Fin n), l.Nodup → ∃ chan' procs', P.Reaches ⟨procs, chan⟩ ⟨procs', chan'⟩ ∧
      (∀ i ∈ l, ∃ b, Post i b chan' ∧ procs' (I i) = f i b) ∧
      (∀ i, i ∉ l → Pre i chan' ∧ procs' (I i) = ms i >>= f i) ∧
      (∀ p, (∀ i, p ≠ I i) → procs' p = procs p) ∧ ∀ k, (∀ i, ¬ own i k) → chan' k = chan k := by
    intro l hl
    induction l with
    | nil => exact ⟨chan, procs, .refl, by simp, fun i _ => ⟨h i, hp i⟩, fun _ _ => rfl, fun _ _ => rfl⟩
    | cons i l ih =>
      obtain ⟨hi, hl⟩ := List.nodup_cons.mp hl
      obtain ⟨chan₁, procs₁, hrun, hdone, hwait, hoff, hchan⟩ := ih hl
      obtain ⟨b, chan₂, ⟨hb, hframe⟩, hrun'⟩ := hsolo i chan₁ (hwait i hi).1 procs₁ (f i) (hwait i hi).2
      have hkeep : ∀ j, j ≠ i → ∀ k, own j k → chan₂ k = chan₁ k :=
        fun j hj k hk => hframe k fun hk' => hj (hown j i k hk hk')
      have hne : ∀ j, j ≠ i → Function.update procs₁ (I i) (f i b) (I j) = procs₁ (I j) :=
        fun j hj => Function.update_of_ne (fun hI => hj (hinj hI)) _ _
      refine ⟨chan₂, _, hrun.trans hrun', ?_, ?_, ?_, ?_⟩
      · intro j hj
        rcases List.mem_cons.mp hj with rfl | hj
        · exact ⟨b, hb, by simp⟩
        · have hji : j ≠ i := fun hji => hi (hji ▸ hj)
          obtain ⟨b', hb', hf⟩ := hdone j hj
          exact ⟨b', hpost j b' _ _ (hkeep j hji) hb', by rw [hne j hji, hf]⟩
      · intro j hj
        rw [List.mem_cons, not_or] at hj
        obtain ⟨hj', hm⟩ := hwait j hj.2
        exact ⟨hpre j _ _ (hkeep j hj.1) hj', by rw [hne j hj.1, hm]⟩
      · intro p hI
        rw [Function.update_of_ne (hI i), hoff p hI]
      · intro k hk
        rw [hframe k (hk i), hchan k hk]
  obtain ⟨chan', procs', hrun, hdone, -, hoff, hchan⟩ := hlist (List.finRange n) (List.nodup_finRange n)
  choose b hb hf using fun i => hdone i (List.mem_finRange i)
  exact ⟨b, chan', procs', ⟨hb, hchan⟩, hrun, hf, hoff⟩

/-- The processes fall into classes, and the classes run one after the other. member r lists
the class of process r. -/
theorem together_of_classes (hinj : Function.Injective I) {size : Fin n → Nat} {member : ∀ r, Fin (size r) → Fin n}
    (hself : ∀ r, ∃ i, member r i = r)
    (hclass : ∀ q r i j, member q i = member r j → ∀ i', ∃ j', member r j' = member q i')
    {ms : Fin n → Prog C R B} {Post : Fin n → B → Prop}
    (h : ∀ r, P.Together A (fun i => I (member r i)) chan (fun i => ms (member r i)) fun b chan' =>
      (∀ i, Post (member r i) (b i)) ∧ chan' = chan) :
    P.Together A I chan ms fun b chan' => (∀ r, Post r (b r)) ∧ chan' = chan := by
  intro procs f hp
  -- the classes of the processes in the list have run, the others have not
  have hlist : ∀ l : List (Fin n), ∃ procs', P.Reaches ⟨procs, chan⟩ ⟨procs', chan⟩ ∧
      (∀ r, (∃ q ∈ l, ∃ i, member q i = r) → ∃ b, Post r b ∧ procs' (I r) = f r b) ∧
      (∀ r, (∀ q ∈ l, ∀ i, member q i ≠ r) → procs' (I r) = ms r >>= f r) ∧
      ∀ p, (∀ r, p ≠ I r) → procs' p = procs p := by
    intro l
    induction l with
    | nil => exact ⟨procs, .refl, by simp, fun r _ => hp r, fun _ _ => rfl⟩
    | cons q l ih =>
      obtain ⟨procs₁, hrun, hdone, hwait, hoff⟩ := ih
      by_cases hq : ∃ q' ∈ l, ∃ i, member q' i = q
      · -- the class of q has run with that of q'
        obtain ⟨q', hq', i', hi'⟩ := hq
        obtain ⟨i₀, hi₀⟩ := hself q
        have hsame : ∀ i, ∃ i', member q' i' = member q i := hclass q q' i₀ i' (hi₀.trans hi'.symm)
        refine ⟨procs₁, hrun, ?_, fun r hr => hwait r (List.forall_mem_cons.mp hr).2, hoff⟩
        rintro r ⟨q'', hq'', i, rfl⟩
        rcases List.mem_cons.mp hq'' with rfl | hq''
        · obtain ⟨j, hj⟩ := hsame i
          exact hdone _ ⟨q', hq', j, hj⟩
        · exact hdone _ ⟨q'', hq'', i, rfl⟩
      · have hfresh : ∀ i, ∀ q' ∈ l, ∀ i', member q' i' ≠ member q i := by
          intro i q' hq' i' hi'
          obtain ⟨i₀, hi₀⟩ := hself q
          obtain ⟨j, hj⟩ := hclass q q' i i' hi'.symm i₀
          exact hq ⟨q', hq', j, hj.trans hi₀⟩
        obtain ⟨b, _, procs₂, ⟨hb, rfl⟩, hrun', hI, hoff'⟩ :=
          h q procs₁ (fun i => f (member q i)) fun i => hwait _ (hfresh i)
        refine ⟨procs₂, hrun.trans hrun', ?_, ?_, ?_⟩
        · rintro r ⟨q', hq', i, rfl⟩
          by_cases hr : ∃ j, member q j = member q' i
          · obtain ⟨j, hj⟩ := hr
            exact hj ▸ ⟨b j, hb j, hI j⟩
          · obtain hq' := (List.mem_cons.mp hq').resolve_left fun he => hr ⟨he ▸ i, by subst he; rfl⟩
            obtain ⟨b', hb', hf⟩ := hdone _ ⟨q', hq', i, rfl⟩
            refine ⟨b', hb', ?_⟩
            rw [hoff' _ fun j hj => hr ⟨j, (hinj hj).symm⟩, hf]
        · intro r hr
          obtain ⟨hr, hrest⟩ := List.forall_mem_cons.mp hr
          rw [hoff' _ fun j hj => hr j (hinj hj).symm, hwait r hrest]
        · intro p hI'
          rw [hoff' p fun j => hI' _, hoff p hI']
  obtain ⟨procs', hrun, hdone, -, hoff⟩ := hlist (List.finRange n)
  choose b hb hf using fun r => hdone r ⟨r, List.mem_finRange r, hself r⟩
  exact ⟨b, chan, procs', ⟨hb, rfl⟩, hrun, hf, hoff⟩

/-- A row of joint calls of one group, whose members are the processes. -/
def JoinRow (P : Protocol ι K M G C R) (I : Fin n → ι) (c : Fin n → C) : Prop :=
  ∃ g, P.members g = List.ofFn I ∧ ∀ i, P.move (I i) (c i) = .join g

/-- A lockstep run of joint calls is a run of the network. -/
theorem together_of_groupRun [NeZero n] (hinj : Function.Injective I) {meaning : (c : Fin n → C) → ∀ i, R (c i)}
    (hjoint : ∀ g c i, meaning c i = P.joint g (List.ofFn c) i (c i)) {ms : Fin n → Prog C R B}
    {tr : List (Fin n → C)} {b : Fin n → B} (hrun : Prog.GroupRun meaning ms tr b)
    (hrow : ∀ c ∈ tr, JoinRow P I c) (h : Q b chan) : P.Together A I chan ms Q := by
  induction hrun with
  | done b => exact together_ret h
  | step c k _ ih =>
    obtain ⟨hc, hrest⟩ := List.forall_mem_cons.mp hrow
    obtain ⟨g, hmem, hmove⟩ := hc
    intro procs f hp
    have hcalls : ((P.members g).filterMap fun q => call? (procs q)) = List.ofFn c := by
      have hsome : ∀ i ∈ List.finRange n, call? (procs (I i)) = some (c i) := fun i _ => by
        rw [hp i]
        rfl
      rw [hmem, List.ofFn_eq_map, List.filterMap_map, List.ofFn_eq_map]
      exact (List.filterMap_congr hsome).trans (congrFun List.filterMap_eq_map' _)
    have hpos : ∀ i, (P.members g).idxOf (I i) = i := by
      intro i
      have hlt : (i : Nat) < (List.ofFn I).length := by rw [List.length_ofFn]; exact i.2
      have hget := (List.nodup_ofFn.mpr hinj).idxOf_getElem i hlt
      rwa [List.getElem_ofFn, ← hmem] at hget
    have hmeet : ∀ i, P.meet g procs (I i) = k i (meaning c i) >>= f i := by
      intro i
      have hi : I i ∈ P.members g := by rw [hmem]; exact List.mem_ofFn.mpr ⟨i, rfl⟩
      rw [meet, if_pos hi, hcalls, hp i, hjoint g]
      simp only [Prog.call_bind, joined, hpos i]
    have hne : P.members g ≠ [] := by
      rw [hmem]
      exact List.ne_nil_of_length_pos (by rw [List.length_ofFn]; exact Nat.pos_of_ne_zero (NeZero.ne n))
    obtain ⟨b', chan', procs', hb', hrun', hI, hoff⟩ := ih hrest h (P.meet g procs) f hmeet
    refine ⟨b', chan', procs', hb', .head (.join (s := ⟨procs, chan⟩) hne fun p hp' => ?_) hrun', hI, fun p hpI => ?_⟩
    · rw [hmem] at hp'
      obtain ⟨i, rfl⟩ := List.mem_ofFn.mp hp'
      change P.Ready g (I i) (procs (I i))
      rw [hp i]
      exact hmove i
    · rw [hoff p hpI]
      apply P.meet_of_not_mem
      intro hp'
      rw [hmem] at hp'
      obtain ⟨i, rfl⟩ := List.mem_ofFn.mp hp'
      exact hpI i rfl

end Together

section Scripts
variable {R : C → Type} (P : Protocol ι K M G C fun c => Except E (R c))

/-- Process p can run the script by itself, without an exception. -/
def SoloOk (A : Type) (p : ι) (chan : K → Channel M) (m : Script E C (fun c => Except E (R c)) B)
    (Q : B → (K → Channel M) → Prop) : Prop :=
  P.Solo A p chan m fun x chan' => ∃ b, x = .ok b ∧ Q b chan'

/-- The processes can run the scripts while the others stand still, without an exception. -/
def TogetherOk {n : Nat} (A : Type) (I : Fin n → ι) (chan : K → Channel M)
    (ms : Fin n → Script E C (fun c => Except E (R c)) B) (Q : (Fin n → B) → (K → Channel M) → Prop) : Prop :=
  P.Together A I chan ms fun x chan' => ∃ b : Fin n → B, (∀ i, x i = .ok (b i)) ∧ Q b chan'

variable {P} {p : ι} {chan : K → Channel M} {n : Nat} {I : Fin n → ι}

theorem soloOk_pure {b : B} {Q : B → (K → Channel M) → Prop} (h : Q b chan) :
    P.SoloOk A p chan (pure b : Script E C (fun c => Except E (R c)) B) Q := solo_ret ⟨b, rfl, h⟩

theorem soloOk_bind {m : Script E C (fun c => Except E (R c)) D} {g : D → Script E C (fun c => Except E (R c)) B}
    {Q : B → (K → Channel M) → Prop} {Q' : D → (K → Channel M) → Prop} (hm : P.SoloOk A p chan m Q')
    (hg : ∀ d chan', Q' d chan' → P.SoloOk A p chan' (g d) Q) : P.SoloOk A p chan (m >>= g) Q := by
  apply solo_bind hm
  rintro x chan' ⟨d, rfl, hd⟩
  exact hg d chan' hd

theorem soloOk_ask {c : C} {ch : K} {o : Op M} {reply : Reply M → Except E (R c)} {x : Reply M} {d : Channel M}
    {y : R c} {Q : R c → (K → Channel M) → Prop} (hmove : P.move p c = .channel ch o reply)
    (ho : o.Runs (chan ch) x d) (hy : reply x = .ok y) (h : Q y (Function.update chan ch d)) :
    P.SoloOk A p chan (Script.ask c : Script E C (fun c => Except E (R c)) (R c)) Q :=
  solo_call hmove ho ⟨y, hy, h⟩

theorem soloOk_then_arrive (ch : K) {m : Script E C (fun c => Except E (R c)) B}
    {Q Q' : B → (K → Channel M) → Prop} (hm : P.SoloOk A p chan m Q')
    (h : ∀ b chan', Q' b chan' → (chan' ch).arrived < (chan' ch).sent.length ∧
      Q b (Function.update chan' ch { chan' ch with arrived := (chan' ch).arrived + 1 })) :
    P.SoloOk A p chan m Q := by
  apply solo_then_arrive ch hm
  rintro x chan' ⟨b, rfl, hb⟩
  exact ⟨(h b chan' hb).1, b, rfl, (h b chan' hb).2⟩

theorem togetherOk_pure {b : Fin n → B} {Q : (Fin n → B) → (K → Channel M) → Prop} (h : Q b chan) :
    P.TogetherOk A I chan (fun i => (pure (b i) : Script E C (fun c => Except E (R c)) B)) Q :=
  together_ret ⟨b, fun _ => rfl, h⟩

theorem togetherOk_bind {ms : Fin n → Script E C (fun c => Except E (R c)) D}
    {gs : Fin n → D → Script E C (fun c => Except E (R c)) B} {Q : (Fin n → B) → (K → Channel M) → Prop}
    {Q' : (Fin n → D) → (K → Channel M) → Prop} (hm : P.TogetherOk A I chan ms Q')
    (hg : ∀ d chan', Q' d chan' → P.TogetherOk A I chan' (fun i => gs i (d i)) Q) :
    P.TogetherOk A I chan (fun i => ms i >>= gs i) Q := by
  apply together_bind hm
  rintro x chan' ⟨d, hx, hd⟩
  obtain rfl : x = fun i => .ok (d i) := funext hx
  exact hg d chan' hd

theorem togetherOk_mono {ms : Fin n → Script E C (fun c => Except E (R c)) B} {Q Q' : (Fin n → B) → (K → Channel M) → Prop}
    (hm : P.TogetherOk A I chan ms Q) (h : ∀ b chan', Q b chan' → Q' b chan') : P.TogetherOk A I chan ms Q' := by
  intro procs f hp
  obtain ⟨x, chan', procs', ⟨b, hx, hb⟩, hrun⟩ := hm procs f hp
  exact ⟨x, chan', procs', ⟨b, hx, h b chan' hb⟩, hrun⟩

theorem togetherOk_of_soloOk (hinj : Function.Injective I) {own : Fin n → K → Prop}
    (hown : ∀ i j k, own i k → own j k → i = j) {ms : Fin n → Script E C (fun c => Except E (R c)) B}
    {Pre : Fin n → (K → Channel M) → Prop} {Post : Fin n → B → (K → Channel M) → Prop}
    (hpre : ∀ i, LocalTo (own i) (Pre i)) (hpost : ∀ i b, LocalTo (own i) (Post i b))
    (hsolo : ∀ i chan, Pre i chan →
      P.SoloOk A (I i) chan (ms i) fun b chan' => Post i b chan' ∧ ∀ k, ¬ own i k → chan' k = chan k)
    (h : ∀ i, Pre i chan) :
    P.TogetherOk A I chan ms fun b chan' => (∀ i, Post i (b i) chan') ∧ ∀ k, (∀ i, ¬ own i k) → chan' k = chan k := by
  have hlocal : ∀ i (x : Except E B), LocalTo (own i) fun chan' => ∃ b, x = .ok b ∧ Post i b chan' := by
    rintro i x chan₁ chan₂ hsame ⟨b, hx, hb⟩
    exact ⟨b, hx, hpost i b _ _ hsame hb⟩
  have htogether := together_of_solo (A := A) hinj hown hpre hlocal
    (fun i chan hi => solo_mono (hsolo i chan hi) fun x chan' hx => by
      obtain ⟨b, hx, hb, hframe⟩ := hx
      exact ⟨⟨b, hx, hb⟩, hframe⟩) h
  intro procs f hp
  obtain ⟨x, chan', procs', ⟨hpost', hframe⟩, hrun⟩ := htogether procs f hp
  choose b hx hb using hpost'
  exact ⟨x, chan', procs', ⟨b, hx, hb, hframe⟩, hrun⟩

/-- A lockstep run of scripts, all of whose rows are joint calls. -/
theorem togetherOk_of_finishes [NeZero n] (hinj : Function.Injective I)
    {meaning : (c : Fin n → C) → ∀ i, Except E (R (c i))}
    (hjoint : ∀ g c i, meaning c i = P.joint g (List.ofFn c) i (c i))
    {ms : Fin n → Script E C (fun c => Except E (R c)) B} {Q : (Fin n → B) → Prop}
    (h : Script.Finishes meaning (JoinRow P I) ms Q) :
    P.TogetherOk A I chan ms fun b chan' => Q b ∧ chan' = chan := by
  obtain ⟨tr, b, hrun, hrow, hQ⟩ := h
  exact together_of_groupRun hinj hjoint hrun hrow ⟨b, fun _ => rfl, hQ, rfl⟩

/-- A lockstep run of scripts that make joint calls of one group alone. -/
theorem togetherOk_of_completes [NeZero n] (hinj : Function.Injective I)
    {meaning : (c : Fin n → C) → ∀ i, Except E (R (c i))}
    (hjoint : ∀ g c i, meaning c i = P.joint g (List.ofFn c) i (c i)) {g : G} (hmem : P.members g = List.ofFn I)
    {ms : Fin n → Script E C (fun c => Except E (R c)) B}
    (hconfined : ∀ i, (ms i).Confined (fun _ _ => True) fun c => P.move (I i) c = .join g) {Q : (Fin n → B) → Prop}
    (h : Script.Completes meaning ms Q) : P.TogetherOk A I chan ms fun b chan' => Q b ∧ chan' = chan := by
  obtain ⟨tr, b, hrun, hQ⟩ := h
  exact togetherOk_of_finishes hinj hjoint ⟨tr, b, hrun, fun c hc => ⟨g, hmem, hrun.rows hconfined c hc⟩, hQ⟩

theorem togetherOk_of_classes (hinj : Function.Injective I) {size : Fin n → Nat} {member : ∀ r, Fin (size r) → Fin n}
    (hself : ∀ r, ∃ i, member r i = r)
    (hclass : ∀ q r i j, member q i = member r j → ∀ i', ∃ j', member r j' = member q i')
    {ms : Fin n → Script E C (fun c => Except E (R c)) B} {Post : Fin n → B → Prop}
    (h : ∀ r, P.TogetherOk A (fun i => I (member r i)) chan (fun i => ms (member r i)) fun b chan' =>
      (∀ i, Post (member r i) (b i)) ∧ chan' = chan) :
    P.TogetherOk A I chan ms fun b chan' => (∀ r, Post r (b r)) ∧ chan' = chan := by
  let Ends (r : Fin n) (x : Except E B) : Prop := ∃ b, x = .ok b ∧ Post r b
  have hends : ∀ r, P.Together A (fun i => I (member r i)) chan (fun i => ms (member r i)) fun x chan' =>
      (∀ i, Ends (member r i) (x i)) ∧ chan' = chan := by
    intro r procs f hp
    obtain ⟨x, chan', procs', ⟨b, hx, hb, hchan⟩, hrun⟩ := h r procs f hp
    exact ⟨x, chan', procs', ⟨fun i => ⟨b i, hx i, hb i⟩, hchan⟩, hrun⟩
  intro procs f hp
  obtain ⟨x, chan', procs', ⟨hpost, hchan⟩, hrun⟩ := together_of_classes hinj hself hclass hends procs f hp
  choose b hx hb using hpost
  exact ⟨x, chan', procs', ⟨b, hx, hb, hchan⟩, hrun⟩

end Scripts
end B70DualTP.Library.Protocol
