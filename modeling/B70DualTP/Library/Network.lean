import B70DualTP.Library.Diamond
import B70DualTP.Library.Script
import Mathlib.Data.List.Basic

/-! Processes that send over first-in first-out channels and meet in joint calls: the
step relation, and the order of steps not mattering. -/
namespace B70DualTP.Library
variable {ι K M G C : Type} {R : C → Type} {A : Type}

/-- The messages of a channel, how many have arrived, and how many have been claimed
by the receiver. -/
structure Channel (M : Type) where
  sent : List M
  arrived : Nat
  claimed : Nat

inductive Reply (M : Type) where
  | index (i : Nat)
  | message (m : M)

/-- What can happen on a channel. -/
inductive Op (M : Type) where
  /-- Send a message; the reply is its index. -/
  | emit (m : M)
  /-- Claim the next message without waiting for it; the reply is its index. -/
  | claim
  /-- Claim the next message and wait for it. -/
  | take
  /-- Wait for the message with an index. -/
  | await (i : Nat)
  /-- The next message in flight arrives. -/
  | arrive

namespace Op

inductive Runs : Op M → Channel M → Reply M → Channel M → Prop where
  | emit (m : M) (c : Channel M) : Runs (.emit m) c (.index c.sent.length) { c with sent := c.sent ++ [m] }
  | claim (c : Channel M) : Runs .claim c (.index c.claimed) { c with claimed := c.claimed + 1 }
  | take {c : Channel M} {m : M} (hlt : c.claimed < c.arrived) (hm : c.sent[c.claimed]? = some m) :
      Runs .take c (.message m) { c with claimed := c.claimed + 1 }
  | await {c : Channel M} {i : Nat} {m : M} (hlt : i < c.arrived) (hm : c.sent[i]? = some m) :
      Runs (.await i) c (.message m) c
  | arrive {c : Channel M} (hlt : c.arrived < c.sent.length) :
      Runs .arrive c (.index c.arrived) { c with arrived := c.arrived + 1 }

theorem Runs.deterministic {o : Op M} {c c₁ c₂ : Channel M} {x y : Reply M} (h₁ : o.Runs c x c₁)
    (h₂ : o.Runs c y c₂) : x = y ∧ c₁ = c₂ := by
  cases h₁ <;> cases h₂ <;> simp_all

inductive Side where
  | sender | receiver | carrier
  deriving DecidableEq

/-- The end of the channel that an operation moves. -/
def side : Op M → Option Side
  | .emit _ => some .sender
  | .claim | .take => some .receiver
  | .await _ => none
  | .arrive => some .carrier

/-- The operations move different ends. -/
def Apart (o o' : Op M) : Prop := ∀ s, o.side = some s → o'.side ≠ some s

theorem Apart.commute {o o' : Op M} (h : o.Apart o') {c c₁ c₂ : Channel M} {x y : Reply M}
    (h₁ : o.Runs c x c₁) (h₂ : o'.Runs c y c₂) : ∃ c₃, o'.Runs c₁ y c₃ ∧ o.Runs c₂ x c₃ := by
  have hget : ∀ {i : Nat} {m : M} (m' : M), c.sent[i]? = some m → (c.sent ++ [m'])[i]? = some m := by
    intro i m m' hm
    rw [List.getElem?_append_left (List.getElem?_eq_some_iff.mp hm).1, hm]
  have hlen : ∀ m' : M, c.arrived < c.sent.length → c.arrived < (c.sent ++ [m']).length := by
    intro m' hlt
    simp only [List.length_append]
    omega
  cases h₁ with
  | emit m =>
    cases h₂ with
    | emit => exact absurd rfl (h _ rfl)
    | claim => exact ⟨_, .claim _, .emit _ _⟩
    | take hlt hm => exact ⟨_, .take hlt (hget m hm), .emit _ _⟩
    | await hlt hm => exact ⟨_, .await hlt (hget m hm), .emit _ _⟩
    | arrive hlt => exact ⟨_, .arrive (hlen m hlt), .emit _ _⟩
  | claim =>
    cases h₂ with
    | emit => exact ⟨_, .emit _ _, .claim _⟩
    | claim | take => exact absurd rfl (h _ rfl)
    | await hlt hm => exact ⟨_, .await hlt hm, .claim _⟩
    | arrive hlt => exact ⟨_, .arrive hlt, .claim _⟩
  | take hlt hm =>
    cases h₂ with
    | emit m => exact ⟨_, .emit _ _, .take hlt (hget m hm)⟩
    | claim | take => exact absurd rfl (h _ rfl)
    | await hlt' hm' => exact ⟨_, .await hlt' hm', .take hlt hm⟩
    | arrive hlt' => exact ⟨_, .arrive hlt', .take (Nat.lt_succ_of_lt hlt) hm⟩
  | await hlt hm =>
    cases h₂ with
    | emit m => exact ⟨_, .emit _ _, .await hlt (hget m hm)⟩
    | claim => exact ⟨_, .claim _, .await hlt hm⟩
    | take hlt' hm' => exact ⟨_, .take hlt' hm', .await hlt hm⟩
    | await hlt' hm' => exact ⟨_, .await hlt' hm', .await hlt hm⟩
    | arrive hlt' => exact ⟨_, .arrive hlt', .await (Nat.lt_succ_of_lt hlt) hm⟩
  | arrive hlt =>
    cases h₂ with
    | emit m => exact ⟨_, .emit _ _, .arrive (hlen m hlt)⟩
    | claim => exact ⟨_, .claim _, .arrive hlt⟩
    | take hlt' hm' => exact ⟨_, .take (Nat.lt_succ_of_lt hlt') hm', .arrive hlt⟩
    | await hlt' hm' => exact ⟨_, .await (Nat.lt_succ_of_lt hlt') hm', .arrive hlt⟩
    | arrive => exact absurd rfl (h _ rfl)

end Op

/-- What a process does when it makes a call. -/
inductive Move (K M G ρ : Type) where
  | channel (k : K) (o : Op M) (reply : Reply M → ρ)
  /-- A joint call of all members of g. -/
  | join (g : G)
  /-- The call never returns. -/
  | stuck

/-- The moves of the processes, and the replies to joint calls: from the members' calls,
the position among them, and the member's own call. -/
structure Protocol (ι K M G C : Type) (R : C → Type) where
  move : ι → (c : C) → Move K M G (R c)
  members : G → List ι
  joint : G → List C → Nat → (c : C) → R c

structure State (ι K M C : Type) (R : C → Type) (A : Type) where
  procs : ι → Prog C R A
  chan : K → Channel M

namespace Protocol
variable (P : Protocol ι K M G C R)

/-- The channel operation that a process is about to carry out, and how it goes on. -/
def offer (p : ι) : Prog C R A → Option (K × Op M × (Reply M → Prog C R A))
  | .ret _ => none
  | .call c k =>
    match P.move p c with
    | .channel ch o reply => some (ch, o, fun x => k (reply x))
    | _ => none

/-- The process is about to make a joint call of g. -/
def Ready (g : G) (p : ι) : Prog C R A → Prop
  | .ret _ => False
  | .call c _ => P.move p c = .join g

def call? : Prog C R A → Option C
  | .ret _ => none
  | .call c _ => some c

/-- The process after the joint call of g, given the calls of all members. -/
def joined [DecidableEq ι] (g : G) (calls : List C) (p : ι) : Prog C R A → Prog C R A
  | .ret a => .ret a
  | .call c k => k (P.joint g calls ((P.members g).idxOf p) c)

section Offers
variable {P} {p q : ι} {g g' : G} {m m' : Prog C R A} {ch : K} {o o' : Op M} {f f' : Reply M → Prog C R A}

theorem offer_eq_some (h : P.offer p m = some (ch, o, f)) :
    ∃ c k reply, m = .call c k ∧ P.move p c = .channel ch o reply ∧ f = fun x => k (reply x) := by
  cases m with
  | ret a => cases h
  | call c k =>
    simp only [offer] at h
    split at h
    · rename_i hmove
      cases h
      exact ⟨c, k, _, rfl, hmove, rfl⟩
    · cases h

theorem not_ready_of_offer (h : P.offer p m = some (ch, o, f)) : ¬ P.Ready g p m := by
  obtain ⟨c, k, reply, rfl, hmove, -⟩ := offer_eq_some h
  intro hg
  rw [Ready, hmove] at hg
  cases hg

theorem Ready.unique (h : P.Ready g p m) (h' : P.Ready g' p m) : g = g' := by
  cases m with
  | ret a => exact h.elim
  | call c k => exact Move.join.inj (h.symm.trans h')

end Offers

/-- No two processes move the same end of a channel, and none carries messages. -/
structure Separate : Prop where
  apart : ∀ {p q : ι} {c d : C} {ch : K} {o o' : Op M} {f : Reply M → R c} {f' : Reply M → R d},
    P.move p c = .channel ch o f → P.move q d = .channel ch o' f' → p ≠ q → o.Apart o'
  carried : ∀ {p : ι} {c : C} {ch : K} {o : Op M} {f : Reply M → R c},
    P.move p c = .channel ch o f → o.Apart .arrive

theorem Separate.offers {P : Protocol ι K M G C R} (hP : P.Separate) {p q : ι} {m m' : Prog C R A} {ch : K}
    {o o' : Op M} {f f' : Reply M → Prog C R A} (h : P.offer p m = some (ch, o, f))
    (h' : P.offer q m' = some (ch, o', f')) (hpq : p ≠ q) : o.Apart o' := by
  obtain ⟨c, -, reply, -, hmove, -⟩ := offer_eq_some h
  obtain ⟨c', -, reply', -, hmove', -⟩ := offer_eq_some h'
  exact hP.apart hmove hmove' hpq

section Meet
variable [DecidableEq ι]

/-- The processes after the joint call of g. -/
def meet (g : G) (procs : ι → Prog C R A) (p : ι) : Prog C R A :=
  if p ∈ P.members g then P.joined g ((P.members g).filterMap fun q => call? (procs q)) p (procs p) else procs p

theorem meet_of_mem {g : G} {procs procs' : ι → Prog C R A} (h : ∀ q ∈ P.members g, procs' q = procs q) {p : ι}
    (hp : p ∈ P.members g) : P.meet g procs' p = P.meet g procs p := by
  have hcalls : ((P.members g).filterMap fun q => call? (procs' q)) =
      (P.members g).filterMap fun q => call? (procs q) := List.filterMap_congr fun q hq => by rw [h q hq]
  simp only [meet, if_pos hp, hcalls, h p hp]

theorem meet_of_not_mem {g : G} {procs : ι → Prog C R A} {p : ι} (hp : p ∉ P.members g) :
    P.meet g procs p = procs p := if_neg hp

end Meet

section Steps
variable [DecidableEq ι] [DecidableEq K]

/-- One step of the network: a process, a message that arrives, or a joint call. -/
inductive Step : State ι K M C R A → State ι K M C R A → Prop where
  | act {s : State ι K M C R A} {p : ι} {ch : K} {o : Op M} {next : Reply M → Prog C R A} {x : Reply M}
      {c : Channel M} (hp : P.offer p (s.procs p) = some (ch, o, next)) (ho : o.Runs (s.chan ch) x c) :
      Step s ⟨Function.update s.procs p (next x), Function.update s.chan ch c⟩
  | arrive {s : State ι K M C R A} {ch : K} {x : Reply M} {c : Channel M}
      (ho : Op.arrive.Runs (s.chan ch) x c) : Step s ⟨s.procs, Function.update s.chan ch c⟩
  | join {s : State ι K M C R A} {g : G} (hne : P.members g ≠ []) (hg : ∀ p ∈ P.members g, P.Ready g p (s.procs p)) :
      Step s ⟨P.meet g s.procs, s.chan⟩

private theorem chan_commute {chan : K → Channel M} {ch ch' : K} {o o' : Op M} {x y : Reply M} {c c' : Channel M}
    (h : o.Runs (chan ch) x c) (h' : o'.Runs (chan ch') y c') (hapart : ch = ch' → o.Apart o') :
    ∃ d d', o'.Runs (Function.update chan ch c ch') y d' ∧ o.Runs (Function.update chan ch' c' ch) x d ∧
      Function.update (Function.update chan ch c) ch' d' = Function.update (Function.update chan ch' c') ch d := by
  by_cases hch : ch = ch'
  · subst hch
    obtain ⟨d, hd', hd⟩ := (hapart rfl).commute h h'
    exact ⟨d, d, by simpa using hd', by simpa using hd, by simp⟩
  · refine ⟨c, c', ?_, ?_, Function.update_comm hch _ _ _⟩
    · rwa [Function.update_of_ne (Ne.symm hch)]
    · rwa [Function.update_of_ne hch]

/-- Two processes, at different ends of a channel or on different channels. -/
private theorem diamond_act (hP : P.Separate) {s : State ι K M C R A} {p q : ι} {ch ch' : K} {o o' : Op M}
    {f f' : Reply M → Prog C R A} {x y : Reply M} {c c' : Channel M} (hpq : p ≠ q)
    (hp : P.offer p (s.procs p) = some (ch, o, f)) (ho : o.Runs (s.chan ch) x c)
    (hq : P.offer q (s.procs q) = some (ch', o', f')) (ho' : o'.Runs (s.chan ch') y c') :
    ∃ d, P.Step ⟨Function.update s.procs p (f x), Function.update s.chan ch c⟩ d ∧
      P.Step ⟨Function.update s.procs q (f' y), Function.update s.chan ch' c'⟩ d := by
  have hapart : ch = ch' → o.Apart o' := by
    rintro rfl
    exact hP.offers hp hq hpq
  obtain ⟨d, d', hd', hd, hchan⟩ := chan_commute ho ho' hapart
  have hq' : P.offer q (Function.update s.procs p (f x) q) = some (ch', o', f') := by
    rwa [Function.update_of_ne hpq.symm]
  have hp' : P.offer p (Function.update s.procs q (f' y) p) = some (ch, o, f) := by
    rwa [Function.update_of_ne hpq]
  refine ⟨_, .act hq' hd', ?_⟩
  rw [hchan, Function.update_comm hpq]
  exact .act hp' hd

private theorem diamond_act_arrive (hP : P.Separate) {s : State ι K M C R A} {p : ι} {ch ch' : K} {o : Op M}
    {f : Reply M → Prog C R A} {x y : Reply M} {c c' : Channel M} (hp : P.offer p (s.procs p) = some (ch, o, f))
    (ho : o.Runs (s.chan ch) x c) (ho' : Op.arrive.Runs (s.chan ch') y c') :
    ∃ d, P.Step ⟨Function.update s.procs p (f x), Function.update s.chan ch c⟩ d ∧
      P.Step ⟨s.procs, Function.update s.chan ch' c'⟩ d := by
  obtain ⟨k, -, reply, -, hmove, -⟩ := offer_eq_some hp
  obtain ⟨d, d', hd', hd, hchan⟩ := chan_commute ho ho' fun _ => hP.carried hmove
  refine ⟨_, .arrive hd', ?_⟩
  rw [hchan]
  exact .act (s := ⟨s.procs, _⟩) hp hd

/-- A process at a channel is no member of a joint call that can take place. -/
private theorem diamond_act_join {s : State ι K M C R A} {p : ι} {ch : K} {o : Op M} {f : Reply M → Prog C R A}
    {x : Reply M} {c : Channel M} {g : G} (hp : P.offer p (s.procs p) = some (ch, o, f))
    (ho : o.Runs (s.chan ch) x c) (hne : P.members g ≠ []) (hg : ∀ q ∈ P.members g, P.Ready g q (s.procs q)) :
    ∃ d, P.Step ⟨Function.update s.procs p (f x), Function.update s.chan ch c⟩ d ∧
      P.Step ⟨P.meet g s.procs, s.chan⟩ d := by
  have hmem : p ∉ P.members g := fun h => not_ready_of_offer hp (hg p h)
  have hkeep : ∀ q ∈ P.members g, Function.update s.procs p (f x) q = s.procs q := by
    intro q hq
    have hqp : q ≠ p := fun h => hmem (h ▸ hq)
    exact Function.update_of_ne hqp _ _
  have hp' : P.offer p (P.meet g s.procs p) = some (ch, o, f) := by rwa [P.meet_of_not_mem hmem]
  refine ⟨_, .join (g := g) hne fun q hq => ?_, ?_⟩
  · change P.Ready g q (Function.update s.procs p (f x) q)
    rw [hkeep q hq]
    exact hg q hq
  · have hprocs : P.meet g (Function.update s.procs p (f x)) = Function.update (P.meet g s.procs) p (f x) := by
      funext q
      by_cases hq : q ∈ P.members g
      · have hqp : q ≠ p := fun h => hmem (h ▸ hq)
        rw [P.meet_of_mem hkeep hq, Function.update_of_ne hqp]
      · rw [P.meet_of_not_mem hq]
        by_cases hqp : q = p
        · subst hqp
          simp
        · rw [Function.update_of_ne hqp, Function.update_of_ne hqp, P.meet_of_not_mem hq]
    rw [hprocs]
    exact .act (s := ⟨P.meet g s.procs, s.chan⟩) hp' ho

/-- Different joint calls have different members. -/
private theorem diamond_join {s : State ι K M C R A} {g g' : G} (hgg : g ≠ g') (hne : P.members g ≠ [])
    (hg : ∀ q ∈ P.members g, P.Ready g q (s.procs q)) (hne' : P.members g' ≠ [])
    (hg' : ∀ q ∈ P.members g', P.Ready g' q (s.procs q)) :
    ∃ d, P.Step ⟨P.meet g s.procs, s.chan⟩ d ∧ P.Step ⟨P.meet g' s.procs, s.chan⟩ d := by
  have hdisj : ∀ q ∈ P.members g, q ∉ P.members g' := fun q hq hq' => hgg ((hg q hq).unique (hg' q hq'))
  have hkeep : ∀ q ∈ P.members g', P.meet g s.procs q = s.procs q :=
    fun q hq => P.meet_of_not_mem fun h => hdisj q h hq
  have hkeep' : ∀ q ∈ P.members g, P.meet g' s.procs q = s.procs q := fun q hq => P.meet_of_not_mem (hdisj q hq)
  have hprocs : P.meet g' (P.meet g s.procs) = P.meet g (P.meet g' s.procs) := by
    funext q
    by_cases hq : q ∈ P.members g
    · rw [P.meet_of_mem hkeep' hq, P.meet_of_not_mem (hdisj q hq)]
    · rw [P.meet_of_not_mem (g := g) hq]
      by_cases hq' : q ∈ P.members g'
      · rw [P.meet_of_mem hkeep hq']
      · rw [P.meet_of_not_mem hq', P.meet_of_not_mem hq, P.meet_of_not_mem hq']
  refine ⟨_, .join (g := g') hne' fun q hq => ?_, ?_⟩
  · change P.Ready g' q (P.meet g s.procs q)
    rw [hkeep q hq]
    exact hg' q hq
  · rw [hprocs]
    refine .join (s := ⟨P.meet g' s.procs, s.chan⟩) hne fun q hq => ?_
    change P.Ready g q (P.meet g' s.procs q)
    rw [hkeep' q hq]
    exact hg q hq

/-- The order of the steps of different processes and of arrivals does not matter. -/
theorem diamond (hP : P.Separate) : Diamond (P.Step (A := A)) := by
  intro a b c hb hc
  cases hb with
  | @act p ch o f x d hp ho =>
    cases hc with
    | @act q ch' o' f' y d' hq ho' =>
      by_cases hpq : p = q
      · subst hpq
        rw [hp] at hq
        cases hq
        obtain ⟨rfl, rfl⟩ := ho.deterministic ho'
        exact .inl rfl
      · exact .inr (P.diamond_act hP hpq hp ho hq ho')
    | arrive ho' => exact .inr (P.diamond_act_arrive hP hp ho ho')
    | join hne hg => exact .inr (P.diamond_act_join hp ho hne hg)
  | @arrive ch x d ho =>
    cases hc with
    | act hq ho' =>
      obtain ⟨e, he, he'⟩ := P.diamond_act_arrive hP hq ho' ho
      exact .inr ⟨e, he', he⟩
    | @arrive ch' y d' ho' =>
      by_cases hch : ch = ch'
      · subst hch
        obtain ⟨rfl, rfl⟩ := ho.deterministic ho'
        exact .inl rfl
      · obtain ⟨e, e', he', he, hchan⟩ := chan_commute ho ho' fun h => absurd h hch
        refine .inr ⟨_, .arrive he', ?_⟩
        rw [hchan]
        exact .arrive (s := ⟨a.procs, _⟩) he
    | @join g hne hg => exact .inr ⟨_, .join (s := ⟨a.procs, _⟩) hne hg, .arrive ho⟩
  | @join g hne hg =>
    cases hc with
    | act hq ho' =>
      obtain ⟨e, he, he'⟩ := P.diamond_act_join hq ho' hne hg
      exact .inr ⟨e, he', he⟩
    | arrive ho' => exact .inr ⟨_, .arrive ho', .join (s := ⟨a.procs, _⟩) hne hg⟩
    | @join g' hne' hg' =>
      by_cases hgg : g = g'
      · subst hgg
        exact .inl rfl
      · exact .inr (P.diamond_join hgg hne hg hne' hg')

end Steps
end Protocol
end B70DualTP.Library
