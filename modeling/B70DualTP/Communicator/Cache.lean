import Mathlib.Data.Fintype.Basic
import Mathlib.Data.List.Sort
import Mathlib.Data.String.Basic
import B70DualTP.Library.RLock
import B70DualTP.Torch.Tensor

/-! The cache of communication handles. Several threads call get_or_create at once, and an
instance that nobody holds any more may be collected at any time. -/
namespace B70DualTP.Communicator.Cache
open Library Torch
variable {ι V : Type}

/-- Keyword arguments, in the order of the call. -/
structure Kwargs (V : Type) where
  items : List (String × V)
  nodup : (items.map Prod.fst).Nodup

abbrev Key (V : Type) := List (String × V)

/-- tuple(sorted((k, v) for k, v in kwargs.items())). The names differ, so no two values are
compared. -/
def Kwargs.key (kwargs : Kwargs V) : Key V := kwargs.items.insertionSort fun a b => a.1 ≤ b.1

theorem Kwargs.key_eq_iff {kwargs kwargs' : Kwargs V} : kwargs.key = kwargs'.key ↔ kwargs.items.Perm kwargs'.items := by
  have hperm := fun kwargs : Kwargs V => List.perm_insertionSort (fun a b : String × V => a.1 ≤ b.1) kwargs.items
  constructor
  · intro h
    exact (hperm kwargs).symm.trans ((List.Perm.of_eq h).trans (hperm kwargs'))
  · intro h
    have : IsTrans (String × V) fun a b => a.1 ≤ b.1 := ⟨fun _ _ _ => le_trans⟩
    have : Std.Total fun a b : String × V => a.1 ≤ b.1 := ⟨fun a b => le_total a.1 b.1⟩
    refine List.Perm.eq_of_pairwise ?_ (List.pairwise_insertionSort _ _) (List.pairwise_insertionSort _ _)
      ((hperm kwargs).trans (h.trans (hperm kwargs').symm))
    -- two items of one name are the same item
    intro a b ha hb hab hba
    have ha' : a ∈ kwargs.items := (hperm kwargs).mem_iff.mp ha
    have hb' : b ∈ kwargs.items := h.mem_iff.mpr ((hperm kwargs').mem_iff.mp hb)
    exact List.inj_on_of_nodup_map kwargs.nodup ha' hb' (le_antisymm hab hba)

/-- Where a call of get_or_create is. An instance is known by a number. -/
inductive Frame (V : Type) where
  /-- At the lock. -/
  | entering (kwargs : Kwargs V)
  /-- self._cache.get(key) comes next. -/
  | inside (kwargs : Kwargs V)
  /-- func is running. -/
  | creating (kwargs : Kwargs V)
  /-- self._cache[key] = instance comes next. -/
  | storing (kwargs : Kwargs V) (object : Nat)
  /-- The lock is given back, and the call ends. -/
  | leaving (kwargs : Kwargs V) (result : Py Nat)

namespace Frame

def kwargs : Frame V → Kwargs V
  | entering kwargs | inside kwargs | creating kwargs | storing kwargs _ | leaving kwargs _ => kwargs

/-- The call holds the lock. -/
def locked : Frame V → Bool
  | entering _ => false
  | inside _ | creating _ | storing _ _ | leaving _ _ => true

def isMaking : Frame V → Bool
  | creating _ | storing _ _ => true
  | entering _ | inside _ | leaving _ _ => false

/-- func may call get_or_create again. -/
def isCreating : Frame V → Bool
  | creating _ => true
  | entering _ | inside _ | storing _ _ | leaving _ _ => false

def object? : Frame V → Option Nat
  | storing _ object | leaving _ (.ok object) => some object
  | entering _ | inside _ | creating _ | leaving _ (.error _) => none

end Frame

structure State (ι V : Type) where
  /-- The entries of the WeakValueDictionary; the instance may be dead. -/
  cache : Key V → Option Nat
  lock : RLock ι
  /-- The calls of each thread, the innermost first. -/
  calls : ι → List (Frame V)
  alive : Nat → Bool
  /-- The number of the next instance. -/
  next : Nat
  /-- What calls have returned, as far as a caller still holds it. -/
  results : List (Kwargs V × Nat)

def start : State ι V where
  cache _ := none
  lock := .free
  calls _ := []
  alive _ := false
  next := 0
  results := []

namespace State

def get (s : State ι V) (key : Key V) : Option Nat := (s.cache key).filter s.alive

def make (s : State ι V) : State ι V := { s with alive := Function.update s.alive s.next true, next := s.next + 1 }

def bury (s : State ι V) (object : Nat) : State ι V := { s with alive := Function.update s.alive object false }

@[simp] theorem make_alive (s : State ι V) (object : Nat) :
    s.make.alive object = if object = s.next then true else s.alive object := Function.update_apply ..

@[simp] theorem bury_alive (s : State ι V) (object object' : Nat) :
    (s.bury object).alive object' = if object' = object then false else s.alive object' := Function.update_apply ..

/-- Somebody has a strong reference to the instance. -/
def Holds (s : State ι V) (object : Nat) : Prop :=
  (∃ r ∈ s.results, r.2 = object) ∨ ∃ t, ∃ f ∈ s.calls t, f.object? = some object

instance [Fintype ι] (s : State ι V) (object : Nat) : Decidable (s.Holds object) :=
  inferInstanceAs (Decidable (_ ∨ _))

end State

/-- How func ends: with a new instance, with one that exists already, or with an exception. -/
inductive Outcome where
  | new
  | existing (object : Nat)
  | raises (error : PyError)

/-- A step of a thread, a caller that lets go of the n-th result, or the garbage collector. -/
inductive Event (ι V : Type) where
  | call (t : ι) (kwargs : Kwargs V)
  | acquire (t : ι)
  | lookUp (t : ι)
  | finish (t : ι) (outcome : Outcome)
  | store (t : ι)
  | leave (t : ι)
  | drop (n : Nat)
  | collect (object : Nat)

section Calls
variable [DecidableEq ι]

def State.setCalls (s : State ι V) (t : ι) (calls : List (Frame V)) : State ι V :=
  { s with calls := Function.update s.calls t calls }

@[simp] theorem State.setCalls_calls (s : State ι V) (t : ι) (calls : List (Frame V)) (u : ι) :
    (s.setCalls t calls).calls u = if u = t then calls else s.calls u := Function.update_apply ..

theorem State.forall_setCalls {P : ι → List (Frame V) → Prop} {s : State ι V} {t : ι} {calls : List (Frame V)}
    (h : ∀ u, P u (s.calls u)) (ht : P t calls) (u : ι) : P u ((s.setCalls t calls).calls u) :=
  (Function.forall_update_iff s.calls P).mpr ⟨ht, fun u _ => h u⟩ u

section Members
variable {s : State ι V} {t u : ι} {f g : Frame V} {calls rest : List (Frame V)}

theorem State.mem_setCalls :
    f ∈ (s.setCalls t calls).calls u ↔ u = t ∧ f ∈ calls ∨ u ≠ t ∧ f ∈ s.calls u := by
  rw [setCalls_calls]
  split
  · rename_i hu
    simp [hu]
  · rename_i hu
    simp [hu]

/-- Calls that have ended leave the others as they were. -/
theorem State.mem_of_setCalls (hrest : rest ⊆ s.calls t) (hf : f ∈ (s.setCalls t rest).calls u) : f ∈ s.calls u :=
  forall_setCalls (P := fun u calls => calls ⊆ s.calls u) (fun _ => List.Subset.refl _) hrest u hf

/-- Only the innermost call of the thread can be a new one. -/
theorem State.mem_of_setCalls_cons (hrest : rest ⊆ s.calls t) (hf : f ∈ (s.setCalls t (g :: rest)).calls u) :
    u = t ∧ f = g ∨ f ∈ s.calls u := by
  rcases mem_setCalls.mp hf with ⟨hu, hmem⟩ | ⟨-, hmem⟩
  · subst hu
    rcases List.mem_cons.mp hmem with hg | hmem
    · exact .inl ⟨rfl, hg⟩
    · exact .inr (hrest hmem)
  · exact .inr hmem

end Members

/-- The locked calls are those of the lock's owner, and only the innermost call of a thread is
not waiting for its func; what is referenced is alive. -/
structure State.Ordered (s : State ι V) : Prop where
  running : ∀ t, ∀ f ∈ (s.calls t).tail, f.isCreating = true
  depth : ∀ t, s.lock.depth t = (s.calls t).countP (·.locked)
  cached : ∀ key object, s.cache key = some object → object < s.next
  living : ∀ object, s.alive object = true → object < s.next
  held : ∀ r ∈ s.results, s.alive r.2 = true
  local_held : ∀ t, ∀ f ∈ s.calls t, ∀ object, f.object? = some object → s.alive object = true

namespace State.Ordered
variable {s : State ι V} {t : ι} {f g : Frame V} {rest : List (Frame V)}

theorem creating (h : s.Ordered) (hrun : ∀ f ∈ (s.calls t).head?, f.isCreating = true) :
    ∀ f ∈ s.calls t, f.isCreating = true := by
  have htail := h.running t
  cases hc : s.calls t with
  | nil => exact fun f hf => by cases hf
  | cons g rest =>
    rw [hc] at htail hrun
    exact List.forall_mem_cons.mpr ⟨hrun g rfl, htail⟩

theorem exclusive (h : s.Ordered) {u : ι} (hf : f ∈ s.calls t) (hf' : f.locked = true) (hg : g ∈ s.calls u)
    (hg' : g.locked = true) : t = u := by
  apply RLock.owner_unique (l := s.lock)
  · rw [h.depth]
    exact List.countP_pos_iff.mpr ⟨f, hf, hf'⟩
  · rw [h.depth]
    exact List.countP_pos_iff.mpr ⟨g, hg, hg'⟩

theorem replace (h : s.Ordered) (hcalls : s.calls t = f :: rest) (hlocked : g.locked = f.locked)
    (hobject : ∀ object, g.object? = some object → s.alive object = true) : (s.setCalls t (g :: rest)).Ordered where
  running := by
    have htail := h.running t
    rw [hcalls] at htail
    exact forall_setCalls (P := fun _ calls => ∀ f ∈ calls.tail, f.isCreating = true) h.running htail
  depth := by
    have hdepth := h.depth t
    rw [hcalls, List.countP_cons, ← hlocked, ← List.countP_cons] at hdepth
    exact forall_setCalls (P := fun u calls => s.lock.depth u = calls.countP (·.locked)) h.depth hdepth
  cached := h.cached
  living := h.living
  held := h.held
  local_held u f' hf' := by
    rcases mem_of_setCalls_cons (hcalls ▸ List.subset_cons_self f rest) hf' with ⟨-, rfl⟩ | hf'
    · exact hobject
    · exact h.local_held u f' hf'

end State.Ordered

end Calls

def State.put [DecidableEq V] (s : State ι V) (key : Key V) (object : Nat) : State ι V :=
  { s with cache := Function.update s.cache key (some object) }

@[simp] theorem State.put_cache [DecidableEq V] (s : State ι V) (key key' : Key V) (object : Nat) :
    (s.put key object).cache key' = if key' = key then some object else s.cache key' := Function.update_apply ..

section Steps
variable [DecidableEq ι] [DecidableEq V] (hashable : V → Bool) (referenceable : Nat → Bool)

/-- What the look-up makes of the call; the key must be hashable. -/
def State.lookedUp (s : State ι V) (kwargs : Kwargs V) : Frame V :=
  if kwargs.items.all fun item => hashable item.2 then
    match s.get kwargs.key with
    | some object => .leaving kwargs (.ok object)
    | none => .creating kwargs
  else .leaving kwargs (.error .typeError)

/-- There is no result where the event cannot happen. None, for one, cannot be weakly referenced. -/
def State.step [Fintype ι] (s : State ι V) : Event ι V → Option (State ι V)
  | .call t kwargs =>
    if (s.calls t).head?.all (·.isCreating) then some (s.setCalls t (.entering kwargs :: s.calls t)) else none
  | .acquire t =>
    match s.calls t with
    | .entering kwargs :: rest =>
      (s.lock.acquire t).map fun lock => { s.setCalls t (.inside kwargs :: rest) with lock }
    | _ => none
  | .lookUp t =>
    match s.calls t with
    | .inside kwargs :: rest => some (s.setCalls t (s.lookedUp hashable kwargs :: rest))
    | _ => none
  | .finish t outcome =>
    match s.calls t with
    | .creating kwargs :: rest =>
      match outcome with
      | .new => some (s.make.setCalls t (.storing kwargs s.next :: rest))
      | .existing object => if s.alive object then some (s.setCalls t (.storing kwargs object :: rest)) else none
      | .raises error => some (s.setCalls t (.leaving kwargs (.error error) :: rest))
    | _ => none
  | .store t =>
    match s.calls t with
    | .storing kwargs object :: rest =>
      if referenceable object then some ((s.put kwargs.key object).setCalls t (.leaving kwargs (.ok object) :: rest))
      else some (s.setCalls t (.leaving kwargs (.error .typeError) :: rest))
    | _ => none
  | .leave t =>
    match s.calls t with
    | .leaving kwargs result :: rest => (s.lock.release t).map fun lock => { s.setCalls t rest with
        lock, results := result.toOption.elim s.results fun object => (kwargs, object) :: s.results }
    | _ => none
  | .drop n => some { s with results := s.results.eraseIdx n }
  | .collect object =>
    if s.alive object = true ∧ ¬ s.Holds object then some (s.bury object) else none

def State.run [Fintype ι] (s : State ι V) : List (Event ι V) → Option (State ι V)
  | [] => some s
  | e :: es => (s.step hashable referenceable e).bind fun s' => s'.run es

/-- A func that makes an instance for the key asks for the same key again. -/
def State.reEnters (s : State ι V) (key : Key V) : Event ι V → Bool
  | .call t kwargs => kwargs.key = key ∧ ∃ f ∈ s.calls t, f.isCreating = true ∧ f.kwargs.key = key
  | _ => false

def State.calm [Fintype ι] (key : Key V) (s : State ι V) : List (Event ι V) → Bool
  | [] => true
  | e :: es => !s.reEnters key e && (s.step hashable referenceable e).all fun s' => s'.calm key es

inductive State.Moves (s : State ι V) : Event ι V → State ι V → Prop where
  | call {t : ι} {kwargs : Kwargs V} (h : ∀ f ∈ (s.calls t).head?, f.isCreating = true) :
      s.Moves (.call t kwargs) (s.setCalls t (.entering kwargs :: s.calls t))
  | acquire {t : ι} {kwargs : Kwargs V} {rest : List (Frame V)} {lock : RLock ι}
      (h : s.calls t = .entering kwargs :: rest) (hlock : s.lock.acquire t = some lock) :
      s.Moves (.acquire t) { s.setCalls t (.inside kwargs :: rest) with lock }
  | found {t : ι} {kwargs : Kwargs V} {rest : List (Frame V)} {object : Nat} (h : s.calls t = .inside kwargs :: rest)
      (hget : s.get kwargs.key = some object) :
      s.Moves (.lookUp t) (s.setCalls t (.leaving kwargs (.ok object) :: rest))
  | missing {t : ι} {kwargs : Kwargs V} {rest : List (Frame V)} (h : s.calls t = .inside kwargs :: rest)
      (hget : s.get kwargs.key = none) : s.Moves (.lookUp t) (s.setCalls t (.creating kwargs :: rest))
  | made {t : ι} {kwargs : Kwargs V} {rest : List (Frame V)} (h : s.calls t = .creating kwargs :: rest) :
      s.Moves (.finish t .new) (s.make.setCalls t (.storing kwargs s.next :: rest))
  | reused {t : ι} {kwargs : Kwargs V} {rest : List (Frame V)} {object : Nat} (h : s.calls t = .creating kwargs :: rest)
      (halive : s.alive object = true) :
      s.Moves (.finish t (.existing object)) (s.setCalls t (.storing kwargs object :: rest))
  | stored {t : ι} {kwargs : Kwargs V} {rest : List (Frame V)} {object : Nat}
      (h : s.calls t = .storing kwargs object :: rest) :
      s.Moves (.store t) ((s.put kwargs.key object).setCalls t (.leaving kwargs (.ok object) :: rest))
  | failed {e : Event ι V} {t : ι} {f : Frame V} {rest : List (Frame V)} {error : PyError} (h : s.calls t = f :: rest)
      (hlocked : f.locked = true) (he : ∀ u kwargs, e ≠ .call u kwargs) :
      s.Moves e (s.setCalls t (.leaving f.kwargs (.error error) :: rest))
  | returned {t : ι} {kwargs : Kwargs V} {rest : List (Frame V)} {result : Py Nat} {lock : RLock ι}
      (h : s.calls t = .leaving kwargs result :: rest) (hlock : s.lock.release t = some lock) :
      s.Moves (.leave t) { s.setCalls t rest with
        lock, results := result.toOption.elim s.results fun object => (kwargs, object) :: s.results }
  | drop (n : Nat) : s.Moves (.drop n) { s with results := s.results.eraseIdx n }
  | collect {object : Nat} (hheld : ¬ s.Holds object) :
      s.Moves (.collect object) (s.bury object)

variable {hashable} {referenceable} [Fintype ι] {s s' : State ι V} {e : Event ι V} {t : ι}

theorem State.step_moves (h : s.step hashable referenceable e = some s') : s.Moves e s' := by
  cases e with
  | call t kwargs =>
    simp only [step] at h
    split at h
    · rename_i hrun
      cases h
      refine .call fun f hf => ?_
      rw [Option.mem_def.mp hf] at hrun
      exact hrun
    · cases h
  | acquire t =>
    simp only [step] at h
    split at h
    · rename_i hcalls
      obtain ⟨lock, hlock, rfl⟩ := Option.map_eq_some_iff.mp h
      exact .acquire hcalls hlock
    · cases h
  | lookUp t =>
    simp only [step] at h
    split at h
    · rename_i kwargs rest hcalls
      cases h
      rw [lookedUp]
      split
      · split
        · exact .found hcalls ‹_›
        · exact .missing hcalls ‹_›
      · exact .failed hcalls rfl fun _ _ => nofun
    · cases h
  | finish t outcome =>
    simp only [step] at h
    split at h
    · rename_i kwargs rest hcalls
      split at h
      · cases h
        exact .made hcalls
      · split at h
        · cases h
          exact .reused hcalls ‹_›
        · cases h
      · cases h
        exact .failed hcalls rfl fun _ _ => nofun
    · cases h
  | store t =>
    simp only [step] at h
    split at h
    · rename_i kwargs object rest hcalls
      split at h
      · cases h
        exact .stored hcalls
      · cases h
        exact .failed hcalls rfl fun _ _ => nofun
    · cases h
  | leave t =>
    simp only [step] at h
    split at h
    · rename_i hcalls
      obtain ⟨lock, hlock, rfl⟩ := Option.map_eq_some_iff.mp h
      exact .returned hcalls hlock
    · cases h
  | drop n =>
    cases h
    exact .drop n
  | collect object =>
    simp only [step] at h
    split at h
    · rename_i hdead
      cases h
      exact .collect hdead.2
    · cases h

end Steps

section Ordered
variable [DecidableEq ι] {s : State ι V}

theorem start_ordered : (start : State ι V).Ordered where
  running _ _ hf := by cases hf
  depth _ := rfl
  cached _ _ h := by cases h
  living _ h := by cases h
  held _ hr := by cases hr
  local_held _ _ hf := by cases hf

private theorem make_ordered (h : s.Ordered) : s.make.Ordered where
  running := h.running
  depth := h.depth
  cached key object hk := Nat.lt_succ_of_lt (h.cached key object hk)
  living object ho := by
    rw [State.make_alive] at ho
    split at ho
    · rename_i hnew
      exact hnew ▸ Nat.lt_succ_self _
    · exact Nat.lt_succ_of_lt (h.living object ho)
  held r hr := by
    rw [State.make_alive, if_neg (h.living _ (h.held r hr)).ne]
    exact h.held r hr
  local_held t f hf object ho := by
    have halive := h.local_held t f hf object ho
    rw [State.make_alive, if_neg (h.living _ halive).ne]
    exact halive

private theorem bury_ordered (h : s.Ordered) {object : Nat} (hheld : ¬ s.Holds object) : (s.bury object).Ordered where
  running := h.running
  depth := h.depth
  cached := h.cached
  living object' ho := by
    rw [State.bury_alive] at ho
    split at ho
    · cases ho
    · exact h.living object' ho
  held r hr := by
    rw [State.bury_alive, if_neg fun hdead => hheld (.inl ⟨r, hr, hdead⟩)]
    exact h.held r hr
  local_held t f hf object' ho := by
    rw [State.bury_alive, if_neg fun hdead : object' = object => hheld (.inr ⟨t, f, hf, hdead ▸ ho⟩)]
    exact h.local_held t f hf object' ho

private theorem put_ordered [DecidableEq V] (h : s.Ordered) (key : Key V) {object : Nat}
    (halive : s.alive object = true) :
    (s.put key object).Ordered where
  running := h.running
  depth := h.depth
  cached key' object' hk := by
    rw [State.put_cache] at hk
    split at hk
    · cases hk
      exact h.living object halive
    · exact h.cached key' object' hk
  living := h.living
  held := h.held
  local_held := h.local_held

end Ordered

section Single
variable {s s' : State ι V} {key : Key V}

theorem State.get_eq_some {object : Nat} :
    s.get key = some object ↔ s.cache key = some object ∧ s.alive object = true := Option.filter_eq_some_iff

/-- A thread has at most one call for the key, and all instances of the key that anybody holds are
the one in the cache. -/
structure State.Single (key : Key V) (s : State ι V) : Prop where
  once : ∀ t, (s.calls t).Pairwise fun f g => ¬ (f.kwargs.key = key ∧ g.kwargs.key = key)
  results : ∀ r ∈ s.results, r.1.key = key → s.get key = some r.2
  leaving : ∀ t kwargs object, .leaving kwargs (.ok object) ∈ s.calls t → kwargs.key = key → s.get key = some object
  making : ∀ t, ∀ f ∈ s.calls t, f.isMaking = true → f.kwargs.key = key → s.get key = none

/-- What is in the cache for the key does not change, as far as anybody holds it. -/
theorem State.Single.of_get (h : s.Single key) (hcalls : s'.calls = s.calls) (hresults : ∀ r ∈ s'.results, r ∈ s.results)
    (hsome : ∀ object, s.Holds object → s.get key = some object → s'.get key = some object)
    (hnone : s.get key = none → s'.get key = none) : s'.Single key where
  once := hcalls ▸ h.once
  results r hr hkey := hsome r.2 (.inl ⟨r, hresults r hr, rfl⟩) (h.results r (hresults r hr) hkey)
  leaving u kwargs object hf hkey := by
    rw [hcalls] at hf
    exact hsome object (.inr ⟨u, _, hf, rfl⟩) (h.leaving u kwargs object hf hkey)
  making u f hf hmaking hkey := by
    rw [hcalls] at hf
    exact hnone (h.making u f hf hmaking hkey)

theorem start_single (key : Key V) : (start : State ι V).Single key where
  once _ := .nil
  results _ hr := by cases hr
  leaving _ _ _ hf := by cases hf
  making _ _ hf := by cases hf

namespace State.Single
variable [DecidableEq ι] {t : ι} {f g : Frame V} {rest : List (Frame V)}

private theorem once_replace (h : s.Single key) (hcalls : s.calls t = f :: rest) (hkwargs : g.kwargs = f.kwargs) (u : ι) :
    ((s.setCalls t (g :: rest)).calls u).Pairwise fun f g => ¬ (f.kwargs.key = key ∧ g.kwargs.key = key) := by
  have honce := h.once t
  rw [hcalls, List.pairwise_cons, ← hkwargs] at honce
  exact forall_setCalls (P := fun _ calls => calls.Pairwise _) h.once (List.pairwise_cons.mpr honce) u

theorem replace (h : s.Single key) (hcalls : s.calls t = f :: rest) (hkwargs : g.kwargs = f.kwargs)
    (hleaving : ∀ kwargs object, g = .leaving kwargs (.ok object) → kwargs.key = key → s.get key = some object)
    (hmaking : g.isMaking = true → g.kwargs.key = key → s.get key = none) : (s.setCalls t (g :: rest)).Single key where
  once := h.once_replace hcalls hkwargs
  results := h.results
  leaving u kwargs object hf := by
    rcases mem_of_setCalls_cons (hcalls ▸ List.subset_cons_self f rest) hf with ⟨-, hg⟩ | hf
    · exact hleaving kwargs object hg.symm
    · exact h.leaving u kwargs object hf
  making u f' hf := by
    rcases mem_of_setCalls_cons (hcalls ▸ List.subset_cons_self f rest) hf with ⟨-, rfl⟩ | hf
    · exact hmaking
    · exact h.making u f' hf

end State.Single

private theorem make_single [DecidableEq ι] (ho : s.Ordered) (h : s.Single key) : s.make.Single key := by
  refine h.of_get rfl (fun _ hr => hr) (fun object _ hget => ?_) fun hnone => ?_
  · rw [State.get_eq_some] at hget ⊢
    refine ⟨hget.1, ?_⟩
    rw [State.make_alive, if_neg (ho.living object hget.2).ne]
    exact hget.2
  · rw [Option.eq_none_iff_forall_ne_some] at hnone ⊢
    intro object hget
    rw [State.get_eq_some, State.make_alive, if_neg (ho.cached key object hget.1).ne] at hget
    exact hnone object (State.get_eq_some.mpr hget)

private theorem bury_single (h : s.Single key) {object : Nat} (hheld : ¬ s.Holds object) :
    (s.bury object).Single key := by
  refine h.of_get rfl (fun _ hr => hr) (fun object' hheld' hget => ?_) fun hnone => ?_
  · rw [State.get_eq_some] at hget ⊢
    refine ⟨hget.1, ?_⟩
    rw [State.bury_alive, if_neg fun hdead : object' = object => hheld (hdead ▸ hheld')]
    exact hget.2
  · rw [Option.eq_none_iff_forall_ne_some] at hnone ⊢
    intro object' hget
    rw [State.get_eq_some, State.bury_alive] at hget
    split at hget
    · cases hget.2
    · exact hnone object' (State.get_eq_some.mpr hget)

private theorem put_single [DecidableEq ι] [DecidableEq V] (ho : s.Ordered) (h : s.Single key) {kwargs : Kwargs V}
    {rest : List (Frame V)} {object : Nat} (hcalls : s.calls t = .storing kwargs object :: rest) :
    ((s.put kwargs.key object).setCalls t (.leaving kwargs (.ok object) :: rest)).Single key := by
  have hmem : Frame.storing kwargs object ∈ s.calls t := hcalls ▸ List.mem_cons_self
  have halive : s.alive object = true := ho.local_held t _ hmem object rfl
  by_cases hkey : kwargs.key = key
  · subst hkey
    have hnone := h.making t _ hmem rfl rfl
    have hnew : (s.put kwargs.key object).get kwargs.key = some object := by
      rw [State.get_eq_some, State.put_cache, if_pos rfl]
      exact ⟨rfl, halive⟩
    refine ⟨fun u => h.once_replace (g := .leaving kwargs (.ok object)) hcalls rfl u, fun r hr hkey => ?_,
      fun u kwargs' object' hf hkey => ?_, fun u f hf hmaking hkey => ?_⟩
    · cases hnone.symm.trans (h.results r hr hkey)
    · rcases State.mem_of_setCalls_cons (s := s) (hcalls ▸ List.subset_cons_self _ rest) hf with ⟨-, hnewest⟩ | hf
      · cases hnewest
        exact hnew
      · cases hnone.symm.trans (h.leaving u kwargs' object' hf hkey)
    · -- nobody else makes an instance for the key: not this thread, and no other is past the lock
      exfalso
      have hlocked : f.locked = true := by
        cases f with
        | creating | storing => rfl
        | entering | inside | leaving => cases hmaking
      rcases State.mem_setCalls.mp hf with ⟨-, hin⟩ | ⟨hu, hin⟩
      · rcases List.mem_cons.mp hin with rfl | hin
        · cases hmaking
        · have honce := h.once t
          rw [hcalls, List.pairwise_cons] at honce
          exact honce.1 f hin ⟨rfl, hkey⟩
      · exact hu (ho.exclusive hin hlocked hmem rfl)
  · have hget : (s.put kwargs.key object).get key = s.get key := by
      rw [State.get, State.get, State.put_cache, if_neg (Ne.symm hkey)]
      rfl
    have hput : (s.put kwargs.key object).Single key :=
      h.of_get rfl (fun _ hr => hr) (fun _ _ hsome => hget.trans hsome) fun hnone => hget.trans hnone
    refine hput.replace (f := .storing kwargs object) hcalls rfl (fun kwargs' object' heq hkey' => ?_) nofun
    cases heq
    exact absurd hkey' hkey

end Single

section Runs
variable [DecidableEq ι] [DecidableEq V] {hashable : V → Bool} {referenceable : Nat → Bool} {s s' : State ι V}
  {e : Event ι V}

theorem State.Moves.ordered (hm : s.Moves e s') (h : s.Ordered) : s'.Ordered := by
  cases hm with
  | @call t kwargs hrun =>
    refine ⟨?_, ?_, h.cached, h.living, h.held, fun u f hf => ?_⟩
    · exact forall_setCalls (P := fun _ calls => ∀ f ∈ calls.tail, f.isCreating = true) h.running (h.creating hrun)
    · exact forall_setCalls (P := fun u calls => s.lock.depth u = calls.countP (·.locked)) h.depth (h.depth t)
    · rcases mem_of_setCalls_cons (List.Subset.refl _) hf with ⟨-, rfl⟩ | hf
      · intro object ho
        cases ho
      · exact h.local_held u f hf
  | @acquire t kwargs rest lock hcalls hlock =>
    refine ⟨?_, fun u => ?_, h.cached, h.living, h.held, fun u f hf => ?_⟩
    · have htail := h.running t
      rw [hcalls] at htail
      exact forall_setCalls (P := fun _ calls => ∀ f ∈ calls.tail, f.isCreating = true) h.running htail
    · change lock.depth u = ((s.setCalls t _).calls u).countP _
      rw [RLock.depth_acquire hlock, setCalls_calls, h.depth]
      split
      · rename_i hu
        subst hu
        rw [hcalls, List.countP_cons, List.countP_cons]
        rfl
      · rfl
    · rcases mem_of_setCalls_cons (hcalls ▸ List.subset_cons_self _ rest) hf with ⟨-, rfl⟩ | hf
      · intro object ho
        cases ho
      · exact h.local_held u f hf
  | @found t kwargs rest object hcalls hget =>
    refine h.replace hcalls rfl fun object' ho => ?_
    cases ho
    exact (Option.filter_eq_some_iff.mp hget).2
  | @missing t kwargs rest hcalls hget => exact h.replace hcalls rfl fun object ho => by cases ho
  | @made t kwargs rest hcalls =>
    refine (make_ordered h).replace (t := t) (f := .creating kwargs) hcalls rfl fun object ho => ?_
    cases ho
    simp
  | @reused t kwargs rest object hcalls halive =>
    refine h.replace hcalls rfl fun object' ho => ?_
    cases ho
    exact halive
  | @stored t kwargs rest object hcalls =>
    have halive : s.alive object = true := h.local_held t _ (hcalls ▸ List.mem_cons_self) object rfl
    refine (put_ordered h kwargs.key halive).replace (t := t) (f := .storing kwargs object) hcalls rfl fun object' ho => ?_
    cases ho
    exact halive
  | @failed _ t f rest error hcalls hlocked _ => exact h.replace hcalls hlocked.symm fun object ho => by cases ho
  | @returned t kwargs rest result lock hcalls hlock =>
    refine ⟨?_, fun u => ?_, h.cached, h.living, fun r hr => ?_, fun u f hf => ?_⟩
    · have htail := h.running t
      rw [hcalls] at htail
      exact forall_setCalls (P := fun _ calls => ∀ f ∈ calls.tail, f.isCreating = true) h.running
        fun f hf => htail f (List.mem_of_mem_tail hf)
    · have hdepth := RLock.depth_release hlock u
      rw [h.depth] at hdepth
      change lock.depth u = ((s.setCalls t rest).calls u).countP _
      rw [setCalls_calls]
      split
      · rename_i hu
        subst hu
        rw [hcalls, if_pos rfl, List.countP_cons] at hdepth
        exact (Nat.succ.inj hdepth).symm
      · rename_i hu
        rw [if_neg hu] at hdepth
        exact hdepth.symm
    · cases result with
      | error error => exact h.held r hr
      | ok object =>
        rcases List.mem_cons.mp hr with rfl | hr
        · exact h.local_held t _ (hcalls ▸ List.mem_cons_self) object rfl
        · exact h.held r hr
    · exact h.local_held u f (mem_of_setCalls (hcalls ▸ List.subset_cons_self _ rest) hf)
  | drop n => exact { h with held := fun r hr => h.held r (List.mem_of_mem_eraseIdx hr) }
  | collect hheld => exact bury_ordered h hheld

/-- Every event keeps it, unless a func asks for the key that it makes an instance for. -/
theorem State.Moves.single {key : Key V} (hm : s.Moves e s') (ho : s.Ordered) (h : s.Single key)
    (hcalm : s.reEnters key e = false) : s'.Single key := by
  cases hm with
  | @call t kwargs hrun =>
    have hcreating := ho.creating hrun
    refine ⟨?_, h.results, fun u kwargs' object hf => ?_, fun u f hf => ?_⟩
    · refine forall_setCalls (P := fun _ calls => calls.Pairwise _) h.once (List.pairwise_cons.mpr ⟨?_, h.once t⟩)
      exact fun g hg hkeys => decide_eq_false_iff_not.mp hcalm ⟨hkeys.1, g, hg, hcreating g hg, hkeys.2⟩
    · rcases mem_of_setCalls_cons (List.Subset.refl _) hf with ⟨-, hnew⟩ | hf
      · cases hnew
      · exact h.leaving u kwargs' object hf
    · rcases mem_of_setCalls_cons (List.Subset.refl _) hf with ⟨-, rfl⟩ | hf
      · exact nofun
      · exact h.making u f hf
  | @acquire t kwargs rest lock hcalls hlock =>
    have hreplaced := h.replace (g := .inside kwargs) hcalls rfl nofun nofun
    exact { hreplaced with }
  | @found t kwargs rest object hcalls hget =>
    refine h.replace hcalls rfl (fun kwargs' object' heq hkey => ?_) nofun
    cases heq
    exact hkey ▸ hget
  | @missing t kwargs rest hcalls hget => exact h.replace hcalls rfl nofun fun _ hkey => hkey ▸ hget
  | @made t kwargs rest hcalls =>
    have hmake := make_single ho h
    refine hmake.replace (f := .creating kwargs) hcalls rfl nofun fun _ hkey => ?_
    have hmem : Frame.creating kwargs ∈ s.calls t := hcalls ▸ List.mem_cons_self
    exact hmake.making t _ hmem rfl hkey
  | @reused t kwargs rest object hcalls halive =>
    have hmem : Frame.creating kwargs ∈ s.calls t := hcalls ▸ List.mem_cons_self
    exact h.replace hcalls rfl nofun fun _ hkey => h.making t _ hmem rfl hkey
  | @stored t kwargs rest object hcalls => exact put_single ho h hcalls
  | @failed _ t f rest error hcalls hlocked _ =>
    exact h.replace hcalls rfl (fun _ _ heq => by cases heq) nofun
  | @returned t kwargs rest result lock hcalls hlock =>
    have hrest : rest ⊆ s.calls t := hcalls ▸ List.subset_cons_self _ rest
    refine ⟨?_, fun r hr hkey => ?_, fun u kwargs' object hf => ?_, fun u f hf => ?_⟩
    · have honce := h.once t
      rw [hcalls, List.pairwise_cons] at honce
      exact forall_setCalls (P := fun _ calls => calls.Pairwise _) h.once honce.2
    · cases result with
      | error error => exact h.results r hr hkey
      | ok object =>
        rcases List.mem_cons.mp hr with rfl | hr
        · exact h.leaving t kwargs object (hcalls ▸ List.mem_cons_self) hkey
        · exact h.results r hr hkey
    · exact h.leaving u kwargs' object (mem_of_setCalls hrest hf)
    · exact h.making u f (mem_of_setCalls hrest hf)
  | drop n =>
    exact h.of_get rfl (fun r hr => List.mem_of_mem_eraseIdx hr) (fun _ _ hget => hget) fun hget => hget
  | @collect object hheld => exact bury_single h hheld

variable [Fintype ι] {events : List (Event ι V)}

theorem State.run_ordered (h : s.run hashable referenceable events = some s') (hs : s.Ordered) : s'.Ordered := by
  induction events generalizing s with
  | nil =>
    cases h
    exact hs
  | cons e events ih =>
    obtain ⟨s₁, hstep, hrest⟩ := Option.bind_eq_some_iff.mp h
    exact ih hrest ((step_moves hstep).ordered hs)

theorem State.run_single {key : Key V} (h : s.run hashable referenceable events = some s') (ho : s.Ordered)
    (hs : s.Single key) (hcalm : s.calm hashable referenceable key events = true) : s'.Single key := by
  induction events generalizing s with
  | nil =>
    cases h
    exact hs
  | cons e events ih =>
    obtain ⟨s₁, hstep, hrest⟩ := Option.bind_eq_some_iff.mp h
    rw [calm, Bool.and_eq_true, Bool.not_eq_true', hstep] at hcalm
    have hmoves := step_moves hstep
    exact ih hrest (hmoves.ordered ho) (hmoves.single ho hs hcalm.1) hcalm.2

/-- A step of the thread in its innermost call. -/
inductive Event.Advances (t : ι) : Event ι V → Prop where
  | acquire : Advances t (.acquire t)
  | lookUp : Advances t (.lookUp t)
  | finish (outcome : Outcome) : Advances t (.finish t outcome)
  | store : Advances t (.store t)
  | leave : Advances t (.leave t)

/-- While there are calls, one of them can go on. -/
theorem State.Ordered.advances (h : s.Ordered) (hbusy : ∃ t, s.calls t ≠ []) :
    ∃ t e, e.Advances t ∧ (s.step hashable referenceable e).isSome = true := by
  -- the owner of the lock, or any thread where there is none
  obtain ⟨t, hcalls, hothers⟩ : ∃ t, s.calls t ≠ [] ∧ ∀ u, u ≠ t → s.lock.depth u = 0 := by
    by_cases howned : ∃ t, 0 < s.lock.depth t
    · obtain ⟨t, ht⟩ := howned
      refine ⟨t, fun hnil => ?_, fun u hu => ?_⟩
      · rw [h.depth, hnil] at ht
        cases ht
      · by_contra hpos
        exact hu (RLock.owner_unique (Nat.pos_of_ne_zero hpos) ht)
    · obtain ⟨t, ht⟩ := hbusy
      exact ⟨t, ht, fun u _ => Nat.eq_zero_of_not_pos fun hpos => howned ⟨u, hpos⟩⟩
  obtain ⟨f, rest, hf⟩ := List.exists_cons_of_ne_nil hcalls
  cases f with
  | entering kwargs =>
    obtain ⟨lock, hlock⟩ := RLock.exists_acquire hothers
    exact ⟨t, _, .acquire, by simp [step, hf, hlock]⟩
  | inside kwargs => exact ⟨t, _, .lookUp, by simp [step, hf]⟩
  | creating kwargs => exact ⟨t, _, .finish .new, by simp [step, hf]⟩
  | storing kwargs object =>
    refine ⟨t, _, .store, ?_⟩
    simp only [step, hf]
    split <;> rfl
  | leaving kwargs result =>
    obtain ⟨lock, hlock⟩ := RLock.exists_release (l := s.lock) (t := t) (by rw [h.depth, hf]; simp [Frame.locked])
    exact ⟨t, _, .leave, by simp [step, hf, hlock]⟩

/-- However the threads and the garbage collector interleave: all instances that callers hold for
some arguments are the one that the next call for them returns, unless a func asks for what it is
making itself. While there are calls, one of them can go on. -/
theorem getOrCreate_unique {s : State ι V} (h : start.run hashable referenceable events = some s) :
    (∀ kwargs : Kwargs V, start.calm hashable referenceable kwargs.key events = true →
      ∀ r ∈ s.results, r.1.items.Perm kwargs.items → s.get kwargs.key = some r.2) ∧
        ((∃ t, s.calls t ≠ []) → ∃ t e, e.Advances t ∧ (s.step hashable referenceable e).isSome = true) := by
  refine ⟨fun kwargs hcalm r hr hperm => ?_, fun hbusy => (State.run_ordered h start_ordered).advances hbusy⟩
  exact (State.run_single h start_ordered (start_single _) hcalm).results r hr (Kwargs.key_eq_iff.mpr hperm)

end Runs

/-- Two threads ask for one handle, with their arguments in different orders; its func needs
another handle first. Later nobody holds the handle, it is collected, and the second thread gets
a new one. -/
def handleArgs : Kwargs Nat := ⟨[("num_tokens", 16), ("hidden", 1024)], by decide⟩
def handleArgs' : Kwargs Nat := ⟨[("hidden", 1024), ("num_tokens", 16)], by decide⟩
def bufferArgs : Kwargs Nat := ⟨[("bytes", 4096)], by decide⟩

def handleEvents : List (Event Bool Nat) :=
  [.call false handleArgs, .call true handleArgs', .acquire false, .lookUp false,
    .call false bufferArgs, .acquire false, .lookUp false, .finish false .new, .store false, .leave false,
    .finish false .new, .store false, .leave false, .acquire true, .lookUp true, .leave true,
    .drop 0, .drop 0, .collect 1, .call true handleArgs', .acquire true, .lookUp true, .finish true .new, .store true,
    .leave true,
    .call false handleArgs, .acquire false]

def handleState : State Bool Nat := ((start.run (fun _ => true) (fun _ => true) handleEvents).getD start)

theorem handle_unique : (∀ r ∈ handleState.results, r.1.items.Perm handleArgs.items →
      handleState.get handleArgs.key = some r.2) ∧
    handleState.results.map Prod.snd = [2, 0] ∧ handleState.calls false ≠ [] := by
  have hrun : start.run (fun _ => true) (fun _ => true) handleEvents = some handleState := by
    have hsome : (start.run (fun _ => true) (fun _ => true) handleEvents).isSome = true := by decide
    obtain ⟨s, hs⟩ := Option.isSome_iff_exists.mp hsome
    rw [handleState, hs]
    rfl
  exact ⟨(getOrCreate_unique hrun).1 handleArgs (by decide), by decide, by decide⟩

-- a func that asks for its own arguments makes a second instance, and both are in use
example : (start.run (fun _ => true) (fun _ => true)
    [.call () handleArgs, .acquire (), .lookUp (), .call () handleArgs, .acquire (), .lookUp (), .finish () .new, .store (),
      .leave (), .finish () .new, .store (), .leave ()]).any (fun s =>
        s.results.map (fun r => (r.1.key, r.2)) = [(handleArgs.key, 1), (handleArgs.key, 0)] ∧
          s.alive 0 = true ∧ s.alive 1 = true) = true := by decide

end B70DualTP.Communicator.Cache
