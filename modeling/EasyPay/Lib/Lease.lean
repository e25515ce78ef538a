import Mathlib.Logic.Function.Basic

/-!
# Leases

A store of keys, each free or held under a token.  A key is taken if it is free, given back by the
token that holds it, and may expire at any moment.

* `run_of_held`: a holder keeps its key until it gives it back or the key expires.
* `step_release_of_ne`, `of_release_ne`: giving back changes nothing but the key of that token.
-/

namespace Leases

inductive Event (K T : Type)
  | acquire (key : K) (token : T)
  | release (key : K) (token : T)
  | expire (key : K)
  deriving DecidableEq, Repr

def Event.isExpire {K T : Type} : Event K T → Bool
  | expire _ => true
  | _ => false

section
variable {K T : Type} [DecidableEq K] [DecidableEq T]

def step (s : K → Option T) : Event K T → K → Option T
  | .acquire key token => if s key = none then Function.update s key (some token) else s
  | .release key token => if s key = some token then Function.update s key none else s
  | .expire key => Function.update s key none

def run (s : K → Option T) (es : List (Event K T)) : K → Option T := es.foldl step s

/-- The events that end a lease. -/
def Ends (key : K) (token : T) (e : Event K T) : Prop :=
  e = .release key token ∨ e = .expire key

theorem run_append (s : K → Option T) (es es' : List (Event K T)) :
    run s (es ++ es') = run (run s es) es' := List.foldl_append

/-- An event that may not happen. -/
theorem run_ite (s : K → Option T) (b : Bool) (e : Event K T) :
    run s (if b then [e] else []) = if b then step s e else s := by
  cases b with
  | false => rfl
  | true => rfl

variable {s : K → Option T} {key : K} {token : T}

theorem step_acquire (s : K → Option T) (key : K) (token : T) :
    step s (.acquire key token) =
      if s key = none then Function.update s key (some token) else s := rfl

theorem step_release (s : K → Option T) (key : K) (token : T) :
    step s (.release key token) =
      if s key = some token then Function.update s key none else s := rfl

theorem step_acquire_free (h : s key = none) (token : T) :
    step s (.acquire key token) key = some token := by
  rw [step_acquire, if_pos h, Function.update_self]

/-- A key that is held is left alone. -/
theorem step_of_held (h : s key = some token) {e : Event K T} (he : ¬ Ends key token e) :
    step s e key = some token := by
  cases e with
  | acquire key' token' =>
    rw [step_acquire]
    split
    · next hfree =>
      have hne : key ≠ key' := by
        rintro rfl
        cases h.symm.trans hfree
      rw [Function.update_of_ne hne, h]
    · exact h
  | release key' token' =>
    rw [step_release]
    split
    · next hheld =>
      have hne : key ≠ key' := by
        rintro rfl
        cases h.symm.trans hheld
        exact he (.inl rfl)
      rw [Function.update_of_ne hne, h]
    · exact h
  | expire key' =>
    have hne : key ≠ key' := by
      rintro rfl
      exact he (.inr rfl)
    show Function.update s key' none key = _
    rw [Function.update_of_ne hne, h]

/-- **A lease is kept** until one of the events that end it. -/
theorem run_of_held (h : s key = some token) {es : List (Event K T)}
    (hes : ∀ e ∈ es, ¬ Ends key token e) : run s es key = some token := by
  induction es generalizing s with
  | nil => exact h
  | cons e es ih =>
    have hstep := step_of_held h (hes e List.mem_cons_self)
    exact ih hstep fun e' he' => hes e' (List.mem_cons_of_mem _ he')

/-- Giving back with another token changes nothing. -/
theorem step_release_of_ne (h : s key ≠ some token) : step s (.release key token) = s := if_neg h

/-- What giving back changes is the key, and only for the token that holds it. -/
theorem of_release_ne {key' : K} (h : step s (.release key token) key' ≠ s key') :
    key' = key ∧ s key = some token := by
  by_cases hheld : s key = some token
  · refine ⟨?_, hheld⟩
    by_contra hne
    apply h
    rw [step_release, if_pos hheld, Function.update_of_ne hne]
  · rw [step_release_of_ne hheld] at h
    exact absurd rfl h

theorem run_expire_cons (s : K → Option T) (key : K) (keys : List K) :
    run s ((key :: keys).map .expire) = run (Function.update s key none) (keys.map .expire) := rfl

/-- The keys that do not expire are as they were... -/
theorem run_expire_of_notMem {s : K → Option T} {keys : List K} {key : K} (h : key ∉ keys) :
    run s (keys.map .expire) key = s key := by
  induction keys generalizing s with
  | nil => rfl
  | cons key' keys ih =>
    have hne : key ≠ key' := List.ne_of_not_mem_cons h
    have hrest : key ∉ keys := List.not_mem_of_not_mem_cons h
    rw [run_expire_cons, ih hrest, Function.update_of_ne hne]

/-- ... and those that do are free. -/
theorem run_expire_of_mem {s : K → Option T} {keys : List K} {key : K} (h : key ∈ keys) :
    run s (keys.map .expire) key = none := by
  induction keys generalizing s with
  | nil => cases h
  | cons key' keys ih =>
    rw [run_expire_cons]
    by_cases hmem : key ∈ keys
    · exact ih hmem
    · rcases List.mem_cons.mp h with rfl | h
      · rw [run_expire_of_notMem hmem, Function.update_self]
      · exact absurd h hmem

end

end Leases
