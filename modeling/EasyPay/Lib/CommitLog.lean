import Mathlib.Data.Set.Basic
import Mathlib.Logic.Function.Basic
import Mathlib.Logic.Relation

/-!
# Logs with committed offsets

The messages of a partition are numbered.  Readers go through a partition from some offset on, hold
what they have read until they are done with it, and commit offsets; a reader may be sent back, or
ahead, to the committed offsets at any time.  What the messages are, how many there are so far, and
which of them are done is up to those who use the log.

`Steps.inv`: if readers let go of a message only when it is done, and commit no further than what they
hold, then all messages below a committed offset are done.
-/

namespace CommitLog

variable {K R : Type}

structure State (K R : Type) where
  committed : K → Nat
  position : R → K → Nat
  held : R → List (K × Nat)
  done : Set (K × Nat)

/-- What happens to a log. -/
inductive Step [DecidableEq R] [DecidableEq K] : State K R → State K R → Prop
  | assign (s : State K R) (r : R) :
      Step s { s with position := Function.update s.position r s.committed }
  | fetch (s : State K R) (r : R) (k : K) :
      Step s { s with
        position := Function.update s.position r
          (Function.update (s.position r) k (s.position r k + 1))
        held := Function.update s.held r (s.held r ++ [(k, s.position r k)]) }
  | settle (s : State K R) {done : Set (K × Nat)} : s.done ⊆ done → Step s { s with done := done }
  | release (s : State K R) (r : R) : (∀ x ∈ s.held r, x ∈ s.done) →
      Step s { s with held := Function.update s.held r [] }
  | commit (s : State K R) (r : R) {committed : K → Nat} :
      (∀ x ∈ s.held r, x ∈ s.done) →
      (∀ k, committed k = s.committed k ∨ ∃ n, (k, n) ∈ s.held r ∧ committed k = n + 1) →
      Step s { s with committed := committed }

/-- Nothing is behind a reader, or below a committed offset, that is neither done nor held. -/
structure Inv (s : State K R) : Prop where
  committed : ∀ k n, n < s.committed k → (k, n) ∈ s.done
  position : ∀ r k n, n < s.position r k → (k, n) ∈ s.done ∨ (k, n) ∈ s.held r
  held : ∀ r k n, (k, n) ∈ s.held r → ∀ n' < n, (k, n') ∈ s.done ∨ (k, n') ∈ s.held r

/-- At the start. -/
theorem Inv.start {s : State K R} (hcommitted : ∀ k, s.committed k = 0)
    (hposition : ∀ r k, s.position r k = 0) (hheld : ∀ r, s.held r = []) : Inv s := by
  refine ⟨fun k n h => ?_, fun r k n h => ?_, fun r k n h => ?_⟩
  · rw [hcommitted] at h
    omega
  · rw [hposition] at h
    omega
  · rw [hheld] at h
    cases h

section
variable [DecidableEq R]

/-- What is known of the readers stays known when one of them holds more, or other messages. -/
theorem Inv.setHeld {s : State K R} (h : Inv s) (r : R) {held : List (K × Nat)}
    (hkept : ∀ x ∈ s.held r, x ∈ s.done ∨ x ∈ held)
    (hbelow : ∀ k n, (k, n) ∈ held → ∀ n' < n, (k, n') ∈ s.done ∨ (k, n') ∈ held) :
    Inv { s with held := Function.update s.held r held } := by
  refine ⟨h.committed, fun r' k n hn => ?_, fun r' k n hn n' hlt => ?_⟩
  · show _ ∨ _ ∈ Function.update s.held r held r'
    by_cases hr : r' = r
    · subst hr
      rw [Function.update_self]
      exact (h.position r' k n hn).elim .inl (hkept _)
    · rw [Function.update_of_ne hr]
      exact h.position r' k n hn
  · have hn : (k, n) ∈ Function.update s.held r held r' := hn
    show _ ∨ _ ∈ Function.update s.held r held r'
    by_cases hr : r' = r
    · subst hr
      rw [Function.update_self] at hn ⊢
      exact hbelow k n hn n' hlt
    · rw [Function.update_of_ne hr] at hn ⊢
      exact h.held r' k n hn n' hlt

/-- A reader that is moved must have everything behind it. -/
theorem Inv.setPosition {s : State K R} (h : Inv s) (r : R) {position : K → Nat}
    (hbehind : ∀ k n, n < position k → (k, n) ∈ s.done ∨ (k, n) ∈ s.held r) :
    Inv { s with position := Function.update s.position r position } := by
  refine ⟨h.committed, fun r' k n hn => ?_, h.held⟩
  have hn : n < Function.update s.position r position r' k := hn
  by_cases hr : r' = r
  · subst hr
    rw [Function.update_self] at hn
    exact hbehind k n hn
  · rw [Function.update_of_ne hr] at hn
    exact h.position r' k n hn

end

variable [DecidableEq R] [DecidableEq K]

/-- **One step.** -/
theorem Step.inv {s s' : State K R} (hstep : Step s s') (h : Inv s) : Inv s' := by
  cases hstep with
  | assign r => exact h.setPosition r fun k n hn => .inl (h.committed k n hn)
  | fetch r k =>
    have hheld : Inv { s with held := Function.update s.held r (s.held r ++ [(k, s.position r k)]) } := by
      refine h.setHeld r (fun x hx => .inr (List.mem_append_left _ hx)) fun k' n hn n' hlt => ?_
      rcases List.mem_append.mp hn with hn | hn
      · exact (h.held r k' n hn n' hlt).imp_right (List.mem_append_left _)
      · cases List.mem_singleton.mp hn
        exact (h.position r k n' hlt).imp_right (List.mem_append_left _)
    refine hheld.setPosition r fun k' n hn => ?_
    show _ ∨ _ ∈ Function.update s.held r _ r
    rw [Function.update_self]
    by_cases hk : k' = k
    · subst hk
      rw [Function.update_self] at hn
      rcases Nat.lt_succ_iff_lt_or_eq.mp hn with hn | rfl
      · exact (h.position r k' n hn).imp_right (List.mem_append_left _)
      · exact .inr (List.mem_append_right _ List.mem_cons_self)
    · rw [Function.update_of_ne hk] at hn
      exact (h.position r k' n hn).imp_right (List.mem_append_left _)
  | settle hsub =>
    exact ⟨fun k n hn => hsub (h.committed k n hn),
      fun r k n hn => (h.position r k n hn).imp_left (hsub ·),
      fun r k n hn n' hlt => (h.held r k n hn n' hlt).imp_left (hsub ·)⟩
  | release r hdone =>
    exact h.setHeld r (fun x hx => .inl (hdone x hx)) fun k n hn => by cases hn
  | commit r hdone hcommit =>
    refine ⟨fun k n hn => ?_, h.position, h.held⟩
    rcases hcommit k with heq | ⟨n₀, hn₀, heq⟩
    · exact h.committed k n (heq ▸ hn)
    · have hn : n < n₀ + 1 := heq ▸ hn
      have hle : n ≤ n₀ := Nat.lt_succ_iff.mp hn
      rcases Nat.lt_or_eq_of_le hle with hlt | rfl
      · exact (h.held r k n₀ hn₀ n hlt).elim id (hdone _)
      · exact hdone _ hn₀

abbrev Steps : State K R → State K R → Prop := Relation.ReflTransGen Step

/-- **Whole runs.** -/
theorem Steps.inv {s s' : State K R} (hsteps : Steps s s') (h : Inv s) : Inv s' := by
  induction hsteps with
  | refl => exact h
  | tail _ hstep ih => exact hstep.inv ih

end CommitLog
