import EasyPay.Lib.Prog
import Mathlib.Data.List.Forall2

/-!
# Programs that follow one another

Two programs, over the same port or over two, *correspond* (`Prog.Sim`) if they make
corresponding calls and, given corresponding answers, go on to do so.  A `Corr` says which
calls and which answers correspond; what an answer is known to say is part of that.

Systems of corresponding programs over two worlds then run side by side
(`Sys.run_follows`): if every call can be answered correspondingly in the second world,
with a choice made for it there, every run of the first system has its counterpart in the
second, under the same schedule.
-/

namespace Ports

/-- Which calls of two ports correspond, and which of their answers. -/
structure Corr (P Q : Port) where
  call : P.Op → Q.Op → Prop
  ans : (o : P.Op) → (o' : Q.Op) → P.Ans o → Q.Ans o' → Prop

namespace Prog

variable {P Q : Port} {α β α' β' : Type}

/-- The programs make corresponding calls and come to results related by `T`. -/
inductive Sim (K : Corr P Q) (T : α → β → Prop) : Prog P α → Prog Q β → Prop
  | ret {a : α} {b : β} : T a b → Sim K T (ret a) (ret b)
  | call {o : P.Op} {o' : Q.Op} {k : P.Ans o → Prog P α} {k' : Q.Ans o' → Prog Q β} :
      K.call o o' → (∀ a a', K.ans o o' a a' → Sim K T (k a) (k' a')) →
      Sim K T (call o k) (call o' k')

variable {K : Corr P Q} {T : α → β → Prop}

theorem sim_bind {S : α' → β' → Prop} {p : Prog P α} {q : Prog Q β} {f : α → Prog P α'}
    {g : β → Prog Q β'} (hp : Sim K T p q) (hf : ∀ a b, T a b → Sim K S (f a) (g b)) :
    Sim K S (p >>= f) (q >>= g) := by
  induction hp with
  | ret hab => exact hf _ _ hab
  | call ho _ ih => exact .call ho ih

theorem sim_perform {o : P.Op} {o' : Q.Op} {f : P.Ans o → Prog P α} {g : Q.Ans o' → Prog Q β}
    (ho : K.call o o') (hf : ∀ a a', K.ans o o' a a' → Sim K T (f a) (g a')) :
    Sim K T (perform o >>= f) (perform o' >>= g) := .call ho hf

/-- A program whose calls all correspond to themselves, and are answered alike. -/
theorem sim_self {K : Corr P P} {p : Prog P α}
    (h : ∀ t o k, Runs p t (call o k) → K.call o o ∧ ∀ a a', K.ans o o a a' → a = a') :
    Sim K Eq p p := by
  induction p with
  | ret a => exact .ret rfl
  | call o k ih =>
    obtain ⟨ho, hans⟩ := h [] o k (.nil _)
    refine .call ho fun a a' haa' => ?_
    obtain rfl := hans a a' haa'
    exact ih a fun t o' k' hr => h (⟨o, a⟩ :: t) o' k' (.cons o k a hr)

/-- Two loops over lists whose entries are related one by one. -/
theorem sim_loop {γ δ : Type} {f : γ → Prog P Unit} {g : δ → Prog Q Unit}
    {loop : List γ → Prog P Unit} {loop' : List δ → Prog Q Unit}
    (hnil : loop [] = ret ()) (hnil' : loop' [] = ret ())
    (hcons : ∀ b bs, loop (b :: bs) = f b >>= fun _ => loop bs)
    (hcons' : ∀ b bs, loop' (b :: bs) = g b >>= fun _ => loop' bs) {R : γ → δ → Prop}
    (hstep : ∀ b b', R b b' → Sim K (fun _ _ => True) (f b) (g b')) {bs : List γ} {bs' : List δ}
    (h : List.Forall₂ R bs bs') : Sim K (fun _ _ => True) (loop bs) (loop' bs') := by
  induction h with
  | nil =>
    rw [hnil, hnil']
    exact .ret trivial
  | cons hb _ ih =>
    rw [hcons, hcons']
    exact sim_bind (hstep _ _ hb) fun _ _ _ => ih

/-- A program that has returned corresponds to one that has. -/
theorem Sim.result {p : Prog P α} {q : Prog Q β} (h : Sim K T p q) :
    (∃ a b, p.result? = some a ∧ q.result? = some b ∧ T a b) ∨
      (p.result? = none ∧ q.result? = none) := by
  cases h with
  | ret hab => exact .inl ⟨_, _, rfl, rfl, hab⟩
  | call _ _ => exact .inr ⟨rfl, rfl⟩

end Prog

open Prog

namespace Sys

variable {P Q : Port} {W V C E α β : Type}

/-- The second system does what the first one does. -/
structure Follows (K : Corr P Q) (T : α → β → Prop) (I : W → V → Prop) (s : Sys P W C α)
    (s' : Sys Q V E β) : Prop where
  world : I s.world s'.world
  procs : List.Forall₂ (Sim K T) s.procs s'.procs
  hist : List.Forall₂ (fun e e' => e.pid = e'.pid ∧ K.ans e.op e'.op e.ans e'.ans) s.hist s'.hist

section
variable {K : Corr P Q} {T : α → β → Prop} {I : W → V → Prop}
  {exec : (o : P.Op) → C → W → P.Ans o × W} {exec' : (o : Q.Op) → E → V → Q.Ans o × V}

theorem step_of_ne_call {s : Sys P W C α} {i : Nat} (h : ∀ o k, s.procs[i]? ≠ some (.call o k))
    (c : C) : s.step exec (i, c) = s := by
  rcases step_cases exec s (i, c) with hs | ⟨o, k, hk, -⟩
  · exact hs
  · exact absurd hk (h o k)

theorem forall₂_set {γ δ : Type} {R : γ → δ → Prop} {l : List γ} {l' : List δ}
    (h : List.Forall₂ R l l') {a : γ} {b : δ} (hab : R a b) (i : Nat) :
    List.Forall₂ R (l.set i a) (l'.set i b) := by
  induction h generalizing i with
  | nil => exact .nil
  | cons hx hl ih =>
    cases i with
    | zero => exact .cons hab hl
    | succ i => exact .cons hx (ih i)

/-- **One step.** -/
theorem step_follows [Nonempty E]
    (hexec : ∀ o o' c w v, I w v → K.call o o' → ∃ c',
      K.ans o o' (exec o c w).1 (exec' o' c' v).1 ∧ I (exec o c w).2 (exec' o' c' v).2)
    {s : Sys P W C α} {s' : Sys Q V E β} (h : Follows K T I s s') (i : Nat) (c : C) :
    ∃ c', Follows K T I (s.step exec (i, c)) (s'.step exec' (i, c')) := by
  have hlen := h.procs.length_eq
  by_cases hi : i < s.procs.length
  · have hi' : i < s'.procs.length := hlen ▸ hi
    have hp : s.procs[i]? = some s.procs[i] := List.getElem?_eq_getElem hi
    have hq : s'.procs[i]? = some s'.procs[i] := List.getElem?_eq_getElem hi'
    have hsim : Sim K T s.procs[i] s'.procs[i] := h.procs.get hi hi'
    generalize s.procs[i] = p at hp hsim
    generalize s'.procs[i] = q at hq hsim
    cases hsim with
    | ret hab =>
      obtain ⟨c'⟩ := ‹Nonempty E›
      refine ⟨c', ?_⟩
      rw [step_of_ne_call (fun o k hk => by cases hp.symm.trans hk),
        step_of_ne_call (fun o k hk => by cases hq.symm.trans hk)]
      exact h
    | @call o o' k k' ho hk =>
      obtain ⟨c', hans, hworld⟩ := hexec o o' c s.world s'.world h.world ho
      refine ⟨c', ?_⟩
      rw [step_of_call exec hp c, step_of_call exec' hq c']
      refine ⟨hworld, ?_, ?_⟩
      · exact forall₂_set h.procs (hk _ _ hans) i
      · exact List.rel_append h.hist (.cons ⟨rfl, hans⟩ .nil)
  · -- no such program on either side
    obtain ⟨c'⟩ := ‹Nonempty E›
    refine ⟨c', ?_⟩
    have hnone : s.procs[i]? = none := List.getElem?_eq_none (by omega)
    have hnone' : s'.procs[i]? = none := List.getElem?_eq_none (by omega)
    rw [step_of_ne_call (fun o k hk => by cases hnone.symm.trans hk),
      step_of_ne_call (fun o k hk => by cases hnone'.symm.trans hk)]
    exact h

/-- **Whole runs**, under the same schedule. -/
theorem run_follows [Nonempty E]
    (hexec : ∀ o o' c w v, I w v → K.call o o' → ∃ c',
      K.ans o o' (exec o c w).1 (exec' o' c' v).1 ∧ I (exec o c w).2 (exec' o' c' v).2)
    {s : Sys P W C α} {s' : Sys Q V E β} (h : Follows K T I s s') (xs : List (Nat × C)) :
    ∃ xs' : List (Nat × E), xs'.map Prod.fst = xs.map Prod.fst ∧
      Follows K T I (s.run exec xs) (s'.run exec' xs') := by
  induction xs using List.reverseRecOn with
  | nil => exact ⟨[], rfl, h⟩
  | append_singleton xs x ih =>
    obtain ⟨xs', hfst, hrun⟩ := ih
    obtain ⟨c', hstep⟩ := step_follows hexec hrun x.1 x.2
    refine ⟨xs' ++ [(x.1, c')], by simp [hfst], ?_⟩
    rw [run_concat, run_concat]
    exact hstep

end

end Sys

end Ports
