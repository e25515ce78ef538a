import EasyPay.Lib.Prog

/-!
# Programs whose calls are programs

A component is written against an interface, and the interface is implemented by another component.
`Prog.interp f p` is the program `p` with the program `f o` in the place of each call `o`.

`runs_interp`: whatever such a program has done, `p` has made some calls and `f` has carried them out
one after the other, and perhaps a part of the next.
-/

namespace Ports

namespace Prog

variable {P Q : Port} {α : Type}

def interp (f : (o : P.Op) → Prog Q (P.Ans o)) : Prog P α → Prog Q α
  | ret a => ret a
  | call o k => f o >>= fun a => interp f (k a)

/-- The calls of `t`, carried out one after the other. -/
inductive Carried (f : (o : P.Op) → Prog Q (P.Ans o)) : List (Step P) → List (Step Q) → Prop
  | nil : Carried f [] []
  | cons {o : P.Op} {a : P.Ans o} {t : List (Step P)} {u T : List (Step Q)} :
      Runs (f o) u (ret a) → Carried f t T → Carried f (⟨o, a⟩ :: t) (u ++ T)

variable {f : (o : P.Op) → Prog Q (P.Ans o)}

/-- **Where an interpreted program can be.** -/
theorem runs_interp {p : Prog P α} {T : List (Step Q)} {q : Prog Q α} (h : Runs (interp f p) T q) :
    (∃ t a, Carried f t T ∧ Runs p t (ret a) ∧ q = ret a) ∨
      ∃ t T₁ u o k o' k', T = T₁ ++ u ∧ Carried f t T₁ ∧ Runs p t (call o k) ∧
        Runs (f o) u (call o' k') ∧ q = call o' k' >>= fun a => interp f (k a) := by
  induction p generalizing T with
  | ret a =>
    obtain ⟨rfl, rfl⟩ := runs_ret.mp h
    exact .inl ⟨[], a, .nil, .nil _, rfl⟩
  | call o k ih =>
    rcases runs_bind h with ⟨o', k', hr, rfl⟩ | ⟨u, a, T', rfl, hr, hrest⟩
    · exact .inr ⟨[], [], T, o, k, o', k', rfl, .nil, .nil _, hr, rfl⟩
    · rcases ih a hrest with ⟨t, b, hc, hp, rfl⟩ | ⟨t, T₁, v, o₁, k₁, o', k', rfl, hc, hp, hf, rfl⟩
      · exact .inl ⟨⟨o, a⟩ :: t, b, .cons hr hc, .cons o k a hp, rfl⟩
      · exact .inr ⟨⟨o, a⟩ :: t, u ++ T₁, v, o₁, k₁, o', k', (List.append_assoc _ _ _).symm,
          .cons hr hc, .cons o k a hp, hf, rfl⟩

/-- A call was carried out among the others. -/
theorem Carried.exists_runs {t : List (Step P)} {T : List (Step Q)} (h : Carried f t T) {x : Step P}
    (hx : x ∈ t) : ∃ u, Runs (f x.1) u (ret x.2) ∧ u ⊆ T := by
  induction h with
  | nil => cases hx
  | @cons o a t u T hr _ ih =>
    rcases List.mem_cons.mp hx with rfl | hx
    · exact ⟨u, hr, List.subset_append_left _ _⟩
    · obtain ⟨v, hv, hsub⟩ := ih hx
      exact ⟨v, hv, fun y hy => List.mem_append_right _ (hsub hy)⟩

/-- Two folds agree if they agree on every call. -/
theorem Carried.foldl_eq {γ : Type} {g : γ → Step P → γ} {G : γ → Step Q → γ} {t : List (Step P)}
    {T : List (Step Q)} (h : Carried f t T)
    (hstep : ∀ c o a u, Runs (f o) u (ret a) → u.foldl G c = g c ⟨o, a⟩) (c : γ) :
    T.foldl G c = t.foldl g c := by
  induction h generalizing c with
  | nil => rfl
  | cons hr _ ih => rw [List.foldl_append, List.foldl_cons, hstep _ _ _ _ hr, ih]

end Prog

end Ports
