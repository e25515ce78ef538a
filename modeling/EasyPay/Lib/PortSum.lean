import EasyPay.Lib.Prog

/-!
# Programs over two ports

A program over one port is one over that port and another (`Prog.inl`): it makes the same calls.
-/

namespace Ports

/-- The calls of both ports. -/
@[reducible] def Port.sum (P Q : Port) : Port where
  Op := P.Op ⊕ Q.Op
  Ans
    | .inl o => P.Ans o
    | .inr o => Q.Ans o

namespace Prog

variable {P Q : Port} {α β : Type}

def inl : Prog P α → Prog (P.sum Q) α
  | ret a => ret a
  | call o k => call (P := P.sum Q) (.inl o) fun a => inl (k a)

/-- A call of the first port and its answer. -/
def Step.inl (x : Step P) : Step (P.sum Q) := ⟨.inl x.1, x.2⟩

theorem runs_inl {p : Prog P α} {t : List (Step (P.sum Q))} {q : Prog (P.sum Q) α}
    (h : Runs (inl p) t q) : ∃ t' q', t = t'.map Step.inl ∧ q = inl q' ∧ Runs p t' q' := by
  induction p generalizing t with
  | ret a =>
    obtain ⟨rfl, rfl⟩ := runs_ret.mp h
    exact ⟨[], ret a, rfl, rfl, .nil _⟩
  | call o k ih =>
    rcases runs_call.mp h with ⟨rfl, rfl⟩ | ⟨a, t', rfl, h'⟩
    · exact ⟨[], call o k, rfl, rfl, .nil _⟩
    · obtain ⟨t'', q', rfl, rfl, hr⟩ := ih a h'
      exact ⟨⟨o, a⟩ :: t'', q', rfl, rfl, .cons o k a hr⟩

/-- What a program over the first port meets, from what it does there. -/
theorem meets_inl {I : List (Step (P.sum Q)) → (P.sum Q).Op → Prop}
    {R : List (Step (P.sum Q)) → α → Prop} {p : Prog P α} {t : List (Step (P.sum Q))}
    (hcall : ∀ t' o k, Runs p t' (call o k) → I (t ++ t'.map Step.inl) (.inl o))
    (hret : ∀ t' a, Runs p t' (ret a) → R (t ++ t'.map Step.inl) a) : Meets I R (inl p) t := by
  induction p generalizing t with
  | ret a =>
    have := hret [] a (.nil _)
    rwa [List.map_nil, List.append_nil] at this
  | call o k ih =>
    refine ⟨?_, fun a => ih a (fun t' o' k' hr => ?_) fun t' b hr => ?_⟩
    · have := hcall [] o k (.nil _)
      rwa [List.map_nil, List.append_nil] at this
    · have := hcall (⟨o, a⟩ :: t') o' k' (.cons o k a hr)
      rwa [List.append_assoc]
    · have := hret (⟨o, a⟩ :: t') b (.cons o k a hr)
      rwa [List.append_assoc]

end Prog

end Ports
