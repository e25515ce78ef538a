import Mathlib.Data.List.Induction

/-!
# Programs over ports, and their interleavings

A *port* is a set of calls with an answer type each.  A `Prog` is a finite
program over a port: it makes a call, waits for the answer, and goes on.
Several programs over one shared world are a `Sys`; a schedule says which
program makes its next call, and with which outcome of the environment's
choosing.  A call is atomic, everything between two calls is not.

What the proofs use of it:

* `Runs p t q`: answered `t`, the program `p` has become `q`.  So what a
  program can call next is a fact about its own calls alone.
* `runs_loop`: where a loop over a list can be.
* `Meets`: a small logic to say, for a whole program, which calls it makes and what it
  returns, with a rule for each way a program is built (`meets_bind`, `meets_perform`).
* `play`: a whole program, answered by an environment that knows the calls made so far.
* `Sys.run_runs`: in every state of every run, each program has become what
  its own part of the history makes of it.
* `Sys.run_induction`: an invariant has to be kept by a call only, and the
  calling program is at a place its own calls lead to.
-/

namespace Ports

/-- The calls a program can make, and what each of them answers. -/
structure Port where
  Op : Type
  Ans : Op → Type

/-- A program: a result, or a call and what to do with its answer. -/
inductive Prog (P : Port) (α : Type) : Type
  | ret (a : α)
  | call (o : P.Op) (k : P.Ans o → Prog P α)

namespace Prog

variable {P : Port} {α β : Type}

def bind : Prog P α → (α → Prog P β) → Prog P β
  | ret a, f => f a
  | call o k, f => call o fun a => bind (k a) f

instance : Monad (Prog P) where
  pure := ret
  bind := bind

/-- Make one call and return its answer. -/
def perform (o : P.Op) : Prog P (P.Ans o) := call o ret

@[simp] theorem call_bind (o : P.Op) (k : P.Ans o → Prog P α) (f : α → Prog P β) :
    (call o k >>= f) = call o fun a => k a >>= f := rfl

/-- What a program has returned. -/
def result? : Prog P α → Option α
  | ret a => some a
  | call _ _ => none

/-- A program of a list has returned, if its result can be read off. -/
theorem getElem?_of_result? {ps : List (Prog P α)} {i : Nat} {a : α}
    (h : ps[i]?.bind result? = some a) : ps[i]? = some (ret a) := by
  obtain ⟨p, hp, hres⟩ := Option.bind_eq_some_iff.mp h
  cases p with
  | ret b =>
    cases hres
    exact hp
  | call o k => cases hres

/-- The call a program makes next. -/
def next? : Prog P α → Option P.Op
  | ret _ => none
  | call o _ => some o

/-- A program of a list is at a call, if that can be read off. -/
theorem getElem?_of_next? {ps : List (Prog P α)} {i : Nat} {o : P.Op}
    (h : ps[i]?.bind next? = some o) : ∃ k, ps[i]? = some (call o k) := by
  obtain ⟨p, hp, hnext⟩ := Option.bind_eq_some_iff.mp h
  cases p with
  | ret b => cases hnext
  | call o' k =>
    cases hnext
    exact ⟨k, hp⟩

/-- A call together with its answer. -/
abbrev Step (P : Port) : Type := Σ o : P.Op, P.Ans o

/-- `Runs p t q`: the calls of `p` were answered as in `t`, and `q` is left to do. -/
inductive Runs : Prog P α → List (Step P) → Prog P α → Prop
  | nil (p : Prog P α) : Runs p [] p
  | cons (o : P.Op) (k : P.Ans o → Prog P α) (a : P.Ans o) {t : List (Step P)} {q : Prog P α} :
      Runs (k a) t q → Runs (call o k) (⟨o, a⟩ :: t) q

theorem runs_ret {a : α} {t : List (Step P)} {q : Prog P α} :
    Runs (ret a) t q ↔ t = [] ∧ q = ret a := by
  constructor
  · intro h
    cases h
    exact ⟨rfl, rfl⟩
  · rintro ⟨rfl, rfl⟩
    exact .nil _

/-- A program about to make a call has done nothing yet, or got an answer to it. -/
theorem runs_call {o : P.Op} {k : P.Ans o → Prog P α} {t : List (Step P)} {q : Prog P α} :
    Runs (call o k) t q ↔
      (t = [] ∧ q = call o k) ∨ ∃ a t', t = ⟨o, a⟩ :: t' ∧ Runs (k a) t' q := by
  constructor
  · intro h
    cases h with
    | nil => exact .inl ⟨rfl, rfl⟩
    | cons o k a h => exact .inr ⟨a, _, rfl, h⟩
  · rintro (⟨rfl, rfl⟩ | ⟨a, t', rfl, h⟩)
    · exact .nil _
    · exact .cons o k a h

theorem Runs.snoc {p : Prog P α} {t : List (Step P)} {o : P.Op} {k : P.Ans o → Prog P α}
    (h : Runs p t (call o k)) (a : P.Ans o) : Runs p (t ++ [⟨o, a⟩]) (k a) := by
  generalize hq : call o k = q at h
  induction h with
  | nil p =>
    subst hq
    exact .cons o k a (.nil _)
  | cons o' k' a' _ ih => exact .cons o' k' a' (ih hq)

/-- A sequence of two programs is still in the first, or has finished it. -/
theorem runs_bind {p : Prog P α} {f : α → Prog P β} {t : List (Step P)} {q : Prog P β}
    (h : Runs (p >>= f) t q) :
    (∃ o k, Runs p t (call o k) ∧ q = call o k >>= f) ∨
      ∃ t₁ a t₂, t = t₁ ++ t₂ ∧ Runs p t₁ (ret a) ∧ Runs (f a) t₂ q := by
  induction p generalizing t with
  | ret a => exact .inr ⟨[], a, t, rfl, .nil _, h⟩
  | call o k ih =>
    rw [call_bind] at h
    rcases runs_call.mp h with ⟨rfl, rfl⟩ | ⟨a, t', rfl, h'⟩
    · exact .inl ⟨o, k, .nil _, rfl⟩
    · rcases ih a h' with ⟨o', k', hr, rfl⟩ | ⟨t₁, b, t₂, rfl, hr, hf⟩
      · exact .inl ⟨o', k', .cons o k a hr, rfl⟩
      · exact .inr ⟨⟨o, a⟩ :: t₁, b, t₂, rfl, .cons o k a hr, hf⟩

theorem Runs.bind {p q : Prog P α} {t : List (Step P)} (h : Runs p t q) (f : α → Prog P β) :
    Runs (p >>= f) t (q >>= f) := by
  induction h with
  | nil p => exact .nil _
  | cons o k a _ ih => exact .cons o (fun a => k a >>= f) a ih

/-- Mapping the result changes no call... -/
theorem runs_map_call {p : Prog P α} {f : α → β} {t : List (Step P)} {o : P.Op}
    {k : P.Ans o → Prog P β} (h : Runs (p >>= fun a => ret (f a)) t (call o k)) :
    ∃ k', Runs p t (call o k') := by
  rcases runs_bind h with ⟨o', k', hr, hq⟩ | ⟨t₁, a, t₂, -, -, hr⟩
  · cases hq
    exact ⟨k', hr⟩
  · cases hr

/-- ... and the result as told. -/
theorem runs_map_ret {p : Prog P α} {f : α → β} {t : List (Step P)} {b : β}
    (h : Runs (p >>= fun a => ret (f a)) t (ret b)) : ∃ a, Runs p t (ret a) ∧ b = f a := by
  rcases runs_bind h with ⟨o', k', hr, hq⟩ | ⟨t₁, a, t₂, rfl, hp, hr⟩
  · cases hq
  · obtain ⟨rfl, hb⟩ := runs_ret.mp hr
    cases hb
    exact ⟨a, by simpa using hp, rfl⟩

/-- A program does what its answers make it do. -/
theorem Runs.unique {p : Prog P α} {t : List (Step P)} {q q' : Prog P α}
    (h : Runs p t q) (h' : Runs p t q') : q = q' := by
  induction h with
  | nil p => cases h'; rfl
  | cons o k a _ ih =>
    cases h' with
    | cons _ _ _ h' => exact ih h'

/-- Before a call of its history a program was about to make it. -/
theorem Runs.before {p q : Prog P α} {t t' : List (Step P)} {x : Step P}
    (h : Runs p (t ++ x :: t') q) : ∃ k, Runs p t (call x.1 k) := by
  induction t generalizing p with
  | nil =>
    cases h with
    | cons o k a h => exact ⟨k, .nil _⟩
  | cons y t ih =>
    cases h with
    | cons o k a h =>
      obtain ⟨k', hk'⟩ := ih h
      exact ⟨k', .cons o k a hk'⟩

/-- **What one call keeps, a run keeps.** -/
theorem Runs.induction {Q : List (Step P) → Prop} {p q : Prog P α} {t : List (Step P)}
    (h : Runs p t q) (h0 : Q [])
    (hstep : ∀ t o k a, Runs p t (call o k) → Q t → Q (t ++ [⟨o, a⟩])) : Q t := by
  induction t using List.reverseRecOn generalizing q with
  | nil => exact h0
  | append_singleton t x ih =>
    obtain ⟨k, hk⟩ := h.before
    exact hstep t x.1 k x.2 hk (ih hk)

/-! ### Loops -/

/-- The calls for one entry of a list after another, each of which `A` is about. -/
inductive Each {β : Type} (A : β → List (Step P) → Prop) : List β → List (Step P) → Prop
  | nil : Each A [] []
  | cons {b : β} {bs : List β} {t t' : List (Step P)} :
      A b t → Each A bs t' → Each A (b :: bs) (t ++ t')

/-- A call for a list is one for one of its entries. -/
theorem Each.exists_of_mem {β : Type} {A : β → List (Step P) → Prop} {bs : List β}
    {t : List (Step P)} (h : Each A bs t) {x : Step P} (hx : x ∈ t) :
    ∃ b ∈ bs, ∃ t', A b t' ∧ x ∈ t' ∧ t' ⊆ t := by
  induction h with
  | nil => cases hx
  | @cons b bs t t' hone _ ih =>
    rcases List.mem_append.mp hx with hx | hx
    · exact ⟨b, List.mem_cons_self, t, hone, hx, List.subset_append_left _ _⟩
    · obtain ⟨b', hb', u, hu, hxu, hsub⟩ := ih hx
      exact ⟨b', List.mem_cons_of_mem _ hb', u, hu, hxu,
        fun y hy => List.mem_append_right _ (hsub hy)⟩

/-- **A loop over a list** is at one of its entries, or through with all of them. -/
theorem runs_loop {β : Type} {f : β → Prog P Unit} {loop : List β → Prog P Unit}
    (hnil : loop [] = ret ()) (hcons : ∀ b bs, loop (b :: bs) = f b >>= fun _ => loop bs)
    {A : β → List (Step P) → Prop} (hA : ∀ b t, Runs (f b) t (ret ()) → A b t) {bs : List β}
    {t : List (Step P)} {q : Prog P Unit} (h : Runs (loop bs) t q) :
    (∃ bs₁ b bs₂ t₁ t₂ o k k', bs = bs₁ ++ b :: bs₂ ∧ t = t₁ ++ t₂ ∧ q = call o k ∧
      Each A bs₁ t₁ ∧ Runs (f b) t₂ (call o k')) ∨
    (q = ret () ∧ Each A bs t) := by
  induction bs generalizing t with
  | nil =>
    rw [hnil] at h
    obtain ⟨rfl, rfl⟩ := runs_ret.mp h
    exact .inr ⟨rfl, .nil⟩
  | cons b bs ih =>
    rw [hcons] at h
    rcases runs_bind h with ⟨o, k, hone, rfl⟩ | ⟨t₁, u, t₂, rfl, hone, hrest⟩
    · exact .inl ⟨[], b, bs, [], t, o, _, k, rfl, rfl, rfl, .nil, hone⟩
    · have hdone := hA b t₁ hone
      rcases ih hrest with ⟨bs₁, b', bs₂, t₃, t₄, o, k, k', rfl, rfl, rfl, hbs, hb'⟩ | ⟨rfl, hall⟩
      · exact .inl ⟨b :: bs₁, b', bs₂, t₁ ++ t₃, t₄, o, k, k', rfl, (List.append_assoc _ _ _).symm,
          rfl, .cons hdone hbs, hb'⟩
      · exact .inr ⟨rfl, .cons hdone hall⟩

/-! ### A logic of calls

`Meets I R p t`: with the calls `t` behind it, every call `p` goes on to make satisfies
`I`, and every result it can come to satisfies `R`, each judged by the calls made until
then. -/

def Meets (I : List (Step P) → P.Op → Prop) (R : List (Step P) → α → Prop) :
    Prog P α → List (Step P) → Prop
  | ret a, t => R t a
  | call o k, t => I t o ∧ ∀ a, Meets I R (k a) (t ++ [⟨o, a⟩])

section
variable {I : List (Step P) → P.Op → Prop} {R : List (Step P) → α → Prop}

theorem meets_bind {S : List (Step P) → β → Prop} {p : Prog P α} {f : α → Prog P β}
    {t : List (Step P)} (hp : Meets I R p t) (hf : ∀ t' a, R t' a → Meets I S (f a) t') :
    Meets I S (p >>= f) t := by
  induction p generalizing t with
  | ret a => exact hf t a hp
  | call o k ih => exact ⟨hp.1, fun a => ih a (hp.2 a)⟩

theorem meets_perform {o : P.Op} {S : List (Step P) → β → Prop} {f : P.Ans o → Prog P β}
    {t : List (Step P)} (ho : I t o) (hf : ∀ a, Meets I S (f a) (t ++ [⟨o, a⟩])) :
    Meets I S (perform o >>= f) t := ⟨ho, hf⟩

theorem Meets.imp {S : List (Step P) → α → Prop} {p : Prog P α} {t : List (Step P)}
    (hp : Meets I R p t) (hRS : ∀ t a, R t a → S t a) : Meets I S p t := by
  induction p generalizing t with
  | ret a => exact hRS t a hp
  | call o k ih => exact ⟨hp.1, fun a => ih a (hp.2 a)⟩

theorem Meets.weaken {I' : List (Step P) → P.Op → Prop} {p : Prog P α} {t : List (Step P)}
    (hp : Meets I R p t) (hI : ∀ t o, I t o → I' t o) : Meets I' R p t := by
  induction p generalizing t with
  | ret a => exact hp
  | call o k ih => exact ⟨hI t o hp.1, fun a => ih a (hp.2 a)⟩

theorem meets_true (p : Prog P α) (t : List (Step P)) :
    Meets (fun _ _ => True) (fun _ _ => True) p t := by
  induction p generalizing t with
  | ret a => trivial
  | call o k ih => exact ⟨trivial, fun a => ih a _⟩

/-- The calls behind a program stay behind it. -/
theorem Meets.extend {p : Prog P α} {t : List (Step P)} (hp : Meets I R p t) :
    Meets I (fun t' a => t <+: t' ∧ R t' a) p t := by
  induction p generalizing t with
  | ret a => exact ⟨List.prefix_rfl, hp⟩
  | call o k ih =>
    refine ⟨hp.1, fun a => (ih a (hp.2 a)).imp fun t' b hb => ⟨?_, hb.2⟩⟩
    exact (List.prefix_append t _).trans hb.1

/-- The calls of a program, if each has the property `A`. -/
theorem Meets.steps {A : P.Op → Prop} {p : Prog P α} {t : List (Step P)}
    (hp : Meets (fun _ o => A o) R p t) (ht : ∀ x ∈ t, A x.1) :
    Meets (fun _ o => A o) (fun t' a => (∀ x ∈ t', A x.1) ∧ R t' a) p t := by
  induction p generalizing t with
  | ret a => exact ⟨ht, hp⟩
  | call o k ih =>
    refine ⟨hp.1, fun a => ih a (hp.2 a) fun x hx => ?_⟩
    rcases List.mem_append.mp hx with hx | hx
    · exact ht x hx
    · rw [List.mem_singleton.mp hx]
      exact hp.1

/-- What a program meets holds of the calls it makes... -/
theorem Meets.call {p : Prog P α} {t₀ t : List (Step P)} {o : P.Op} {k : P.Ans o → Prog P α}
    (hp : Meets I R p t₀) (h : Runs p t (call o k)) : I (t₀ ++ t) o := by
  generalize hq : Prog.call o k = q at h
  induction h generalizing t₀ with
  | nil p =>
    subst hq
    rw [List.append_nil]
    exact hp.1
  | cons o' k' a _ ih =>
    have := ih (hp.2 a) hq
    rwa [List.append_assoc] at this

/-- ... and of its results. -/
theorem Meets.ret {p : Prog P α} {t₀ t : List (Step P)} {a : α}
    (hp : Meets I R p t₀) (h : Runs p t (ret a)) : R (t₀ ++ t) a := by
  generalize hq : Prog.ret a = q at h
  induction h generalizing t₀ with
  | nil p =>
    subst hq
    rw [List.append_nil]
    exact hp
  | cons o' k' a _ ih =>
    have := ih (hp.2 a) hq
    rwa [List.append_assoc] at this

/-- The calls of a program and its result, if `answer` answers each call by the calls before it. -/
def play (answer : List (Step P) → (o : P.Op) → P.Ans o) :
    Prog P α → List (Step P) → List (Step P) × α
  | ret a, t => (t, a)
  | call o k, t => play answer (k (answer t o)) (t ++ [⟨o, answer t o⟩])

theorem play_bind (answer : List (Step P) → (o : P.Op) → P.Ans o) (p : Prog P α)
    (f : α → Prog P β) (t : List (Step P)) :
    play answer (p >>= f) t = play answer (f (play answer p t).2) (play answer p t).1 := by
  induction p generalizing t with
  | ret a => rfl
  | call o k ih => exact ih (answer t o) _

/-- What a program meets holds however it is answered. -/
theorem Meets.play {p : Prog P α} {t : List (Step P)} (hp : Meets I R p t)
    (answer : List (Step P) → (o : P.Op) → P.Ans o) :
    R (play answer p t).1 (play answer p t).2 := by
  induction p generalizing t with
  | ret a => exact hp
  | call o k ih => exact ih (answer t o) (hp.2 (answer t o))

end

end Prog

open Prog

/-- One call of a run: who made it, what the environment chose, the call and its answer. -/
structure Event (P : Port) (C : Type) where
  pid : Nat
  choice : C
  op : P.Op
  ans : P.Ans op

/-- The call and the answer of an event. -/
def Event.step {P : Port} {C : Type} (e : Event P C) : Step P := ⟨e.op, e.ans⟩

/-- A shared world, the programs that work on it, and the calls made so far. -/
structure Sys (P : Port) (W C α : Type) where
  world : W
  procs : List (Prog P α)
  hist : List (Event P C)

/-- The calls of program `i`, in order. -/
def callsOf {P : Port} {C : Type} (i : Nat) (h : List (Event P C)) : List (Step P) :=
  (h.filter fun e => e.pid = i).map Event.step

namespace Sys

variable {P : Port} {W C α : Type}

def start (w : W) (ps : List (Prog P α)) : Sys P W C α := ⟨w, ps, []⟩

section
variable (exec : (o : P.Op) → C → W → P.Ans o × W)

/-- Program `i` makes its call `o` and goes on with `k`. -/
def after (s : Sys P W C α) (i : Nat) (c : C) (o : P.Op) (k : P.Ans o → Prog P α) :
    Sys P W C α :=
  { world := (exec o c s.world).2
    procs := s.procs.set i (k (exec o c s.world).1)
    hist := s.hist ++ [⟨i, c, o, (exec o c s.world).1⟩] }

/-- Scheduling a finished program, or none, changes nothing. -/
def step (s : Sys P W C α) (x : Nat × C) : Sys P W C α :=
  match s.procs[x.1]? with
  | some (call o k) => s.after exec x.1 x.2 o k
  | _ => s

def run (s : Sys P W C α) (xs : List (Nat × C)) : Sys P W C α := xs.foldl (step exec) s

theorem step_of_call {s : Sys P W C α} {i : Nat} {o : P.Op} {k : P.Ans o → Prog P α}
    (h : s.procs[i]? = some (call o k)) (c : C) : s.step exec (i, c) = s.after exec i c o k := by
  unfold step
  rw [h]

theorem run_append (s : Sys P W C α) (xs ys : List (Nat × C)) :
    s.run exec (xs ++ ys) = (s.run exec xs).run exec ys := List.foldl_append

theorem run_concat (s : Sys P W C α) (xs : List (Nat × C)) (x : Nat × C) :
    s.run exec (xs ++ [x]) = (s.run exec xs).step exec x := run_append exec s xs [x]

theorem step_cases (s : Sys P W C α) (x : Nat × C) :
    s.step exec x = s ∨
      ∃ o k, s.procs[x.1]? = some (call o k) ∧ s.step exec x = s.after exec x.1 x.2 o k := by
  unfold step
  split
  · next o k h => exact .inr ⟨o, k, h, rfl⟩
  · exact .inl rfl

end

end Sys

theorem callsOf_concat_self {P : Port} {C : Type} (h : List (Event P C)) (e : Event P C) :
    callsOf e.pid (h ++ [e]) = callsOf e.pid h ++ [e.step] := by
  simp [callsOf, List.filter_append]

theorem callsOf_concat_ne {P : Port} {C : Type} (h : List (Event P C)) (e : Event P C) {i : Nat}
    (hi : e.pid ≠ i) : callsOf i (h ++ [e]) = callsOf i h := by
  simp [callsOf, List.filter_append, hi]

theorem mem_callsOf {P : Port} {C : Type} {i : Nat} {h : List (Event P C)} {x : Step P} :
    x ∈ callsOf i h ↔ ∃ e ∈ h, e.pid = i ∧ e.step = x := by
  simp [callsOf, and_assoc]

/-- A call of a program is one of the history. -/
theorem exists_event {P : Port} {C : Type} {i : Nat} {h : List (Event P C)} {o : P.Op}
    {a : P.Ans o} (hmem : ⟨o, a⟩ ∈ callsOf i h) : ∃ c, ⟨i, c, o, a⟩ ∈ h := by
  obtain ⟨⟨pid, c, op, ans⟩, he, rfl, hstep⟩ := mem_callsOf.mp hmem
  cases hstep
  exact ⟨c, he⟩

/-- The calls of a program after one more call of the run. -/
theorem mem_callsOf_concat {P : Port} {C : Type} {i : Nat} {h : List (Event P C)} {e : Event P C}
    {x : Step P} : x ∈ callsOf i (h ++ [e]) ↔ x ∈ callsOf i h ∨ (e.pid = i ∧ e.step = x) := by
  by_cases hi : e.pid = i
  · subst hi
    rw [callsOf_concat_self]
    simp [eq_comm]
  · rw [callsOf_concat_ne h e hi]
    simp [hi]

namespace Sys

variable {P : Port} {W C α : Type} (exec : (o : P.Op) → C → W → P.Ans o × W)

/-- **Every program is where its own calls lead.** -/
theorem run_runs (w : W) (ps : List (Prog P α)) (xs : List (Nat × C)) {i : Nat} {p : Prog P α}
    (hp : ps[i]? = some p) :
    ∃ q, ((start w ps).run exec xs).procs[i]? = some q ∧
      Runs p (callsOf i ((start w ps).run exec xs).hist) q := by
  induction xs using List.reverseRecOn with
  | nil => exact ⟨p, hp, .nil p⟩
  | append_singleton xs x ih =>
    rw [run_concat]
    obtain ⟨q, hq, hr⟩ := ih
    rcases step_cases exec ((start w ps).run exec xs) x with h | ⟨o, k, hk, h⟩
    · rw [h]
      exact ⟨q, hq, hr⟩
    · rw [h]
      have hlt : x.1 < ((start w ps).run exec xs).procs.length :=
        (List.getElem?_eq_some_iff.mp hk).1
      by_cases hi : x.1 = i
      · subst hi
        rw [hk] at hq
        obtain rfl := Option.some.inj hq
        refine ⟨_, List.getElem?_set_self hlt, ?_⟩
        simp only [after]
        rw [callsOf_concat_self ((start w ps).run exec xs).hist ⟨x.1, x.2, o, _⟩]
        exact hr.snoc _
      · refine ⟨q, ?_, ?_⟩
        · simp only [after]
          rw [List.getElem?_set_ne hi, hq]
        · simp only [after]
          rw [callsOf_concat_ne ((start w ps).run exec xs).hist ⟨x.1, x.2, o, _⟩ hi]
          exact hr

/-- What has been called stays called. -/
theorem run_hist_prefix (s : Sys P W C α) (xs : List (Nat × C)) :
    s.hist <+: (s.run exec xs).hist := by
  induction xs using List.reverseRecOn with
  | nil => exact List.prefix_rfl
  | append_singleton xs x ih =>
    rw [run_concat]
    rcases step_cases exec (s.run exec xs) x with h | ⟨o, k, -, h⟩
    · rw [h]
      exact ih
    · rw [h]
      exact ih.trans (List.prefix_append _ _)

/-- The first call of a run. -/
theorem mem_callsOf_first {s : Sys P W C α} {i : Nat} {o : P.Op} {k : P.Ans o → Prog P α}
    (h : s.procs[i]? = some (call o k)) (c : C) (xs : List (Nat × C)) :
    ⟨o, (exec o c s.world).1⟩ ∈ callsOf i (s.run exec ((i, c) :: xs)).hist := by
  have hrun : s.run exec ((i, c) :: xs) = (s.after exec i c o k).run exec xs := by
    unfold run
    rw [List.foldl_cons, step_of_call exec h c]
  rw [hrun]
  have hfirst : ⟨i, c, o, (exec o c s.world).1⟩ ∈ (s.after exec i c o k).hist :=
    List.mem_append_right _ (List.mem_singleton.mpr rfl)
  have hpre := run_hist_prefix exec (s.after exec i c o k) xs
  exact mem_callsOf.mpr ⟨_, hpre.subset hfirst, rfl, rfl⟩

theorem run_procs_length (w : W) (ps : List (Prog P α)) (xs : List (Nat × C)) :
    ((start w ps).run exec xs).procs.length = ps.length := by
  induction xs using List.reverseRecOn with
  | nil => rfl
  | append_singleton xs x ih =>
    rw [run_concat]
    rcases step_cases exec ((start w ps).run exec xs) x with h | ⟨o, k, hk, h⟩
    · rw [h, ih]
    · rw [h]
      simp only [after]
      rw [List.length_set, ih]

/-- What has returned stays so. -/
theorem run_returned {s : Sys P W C α} {i : Nat} {a : α} (h : s.procs[i]? = some (ret a))
    (xs : List (Nat × C)) : (s.run exec xs).procs[i]? = some (ret a) := by
  induction xs using List.reverseRecOn with
  | nil => exact h
  | append_singleton xs x ih =>
    rw [run_concat]
    rcases step_cases exec (s.run exec xs) x with hs | ⟨o, k, hk, hs⟩
    · rw [hs, ih]
    · rw [hs]
      simp only [after]
      by_cases hi : x.1 = i
      · subst hi
        cases hk.symm.trans ih
      · rw [List.getElem?_set_ne hi, ih]

/-- A call since the state `s` was answered by the world at that time. -/
theorem happened_since (s : Sys P W C α) {xs : List (Nat × C)} {e : Event P C}
    (he : e ∈ (s.run exec xs).hist) :
    e ∈ s.hist ∨ ∃ ys zs, xs = ys ++ (e.pid, e.choice) :: zs ∧
      e.ans = (exec e.op e.choice (s.run exec ys).world).1 := by
  induction xs using List.reverseRecOn with
  | nil => exact .inl he
  | append_singleton xs x ih =>
    have hearlier : e ∈ (s.run exec xs).hist → e ∈ s.hist ∨ ∃ ys zs,
        xs ++ [x] = ys ++ (e.pid, e.choice) :: zs ∧
          e.ans = (exec e.op e.choice (s.run exec ys).world).1 := by
      intro he
      refine (ih he).imp_right ?_
      rintro ⟨ys, zs, rfl, hans⟩
      exact ⟨ys, zs ++ [x], by simp, hans⟩
    rw [run_concat] at he
    rcases step_cases exec (s.run exec xs) x with h | ⟨o, k, hk, h⟩
    · rw [h] at he
      exact hearlier he
    · rw [h] at he
      rcases List.mem_append.mp he with he | he
      · exact hearlier he
      · rw [List.mem_singleton.mp he]
        exact .inr ⟨xs, [], rfl, rfl⟩

/-- A program that has made no call before the state `s` has made them all since. -/
theorem answered_since {s : Sys P W C α} {xs : List (Nat × C)} {i : Nat} {o : P.Op} {a : P.Ans o}
    (hnone : callsOf i s.hist = []) (h : ⟨o, a⟩ ∈ callsOf i (s.run exec xs).hist) :
    ∃ c ys, (i, c) ∈ xs ∧ a = (exec o c (s.run exec ys).world).1 := by
  obtain ⟨c, he⟩ := exists_event h
  rcases happened_since exec s he with hbefore | ⟨ys, zs, rfl, hans⟩
  · have hmem : ⟨o, a⟩ ∈ callsOf i s.hist := mem_callsOf.mpr ⟨_, hbefore, rfl, rfl⟩
    rw [hnone] at hmem
    cases hmem
  · exact ⟨c, ys, List.mem_append_right _ List.mem_cons_self, hans⟩

/-- **Invariants of runs.**  An invariant holds at the start and is kept by every
call; the calling program is where its own calls lead. -/
theorem run_induction {Q : Sys P W C α → Prop} (w : W) (ps : List (Prog P α))
    (h0 : Q (start w ps))
    (hstep : ∀ (s : Sys P W C α) (i : Nat) (c : C) (o : P.Op) (k : P.Ans o → Prog P α)
      (p : Prog P α), Q s → ps[i]? = some p → s.procs[i]? = some (call o k) →
      Runs p (callsOf i s.hist) (call o k) → Q (s.after exec i c o k))
    (xs : List (Nat × C)) : Q ((start w ps).run exec xs) := by
  induction xs using List.reverseRecOn with
  | nil => exact h0
  | append_singleton xs x ih =>
    rw [run_concat]
    rcases step_cases exec ((start w ps).run exec xs) x with h | ⟨o, k, hk, h⟩
    · rw [h]
      exact ih
    · rw [h]
      have hlt := (List.getElem?_eq_some_iff.mp hk).1
      rw [run_procs_length] at hlt
      obtain ⟨q, hq, hr⟩ := run_runs exec w ps xs (List.getElem?_eq_getElem hlt)
      rw [hk] at hq
      obtain rfl := Option.some.inj hq
      exact hstep _ _ _ _ _ _ ih (List.getElem?_eq_getElem hlt) hk hr

/-- Made one after another from `w` on, with nothing in between, the calls are answered so. -/
def Answers (w : W) : List C → List (Step P) → Prop
  | [], [] => True
  | c :: cs, ⟨o, a⟩ :: t => (exec o c w).1 = a ∧ Answers (exec o c w).2 cs t
  | _, _ => False

/-- A program that runs alone makes its calls. -/
theorem run_alone {p q : Prog P α} {t : List (Step P)} (h : Runs p t q) {s : Sys P W C α}
    (hs : s.procs = [p]) {cs : List C} (ha : Answers exec s.world cs t) :
    callsOf 0 (s.run exec (cs.map fun c => (0, c))).hist = callsOf 0 s.hist ++ t := by
  induction h generalizing s cs with
  | nil p =>
    cases cs with
    | nil => exact (List.append_nil _).symm
    | cons c cs => exact ha.elim
  | cons o k a _ ih =>
    cases cs with
    | nil => exact ha.elim
    | cons c cs =>
      obtain ⟨hans, ha⟩ := ha
      show callsOf 0 ((s.step exec (0, c)).run exec (cs.map fun c => (0, c))).hist = _
      rw [step_of_call exec (by rw [hs]; rfl), ih (by rw [after, hs, hans]; rfl) ha]
      have hcalls : callsOf 0 (s.after exec 0 c o k).hist =
          callsOf 0 s.hist ++ [⟨o, (exec o c s.world).1⟩] :=
        callsOf_concat_self s.hist ⟨0, c, o, (exec o c s.world).1⟩
      rw [hcalls, hans, List.append_assoc]
      rfl

end Sys

/-! ## Executions

A program that has the world to itself. -/

namespace Prog

variable {P : Port} {W C α β : Type} (exec : (o : P.Op) → C → W → P.Ans o × W)
  (E : P.Op → C → Prop)

/-- `Executes p w a w'`: started in `w`, the program returns `a` and leaves `w'`.  Of the outcomes
of a call the environment chooses one that `E` allows. -/
inductive Executes : Prog P α → W → α → W → Prop
  | ret (a : α) (w : W) : Executes (.ret a) w a w
  | call {o : P.Op} {k : P.Ans o → Prog P α} {c : C} {w w' : W} {a : α} : E o c →
      Executes (k (exec o c w).1) (exec o c w).2 a w' → Executes (.call o k) w a w'

variable {exec E}

theorem executes_ret {a b : α} {w w' : W} (h : Executes exec E (.ret a) w b w') :
    b = a ∧ w' = w := by
  cases h
  exact ⟨rfl, rfl⟩

theorem executes_call {o : P.Op} {k : P.Ans o → Prog P α} {w w' : W} {a : α}
    (h : Executes exec E (.call o k) w a w') :
    ∃ c, E o c ∧ Executes exec E (k (exec o c w).1) (exec o c w).2 a w' := by
  cases h with
  | call hc h => exact ⟨_, hc, h⟩

/-- A sequence of two programs executes one after the other. -/
theorem executes_bind {p : Prog P α} {f : α → Prog P β} {w w'' : W} {b : β}
    (h : Executes exec E (p >>= f) w b w'') :
    ∃ a w', Executes exec E p w a w' ∧ Executes exec E (f a) w' b w'' := by
  induction p generalizing w with
  | ret a => exact ⟨a, w, .ret a w, h⟩
  | call o k ih =>
    obtain ⟨c, hc, h⟩ := executes_call h
    obtain ⟨a, w', hp, hf⟩ := ih _ h
    exact ⟨a, w', .call hc hp, hf⟩

variable (exec) in
/-- If the environment always has an outcome to choose, every program returns. -/
theorem exists_executes (hE : ∀ o, ∃ c, E o c) (p : Prog P α) (w : W) :
    ∃ a w', Executes exec E p w a w' := by
  induction p generalizing w with
  | ret a => exact ⟨a, w, .ret a w⟩
  | call o k ih =>
    obtain ⟨c, hc⟩ := hE o
    obtain ⟨a, w', h⟩ := ih (exec o c w).1 (exec o c w).2
    exact ⟨a, w', .call hc h⟩

theorem Executes.bind {p : Prog P α} {f : α → Prog P β} {w w' w'' : W} {a : α} {b : β}
    (h : Executes exec E p w a w') (hf : Executes exec E (f a) w' b w'') :
    Executes exec E (p >>= f) w b w'' := by
  induction h with
  | ret a w => exact hf
  | call hc _ ih => exact .call hc (ih hf)

theorem Executes.mono {E' : P.Op → C → Prop} (hE : ∀ o c, E o c → E' o c) {p : Prog P α} {w w' : W}
    {a : α} (h : Executes exec E p w a w') : Executes exec E' p w a w' := by
  induction h with
  | ret a w => exact .ret a w
  | call hc _ ih => exact .call (hE _ _ hc) ih

/-- An execution is a run: the schedule picks the one program until it returns. -/
theorem Executes.run {p : Prog P α} {w w' : W} {a : α} (h : Executes exec E p w a w')
    {s : Sys P W C α} {i : Nat} (hs : s.procs[i]? = some p) (hw : s.world = w) :
    ∃ xs, (s.run exec xs).world = w' ∧ (s.run exec xs).procs = s.procs.set i (.ret a) := by
  induction h generalizing s with
  | ret a w =>
    obtain ⟨hi, hp⟩ := List.getElem?_eq_some_iff.mp hs
    exact ⟨[], hw, by rw [← hp, List.set_getElem_self]; rfl⟩
  | @call o k c w w' a _ _ ih =>
    subst hw
    obtain ⟨hi, -⟩ := List.getElem?_eq_some_iff.mp hs
    obtain ⟨xs, hworld, hprocs⟩ := ih (s := s.after exec i c o k) (List.getElem?_set_self hi) rfl
    have hrun : s.run exec ((i, c) :: xs) = (s.after exec i c o k).run exec xs := by
      show (s.step exec (i, c)).run exec xs = _
      rw [Sys.step_of_call exec hs]
    refine ⟨(i, c) :: xs, by rw [hrun]; exact hworld, ?_⟩
    rw [hrun, hprocs]
    exact List.set_set _

end Prog

end Ports
