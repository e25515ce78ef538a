import EasyPay.Lib.PortSum

/-!
# Programs around programs

A program over two ports may be a wrapper around a job, whose program is over the first port
(`Prog.Wraps`): it makes some *quiet* calls, which leave the part of the world that matters as it is,
and then either returns or does the job.  Which job that is may depend on the answers it got.

A run of wrappers is a run of jobs (`Sys.exists_run_inside`): under a part of the same schedule, in the
part of the world that matters.
-/

namespace Ports

namespace Prog

variable {P Q : Port} {α β J : Type}

theorem bind_bind {γ δ : Type} (p : Prog P β) (f : β → Prog P γ) (g : γ → Prog P δ) :
    (p >>= f) >>= g = p >>= fun b => f b >>= g := by
  induction p with
  | ret b => rfl
  | call o k ih => exact congrArg (Prog.call o) (funext ih)

theorem inl_bind {γ : Type} (p : Prog P β) (f : β → Prog P γ) :
    (inl (p >>= f) : Prog (P.sum Q) γ) = inl p >>= fun b => inl (f b) := by
  induction p with
  | ret b => rfl
  | call o k ih => exact congrArg (Prog.call (P := P.sum Q) (.inl o)) (funext ih)

/-- What wrappers may do: the calls that are quiet, the jobs they may turn to after some calls, and the
results they may return, of their own (`none`) or for the result of the job. -/
structure Wrapper (P Q : Port) (J α β : Type) where
  quiet : (P.sum Q).Op → Prop
  job : List (Step (P.sum Q)) → J → Prop
  result : List (Step (P.sum Q)) → Option β → α → Prop

/-- `Wraps prog K t p`: after the calls `t`, the wrapper `p` is left to do; `prog` is what the jobs
do. -/
inductive Wraps (prog : J → Prog P β) (K : Wrapper P Q J α β) :
    List (Step (P.sum Q)) → Prog (P.sum Q) α → Prop
  | ret {t : List (Step (P.sum Q))} {a : α} : K.result t none a → Wraps prog K t (ret a)
  | call {t : List (Step (P.sum Q))} {o : (P.sum Q).Op} {k : (P.sum Q).Ans o → Prog (P.sum Q) α} :
      K.quiet o → (∀ a, Wraps prog K (t ++ [⟨o, a⟩]) (k a)) → Wraps prog K t (call o k)
  | job {t : List (Step (P.sum Q))} {j : J} {f : β → α} : K.job t j →
      (∀ u b, Runs (prog j) u (.ret b) → K.result t (some b) (f b)) →
      Wraps prog K t (inl (prog j) >>= fun b => Prog.ret (f b))

variable {prog : J → Prog P β} {K : Wrapper P Q J α β}

/-- A job told by `h`, if its own result is told by `g`. -/
theorem wraps_job {γ : Type} {t : List (Step (P.sum Q))} {q : Prog P γ} {g : γ → β} {h : γ → α}
    {j : J} (hj : prog j = q >>= fun c => ret (g c)) (f : β → α) (hf : ∀ c, f (g c) = h c)
    (hjob : K.job t j) (hres : ∀ c, K.result t (some (g c)) (h c)) :
    Wraps prog K t (inl (q >>= fun c => ret (h c))) := by
  have hprog : (inl (q >>= fun c => ret (h c)) : Prog (P.sum Q) α) =
      inl (prog j) >>= fun b => ret (f b) := by
    rw [hj, inl_bind, inl_bind, bind_bind]
    exact congrArg (inl q >>= ·) (funext fun c => congrArg ret (hf c).symm)
  rw [hprog]
  refine .job hjob fun u b hu => ?_
  rw [hj] at hu
  obtain ⟨c, -, rfl⟩ := runs_map_ret hu
  rw [hf c]
  exact hres c

/-- Quiet calls in front of a wrapper. -/
theorem wraps_bind {γ : Type} {S : List (Step (P.sum Q)) → γ → Prop} {p : Prog (P.sum Q) γ}
    {f : γ → Prog (P.sum Q) α} {t : List (Step (P.sum Q))} (hp : Meets (fun _ o => K.quiet o) S p t)
    (hf : ∀ t c, S t c → Wraps prog K t (f c)) : Wraps prog K t (p >>= f) := by
  induction p generalizing t with
  | ret c => exact hf t c hp
  | call o k ih => exact .call hp.1 fun a => ih a (hp.2 a)

/-- A wrapper with its result translated. -/
theorem Wraps.map {γ : Type} {K' : Wrapper P Q J γ β} {t : List (Step (P.sum Q))}
    {p : Prog (P.sum Q) α} (h : Wraps prog K t p) (g : α → γ) (hquiet : ∀ o, K.quiet o → K'.quiet o)
    (hjob : ∀ t j, K.job t j → K'.job t j)
    (hresult : ∀ t b a, K.result t b a → K'.result t b (g a)) :
    Wraps prog K' t (p >>= fun a => .ret (g a)) := by
  induction h with
  | ret hres => exact .ret (hresult _ _ _ hres)
  | call ho _ ih => exact .call (hquiet _ ho) ih
  | job hj hf =>
    rw [bind_bind]
    exact .job (hjob _ _ hj) fun u b hu => hresult _ _ _ (hf u b hu)

section
variable (prog K)

/-- A wrapper that has not yet come to a job, and may never do so. -/
def Waits (t : List (Step (P.sum Q))) (p : Prog (P.sum Q) α) : Prop :=
  (∃ a, p = ret a ∧ K.result t none a) ∨
    ∃ o k, p = call o k ∧ K.quiet o ∧ ∀ a, Wraps prog K (t ++ [⟨o, a⟩]) (k a)

/-- The job of a wrapper, and what the wrapper makes of its result. -/
structure Encloses (t : List (Step (P.sum Q))) (j : J) (f : β → α) : Prop where
  job : K.job t j
  result : ∀ u b, Runs (prog j) u (ret b) → K.result t (some b) (f b)

end

theorem Wraps.stage {t : List (Step (P.sum Q))} {p : Prog (P.sum Q) α} (h : Wraps prog K t p) :
    Waits prog K t p ∨ ∃ (j : J) (f : β → α), Encloses prog K t j f ∧
      p = inl (prog j) >>= fun b => Prog.ret (f b) := by
  cases h with
  | ret hres => exact .inl (.inl ⟨_, rfl, hres⟩)
  | call hquiet hk => exact .inl (.inr ⟨_, _, rfl, hquiet, hk⟩)
  | job hj hf => exact .inr ⟨_, _, ⟨hj, hf⟩, rfl⟩

/-- The jobs that wrappers start with, where they do; the others are put down as `idle`. -/
theorem exists_jobs (idle : J) {K : Nat → Wrapper P Q J α β} {ps : List (Prog (P.sum Q) α)}
    (hps : ∀ i p, ps[i]? = some p → Wraps prog (K i) [] p) :
    ∃ js : List J, js.length = ps.length ∧ ∀ i p, ps[i]? = some p →
      (js[i]? = some idle ∧ Waits prog (K i) [] p) ∨
        ∃ (j : J) (f : β → α), js[i]? = some j ∧ Encloses prog (K i) [] j f ∧
          p = inl (prog j) >>= fun b => Prog.ret (f b) := by
  induction ps generalizing K with
  | nil => exact ⟨[], rfl, fun i p hp => by cases hp⟩
  | cons p ps ih =>
    obtain ⟨js, hlen, hjs⟩ := ih fun i p hp => hps (i + 1) p hp
    rcases (hps 0 p rfl).stage with hwaits | ⟨j, f, hj, hp⟩
    · refine ⟨idle :: js, congrArg (· + 1) hlen, fun i p' hp' => ?_⟩
      cases i with
      | zero =>
        cases hp'
        exact .inl ⟨rfl, hwaits⟩
      | succ i => exact hjs i p' hp'
    · refine ⟨j :: js, congrArg (· + 1) hlen, fun i p' hp' => ?_⟩
      cases i with
      | zero =>
        cases hp'
        exact .inr ⟨j, f, rfl, hj, hp⟩
      | succ i => exact hjs i p' hp'

end Prog

open Prog

namespace Sys

section
variable {P : Port} {W C α : Type} {exec : (o : P.Op) → C → W → P.Ans o × W}

/-- A program that is never scheduled may be any other. -/
theorem run_set (w : W) (ps : List (Prog P α)) {i : Nat} (p : Prog P α) {xs : List (Nat × C)}
    (hxs : ∀ x ∈ xs, x.1 ≠ i) :
    (start w (ps.set i p)).run exec xs =
      { (start w ps).run exec xs with procs := ((start w ps).run exec xs).procs.set i p } := by
  induction xs using List.reverseRecOn with
  | nil => rfl
  | append_singleton xs x ih =>
    have hne : x.1 ≠ i := hxs x (by simp)
    rw [run_concat, run_concat, ih fun y hy => hxs y (List.mem_append_left _ hy)]
    generalize (start w ps).run exec xs = s
    have hproc : (s.procs.set i p)[x.1]? = s.procs[x.1]? := List.getElem?_set_ne hne.symm
    unfold step
    simp only [hproc]
    split
    · simp only [after]
      rw [List.set_comm _ _ hne]
    · rfl

theorem callsOf_of_not_scheduled (w : W) (ps : List (Prog P α)) {i : Nat} {xs : List (Nat × C)}
    (hxs : ∀ x ∈ xs, x.1 ≠ i) : callsOf i ((start w ps).run exec xs).hist = [] := by
  induction xs using List.reverseRecOn with
  | nil => rfl
  | append_singleton xs x ih =>
    have hcalls := ih fun y hy => hxs y (List.mem_append_left _ hy)
    rw [run_concat]
    rcases step_cases exec ((start w ps).run exec xs) x with h | ⟨o, k, -, h⟩
    · rw [h, hcalls]
    · rw [h]
      simp only [after]
      rw [callsOf_concat_ne _ _ (hxs x (by simp)), hcalls]

end

section
variable {P Q : Port} {W V C α β J : Type}
  {exec : (o : (P.sum Q).Op) → C → W → (P.sum Q).Ans o × W}
  {exec' : (o : P.Op) → C → V → P.Ans o × V} {view : W → V} {prog : J → Prog P β} {idle : J}

/-- Where one of the wrappers is, beside the run `s'` of the jobs `js` under `xs'`. -/
inductive Stands (prog : J → Prog P β) (idle : J) (K : Nat → Wrapper P Q J α β) (js : List J)
    (xs' : List (Nat × C)) (s' : Sys P V C β) (i : Nat) (t : List (Step (P.sum Q)))
    (p : Prog (P.sum Q) α) : Prop
  | before : js[i]? = some idle → (∀ x ∈ xs', x.1 ≠ i) → Waits prog (K i) t p →
      Stands prog idle K js xs' s' i t p
  | within {t₀ : List (Step (P.sum Q))} {j : J} {q : Prog P β} {f : β → α} : js[i]? = some j →
      Encloses prog (K i) t₀ j f → s'.procs[i]? = some q →
      p = inl q >>= (fun b => Prog.ret (f b)) → t = t₀ ++ (callsOf i s'.hist).map Step.inl →
      Stands prog idle K js xs' s' i t p

/-- The run `s` of wrappers is the run of the jobs `js` under `xs'`. -/
structure Carries (prog : J → Prog P β) (idle : J) (K : Nat → Wrapper P Q J α β) (view : W → V)
    (exec' : (o : P.Op) → C → V → P.Ans o × V) (v : V) (s : Sys (P.sum Q) W C α) (js : List J)
    (xs' : List (Nat × C)) : Prop where
  world : ((start v (js.map prog)).run exec' xs').world = view s.world
  length : js.length = s.procs.length
  stands : ∀ i p, s.procs[i]? = some p →
    Stands prog idle K js xs' ((start v (js.map prog)).run exec' xs') i (callsOf i s.hist) p

variable {K : Nat → Wrapper P Q J α β} {v : V} {s : Sys (P.sum Q) W C α} {js : List J}
  {xs' : List (Nat × C)}

/-- Where a wrapper is does not depend on a job that was never scheduled. -/
theorem Stands.set {i i' : Nat} {t : List (Step (P.sum Q))} {p : Prog (P.sum Q) α}
    (h : Stands prog idle K js xs' ((start v (js.map prog)).run exec' xs') i' t p) (hii' : i ≠ i')
    (hxs : ∀ x ∈ xs', x.1 ≠ i) (j : J) :
    Stands prog idle K (js.set i j) xs' ((start v ((js.set i j).map prog)).run exec' xs') i' t p := by
  rw [List.map_set, run_set v (js.map prog) (prog j) hxs]
  cases h with
  | before hidle hnot hwaits => exact .before (by rwa [List.getElem?_set_ne hii']) hnot hwaits
  | within hj hin hq hp ht =>
    refine .within ?_ hin ?_ hp ht
    · rwa [List.getElem?_set_ne hii']
    · simp only
      rwa [List.getElem?_set_ne hii']

/-- A wrapper comes to its job, or goes on waiting, after a call that does not show. -/
theorem Carries.quiet {s₁ : Sys (P.sum Q) W C α} (h : Carries prog idle K view exec' v s js xs') {i : Nat}
    {p : Prog (P.sum Q) α} (hi : i < s.procs.length) (hidle : js[i]? = some idle)
    (hxs : ∀ x ∈ xs', x.1 ≠ i) (hworld : view s₁.world = view s.world) (hprocs : s₁.procs = s.procs.set i p)
    (hothers : ∀ i', i ≠ i' → callsOf i' s₁.hist = callsOf i' s.hist)
    (hp : Wraps prog (K i) (callsOf i s₁.hist) p) :
    ∃ js', Carries prog idle K view exec' v s₁ js' xs' := by
  have hlen : s₁.procs.length = s.procs.length := by rw [hprocs, List.length_set]
  have hself : s₁.procs[i]? = some p := by rw [hprocs, List.getElem?_set_self hi]
  have hother : ∀ i' p', i ≠ i' → s₁.procs[i']? = some p' →
      Stands prog idle K js xs' ((start v (js.map prog)).run exec' xs') i' (callsOf i' s₁.hist) p' := by
    intro i' p' hii' hi'
    rw [hprocs, List.getElem?_set_ne hii'] at hi'
    rw [hothers i' hii']
    exact h.stands i' p' hi'
  rcases hp.stage with hwaits | ⟨j, f, hj, rfl⟩
  · refine ⟨js, h.world.trans hworld.symm, h.length.trans hlen.symm, fun i' p' hi' => ?_⟩
    by_cases hii' : i = i'
    · subst hii'
      cases hself.symm.trans hi'
      exact .before hidle hxs hwaits
    · exact hother i' p' hii' hi'
  · refine ⟨js.set i j, ?_, ?_, fun i' p' hi' => ?_⟩
    · rw [List.map_set, run_set v (js.map prog) (prog j) hxs]
      exact h.world.trans hworld.symm
    · rw [List.length_set, hlen]
      exact h.length
    · by_cases hii' : i = i'
      · subst hii'
        cases hself.symm.trans hi'
        have hlt : i < js.length := h.length ▸ hi
        have hcalls : callsOf i ((start v ((js.set i j).map prog)).run exec' xs').hist = [] :=
          callsOf_of_not_scheduled v _ hxs
        refine .within (List.getElem?_set_self hlt) hj ?_ rfl ?_
        · rw [List.map_set, run_set v (js.map prog) (prog j) hxs]
          refine List.getElem?_set_self ?_
          rw [run_procs_length, List.length_map]
          exact hlt
        · rw [hcalls, List.map_nil, List.append_nil]
      · exact (hother i' p' hii' hi').set hii' hxs j

section
variable (hinl : ∀ o c w, (exec (.inl o) c w).1 = (exec' o c (view w)).1 ∧
    view (exec (.inl o) c w).2 = (exec' o c (view w)).2)
  (hquiet : ∀ i o, (K i).quiet o → ∀ c w, view (exec o c w).2 = view w)
include hinl hquiet

/-- **One step.** -/
theorem Carries.step (h : Carries prog idle K view exec' v s js xs') (x : Nat × C) :
    ∃ js' xs'', Carries prog idle K view exec' v (s.step exec x) js' xs'' ∧
      (xs'' = xs' ∨ xs'' = xs' ++ [x]) := by
  rcases step_cases exec s x with hs | ⟨o, k, hk, hs⟩
  · rw [hs]
    exact ⟨js, xs', h, .inl rfl⟩
  rw [hs]
  have hi : x.1 < s.procs.length := (List.getElem?_eq_some_iff.mp hk).1
  have hself : callsOf x.1 (s.after exec x.1 x.2 o k).hist =
      callsOf x.1 s.hist ++ [⟨o, (exec o x.2 s.world).1⟩] :=
    callsOf_concat_self s.hist ⟨x.1, x.2, o, _⟩
  have hothers : ∀ i, x.1 ≠ i →
      callsOf i (s.after exec x.1 x.2 o k).hist = callsOf i s.hist := fun i hne =>
    callsOf_concat_ne s.hist ⟨x.1, x.2, o, _⟩ hne
  cases h.stands x.1 _ hk with
  | before hidle hxs hwaits =>
    rcases hwaits with ⟨a, ha, -⟩ | ⟨o', k', hcall, ho, hk'⟩
    · cases ha
    cases hcall
    have hworld : view (s.after exec x.1 x.2 o k).world = view s.world := hquiet _ o ho _ _
    obtain ⟨js', hjs'⟩ := h.quiet hi hidle hxs hworld rfl hothers (hself ▸ hk' _)
    exact ⟨js', xs', hjs', .inl rfl⟩
  | @within t₀ j q f hj hin hq hp ht =>
    cases q with
    | ret b => cases hp
    | call o' k' =>
      cases hp
      obtain ⟨hans, hworld⟩ := hinl o' x.2 s.world
      have hrun : (start v (js.map prog)).run exec' (xs' ++ [x]) =
          ((start v (js.map prog)).run exec' xs').after exec' x.1 x.2 o' k' := by
        rw [run_concat]
        exact step_of_call exec' hq x.2
      rw [← h.world] at hans hworld
      refine ⟨js, xs' ++ [x], ⟨?_, ?_, fun i p hp => ?_⟩, .inr rfl⟩
      · rw [hrun]
        exact hworld.symm
      · simp only [after]
        rw [List.length_set]
        exact h.length
      rw [hrun]
      by_cases hne : x.1 = i
      · subst hne
        simp only [after] at hp
        rw [List.getElem?_set_self hi] at hp
        cases hp
        refine .within hj hin ?_ rfl ?_
        · simp only [after]
          rw [List.getElem?_set_self (List.getElem?_eq_some_iff.mp hq).1, hans]
        · rw [hself, ht]
          simp only [after]
          rw [callsOf_concat_self ((start v (js.map prog)).run exec' xs').hist ⟨x.1, x.2, o', _⟩]
          simp [Step.inl, Event.step, hans]
      · simp only [after] at hp
        rw [List.getElem?_set_ne hne] at hp
        rw [hothers i hne]
        cases h.stands i p hp with
        | before hidle hxs hwaits =>
          refine .before hidle (fun y hy => ?_) hwaits
          rcases List.mem_append.mp hy with hy | hy
          · exact hxs y hy
          · rw [List.mem_singleton.mp hy]
            exact hne
        | within hj' hin' hq' hp' ht' =>
          refine .within hj' hin' ?_ hp' ?_
          · simp only [after]
            rw [List.getElem?_set_ne hne]
            exact hq'
          · simp only [after]
            rw [callsOf_concat_ne ((start v (js.map prog)).run exec' xs').hist ⟨x.1, x.2, o', _⟩ hne]
            exact ht'

variable (exec exec' view) in
/-- **Whole runs.**  A run of wrappers is a run of jobs they may turn to. -/
theorem exists_run_inside (idle : J) {ps : List (Prog (P.sum Q) α)}
    (hps : ∀ i p, ps[i]? = some p → Wraps prog (K i) [] p) (w : W) (xs : List (Nat × C)) :
    ∃ js xs', Carries prog idle K view exec' (view w) ((start w ps).run exec xs) js xs' ∧
      xs'.Sublist xs := by
  induction xs using List.reverseRecOn with
  | nil =>
    obtain ⟨js, hlen, hjs⟩ := exists_jobs idle hps
    refine ⟨js, [], ⟨rfl, hlen, fun i p hp => ?_⟩, .refl _⟩
    rcases hjs i p hp with ⟨hidle, hwaits⟩ | ⟨j, f, hj, hin, rfl⟩
    · exact .before hidle (fun x hx => by cases hx) hwaits
    · refine .within hj hin ?_ rfl rfl
      show (js.map prog)[i]? = some (prog j)
      rw [List.getElem?_map, hj]
      rfl
  | append_singleton xs x ih =>
    obtain ⟨js, xs', hcarries, hsub⟩ := ih
    obtain ⟨js', xs'', hstep, hxs''⟩ := hcarries.step hinl hquiet x
    rw [run_concat]
    refine ⟨js', xs'', hstep, ?_⟩
    rcases hxs'' with rfl | rfl
    · exact hsub.trans (List.sublist_append_left _ _)
    · exact hsub.append (.refl _)

end

/-- Where a wrapper is that has come to its job, the job is. -/
theorem Carries.within (h : Carries prog idle K view exec' v s js xs') {i : Nat} {p : Prog (P.sum Q) α}
    (hp : s.procs[i]? = some p) :
    (js[i]? = some idle ∧ callsOf i ((start v (js.map prog)).run exec' xs').hist = [] ∧
      ∀ a, p = ret a → (K i).result (callsOf i s.hist) none a) ∨
    ∃ t₀ j, js[i]? = some j ∧ (K i).job t₀ j ∧
      callsOf i s.hist =
        t₀ ++ (callsOf i ((start v (js.map prog)).run exec' xs').hist).map Step.inl ∧
      ∀ a, p = ret a → ∃ b, ((start v (js.map prog)).run exec' xs').procs[i]? = some (.ret b) ∧
        (K i).result t₀ (some b) a := by
  cases h.stands i p hp with
  | before hidle hxs hwaits =>
    refine .inl ⟨hidle, callsOf_of_not_scheduled v _ hxs, ?_⟩
    rintro a rfl
    rcases hwaits with ⟨a', ha, hres⟩ | ⟨o, k, hcall, -⟩
    · cases ha
      exact hres
    · cases hcall
  | @within t₀ j q f hj hin hq hpq ht =>
    refine .inr ⟨t₀, j, hj, hin.job, ht, ?_⟩
    rintro a rfl
    cases q with
    | call o k => cases hpq
    | ret b =>
      cases hpq
      obtain ⟨q', hq', hruns⟩ := run_runs exec' v (js.map prog) xs'
        (show (js.map prog)[i]? = some (prog j) by rw [List.getElem?_map, hj]; rfl)
      cases hq.symm.trans hq'
      exact ⟨b, hq, hin.result _ b hruns⟩

end

end Sys

end Ports
