import EasyPay.Lib.Sha256
import EasyPay.Provider.Confirmation
import EasyPay.Provider.Listener
import EasyPay.Service.CheckoutResolver
import EasyPay.Service.PaymentService
import EasyPay.Service.Reconciliation
import EasyPay.Service.WebhookService

/-!
# The gateway as a system

Any number of requests and background ticks run at the same time over one world: the
payments, links and webhook deliveries being served, by any number of pods, the logs a chain
delivers, and the ticks of the reconcilers, the backfill scanner and the confirmation
tracker.  A run interleaves their calls.

* `System.invariant`: what every call keeps holds in every state of every run; a call
  may be assumed to be one its job makes after the calls it has made.
* `exec_pools_cases`: what a call can do to the tables; `rows_kept`: between any two states of a run
  every row is kept, its facts with it.
* `exec_sessions_cases`, `exec_urlCaches_cases`: and to Stripe's sessions and the caches.
-/

namespace EasyPay

open GoStrings Tables Ports

inductive Job
  | create (s : PaymentService) (inp : CreatePaymentInput)
  | resolve (r : CheckoutResolver) (merchantID orderID : Str)
  | process (s : WebhookService) (payload sigHeader : Str)
  | reconcile (r : OrderReconciliation)
  | confirm (c : ConfirmationTracker)
  | listen (j : ListenerJob)

inductive Outcome
  | created (r : Res CreatePaymentResult)
  | resolved (r : Res Str)
  | processed (r : Res Unit)
  | reconciled (r : Res Unit)
  | confirmed (r : Res Unit)
  | listened (r : Option (Res Unit))
  deriving DecidableEq, Repr

def Job.prog (D : Deployment) : Job → Svc Outcome
  | create s inp => s.create D inp >>= fun r => .ret (.created r)
  | resolve r m o => r.resolve D.unicode m o >>= fun r => .ret (.resolved r)
  | process s payload sig => s.process payload sig >>= fun r => .ret (.processed r)
  | reconcile r => r.tick >>= fun r => .ret (.reconciled r)
  | confirm c => c.tick >>= fun r => .ret (.confirmed r)
  | listen j => j.prog D.addressHex >>= fun r => .ret (.listened r)

/-! ## Which job makes which call -/

/-- What a job calls next, after the calls `t`. -/
inductive JobCall (D : Deployment) : Job → Calls → Op → Prop
  | create {s : PaymentService} {inp : CreatePaymentInput} {M : Merchant} {t : Calls} {op : Op} :
      PaymentService.Accepts inp M → s.CreateCall D M inp t op → JobCall D (.create s inp) t op
  | resolve {r : CheckoutResolver} {m o : Str} {t : Calls} {op : Op} :
      r.ResolveCall D.unicode m o t op → JobCall D (.resolve r m o) t op
  | claim {s : WebhookService} {payload sig : Str} {e : StripeEvent} :
      s.verifyWebhookSignature payload sig s.webhookSecret = .ok e →
      JobCall D (.process s payload sig) [] (.setNX (dedupKey e) (bytes "1") day)
  | handle {s : WebhookService} {payload sig : Str} {e : StripeEvent} {t : Calls} {op : Op}
      {k : op.Ans → Svc (Res Unit)} :
      s.verifyWebhookSignature payload sig s.webhookSecret = .ok e →
      Prog.Runs (s.handle e) t (.call op k) →
      JobCall D (.process s payload sig)
        ((Op.setNX (dedupKey e) (bytes "1") day).gave (.ok true) :: t) op
  | reconcile {r : OrderReconciliation} {t : Calls} {op : Op} :
      OrderReconciliation.TickCall t op → JobCall D (.reconcile r) t op
  | confirm {c : ConfirmationTracker} {t : Calls} {op : Op} :
      ConfirmationTracker.TrackerCall op → JobCall D (.confirm c) t op
  | listen {j : ListenerJob} {t : Calls} {op : Op} :
      ListenerCall D.addressHex j t op → JobCall D (.listen j) t op

/-- **The calls of a job.** -/
theorem Job.next {D : Deployment} {j : Job} {t : Calls} {op : Op} {k : op.Ans → Svc Outcome}
    (h : Prog.Runs (j.prog D) t (.call op k)) : JobCall D j t op := by
  cases j with
  | create s inp =>
    obtain ⟨k', h⟩ := Prog.runs_map_call h
    obtain ⟨M, hM, hc⟩ := s.create_next D h
    exact .create hM hc
  | resolve r m o =>
    obtain ⟨k', h⟩ := Prog.runs_map_call h
    exact .resolve (r.resolve_next D.unicode h)
  | process s payload sig =>
    obtain ⟨k', h⟩ := Prog.runs_map_call h
    obtain ⟨e, he, ⟨rfl, rfl⟩ | ⟨t', rfl, hr⟩⟩ := s.process_next h
    · exact .claim he
    · exact .handle he hr
  | reconcile r =>
    obtain ⟨k', h⟩ := Prog.runs_map_call h
    exact .reconcile (r.tick_next h)
  | confirm c =>
    obtain ⟨k', h⟩ := Prog.runs_map_call h
    exact .confirm (c.tick_next h)
  | listen j =>
    obtain ⟨k', h⟩ := Prog.runs_map_call h
    exact .listen (j.next D.addressHex h)

/-- Only `Create` inserts, as its first call. -/
theorem JobCall.insert_inv {D : Deployment} {j : Job} {t : Calls} {tx : Transaction}
    (h : JobCall D j t (.insert tx)) :
    ∃ s inp M, j = .create s inp ∧ PaymentService.Accepts inp M ∧ t = [] ∧
      tx = s.newRow D M inp := by
  cases h with
  | create hM hc =>
    cases hc
    exact ⟨_, _, _, rfl, hM, rfl, rfl⟩
  | resolve hr => cases hr
  | @handle s payload sig e t op k he hr => cases s.handle_next hr
  | reconcile hr => cases hr
  | confirm hc => cases hc
  | listen hc => cases hc

/-- Only `Resolve` releases a lock, one it has acquired. -/
theorem JobCall.release_inv {D : Deployment} {j : Job} {t : Calls} {lock : Lock}
    (h : JobCall D j t (.release lock)) :
    ∃ key ttl, (Op.acquire key ttl).gave (.ok lock) ∈ t := by
  cases h with
  | create _ hc => cases hc
  | resolve hr =>
    cases hr with
    | release _ hmem => exact ⟨_, _, hmem⟩
  | @handle s payload sig e t op k he hr => cases s.handle_next hr
  | reconcile hr => cases hr
  | confirm hc => cases hc
  | listen hc => cases hc

/-- Only a webhook delivery claims a dedupe key, with its first call. -/
theorem JobCall.setNX_inv {D : Deployment} {j : Job} {t : Calls} {key value : Str} {ttl : Time}
    (h : JobCall D j t (.setNX key value ttl)) :
    ∃ s payload sig e, j = .process s payload sig ∧
      s.verifyWebhookSignature payload sig s.webhookSecret = .ok e ∧
      key = dedupKey e ∧ value = bytes "1" ∧ ttl = day := by
  cases h with
  | create _ hc => cases hc
  | resolve hr => cases hr
  | claim he => exact ⟨_, _, _, _, rfl, he, rfl, rfl, rfl⟩
  | @handle s payload sig e t op k he hr => cases s.handle_next hr
  | reconcile hr => cases hr
  | confirm hc => cases hc
  | listen hc => cases hc

/-- No job onboards a merchant. -/
theorem JobCall.not_insertMerchant {D : Deployment} {j : Job} {t : Calls} {m : Merchant} :
    ¬ JobCall D j t (.insertMerchant m) := by
  intro h
  cases h with
  | create _ hc => cases hc
  | resolve hr => cases hr
  | @handle s payload sig e t op k he hr => cases s.handle_next hr
  | reconcile hr => cases hr
  | confirm hc => cases hc
  | listen hc => cases hc

/-- Only the listener records a payment, of a log it was given. -/
theorem JobCall.create_inv {D : Deployment} {j : Job} {t : Calls} {tx : OnchainTransaction}
    (h : JobCall D j t (.createOnchainTx tx)) :
    ∃ l, j = .listen l ∧ ∃ cfg lg parsed order, tx = newOnchainTx D.addressHex cfg lg parsed order ∧
      Delivered l t cfg lg ∧ parsePaymentEvent lg = .ok parsed ∧
      (Op.getByOrderIDAny parsed.orderID).gave (.ok order) ∈ t := by
  cases h with
  | create _ hc => cases hc
  | resolve hr => cases hr
  | @handle s payload sig e t op k he hr => cases s.handle_next hr
  | reconcile hr => cases hr
  | confirm hc => cases hc
  | listen hc =>
    cases hc with
    | create hdel hparse hfound => exact ⟨_, rfl, _, _, _, _, rfl, hdel, hparse, hfound⟩

/-! ## Runs -/

/-- A call of a run, with what the environment chose for it. -/
abbrev CallEvent := Event gateway Choice

abbrev System := Sys gateway World Choice Outcome

namespace System

/-- The state after the schedule `xs`, started in `w` with the jobs `js`. -/
def run (D : Deployment) (w : World) (js : List Job) (xs : List (Nat × Choice)) : System :=
  (Sys.start w (js.map (Job.prog D))).run (exec D) xs

/-- A run depends on the programs of its jobs only. -/
theorem run_congr {D : Deployment} {w : World} {js js' : List Job}
    (h : js.map (Job.prog D) = js'.map (Job.prog D)) (xs : List (Nat × Choice)) :
    run D w js xs = run D w js' xs := by
  unfold run
  rw [h]

/-- Job `i` makes the call `o`. -/
def after (D : Deployment) (s : System) (i : Nat) (c : Choice) (o : Op)
    (k : o.Ans → Svc Outcome) : System :=
  Sys.after (exec D) s i c o k

theorem mem_hist_after {D : Deployment} {s : System} {i : Nat} {c : Choice} {o : Op}
    {k : o.Ans → Svc Outcome} {e : CallEvent} :
    e ∈ (s.after D i c o k).hist ↔ e ∈ s.hist ∨ e = ⟨i, c, o, (exec D o c s.world).1⟩ := by
  show e ∈ s.hist ++ [_] ↔ _
  rw [List.mem_append, List.mem_singleton]

/-- The call just made, and its answer. -/
theorem event_inj {D : Deployment} {i i' : Nat} {c c' : Choice} {o o' : Op} {a : o'.Ans}
    {w : World} (h : (⟨i', c', o', a⟩ : CallEvent) = ⟨i, c, o, (exec D o c w).1⟩) :
    i' = i ∧ c' = c ∧ o' = o ∧ (exec D o' c' w).1 = a := by
  generalize hans : (exec D o c w).1 = b at h
  cases h
  exact ⟨rfl, rfl, rfl, hans⟩

theorem mem_callsOf_after {D : Deployment} {s : System} {i i' : Nat} {c : Choice} {o : Op}
    {k : o.Ans → Svc Outcome} {x : Prog.Step gateway} :
    x ∈ callsOf i' (s.after D i c o k).hist ↔
      x ∈ callsOf i' s.hist ∨ (i = i' ∧ o.gave (exec D o c s.world).1 = x) :=
  mem_callsOf_concat (P := gateway)

/-- The calls of a job after its next call... -/
theorem callsOf_after_self {D : Deployment} {s : System} {i : Nat} {c : Choice} {o : Op}
    {k : o.Ans → Svc Outcome} :
    callsOf i (s.after D i c o k).hist = callsOf i s.hist ++ [o.gave (exec D o c s.world).1] :=
  callsOf_concat_self s.hist ⟨i, c, o, (exec D o c s.world).1⟩

/-- ... and after one of another. -/
theorem callsOf_after_ne {D : Deployment} {s : System} {i i' : Nat} {c : Choice} {o : Op}
    {k : o.Ans → Svc Outcome} (hi : i ≠ i') :
    callsOf i' (s.after D i c o k).hist = callsOf i' s.hist :=
  callsOf_concat_ne s.hist ⟨i, c, o, (exec D o c s.world).1⟩ hi

/-- What a job has called it has called after the next call, too. -/
theorem callsOf_after_mono {D : Deployment} {s : System} {i : Nat} {c : Choice} {o : Op}
    {k : o.Ans → Svc Outcome} (i' : Nat) :
    ∀ x ∈ callsOf i' s.hist, x ∈ callsOf i' (s.after D i c o k).hist :=
  fun _ hx => mem_callsOf_after.mpr (.inl hx)

section
variable (D : Deployment) (w : World) (js : List Job)

/-- Every job is where its own calls lead. -/
theorem run_runs {i : Nat} {j : Job} (hj : js[i]? = some j) (xs : List (Nat × Choice)) :
    ∃ q, (run D w js xs).procs[i]? = some q ∧
      Prog.Runs (j.prog D) (callsOf i (run D w js xs).hist) q :=
  Sys.run_runs (exec D) w (js.map (Job.prog D)) xs (by rw [List.getElem?_map, hj]; rfl)

theorem run_getElem? {i : Nat} {q : Svc Outcome} {xs : List (Nat × Choice)}
    (h : (run D w js xs).procs[i]? = some q) : ∃ j, js[i]? = some j := by
  have hlt := (List.getElem?_eq_some_iff.mp h).1
  have hlen : (run D w js xs).procs.length = (js.map (Job.prog D)).length :=
    Sys.run_procs_length (P := gateway) (exec D) w (js.map (Job.prog D)) xs
  rw [hlen, List.length_map] at hlt
  exact ⟨js[i], List.getElem?_eq_getElem hlt⟩

/-- **Invariants of the system.** -/
theorem invariant {Q : System → Prop} (h0 : Q (Sys.start w (js.map (Job.prog D))))
    (hstep : ∀ (s : System) (i : Nat) (c : Choice) (o : Op) (k : o.Ans → Svc Outcome) (j : Job),
      Q s → js[i]? = some j → JobCall D j (callsOf i s.hist) o → Q (s.after D i c o k))
    (xs : List (Nat × Choice)) : Q (run D w js xs) := by
  refine Sys.run_induction (exec D) w (js.map (Job.prog D)) h0 ?_ xs
  intro s i c o k p hQ hp _ hr
  rw [List.getElem?_map] at hp
  obtain ⟨j, hj, rfl⟩ := Option.map_eq_some_iff.mp hp
  exact hstep s i c o k j hQ hj (Job.next hr)

/-- **A call of the history**, back when it was made. -/
theorem happened {xs : List (Nat × Choice)} {e : CallEvent} (he : e ∈ (run D w js xs).hist) :
    ∃ ys zs k, xs = ys ++ (e.pid, e.choice) :: zs ∧
      (run D w js ys).procs[e.pid]? = some (.call e.op k) ∧
      e.ans = (exec D e.op e.choice (run D w js ys).world).1 := by
  induction xs using List.reverseRecOn with
  | nil => cases he
  | append_singleton xs x ih =>
    have hearlier : e ∈ (run D w js xs).hist → ∃ ys zs k, xs ++ [x] = ys ++ (e.pid, e.choice) :: zs ∧
        (run D w js ys).procs[e.pid]? = some (.call e.op k) ∧
        e.ans = (exec D e.op e.choice (run D w js ys).world).1 := by
      intro he
      obtain ⟨ys, zs, k, rfl, h⟩ := ih he
      exact ⟨ys, zs ++ [x], k, by simp, h⟩
    have hrun : run D w js (xs ++ [x]) = Sys.step (exec D) (run D w js xs) x :=
      Sys.run_concat (P := gateway) (exec D) _ xs x
    rw [hrun] at he
    rcases Sys.step_cases (exec D) (run D w js xs) x with h | ⟨o, k, hk, h⟩
    · rw [h] at he
      exact hearlier he
    · rw [h] at he
      rcases mem_hist_after.mp he with he | rfl
      · exact hearlier he
      · exact ⟨xs, [], k, rfl, hk, rfl⟩

/-- Every answer is the answer to its call, in some world. -/
theorem answered {xs : List (Nat × Choice)} {e : CallEvent} (he : e ∈ (run D w js xs).hist) :
    ∃ w', e.ans = (exec D e.op e.choice w').1 := by
  obtain ⟨ys, -, -, -, -, hans⟩ := happened D w js he
  exact ⟨_, hans⟩

/-- Every call is one of the schedule. -/
theorem mem_schedule {xs : List (Nat × Choice)} {e : CallEvent} (he : e ∈ (run D w js xs).hist) :
    (e.pid, e.choice) ∈ xs := by
  obtain ⟨ys, zs, -, rfl, -⟩ := happened D w js he
  exact List.mem_append_right _ List.mem_cons_self

/-- What was called at one time was called at any later time. -/
theorem mem_hist_run {ys zs : List (Nat × Choice)} {ev : CallEvent}
    (h : ev ∈ (run D w js ys).hist) : ev ∈ (run D w js (ys ++ zs)).hist := by
  unfold run
  rw [Sys.run_append]
  exact (Sys.run_hist_prefix (exec D) _ zs).subset h

theorem mem_callsOf_run {ys zs : List (Nat × Choice)} {i : Nat} {x : Prog.Step gateway}
    (h : x ∈ callsOf i (run D w js ys).hist) : x ∈ callsOf i (run D w js (ys ++ zs)).hist := by
  obtain ⟨e, he, h⟩ := mem_callsOf.mp h
  exact mem_callsOf.mpr ⟨e, mem_hist_run D w js he, h⟩

/-- Every call was its job's next one, after some of the calls it has made by now. -/
theorem job_runs {xs : List (Nat × Choice)} {e : CallEvent} (he : e ∈ (run D w js xs).hist) :
    ∃ j t k, js[e.pid]? = some j ∧ Prog.Runs (j.prog D) t (.call e.op k) ∧
      ∀ x ∈ t, x ∈ callsOf e.pid (run D w js xs).hist := by
  obtain ⟨ys, zs, k, rfl, hproc, -⟩ := happened D w js he
  obtain ⟨j, hj⟩ := run_getElem? D w js hproc
  obtain ⟨q, hq, hruns⟩ := run_runs D w js hj ys
  cases hproc.symm.trans hq
  exact ⟨j, _, k, hj, hruns, fun x hx => mem_callsOf_run D w js hx⟩

/-- The same for a call given with its answer. -/
theorem callsOf_runs {xs : List (Nat × Choice)} {i : Nat} {o : Op} {a : o.Ans}
    (h : o.gave a ∈ callsOf i (run D w js xs).hist) :
    ∃ j t k, js[i]? = some j ∧ Prog.Runs (j.prog D) t (.call o k) ∧
      ∀ x ∈ t, x ∈ callsOf i (run D w js xs).hist := by
  obtain ⟨c, he⟩ := exists_event h
  exact job_runs D w js he

theorem job_call {xs : List (Nat × Choice)} {e : CallEvent} (he : e ∈ (run D w js xs).hist) :
    ∃ j t, js[e.pid]? = some j ∧ JobCall D j t e.op ∧
      ∀ x ∈ t, x ∈ callsOf e.pid (run D w js xs).hist := by
  obtain ⟨j, t, k, hj, hr, ht⟩ := job_runs D w js he
  exact ⟨j, t, hj, Job.next hr, ht⟩

theorem answered_of_mem {xs : List (Nat × Choice)} {i : Nat} {o : Op} {a : o.Ans}
    (h : o.gave a ∈ callsOf i (run D w js xs).hist) :
    ∃ e ∈ (run D w js xs).hist, e.pid = i ∧ e.step = o.gave a ∧
      ∃ w', a = (exec D o e.choice w').1 := by
  obtain ⟨e, he, hi, hstep⟩ := mem_callsOf.mp h
  obtain ⟨w', hw'⟩ := answered D w js he
  obtain ⟨pid, c, op, ans⟩ := e
  cases hstep
  exact ⟨_, he, hi, rfl, w', hw'⟩

/-- The step of a job that has a call to make. -/
theorem step_of_call {ys : List (Nat × Choice)} {i : Nat} {o : Op} {k : o.Ans → Svc Outcome}
    (h : (run D w js ys).procs[i]? = some (.call o k)) (c : Choice) :
    (∃ j, js[i]? = some j ∧ JobCall D j (callsOf i (run D w js ys).hist) o) ∧
      run D w js (ys ++ [(i, c)]) = (run D w js ys).after D i c o k := by
  obtain ⟨j, hj⟩ := run_getElem? D w js h
  obtain ⟨q, hq, hr⟩ := run_runs D w js hj ys
  cases h.symm.trans hq
  refine ⟨⟨j, hj, Job.next hr⟩, ?_⟩
  unfold run
  rw [Sys.run_concat]
  exact Sys.step_of_call (exec D) h c

/-- A step that changes the world is a call of its job. -/
theorem step_call (ys : List (Nat × Choice)) (i : Nat) (c : Choice) :
    run D w js (ys ++ [(i, c)]) = run D w js ys ∨
      ∃ j o k, js[i]? = some j ∧ (run D w js ys).procs[i]? = some (.call o k) ∧
        JobCall D j (callsOf i (run D w js ys).hist) o ∧
        run D w js (ys ++ [(i, c)]) = (run D w js ys).after D i c o k := by
  rcases Sys.step_cases (exec D) (run D w js ys) (i, c) with h | ⟨o, k, hk, -⟩
  · left
    unfold run
    rw [Sys.run_concat]
    exact h
  · obtain ⟨⟨j, hj, hcall⟩, h⟩ := step_of_call D w js hk c
    exact .inr ⟨j, o, k, hj, hk, hcall, h⟩

/-- **What every step keeps, a run keeps** between any two of its states; `Bad` says which steps
do not keep it. -/
theorem kept_iff {R : World → World → Prop} {Bad : System → Nat → Choice → Prop}
    (hrefl : ∀ w, R w w) (htrans : ∀ w w' w'', R w w' → R w' w'' → R w w'')
    (hstep : ∀ ys i c, R (run D w js ys).world (run D w js (ys ++ [(i, c)])).world ↔
      ¬ Bad (run D w js ys) i c) (xs : List (Nat × Choice)) :
    (∀ ys ys' zs, xs = ys ++ ys' ++ zs →
        R (run D w js ys).world (run D w js (ys ++ ys')).world) ↔
      ∀ ys i c zs, xs = ys ++ (i, c) :: zs → ¬ Bad (run D w js ys) i c := by
  constructor
  · intro h ys i c zs hxs
    rw [← hstep]
    refine h ys [(i, c)] zs ?_
    rw [hxs, List.append_assoc]
    rfl
  · intro h ys ys' zs hxs
    -- from the earlier state on, one step after the other
    induction ys' using List.reverseRecOn generalizing zs with
    | nil =>
      rw [List.append_nil]
      exact hrefl _
    | append_singleton ys' x ih =>
      have hxs' : xs = ys ++ ys' ++ x :: zs := by
        rw [hxs]
        simp
      have hnext := (hstep (ys ++ ys') x.1 x.2).mpr (h (ys ++ ys') x.1 x.2 zs hxs')
      rw [← List.append_assoc]
      exact htrans _ _ _ (ih (x :: zs) hxs') hnext

/-- **Invariants of runs** whose steps are all as they should be; `Bad` says which are not. -/
theorem guarded_rule (Bad : System → Nat → Choice → Prop) {Q : System → Prop}
    (h0 : Q (Sys.start w (js.map (Job.prog D))))
    (hstep : ∀ (ys : List (Nat × Choice)) (i : Nat) (c : Choice) (o : Op) (k : o.Ans → Svc Outcome)
      (j : Job), Q (run D w js ys) → ¬ Bad (run D w js ys) i c → js[i]? = some j →
      (run D w js ys).procs[i]? = some (.call o k) →
      Prog.Runs (j.prog D) (callsOf i (run D w js ys).hist) (.call o k) →
      Q ((run D w js ys).after D i c o k))
    {xs : List (Nat × Choice)}
    (hok : ∀ ys i c zs, xs = ys ++ (i, c) :: zs → ¬ Bad (run D w js ys) i c) :
    Q (run D w js xs) := by
  induction xs using List.reverseRecOn with
  | nil => exact h0
  | append_singleton ys x ih =>
    have hQ : Q (run D w js ys) := by
      refine ih fun ys' i c zs hys => hok ys' i c (zs ++ [x]) ?_
      rw [hys, List.append_assoc]
      rfl
    rcases step_call D w js ys x.1 x.2 with h | ⟨j, o, k, hj, hproc, -, h⟩
    · rw [h]
      exact hQ
    · obtain ⟨q, hq, hruns⟩ := run_runs D w js hj ys
      cases hproc.symm.trans hq
      rw [h]
      exact hstep ys x.1 x.2 o k j hQ (hok ys x.1 x.2 [] rfl) hj hproc hruns

/-- **Invariants of runs**, for an invariant that rests on others already proved of every run. -/
theorem run_rule {Q : System → Prop} (h0 : Q (Sys.start w (js.map (Job.prog D))))
    (hstep : ∀ (ys : List (Nat × Choice)) (i : Nat) (c : Choice) (o : Op) (k : o.Ans → Svc Outcome)
      (j : Job), Q (run D w js ys) → js[i]? = some j →
      JobCall D j (callsOf i (run D w js ys).hist) o → Q ((run D w js ys).after D i c o k))
    (xs : List (Nat × Choice)) : Q (run D w js xs) := by
  refine guarded_rule D w js (fun _ _ _ => False) h0 ?_ fun _ _ _ _ _ h => h
  intro ys i c o k j hQ _ hj _ hruns
  exact hstep ys i c o k j hQ hj (Job.next hruns)

end

end System

/-! ## What a call does to the world -/

/-- **Tables.**  Only `Insert`, `UpdateStatus` and `UpdateCheckout` change a table: by one
fresh row in one pool, or in the rows of one order in one pool. -/
theorem exec_pools_cases (D : Deployment) (o : Op) (c : Choice) (w : World) :
    (exec D o c w).2.pools = w.pools ∨
    (∃ t r p, o = .insert t ∧ D.row c.now t = .ok r ∧ D.router.forIndex t.shardIndex = .ok p ∧
      (∀ y ∈ w.pools p, y.transactionID ≠ r.transactionID) ∧
      (exec D o c w).2.pools = Function.update w.pools p (w.pools p ++ [r])) ∨
    (∃ i m oid f p,
      ((∃ st pi, o = .updateStatus i m oid st pi ∧ f = TransactionRepo.setStatus c.now st pi) ∨
        ∃ sess pi, o = .updateCheckout i m oid sess pi ∧
          f = TransactionRepo.setCheckout c.now sess pi) ∧
      D.router.forIndex i = .ok p ∧ ValidOrderID oid ∧ c.fault = none ∧
      (exec D o c w).2.pools =
        Function.update w.pools p (updateWhere (D.ofOrder m oid) f (w.pools p))) := by
  have heff := exec_effect D o c w
  generalize (exec D o c w).2 = w' at heff ⊢
  cases heff with
  | insert t =>
    rcases D.insert_cases c.now c.fault t w.pools with
      ⟨r, p, hr, hp, -, hne, he⟩ | ⟨r, p, -, -, -, -, he⟩ | ⟨e, -, he⟩
    · exact .inr (.inl ⟨t, r, p, rfl, hr, hp, hne, by rw [he]⟩)
    · exact .inl (by rw [he])
    · exact .inl (by rw [he])
  | updateStatus i m oid st pi =>
    unfold TransactionRepo.updateStatus
    rcases D.updateOrder_cases (bytes "update status: ") c.fault i m oid
      (TransactionRepo.setStatus c.now st pi) w.pools with ⟨p, hp, hv, hf, -, he⟩ | ⟨e, he⟩
    · exact .inr (.inr ⟨i, m, oid, _, p, .inl ⟨st, pi, rfl, rfl⟩, hp, hv, hf, by rw [he]⟩)
    · exact .inl (by rw [he])
  | updateCheckout i m oid sess pi =>
    unfold TransactionRepo.updateCheckout
    rcases D.updateOrder_cases (bytes "update checkout: ") c.fault i m oid
      (TransactionRepo.setCheckout c.now sess pi) w.pools with ⟨p, hp, hv, hf, -, he⟩ | ⟨e, he⟩
    · exact .inr (.inr ⟨i, m, oid, _, p, .inr ⟨sess, pi, rfl, rfl⟩, hp, hv, hf, by rw [he]⟩)
    · exact .inl (by rw [he])
  | _ => exact .inl rfl

/-- The other calls leave the tables alone. -/
theorem exec_pools_same {D : Deployment} {o : Op} (hins : ∀ t, o ≠ .insert t)
    (hstatus : ∀ x m oid st pi, o ≠ .updateStatus x m oid st pi)
    (hcheckout : ∀ x m oid sess pi, o ≠ .updateCheckout x m oid sess pi) (c : Choice) (w : World) :
    (exec D o c w).2.pools = w.pools := by
  rcases exec_pools_cases D o c w with
    he | ⟨t, r, p, ho, -⟩ | ⟨x, m, oid, f, p, ⟨st, pi, ho, -⟩ | ⟨sess, pi, ho, -⟩, -⟩
  · exact he
  · exact absurd ho (hins t)
  · exact absurd ho (hstatus x m oid st pi)
  · exact absurd ho (hcheckout x m oid sess pi)

/-- **One row.**  A row was there before the call, or was inserted by it, or the call has written
to it. -/
theorem exec_row_cases {D : Deployment} {o : Op} {c : Choice} {w : World} {q n : Nat} {r' : Row}
    (h : ((exec D o c w).2.pools q)[n]? = some r') :
    (w.pools q)[n]? = some r' ∨
    (∃ t, o = .insert t ∧ D.row c.now t = .ok r' ∧ D.router.forIndex t.shardIndex = .ok q) ∨
    (∃ r x m oid st pi, (w.pools q)[n]? = some r ∧ o = .updateStatus x m oid st pi ∧
      (exec D (.updateStatus x m oid st pi) c w).1 = .ok () ∧ D.router.forIndex x = .ok q ∧
      D.ofOrder m oid r = true ∧ r' = TransactionRepo.setStatus c.now st pi r) ∨
    ∃ r x m oid sess pi, (w.pools q)[n]? = some r ∧ o = .updateCheckout x m oid sess pi ∧
      (exec D (.updateCheckout x m oid sess pi) c w).1 = .ok () ∧ D.router.forIndex x = .ok q ∧
      D.ofOrder m oid r = true ∧ r' = TransactionRepo.setCheckout c.now sess pi r := by
  rcases exec_pools_cases D o c w with
    he | ⟨t, x, p, rfl, hx, hp, -, he⟩ | ⟨x, m, oid, f, p, hf, hp, hv, hfault, he⟩
  · rw [he] at h
    exact .inl h
  · rw [he] at h
    by_cases hq : q = p
    · subst hq
      rw [Function.update_self, List.getElem?_append] at h
      split at h
      · exact .inl h
      · obtain rfl := List.mem_singleton.mp (List.mem_of_getElem? h)
        exact .inr (.inl ⟨t, rfl, hx, hp⟩)
    · rw [Function.update_of_ne hq] at h
      exact .inl h
  · rw [he] at h
    by_cases hq : q = p
    · subst hq
      unfold updateWhere at h
      rw [Function.update_self, List.getElem?_map, Option.map_eq_some_iff] at h
      obtain ⟨r, hr, rfl⟩ := h
      by_cases hof : D.ofOrder m oid r = true
      · simp only [if_pos hof]
        have hwritten := D.updateOrder_of_row hp hv (List.mem_of_getElem? hr) hof
        rcases hf with ⟨st, pi, rfl, rfl⟩ | ⟨sess, pi, rfl, rfl⟩
        · refine .inr (.inr (.inl ⟨r, x, m, oid, st, pi, hr, rfl, ?_, hp, hof, rfl⟩))
          simp only [exec, TransactionRepo.updateStatus, hfault, hwritten]
        · refine .inr (.inr (.inr ⟨r, x, m, oid, sess, pi, hr, rfl, ?_, hp, hof, rfl⟩))
          simp only [exec, TransactionRepo.updateCheckout, hfault, hwritten]
      · simp only [if_neg hof]
        exact .inl hr
    · rw [Function.update_of_ne hq] at h
      exact .inl h

/-! ### What the statements keep

`Insert` adds a row; `UpdateStatus` and `UpdateCheckout` change its status and what Stripe calls it,
and neither takes a session or a payment intent away. -/

/-- The row is the same payment still, and knows what Stripe calls it if it has known it. -/
structure RowKept (r r' : Row) : Prop where
  facts : r'.facts = r.facts
  session : stringOf r.stripeSession ≠ [] → stringOf r'.stripeSession ≠ []
  intent : stringOf r.stripePiID ≠ [] → stringOf r'.stripePiID ≠ []

theorem RowKept.refl (r : Row) : RowKept r r := ⟨rfl, id, id⟩

theorem RowKept.trans {r r' r'' : Row} (h : RowKept r r') (h' : RowKept r' r'') : RowKept r r'' :=
  ⟨h'.facts.trans h.facts, fun hs => h'.session (h.session hs), fun hi => h'.intent (h.intent hi)⟩

/-- `COALESCE` does not empty a column. -/
theorem coalesce_ne_nil {s : Str} {old : Option Str} (h : stringOf old ≠ []) :
    stringOf (coalesce s old) ≠ [] := by
  unfold coalesce
  split
  · exact h
  · next hs => exact hs

theorem rowKept_setStatus (now : Time) (st : TransactionStatus) (piID : Str) (r : Row) :
    RowKept r (TransactionRepo.setStatus now st piID r) :=
  ⟨rfl, id, coalesce_ne_nil⟩

theorem rowKept_setCheckout (now : Time) (sessionID piID : Str) (r : Row) :
    RowKept r (TransactionRepo.setCheckout now sessionID piID r) :=
  ⟨rfl, coalesce_ne_nil, coalesce_ne_nil⟩

/-- Every row of every pool is kept, in its place. -/
def RowsKept (pools pools' : Pools) : Prop :=
  ∀ (q n : Nat) (r : Row), (pools q)[n]? = some r → ∃ r', (pools' q)[n]? = some r' ∧ RowKept r r'

theorem RowsKept.refl (pools : Pools) : RowsKept pools pools :=
  fun _ _ r hr => ⟨r, hr, .refl r⟩

theorem RowsKept.trans {pools pools' pools'' : Pools} (h : RowsKept pools pools')
    (h' : RowsKept pools' pools'') : RowsKept pools pools'' := by
  intro q n r hr
  obtain ⟨r', hr', hkept⟩ := h q n r hr
  obtain ⟨r'', hr'', hkept'⟩ := h' q n r' hr'
  exact ⟨r'', hr'', hkept.trans hkept'⟩

theorem RowsKept.exists_of_mem {pools pools' : Pools} (h : RowsKept pools pools') {q : Nat}
    {r : Row} (hr : r ∈ pools q) : ∃ r' ∈ pools' q, r'.facts = r.facts := by
  obtain ⟨n, hn⟩ := List.mem_iff_getElem?.mp hr
  obtain ⟨r', hr', hkept⟩ := h q n r hn
  exact ⟨r', List.mem_of_getElem? hr', hkept.facts⟩

/-- **One call.** -/
theorem exec_rowsKept (D : Deployment) (o : Op) (c : Choice) (w : World) :
    RowsKept w.pools (exec D o c w).2.pools := by
  rcases exec_pools_cases D o c w with h | ⟨t, x, p, -, -, -, -, h⟩ | ⟨i, m, oid, f, p, hf, -, -, -, h⟩
  · rw [h]
    exact .refl _
  · intro q n r hr
    rw [h]
    by_cases hq : q = p
    · subst hq
      rw [Function.update_self, List.getElem?_append_left (List.getElem?_eq_some_iff.mp hr).1]
      exact ⟨r, hr, .refl r⟩
    · rw [Function.update_of_ne hq]
      exact ⟨r, hr, .refl r⟩
  · have hkept : ∀ r, RowKept r (f r) := by
      rcases hf with ⟨st, pi, -, rfl⟩ | ⟨sess, pi, -, rfl⟩
      · exact rowKept_setStatus c.now st pi
      · exact rowKept_setCheckout c.now sess pi
    intro q n r hr
    rw [h]
    by_cases hq : q = p
    · subst hq
      unfold updateWhere
      rw [Function.update_self, List.getElem?_map, hr]
      refine ⟨_, rfl, ?_⟩
      show RowKept r (if D.ofOrder m oid r then f r else r)
      split
      · exact hkept r
      · exact .refl r
    · rw [Function.update_of_ne hq]
      exact ⟨r, hr, .refl r⟩

/-- **Rows are kept** between any two states of a run. -/
theorem rows_kept (D : Deployment) (w : World) (js : List Job) (ys zs : List (Nat × Choice)) :
    RowsKept (System.run D w js ys).world.pools (System.run D w js (ys ++ zs)).world.pools := by
  induction zs using List.reverseRecOn with
  | nil =>
    rw [List.append_nil]
    exact .refl _
  | append_singleton zs x ih =>
    rw [← List.append_assoc]
    rcases System.step_call D w js (ys ++ zs) x.1 x.2 with h | ⟨j, o, k, -, -, -, h⟩
    · rw [h]
      exact ih
    · rw [h]
      exact ih.trans (exec_rowsKept D o x.2 _)

/-! ### The other parts of the world -/

/-- **On-chain payments.**  Only `Create` and `UpdateConfirmations` change their table: by one
row with a fresh hash, or in the confirmations and the status of the rows of one hash. -/
theorem exec_onchain_cases (D : Deployment) (o : Op) (c : Choice) (w : World) :
    (exec D o c w).2.onchain = w.onchain ∨
    (∃ tx, o = .createOnchainTx tx ∧ c.fault = none ∧ outOfRangeColumn tx = none ∧
      (∀ t ∈ w.onchain, D.collation.eq t.txHash tx.txHash = false) ∧
      (exec D o c w).2.onchain = w.onchain ++ [storedTx tx]) ∨
    (∃ txHash n st, o = .updateConfirmations txHash n st ∧
      (exec D (.updateConfirmations txHash n st) c w).1 = .ok () ∧
      (exec D o c w).2.onchain = updateWhere (fun t => D.collation.eq t.txHash txHash)
        (fun t => { t with confirmations := n, status := st }) w.onchain) := by
  have heff := exec_effect D o c w
  generalize (exec D o c w).2 = w' at heff ⊢
  cases heff with
  | confirmations txHash n st =>
    rcases setConfirmations_cases D.collation c.fault txHash n st w.onchain with
      ⟨-, -, he⟩ | ⟨e, he⟩
    · exact .inr (.inr ⟨txHash, n, st, rfl, by rw [exec, he], by rw [he]⟩)
    · exact .inl (by rw [he])
  | createTx tx =>
    rcases createOnchainTx_cases D.collation c.fault tx w.onchain with
      ⟨hf, hcol, hfresh, he⟩ | ⟨-, -, -, he⟩ | ⟨-, e, he⟩
    · exact .inr (.inl ⟨tx, rfl, hf, hcol, hfresh, by rw [he]⟩)
    · exact .inl (by rw [he])
    · exact .inl (by rw [he])
  | _ => exact .inl rfl

/-- Apart from `Insert`, no call changes the facts of the stored orders. -/
theorem exec_facts (D : Deployment) {o : Op} (ho : ∀ t, o ≠ .insert t) (c : Choice) (w : World)
    (p : Nat) : ((exec D o c w).2.pools p).map Row.facts = (w.pools p).map Row.facts := by
  rcases exec_pools_cases D o c w with h | ⟨t, r, q, rfl, -⟩ | ⟨i, m, oid, f, q, hf, -, -, -, h⟩
  · rw [h]
  · exact absurd rfl (ho t)
  · have hkeep : ∀ r, (f r).facts = r.facts := by
      rcases hf with ⟨st, pi, -, rfl⟩ | ⟨sess, pi, -, rfl⟩
      · exact TransactionRepo.facts_setStatus c.now st pi
      · exact TransactionRepo.facts_setCheckout c.now sess pi
    rw [h]
    by_cases hq : p = q
    · subst hq
      rw [Function.update_self, map_updateWhere _ hkeep]
    · rw [Function.update_of_ne hq]

/-- **Stripe's sessions** change only when a request for one reaches Stripe. -/
theorem exec_sessions_cases (D : Deployment) (o : Op) (c : Choice) (w : World) :
    ((exec D o c w).2.sessions = w.sessions ∧
      ∀ req key, o = .createCheckoutSession req key → ¬ c.reaches) ∨
      ∃ req key, o = .createCheckoutSession req key ∧ c.reaches ∧
        (exec D o c w).2.sessions = (D.stripe.create req key w.sessions).2 := by
  have heff := exec_effect D o c w
  generalize (exec D o c w).2 = w' at heff ⊢
  cases heff with
  | none _ ho => exact .inl ⟨rfl, ho⟩
  | session req key hc => exact .inr ⟨req, key, rfl, hc, rfl⟩
  | _ => exact .inl ⟨rfl, fun _ _ ho => by cases ho⟩

/-- Sessions are never lost. -/
theorem exec_sessions_mono (D : Deployment) (o : Op) (c : Choice) (w : World) :
    ∀ ss ∈ w.sessions, ss ∈ (exec D o c w).2.sessions := by
  intro ss hss
  rcases exec_sessions_cases D o c w with ⟨hsame, -⟩ | ⟨req, key, -, -, hnew⟩
  · rw [hsame]
    exact hss
  · rw [hnew]
    rcases D.stripe.create_cases req key w.sessions with ⟨_, _, _, he⟩ | ⟨_, he⟩
    · rw [he]
      exact hss
    · rw [he]
      exact List.mem_append_left _ hss

/-- **The URL caches** change by a `Put` on one pod. -/
theorem exec_urlCaches_cases (D : Deployment) (o : Op) (c : Choice) (w : World) :
    (exec D o c w).2.urlCaches = w.urlCaches ∨
      ∃ pod key url, o = .cachePut pod key url ∧
        (exec D o c w).2.urlCaches = Function.update w.urlCaches pod
          ((w.urlCaches pod).put c.now (c.pick 0) key url) := by
  have heff := exec_effect D o c w
  generalize (exec D o c w).2 = w' at heff ⊢
  cases heff with
  | cachePut pod key url => exact .inr ⟨pod, key, url, rfl, rfl⟩
  | _ => exact .inl rfl

/-- **Redis** changes by `SETNX`, of a dedupe key or of a lock, and by the release of a lock. -/
theorem exec_redis_cases (D : Deployment) (o : Op) (c : Choice) (w : World) :
    (exec D o c w).2.redis = w.redis ∨
      (∃ key value ttl, o = .setNX key value ttl ∧
        (exec D o c w).2.redis = (w.redis.setNX c.now key value ttl).2) ∨
      (∃ key ttl token, o = .acquire key ttl ∧
        (exec D o c w).2.redis = (w.redis.setNX c.now (bytes "lock:" ++ key) token ttl).2) ∨
      ∃ lock, o = .release lock ∧
        (exec D o c w).2.redis = w.redis.release c.now lock.key lock.token := by
  have heff := exec_effect D o c w
  generalize (exec D o c w).2 = w' at heff ⊢
  cases heff with
  | setNX key value ttl => exact .inr (.inl ⟨key, value, ttl, rfl, rfl⟩)
  | acquire key ttl => exact .inr (.inr (.inl ⟨key, ttl, _, rfl, rfl⟩))
  | release lock => exact .inr (.inr (.inr ⟨lock, rfl, rfl⟩))
  | _ => exact .inl rfl

/-- **Merchants** come with their onboarding. -/
theorem exec_merchants (D : Deployment) {o : Op} (ho : ∀ m, o ≠ .insertMerchant m) (c : Choice)
    (w : World) : (exec D o c w).2.merchants = w.merchants := by
  have heff := exec_effect D o c w
  generalize (exec D o c w).2 = w' at heff ⊢
  cases heff with
  | insertMerchant m => exact absurd rfl (ho m)
  | _ => rfl

/-- The merchants are the same in every state of a run. -/
theorem System.run_merchants (D : Deployment) (w : World) (js : List Job)
    (xs : List (Nat × Choice)) : (run D w js xs).world.merchants = w.merchants := by
  refine invariant D w js (Q := fun S => S.world.merchants = w.merchants) rfl ?_ xs
  intro S i c o k j hS _ hcall
  show (exec D o c S.world).2.merchants = w.merchants
  rw [exec_merchants D ?_ c S.world, hS]
  rintro m rfl
  exact hcall.not_insertMerchant

/-- **Events** are published by the publisher. -/
theorem exec_published_cases (D : Deployment) (o : Op) (c : Choice) (w : World) :
    (exec D o c w).2.published = w.published ∨
      ∃ event, o = .publishPaymentConfirmed event ∧
        (exec D o c w).2.published = w.published ++ [event] := by
  have heff := exec_effect D o c w
  generalize (exec D o c w).2 = w' at heff ⊢
  cases heff with
  | publish event => exact .inr ⟨event, rfl, rfl⟩
  | _ => exact .inl rfl

/-- The event a call has published. -/
def publishedStep : Prog.Step gateway → Option PaymentConfirmedEvent
  | ⟨.publishPaymentConfirmed event, .ok _⟩ => some event
  | _ => none

theorem publishedStep_of_other {o : Op} {a : o.Ans} (h : ∀ event, o ≠ .publishPaymentConfirmed event) :
    publishedStep (o.gave a) = none := by
  cases o with
  | publishPaymentConfirmed event => exact absurd rfl (h event)
  | _ => rfl

theorem publishedStep_some {x : Prog.Step gateway} {event : PaymentConfirmedEvent}
    (h : publishedStep x = some event) :
    x = (Op.publishPaymentConfirmed event).gave (.ok ()) := by
  unfold publishedStep at h
  split at h
  · cases h
    rfl
  · cases h

/-- **The published events** are those of the calls that were answered so. -/
theorem published_history (D : Deployment) (w : World) (js : List Job) (xs : List (Nat × Choice)) :
    (System.run D w js xs).world.published =
      w.published ++ ((System.run D w js xs).hist.map Event.step).filterMap publishedStep := by
  refine System.invariant D w js (Q := fun S => S.world.published =
    w.published ++ (S.hist.map Event.step).filterMap publishedStep) (by simp [Sys.start]) ?_ xs
  intro S i c o k j hS _ _
  show (exec D o c S.world).2.published = w.published ++
    ((S.hist ++ [(⟨i, c, o, (exec D o c S.world).1⟩ : CallEvent)]).map Event.step).filterMap
      publishedStep
  rw [List.map_append, List.filterMap_append, ← List.append_assoc, ← hS]
  by_cases ho : ∃ event, o = .publishPaymentConfirmed event
  · obtain ⟨event, rfl⟩ := ho
    cases hf : c.fault with
    | none => simp [exec, hf, Event.step, publishedStep]
    | some f => simp [exec, hf, Event.step, publishedStep]
  · have hne : ∀ event, o ≠ .publishPaymentConfirmed event := fun event h => ho ⟨event, h⟩
    have hnone := publishedStep_of_other (a := (exec D o c S.world).1) hne
    rcases exec_published_cases D o c S.world with he | ⟨event, rfl, -⟩
    · rw [he]
      show _ = _ ++ [o.gave (exec D o c S.world).1].filterMap publishedStep
      rw [List.filterMap_cons_none hnone, List.filterMap_nil, List.append_nil]
    · exact absurd rfl (hne event)

/-- An event was there at the start, or has been published by a job. -/
theorem mem_published {D : Deployment} {w : World} {js : List Job} {xs : List (Nat × Choice)}
    {ev : PaymentConfirmedEvent} :
    ev ∈ (System.run D w js xs).world.published ↔
      ev ∈ w.published ∨ ∃ i, (Op.publishPaymentConfirmed ev).gave (.ok ()) ∈
        callsOf i (System.run D w js xs).hist := by
  rw [published_history, List.mem_append, List.mem_filterMap]
  refine or_congr Iff.rfl ⟨?_, ?_⟩
  · rintro ⟨x, hx, hpublished⟩
    obtain ⟨e, he, hstep⟩ := List.mem_map.mp hx
    rw [publishedStep_some hpublished] at hstep
    exact ⟨e.pid, mem_callsOf.mpr ⟨e, he, rfl, hstep⟩⟩
  · rintro ⟨i, hmem⟩
    obtain ⟨e, he, -, hstep⟩ := mem_callsOf.mp hmem
    exact ⟨_, List.mem_map.mpr ⟨e, he, hstep⟩, rfl⟩

/-- **The cursors** change by a `Set`, of one chain. -/
theorem exec_cursors_cases (D : Deployment) (o : Op) (c : Choice) (w : World) :
    (exec D o c w).2.cursors = w.cursors ∨
      ∃ chainID block, o = .cursorSet chainID block ∧
        (exec D o c w).2.cursors = Function.update w.cursors chainID (some block) := by
  have heff := exec_effect D o c w
  generalize (exec D o c w).2 = w' at heff ⊢
  cases heff with
  | cursor chainID block =>
    unfold setCursor
    split
    · exact .inl rfl
    · split
      · exact .inr ⟨chainID, block, rfl, rfl⟩
      · exact .inl rfl
  | _ => exact .inl rfl

/-- **Acquire** finds the key taken, or sets it to a token of its own. -/
theorem exec_acquire_cases (D : Deployment) (key : Str) (ttl : Time) {c : Choice}
    (hfault : c.fault = none) (w : World) :
    ((w.redis.get c.now (bytes "lock:" ++ key)).isSome = true ∧
      exec D (.acquire key ttl) c w =
        (.error (.of .lockNotAcquired), { w with tokens := w.tokens + 1 })) ∨
    (w.redis.get c.now (bytes "lock:" ++ key) = none ∧
      exec D (.acquire key ttl) c w =
        (.ok ⟨bytes "lock:" ++ key, formatNat w.tokens⟩,
          { w with
            redis := AList.insert (bytes "lock:" ++ key) ⟨formatNat w.tokens, c.now + ttl⟩ w.redis
            tokens := w.tokens + 1 })) := by
  simp only [exec, hfault]
  rcases Redis.setNX_eq c.now (bytes "lock:" ++ key) (formatNat w.tokens) ttl w.redis with
    ⟨h, hget⟩ | ⟨h, hget⟩
  · exact .inl ⟨hget, by simp [h]⟩
  · exact .inr ⟨hget, by simp [h]⟩

/-- The key of an acquired lock is marked as one. -/
theorem exec_acquire_key {D : Deployment} {key : Str} {ttl : Time} {c : Choice} {w : World}
    {lock : Lock} (h : (exec D (.acquire key ttl) c w).1 = .ok lock) :
    lock.key = bytes "lock:" ++ key := by
  cases hfault : c.fault with
  | some f =>
    simp only [exec, hfault] at h
    cases h
  | none =>
    rcases exec_acquire_cases D key ttl hfault w with ⟨-, he⟩ | ⟨-, he⟩
    · rw [he] at h
      cases h
    · rw [he] at h
      cases h
      rfl

/-! ## A deployment to run the model on

One pool, ASCII strings, and sessions numbered in order.  The text of an address is right for
addresses without a letter, to which the checksum adds no capitals. -/

theorem formatNat_injective {n k : Nat} (h : formatNat n = formatNat k) : n = k := by
  have hn := parseNat_formatNat n
  rw [h, parseNat_formatNat] at hn
  exact (Option.some.inj hn).symm

def Stripe.numbered : Stripe where
  mint n :=
    { id := bytes "cs_" ++ formatNat n
      url := checkoutBase ++ (bytes "cs_" ++ formatNat n)
      paymentIntentID := bytes "pi_" ++ formatNat n
      clientSecret := bytes "secret" }
  mint_injective := by
    intro n k h
    exact formatNat_injective (List.append_cancel_left h)
  page url := some (url.drop checkoutBase.length)
  page_url := by
    intro n
    rw [List.drop_left]
  page_id := by
    intro n
    rw [List.drop_left]

def Deployment.sample (C : Collation) : Deployment where
  unicode := Unicode.ascii
  collation := C
  router := Router.single
  stripe := Stripe.numbered
  sha256 := Sha256.sha256
  sha256_length := Sha256.sha256_length
  hmacSHA256 := Sha256.hmac
  hmacSHA256_length := Sha256.hmac_length
  addressHex a := bytes "0x" ++ hexEncode a.data

/-- Two pools, one for each of two shards. -/
def Deployment.twoPools : Deployment :=
  { Deployment.sample .binary with router := ⟨2, 2, by decide, by decide, by decide⟩ }

def Merchant.named (id : Str) : Merchant :=
  { merchantID := id
    name := id
    apiKey := id
    secretKey := []
    callbackURL := []
    rateLimit := 1000
    status := .active
    shardIndex := 0 }

def Merchant.onShard (id : Str) (shardIndex : UInt8) : Merchant :=
  { Merchant.named id with shardIndex := shardIndex }

def World.fresh (merchants : List Merchant) : World where
  pools _ := []
  merchants := merchants
  redis := ∅
  tokens := 0
  urlCaches _ := URLCache.new 16 (5 * second)
  sessions := []
  published := []
  onchain := []
  cursors _ := none

/-- A service in eager or in lazy mode, with everything else left at its default. -/
def PaymentService.mode (lazyCheckout : Bool) : PaymentService :=
  newPaymentService
    { currency := bytes "usd"
      cryptoContract := bytes "0xc0"
      cryptoChainID := 1
      lazyCheckout := lazyCheckout
      publicBaseURL := bytes "https://pay.example"
      checkoutSecret := []
      checkoutTokenTTL := 0
      defaultSuccessURL := bytes "https://shop.example/ok"
      defaultCancelURL := [] }

/-- A card payment of `M` with no further wishes. -/
def CreatePaymentInput.card (M : Merchant) (orderID : Str) (amount : Int64) : CreatePaymentInput :=
  { merchant := some M
    orderID := orderID
    amount := amount
    currency := []
    paymentMethodTypes := []
    customerEmail := []
    successURL := []
    cancelURL := []
    method := [] }

/-- Job `i` makes its next `n` calls, and nothing goes wrong. -/
def steps (i n : Nat) : List (Nat × Choice) := List.replicate n (i, {})

/-- A resolver with a URL cache and no token bucket. -/
def CheckoutResolver.onPod (pod : Nat) : CheckoutResolver :=
  { pod := pod
    hasURLCache := true
    hasBucket := false
    defaultSuccessURL := bytes "https://shop.example/ok"
    defaultCancelURL := [] }

/-- A Stripe object that carries the ids of an order. -/
def StripeObject.ofOrder (id object paymentIntent m o : Str) : StripeObject :=
  { id := id
    object := object
    metadata := [(bytes "merchant_id", m), (bytes "order_id", o)]
    paymentIntent := paymentIntent
    refunded := false }

def jsonString (s : Str) : Str := bytes "\"" ++ s ++ bytes "\""

/-- The JSON of an object none of whose texts needs an escape. -/
def StripeObject.json (o : StripeObject) : Str :=
  bytes "\x7b\"id\":" ++ jsonString o.id ++ bytes ",\"object\":" ++ jsonString o.object ++
    bytes ",\"metadata\":\x7b" ++
    [44].intercalate (o.metadata.map fun p => jsonString p.1 ++ bytes ":" ++ jsonString p.2) ++
    bytes "\x7d,\"payment_intent\":" ++
    (if o.paymentIntent = [] then bytes "null" else jsonString o.paymentIntent) ++
    bytes ",\"refunded\":" ++ (if o.refunded then bytes "true" else bytes "false") ++ bytes "\x7d"

def StripeEvent.json (e : StripeEvent) : Str :=
  bytes "\x7b\"id\":" ++ jsonString e.id ++ bytes ",\"type\":" ++ jsonString e.type ++
    bytes ",\"data\":\x7b\"object\":" ++ e.data ++ bytes "\x7d\x7d"

/-- An event about an object. -/
def StripeObject.event (o : StripeObject) (id type : Str) : StripeEvent := ⟨id, type, o.json⟩

/-- The payment intent of an order. -/
def intentObject : StripeObject :=
  .ofOrder (bytes "pi_1") (bytes "payment_intent") [] (bytes "m1") (bytes "o-1")

def succeededEvent : StripeEvent :=
  intentObject.event (bytes "evt_1") (bytes "payment_intent.succeeded")

/-- 14 November 2023. -/
def deliveryTime : Time := (62135596800 + 1700000000) * second

/-- A decoder that knows one text. -/
def decodeOnly {α : Type} (text : Str) (a : α) (s : Str) : Res α :=
  if s = text then .ok a else .error (.new (bytes "invalid JSON"))

theorem decodeOnly_self {α : Type} (text : Str) (a : α) : decodeOnly text a text = .ok a :=
  if_pos rfl

/-- A webhook service with the signature check of the Stripe client.  Of the JSON decoders it
has what they make of one event and its object. -/
def WebhookService.live (e : StripeEvent) (o : StripeObject) : WebhookService where
  verifyWebhookSignature :=
    verifyAndConstructEvent Sha256.hmac (decodeOnly e.json e) deliveryTime
  unmarshal := decodeOnly e.data o
  webhookSecret := bytes "whsec_test"

/-- The header of a delivery that is signed as it arrives. -/
def StripeEvent.signature (e : StripeEvent) : Str :=
  signPayload Sha256.hmac e.json (bytes "whsec_test") (unix deliveryTime)

def Job.deliver (e : StripeEvent) (o : StripeObject) : Job :=
  .process (.live e o) e.json e.signature

/-- The signature of a delivery is right. -/
theorem WebhookService.verify_live (e : StripeEvent) (o : StripeObject) :
    (live e o).verifyWebhookSignature e.json e.signature (live e o).webhookSecret = .ok e := by
  have hsecret : bytes "whsec_test" ≠ [] := by decide
  have hts : unix deliveryTime ≠ 0 := by decide
  have hnow : abs64 (unix deliveryTime - unix deliveryTime) ≤ defaultTolerance := by decide
  unfold live StripeEvent.signature verifyAndConstructEvent
  simp only
  exact verifyWithTolerance_signPayload Sha256.hmac (decodeOnly e.json e) e.json hsecret hts hnow
    (decodeOnly_self _ _)

theorem WebhookService.decodeStripeObject_live (e : StripeEvent) (o : StripeObject) :
    (live e o).decodeStripeObject e = .ok o := by
  have hdecode : (live e o).unmarshal e.data = .ok o := decodeOnly_self _ _
  unfold decodeStripeObject
  rw [hdecode]

/-- A service that has checked and decoded everything already. -/
def WebhookService.decoded (e : StripeEvent) (o : StripeObject) : WebhookService where
  verifyWebhookSignature _ _ _ := .ok e
  unmarshal _ := .ok o
  webhookSecret := []

/-- A delivery does what its event and object say. -/
theorem Job.prog_deliver (D : Deployment) (e : StripeEvent) (o : StripeObject) :
    (Job.deliver e o).prog D = (Job.process (.decoded e o) [] []).prog D := by
  have hprocess : (WebhookService.live e o).process e.json e.signature =
      (WebhookService.decoded e o).process [] [] :=
    WebhookService.process_congr (WebhookService.verify_live e o) rfl
      (WebhookService.decodeStripeObject_live e o)
  show (WebhookService.live e o).process e.json e.signature >>= _ = _
  rw [hprocess]
  rfl

/-- An order that waits for its payment. -/
def Row.sample : Row :=
  { transactionID := List.replicate 16 0
    merchantID := bytes "m1"
    orderID := bytes "o-1"
    amount := 100
    currencyCode := 840
    status := statusPending
    paymentMethod := 0
    stripePiID := none
    stripeSession := none
    createdAt := 0
    updatedAt := 0
    transactionID_length := by decide
    merchantID_length := by decide
    orderID_valid := by decide
    currency_known := by decide
    status_known := by decide }

/-- A world with this one order in every pool. -/
def World.oneOrder : World :=
  { World.fresh [.named (bytes "m1")] with pools := fun _ => [Row.sample] }

/-- Another order of the same merchant. -/
def Row.another : Row :=
  { Row.sample with
    transactionID := List.replicate 16 1
    orderID := bytes "o-2"
    transactionID_length := by decide
    orderID_valid := by decide }

def World.twoOrders : World :=
  { World.oneOrder with pools := fun _ => [Row.sample, Row.another] }

def ChainConfig.sample : ChainConfig :=
  { chainID := 1
    contractAddress := bytesToAddress (List.replicate 20 0x22)
    requiredConfirmations := 12
    startBlock := 1
    eventTopic := Hash.zero }

/-- `n` as a 32-byte big-endian word. -/
def wordOf (n : Nat) : Hash :=
  ⟨(List.range 32).reverse.map fun i => (n / 256 ^ i % 256).toUInt8, by simp⟩

/-- The log of a payment in transaction number `tx`; the address of the payer is 1, that of the
token 2. -/
def Log.payment (tx : Nat) (blockNumber : UInt64) (orderID : Str) (amount : Nat) : Log :=
  { address := ChainConfig.sample.contractAddress
    topics := [wordOf 7, wordOf (setBytes orderID), wordOf 1]
    data := (wordOf 2).data ++ (wordOf amount).data
    blockNumber := blockNumber
    txHash := wordOf tx }

/-- The payments of the two orders, in two transactions. -/
def firstPayment : Log := .payment 1 100 (bytes "o-1") 100

def otherPayment : Log := .payment 2 101 (bytes "o-2") 100

/-- The row of a payment of the order above, recorded in block 100. -/
def OnchainTransaction.sample : OnchainTransaction :=
  { txHash := (wordOf 1).hex
    blockNumber := 100
    merchantID := bytes "m1"
    orderID := bytes "o-1"
    payer := []
    token := []
    amount := some 100
    chainID := ChainConfig.sample.chainID
    confirmations := 0
    requiredConfirm := ChainConfig.sample.requiredConfirmations
    status := .pending }

/-- The order, and its payment. -/
def World.onePayment : World := { World.oneOrder with onchain := [.sample] }

/-- Deliver a log to the subscriber. -/
def Job.socket (lg : Log) : Job := .listen (.handleLog ⟨ChainConfig.sample⟩ lg)

/-- A tick of the backfill. -/
def Job.backfill : Job := .listen (.backfill (newBackfillScanner ChainConfig.sample) 10)

/-- A tick of the confirmation tracker. -/
def Job.track : Job := .confirm ⟨ChainConfig.sample.chainID, 100⟩

/-- A tick of the chain reconciler. -/
def Job.recheck : Job := .listen (.recheck ⟨ChainConfig.sample.chainID, 500⟩)

/-- Block 112 is the head, and the payment is in block 100. -/
def Choice.onChain : Choice := { head := 112, receipt := some ⟨1, 100⟩ }

end EasyPay
