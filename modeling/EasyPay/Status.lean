import EasyPay.System

/-!
# The status of an order

The webhook handlers, the reconciler and the confirmation tracker all write the status of an
order with `UpdateStatus`, which does not look at the status that is there.  Stripe delivers
events in any order, and the reconciler acts on a snapshot.

* `exec_statusKept`: which calls can make the status of an order fall back.
* `JobCall.reports`: a writer writes the status it was last told, by the event or by Stripe.
* `status_kept_iff`: in a run no order falls back from `refunded` or `paid`, exactly when no
  writer is told `failed` or `paid` too late.
-/

namespace EasyPay

open GoStrings Tables Ports

/-! ## Rows that do not fall back -/

/-- A refunded order is still refunded, a paid one is paid or refunded. -/
def NoRegress (r r' : Row) : Prop :=
  (r.status = statusRefunded → r'.status = statusRefunded) ∧
    (r.status = statusPaid → r'.status = statusPaid ∨ r'.status = statusRefunded)

theorem NoRegress.of_status_eq {r r' : Row} (h : r'.status = r.status) : NoRegress r r' := by
  constructor
  · intro hr
    rw [h, hr]
  · intro hr
    rw [h, hr]
    exact .inl rfl

theorem NoRegress.trans {r r' r'' : Row} (h : NoRegress r r') (h' : NoRegress r' r'') :
    NoRegress r r'' := by
  refine ⟨fun hr => h'.1 (h.1 hr), fun hr => ?_⟩
  rcases h.2 hr with hp | href
  · exact h'.2 hp
  · exact .inr (h'.1 href)

/-- Every stored order is still there, and its status has not fallen back. -/
def StatusKept (db db' : Pools) : Prop :=
  ∀ (p n : Nat) (r : Row), (db p)[n]? = some r →
    ∃ r', (db' p)[n]? = some r' ∧ r'.facts = r.facts ∧ NoRegress r r'

theorem StatusKept.refl (db : Pools) : StatusKept db db := by
  intro p n r hr
  exact ⟨r, hr, rfl, .of_status_eq rfl⟩

theorem StatusKept.trans {db db' db'' : Pools} (h : StatusKept db db')
    (h' : StatusKept db' db'') : StatusKept db db'' := by
  intro p n r hr
  obtain ⟨r', hr', hf, hn⟩ := h p n r hr
  obtain ⟨r'', hr'', hf', hn'⟩ := h' p n r' hr'
  exact ⟨r'', hr'', hf'.trans hf, hn.trans hn'⟩

/-- A new row leaves the others alone. -/
theorem statusKept_append (db : Pools) (p : Nat) (r : Row) :
    StatusKept db (Function.update db p (db p ++ [r])) := by
  intro q n y hy
  refine ⟨y, ?_, rfl, .of_status_eq rfl⟩
  by_cases hq : q = p
  · subst hq
    rw [Function.update_self, List.getElem?_append_left (List.getElem?_eq_some_iff.mp hy).1]
    exact hy
  · rw [Function.update_of_ne hq]
    exact hy

/-- An update keeps the statuses if it does so in the rows it changes. -/
theorem statusKept_updateWhere {db : Pools} {p : Nat} {cond : Row → Bool} {f : Row → Row}
    (hf : ∀ r, (f r).facts = r.facts) :
    StatusKept db (Function.update db p (updateWhere cond f (db p))) ↔
      ∀ r ∈ db p, cond r = true → NoRegress r (f r) := by
  have hget : ∀ n : Nat, (updateWhere cond f (db p))[n]? =
      (db p)[n]?.map fun r => if cond r then f r else r := by
    intro n
    unfold updateWhere
    rw [List.getElem?_map]
  constructor
  · intro h r hr hc
    obtain ⟨n, hn⟩ := List.mem_iff_getElem?.mp hr
    obtain ⟨r', hr', -, hkept⟩ := h p n r hn
    rw [Function.update_self, hget, hn, Option.map_some, if_pos hc] at hr'
    rwa [← Option.some.inj hr'] at hkept
  · intro h q n r hr
    by_cases hq : q = p
    · subst hq
      refine ⟨if cond r then f r else r, by rw [Function.update_self, hget, hr]; rfl, ?_⟩
      by_cases hc : cond r = true
      · rw [if_pos hc]
        exact ⟨hf r, h r (List.mem_of_getElem? hr) hc⟩
      · rw [if_neg hc]
        exact ⟨rfl, .of_status_eq rfl⟩
    · rw [Function.update_of_ne hq]
      exact ⟨r, hr, rfl, .of_status_eq rfl⟩

/-! ## What a writer was told -/

/-- The order is past what is told about it. -/
def Outdated (st : TransactionStatus) (r : Row) : Prop :=
  (st = .failed ∧ (r.status = statusPaid ∨ r.status = statusRefunded)) ∨
    (st = .paid ∧ r.status = statusRefunded)

/-- What the writer was told last: by its event, by Stripe, or by the chain. -/
inductive Reports : Job → Calls → TransactionStatus → Prop
  | event {s : WebhookService} {payload sig : Str} {e : StripeEvent} {t : Calls}
      {st : TransactionStatus} : s.verifyWebhookSignature payload sig s.webhookSecret = .ok e →
      e.kind.status = some st → Reports (.process s payload sig) t st
  | succeeded {r : OrderReconciliation} {t : Calls} :
      OrderReconciliation.LastVerdict .paid t → Reports (.reconcile r) t .paid
  | canceled {r : OrderReconciliation} {t : Calls} :
      OrderReconciliation.LastVerdict .failed t → Reports (.reconcile r) t .failed
  | onchain {c : ConfirmationTracker} {t : Calls} : Reports (.confirm c) t .paid

/-- It was told one thing. -/
theorem Reports.unique {j : Job} {t : Calls} {st st' : TransactionStatus} (h : Reports j t st)
    (h' : Reports j t st') : st = st' := by
  have hverdict : ∀ {v v'}, OrderReconciliation.LastVerdict v t →
      OrderReconciliation.LastVerdict v' t → v = v' := by
    rintro v v' ⟨t₁, id, pi, rfl, hv⟩ ⟨t₂, id', pi', ht, hv'⟩
    have hlast := (List.append_inj_right' ht rfl)
    cases hlast
    exact hv.symm.trans hv'
  cases h with
  | event he hst =>
    cases h' with
    | event he' hst' =>
      cases he.symm.trans he'
      exact Option.some.inj (hst.symm.trans hst')
  | succeeded hv =>
    cases h' with
    | succeeded _ => rfl
    | canceled hv' => cases hverdict hv hv'
  | canceled hv =>
    cases h' with
    | succeeded hv' => cases hverdict hv hv'
    | canceled _ => rfl
  | onchain =>
    cases h'
    rfl

/-- **The writers.**  Every writer writes what it was told last. -/
theorem JobCall.reports {D : Deployment} {j : Job} {t : Calls} {x : UInt8} {m o pi : Str}
    {st : TransactionStatus} (h : JobCall D j t (.updateStatus x m o st pi)) : Reports j t st := by
  cases h with
  | create _ hc => cases hc
  | resolve hr => cases hr
  | @handle s payload sig e t op k he hr =>
    cases s.handle_next hr with
    | write _ _ _ _ _ hst => exact .event he hst
  | reconcile hr =>
    cases hr with
    | confirm _ _ _ _ hv => exact .succeeded hv
    | fail _ _ _ _ hv => exact .canceled hv
  | confirm hc =>
    cases hc
    exact .onchain
  | listen hc => cases hc

theorem Reports.cases {j : Job} {t : Calls} {st : TransactionStatus} (h : Reports j t st) :
    st = .paid ∨ st = .failed ∨ st = .refunded := by
  cases h with
  | @event _ _ _ e _ _ _ hst =>
    cases hk : e.kind with
    | succeeded =>
      rw [hk] at hst
      exact .inl (Option.some.inj hst).symm
    | failed =>
      rw [hk] at hst
      exact .inr (.inl (Option.some.inj hst).symm)
    | refunded =>
      rw [hk] at hst
      exact .inr (.inr (Option.some.inj hst).symm)
    | dispute =>
      rw [hk] at hst
      cases hst
    | ignored =>
      rw [hk] at hst
      cases hst
  | succeeded => exact .inl rfl
  | canceled => exact .inr (.inl rfl)
  | onchain => exact .inl rfl

/-- What a writer was told makes the status fall back exactly when the order is past it. -/
theorem noRegress_setStatus_iff {j : Job} {t : Calls} {st : TransactionStatus}
    (h : Reports j t st) (now : Time) (pi : Str) (r : Row) :
    NoRegress r (TransactionRepo.setStatus now st pi r) ↔ ¬ Outdated st r := by
  have hset : (TransactionRepo.setStatus now st pi r).status = encodeStatus st := rfl
  have hpaid : statusPaid ≠ statusRefunded := by decide
  have hfailed : statusFailed ≠ statusRefunded := by decide
  have hfailed' : statusFailed ≠ statusPaid := by decide
  unfold NoRegress Outdated
  rw [hset]
  rcases h.cases with rfl | rfl | rfl
  · simp [encodeStatus, hpaid]
  · simp [encodeStatus, hfailed, hfailed', and_comm]
  · simp [encodeStatus]

/-! ## Runs in which no order falls back -/

/-- The next call of job `i` is going to write what it was told to an order that is past it. -/
def Late (D : Deployment) (js : List Job) (S : System) (i : Nat) (c : Choice) : Prop :=
  ∃ j x m o st' pi k p r st, js[i]? = some j ∧
    S.procs[i]? = some (.call (.updateStatus x m o st' pi) k) ∧ c.fault = none ∧
    ValidOrderID o ∧ D.router.forIndex x = .ok p ∧ r ∈ S.world.pools p ∧
    D.ofOrder m o r = true ∧ Reports j (callsOf i S.hist) st ∧ Outdated st r

/-- Only an `UpdateStatus` can make a status fall back. -/
theorem exec_statusKept {D : Deployment} {o : Op} {c : Choice} {w : World}
    (h : ∀ x m oid st pi p, o = .updateStatus x m oid st pi → c.fault = none → ValidOrderID oid →
      D.router.forIndex x = .ok p → ∀ r ∈ w.pools p, D.ofOrder m oid r = true →
      NoRegress r (TransactionRepo.setStatus c.now st pi r)) :
    StatusKept w.pools (exec D o c w).2.pools := by
  rcases exec_pools_cases D o c w with
    he | ⟨t, r, p, -, -, -, -, he⟩ | ⟨x, m, oid, f, p, hf, hp, hv, hfault, he⟩
  · rw [he]
    exact .refl _
  · rw [he]
    exact statusKept_append _ _ _
  · rw [he]
    rcases hf with ⟨st, pi, rfl, rfl⟩ | ⟨sess, pi, rfl, rfl⟩
    · exact (statusKept_updateWhere (TransactionRepo.facts_setStatus c.now st pi)).mpr
        (h x m oid st pi p rfl hfault hv hp)
    · exact (statusKept_updateWhere (TransactionRepo.facts_setCheckout c.now sess pi)).mpr
        fun r _ _ => .of_status_eq rfl

section
variable (D : Deployment) (w : World) (js : List Job)

/-- **One step.** -/
theorem step_statusKept_iff (ys : List (Nat × Choice)) (i : Nat) (c : Choice) :
    StatusKept (System.run D w js ys).world.pools
        (System.run D w js (ys ++ [(i, c)])).world.pools ↔
      ¬ Late D js (System.run D w js ys) i c := by
  constructor
  · rintro hkept ⟨j, x, m, o, st', pi, k, p, r, st, hj, hproc, hfault, hv, hp, hr, hof, hrep, hout⟩
    obtain ⟨⟨j', hj', hcall⟩, hrun⟩ := System.step_of_call D w js hproc c
    cases hj.symm.trans hj'
    obtain rfl := hcall.reports.unique hrep
    have hexec : (exec D (.updateStatus x m o st' pi) c (System.run D w js ys).world).2.pools =
        Function.update (System.run D w js ys).world.pools p (updateWhere (D.ofOrder m o)
          (TransactionRepo.setStatus c.now st' pi) ((System.run D w js ys).world.pools p)) := by
      simp only [exec, TransactionRepo.updateStatus, hfault, D.updateOrder_of_row hp hv hr hof]
    rw [hrun] at hkept
    have hkept : StatusKept (System.run D w js ys).world.pools
      (exec D (.updateStatus x m o st' pi) c (System.run D w js ys).world).2.pools := hkept
    rw [hexec, statusKept_updateWhere (TransactionRepo.facts_setStatus c.now st' pi)] at hkept
    exact (noRegress_setStatus_iff hrep c.now pi r).mp (hkept r hr hof) hout
  · intro hlate
    rcases System.step_call D w js ys i c with h | ⟨j, o, k, hj, hproc, hcall, h⟩
    · rw [h]
      exact .refl _
    · rw [h]
      refine exec_statusKept ?_
      rintro x m oid st pi p rfl hfault hv hp r hr hof
      rw [noRegress_setStatus_iff hcall.reports]
      intro hout
      exact hlate ⟨j, x, m, oid, st, pi, k, p, r, st, hj, hproc, hfault, hv, hp, hr, hof,
        hcall.reports, hout⟩

/-- **No order falls back** between any two states of a run, if and only if no writer of the
run is late. -/
theorem status_kept_iff (xs : List (Nat × Choice)) :
    (∀ ys ys' zs, xs = ys ++ ys' ++ zs → StatusKept (System.run D w js ys).world.pools
        (System.run D w js (ys ++ ys')).world.pools) ↔
      ∀ ys i c zs, xs = ys ++ (i, c) :: zs → ¬ Late D js (System.run D w js ys) i c := by
  have hrefl : ∀ w : World, StatusKept w.pools w.pools := fun w => .refl w.pools
  have htrans : ∀ w w' w'' : World, StatusKept w.pools w'.pools → StatusKept w'.pools w''.pools →
      StatusKept w.pools w''.pools := fun _ _ _ h h' => h.trans h'
  exact System.kept_iff D w js hrefl htrans (step_statusKept_iff D w js) xs

end

/-! ## A late failure

The customer's first attempt fails, the second succeeds, and Stripe delivers the event of the
failed attempt last. -/

def twoAttempts : List Job :=
  [.create (.mode true) (.card (.named (bytes "m1")) (bytes "o-1") 100),
   .deliver (intentObject.event (bytes "evt_2") (bytes "payment_intent.succeeded")) intentObject,
   .deliver (intentObject.event (bytes "evt_1") (bytes "payment_intent.payment_failed"))
     intentObject]

/-- The order is created, and the success is processed. -/
def success : List (Nat × Choice) :=
  steps 0 1 ++ steps 1 1 ++ [(1, { intent := ⟨bytes "pi_1", bytes "succeeded"⟩ })] ++ steps 1 5

def twoAttemptsRun (xs : List (Nat × Choice)) : System :=
  System.run (Deployment.sample .binary) (World.fresh [.named (bytes "m1")]) twoAttempts xs

theorem twoAttemptsRun_eq (xs : List (Nat × Choice)) :
    twoAttemptsRun xs =
      System.run (Deployment.sample .binary) (World.fresh [.named (bytes "m1")])
        [.create (.mode true) (.card (.named (bytes "m1")) (bytes "o-1") 100),
         .process (.decoded (intentObject.event (bytes "evt_2")
           (bytes "payment_intent.succeeded")) intentObject) [] [],
         .process (.decoded (intentObject.event (bytes "evt_1")
           (bytes "payment_intent.payment_failed")) intentObject) [] []] xs := by
  refine System.run_congr ?_ xs
  simp only [twoAttempts, List.map_cons, List.map_nil, Job.prog_deliver]

/-- A paid order becomes a failed one. -/
theorem paid_then_failed :
    ((twoAttemptsRun success).world.pools 0).map Row.status = [statusPaid] ∧
      ((twoAttemptsRun (success ++ steps 2 3)).world.pools 0).map Row.status = [statusFailed] ∧
      ¬ StatusKept (twoAttemptsRun success).world.pools
        (twoAttemptsRun (success ++ steps 2 3)).world.pools := by
  have hpaid : ((twoAttemptsRun success).world.pools 0).map Row.status = [statusPaid] := by
    rw [twoAttemptsRun_eq]
    decide +kernel
  have hfailed : ((twoAttemptsRun (success ++ steps 2 3)).world.pools 0).map Row.status =
      [statusFailed] := by
    rw [twoAttemptsRun_eq]
    decide +kernel
  refine ⟨hpaid, hfailed, fun h => ?_⟩
  obtain ⟨r, hr, hst⟩ := List.map_eq_singleton_iff.mp hpaid
  obtain ⟨r', hr', hst'⟩ := List.map_eq_singleton_iff.mp hfailed
  obtain ⟨y, hy, -, hkept⟩ := h 0 0 r (by rw [hr]; rfl)
  rw [hr'] at hy
  cases hy
  have hnow := hkept.2 hst
  rw [hst'] at hnow
  exact absurd hnow (by decide)

end EasyPay
