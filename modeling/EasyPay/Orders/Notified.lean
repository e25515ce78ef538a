import EasyPay.Onchain.Announce
import EasyPay.Orders.Facts

/-!
# Orders the merchant is not told about

The order reconciler and the confirmation tracker set an order to `paid` first and publish the
event then.  A publish that fails is not tried again, and an order that is paid is on neither's
list any more.

`paid_announced`: between ticks, every order that one of them has moved to `paid` has been
announced, if no publish for it has failed.
-/

namespace EasyPay

open GoStrings Tables Ports

/-- An event with the order's ids says that it is paid. -/
def Announced (S : System) (r : Row) : Prop :=
  ∃ ev ∈ S.world.published, ev.Announces r.merchantID r.orderID

/-- The order is on the list of the order reconciler, or a payment of it on that of the tracker. -/
def StillSelected (D : Deployment) (S : System) (r : Row) : Prop :=
  (∃ cutoff, TransactionRepo.stuck cutoff r = true) ∨
    ∃ p ∈ S.world.onchain, p.status = .pending ∧ D.collation.eq r.orderID p.orderID = true

/-- A tick of the order reconciler, or of the tracker. -/
def Job.Ticks (j : Job) : Prop := (∃ r, j = .reconcile r) ∨ ∃ c, j = .confirm c

/-- No two orders of a pool differ under the collation only. -/
def OrdersApart (D : Deployment) (pools : Pools) : Prop :=
  ∀ q, ∀ r ∈ pools q, ∀ r' ∈ pools q, D.ofOrder r.merchantID r.orderID r' = true →
    r'.merchantID = r.merchantID ∧ r'.orderID = r.orderID

/-! ## What a tick has done for an order it has paid -/

/-- The tick has read an order with these ids, and asked for its event to be published. -/
def PaidByTick (x : UInt8) (m o : Str) (t : Calls) : Prop :=
  ∃ order, order.shardIndex = x ∧ order.merchantID = m ∧ order.orderID = o ∧
    (∃ y ∈ t, HasRead order y) ∧
    ∃ ev a, (Op.publishPaymentConfirmed ev).gave a ∈ t ∧ ev.Announces m o

theorem OrderReconciliation.tick_pays (c : OrderReconciliation) {t : Calls} {res : Res Unit}
    (h : Prog.Runs c.tick t (.ret res)) {x : UInt8} {m o pi : Str}
    (hpaid : (Op.updateStatus x m o .paid pi).gave (.ok ()) ∈ t) : PaidByTick x m o t := by
  have hat : TickAt c t none := c.tick_at h
  cases hat with
  | noSnapshot now e => simp [Op.gave] at hpaid
  | @done now stuck t hall =>
    have hpaid : (Op.updateStatus x m o .paid pi).gave (.ok ()) ∈ t := by
      simpa [Op.gave] using hpaid
    obtain ⟨order, horder, t', hat, hmem, hsub⟩ := hall.exists_of_mem hpaid
    have hall : ∀ y ∈ t', y ∈ Op.timeNow.gave now ::
        (Op.getPendingBefore (now - c.stuckAfter) c.batchSize).gave (.ok stuck) :: t :=
      fun y hy => .tail _ (.tail _ (hsub hy))
    cases hat with
    | noIntent _ => cases hmem
    | unanswered e _ => simp [Op.gave] at hmem
    | undecided _ => simp [asked, Op.gave] at hmem
    | failed a _ => simp [asked, write, Op.gave] at hmem
    | unconfirmed e _ => simp [asked, write, Op.gave] at hmem
    | @announced intent now' a _ =>
      simp [asked, write, Op.gave] at hmem
      obtain ⟨rfl, rfl, rfl, rfl⟩ := hmem
      exact ⟨order, rfl, rfl, rfl, ⟨_, .tail _ (.head _), .snapshot _ _ horder⟩,
        reconciledEvent order intent now', a, hall _ (by simp), rfl, rfl, rfl⟩

theorem ConfirmationTracker.tick_pays (c : ConfirmationTracker) {t : Calls} {res : Res Unit}
    (h : Prog.Runs c.tick t (.ret res)) {x : UInt8} {m o pi : Str}
    (hpaid : (Op.updateStatus x m o .paid pi).gave (.ok ()) ∈ t) : PaidByTick x m o t := by
  have hat : TickAt c t none := c.tick_at h
  cases hat with
  | noHead e => simp [Op.gave] at hpaid
  | noList latest e => simp [Op.gave] at hpaid
  | @done latest pendings t hall =>
    have hpaid : (Op.updateStatus x m o .paid pi).gave (.ok ()) ∈ t := by
      simpa [Op.gave] using hpaid
    obtain ⟨p, hp, t', hat, hmem, hsub⟩ := hall.exists_of_mem hpaid
    have hall : ∀ y ∈ t', y ∈ Op.blockNumber.gave (.ok latest) ::
        (Op.listPendingByChain c.chainID c.batchLimit).gave (.ok pendings) :: t :=
      fun y hy => .tail _ (.tail _ (hsub hy))
    cases hat with
    | goneDone b _ => simp [Op.gave] at hmem
    | failedDone b _ => simp [Op.gave] at hmem
    | ahead _ _ => simp [Op.gave] at hmem
    | shallowDone b _ _ => simp [Op.gave] at hmem
    | deep _ _ hat =>
      cases hat with
      | unknown e => simp [Op.gave] at hmem
      | finalDone a _ => simp [found, Op.gave] at hmem
      | mismatchDone a _ => simp [found, Op.gave] at hmem
      | unconfirmed e _ => simp [found, Op.gave] at hmem
      | unpaid e _ => simp [found, marked, Op.gave] at hmem
      | @announced order now a _ =>
        simp [found, marked, paid, Op.gave] at hmem
        obtain ⟨rfl, rfl, rfl, rfl⟩ := hmem
        exact ⟨order, rfl, rfl, rfl, ⟨found p order, hall _ (by simp), .any _⟩,
          chainConfirmedEvent order now, a, hall _ (by simp), rfl, rfl, rfl⟩

theorem Job.Ticks.pays {D : Deployment} {j : Job} (hj : j.Ticks) {t : Calls} {res : Outcome}
    (h : Prog.Runs (j.prog D) t (.ret res)) {x : UInt8} {m o pi : Str}
    (hpaid : (Op.updateStatus x m o .paid pi).gave (.ok ()) ∈ t) : PaidByTick x m o t := by
  rcases hj with ⟨r, rfl⟩ | ⟨c, rfl⟩
  · obtain ⟨_, hruns, -⟩ := Prog.runs_map_ret h
    exact r.tick_pays hruns hpaid
  · obtain ⟨_, hruns, -⟩ := Prog.runs_map_ret h
    exact c.tick_pays hruns hpaid

/-! ## Between ticks -/

section
variable {D : Deployment} {w : World} {js : List Job} {xs : List (Nat × Choice)}

/-- A step that moves an order to `paid` is an `UpdateStatus` for it. -/
theorem moved_by {ys : List (Nat × Choice)} {i : Nat} {c : Choice} {q n : Nat} {r r' : Row}
    (hr : ((System.run D w js ys).world.pools q)[n]? = some r) (hopen : r.status ≠ statusPaid)
    (hr' : ((System.run D w js (ys ++ [(i, c)])).world.pools q)[n]? = some r')
    (hpaid : r'.status = statusPaid) (hjs : ∀ j ∈ js, j.Ticks) :
    ∃ x m o pi, (Op.updateStatus x m o .paid pi).gave (.ok ()) ∈
        callsOf i (System.run D w js (ys ++ [(i, c)])).hist ∧
      D.router.forIndex x = .ok q ∧ D.ofOrder m o r' = true := by
  rcases System.step_call D w js ys i c with h | ⟨j, op, k, hj, -, hcall, h⟩
  · rw [h, hr] at hr'
    cases hr'
    exact absurd hpaid hopen
  rw [h] at hr' ⊢
  rcases exec_row_cases hr' with hsame | ⟨t, rfl, -⟩ |
    ⟨y, x, m, o, st, pi, -, rfl, hok, hx, hof, rfl⟩ | ⟨y, x, m, o, sess, pi, hy, -, -, -, -, rfl⟩
  · rw [hr] at hsame
    cases hsame
    exact absurd hpaid hopen
  · obtain ⟨s, inp, M, rfl, -⟩ := hcall.insert_inv
    rcases hjs _ (List.mem_of_getElem? hj) with ⟨_, h⟩ | ⟨_, h⟩ <;> cases h
  · obtain rfl : st = .paid :=
      (eq_encodeStatus_iff (decodeStatus_encodeStatus st) .paid).mp hpaid
    exact ⟨x, m, o, pi, System.mem_callsOf_after.mpr (.inr ⟨rfl, by rw [hok]⟩), hx, hof⟩
  · cases hr.symm.trans hy
    exact absurd hpaid hopen

/-- **Paid and announced.**  Between ticks, an order that one of them has moved to `paid` has been
announced, if no publish for it has failed. -/
theorem paid_announced (hjs : ∀ j ∈ js, j.Ticks) (hapart : OrdersApart D w.pools)
    (hidle : BetweenTicks (System.run D w js xs)) {ys zs : List (Nat × Choice)} {i : Nat}
    {c : Choice} (hxs : xs = ys ++ (i, c) :: zs) {q n : Nat} {r r' : Row}
    (hr : ((System.run D w js ys).world.pools q)[n]? = some r) (hopen : r.status ≠ statusPaid)
    (hr' : ((System.run D w js (ys ++ [(i, c)])).world.pools q)[n]? = some r')
    (hpaid : r'.status = statusPaid)
    (hpublish : ∀ e ∈ (System.run D w js xs).hist, ∀ ev, e.op = .publishPaymentConfirmed ev →
      ev.Announces r'.merchantID r'.orderID → e.choice.fault = none) :
    Announced (System.run D w js xs) r' := by
  have hsplit : xs = (ys ++ [(i, c)]) ++ zs := by rw [hxs]; simp
  obtain ⟨x, m, o, pi, hcall, hx, hof⟩ := moved_by hr hopen hr' hpaid hjs
  have hcall : (Op.updateStatus x m o .paid pi).gave (.ok ()) ∈
      callsOf i (System.run D w js xs).hist := by
    rw [hsplit]
    exact System.mem_callsOf_run D w js hcall
  -- the tick that did it is through
  obtain ⟨j, -, -, hj, -⟩ := System.callsOf_runs D w js hcall
  obtain ⟨p, hp, hruns⟩ := System.run_runs D w js hj xs
  rcases hidle i p hp with hnil | ⟨res, rfl⟩
  · rw [hnil] at hcall
    cases hcall
  obtain ⟨order, rfl, rfl, rfl, ⟨y, hy, hread⟩, ev, a, hev, hann⟩ :=
    (hjs j (List.mem_of_getElem? hj)).pays hruns hcall
  -- the order it has read is the one that was moved
  have hids : r'.merchantID = order.merchantID ∧ r'.orderID = order.orderID := by
    have hno : ∀ j ∈ js, ∀ s inp, j ≠ .create s inp := by
      rintro j hj s inp rfl
      rcases hjs _ hj with ⟨_, h⟩ | ⟨_, h⟩ <;> cases h
    obtain ⟨q', -, hq', r₁, hr₁, hm₁, ho₁, -⟩ := read_kept D w js hy hread
    cases hx.symm.trans hq'
    have hstored : ∀ {zs : List (Nat × Choice)} {r : Row}, r ∈ (System.run D w js zs).world.pools q →
        ∃ r₀ ∈ w.pools q, r₀.facts = r.facts := by
      intro zs r hr
      rw [← List.mem_map, ← facts_kept hno zs q]
      exact List.mem_map_of_mem hr
    obtain ⟨r₂, hr₂, hfacts₂⟩ := hstored hr₁
    obtain ⟨r₃, hr₃, hfacts₃⟩ := hstored (List.mem_of_getElem? hr')
    have hm₂ : r₂.merchantID = r₁.merchantID := congrArg Facts.merchantID hfacts₂
    have ho₂ : r₂.orderID = r₁.orderID := congrArg Facts.orderID hfacts₂
    have hof₃ : D.ofOrder r₂.merchantID r₂.orderID r₃ = true := by
      rw [hm₂, ho₂, D.ofOrder_of_facts hfacts₃]
      rwa [hm₁, ho₁] at hof
    obtain ⟨hm₃, ho₃⟩ := hapart q r₂ hr₂ r₃ hr₃ hof₃
    have hm' : r₃.merchantID = r'.merchantID := congrArg Facts.merchantID hfacts₃
    have ho' : r₃.orderID = r'.orderID := congrArg Facts.orderID hfacts₃
    exact ⟨by rw [← hm', hm₃, hm₂]; exact hm₁.symm, by rw [← ho', ho₃, ho₂]; exact ho₁.symm⟩
  rw [← hids.1, ← hids.2] at hann
  -- and its event is published
  obtain ⟨c', he⟩ := exists_event hev
  obtain ⟨w', hans⟩ := System.answered D w js he
  have hfault : c'.fault = none := hpublish _ he ev rfl hann
  simp only [exec, hfault] at hans
  rw [hans] at hev
  exact ⟨ev, mem_published.mpr (.inr ⟨i, hev⟩), hann⟩

end

/-! The broker is away when the event is to be published: first for the order reconciler, then for
the tracker. -/

/-- The order, with a payment intent that has succeeded. -/
def Row.charged : Row := { Row.sample with stripePiID := some (bytes "pi_1") }

def World.charged : World := { World.oneOrder with pools := fun _ => [Row.charged] }

/-- A tick of the order reconciler. -/
def Job.sweep : Job := .reconcile (newOrderReconciliation ⟨0, 0⟩)

/-- Stripe answers that the payment intent has succeeded. -/
def Choice.succeeded : Choice :=
  { now := deliveryTime, intent := ⟨bytes "pi_1", bytes "succeeded"⟩ }

/-- A tick that is answered `publish` when it publishes, and then another. -/
def sweeps (publish : Choice) : List (Nat × Choice) :=
  List.replicate 5 (0, .succeeded) ++ [(0, publish)] ++ List.replicate 2 (1, .succeeded)

def sweptTwice (xs : List (Nat × Choice)) : System :=
  System.run (Deployment.sample .asciiCI) World.charged [.sweep, .sweep] xs

def unpublished : List (Nat × Choice) :=
  List.replicate 7 (0, .onChain) ++ [(0, { fault := some .badConnection })] ++
    List.replicate 2 (1, .onChain)

theorem silent_of {D : Deployment} {S : System}
    (hrows : (S.world.pools 0).map Row.status = [statusPaid]) (hevents : S.world.published = [])
    (hpending : ∀ st ∈ S.world.onchain.map OnchainTransaction.status, st ≠ .pending) :
    ∃ r, S.world.pools 0 = [r] ∧ r.status = statusPaid ∧
      ¬ (Announced S r ∨ StillSelected D S r) := by
  obtain ⟨r, hr, hst⟩ := List.map_eq_singleton_iff.mp hrows
  refine ⟨r, hr, hst, ?_⟩
  rintro (⟨ev, hev, -⟩ | ⟨cutoff, hstuck⟩ | ⟨p, hp, hst', -⟩)
  · rw [hevents] at hev
    cases hev
  · unfold TransactionRepo.stuck at hstuck
    rw [hst] at hstuck
    cases hstuck
  · exact hpending _ (List.mem_map_of_mem hp) hst'

/-- Both leave an order that is paid, not announced, and on neither's list. -/
theorem silently_paid :
    (BetweenTicks (sweptTwice (sweeps { fault := some .badConnection })) ∧
      ∃ r, (sweptTwice (sweeps { fault := some .badConnection })).world.pools 0 = [r] ∧
        r.status = statusPaid ∧
        ¬ (Announced (sweptTwice (sweeps { fault := some .badConnection })) r ∨
          StillSelected (Deployment.sample .asciiCI)
            (sweptTwice (sweeps { fault := some .badConnection })) r)) ∧
    BetweenTicks (trackedTwice unpublished) ∧
      ∃ r, (trackedTwice unpublished).world.pools 0 = [r] ∧ r.status = statusPaid ∧
        ¬ (Announced (trackedTwice unpublished) r ∨
          StillSelected (Deployment.sample .asciiCI) (trackedTwice unpublished) r) := by
  have hswept : ((sweptTwice (sweeps { fault := some .badConnection })).world.pools 0).map
        Row.status = [statusPaid] ∧
      (sweptTwice (sweeps { fault := some .badConnection })).world.published = [] ∧
      (sweptTwice (sweeps { fault := some .badConnection })).world.onchain = [] ∧
      ((sweptTwice (sweeps { fault := some .badConnection })).procs.all fun p =>
        p.result?.isSome) = true := by decide +kernel
  have htracked : ((trackedTwice unpublished).world.pools 0).map Row.status = [statusPaid] ∧
      (trackedTwice unpublished).world.published = [] ∧
      (trackedTwice unpublished).world.onchain.map OnchainTransaction.status = [.confirmed] ∧
      ((trackedTwice unpublished).procs.all fun p => p.result?.isSome) = true := by
    decide +kernel
  obtain ⟨hrows, hevents, honchain, hdone⟩ := hswept
  obtain ⟨hrows', hevents', honchain', hdone'⟩ := htracked
  refine ⟨⟨betweenTicks_of_results hdone, silent_of hrows hevents ?_⟩,
    betweenTicks_of_results hdone', silent_of hrows' hevents' ?_⟩
  · rw [honchain]
    simp
  · rw [honchain']
    simp

theorem paid_announced_swept :
    OrdersApart (Deployment.sample .asciiCI) World.charged.pools ∧
      Announced (sweptTwice (sweeps .succeeded))
        (TransactionRepo.setStatus deliveryTime .paid (bytes "pi_1") .charged) := by
  have hapart : OrdersApart (Deployment.sample .asciiCI) World.charged.pools := by
    intro q r hr r' hr' _
    rw [List.mem_singleton.mp hr, List.mem_singleton.mp hr']
    exact ⟨rfl, rfl⟩
  have hjs : ∀ j ∈ [Job.sweep, Job.sweep], j.Ticks := by
    intro j hj
    have hsweep : j = .sweep := by simpa using hj
    exact .inl ⟨_, hsweep⟩
  have hdone : ((sweptTwice (sweeps .succeeded)).procs.all fun p => p.result?.isSome) = true := by
    decide +kernel
  have hmoved : ((sweptTwice (List.replicate 3 (0, .succeeded))).world.pools 0)[0]? =
        some Row.charged ∧
      ((sweptTwice (List.replicate 3 (0, .succeeded) ++ [(0, .succeeded)])).world.pools 0)[0]? =
        some (TransactionRepo.setStatus deliveryTime .paid (bytes "pi_1") .charged) := by
    decide +kernel
  have hsplit : sweeps .succeeded = List.replicate 3 (0, .succeeded) ++ (0, .succeeded) ::
      ([(0, .succeeded), (0, .succeeded)] ++ List.replicate 2 (1, .succeeded)) := rfl
  refine ⟨hapart, paid_announced hjs hapart (betweenTicks_of_results hdone) hsplit hmoved.1
    (by decide) hmoved.2 rfl ?_⟩
  intro e he _ _ _
  have hmem := System.mem_schedule _ _ _ he
  have hall : ∀ x ∈ sweeps .succeeded, x.2 = .succeeded := by
    intro x hx
    simp [sweeps] at hx
    rcases hx with rfl | rfl <;> rfl
  rw [show e.choice = .succeeded from hall _ hmem]
  rfl

end EasyPay
