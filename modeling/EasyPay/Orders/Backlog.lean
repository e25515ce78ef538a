import EasyPay.Repository.Snapshot
import EasyPay.System

/-!
# The backlog of the reconciler

A tick sees the oldest open orders, as many as the batch allows.  It closes those Stripe has decided
about.  It leaves alone those without a payment intent, crypto orders among them, and those Stripe
has not decided about; the next tick sees them again.

* `Ticks.run`: ticks one after another are a run of the system.
* `tick_progress`: what an execution of a tick does to the tables.
* `Uncrowded.decides`: while a paid order waits, a tick sees an order Stripe has decided about.
* `backlog_cleared`: so no paid order is left waiting after some number of ticks, unless a batch full
  of orders that ticks leave alone is as old as it.
* `Crowded.ticks`: behind such a batch nothing ever happens.
-/

namespace EasyPay

open GoStrings Tables Ports OrderReconciliation

/-! ## Ticks without a failure -/

/-- Nothing fails, Stripe reports the payment intents as `intents` says, and what was created
before `cutoff` has been open for too long. -/
structure Calm (intents : Str → PaymentIntent) (r : OrderReconciliation) (cutoff : Time) (o : Op)
    (c : Choice) : Prop where
  fault : c.fault = none
  faults : ∀ i, c.faults i = none
  refused : c.refused = false
  intent : ∀ id, o = .getPaymentIntent id → c.intent = intents id
  clock : cutoff ≤ c.now - r.stuckAfter

/-- There is always such an outcome. -/
theorem exists_calm (intents : Str → PaymentIntent) (r : OrderReconciliation) (cutoff : Time)
    (o : Op) : ∃ c, Calm intents r cutoff o c := by
  have hclock : cutoff ≤ cutoff + r.stuckAfter - r.stuckAfter := by
    rw [add_sub_cancel_right]
  cases o with
  | getPaymentIntent id =>
    refine ⟨{ now := cutoff + r.stuckAfter, intent := intents id }, rfl, fun _ => rfl, rfl, ?_, hclock⟩
    rintro id' ⟨⟩
    rfl
  | _ =>
    refine ⟨{ now := cutoff + r.stuckAfter }, rfl, fun _ => rfl, rfl, ?_, hclock⟩
    rintro id ⟨⟩

section
variable (D : Deployment) (r : OrderReconciliation) (intents : Str → PaymentIntent) (cutoff : Time)

/-- `n` executions of `tick`, one after another, with nobody else at the tables. -/
inductive Ticks : Nat → World → World → Prop
  | zero (w : World) : Ticks 0 w w
  | succ {n : Nat} {w w' w'' : World} {res : Res Unit} :
      Prog.Executes (exec D) (Calm intents r cutoff) r.tick w res w' → Ticks n w' w'' →
      Ticks (n + 1) w w''

theorem exists_ticks (n : Nat) (w : World) : ∃ w', Ticks D r intents cutoff n w w' := by
  induction n generalizing w with
  | zero => exact ⟨w, .zero w⟩
  | succ n ih =>
    obtain ⟨res, w', h⟩ := Prog.exists_executes (exec D) (exists_calm intents r cutoff) r.tick w
    obtain ⟨w'', h'⟩ := ih w'
    exact ⟨w'', .succ h h'⟩

variable {D r intents cutoff}

/-- The programs from the `i`th on are ticks: the schedule lets them go one after another. -/
theorem Ticks.run_from {n : Nat} {w w' : World} (h : Ticks D r intents cutoff n w w') {S : System}
    {i : Nat} (hw : S.world = w)
    (hprocs : ∀ n', i ≤ n' → n' < i + n → S.procs[n']? = some ((Job.reconcile r).prog D)) :
    ∃ xs, (Sys.run (exec D) S xs).world = w' := by
  induction h generalizing S i with
  | zero w => exact ⟨[], hw⟩
  | @succ n w w₁ w' res htick _ ih =>
    have hjob : Prog.Executes (exec D) (Calm intents r cutoff) ((Job.reconcile r).prog D) w
        (.reconciled res) w₁ := htick.bind (.ret _ w₁)
    obtain ⟨xs, hw₁, hset⟩ := hjob.run (hprocs i le_rfl (by omega)) hw
    obtain ⟨ys, hys⟩ := ih (i := i + 1) hw₁ fun n' hle hlt => by
      rw [hset, List.getElem?_set_ne (by omega)]
      exact hprocs n' (by omega) (by omega)
    exact ⟨xs ++ ys, by rw [Sys.run_append]; exact hys⟩

/-- **Ticks are runs** of the system, with one tick for each job. -/
theorem Ticks.run {n : Nat} {w w' : World} (h : Ticks D r intents cutoff n w w') :
    ∃ xs, (System.run D w (List.replicate n (.reconcile r)) xs).world = w' := by
  refine h.run_from (i := 0) rfl fun n' _ hlt => ?_
  show (List.map (Job.prog D) (List.replicate n (.reconcile r)))[n']? = _
  rw [List.map_replicate, List.getElem?_replicate_of_lt (by omega)]

end

/-! ## The orders of the backlog -/

/-- `created` or `pending`. -/
def Row.isOpen (r : Row) : Bool :=
  r.status == encodeStatus .created || r.status == encodeStatus .pending

section
variable (intents : Str → PaymentIntent)

/-- Stripe has decided about the order, so a tick that sees it closes it. -/
def Transaction.Decided (o : Transaction) : Prop :=
  o.stripePaymentIntentID ≠ [] ∧ (intents o.stripePaymentIntentID).verdict ≠ .undecided

def Row.decided (r : Row) : Bool :=
  decide (stringOf r.stripePiID ≠ [] ∧ (intents (stringOf r.stripePiID)).verdict ≠ .undecided)

/-- An open order that was paid before the cutoff, as Stripe says. -/
def Row.Waiting (cutoff : Time) (r : Row) : Prop :=
  TransactionRepo.stuck cutoff r = true ∧ stringOf r.stripePiID ≠ [] ∧
    (intents (stringOf r.stripePiID)).status = bytes "succeeded"

/-- The open orders that ticks leave alone, as old as the order `d` or older. -/
def Row.ahead (cutoff : Time) (d u : Row) : Bool :=
  TransactionRepo.stuck cutoff u && !u.decided intents && decide (u.createdAt ≤ d.createdAt)

/-- The open orders Stripe has decided about. -/
def Row.due (cutoff : Time) (u : Row) : Bool := TransactionRepo.stuck cutoff u && u.decided intents

theorem Row.Waiting.due {cutoff : Time} {d : Row} (h : d.Waiting intents cutoff) :
    d.due intents cutoff = true := by
  obtain ⟨hstuck, hintent, hstatus⟩ := h
  have hverdict : (intents (stringOf d.stripePiID)).verdict = .paid := by
    unfold PaymentIntent.verdict
    rw [if_pos hstatus]
  simp [Row.due, Row.decided, hstuck, hintent, hverdict]

instance (o : Transaction) : Decidable (o.Decided intents) := inferInstanceAs (Decidable (_ ∧ _))

theorem decided_shown {R : TransactionRepo} {i : Nat} (hi : i < R.router.pools) {u : Row} :
    (R.shown i u).Decided intents ↔ u.decided intents = true := by
  unfold Transaction.Decided Row.decided
  rw [(R.shown_spec hi u).2.2.2, decide_eq_true_iff]

/-- No paid order has a whole batch of orders in front of it that ticks leave alone. -/
def Uncrowded (D : Deployment) (r : OrderReconciliation) (cutoff : Time) (pools : Pools) : Prop :=
  ∀ q < D.router.pools, ∀ d ∈ pools q, d.Waiting intents cutoff →
    ((D.allRows pools).countP fun x => Row.ahead intents cutoff d x.2 : Int) < r.batchSize

end

/-! ## What a tick does to the tables -/

/-- A row is left as it is, or closed. -/
structure Settles (r r' : Row) : Prop where
  facts : r'.facts = r.facts
  same : r' = r ∨ r'.isOpen = false

theorem Settles.refl (r : Row) : Settles r r := ⟨rfl, .inl rfl⟩

theorem Settles.trans {r r' r'' : Row} (h : Settles r r') (h' : Settles r' r'') : Settles r r'' := by
  refine ⟨h'.facts.trans h.facts, ?_⟩
  rcases h'.same with rfl | hclosed
  · exact h.same
  · exact .inr hclosed

/-- The tables after the orders `os` were reconciled. -/
structure Progress (D : Deployment) (intents : Str → PaymentIntent) (os : List Transaction)
    (pools pools' : Pools) : Prop where
  settles : ∀ q, List.Forall₂ Settles (pools q) (pools' q)
  idle : (∀ o ∈ os, ¬ o.Decided intents) → pools' = pools
  /-- What Stripe has decided about is closed. -/
  closed : ∀ o ∈ os, o.Decided intents → ∀ q, D.router.forIndex o.shardIndex = .ok q →
    ∀ r ∈ pools' q, D.ofOrder o.merchantID o.orderID r = true → r.isOpen = false

section
variable {D : Deployment} {intents : Str → PaymentIntent}

theorem settles_refl (pools : Pools) (q : Nat) : List.Forall₂ Settles (pools q) (pools q) :=
  List.forall₂_same.mpr fun r _ => .refl r

/-- Nothing has happened to orders that Stripe has not decided about. -/
theorem Progress.of_undecided {os : List Transaction} (h : ∀ o ∈ os, ¬ o.Decided intents)
    (pools : Pools) : Progress D intents os pools pools :=
  ⟨settles_refl pools, fun _ => rfl, fun o ho hdecided => absurd hdecided (h o ho)⟩

/-- The orders `os'` are reconciled after `os`. -/
theorem Progress.append {os os' : List Transaction} {pools pools' pools'' : Pools}
    (h : Progress D intents os pools pools') (h' : Progress D intents os' pools' pools'') :
    Progress D intents (os ++ os') pools pools'' := by
  constructor
  · intro q
    exact forall₂_trans (fun _ _ _ hs hs' => hs.trans hs') (h.settles q) (h'.settles q)
  · intro hidle
    rw [h'.idle fun o ho => hidle o (List.mem_append_right _ ho),
      h.idle fun o ho => hidle o (List.mem_append_left _ ho)]
  · intro o ho hdecided q hq r hr hof
    rcases List.mem_append.mp ho with ho | ho
    · -- closed before, and closed orders stay closed
      obtain ⟨r', hr', hsettles⟩ := exists_left_of_forall₂ (h'.settles q) hr
      rw [D.ofOrder_of_facts hsettles.facts] at hof
      rcases hsettles.same with rfl | hclosed
      · exact h.closed o ho hdecided q hq r hr' hof
      · exact hclosed
    · exact h'.closed o ho hdecided q hq r hr hof

/-- The write of a status that closes an order. -/
theorem progress_write {o : Transaction} {st : TransactionStatus} {pi : PaymentIntent} {c : Choice}
    {w : World} (hst : st = .paid ∨ st = .failed) (hdecided : o.Decided intents)
    (hvalid : ValidOrderID o.orderID) (hfault : c.fault = none) :
    Progress D intents [o] w.pools (exec D (write o st pi) c w).2.pools := by
  have hclosed : ∀ r, (TransactionRepo.setStatus c.now st pi.id r).isOpen = false := by
    intro r
    rcases hst with rfl | rfl
    · rfl
    · rfl
  have hexec : (exec D (write o st pi) c w).2.pools =
      (D.updateOrder (bytes "update status: ") none o.shardIndex o.merchantID o.orderID
        (TransactionRepo.setStatus c.now st pi.id) w.pools).2 := by
    simp only [write, exec, TransactionRepo.updateStatus, hfault]
  have hidle : ∀ pools', (∀ o' ∈ [o], ¬ o'.Decided intents) → pools' = w.pools :=
    fun _ hidle => absurd hdecided (hidle o (List.mem_singleton.mpr rfl))
  rcases D.updateOrder_cases (bytes "update status: ") none o.shardIndex o.merchantID o.orderID
    (TransactionRepo.setStatus c.now st pi.id) w.pools with ⟨p, hp, -, -, -, he⟩ | ⟨e, he⟩
  · have hwritten : (exec D (write o st pi) c w).2.pools = Function.update w.pools p (updateWhere
        (D.ofOrder o.merchantID o.orderID) (TransactionRepo.setStatus c.now st pi.id) (w.pools p)) := by
      rw [hexec, he]
    rw [hwritten]
    refine ⟨?_, hidle _, ?_⟩
    · intro q
      by_cases hq : q = p
      · subst hq
        rw [Function.update_self, forall₂_updateWhere]
        intro r _
        split
        · exact ⟨rfl, .inr (hclosed r)⟩
        · exact .refl r
      · rw [Function.update_of_ne hq]
        exact settles_refl _ q
    · intro o' ho' _ q hq r hr hof
      obtain rfl := List.mem_singleton.mp ho'
      cases hq.symm.trans hp
      rw [Function.update_self] at hr
      obtain ⟨r', -, rfl⟩ := mem_updateWhere.mp hr
      split
      · exact hclosed r'
      · next hne =>
        rw [if_neg hne] at hof
        exact absurd hof hne
  · -- no row is the order's
    have hsame : (exec D (write o st pi) c w).2.pools = w.pools := by rw [hexec, he]
    rw [hsame]
    refine ⟨settles_refl _, hidle _, fun o' ho' _ q hq r hr hof => ?_⟩
    obtain rfl := List.mem_singleton.mp ho'
    rw [D.updateOrder_of_row hq hvalid hr hof] at he
    cases he

/-- What is done about one order: nothing, or one write that closes it. -/
theorem reconcileOne_pools {r : OrderReconciliation} {cutoff : Time} {o : Transaction}
    {w w' : World} {u : Unit}
    (h : Prog.Executes (exec D) (Calm intents r cutoff) (reconcileOne o) w u w') :
    (¬ o.Decided intents ∧ w'.pools = w.pools) ∨
    (o.Decided intents ∧ ∃ st pi c, (st = .paid ∨ st = .failed) ∧ c.fault = none ∧
      w'.pools = (exec D (write o st pi) c w).2.pools) := by
  unfold reconcileOne at h
  split at h
  · next hnone =>
    obtain ⟨-, rfl⟩ := Prog.executes_ret h
    exact .inl ⟨fun hdecided => hdecided.1 hnone, rfl⟩
  next hintent =>
  obtain ⟨c, hc, h⟩ := Svc.executes_ask h
  -- Stripe answers
  have hans : (exec D (.getPaymentIntent o.stripePaymentIntentID) c w).1 =
      .ok (intents o.stripePaymentIntentID) := by
    simp only [exec, throughBreaker, hc.refused, hc.fault, hc.intent _ rfl]
    rfl
  rw [hans] at h
  cases hverdict : (intents o.stripePaymentIntentID).verdict with
  | undecided =>
    simp only [hverdict] at h
    obtain ⟨-, rfl⟩ := Prog.executes_ret h
    exact .inl ⟨fun hdecided => hdecided.2 hverdict, rfl⟩
  | failed =>
    simp only [hverdict] at h
    obtain ⟨c', hc', h⟩ := Svc.executes_ask h
    obtain ⟨-, rfl⟩ := Prog.executes_ret h
    exact .inr ⟨⟨hintent, by simp [hverdict]⟩, .failed, _, c', .inr rfl, hc'.fault, rfl⟩
  | paid =>
    simp only [hverdict] at h
    obtain ⟨c', hc', h⟩ := Svc.executes_ask h
    refine .inr ⟨⟨hintent, by simp [hverdict]⟩, .paid, intents o.stripePaymentIntentID, c', .inl rfl,
      hc'.fault, ?_⟩
    -- the clock and the publisher leave the tables alone
    revert h
    generalize (exec D (.updateStatus o.shardIndex o.merchantID o.orderID .paid
      (intents o.stripePaymentIntentID).id) c' _).1 = a
    intro h
    cases a with
    | error e =>
      obtain ⟨-, rfl⟩ := Prog.executes_ret h
      rfl
    | ok v =>
      obtain ⟨c₁, hc₁, h⟩ := Svc.executes_ask h
      obtain ⟨c₂, hc₂, h⟩ := Svc.executes_ask h
      obtain ⟨-, rfl⟩ := Prog.executes_ret h
      simp only [exec, hc₂.fault, write]

/-- **One order.** -/
theorem reconcileOne_progress {r : OrderReconciliation} {cutoff : Time} {o : Transaction}
    {w w' : World} {u : Unit} (hvalid : ValidOrderID o.orderID)
    (h : Prog.Executes (exec D) (Calm intents r cutoff) (reconcileOne o) w u w') :
    Progress D intents [o] w.pools w'.pools := by
  rcases reconcileOne_pools h with ⟨hundecided, hpools⟩ | ⟨hdecided, st, pi, c, hst, hfault, hpools⟩
  · rw [hpools]
    refine .of_undecided (fun o' ho' => ?_) _
    rw [List.mem_singleton.mp ho']
    exact hundecided
  · rw [hpools]
    exact progress_write hst hdecided hvalid hfault

/-- **One order after another.** -/
theorem reconcileAll_progress {r : OrderReconciliation} {cutoff : Time} {os : List Transaction}
    {w w' : World} {u : Unit} (hvalid : ∀ o ∈ os, ValidOrderID o.orderID)
    (h : Prog.Executes (exec D) (Calm intents r cutoff) (reconcileAll os) w u w') :
    Progress D intents os w.pools w'.pools := by
  induction os generalizing w with
  | nil =>
    obtain ⟨-, rfl⟩ := Prog.executes_ret h
    exact .of_undecided (fun o ho => by cases ho) _
  | cons o os ih =>
    obtain ⟨u', w₁, hone, hrest⟩ := Prog.executes_bind h
    have hfirst := reconcileOne_progress (hvalid o List.mem_cons_self) hone
    have hothers := ih (fun o' ho' => hvalid o' (List.mem_cons_of_mem _ ho')) hrest
    exact hfirst.append hothers

/-- A tick takes a snapshot, and reconciles the orders in it. -/
theorem tick_snapshot {r : OrderReconciliation} {cutoff : Time} {w w' : World} {res : Res Unit}
    (h : Prog.Executes (exec D) (Calm intents r cutoff) r.tick w res w') :
    ∃ faults ties arrival before os, (∀ i, faults i = none) ∧ cutoff ≤ before ∧
      D.getPendingBefore faults ties arrival before r.batchSize w.pools = .ok os ∧
      ∃ u, Prog.Executes (exec D) (Calm intents r cutoff) (reconcileAll os) w u w' := by
  obtain ⟨c, hc, h⟩ := Svc.executes_ask h
  obtain ⟨c', hc', h⟩ := Svc.executes_ask h
  refine ⟨c'.faults, c'.ties, c'.arrival, c.now - r.stuckAfter, ?_⟩
  have hok : ∃ os, D.getPendingBefore c'.faults c'.ties c'.arrival (c.now - r.stuckAfter)
      r.batchSize w.pools = .ok os := by
    by_cases hlimit : 0 < r.batchSize
    · exact ⟨_, TransactionRepo.getPendingBefore_eq (fun i _ => hc'.faults i) hlimit⟩
    · refine ⟨[], ?_⟩
      unfold TransactionRepo.getPendingBefore
      rw [if_pos (by omega)]
  obtain ⟨os, hos⟩ := hok
  refine ⟨os, hc'.faults, hc.clock, hos, ?_⟩
  have hans : (exec D (.getPendingBefore (c.now - r.stuckAfter) r.batchSize) c'
      (exec D .timeNow c w).2).1 = .ok os := hos
  rw [show (exec D Op.timeNow c w).1 = c.now from rfl, hans] at h
  obtain ⟨u, w₁, hall, hret⟩ := Prog.executes_bind h
  obtain ⟨-, rfl⟩ := Prog.executes_ret hret
  exact ⟨u, hall⟩

/-- The orders of a snapshot have valid ids. -/
theorem valid_of_snapshot {faults : Nat → Option Fault} {ties : Nat → List Nat} {arrival : List Nat}
    {before : Time} {limit : Int} {pools : Pools} {os : List Transaction}
    (h : D.getPendingBefore faults ties arrival before limit pools = .ok os) :
    ∀ o ∈ os, ValidOrderID o.orderID := by
  intro o ho
  obtain ⟨i, row, hi, -, -, rfl⟩ := TransactionRepo.getPendingBefore_shown h ho
  rw [(D.shown_spec hi row).2.2.1]
  exact row.orderID_valid

/-- **A tick** reconciles a snapshot of the tables. -/
theorem tick_progress {r : OrderReconciliation} {cutoff : Time} {w w' : World} {res : Res Unit}
    (h : Prog.Executes (exec D) (Calm intents r cutoff) r.tick w res w') :
    ∃ faults ties arrival before os, (∀ i, faults i = none) ∧ cutoff ≤ before ∧
      D.getPendingBefore faults ties arrival before r.batchSize w.pools = .ok os ∧
      Progress D intents os w.pools w'.pools := by
  obtain ⟨faults, ties, arrival, before, os, hfaults, hbefore, hos, u, hall⟩ := tick_snapshot h
  exact ⟨faults, ties, arrival, before, os, hfaults, hbefore, hos,
    reconcileAll_progress (valid_of_snapshot hos) hall⟩

end

/-! ## No order waits forever -/

section
variable {D : Deployment} {r : OrderReconciliation} {intents : Str → PaymentIntent} {cutoff : Time}
  {pools pools' : Pools}

theorem stuck_of_settles {u u' : Row} (h : Settles u u')
    (hstuck : TransactionRepo.stuck cutoff u' = true) : u' = u := by
  rcases h.same with hsame | hclosed
  · exact hsame
  · have hopen : u'.isOpen = true := (Bool.and_eq_true_iff.mp hstuck).1
    rw [hclosed] at hopen
    cases hopen

/-- Who is open after the tick was there before it. -/
theorem Progress.before {os : List Transaction} (h : Progress D intents os pools pools') {q : Nat}
    {d : Row} (hd : d ∈ pools' q) (hstuck : TransactionRepo.stuck cutoff d = true) : d ∈ pools q := by
  obtain ⟨d₀, hd₀, hsettles⟩ := exists_left_of_forall₂ (h.settles q) hd
  rw [stuck_of_settles hsettles hstuck]
  exact hd₀

theorem Ticks.before {n : Nat} {w w' : World} (h : Ticks D r intents cutoff n w w') {q : Nat}
    {d : Row} (hd : d ∈ w'.pools q) (hstuck : TransactionRepo.stuck cutoff d = true) :
    d ∈ w.pools q := by
  induction h with
  | zero w => exact hd
  | succ htick _ ih =>
    obtain ⟨_, _, _, _, _, _, _, _, hprogress⟩ := tick_progress htick
    exact hprogress.before (ih hd) hstuck

/-- A tick adds nothing to what is counted of the open orders. -/
theorem Progress.countP_le {os : List Transaction} (h : Progress D intents os pools pools')
    (cutoff : Time) {p : Row → Bool}
    (hp : ∀ u, p u = true → TransactionRepo.stuck cutoff u = true) :
    (D.allRows pools').countP (fun x => p x.2) ≤ (D.allRows pools).countP fun x => p x.2 := by
  refine countP_le_of_forall₂ (R := fun x x' => Settles x.2 x'.2) ?_
    (TransactionRepo.forall₂_allRows h.settles)
  intro x x' hsettles hx'
  rwa [stuck_of_settles hsettles (hp _ hx')] at hx'

theorem Uncrowded.after {os : List Transaction} (h : Uncrowded intents D r cutoff pools)
    (hprogress : Progress D intents os pools pools') : Uncrowded intents D r cutoff pools' := by
  intro q hq d hd hwaiting
  have hle := hprogress.countP_le cutoff (p := Row.ahead intents cutoff d) fun u hu => by
    simp only [Row.ahead, Bool.and_eq_true] at hu
    exact hu.1.1
  have hlt := h q hq d (hprogress.before hd hwaiting.1) hwaiting
  omega

/-- **Progress.**  While a paid order waits, every tick sees an order Stripe has decided about. -/
theorem Uncrowded.decides (h : Uncrowded intents D r cutoff pools) {q : Nat} {d : Row}
    (hq : q < D.router.pools) (hd : d ∈ pools q) (hwaiting : d.Waiting intents cutoff)
    {faults : Nat → Option Fault} {ties : Nat → List Nat} {arrival : List Nat} {before : Time}
    {os : List Transaction} (hfaults : ∀ i, faults i = none) (hbefore : cutoff ≤ before)
    (hos : D.getPendingBefore faults ties arrival before r.batchSize pools = .ok os) :
    ∃ i u, i < D.router.pools ∧ u ∈ pools i ∧ u.due intents cutoff = true ∧ D.shown i u ∈ os := by
  have hcrowd := h q hq d hd hwaiting
  have hlimit : 0 < r.batchSize := by omega
  rw [TransactionRepo.getPendingBefore_eq (fun i _ => hfaults i) hlimit] at hos
  cases hos
  -- what is as old as the paid order is stuck, by any of the two times
  have hage : d.createdAt < cutoff := of_decide_eq_true (Bool.and_eq_true_iff.mp hwaiting.1).2
  have hstuck : ∀ u : Row, u.createdAt < d.createdAt + 1 →
      (TransactionRepo.stuck before u = true ↔ TransactionRepo.stuck cutoff u = true) := by
    intro u hle
    have hu : u.createdAt < cutoff := (Int.lt_add_one_iff.mp hle).trans_lt hage
    simp [TransactionRepo.stuck, hu, hu.trans_le hbefore]
  by_contra hnone
  -- then those of the batch that are as old are all left alone...
  have hbatch : (D.snapshot ties arrival before r.batchSize.toNat pools).countP
        (fun t => decide (t.createdAt < d.createdAt + 1)) =
      (D.snapshot ties arrival before r.batchSize.toNat pools).countP
        fun t => !decide (t.Decided intents) && decide (t.createdAt < d.createdAt + 1) := by
    refine List.countP_congr fun t ht => ⟨fun hle => ?_, fun hle => (Bool.and_eq_true_iff.mp hle).2⟩
    refine Bool.and_eq_true_iff.mpr ⟨?_, hle⟩
    obtain ⟨i, u, hi, hu, hu', rfl⟩ := TransactionRepo.mem_snapshot ht
    rw [decide_eq_true_iff, TransactionRepo.shown_createdAt] at hle
    by_contra hdecided
    refine hnone ⟨i, u, hi, hu, Bool.and_eq_true_iff.mpr ⟨(hstuck u hle).mp hu', ?_⟩, ht⟩
    exact (decided_shown intents hi).mp (by simpa using hdecided)
  have hahead : (D.snapshot ties arrival before r.batchSize.toNat pools).countP
        (fun t => !decide (t.Decided intents) && decide (t.createdAt < d.createdAt + 1)) ≤
      (D.allRows pools).countP fun x => Row.ahead intents cutoff d x.2 := by
    refine (TransactionRepo.snapshot_countP _).trans (List.countP_mono_left fun x hx hcounted => ?_)
    obtain ⟨i, u⟩ := x
    have hi := (TransactionRepo.mem_allRows.mp hx).1
    simp only [Bool.and_eq_true, Bool.not_eq_true', decide_eq_true_iff, decide_eq_false_iff_not,
      TransactionRepo.shown_createdAt, decided_shown intents hi] at hcounted
    obtain ⟨hu, hundecided, hle⟩ := hcounted
    simp [Row.ahead, (hstuck u hle).mp hu, hundecided, Int.lt_add_one_iff.mp hle]
  -- ... and the paid order itself is one more than the batch has
  have hmore : (D.allRows pools).countP (fun x => Row.ahead intents cutoff d x.2) <
      (D.allRows pools).countP fun x =>
        TransactionRepo.stuck before x.2 && decide (x.2.createdAt < d.createdAt + 1) := by
    refine countP_lt_of_forall₂ (R := Eq) ?_ (List.forall₂_same.mpr fun _ _ => rfl)
      (TransactionRepo.mem_allRows.mpr ⟨hq, hd⟩) ?_ ?_
    · rintro x _ rfl hx
      simp only [Row.ahead, Bool.and_eq_true, decide_eq_true_iff] at hx
      have hle := Int.lt_add_one_iff.mpr hx.2
      simp [(hstuck x.2 hle).mpr hx.1.1, hle]
    · have hle := Int.lt_add_one_iff.mpr (le_refl d.createdAt)
      simp [(hstuck d hle).mpr hwaiting.1, hle]
    · rintro _ rfl
      have hdecided := (Bool.and_eq_true_iff.mp hwaiting.due).2
      simp [Row.ahead, hdecided]
  have hold : min r.batchSize.toNat ((D.allRows pools).countP fun x =>
        TransactionRepo.stuck before x.2 && decide (x.2.createdAt < d.createdAt + 1)) ≤
      (D.snapshot ties arrival before r.batchSize.toNat pools).countP
        fun t => decide (t.createdAt < d.createdAt + 1) := TransactionRepo.snapshot_countP_old _
  omega

/-- The open orders Stripe has decided about become fewer. -/
theorem Progress.fewer {os : List Transaction} (h : Progress D intents os pools pools') {i : Nat}
    {u : Row} (hi : i < D.router.pools) (hu : u ∈ pools i) (hdue : u.due intents cutoff = true)
    (hseen : D.shown i u ∈ os) :
    (D.allRows pools').countP (fun x => x.2.due intents cutoff) <
      (D.allRows pools).countP fun x => x.2.due intents cutoff := by
  obtain ⟨hshard, hm, ho, -⟩ := D.shown_spec hi u
  have hdecided : (D.shown i u).Decided intents :=
    (decided_shown intents hi).mpr (Bool.and_eq_true_iff.mp hdue).2
  -- in the pool of the order, its rows are closed
  have hclosed : ∀ u' ∈ pools' i, D.ofOrder u.merchantID u.orderID u' = true → u'.isOpen = false := by
    have hclosed := h.closed _ hseen hdecided i hshard
    rwa [hm, ho] at hclosed
  refine countP_lt_of_forall₂
    (R := fun x x' => Settles x.2 x'.2 ∧ (x = (i, u) → x'.2.isOpen = false)) ?_
    (TransactionRepo.forall₂_allRows fun j => ?_) (TransactionRepo.mem_allRows.mpr ⟨hi, hu⟩) hdue ?_
  · rintro x x' ⟨hsettles, -⟩ hx'
    rwa [stuck_of_settles hsettles (Bool.and_eq_true_iff.mp hx').1] at hx'
  · refine (forall₂_mem_right (h.settles j)).imp fun v v' ⟨hsettles, hv'⟩ => ⟨hsettles, fun hv => ?_⟩
    cases hv
    refine hclosed v' hv' ?_
    rw [D.ofOrder_of_facts hsettles.facts]
    exact D.ofOrder_self u
  · rintro x' ⟨-, hx'⟩
    show (x'.2.isOpen && _ && _) = false
    rw [hx' rfl]
    rfl

variable {w w' : World}

/-- One tick: a paid order that waits brings the reconciler forward, and no other starts to. -/
theorem Uncrowded.tick {res : Res Unit} (h : Uncrowded intents D r cutoff w.pools)
    (htick : Prog.Executes (exec D) (Calm intents r cutoff) r.tick w res w') :
    Uncrowded intents D r cutoff w'.pools ∧
      ((∃ q < D.router.pools, ∃ d ∈ w'.pools q, d.Waiting intents cutoff) →
        (D.allRows w'.pools).countP (fun x => x.2.due intents cutoff) <
          (D.allRows w.pools).countP fun x => x.2.due intents cutoff) := by
  obtain ⟨faults, ties, arrival, before, os, hfaults, hbefore, hos, hprogress⟩ := tick_progress htick
  refine ⟨h.after hprogress, ?_⟩
  rintro ⟨q, hq, d, hd, hwaiting⟩
  have hd₀ := hprogress.before hd hwaiting.1
  obtain ⟨i, u, hi, hu, hdue, hseen⟩ := h.decides hq hd₀ hwaiting hfaults hbefore hos
  exact hprogress.fewer hi hu hdue hseen

/-- Every tick that leaves a paid order waiting has closed another one. -/
theorem Uncrowded.ticks {n : Nat} (h : Uncrowded intents D r cutoff w.pools)
    (hticks : Ticks D r intents cutoff n w w') :
    (∃ q < D.router.pools, ∃ d ∈ w'.pools q, d.Waiting intents cutoff) →
      (D.allRows w'.pools).countP (fun x => x.2.due intents cutoff) + n ≤
        (D.allRows w.pools).countP fun x => x.2.due intents cutoff := by
  induction hticks with
  | zero w => exact fun _ => le_refl _
  | @succ n w w₁ w' res htick hticks ih =>
    intro hwaiting
    obtain ⟨h₁, hfewer⟩ := h.tick htick
    have hrest := ih h₁ hwaiting
    -- who waits in the end has waited all the time
    have hbefore : ∃ q < D.router.pools, ∃ d ∈ w₁.pools q, d.Waiting intents cutoff := by
      obtain ⟨q, hq, d, hd, hd'⟩ := hwaiting
      exact ⟨q, hq, d, hticks.before hd hd'.1, hd'⟩
    have := hfewer hbefore
    omega

/-- **No paid order waits forever**, unless a whole batch of orders that ticks leave alone is as old
as it: after some number of ticks none is left. -/
theorem backlog_cleared (h : Uncrowded intents D r cutoff w.pools) :
    ∃ n, (∃ w', Ticks D r intents cutoff n w w') ∧
      ∀ w', Ticks D r intents cutoff n w w' →
        ∀ q < D.router.pools, ∀ d ∈ w'.pools q, ¬ d.Waiting intents cutoff := by
  refine ⟨(D.allRows w.pools).countP (fun x => x.2.due intents cutoff) + 1,
    exists_ticks D r intents cutoff _ w, ?_⟩
  intro w' hticks q hq d hd hwaiting
  have hcount := h.ticks hticks ⟨q, hq, d, hd, hwaiting⟩
  omega

/-! ## A batch that never ends -/

/-- A whole batch of orders that ticks leave alone is older than all orders Stripe has decided
about. -/
def Crowded (intents : Str → PaymentIntent) (D : Deployment) (r : OrderReconciliation)
    (cutoff : Time) (pools : Pools) : Prop :=
  ∃ k ≤ cutoff, r.batchSize ≤ ((D.allRows pools).countP fun x =>
      x.2.isOpen && !x.2.decided intents && decide (x.2.createdAt < k) : Int) ∧
    ∀ q < D.router.pools, ∀ u ∈ pools q, u.decided intents = true → k ≤ u.createdAt

/-- Then a tick does nothing... -/
theorem Crowded.tick {res : Res Unit} (h : Crowded intents D r cutoff w.pools)
    (htick : Prog.Executes (exec D) (Calm intents r cutoff) r.tick w res w') : w'.pools = w.pools := by
  obtain ⟨faults, ties, arrival, before, os, hfaults, hbefore, hos, hprogress⟩ := tick_progress htick
  refine hprogress.idle fun o ho hdecided => ?_
  obtain ⟨i, u, hi, hu, -, rfl⟩ := TransactionRepo.getPendingBefore_shown hos ho
  obtain ⟨k, hk, hcount, hyoung⟩ := h
  have hlate := hyoung i hi u hu ((decided_shown intents hi).mp hdecided)
  have hlimit : 0 < r.batchSize := by
    by_contra hlimit
    unfold TransactionRepo.getPendingBefore at hos
    rw [if_pos (by omega)] at hos
    cases hos
    cases ho
  rw [TransactionRepo.getPendingBefore_eq (fun i _ => hfaults i) hlimit] at hos
  cases hos
  -- all places of the batch are taken by older orders
  have holder : (D.allRows w.pools).countP (fun x =>
        x.2.isOpen && !x.2.decided intents && decide (x.2.createdAt < k)) ≤
      (D.allRows w.pools).countP fun x =>
        TransactionRepo.stuck before x.2 && decide (x.2.createdAt < k) := by
    refine List.countP_mono_left fun x _ hx => ?_
    simp only [Bool.and_eq_true, decide_eq_true_iff] at hx
    have hage := hx.2.trans_le (hk.trans hbefore)
    refine Bool.and_eq_true_iff.mpr ⟨?_, decide_eq_true hx.2⟩
    exact Bool.and_eq_true_iff.mpr ⟨hx.1.1, decide_eq_true hage⟩
  have htaken : min r.batchSize.toNat ((D.allRows w.pools).countP fun x =>
        TransactionRepo.stuck before x.2 && decide (x.2.createdAt < k)) ≤
      (D.snapshot ties arrival before r.batchSize.toNat w.pools).countP
        fun t => decide (t.createdAt < k) := TransactionRepo.snapshot_countP_old _
  have hlen : (D.snapshot ties arrival before r.batchSize.toNat w.pools).length ≤
      r.batchSize.toNat := List.length_take_le _ _
  have hfull : (D.snapshot ties arrival before r.batchSize.toNat w.pools).countP
        (fun t => decide (t.createdAt < k)) =
      (D.snapshot ties arrival before r.batchSize.toNat w.pools).length := by
    refine le_antisymm List.countP_le_length ?_
    omega
  have hold := List.countP_eq_length.mp hfull _ ho
  rw [decide_eq_true_iff, TransactionRepo.shown_createdAt] at hold
  exact absurd hlate (not_le.mpr hold)

/-- ... and so does every number of them. -/
theorem Crowded.ticks {n : Nat} (h : Crowded intents D r cutoff w.pools)
    (hticks : Ticks D r intents cutoff n w w') : w'.pools = w.pools := by
  induction hticks with
  | zero w => rfl
  | succ htick _ ih =>
    have hsame := h.tick htick
    rw [ih (hsame ▸ h), hsame]

end

/-- A paid order, younger than the other one. -/
def Row.paidLater : Row := { Row.another with stripePiID := some (bytes "pi_1"), createdAt := 1 }

/-- An order without a payment intent in front of it. -/
def World.backlog : World := { World.oneOrder with pools := fun _ => [Row.sample, Row.paidLater] }

/-- Stripe reports every payment as made. -/
def allSucceeded (id : Str) : PaymentIntent := ⟨id, bytes "succeeded"⟩

/-- A reconciler with batches of the given size. -/
def batchesOf (batchSize : Int) : OrderReconciliation := newOrderReconciliation ⟨0, batchSize⟩

/-- With batches of two the paid order is reached. -/
theorem backlog_cleared_pair :
    Uncrowded allSucceeded (Deployment.sample .binary) (batchesOf 2) 10 World.backlog.pools ∧
      ∃ n, (∃ w', Ticks (Deployment.sample .binary) (batchesOf 2) allSucceeded 10 n World.backlog w') ∧
        ∀ w', Ticks (Deployment.sample .binary) (batchesOf 2) allSucceeded 10 n World.backlog w' →
          ∀ q < 1, ∀ d ∈ w'.pools q, ¬ d.Waiting allSucceeded 10 := by
  have h : Uncrowded allSucceeded (Deployment.sample .binary) (batchesOf 2) 10
      World.backlog.pools := by
    intro q _ d hd hwaiting
    rcases List.mem_cons.mp hd with rfl | hd
    · exact absurd rfl hwaiting.2.1
    · rw [List.mem_singleton.mp hd]
      decide
  exact ⟨h, backlog_cleared h⟩

/-- With batches of one it is never reached. -/
theorem starved :
    1 ≤ (batchesOf 1).batchSize ∧
      ¬ ∃ n, ∀ w',
        Ticks (Deployment.sample .binary) (batchesOf 1) allSucceeded 10 n World.backlog w' →
          ∀ q < 1, ∀ d ∈ w'.pools q, ¬ d.Waiting allSucceeded 10 := by
  refine ⟨by decide, ?_⟩
  rintro ⟨n, hn⟩
  have hcrowded : Crowded allSucceeded (Deployment.sample .binary) (batchesOf 1) 10
      World.backlog.pools := by
    refine ⟨1, by decide, by decide, fun q _ u hu hdecided => ?_⟩
    rcases List.mem_cons.mp hu with rfl | hu
    · exact absurd hdecided (by decide)
    · rw [List.mem_singleton.mp hu]
      decide
  obtain ⟨w', hticks⟩ := exists_ticks (Deployment.sample .binary) (batchesOf 1) allSucceeded 10 n
    World.backlog
  have hd : Row.paidLater ∈ w'.pools 0 := by
    rw [hcrowded.ticks hticks]
    exact List.mem_cons_of_mem _ (List.mem_singleton.mpr rfl)
  exact hn w' hticks 0 (by decide) _ hd ⟨by decide, by decide, rfl⟩

end EasyPay
