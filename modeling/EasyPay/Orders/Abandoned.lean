import EasyPay.Orders.Admission
import EasyPay.Orders.Backlog

/-!
# Orders abandoned by a failed Create

`Create` in eager mode inserts its row before it asks Stripe for a session.  If Stripe fails, the row
stays behind for the reconciler, with no payment intent.  The reconciler passes over orders without
one.

* `reconcileAll_untouched`: the reconciler leaves the rows alone that no decided order of its batch
  names.
* `abandoned_closed_iff`: so a tick closes an abandoned row just when an order of its batch that
  Stripe has decided about names the row.
-/

namespace EasyPay

open GoStrings Tables Ports OrderReconciliation

/-! ## What is abandoned -/

/-- In the run that has come to `S`, job `i` is a `Create` of `M` for which Stripe did not open a
session. -/
structure Abandoned (js : List Job) (S : System) (i : Nat) (s : PaymentService)
    (inp : CreatePaymentInput) (M : Merchant) : Prop where
  job : js[i]? = some (.create s inp)
  merchant : inp.merchant = some M
  unopened : ∃ req key e, (Op.createCheckoutSession req key).gave (.error e) ∈ callsOf i S.hist

/-- The row of that `Create` is the `n`th of pool `q`, and by now it is `u`. -/
structure IsRowOf (D : Deployment) (s : PaymentService) (inp : CreatePaymentInput) (M : Merchant)
    (pools : Pools) (q n : Nat) (u : Row) : Prop where
  pool : D.router.forIndex M.shardIndex = .ok q
  place : (pools q)[n]? = some u
  facts : ∃ now r, D.row now (s.newRow D M inp) = .ok r ∧ u.facts = r.facts

/-- Nothing fails in a tick that starts with the tables `pools`, and `os` is its batch. -/
structure CalmBatch (D : Deployment) (intents : Str → PaymentIntent) (r : OrderReconciliation)
    (cutoff : Time) (pools : Pools) (os : List Transaction) (o : Op) (c : Choice) : Prop
    extends Calm intents r cutoff o c where
  batch : ∀ before limit, o = .getPendingBefore before limit →
    D.getPendingBefore c.faults c.ties c.arrival before limit pools = .ok os

section
variable {D : Deployment}

variable {w : World} {js : List Job} {xs : List (Nat × Choice)} {i : Nat} {s : PaymentService}
  {inp : CreatePaymentInput} {M : Merchant}

/-- Then `Create` is in eager mode, and its row was inserted. -/
theorem Abandoned.won (h : Abandoned js (System.run D w js xs) i s inp M) :
    s.lazyCheckout = false ∧ Won D js (System.run D w js xs).hist i s inp M := by
  obtain ⟨req, key, e, hmem⟩ := h.unopened
  obtain ⟨j, t, k, hj, hruns, ht⟩ := System.callsOf_runs D w js hmem
  cases h.job.symm.trans hj
  obtain ⟨k', hruns⟩ := Prog.runs_map_call hruns
  obtain ⟨M', hM', hcall⟩ := s.create_next D hruns
  cases hM'.1.symm.trans h.merchant
  obtain ⟨heager, hins⟩ := hcall.session_inv
  exact ⟨heager, h.job, hM', ht _ hins⟩

theorem Abandoned.exists_row (h : Abandoned js (System.run D w js xs) i s inp M) :
    ∃ q n u, IsRowOf D s inp M (System.run D w js xs).world.pools q n u := by
  obtain ⟨-, -, -, hins⟩ := h.won
  obtain ⟨now, r, q, hr, hq, u, hu, hfacts⟩ := row_of_insert hins
  obtain ⟨n, hn⟩ := List.mem_iff_getElem?.mp hu
  exact ⟨q, n, u, hq, hn, now, r, hr, hfacts⟩

/-! ## What a tick leaves alone -/

section
variable {intents : Str → PaymentIntent} {r : OrderReconciliation} {cutoff : Time}

/-- `o` is decided, and an update of it in pool `q` changes the row `u`. -/
def Reaches (D : Deployment) (intents : Str → PaymentIntent) (q : Nat) (u : Row) (o : Transaction) :
    Prop :=
  o.Decided intents ∧ D.router.forIndex o.shardIndex = .ok q ∧
    D.ofOrder o.merchantID o.orderID u = true

theorem write_untouched {o : Transaction} {st : TransactionStatus} {pi : PaymentIntent} {c : Choice}
    {w : World} {q n : Nat} {u : Row} (hu : (w.pools q)[n]? = some u)
    (hother : D.router.forIndex o.shardIndex = .ok q → D.ofOrder o.merchantID o.orderID u = false) :
    ((exec D (write o st pi) c w).2.pools q)[n]? = some u := by
  show ((D.updateOrder (bytes "update status: ") c.fault o.shardIndex o.merchantID o.orderID
    (TransactionRepo.setStatus c.now st pi.id) w.pools).2 q)[n]? = some u
  rcases D.updateOrder_cases (bytes "update status: ") c.fault o.shardIndex o.merchantID o.orderID
    (TransactionRepo.setStatus c.now st pi.id) w.pools with ⟨p, hp, -, -, -, he⟩ | ⟨e, he⟩
  · rw [he]
    show (Function.update w.pools p _ q)[n]? = some u
    by_cases hq : q = p
    · subst hq
      rw [Function.update_self]
      unfold updateWhere
      rw [List.getElem?_map, hu, Option.map_some, hother hp, if_neg Bool.false_ne_true]
    · rw [Function.update_of_ne hq]
      exact hu
  · rw [he]
    exact hu

theorem reconcileOne_untouched {o : Transaction} {w w' : World} {x : Unit} {q n : Nat} {u : Row}
    (h : Prog.Executes (exec D) (Calm intents r cutoff) (reconcileOne o) w x w')
    (hu : (w.pools q)[n]? = some u) (hother : ¬ Reaches D intents q u o) :
    (w'.pools q)[n]? = some u := by
  rcases reconcileOne_pools h with ⟨-, hpools⟩ | ⟨hdecided, st, pi, c, -, -, hpools⟩
  · rw [hpools]
    exact hu
  · rw [hpools]
    refine write_untouched hu fun hq => ?_
    by_contra hof
    exact hother ⟨hdecided, hq, by simpa using hof⟩

/-- **A row stays** as it is if no decided order of the batch names it. -/
theorem reconcileAll_untouched {os : List Transaction} {w w' : World} {x : Unit} {q n : Nat} {u : Row}
    (h : Prog.Executes (exec D) (Calm intents r cutoff) (reconcileAll os) w x w')
    (hu : (w.pools q)[n]? = some u) (hother : ∀ o ∈ os, ¬ Reaches D intents q u o) :
    (w'.pools q)[n]? = some u := by
  induction os generalizing w with
  | nil =>
    obtain ⟨-, rfl⟩ := Prog.executes_ret h
    exact hu
  | cons o os ih =>
    obtain ⟨y, w₁, hone, hrest⟩ := Prog.executes_bind h
    have hu₁ := reconcileOne_untouched hone hu (hother o List.mem_cons_self)
    exact ih hrest hu₁ fun o' ho' => hother o' (List.mem_cons_of_mem _ ho')

/-- The batch of a tick is what it reconciles. -/
theorem tick_batch {w w' : World} {os : List Transaction} {res : Res Unit}
    (h : Prog.Executes (exec D) (CalmBatch D intents r cutoff w.pools os) r.tick w res w') :
    (∃ faults ties arrival before,
      D.getPendingBefore faults ties arrival before r.batchSize w.pools = .ok os) ∧
    ∃ x, Prog.Executes (exec D) (Calm intents r cutoff) (reconcileAll os) w x w' := by
  obtain ⟨c, -, h⟩ := Svc.executes_ask h
  obtain ⟨c', hc', h⟩ := Svc.executes_ask h
  have hos := hc'.batch _ _ rfl
  have hans : (exec D (.getPendingBefore (c.now - r.stuckAfter) r.batchSize) c'
      (exec D .timeNow c w).2).1 = .ok os := hos
  rw [show (exec D Op.timeNow c w).1 = c.now from rfl, hans] at h
  obtain ⟨x, w₁, hall, hret⟩ := Prog.executes_bind h
  obtain ⟨-, rfl⟩ := Prog.executes_ret hret
  exact ⟨⟨_, _, _, _, hos⟩, x, hall.mono fun _ _ hc => hc.toCalm⟩

/-- What is shown in a batch is open. -/
theorem isOpen_of_shown {faults : Nat → Option Fault} {ties : Nat → List Nat} {arrival : List Nat}
    {before : Time} {limit : Int} {pools : Pools} {os : List Transaction} {q : Nat} {u : Row}
    (h : D.getPendingBefore faults ties arrival before limit pools = .ok os)
    (hu : D.shown q u ∈ os) : u.isOpen = true := by
  obtain ⟨i, v, -, -, hstuck, heq⟩ := TransactionRepo.getPendingBefore_shown h hu
  have hv : v.isOpen = true := (Bool.and_eq_true_iff.mp hstuck).1
  -- the status is shown as it is stored
  obtain ⟨-, -, -, -, -, hus, -⟩ := TransactionRepo.scanTransaction_ok (TransactionRepo.scanTransaction_eq u)
  obtain ⟨-, -, -, -, -, hvs, -⟩ := TransactionRepo.scanTransaction_ok (TransactionRepo.scanTransaction_eq v)
  have hstatus : (D.shown q u).status = (D.shown i v).status := congrArg Transaction.status heq
  change (TransactionRepo.scanned u).status = (TransactionRepo.scanned v).status at hstatus
  rw [hstatus] at hus
  have hsame : u.status = v.status :=
    (encodeStatus_of_decodeStatus hus).trans (encodeStatus_of_decodeStatus hvs).symm
  unfold Row.isOpen at hv ⊢
  rw [hsame]
  exact hv

end

/-! ## What becomes of it -/

/-- **A tick closes an abandoned row** that is in its batch just when Stripe has decided about an
order of the batch that names the row. -/
theorem abandoned_closed_iff (h : Abandoned js (System.run D w js xs) i s inp M) :
    (∃ q n u, IsRowOf D s inp M (System.run D w js xs).world.pools q n u) ∧
    ∀ q n u, IsRowOf D s inp M (System.run D w js xs).world.pools q n u →
      ∀ (r : OrderReconciliation) intents cutoff os w', D.shown q u ∈ os →
        Prog.Executes (exec D) (CalmBatch D intents r cutoff (System.run D w js xs).world.pools os)
          r.tick (System.run D w js xs).world (.ok ()) w' →
        ((∃ u', IsRowOf D s inp M w'.pools q n u' ∧ u'.isOpen = false) ↔
          ∃ o ∈ os, Reaches D intents q u o) := by
  refine ⟨h.exists_row, ?_⟩
  intro q n u hu r intents cutoff os w' hseen htick
  obtain ⟨⟨faults, ties, arrival, before, hos⟩, x, hall⟩ := tick_batch htick
  constructor
  · rintro ⟨u', hu', hclosed⟩
    by_contra hnone
    have hsame := reconcileAll_untouched hall hu.place fun o ho hreach => hnone ⟨o, ho, hreach⟩
    cases hu'.place.symm.trans hsame
    rw [isOpen_of_shown hos hseen] at hclosed
    cases hclosed
  · rintro ⟨o, ho, hdecided, hq, hof⟩
    have hprogress := reconcileAll_progress (valid_of_snapshot hos) hall
    obtain ⟨u', hplace, hsettles⟩ := getElem?_of_forall₂ (hprogress.settles q) hu.place
    obtain ⟨now, r₀, hr₀, hfacts⟩ := hu.facts
    refine ⟨u', ⟨hu.pool, hplace, now, r₀, hr₀, hsettles.facts.trans hfacts⟩, ?_⟩
    refine hprogress.closed o ho hdecided q hq u' (List.mem_of_getElem? hplace) ?_
    rw [D.ofOrder_of_facts hsettles.facts]
    exact hof

end

/-- A card payment, a payer who opens its page, and the reconciler. -/
def abandonedJobs : List Job :=
  [.create (.mode false) (.card (.named (bytes "m1")) (bytes "o-1") 100),
   .resolve (.onPod 0) (bytes "m1") (bytes "o-1"),
   .reconcile (newOrderReconciliation ⟨0, 0⟩)]

/-- `Create` inserts its row, and then Stripe is out of reach. -/
def abandonedRun (xs : List (Nat × Choice)) : System :=
  System.run (Deployment.sample .binary) (World.fresh [.named (bytes "m1")]) abandonedJobs
    (steps 0 1 ++ (0, { fault := some .badConnection }) :: xs)

def unansweredCall : Prog.Step gateway :=
  (Op.createCheckoutSession ((PaymentService.mode false).checkoutRequest (Deployment.sample .binary)
      (.named (bytes "m1")) (.card (.named (bytes "m1")) (bytes "o-1") 100))
    (deriveTransactionID (Deployment.sample .binary) (bytes "m1") (bytes "o-1"))).gave
      (.error (.new (bytes "driver: bad connection")))

theorem abandoned_of_unanswered {xs : List (Nat × Choice)}
    (h : unansweredCall ∈ callsOf 0 (abandonedRun xs).hist) :
    Abandoned abandonedJobs (abandonedRun xs) 0 (.mode false)
      (.card (.named (bytes "m1")) (bytes "o-1") 100) (.named (bytes "m1")) :=
  ⟨rfl, rfl, _, _, _, h⟩

/-- The payer opens the page, so a session is stored after all. -/
def resolvedRun : System := abandonedRun (steps 1 9)

/-- Stripe has been paid for it: a tick that sees the row closes it. -/
theorem abandoned_closed_resolved :
    ∃ q n u, IsRowOf (Deployment.sample .binary) (.mode false)
        (.card (.named (bytes "m1")) (bytes "o-1") 100) (.named (bytes "m1"))
        resolvedRun.world.pools q n u ∧
      ∀ (r : OrderReconciliation) cutoff os w', (Deployment.sample .binary).shown q u ∈ os →
        Prog.Executes (exec (Deployment.sample .binary)) (CalmBatch (Deployment.sample .binary)
          allSucceeded r cutoff resolvedRun.world.pools os) r.tick resolvedRun.world (.ok ()) w' →
        ∃ u', IsRowOf (Deployment.sample .binary) (.mode false)
          (.card (.named (bytes "m1")) (bytes "o-1") 100) (.named (bytes "m1")) w'.pools q n u' ∧
          u'.isOpen = false := by
  have hpi : ∀ u ∈ resolvedRun.world.pools 0, stringOf u.stripePiID = bytes "pi_0" := by
    decide +kernel
  have h : Abandoned abandonedJobs (abandonedRun (steps 1 9)) 0 (.mode false)
      (.card (.named (bytes "m1")) (bytes "o-1") 100) (.named (bytes "m1")) :=
    abandoned_of_unanswered (by decide +kernel)
  unfold resolvedRun at hpi ⊢
  unfold abandonedRun at h hpi ⊢
  obtain ⟨⟨q, n, u, hu⟩, hclosed⟩ := abandoned_closed_iff h
  refine ⟨q, n, u, hu, fun r cutoff os w' hseen htick => ?_⟩
  refine (hclosed q n u hu r allSucceeded cutoff os w' hseen htick).mpr ⟨_, hseen, ?_⟩
  -- the order itself is decided
  obtain rfl : 0 = q := Except.ok.inj hu.pool
  have hpiu := hpi u (List.mem_of_getElem? hu.place)
  obtain ⟨hshard, hm, ho, -⟩ := (Deployment.sample .binary).shown_spec (i := 0) (by decide) u
  refine ⟨(decided_shown allSucceeded (by decide)).mpr ?_, hshard, ?_⟩
  · unfold Row.decided
    rw [hpiu]
    decide
  · rw [hm, ho]
    exact (Deployment.sample .binary).ofOrder_self u

/-- Nobody opens the page, and a day later the reconciler comes by. -/
def passedOverRun : System :=
  abandonedRun [(2, { now := 86400 * second }), (2, { now := 86400 * second })]

/-- `Create` has failed, the tick has seen its row and succeeded, and the row is still open. -/
theorem abandoned_passed_over :
    Abandoned abandonedJobs passedOverRun 0 (.mode false)
        (.card (.named (bytes "m1")) (bytes "o-1") 100) (.named (bytes "m1")) ∧
      passedOverRun.procs[0]? = some (.ret (.created (.error
        (.new (bytes "stripe checkout: driver: bad connection"))))) ∧
      (Op.getPendingBefore (86400 * second - 600 * second) 500).gave
          (.ok ((passedOverRun.world.pools 0).map ((Deployment.sample .binary).shown 0))) ∈
        callsOf 2 passedOverRun.hist ∧
      passedOverRun.procs[2]? = some (.ret (.reconciled (.ok ()))) ∧
      (passedOverRun.world.pools 0).map (fun u => (u.merchantID, u.orderID, u.isOpen)) =
        [(bytes "m1", bytes "o-1", true)] := by
  exact ⟨abandoned_of_unanswered (by decide +kernel), Prog.getElem?_of_result? (by decide +kernel),
    by decide +kernel, Prog.getElem?_of_result? (by decide +kernel), by decide +kernel⟩

end EasyPay
