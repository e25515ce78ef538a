import EasyPay.Gateway

/-!
# Order reconciliation

`internal/service/reconciliation.go`: a tick takes a snapshot of the orders that have
been open for too long, asks Stripe about each, and confirms or fails them.  The loop
around `tick` only waits and logs.
-/

namespace EasyPay

open GoStrings Ports

structure OrderReconciliation where
  stuckAfter : Time
  batchSize : Int
  deriving DecidableEq, Repr

/-- `NewOrderReconciliationWithOptions`: zero values fall back to the defaults. -/
def newOrderReconciliation (opts : OrderReconciliation) : OrderReconciliation :=
  { stuckAfter := if opts.stuckAfter = 0 then 600 * second else opts.stuckAfter
    batchSize := if opts.batchSize = 0 then 500 else opts.batchSize }

/-- Stripe's word on a payment intent, as the switch of `reconcileOne` reads it. -/
inductive IntentVerdict
  | paid
  | failed
  | undecided
  deriving DecidableEq, Repr

def PaymentIntent.verdict (pi : PaymentIntent) : IntentVerdict :=
  if pi.status = bytes "succeeded" then .paid
  else if pi.status = bytes "canceled" ∨ pi.status = bytes "requires_payment_method" then .failed
  else .undecided

/-- The event of a confirmed order, from the snapshot `o`. -/
def reconciledEvent (o : Transaction) (pi : PaymentIntent) (now : Time) : PaymentConfirmedEvent :=
  { orderID := o.orderID
    merchantID := o.merchantID
    status := TransactionStatus.paid.text
    stripePaymentIntentID := pi.id
    amount := o.amount
    currency := o.currency
    confirmedAt := (unix now).toInt }

namespace OrderReconciliation

def reconcileOne (o : Transaction) : Svc Unit := do
  if o.stripePaymentIntentID = [] then return ()
  else
    match ← Svc.ask (.getPaymentIntent o.stripePaymentIntentID) with
    | .error _ => return ()
    | .ok pi =>
      match pi.verdict with
      | .paid =>
        match ← Svc.ask (.updateStatus o.shardIndex o.merchantID o.orderID .paid pi.id) with
        | .error _ => return ()
        | .ok _ =>
          let now ← Svc.ask .timeNow
          let _ ← Svc.ask (.publishPaymentConfirmed (reconciledEvent o pi now))
          return ()
      | .failed =>
        let _ ← Svc.ask (.updateStatus o.shardIndex o.merchantID o.orderID .failed pi.id)
        return ()
      | .undecided => return ()

def reconcileAll : List Transaction → Svc Unit
  | [] => return ()
  | o :: stuck => do
    reconcileOne o
    reconcileAll stuck

def tick (r : OrderReconciliation) : Svc (Res Unit) := do
  let now ← Svc.ask .timeNow
  match ← Svc.ask (.getPendingBefore (now - r.stuckAfter) r.batchSize) with
  | .error e => return .error (e.wrap (bytes "list stuck orders: "))
  | .ok stuck =>
    reconcileAll stuck
    return .ok ()

/-! ## Where a tick can be

`ReconcileAt o t c`: after the calls `t`, `reconcileOne` makes the call `c`, or returns if that is
`none`. -/

section
variable (o : Transaction)

/-- Stripe has answered for the payment intent of the order. -/
def asked (pi : PaymentIntent) : Prog.Step gateway :=
  (Op.getPaymentIntent o.stripePaymentIntentID).gave (.ok pi)

/-- The order is set to what Stripe said. -/
def write (st : TransactionStatus) (pi : PaymentIntent) : Op :=
  .updateStatus o.shardIndex o.merchantID o.orderID st pi.id

inductive ReconcileAt : Calls → Option Op → Prop
  | noIntent : o.stripePaymentIntentID = [] → ReconcileAt [] none
  | question : o.stripePaymentIntentID ≠ [] →
      ReconcileAt [] (some (.getPaymentIntent o.stripePaymentIntentID))
  | unanswered (e : Err) : o.stripePaymentIntentID ≠ [] →
      ReconcileAt [(Op.getPaymentIntent o.stripePaymentIntentID).gave (.error e)] none
  | undecided {pi : PaymentIntent} : pi.verdict = .undecided → ReconcileAt [asked o pi] none
  | fail {pi : PaymentIntent} : pi.verdict = .failed →
      ReconcileAt [asked o pi] (some (write o .failed pi))
  | failed {pi : PaymentIntent} (a : Res Unit) : pi.verdict = .failed →
      ReconcileAt [asked o pi, (write o .failed pi).gave a] none
  | confirm {pi : PaymentIntent} : pi.verdict = .paid →
      ReconcileAt [asked o pi] (some (write o .paid pi))
  | unconfirmed {pi : PaymentIntent} (e : Err) : pi.verdict = .paid →
      ReconcileAt [asked o pi, (write o .paid pi).gave (.error e)] none
  | clock {pi : PaymentIntent} : pi.verdict = .paid →
      ReconcileAt [asked o pi, (write o .paid pi).gave (.ok ())] (some .timeNow)
  | announce {pi : PaymentIntent} (now : Time) : pi.verdict = .paid →
      ReconcileAt [asked o pi, (write o .paid pi).gave (.ok ()), Op.timeNow.gave now]
        (some (.publishPaymentConfirmed (reconciledEvent o pi now)))
  | announced {pi : PaymentIntent} (now : Time) (a : Res Unit) : pi.verdict = .paid →
      ReconcileAt [asked o pi, (write o .paid pi).gave (.ok ()), Op.timeNow.gave now,
        (Op.publishPaymentConfirmed (reconciledEvent o pi now)).gave a] none

/-- The calls of `reconcileOne` for one order after another, each of them through. -/
abbrev ReconciledAll : List Transaction → Calls → Prop :=
  Prog.Each (P := gateway) fun o t => ReconcileAt o t none

inductive TickAt (r : OrderReconciliation) : Calls → Option Op → Prop
  | clock : TickAt r [] (some .timeNow)
  | snapshot (now : Time) : TickAt r [Op.timeNow.gave now]
      (some (.getPendingBefore (now - r.stuckAfter) r.batchSize))
  | noSnapshot (now : Time) (e : Err) : TickAt r [Op.timeNow.gave now,
      (Op.getPendingBefore (now - r.stuckAfter) r.batchSize).gave (.error e)] none
  | order {now : Time} {os os' : List Transaction} {o : Transaction} {t t' : Calls} {op : Op} :
      ReconciledAll os t → ReconcileAt o t' (some op) →
      TickAt r (Op.timeNow.gave now ::
        (Op.getPendingBefore (now - r.stuckAfter) r.batchSize).gave (.ok (os ++ o :: os')) ::
          (t ++ t')) (some op)
  | done {now : Time} {stuck : List Transaction} {t : Calls} : ReconciledAll stuck t →
      TickAt r (Op.timeNow.gave now ::
        (Op.getPendingBefore (now - r.stuckAfter) r.batchSize).gave (.ok stuck) :: t) none

end

theorem reconcileOne_at {o : Transaction} {t : Calls} {q : Svc Unit}
    (h : Prog.Runs (reconcileOne o) t q) : ReconcileAt o t q.next? := by
  unfold reconcileOne at h
  split at h
  · next hnone =>
    obtain ⟨rfl, rfl⟩ := Prog.runs_ret.mp h
    exact .noIntent hnone
  next hintent =>
  rcases Svc.runs_ask.mp h with ⟨rfl, rfl⟩ | ⟨a, t₁, rfl, h₁⟩
  · exact .question hintent
  cases a with
  | error e =>
    obtain ⟨rfl, rfl⟩ := Prog.runs_ret.mp h₁
    exact .unanswered e hintent
  | ok pi =>
    cases hv : pi.verdict with
    | paid =>
      simp only [hv] at h₁
      rcases Svc.runs_ask.mp h₁ with ⟨rfl, rfl⟩ | ⟨b, t₂, rfl, h₂⟩
      · exact .confirm hv
      cases b with
      | error e =>
        obtain ⟨rfl, rfl⟩ := Prog.runs_ret.mp h₂
        exact .unconfirmed e hv
      | ok u =>
        rcases Svc.runs_ask.mp h₂ with ⟨rfl, rfl⟩ | ⟨now, t₃, rfl, h₃⟩
        · exact .clock hv
        rcases Svc.runs_ask.mp h₃ with ⟨rfl, rfl⟩ | ⟨b, t₄, rfl, h₄⟩
        · exact .announce now hv
        obtain ⟨rfl, rfl⟩ := Prog.runs_ret.mp h₄
        exact .announced now b hv
    | failed =>
      simp only [hv] at h₁
      rcases Svc.runs_ask.mp h₁ with ⟨rfl, rfl⟩ | ⟨b, t₂, rfl, h₂⟩
      · exact .fail hv
      · obtain ⟨rfl, rfl⟩ := Prog.runs_ret.mp h₂
        exact .failed b hv
    | undecided =>
      simp only [hv] at h₁
      obtain ⟨rfl, rfl⟩ := Prog.runs_ret.mp h₁
      exact .undecided hv

/-- **Where a tick can be.** -/
theorem tick_at (r : OrderReconciliation) {t : Calls} {q : Svc (Res Unit)}
    (h : Prog.Runs r.tick t q) : TickAt r t q.next? := by
  unfold tick at h
  rcases Svc.runs_ask.mp h with ⟨rfl, rfl⟩ | ⟨now, t₁, rfl, h₁⟩
  · exact .clock
  rcases Svc.runs_ask.mp h₁ with ⟨rfl, rfl⟩ | ⟨a, t₂, rfl, h₂⟩
  · exact .snapshot now
  cases a with
  | error e =>
    obtain ⟨rfl, rfl⟩ := Prog.runs_ret.mp h₂
    exact .noSnapshot now e
  | ok stuck =>
    -- in the middle of the snapshot, or through with it
    have hloop : ∀ {t q}, Prog.Runs (reconcileAll stuck) t q → _ :=
      Prog.runs_loop rfl (fun _ _ => rfl) (A := fun o t => ReconcileAt o t none)
        fun o t h => reconcileOne_at h
    rcases Prog.runs_bind h₂ with ⟨op, k, hall, rfl⟩ | ⟨t₃, u, t₄, rfl, hall, hret⟩
    · rcases hloop hall with
        ⟨os, o, os', t₁, t₂, op, k, k', rfl, rfl, hq, hos, ho⟩ | ⟨hq, -⟩
      · cases hq
        exact .order hos (reconcileOne_at ho)
      · cases hq
    · obtain ⟨rfl, rfl⟩ := Prog.runs_ret.mp hret
      rcases hloop hall with ⟨_, _, _, _, _, _, _, _, _, _, hq, _⟩ | ⟨-, hdone⟩
      · cases hq
      · rw [List.append_nil]
        exact .done hdone

/-! ## What the calls of a tick are -/

/-- The last answer was Stripe's word `v` on a payment intent. -/
def LastVerdict (v : IntentVerdict) (t : Calls) : Prop :=
  ∃ t' id pi, t = t' ++ [(Op.getPaymentIntent id).gave (.ok pi)] ∧ pi.verdict = v

/-- The calls a tick makes; it writes a status right after Stripe said so. -/
inductive TickCall (t : Calls) : Op → Prop
  | clock : TickCall t .timeNow
  | snapshot (before : Time) (limit : Int) : TickCall t (.getPendingBefore before limit)
  | question (id : Str) : TickCall t (.getPaymentIntent id)
  | confirm (i : UInt8) (m o pi : Str) : LastVerdict .paid t →
      TickCall t (.updateStatus i m o .paid pi)
  | fail (i : UInt8) (m o pi : Str) : LastVerdict .failed t →
      TickCall t (.updateStatus i m o .failed pi)
  | announce (o : Transaction) (pi : PaymentIntent) (now : Time) :
      TickCall t (.publishPaymentConfirmed (reconciledEvent o pi now))

theorem ReconcileAt.call {o : Transaction} {t : Calls} {op : Op} (h : ReconcileAt o t (some op))
    (t₀ : Calls) : TickCall (t₀ ++ t) op := by
  cases h with
  | question _ => exact .question _
  | fail hv => exact .fail _ _ _ _ ⟨t₀, _, _, rfl, hv⟩
  | confirm hv => exact .confirm _ _ _ _ ⟨t₀, _, _, rfl, hv⟩
  | clock _ => exact .clock
  | announce now _ => exact .announce o _ now

/-- **The calls of a reconciler tick.** -/
theorem tick_next (r : OrderReconciliation) {t : Calls} {op : Op} {k : op.Ans → Svc (Res Unit)}
    (h : Prog.Runs r.tick t (.call op k)) : TickCall t op := by
  have hat : TickAt r t (some op) := r.tick_at h
  cases hat with
  | clock => exact .clock
  | snapshot now => exact .snapshot _ _
  | @order now os os' o t t' _ _ ho => exact ho.call (_ :: _ :: t)

end OrderReconciliation

end EasyPay
