import EasyPay.Gateway
import EasyPay.Provider.Signature

/-!
# Webhook service

`internal/service/webhook_service.go` and the HTTP handler in front of it
(`internal/api/handler/webhook.go`): `Process` verifies a delivery, claims the
event's dedupe key, and lets the handler of the event type do its work.  `CreateRefund` asks Stripe
for a refund of an order of the merchant.

The signature check and the JSON decoder of the event's object are parameters of the
service; what the decoder returns is any object.
-/

namespace EasyPay

open GoStrings Ports

/-- The fields the handlers need from an object. -/
structure StripeObject where
  id : Str
  object : Str
  metadata : StrMap
  paymentIntent : Str
  refunded : Bool
  deriving DecidableEq, Repr

/-- The cases of the switch in `Process`. -/
inductive EventKind
  | succeeded
  | failed
  | refunded
  | dispute
  | ignored
  deriving DecidableEq, Repr

/-- The status the handler of an event type writes. -/
def EventKind.status : EventKind → Option TransactionStatus
  | .succeeded => some .paid
  | .failed => some .failed
  | .refunded => some .refunded
  | .dispute => none
  | .ignored => none

def StripeEvent.kind (e : StripeEvent) : EventKind :=
  if e.type = bytes "payment_intent.succeeded" ∨ e.type = bytes "checkout.session.completed" then
    .succeeded
  else if e.type = bytes "payment_intent.payment_failed" then .failed
  else if e.type = bytes "charge.refunded" then .refunded
  else if e.type = bytes "charge.dispute.created" then .dispute
  else .ignored

structure WebhookService where
  verifyWebhookSignature : (payload sigHeader secret : Str) → Res StripeEvent
  /-- `json.Unmarshal` into a `stripeObject`. -/
  unmarshal : Str → Res StripeObject
  webhookSecret : Str

def dedupKey (e : StripeEvent) : Str := bytes "webhook:" ++ e.id

def day : Time := 24 * 3600 * second

/-- `o.PaymentIntent`, or the object's own id if it is a payment intent itself. -/
def StripeObject.piID (o : StripeObject) : Str :=
  if o.paymentIntent = [] ∧ o.object = bytes "payment_intent" then o.id else o.paymentIntent

def StripeObject.orderID (o : StripeObject) : Str := o.metadata.get (bytes "order_id")

def StripeObject.merchantID (o : StripeObject) : Str := o.metadata.get (bytes "merchant_id")

/-- The payment intent of a refunded charge. -/
def StripeObject.refundPiID (o : StripeObject) : Str :=
  if o.paymentIntent = [] then (o.metadata.lookup (bytes "payment_intent")).getD []
  else o.paymentIntent

def confirmedEvent (order : Transaction) (status : TransactionStatus) (now : Time) :
    PaymentConfirmedEvent :=
  { orderID := order.orderID
    merchantID := order.merchantID
    status := status.text
    stripePaymentIntentID := order.stripePaymentIntentID
    amount := order.amount
    currency := order.currency
    confirmedAt := (unix now).toInt }

def resolveShard (merchantID : Str) : Svc (Res UInt8) := do
  match ← Svc.ask (.getByMerchantID merchantID) with
  | .error e => return .error (e.wrap (bytes "resolve merchant " ++ merchantID ++ bytes ": "))
  | .ok m => return .ok m.shardIndex

/-- What the handlers make of an `UpdateStatus` error. -/
def updateError (orderID op : Str) (e : Err) : Err :=
  if e.is .notFound then .because .webhookOrderMissing orderID else e.wrap op

/-- Read the order back and announce its new status. -/
def announce (shardIdx : UInt8) (merchantID orderID : Str) (status : TransactionStatus) :
    Svc (Res Unit) := do
  match ← Svc.ask (.getByMerchantOrderID shardIdx merchantID orderID) with
  | .error e => return .error (e.wrap (bytes "load order: "))
  | .ok order =>
    let now ← Svc.ask .timeNow
    Svc.ask (.publishPaymentConfirmed (confirmedEvent order status now))

namespace WebhookService

variable (s : WebhookService)

def decodeStripeObject (e : StripeEvent) : Res StripeObject :=
  match s.unmarshal e.data with
  | .error err => .error (err.wrap (bytes "decode object: "))
  | .ok o => .ok o

/-- The cross-check of a success event: no payment intent, no question. -/
def crossCheck (piID : Str) : Svc (Res Unit) := do
  if piID = [] then return .ok ()
  else
    match ← Svc.ask (.getPaymentIntent piID) with
    | .error e => return .error (e.wrap (bytes "cross-check payment intent: "))
    | .ok pi =>
      if pi.status ≠ bytes "succeeded" then
        return .error (.new (bytes "cross-check: pi " ++ pi.id ++ bytes " status=" ++ pi.status ++
          bytes ", not succeeded"))
      else return .ok ()

def missingMetadata (e : StripeEvent) : Err :=
  .new (bytes "event " ++ e.id ++ bytes " missing metadata.order_id or merchant_id")

def handleSucceeded (e : StripeEvent) : Svc (Res Unit) := do
  match s.decodeStripeObject e with
  | .error err => return .error err
  | .ok o =>
    if o.orderID = [] ∨ o.merchantID = [] then return .error (missingMetadata e)
    else
      match ← crossCheck o.piID with
      | .error err => return .error err
      | .ok _ =>
        match ← resolveShard o.merchantID with
        | .error err => return .error err
        | .ok shardIdx =>
          match ← Svc.ask (.updateStatus shardIdx o.merchantID o.orderID .paid o.piID) with
          | .error err => return .error (updateError o.orderID (bytes "update order: ") err)
          | .ok _ => announce shardIdx o.merchantID o.orderID .paid

def handleFailed (e : StripeEvent) : Svc (Res Unit) := do
  match s.decodeStripeObject e with
  | .error err => return .error err
  | .ok o =>
    if o.orderID = [] ∨ o.merchantID = [] then return .error (missingMetadata e)
    else
      match ← resolveShard o.merchantID with
      | .error err => return .error err
      | .ok shardIdx =>
        match ← Svc.ask (.updateStatus shardIdx o.merchantID o.orderID .failed o.piID) with
        | .error err => return .error (updateError o.orderID (bytes "update order failed: ") err)
        | .ok _ => return .ok ()

/-- The order of a refund: from the metadata, or by its payment intent, which also
tells the shard. -/
def refundedOrder (o : StripeObject) : Svc (Str × Str × Option UInt8) := do
  if (o.orderID = [] ∨ o.merchantID = []) ∧ o.refundPiID ≠ [] then
    match ← Svc.ask (.getByPaymentIntentID o.refundPiID) with
    | .ok found => return (found.orderID, found.merchantID, some found.shardIndex)
    | .error _ => return (o.orderID, o.merchantID, none)
  else return (o.orderID, o.merchantID, none)

def refundShard (merchantID : Str) : Option UInt8 → Svc (Res UInt8)
  | some shardIdx => return .ok shardIdx
  | none => resolveShard merchantID

def handleRefunded (e : StripeEvent) : Svc (Res Unit) := do
  match s.decodeStripeObject e with
  | .error err => return .error err
  | .ok o =>
    let (orderID, merchantID, shard) ← refundedOrder o
    if orderID = [] ∨ merchantID = [] then
      return .error (.new (bytes "event " ++ e.id ++
        bytes " missing order_id/merchant_id and unresolvable"))
    else
      match ← refundShard merchantID shard with
      | .error err => return .error err
      | .ok shardIdx =>
        match ← Svc.ask (.updateStatus shardIdx merchantID orderID .refunded o.refundPiID) with
        | .error err => return .error (updateError orderID (bytes "update order refunded: ") err)
        | .ok _ => announce shardIdx merchantID orderID .refunded

/-- The switch over the event type. -/
def handle (e : StripeEvent) : Svc (Res Unit) :=
  match e.kind with
  | .succeeded => s.handleSucceeded e
  | .failed => s.handleFailed e
  | .refunded => s.handleRefunded e
  | .dispute => return .ok ()
  | .ignored => return .ok ()

/-- `Process` of a verified event. -/
def processEvent (e : StripeEvent) : Svc (Res Unit) := do
  match ← Svc.ask (.setNX (dedupKey e) (bytes "1") day) with
  | .error err => return .error (err.wrap (bytes "dedup setnx: "))
  | .ok false => return .error (.of .webhookDuplicate)
  | .ok true => s.handle e

def process (payload sigHeader : Str) : Svc (Res Unit) :=
  match s.verifyWebhookSignature payload sigHeader s.webhookSecret with
  | .error e => return .error (e.wrap (bytes "verify signature: "))
  | .ok event => s.processEvent event

end WebhookService

/-! ## Refunds -/

structure RefundInput where
  merchant : Option Merchant
  orderID : Str
  amount : Int64
  reason : Str
  idemKey : Str
  deriving DecidableEq, Repr

structure RefundResult where
  orderID : Str
  refundID : Str
  status : Str
  amount : Int64
  currency : Str
  deriving DecidableEq, Repr

namespace RefundInput

variable (inp : RefundInput) (order : Transaction)

/-- What Stripe is asked for. -/
def request : CreateRefundRequest :=
  { paymentIntentID := order.stripePaymentIntentID
    amount := inp.amount
    reason := trimSpace inp.reason
    metadata := [(bytes "order_id", order.orderID), (bytes "merchant_id", order.merchantID)] }

def key : Str := if inp.idemKey = [] then bytes "refund:" ++ order.orderID else inp.idemKey

end RefundInput

namespace WebhookService

def createRefund (inp : RefundInput) : Svc (Res RefundResult) := do
  match inp.merchant with
  | none => return .error (.new (bytes "merchant + order_id required"))
  | some merchant =>
    if inp.orderID = [] then return .error (.new (bytes "merchant + order_id required"))
    else
      match ← Svc.ask (.getByMerchantOrderID merchant.shardIndex merchant.merchantID inp.orderID) with
      | .error e => return .error (e.wrap (bytes "load order: "))
      | .ok order =>
        if order.stripePaymentIntentID = [] then
          return .error (.new
            (bytes "order has no associated payment intent (crypto refunds not supported)"))
        else
          match ← Svc.ask (.createRefund (inp.request order) (inp.key order)) with
          | .error e => return .error (e.wrap (bytes "stripe refund: "))
          | .ok r => return .ok ⟨order.orderID, r.id, r.status, r.amount, r.currency⟩

end WebhookService

/-! ## What the calls of a handler are -/

theorem resolveShard_next {m : Str} {t : Calls} {op : Op} {k : op.Ans → Svc (Res UInt8)}
    (h : Prog.Runs (resolveShard m) t (.call op k)) : t = [] ∧ op = .getByMerchantID m := by
  unfold resolveShard at h
  rcases Svc.runs_ask.mp h with ⟨rfl, hq⟩ | ⟨a, t', rfl, h'⟩
  · cases hq
    exact ⟨rfl, rfl⟩
  · cases a <;> cases h'

theorem resolveShard_ret {m : Str} {t : Calls} {r : Res UInt8}
    (h : Prog.Runs (resolveShard m) t (.ret r)) :
    (∃ M, t = [(Op.getByMerchantID m).gave (.ok M)] ∧ r = .ok M.shardIndex) ∨
      ∃ e e', t = [(Op.getByMerchantID m).gave (.error e)] ∧ r = .error e' := by
  unfold resolveShard at h
  rcases Svc.runs_ask.mp h with ⟨rfl, hq⟩ | ⟨a, t', rfl, h'⟩
  · cases hq
  cases a with
  | error e =>
    cases h'
    exact .inr ⟨e, _, rfl, rfl⟩
  | ok M =>
    cases h'
    exact .inl ⟨M, rfl, rfl⟩

theorem announce_next {i : UInt8} {m o : Str} {st : TransactionStatus} {t : Calls} {op : Op}
    {k : op.Ans → Svc (Res Unit)} (h : Prog.Runs (announce i m o st) t (.call op k)) :
    op = .getByMerchantOrderID i m o ∨ op = .timeNow ∨
      ∃ order now, op = .publishPaymentConfirmed (confirmedEvent order st now) ∧
        (Op.getByMerchantOrderID i m o).gave (.ok order) ∈ t := by
  unfold announce at h
  rcases Svc.runs_ask.mp h with ⟨rfl, hq⟩ | ⟨a, t', rfl, h'⟩
  · cases hq
    exact .inl rfl
  cases a with
  | error e => cases h'
  | ok order =>
    rcases Svc.runs_ask.mp h' with ⟨rfl, hq⟩ | ⟨now, t', rfl, h''⟩
    · cases hq
      exact .inr (.inl rfl)
    · rcases Prog.runs_call.mp h'' with ⟨rfl, hq⟩ | ⟨b, t', rfl, h3⟩
      · cases hq
        exact .inr (.inr ⟨order, now, rfl, List.mem_cons_self⟩)
      · cases h3

/-- The order was read back and its new status announced, or one of the two failed. -/
theorem announce_ret {i : UInt8} {m o : Str} {st : TransactionStatus} {t : Calls} {r : Res Unit}
    (h : Prog.Runs (announce i m o st) t (.ret r)) :
    (∃ e, t = [(Op.getByMerchantOrderID i m o).gave (.error e)]) ∨
      ∃ order now a, t = [(Op.getByMerchantOrderID i m o).gave (.ok order), Op.timeNow.gave now,
          (Op.publishPaymentConfirmed (confirmedEvent order st now)).gave a] ∧ r = a := by
  unfold announce at h
  rcases Svc.runs_ask.mp h with ⟨rfl, hq⟩ | ⟨a, t', rfl, h'⟩
  · cases hq
  cases a with
  | error e =>
    cases h'
    exact .inl ⟨e, rfl⟩
  | ok order =>
    rcases Svc.runs_ask.mp h' with ⟨rfl, hq⟩ | ⟨now, t', rfl, h''⟩
    · cases hq
    · rcases Prog.runs_call.mp h'' with ⟨rfl, hq⟩ | ⟨b, t', rfl, h3⟩
      · cases hq
      · obtain ⟨rfl, hr⟩ := Prog.runs_ret.mp h3
        cases hr
        exact .inr ⟨order, now, _, rfl, rfl⟩

namespace WebhookService

/-- The calls of a cross-check that came out well. -/
def CrossChecked (piID : Str) (t : Calls) : Prop :=
  (piID = [] ∧ t = []) ∨
    (piID ≠ [] ∧ ∃ pi, t = [(Op.getPaymentIntent piID).gave (.ok pi)] ∧
      pi.status = bytes "succeeded")

theorem crossCheck_next {piID : Str} {t : Calls} {op : Op} {k : op.Ans → Svc (Res Unit)}
    (h : Prog.Runs (crossCheck piID) t (.call op k)) :
    t = [] ∧ piID ≠ [] ∧ op = .getPaymentIntent piID := by
  unfold crossCheck at h
  split at h
  · cases h
  next hpi =>
  rcases Svc.runs_ask.mp h with ⟨rfl, hq⟩ | ⟨a, t', rfl, h'⟩
  · cases hq
    exact ⟨rfl, hpi, rfl⟩
  cases a with
  | error e => cases h'
  | ok pi =>
    simp only at h'
    split at h' <;> cases h'

/-- A cross-check passes, or Stripe refused to answer or to confirm. -/
theorem crossCheck_ret {piID : Str} {t : Calls} {r : Res Unit}
    (h : Prog.Runs (crossCheck piID) t (.ret r)) :
    (r = .ok () ∧ CrossChecked piID t) ∨
      ∃ e a, r = .error e ∧ t = [(Op.getPaymentIntent piID).gave a] ∧
        ∀ pi, a = .ok pi → pi.status ≠ bytes "succeeded" := by
  unfold crossCheck at h
  split at h
  · next hpi =>
    cases h
    exact .inl ⟨rfl, .inl ⟨hpi, rfl⟩⟩
  next hpi =>
  rcases Svc.runs_ask.mp h with ⟨rfl, hq⟩ | ⟨a, t', rfl, h'⟩
  · cases hq
  cases a with
  | error e =>
    cases h'
    refine .inr ⟨_, _, rfl, rfl, ?_⟩
    rintro pi ⟨⟩
  | ok pi =>
    simp only at h'
    split at h'
    · next hst =>
      cases h'
      refine .inr ⟨_, _, rfl, rfl, ?_⟩
      rintro pi' ⟨⟩
      exact hst
    · next hst =>
      cases h'
      exact .inl ⟨rfl, .inr ⟨hpi, pi, rfl, not_not.mp hst⟩⟩

variable (s : WebhookService)

/-- **The calls of a success handler.**  Before it asks for anything else it has had
the payment intent confirmed, if the object names one; it announces what it has written. -/
theorem handleSucceeded_next {e : StripeEvent} {t : Calls} {op : Op} {k : op.Ans → Svc (Res Unit)}
    (h : Prog.Runs (s.handleSucceeded e) t (.call op k)) :
    ∃ o, s.decodeStripeObject e = .ok o ∧ o.orderID ≠ [] ∧ o.merchantID ≠ [] ∧
      ((t = [] ∧ o.piID ≠ [] ∧ op = .getPaymentIntent o.piID) ∨
      ∃ t₁ t₂, t = t₁ ++ t₂ ∧ CrossChecked o.piID t₁ ∧
        (op = .getByMerchantID o.merchantID ∨
        (∃ i, op = .updateStatus i o.merchantID o.orderID .paid o.piID) ∨
        ∃ i, (Op.updateStatus i o.merchantID o.orderID .paid o.piID).gave (.ok ()) ∈ t₂ ∧
          (op = .getByMerchantOrderID i o.merchantID o.orderID ∨ op = .timeNow ∨
            ∃ order now, op = .publishPaymentConfirmed (confirmedEvent order .paid now) ∧
              (Op.getByMerchantOrderID i o.merchantID o.orderID).gave (.ok order) ∈ t₂))) := by
  unfold handleSucceeded at h
  split at h
  · cases h
  next o ho =>
  split at h
  · cases h
  next hids =>
  obtain ⟨hord, hmer⟩ := not_or.mp hids
  refine ⟨o, ho, hord, hmer, ?_⟩
  rcases Prog.runs_bind h with ⟨o', k', hr, hq⟩ | ⟨t₁, a, t₂, rfl, hc, h2⟩
  · cases hq
    exact .inl (crossCheck_next hr)
  rcases crossCheck_ret hc with ⟨rfl, hcc⟩ | ⟨e', a', rfl, -, -⟩
  · refine .inr ⟨t₁, t₂, rfl, hcc, ?_⟩
    rcases Prog.runs_bind h2 with ⟨o', k', hr, hq⟩ | ⟨t₃, b, t₄, rfl, hm, h3⟩
    · cases hq
      exact .inl (resolveShard_next hr).2
    cases b with
    | error e' => cases h3
    | ok i =>
      rcases Svc.runs_ask.mp h3 with ⟨rfl, hq⟩ | ⟨u, t', rfl, h4⟩
      · cases hq
        exact .inr (.inl ⟨i, rfl⟩)
      cases u with
      | error e' => cases h4
      | ok u =>
        refine .inr (.inr ⟨i, List.mem_append_right _ List.mem_cons_self, ?_⟩)
        rcases announce_next h4 with hop | hop | ⟨order, now, hop, hread⟩
        · exact .inl hop
        · exact .inr (.inl hop)
        · exact .inr (.inr ⟨order, now, hop, List.mem_append_right _ (.tail _ hread)⟩)
  · cases h2

theorem handleFailed_next {e : StripeEvent} {t : Calls} {op : Op} {k : op.Ans → Svc (Res Unit)}
    (h : Prog.Runs (s.handleFailed e) t (.call op k)) :
    (∃ m, op = .getByMerchantID m) ∨ ∃ i m o pi, op = .updateStatus i m o .failed pi := by
  unfold handleFailed at h
  split at h
  · cases h
  next o ho =>
  split at h
  · cases h
  rcases Prog.runs_bind h with ⟨o', k', hr, hq⟩ | ⟨t₁, a, t₂, rfl, -, h2⟩
  · cases hq
    exact .inl ⟨_, (resolveShard_next hr).2⟩
  cases a with
  | error e' => cases h2
  | ok i =>
    rcases Svc.runs_ask.mp h2 with ⟨rfl, hq⟩ | ⟨u, t', rfl, h3⟩
    · cases hq
      exact .inr ⟨i, _, _, _, rfl⟩
    · cases u <;> cases h3

theorem refundedOrder_next {o : StripeObject} {t : Calls} {op : Op}
    {k : op.Ans → Svc (Str × Str × Option UInt8)}
    (h : Prog.Runs (refundedOrder o) t (.call op k)) : op = .getByPaymentIntentID o.refundPiID := by
  unfold refundedOrder at h
  split at h
  · rcases Svc.runs_ask.mp h with ⟨rfl, hq⟩ | ⟨a, t', rfl, h'⟩
    · cases hq
      rfl
    · cases a <;> cases h'
  · cases h

/-- The ids of the object are enough, or there is nothing to look them up by; or the lookup
has found the order, or has failed. -/
theorem refundedOrder_ret {o : StripeObject} {t : Calls} {res : Str × Str × Option UInt8}
    (h : Prog.Runs (refundedOrder o) t (.ret res)) :
    (t = [] ∧ res = (o.orderID, o.merchantID, none) ∧
      (o.orderID = [] ∨ o.merchantID = [] → o.refundPiID = [])) ∨
      (o.refundPiID ≠ [] ∧ ∃ tx, t = [(Op.getByPaymentIntentID o.refundPiID).gave (.ok tx)] ∧
        res = (tx.orderID, tx.merchantID, some tx.shardIndex)) ∨
      (o.refundPiID ≠ [] ∧ (o.orderID = [] ∨ o.merchantID = []) ∧
        ∃ err, t = [(Op.getByPaymentIntentID o.refundPiID).gave (.error err)] ∧
          res = (o.orderID, o.merchantID, none)) := by
  unfold refundedOrder at h
  split at h
  · next hids =>
    rcases Svc.runs_ask.mp h with ⟨rfl, hq⟩ | ⟨a, t', rfl, h'⟩
    · cases hq
    cases a with
    | error err =>
      cases h'
      exact .inr (.inr ⟨hids.2, hids.1, err, rfl, rfl⟩)
    | ok tx =>
      cases h'
      exact .inr (.inl ⟨hids.2, tx, rfl, rfl⟩)
  · next hids =>
    cases h
    refine .inl ⟨rfl, rfl, fun hnil => ?_⟩
    by_contra hpi
    exact hids ⟨hnil, hpi⟩

theorem refundShard_next {m : Str} {i : Option UInt8} {t : Calls} {op : Op}
    {k : op.Ans → Svc (Res UInt8)} (h : Prog.Runs (refundShard m i) t (.call op k)) :
    op = .getByMerchantID m := by
  cases i with
  | some i => cases h
  | none => exact (resolveShard_next h).2

theorem handleRefunded_next {e : StripeEvent} {t : Calls} {op : Op} {k : op.Ans → Svc (Res Unit)}
    (h : Prog.Runs (s.handleRefunded e) t (.call op k)) :
    (∃ pi, op = .getByPaymentIntentID pi) ∨ (∃ m, op = .getByMerchantID m) ∨
      (∃ i m o pi, op = .updateStatus i m o .refunded pi) ∨
      (∃ i m o, op = .getByMerchantOrderID i m o) ∨ op = .timeNow ∨
      ∃ i m o order now, op = .publishPaymentConfirmed (confirmedEvent order .refunded now) ∧
        (Op.getByMerchantOrderID i m o).gave (.ok order) ∈ t := by
  unfold handleRefunded at h
  split at h
  · cases h
  next o ho =>
  rcases Prog.runs_bind h with ⟨o', k', hr, hq⟩ | ⟨t₁, ⟨oid, m, shard⟩, t₂, rfl, -, h2⟩
  · cases hq
    exact .inl ⟨_, refundedOrder_next hr⟩
  simp only at h2
  split at h2
  · cases h2
  rcases Prog.runs_bind h2 with ⟨o', k', hr, hq⟩ | ⟨t₃, b, t₄, rfl, -, h3⟩
  · cases hq
    exact .inr (.inl ⟨m, refundShard_next hr⟩)
  cases b with
  | error e' => cases h3
  | ok i =>
    rcases Svc.runs_ask.mp h3 with ⟨rfl, hq⟩ | ⟨u, t', rfl, h4⟩
    · cases hq
      exact .inr (.inr (.inl ⟨i, m, oid, _, rfl⟩))
    cases u with
    | error e' => cases h4
    | ok u =>
      rcases announce_next h4 with rfl | rfl | ⟨order, now, rfl, hread⟩
      · exact .inr (.inr (.inr (.inl ⟨i, m, oid, rfl⟩)))
      · exact .inr (.inr (.inr (.inr (.inl rfl))))
      · refine .inr (.inr (.inr (.inr (.inr ⟨i, m, oid, order, now, rfl, ?_⟩))))
        exact List.mem_append_right _ (List.mem_append_right _ (.tail _ hread))

/-- **The calls of Process**: the dedupe key first; its handler's calls once the key is
claimed. -/
theorem processEvent_runs {e : StripeEvent} {t : Calls} {q : Svc (Res Unit)}
    (h : Prog.Runs (s.processEvent e) t q) :
    (t = [] ∧ q = s.processEvent e) ∨
      (∃ err, t = [(Op.setNX (dedupKey e) (bytes "1") day).gave (.error err)] ∧
        q = .ret (.error (err.wrap (bytes "dedup setnx: ")))) ∨
      (t = [(Op.setNX (dedupKey e) (bytes "1") day).gave (.ok false)] ∧
        q = .ret (.error (.of .webhookDuplicate))) ∨
      ∃ t', t = (Op.setNX (dedupKey e) (bytes "1") day).gave (.ok true) :: t' ∧
        Prog.Runs (s.handle e) t' q := by
  have h0 := h
  unfold processEvent at h
  rcases Svc.runs_ask.mp h with ⟨rfl, rfl⟩ | ⟨a, t', rfl, h'⟩
  · cases h0
    exact .inl ⟨rfl, rfl⟩
  cases a with
  | error err =>
    cases h'
    exact .inr (.inl ⟨err, rfl, rfl⟩)
  | ok b =>
    cases b with
    | false =>
      cases h'
      exact .inr (.inr (.inl ⟨rfl, rfl⟩))
    | true => exact .inr (.inr (.inr ⟨t', rfl, h'⟩))

/-- The calls a handler makes; it writes the status of its event type and no other. -/
inductive HandlerCall (kind : EventKind) : Op → Prop
  | intent (id : Str) : HandlerCall kind (.getPaymentIntent id)
  | merchant (m : Str) : HandlerCall kind (.getByMerchantID m)
  | lookup (pi : Str) : HandlerCall kind (.getByPaymentIntentID pi)
  | write (i : UInt8) (m o pi : Str) (st : TransactionStatus) : kind.status = some st →
      HandlerCall kind (.updateStatus i m o st pi)
  | read (i : UInt8) (m o : Str) : HandlerCall kind (.getByMerchantOrderID i m o)
  | clock : HandlerCall kind .timeNow
  | announce (order : Transaction) (st : TransactionStatus) (now : Time) :
      kind.status = some st →
      HandlerCall kind (.publishPaymentConfirmed (confirmedEvent order st now))

theorem handle_next {e : StripeEvent} {t : Calls} {op : Op} {k : op.Ans → Svc (Res Unit)}
    (h : Prog.Runs (s.handle e) t (.call op k)) : HandlerCall e.kind op := by
  unfold handle at h
  split at h
  · next hk =>
    rw [hk]
    obtain ⟨o, -, -, -, ⟨-, -, rfl⟩ | ⟨t₁, t₂, -, -, h⟩⟩ := s.handleSucceeded_next h
    · exact .intent _
    · rcases h with rfl | ⟨i, rfl⟩ | ⟨i, -, rfl | rfl | ⟨order, now, rfl, -⟩⟩
      · exact .merchant _
      · exact .write _ _ _ _ _ rfl
      · exact .read _ _ _
      · exact .clock
      · exact .announce _ _ _ rfl
  · next hk =>
    rw [hk]
    rcases s.handleFailed_next h with ⟨m, rfl⟩ | ⟨i, m, o, pi, rfl⟩
    · exact .merchant _
    · exact .write _ _ _ _ _ rfl
  · next hk =>
    rw [hk]
    rcases s.handleRefunded_next h with ⟨pi, rfl⟩ | ⟨m, rfl⟩ | ⟨i, m, o, pi, rfl⟩ | ⟨i, m, o, rfl⟩ |
      rfl | ⟨i, m, o, order, now, rfl, -⟩
    · exact .lookup _
    · exact .merchant _
    · exact .write _ _ _ _ _ rfl
    · exact .read _ _ _
    · exact .clock
    · exact .announce _ _ _ rfl
  · cases h
  · cases h

/-- A handler announces the order it has read back. -/
theorem handle_announces {e : StripeEvent} {t : Calls} {ev : PaymentConfirmedEvent}
    {k : Res Unit → Svc (Res Unit)}
    (h : Prog.Runs (s.handle e) t (.call (.publishPaymentConfirmed ev) k)) :
    ∃ i m o order st now, ev = confirmedEvent order st now ∧
      (Op.getByMerchantOrderID i m o).gave (.ok order) ∈ t := by
  unfold handle at h
  split at h
  · obtain ⟨obj, -, -, -, ⟨-, -, hop⟩ | ⟨t₁, t₂, rfl, -, h⟩⟩ := s.handleSucceeded_next h
    · cases hop
    · rcases h with hop | ⟨i, hop⟩ | ⟨i, -, hop | hop | ⟨order, now, hop, hread⟩⟩
      · cases hop
      · cases hop
      · cases hop
      · cases hop
      · cases hop
        exact ⟨i, _, _, order, _, now, rfl, List.mem_append_right _ hread⟩
  · rcases s.handleFailed_next h with ⟨m, hop⟩ | ⟨i, m, o, pi, hop⟩
    · cases hop
    · cases hop
  · rcases s.handleRefunded_next h with ⟨pi, hop⟩ | ⟨m, hop⟩ | ⟨i, m, o, pi, hop⟩ | ⟨i, m, o, hop⟩ |
      hop | ⟨i, m, o, order, now, hop, hread⟩
    · cases hop
    · cases hop
    · cases hop
    · cases hop
    · cases hop
    · cases hop
      exact ⟨i, m, o, order, _, now, rfl, hread⟩
  · cases h
  · cases h

/-- **The calls of Process**: it claims the dedupe key, and then makes its handler's calls. -/
theorem process_next {payload sig : Str} {t : Calls} {op : Op} {k : op.Ans → Svc (Res Unit)}
    (h : Prog.Runs (s.process payload sig) t (.call op k)) :
    ∃ e, s.verifyWebhookSignature payload sig s.webhookSecret = .ok e ∧
      ((t = [] ∧ op = .setNX (dedupKey e) (bytes "1") day) ∨
        ∃ t', t = (Op.setNX (dedupKey e) (bytes "1") day).gave (.ok true) :: t' ∧
          Prog.Runs (s.handle e) t' (.call op k)) := by
  unfold process at h
  split at h
  · cases h
  next e he =>
  refine ⟨e, he, ?_⟩
  rcases s.processEvent_runs h with ⟨rfl, hq⟩ | ⟨err, -, hq⟩ | ⟨-, hq⟩ | ⟨t', rfl, hr⟩
  · cases hq
    exact .inl ⟨rfl, rfl⟩
  · cases hq
  · cases hq
  · exact .inr ⟨t', rfl, hr⟩

theorem handle_succeeded {s : WebhookService} {e : StripeEvent} (hk : e.kind = .succeeded) :
    s.handle e = s.handleSucceeded e := by
  unfold handle
  rw [hk]

theorem handle_refunded {s : WebhookService} {e : StripeEvent} (hk : e.kind = .refunded) :
    s.handle e = s.handleRefunded e := by
  unfold handle
  rw [hk]

theorem process_verified {s : WebhookService} {payload sig : Str} {e : StripeEvent}
    (he : s.verifyWebhookSignature payload sig s.webhookSecret = .ok e) :
    s.process payload sig = s.processEvent e := by
  unfold process
  rw [he]

/-- A handler has nothing from its service but the decoded object. -/
theorem handle_congr {s s' : WebhookService} {e : StripeEvent}
    (h : s.decodeStripeObject e = s'.decodeStripeObject e) : s.handle e = s'.handle e := by
  unfold handle handleSucceeded handleFailed handleRefunded
  rw [h]

/-- And `Process` nothing but the event and the object. -/
theorem process_congr {s s' : WebhookService} {payload sig payload' sig' : Str} {e : StripeEvent}
    (he : s.verifyWebhookSignature payload sig s.webhookSecret = .ok e)
    (he' : s'.verifyWebhookSignature payload' sig' s'.webhookSecret = .ok e)
    (ho : s.decodeStripeObject e = s'.decodeStripeObject e) :
    s.process payload sig = s'.process payload' sig' := by
  unfold process processEvent
  rw [he, he']
  simp only [handle_congr ho]

/-- **Refunds.**  Stripe is asked about an order of the merchant that has a payment intent, and about
no other. -/
theorem createRefund_next {inp : RefundInput} {t : Calls} {req : CreateRefundRequest} {key : Str}
    {k : (Op.createRefund req key).Ans → Svc (Res RefundResult)}
    (h : Prog.Runs (createRefund inp) t (.call (.createRefund req key) k)) :
    ∃ M order, inp.merchant = some M ∧ order.stripePaymentIntentID ≠ [] ∧
      t = [(Op.getByMerchantOrderID M.shardIndex M.merchantID inp.orderID).gave (.ok order)] ∧
      req = inp.request order ∧ key = inp.key order := by
  unfold createRefund at h
  split at h
  · cases h
  next M hM =>
  split at h
  · cases h
  rcases Svc.runs_ask.mp h with ⟨rfl, hq⟩ | ⟨a, t', rfl, h'⟩
  · cases hq
  cases a with
  | error e => cases h'
  | ok order =>
    simp only at h'
    split at h'
    · cases h'
    next hpi =>
    rcases Svc.runs_ask.mp h' with ⟨rfl, hq⟩ | ⟨b, t', rfl, h''⟩
    · cases hq
      exact ⟨M, order, hM, hpi, rfl, rfl, rfl⟩
    · cases b with
      | error e => cases h''
      | ok r => cases h''

theorem createRefund_asks {inp : RefundInput} {M : Merchant} {order : Transaction}
    (hM : inp.merchant = some M) (hid : inp.orderID ≠ []) (hpi : order.stripePaymentIntentID ≠ []) :
    ∃ k, Prog.Runs (createRefund inp)
      [(Op.getByMerchantOrderID M.shardIndex M.merchantID inp.orderID).gave (.ok order)]
      (.call (.createRefund (inp.request order) (inp.key order)) k) := by
  have hload : ∃ q, Prog.Runs (createRefund inp)
      [(Op.getByMerchantOrderID M.shardIndex M.merchantID inp.orderID).gave (.ok order)] q ∧
      ∃ k, q = .call (.createRefund (inp.request order) (inp.key order)) k := by
    unfold createRefund
    rw [hM]
    simp only [if_neg hid]
    refine ⟨_, Svc.runs_ask.mpr (.inr ⟨.ok order, [], rfl, .nil _⟩), ?_⟩
    simp only [if_neg hpi]
    exact ⟨_, rfl⟩
  obtain ⟨q, hruns, k, rfl⟩ := hload
  exact ⟨k, hruns⟩

/-- Once the key is claimed, `Process` does what its handler does. -/
theorem process_runs {payload sig : Str} {e : StripeEvent} {t : Calls} {q : Svc (Res Unit)}
    (he : s.verifyWebhookSignature payload sig s.webhookSecret = .ok e)
    (h : Prog.Runs (s.handle e) t q) :
    Prog.Runs (s.process payload sig)
      ((Op.setNX (dedupKey e) (bytes "1") day).gave (.ok true) :: t) q := by
  unfold process
  rw [he]
  exact Svc.runs_ask.mpr (.inr ⟨.ok true, t, rfl, h⟩)

end WebhookService

/-- What the HTTP client gets: the status code, and the error text of a JSON body. -/
structure HTTPResponse where
  status : Nat
  error : Option Str
  deriving DecidableEq, Repr

/-- `WebhookHandler.Stripe` on the outcome of `Process`. -/
def webhookResponse : Res Unit → HTTPResponse
  | .ok _ => ⟨200, none⟩
  | .error e =>
    if e.is .webhookDuplicate then ⟨200, none⟩
    else if e.is .webhookOrderMissing then ⟨500, some e.msg⟩
    else ⟨400, some e.msg⟩

end EasyPay
