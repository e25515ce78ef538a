import EasyPay.Webhook.Refunds

/-!
# Refund requests

`POST /api/payments/:id/refund`: the handler of `internal/api/handler/refund.go`, the request id of
`internal/api/middleware/requestid.go`, and the parameters the client of
`internal/provider/stripe/impl.go` sends for a refund.

Fiber's `BodyParser` is a parameter, with an error for a body it cannot decode.

* `refund_as_asked_iff`: Stripe is asked for what the request asks for, unless its body cannot be
  decoded or its amount is negative; it is asked for a full refund then.
* `refund_keys_differ_iff`: when two requests have different idempotency keys.  The merchant is not
  part of the key.
-/

namespace EasyPay

open GoStrings Ports

/-! ## The handler -/

/-- `middleware.RequestID`: the client's `X-Request-ID`, or a generated one. -/
def requestID (header generated : Str) : Str := if header = [] then generated else header

structure RefundRequest where
  amount : Int64
  reason : Str
  deriving DecidableEq, Repr

/-- The responses, an error with its code and message. -/
inductive RefundResponse
  | accepted (res : RefundResult)
  | unauthorized (code msg : Str)
  | badRequest (code msg : Str)
  | internalError (code msg : Str)
  deriving DecidableEq, Repr

/-- A request, with what its client has chosen. -/
structure RefundPost where
  /-- The merchant of the HMAC middleware. -/
  merchant : Option Merchant
  id : Str
  header : Str
  generated : Str
  body : Str

namespace RefundHandler

variable (bodyParser : Str → Res RefundRequest)

/-- The decoded body.  An error counts as an empty body. -/
def decoded (body : Str) : RefundRequest :=
  match bodyParser body with
  | .ok req => req
  | .error _ => ⟨0, []⟩

def input (q : RefundPost) : RefundInput :=
  { merchant := q.merchant
    orderID := q.id
    amount := (decoded bodyParser q.body).amount
    reason := (decoded bodyParser q.body).reason
    idemKey := bytes "refund:" ++ q.id ++ bytes ":" ++ requestID q.header q.generated }

def create (q : RefundPost) : Svc RefundResponse := do
  match q.merchant with
  | none => return .unauthorized (bytes "missing_merchant") (bytes "merchant not authenticated")
  | some _ =>
    if q.id = [] then return .badRequest (bytes "missing_id") (bytes "order id required")
    else
      match ← WebhookService.createRefund (input bodyParser q) with
      | .error e => return .internalError (bytes "refund_failed") e.msg
      | .ok res => return .accepted res

end RefundHandler

/-! ## What Stripe is asked for -/

/-- The parameters of `refund.New`; no amount is a full refund. -/
structure RefundParams where
  paymentIntent : Str
  amount : Option Int64
  reason : Option Str
  metadata : StrMap
  idempotencyKey : Option Str
  deriving DecidableEq, Repr

def refundParams (req : CreateRefundRequest) (idempotencyKey : Str) : RefundParams :=
  { paymentIntent := req.paymentIntentID
    amount := if 0 < req.amount then some req.amount else none
    reason := if req.reason ≠ [] then some req.reason else none
    metadata := req.metadata
    idempotencyKey := if idempotencyKey ≠ [] then some idempotencyKey else none }

/-- What the body asks for: a full refund, the refund of an amount, or nothing that can be refunded. -/
def requested (bodyParser : Str → Res RefundRequest) (body : Str) : Option (Option Int64) :=
  match bodyParser body with
  | .ok req =>
    if 0 < req.amount then some (some req.amount) else if req.amount = 0 then some none else none
  | .error _ => if body = [] then some none else none

/-- The body is empty, or can be decoded and has no negative amount. -/
def Readable (bodyParser : Str → Res RefundRequest) (body : Str) : Prop :=
  match bodyParser body with
  | .ok req => 0 ≤ req.amount
  | .error _ => body = []

/-- What the handler makes of a body is what it asks for just when it is readable. -/
theorem requested_eq_iff {bodyParser : Str → Res RefundRequest} {body : Str} {order : Transaction}
    {key : Str} {inp : RefundInput} (hamount : inp.amount = (RefundHandler.decoded bodyParser body).amount) :
    requested bodyParser body = some (refundParams (inp.request order) key).amount ↔
      Readable bodyParser body := by
  have hparam : (refundParams (inp.request order) key).amount =
      if 0 < (RefundHandler.decoded bodyParser body).amount then
        some (RefundHandler.decoded bodyParser body).amount else none := by
    rw [← hamount]
    rfl
  rw [hparam]
  unfold requested Readable RefundHandler.decoded
  cases bodyParser body with
  | error e =>
    by_cases hbody : body = []
    · simp [hbody]
    · simp [hbody]
  | ok req =>
    simp only
    by_cases hpos : 0 < req.amount
    · simp [hpos, Int64.le_of_lt hpos]
    · by_cases hzero : req.amount = 0
      · simp [hzero]
      · have hneg : ¬ 0 ≤ req.amount := by
          intro hle
          exact hzero (Int64.le_antisymm (Int64.not_lt.mp hpos) hle)
        simp [hpos, hzero, hneg]

namespace RefundHandler

variable {bodyParser : Str → Res RefundRequest} {q : RefundPost}

theorem input_key (order : Transaction) : (input bodyParser q).key order =
    bytes "refund:" ++ q.id ++ bytes ":" ++ requestID q.header q.generated := by
  have hne : (input bodyParser q).idemKey ≠ [] := by
    unfold input
    simp [show bytes ":" = [58] from rfl]
  unfold RefundInput.key
  rw [if_neg hne]
  rfl

/-- The handler asks Stripe once, about an order of the merchant. -/
theorem create_next {t : Calls} {req : CreateRefundRequest} {key : Str}
    {k : (Op.createRefund req key).Ans → Svc RefundResponse}
    (h : Prog.Runs (create bodyParser q) t (.call (.createRefund req key) k)) :
    key = bytes "refund:" ++ q.id ++ bytes ":" ++ requestID q.header q.generated := by
  unfold create at h
  split at h
  · cases h
  split at h
  · cases h
  rcases Prog.runs_bind h with ⟨o, k', hr, hq⟩ | ⟨t₁, a, t₂, -, -, hr⟩
  · cases hq
    obtain ⟨M, order, -, -, -, -, hkey⟩ := WebhookService.createRefund_next hr
    exact hkey.trans (input_key order)
  · cases a with
    | error e => cases hr
    | ok res => cases hr

variable (bodyParser) in
/-- It does so for an order with a payment intent. -/
theorem create_asks {M : Merchant} {order : Transaction} (hM : q.merchant = some M) (hid : q.id ≠ [])
    (hpi : order.stripePaymentIntentID ≠ []) :
    ∃ key k, Prog.Runs (create bodyParser q)
      [(Op.getByMerchantOrderID M.shardIndex M.merchantID q.id).gave (.ok order)]
      (.call (.createRefund ((input bodyParser q).request order) key) k) := by
  have hmerchant : (input bodyParser q).merchant = some M := hM
  have horder : (input bodyParser q).orderID ≠ [] := hid
  obtain ⟨k, hk⟩ := WebhookService.createRefund_asks hmerchant horder hpi
  unfold create
  rw [hM]
  simp only [if_neg hid]
  exact ⟨_, _, hk.bind _⟩

end RefundHandler

open RefundHandler

/-- **A refund is what the request asks for** just when its body can be read; whatever the body, Stripe
is asked for a refund of the order. -/
theorem refund_as_asked_iff (bodyParser : Str → Res RefundRequest) {q : RefundPost} {M : Merchant}
    {order : Transaction} (hM : q.merchant = some M) (hid : q.id ≠ [])
    (hpi : order.stripePaymentIntentID ≠ []) :
    ∃ req key k, Prog.Runs (create bodyParser q)
        [(Op.getByMerchantOrderID M.shardIndex M.merchantID q.id).gave (.ok order)]
        (.call (.createRefund req key) k) ∧
      (refundParams req key).paymentIntent = order.stripePaymentIntentID ∧
      (requested bodyParser q.body = some (refundParams req key).amount ↔ Readable bodyParser q.body) := by
  obtain ⟨key, k, hruns⟩ := create_asks bodyParser hM hid hpi
  exact ⟨_, key, k, hruns, rfl, requested_eq_iff rfl⟩

/-! ## Samples

The order `o-1` of `m1` is paid, and so is the order `o-1` of `m2`. -/

theorem length_otherMerchant : (bytes "m2").length ≤ 16 := by decide

def Row.paidOther : Row :=
  { Row.paid with
    transactionID := List.replicate 16 2
    merchantID := bytes "m2"
    stripePiID := some (bytes "pi_2")
    transactionID_length := by decide
    merchantID_length := length_otherMerchant }

def World.paidOrders : World := { World.paidOrder with pools := fun _ => [Row.paid, Row.paidOther] }

/-- A request of the merchant `m` to refund its order `o-1`. -/
def RefundPost.of (m body : Str) : RefundPost :=
  { merchant := some (.named m)
    id := bytes "o-1"
    header := bytes "r-1"
    generated := []
    body := body }

/-- Decodes what the sample requests send, and nothing else. -/
def sampleParser (body : Str) : Res RefundRequest :=
  if body = bytes "\x7b\"amount\":500\x7d" then .ok ⟨500, []⟩
  else if body = bytes "\x7b\"amount\":-500\x7d" then .ok ⟨-500, []⟩
  else .error (.new (bytes "json: cannot unmarshal"))

/-- The requests, one after the other. -/
def refundPosts (qs : List RefundPost) : Sys gateway World Choice RefundResponse :=
  (Sys.start World.paidOrders (qs.map (create sampleParser))).run (exec (Deployment.sample .binary))
    ((List.range qs.length).flatMap fun i => steps i 2)

/-- What Stripe has been asked for. -/
def refundsAsked (hist : List CallEvent) : List RefundParams :=
  hist.filterMap fun e =>
    match e.op with
    | .createRefund req key => some (refundParams req key)
    | _ => none

/-- A body that cannot be decoded, and one with a negative amount, refund the whole payment. -/
theorem refund_not_as_asked :
    requested sampleParser (bytes "\x7b\"amount\":\"500\"\x7d") = none ∧
      requested sampleParser (bytes "\x7b\"amount\":-500\x7d") = none ∧
      (refundsAsked (refundPosts [.of (bytes "m1") (bytes "\x7b\"amount\":\"500\"\x7d"),
        .of (bytes "m2") (bytes "\x7b\"amount\":-500\x7d")]).hist).map
        (fun p => (p.paymentIntent, p.amount)) = [(bytes "pi_1", none), (bytes "pi_2", none)] := by
  refine ⟨by decide, by decide, by decide⟩

theorem refund_as_asked_sample :
    ∃ req key k, Prog.Runs (create sampleParser (.of (bytes "m1") (bytes "\x7b\"amount\":500\x7d")))
        [(Op.getByMerchantOrderID 0 (bytes "m1") (bytes "o-1")).gave
          (.ok (TransactionRepo.scanned Row.paid))] (.call (.createRefund req key) k) ∧
      (refundParams req key).amount = some 500 := by
  have hM : (RefundPost.of (bytes "m1") (bytes "\x7b\"amount\":500\x7d")).merchant =
      some (.named (bytes "m1")) := rfl
  have hid : (RefundPost.of (bytes "m1") (bytes "\x7b\"amount\":500\x7d")).id ≠ [] := by decide
  have hpi : (TransactionRepo.scanned Row.paid).stripePaymentIntentID ≠ [] := by decide
  obtain ⟨req, key, k, hruns, -, hiff⟩ := refund_as_asked_iff sampleParser hM hid hpi
  have hasked := hiff.mpr (show (0 : Int64) ≤ 500 by decide)
  exact ⟨req, key, k, hruns, (Option.some.inj hasked).symm⟩

/-! ## Idempotency keys -/

/-- **Two refunds have different keys** just when their order ids and request ids are not the same text
once they are joined by a colon. -/
theorem refund_keys_differ_iff {bodyParser : Str → Res RefundRequest} {q₁ q₂ : RefundPost} {t₁ t₂ : Calls}
    {req₁ req₂ : CreateRefundRequest} {key₁ key₂ : Str}
    {k₁ : (Op.createRefund req₁ key₁).Ans → Svc RefundResponse}
    {k₂ : (Op.createRefund req₂ key₂).Ans → Svc RefundResponse}
    (h₁ : Prog.Runs (create bodyParser q₁) t₁ (.call (.createRefund req₁ key₁) k₁))
    (h₂ : Prog.Runs (create bodyParser q₂) t₂ (.call (.createRefund req₂ key₂) k₂)) :
    key₁ ≠ key₂ ↔
      ¬ ((q₁.id = q₂.id ∧ requestID q₁.header q₁.generated = requestID q₂.header q₂.generated) ∨
        Shifted 58 q₁.id (requestID q₁.header q₁.generated) q₂.id (requestID q₂.header q₂.generated) ∨
        Shifted 58 q₂.id (requestID q₂.header q₂.generated) q₁.id
          (requestID q₁.header q₁.generated)) := by
  have hjoin : ∀ id r : Str, bytes "refund:" ++ id ++ bytes ":" ++ r = bytes "refund:" ++ (id ++ 58 :: r) := by
    intro id r
    rw [List.append_assoc, List.append_assoc]
    rfl
  rw [create_next h₁, create_next h₂, hjoin, hjoin, ← join_eq_join_iff, ne_eq, List.append_cancel_left_eq]

/-- The refunds of two merchants, under one key. -/
theorem refund_keys_shared :
    (refundsAsked (refundPosts [.of (bytes "m1") [], .of (bytes "m2") []]).hist).map
        (fun p => (p.paymentIntent, p.idempotencyKey)) =
      [(bytes "pi_1", some (bytes "refund:o-1:r-1")), (bytes "pi_2", some (bytes "refund:o-1:r-1"))] := by
  decide

theorem refund_keys_differ_sample :
    ∃ req₁ key₁ k₁ req₂ key₂ k₂,
      Prog.Runs (create sampleParser (.of (bytes "m1") []))
        [(Op.getByMerchantOrderID 0 (bytes "m1") (bytes "o-1")).gave
          (.ok (TransactionRepo.scanned Row.paid))] (.call (.createRefund req₁ key₁) k₁) ∧
      Prog.Runs (create sampleParser { RefundPost.of (bytes "m2") [] with header := bytes "r-2" })
        [(Op.getByMerchantOrderID 0 (bytes "m2") (bytes "o-1")).gave
          (.ok (TransactionRepo.scanned Row.paidOther))] (.call (.createRefund req₂ key₂) k₂) ∧
      key₁ ≠ key₂ := by
  have hM₁ : (RefundPost.of (bytes "m1") []).merchant = some (.named (bytes "m1")) := rfl
  have hM₂ : ({ RefundPost.of (bytes "m2") [] with header := bytes "r-2" } : RefundPost).merchant =
      some (.named (bytes "m2")) := rfl
  have hpi₁ : (TransactionRepo.scanned Row.paid).stripePaymentIntentID ≠ [] := by decide
  have hpi₂ : (TransactionRepo.scanned Row.paidOther).stripePaymentIntentID ≠ [] := by decide
  obtain ⟨key₁, k₁, h₁⟩ := create_asks sampleParser hM₁ (by decide) hpi₁
  obtain ⟨key₂, k₂, h₂⟩ := create_asks sampleParser hM₂ (by decide) hpi₂
  refine ⟨_, key₁, k₁, _, key₂, k₂, h₁, h₂, (refund_keys_differ_iff h₁ h₂).mpr ?_⟩
  rintro (⟨-, hr⟩ | hshift | hshift)
  · exact absurd hr (by decide)
  · exact absurd hshift.length_lt (by decide)
  · exact absurd hshift.length_lt (by decide)

end EasyPay
