import EasyPay.Lib.Double
import EasyPay.Lib.PortSum
import EasyPay.Api.Auth
import EasyPay.Api.Checkout
import EasyPay.Api.Refund
import EasyPay.Cache.RateLimiter
import EasyPay.Repository.MerchantLookup

/-!
# The HTTP server

`internal/api/router.go` with its middleware and handlers, over the services.  A request is a
program: besides the calls of the services it looks up an API key and asks the rate limiter, which
are the calls of the `edge` port.

* `/api`: `HMACAuth`, then `RateLimit`, then the handler, with the merchant of the API key.
* `/admin`: `AdminAuth`; not mounted without an admin key.
* `/pay`: the token of the link.
* `/webhook/stripe`: the signature of Stripe, checked by the service.

What is Fiber's own is a parameter: how a path matches the pattern of a route (`Server.params`), and
`BodyParser` for each kind of body.  So is the formatting of times.  Health checks, metrics and the
pages after a checkout make no calls of these ports and are left out.  A request below `/api` that
matches no route is left out too: it passes `HMACAuth` and `RateLimit` like the others, and then gets
Fiber's 404.
-/

namespace EasyPay

open GoStrings Ports

/-! ## Calls -/

inductive EdgeOp
  | getByAPIKey (apiKey : Str)
  /-- `RateLimiter.Allow` with a window of a minute. -/
  | rateAllow (key : Str) (limit : Int)
  deriving DecidableEq, Repr

@[reducible] def EdgeOp.Ans : EdgeOp → Type
  | getByAPIKey _ => Res Merchant
  | rateAllow _ _ => Res (Bool × Int)

abbrev edge : Port := ⟨EdgeOp, EdgeOp.Ans⟩

abbrev web : Port := gateway.sum edge

abbrev Web (α : Type) := Prog web α

namespace Web

def svc {α : Type} (p : Svc α) : Web α := Prog.inl p

def edge (o : EdgeOp) : Web o.Ans := Prog.perform (P := web) (.inr o)

/-- A call of a service, or of the edge, with its answer. -/
abbrev gave (o : Op) (a : o.Ans) : Prog.Step web := ⟨.inl o, a⟩

abbrev edgeGave (o : EdgeOp) (a : o.Ans) : Prog.Step web := ⟨.inr o, a⟩

end Web

/-! ## Requests and replies -/

inductive Method
  | get
  | head
  | post
  | other
  deriving DecidableEq, Repr

/-- What is read of a request; a missing header reads as the empty string. -/
structure Request where
  method : Method
  target : Str
  apiKey : Str
  timestamp : Str
  signature : Str
  adminKey : Str
  stripeSignature : Str
  requestID : Str
  /-- The request id made up for a request without one. -/
  generated : Str
  body : Str
  deriving DecidableEq, Repr

def Request.auth (req : Request) : AuthRequest :=
  ⟨req.apiKey, req.timestamp, req.signature, req.body⟩

structure CreatePaymentRequest where
  orderID : Str
  amount : Int64
  currency : Str
  paymentMethodTypes : List Str
  customerEmail : Str
  successURL : Str
  cancelURL : Str
  deriving DecidableEq, Repr

structure PaymentStatusResponse where
  orderID : Str
  transactionID : Str
  status : Str
  amount : Int64
  currency : Str
  paymentMethod : Str
  stripeSessionID : Str
  stripePaymentIntentID : Str
  checkoutURL : Str
  createdAt : Str
  updatedAt : Str
  deriving DecidableEq, Repr

/-- `response.Envelope`, by its kinds of data, and the replies that have none. -/
inductive ReplyBody
  | error (code msg : Str)
  | payment (res : CreatePaymentResult)
  | order (out : PaymentStatusResponse)
  | refund (res : RefundResult)
  | merchant (res : CreateMerchantResult)
  | page (page : CheckoutResponse)
  | webhook (error : Option Str)

/-- A reply, with the headers of the rate limiter. -/
structure Reply where
  status : Nat
  body : ReplyBody
  rate : Option (Str × Str) := none

def fail (status : Nat) (code msg : Str) : Reply := { status := status, body := .error code msg }

/-! ## Routes -/

inductive Endpoint
  | createPayment
  | getPayment (id : Str)
  | refundPayment (id : Str)
  | createMerchant
  | stripeWebhook
  | pay (merchantID orderID : Str)
  deriving DecidableEq, Repr

/-- A route of `NewRouter`: its method and pattern, and the endpoint at what its parameters are. -/
structure Route where
  method : Method
  pattern : Str
  endpoint : List Str → Option Endpoint

/-- The routes that lead to a service, in the order they are added. -/
def routes : List Route :=
  [⟨.post, bytes "/webhook/stripe", fun _ => some .stripeWebhook⟩,
   ⟨.get, bytes "/pay/:merchant_id/:order_id", fun
      | [merchantID, orderID] => some (.pay merchantID orderID)
      | _ => none⟩,
   ⟨.post, bytes "/api/payments", fun _ => some .createPayment⟩,
   ⟨.get, bytes "/api/payments/:id", fun
      | [id] => some (.getPayment id)
      | _ => none⟩,
   ⟨.post, bytes "/api/payments/:id/refund", fun
      | [id] => some (.refundPayment id)
      | _ => none⟩,
   ⟨.post, bytes "/admin/merchants", fun _ => some .createMerchant⟩]

/-- What is added with `Get` answers `HEAD` as well. -/
def Method.answers : Method → Method → Bool
  | .get, .head => true
  | added, asked => added == asked

/-! ## Middleware -/

/-- `HMACAuth`, over the calls of the server. -/
def hmacAuth (D : Deployment) (skew : Int64) (req : AuthRequest) : Web AuthAnswer :=
  HMACAuth.middleware D.hmacSHA256 (do return unix (← Web.svc (Svc.ask .timeNow)))
    (fun apiKey => Web.edge (.getByAPIKey apiKey)) skew req

/-- The limit of a merchant. -/
def limitOf (m : Merchant) : Int := if m.rateLimit ≤ 0 then 1000 else m.rateLimit

/-- `RateLimit`: the headers it sets, and whether the next handler is called. -/
def rateLimit (m : Merchant) : Web (Option (Str × Str) × Bool) := do
  match ← Web.edge (.rateAllow m.merchantID (limitOf m)) with
  | .error _ => return (none, true)
  | .ok (allowed, remaining) =>
    return (some (formatInt (limitOf m), formatInt remaining), allowed)

/-- `AdminAuth`. -/
def adminAuth (expected got : Str) : Option Reply :=
  if expected = [] then
    some (fail 401 (bytes "admin_disabled") (bytes "admin endpoints disabled"))
  else if got = [] ∨ got ≠ expected then
    some (fail 401 (bytes "bad_admin_key") (bytes "X-Admin-Key invalid or missing"))
  else none

/-! ## Handlers -/

structure Server where
  payments : PaymentService
  webhooks : WebhookService
  checkout : CheckoutHandler
  merchants : MerchantRepo
  hmacSkew : Int64
  adminAPIKey : Str
  parsePayment : Str → Res CreatePaymentRequest
  parseRefund : Str → Res RefundRequest
  parseMerchant : Str → Res CreateMerchantInput
  formatUTC : Time → Str
  /-- Fiber's match of a path with a pattern, and what the parameters of the pattern are then. -/
  params : (pattern path : Str) → Option (List Str)

namespace Server

variable (D : Deployment) (S : Server)

/-- The first route that matches. -/
def endpoint (req : Request) : Option Endpoint :=
  routes.findSome? fun r =>
    if r.method.answers req.method then
      (S.params r.pattern (Target.path req.target)).bind r.endpoint
    else none

/-- The input `PaymentHandler.Create` makes of its request. -/
def paymentInput (m : Merchant) (r : CreatePaymentRequest) (method : Str) : CreatePaymentInput :=
  { merchant := some m
    orderID := r.orderID
    amount := r.amount
    currency := r.currency
    paymentMethodTypes := r.paymentMethodTypes
    customerEmail := r.customerEmail
    successURL := r.successURL
    cancelURL := r.cancelURL
    method := method }

/-- What `PaymentHandler.Create` answers. -/
def paymentReply : Res CreatePaymentResult → Reply
  | .ok res => { status := 202, body := .payment res }
  | .error e =>
    if e.is .invalidRequest then fail 400 (bytes "invalid_request") e.msg
    else if e.is .transactionConflict then fail 409 (bytes "transaction_conflict") e.msg
    else fail 500 (bytes "create_failed") e.msg

def createPayment (req : Request) (m : Merchant) : Svc Reply :=
  match S.parsePayment req.body with
  | .error _ => return fail 400 (bytes "bad_json") (bytes "invalid JSON body")
  | .ok r => do
    let method := Target.value (bytes "method") (Target.query req.target)
    return paymentReply (← S.payments.create D (paymentInput m r method))

def checkoutURLFor (o : Transaction) : Str :=
  if o.stripeSessionID = [] then [] else stripeCheckoutURL o.stripeSessionID

def statusOf (order : Transaction) : PaymentStatusResponse :=
  { orderID := order.orderID
    transactionID := order.transactionID
    status := order.status.text
    amount := order.amount
    currency := order.currency
    paymentMethod := order.paymentMethod
    stripeSessionID := order.stripeSessionID
    stripePaymentIntentID := order.stripePaymentIntentID
    checkoutURL := checkoutURLFor order
    createdAt := S.formatUTC order.createdAt
    updatedAt := S.formatUTC order.updatedAt }

/-- `PaymentStatusHandler.Get`. -/
def getPayment (id : Str) (m : Merchant) : Svc Reply := do
  if id = [] then return fail 400 (bytes "missing_id") (bytes "order id required")
  else
    match ← Svc.ask (.getByMerchantOrderID m.shardIndex m.merchantID id) with
    | .error e =>
      if e.is .notFound || e.is .invalidOrderID then
        return fail 404 (bytes "not_found") (bytes "order not found")
      else return fail 500 (bytes "lookup_failed") e.msg
    | .ok order => return { status := 200, body := .order (S.statusOf order) }

def refundReply : RefundResponse → Reply
  | .accepted res => { status := 202, body := .refund res }
  | .unauthorized code msg => fail 401 code msg
  | .badRequest code msg => fail 400 code msg
  | .internalError code msg => fail 500 code msg

def refundPayment (req : Request) (id : Str) (m : Merchant) : Svc Reply := do
  return refundReply
    (← RefundHandler.create S.parseRefund ⟨some m, id, req.requestID, req.generated, req.body⟩)

/-- What `MerchantHandler.Create` answers. -/
def merchantReply : Res CreateMerchantResult → Reply
  | .ok res => { status := 201, body := .merchant res }
  | .error e =>
    if e.is .invalidRequest then fail 400 (bytes "invalid_request") e.msg
    else fail 500 (bytes "create_failed") e.msg

def createMerchant (body : Str) : Svc Reply :=
  match S.parseMerchant body with
  | .error _ => return fail 400 (bytes "bad_json") (bytes "invalid JSON body")
  | .ok inp => do return merchantReply (← MerchantService.create S.merchants inp)

def pageReply (page : CheckoutResponse) : Reply :=
  { status :=
      match page with
      | .redirect _ => 302
      | .invalid => 410
      | .notFound => 404
      | .notReady => 503
      | .unavailable => 503
    body := .page page }

def webhookReply (r : HTTPResponse) : Reply := { status := r.status, body := .webhook r.error }

/-! ## Serving -/

/-- The group `/api`: the handler is called for the merchant the middleware has found. -/
def merchantAPI (req : Request) (handler : Merchant → Svc Reply) : Web Reply := do
  match ← hmacAuth D S.hmacSkew req.auth with
  | .unauthorized code msg => return fail 401 code msg
  | .next m =>
    let (rate, allowed) ← rateLimit m
    if allowed then
      let reply ← Web.svc (handler m)
      return { reply with rate := rate }
    else
      return { fail 429 (bytes "rate_limited") (bytes "merchant rate limit exceeded") with
        rate := rate }

/-- A request that was routed.  The group `/admin` is mounted with an admin key only. -/
def respond (req : Request) : Endpoint → Option (Web Reply)
  | .createPayment => some (S.merchantAPI D req (S.createPayment D req))
  | .getPayment id => some (S.merchantAPI D req (S.getPayment id))
  | .refundPayment id => some (S.merchantAPI D req (S.refundPayment req id))
  | .createMerchant =>
    if S.adminAPIKey = [] then none
    else
      match adminAuth S.adminAPIKey req.adminKey with
      | some reply => some (return reply)
      | none => some (Web.svc (S.createMerchant req.body))
  | .stripeWebhook => some (Web.svc do
      return webhookReply (webhookResponse (← S.webhooks.process req.body req.stripeSignature)))
  | .pay merchantID orderID => some (Web.svc do
      return pageReply (← S.checkout.redirect D merchantID orderID
        (Target.value (bytes "t") (Target.query req.target))))

/-- The program of a request, if it is for one of the modelled routes. -/
def serve (req : Request) : Option (Web Reply) :=
  (S.endpoint req).bind (S.respond D req)

end Server

/-! ## Runs -/

structure WebWorld where
  world : World
  windows : RateLimiter.Windows

def minute : Time := 60 * second

/-- `Time.UnixNano`. -/
def unixNano (t : Time) : Int := t - unixEpoch

/-- The effect of a call.  The merchant cache answers what the query would
(`MerchantLookup.lookup_spec`); the script of the limiter computes in doubles. -/
def webExec (D : Deployment) : (o : web.Op) → Choice → WebWorld → web.Ans o × WebWorld
  | .inl o, c, w => ((exec D o c w.world).1, { w with world := (exec D o c w.world).2 })
  | .inr (.getByAPIKey apiKey), c, w =>
    (MerchantLookup.query D.collation c.fault (.byAPIKey apiKey) w.world.merchants, w)
  | .inr (.rateAllow key limit), c, w =>
    let call : RateLimiter.Call :=
      { key := key, limit := limit, window := minute, now := unixNano c.now, fault := c.fault,
        reached := c.reached }
    ((RateLimiter.allow Double.round call w.windows).1,
      { w with windows := (RateLimiter.allow Double.round call w.windows).2 })

/-- No merchant goes away. -/
theorem exec_merchants_subset (D : Deployment) (o : Op) (c : Choice) (w : World) :
    w.merchants ⊆ (exec D o c w).2.merchants := by
  by_cases ho : ∃ m, o = .insertMerchant m
  · obtain ⟨m, rfl⟩ := ho
    show w.merchants ⊆ (insertMerchant D.collation c.fault m w.merchants).2
    unfold insertMerchant
    split
    · exact List.Subset.refl _
    · split
      · exact List.Subset.refl _
      · exact List.subset_append_left _ _
  · rw [exec_merchants D (fun m h => ho ⟨m, h⟩)]
    exact List.Subset.refl _

theorem webExec_merchants_subset (D : Deployment) (o : web.Op) (c : Choice) (w : WebWorld) :
    w.world.merchants ⊆ (webExec D o c w).2.world.merchants := by
  match o with
  | .inl o => exact exec_merchants_subset D o c w.world
  | .inr (.getByAPIKey _) => exact List.Subset.refl _
  | .inr (.rateAllow _ _) => exact List.Subset.refl _

/-- Requests as they are being served. -/
abbrev Serving := Sys web WebWorld Choice Reply

/-- The state after the schedule `xs`; requests for other routes are not among `ps`. -/
def Serving.run (D : Deployment) (w : WebWorld) (ps : List (Web Reply)) (xs : List (Nat × Choice)) :
    Serving :=
  Sys.run (webExec D) (Sys.start w ps) xs

end EasyPay
