import EasyPay.Gateway

/-!
# Checkout resolver

`internal/service/checkout_resolver.go`: `Resolve` turns a hosted-checkout link into
the URL of a Stripe session.  It answers from the pod's URL cache, from the session
stored in the order's row, or makes the session under a per-order lock and behind
the token bucket.

* `resolve_next`: every call of `Resolve` is about the order it was asked for, or about
  an order it has read under that name.
* `resolve_ok`: where a returned URL comes from.
-/

namespace EasyPay

open GoStrings Ports

structure CheckoutResolver where
  /-- The pod, which has a URL cache of its own. -/
  pod : Nat
  /-- `urlCache` and `bucket` may be nil. -/
  hasURLCache : Bool
  hasBucket : Bool
  defaultSuccessURL : Str
  defaultCancelURL : Str
  deriving DecidableEq, Repr

def stripeCheckoutURL (sessionID : Str) : Str := checkoutBase ++ sessionID

def withOrderQuery (base orderID : Str) : Str :=
  if base = [] then []
  else
    let sep := if contains base (bytes "?") then bytes "&" else bytes "?"
    base ++ sep ++ bytes "order_id=" ++ orderID

/-- The key of the URL cache, and the tail of the lock key. -/
def cacheKey (merchantID orderID : Str) : Str := merchantID ++ 58 :: orderID

def checkoutIdemKey (order : Transaction) : Str :=
  bytes "checkout:" ++ cacheKey order.merchantID order.orderID

namespace CheckoutResolver

variable (U : Unicode) (r : CheckoutResolver)

def cachedURL (key : Str) : Svc (Option Str) :=
  if r.hasURLCache then Svc.ask (.cacheGet r.pod key) else return none

def cacheURL (key url : Str) : Svc Unit :=
  if r.hasURLCache then Svc.ask (.cachePut r.pod key url) else return ()

/-- The request of `createSession`. -/
def sessionRequest (order : Transaction) : CreateCheckoutRequest :=
  { amount := order.amount
    currency := toLower U order.currency
    paymentMethodTypes := [bytes "card"]
    customerEmail := []
    -- the order keeps no URLs of its own, so the defaults always apply
    successURL := withOrderQuery r.defaultSuccessURL order.orderID
    cancelURL :=
      if r.defaultCancelURL ≠ [] then withOrderQuery r.defaultCancelURL order.orderID else []
    clientReferenceID := order.orderID
    metadata := [(bytes "order_id", order.orderID), (bytes "merchant_id", order.merchantID)] }

def createSession (order : Transaction) : Svc (Res CheckoutSession) :=
  Svc.ask (.createCheckoutSession (r.sessionRequest U order) (checkoutIdemKey order))

def resolveAfterLock (shardIdx : UInt8) (merchantID orderID : Str) : Svc (Res Str) := do
  match ← Svc.ask (.getByMerchantOrderID shardIdx merchantID orderID) with
  | .error _ => return .error (.of .orderNotReady)
  | .ok order =>
    if order.stripeSessionID ≠ [] then
      let url := stripeCheckoutURL order.stripeSessionID
      r.cacheURL (cacheKey merchantID orderID) url
      return .ok url
    else return .error (.of .orderNotReady)

/-- The rate limit in front of Stripe; a failing Redis lets the call through. -/
def allowed : Svc Bool := do
  if r.hasBucket then
    match ← Svc.ask .allow with
    | .ok _ => return true
    | .error e => return !e.is .rateLimited
  else return true

/-- Make the session, store it, and warm the cache. -/
def openSession (shardIdx : UInt8) (merchantID orderID : Str) (order : Transaction) :
    Svc (Res Str) := do
  match ← r.createSession U order with
  | .error e => if e.is .circuitOpen then return .error (.of .unavailable) else return .error e
  | .ok session =>
    -- a failed write is logged only
    let _ ← Svc.ask (.updateCheckout shardIdx merchantID orderID session.id
      session.paymentIntentID)
    r.cacheURL (cacheKey merchantID orderID) session.url
    return .ok session.url

/-- The session a second read under the lock finds. -/
def storedSession : Res Transaction → Str
  | .ok stored => stored.stripeSessionID
  | .error _ => []

/-- What `Resolve` does while it holds the lock; `order` was read before. -/
def underLock (shardIdx : UInt8) (merchantID orderID : Str) (order : Transaction) :
    Svc (Res Str) := do
  let again ← Svc.ask (.getByMerchantOrderID shardIdx merchantID orderID)
  if storedSession again ≠ [] then
    let url := stripeCheckoutURL (storedSession again)
    r.cacheURL (cacheKey merchantID orderID) url
    return .ok url
  else
    let ok ← r.allowed
    if ok then r.openSession U shardIdx merchantID orderID order
    else return .error (.of .unavailable)

/-- The order is there but has no session yet. -/
def openLazily (shardIdx : UInt8) (merchantID orderID : Str) (order : Transaction) :
    Svc (Res Str) := do
  match ← Svc.ask (.acquire (bytes "checkout:" ++ cacheKey merchantID orderID) (10 * second)) with
  | .error _ => r.resolveAfterLock shardIdx merchantID orderID
  | .ok lock =>
    let res ← r.underLock U shardIdx merchantID orderID order
    let _ ← Svc.ask (.release lock)
    return res

/-- `Resolve` once the merchant's shard is known. -/
def resolveOn (shardIdx : UInt8) (merchantID orderID : Str) : Svc (Res Str) := do
  match ← Svc.ask (.getByMerchantOrderID shardIdx merchantID orderID) with
  | .error e =>
    if e.is .notFound then return .error (.of .orderNotFound)
    else return .error (e.wrap (bytes "load order: "))
  | .ok order =>
    if order.stripeSessionID ≠ [] then
      let url := stripeCheckoutURL order.stripeSessionID
      r.cacheURL (cacheKey merchantID orderID) url
      return .ok url
    else r.openLazily U shardIdx merchantID orderID order

def resolve (merchantID orderID : Str) : Svc (Res Str) := do
  match ← r.cachedURL (cacheKey merchantID orderID) with
  | some url => return .ok url
  | none =>
    match ← Svc.ask (.getByMerchantID merchantID) with
    | .error e =>
      if e.is .merchantNotFound then return .error (.of .orderNotFound)
      else return .error (e.wrap (bytes "load merchant: "))
    | .ok merchant => r.resolveOn U merchant.shardIndex merchantID orderID

/-! ## What the calls of `Resolve` are -/

/-- The call that reads the order, and the call that makes a session for a read order. -/
abbrev readBy (i : UInt8) (m o : Str) (order : Transaction) : Prog.Step gateway :=
  (Op.getByMerchantOrderID i m o).gave (.ok order)

abbrev madeFor (order : Transaction) (session : CheckoutSession) : Prog.Step gateway :=
  (Op.createCheckoutSession (r.sessionRequest U order) (checkoutIdemKey order)).gave (.ok session)

/-- The URLs `Resolve(m, o)` takes from elsewhere than its cache: of a session stored in an
order it read, or of a session it had made for such an order. -/
inductive Sourced (m o : Str) (t : Calls) : Str → Prop
  | stored (i : UInt8) (order : Transaction) : readBy i m o order ∈ t →
      order.stripeSessionID ≠ [] → Sourced m o t (stripeCheckoutURL order.stripeSessionID)
  | made (i : UInt8) (order : Transaction) (session : CheckoutSession) : readBy i m o order ∈ t →
      r.madeFor U order session ∈ t → Sourced m o t session.url

/-- The calls `Resolve(m, o)` makes. -/
inductive ResolveCall (m o : Str) (t : Calls) : Op → Prop
  | cached : ResolveCall m o t (.cacheGet r.pod (cacheKey m o))
  | merchant : ResolveCall m o t (.getByMerchantID m)
  | read (i : UInt8) : ResolveCall m o t (.getByMerchantOrderID i m o)
  | acquire : ResolveCall m o t
      (.acquire (bytes "checkout:" ++ cacheKey m o) (10 * second))
  | release (lock : Lock) :
      (Op.acquire (bytes "checkout:" ++ cacheKey m o) (10 * second)).gave (.ok lock) ∈ t →
      ResolveCall m o t (.release lock)
  | allow : ResolveCall m o t .allow
  | create (i : UInt8) (order : Transaction) : readBy i m o order ∈ t →
      ResolveCall m o t
        (.createCheckoutSession (r.sessionRequest U order) (checkoutIdemKey order))
  | store (i : UInt8) (order : Transaction) (session : CheckoutSession) : readBy i m o order ∈ t →
      r.madeFor U order session ∈ t →
      ResolveCall m o t (.updateCheckout i m o session.id session.paymentIntentID)
  | warm (url : Str) : r.Sourced U m o t url →
      ResolveCall m o t (.cachePut r.pod (cacheKey m o) url)

/-- What `Resolve(m, o)` returns, apart from a cache hit. -/
def ResolveResult (m o : Str) (t : Calls) (res : Res Str) : Prop :=
  ∀ url, res = .ok url → r.Sourced U m o t url

theorem Sourced.mono {m o : Str} {t t' : Calls} {url : Str} (h : r.Sourced U m o t url)
    (ht : ∀ x ∈ t, x ∈ t') : r.Sourced U m o t' url := by
  cases h with
  | stored i order hr hs => exact .stored i order (ht _ hr) hs
  | made i order session hr hm => exact .made i order session (ht _ hr) (ht _ hm)

/-- Warming the cache with a URL and returning it. -/
theorem cacheURL_meets {m o : Str} {t : Calls} {url : Str} (h : r.Sourced U m o t url) :
    Prog.Meets (P := gateway) (r.ResolveCall U m o) (r.ResolveResult U m o)
      (do r.cacheURL (cacheKey m o) url; return .ok url) t := by
  have hret : ∀ t', (∀ x ∈ t, x ∈ t') → r.ResolveResult U m o t' (.ok url) := by
    intro t' ht url' hu
    cases hu
    exact h.mono U r ht
  unfold cacheURL
  by_cases hc : r.hasURLCache = true
  · rw [if_pos hc]
    refine Svc.meets_ask (.warm url h) fun a => ?_
    exact hret _ fun x hx => List.mem_append_left _ hx
  · rw [if_neg hc]
    exact hret t fun x hx => hx

theorem resolveResult_error {m o : Str} {t : Calls} (e : Err) :
    r.ResolveResult U m o t (.error e) := by
  rintro url ⟨⟩

theorem resolveAfterLock_meets (i : UInt8) (m o : Str) (t : Calls) :
    Prog.Meets (P := gateway) (r.ResolveCall U m o) (r.ResolveResult U m o)
      (r.resolveAfterLock i m o) t := by
  unfold resolveAfterLock
  refine Svc.meets_ask (.read i) fun a => ?_
  cases a with
  | error e => exact r.resolveResult_error U _
  | ok order =>
    simp only
    split
    · next hs => exact r.cacheURL_meets U (.stored i order (by simp) hs)
    · exact r.resolveResult_error U _

theorem openSession_meets {i : UInt8} {m o : Str} {order : Transaction} {t : Calls}
    (hr : readBy i m o order ∈ t) :
    Prog.Meets (P := gateway) (r.ResolveCall U m o) (r.ResolveResult U m o)
      (r.openSession U i m o order) t := by
  unfold openSession createSession
  refine Svc.meets_ask (.create i order hr) fun a => ?_
  cases a with
  | error e =>
    simp only
    split <;> exact r.resolveResult_error U _
  | ok session =>
    refine Svc.meets_ask (.store i order session (by simp [hr]) (by simp)) fun b => ?_
    exact r.cacheURL_meets U (.made i order session (by simp [hr]) (by simp))

theorem underLock_meets {i : UInt8} {m o : Str} {order : Transaction} {t : Calls}
    (hr : readBy i m o order ∈ t) :
    Prog.Meets (P := gateway) (r.ResolveCall U m o) (r.ResolveResult U m o)
      (r.underLock U i m o order) t := by
  unfold underLock
  refine Svc.meets_ask (.read i) fun again => ?_
  simp only
  split
  · next hs =>
    cases again with
    | error e => exact absurd rfl hs
    | ok stored => exact r.cacheURL_meets U (.stored i stored (by simp) hs)
  · refine Prog.meets_bind (R := fun t' _ => readBy i m o order ∈ t') ?_ fun t' ok ht' => ?_
    · unfold allowed
      split
      · refine Svc.meets_ask .allow fun b => ?_
        cases b <;> exact List.mem_append_left _ (List.mem_append_left _ hr)
      · exact List.mem_append_left _ hr
    · split
      · exact r.openSession_meets U ht'
      · exact r.resolveResult_error U _

theorem openLazily_meets {i : UInt8} {m o : Str} {order : Transaction} {t : Calls}
    (hr : readBy i m o order ∈ t) :
    Prog.Meets (P := gateway) (r.ResolveCall U m o) (r.ResolveResult U m o)
      (r.openLazily U i m o order) t := by
  unfold openLazily
  refine Svc.meets_ask .acquire fun a => ?_
  cases a with
  | error e => exact r.resolveAfterLock_meets U i m o _
  | ok lock =>
    refine Prog.meets_bind (r.underLock_meets U (List.mem_append_left _ hr)).extend
      fun t' res ⟨hpre, hres⟩ => ?_
    refine Svc.meets_ask (.release lock (hpre.subset (by simp))) fun b => ?_
    intro url hu
    exact (hres url hu).mono U r fun x hx => List.mem_append_left _ hx

theorem resolveOn_meets (i : UInt8) (m o : Str) (t : Calls) :
    Prog.Meets (P := gateway) (r.ResolveCall U m o) (r.ResolveResult U m o)
      (r.resolveOn U i m o) t := by
  unfold resolveOn
  refine Svc.meets_ask (.read i) fun a => ?_
  cases a with
  | error e =>
    simp only
    split <;> exact r.resolveResult_error U _
  | ok order =>
    simp only
    split
    · next hs => exact r.cacheURL_meets U (.stored i order (by simp) hs)
    · exact r.openLazily_meets U (by simp)

/-- What `Resolve(m, o)` returns. -/
def Resolved (m o : Str) (t : Calls) (res : Res Str) : Prop :=
  ∀ url, res = .ok url →
    (Op.cacheGet r.pod (cacheKey m o)).gave (some url) ∈ t ∨ r.Sourced U m o t url

theorem resolve_meets (m o : Str) :
    Prog.Meets (P := gateway) (r.ResolveCall U m o) (r.Resolved U m o) (r.resolve U m o) [] := by
  have herr : ∀ t e, r.Resolved U m o t (.error e) := by
    rintro t e url ⟨⟩
  unfold resolve
  refine Prog.meets_bind (R := fun t hit => ∀ url, hit = some url →
    (Op.cacheGet r.pod (cacheKey m o)).gave (some url) ∈ t) ?_ fun t hit hhit => ?_
  · unfold cachedURL
    split
    · refine ⟨.cached, fun a => ?_⟩
      rintro url rfl
      simp [Op.gave]
    · rintro url ⟨⟩
  cases hit with
  | some url =>
    rintro url' ⟨⟩
    exact .inl (hhit url rfl)
  | none =>
    refine Svc.meets_ask .merchant fun a => ?_
    cases a with
    | error e =>
      simp only
      split <;> exact herr _ _
    | ok M =>
      exact (r.resolveOn_meets U M.shardIndex m o _).imp fun t res h url hu => .inr (h url hu)

/-- **The calls of Resolve.** -/
theorem resolve_next {m o : Str} {t : Calls} {op : Op} {k : op.Ans → Svc (Res Str)}
    (h : Prog.Runs (r.resolve U m o) t (.call op k)) : r.ResolveCall U m o t op :=
  (r.resolve_meets U m o).call h

/-- **The results of Resolve.** -/
theorem resolve_ok {m o : Str} {t : Calls} {url : Str}
    (h : Prog.Runs (r.resolve U m o) t (.ret (.ok url))) :
    (Op.cacheGet r.pod (cacheKey m o)).gave (some url) ∈ t ∨ r.Sourced U m o t url :=
  (r.resolve_meets U m o).ret h url rfl

end CheckoutResolver

end EasyPay
