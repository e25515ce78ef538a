import EasyPay.Gateway
import EasyPay.Pkg.CheckoutToken

/-!
# Payment service

`internal/service/payment_service.go`: `Create` inserts the order under a
transaction id derived from the merchant and the order id, and then starts the
crypto flow, hands out a hosted-checkout link, or makes a Stripe session.  The
loser of an insert race answers from the winner's row.
-/

namespace EasyPay

open GoStrings Ports

structure CreatePaymentInput where
  merchant : Option Merchant
  orderID : Str
  amount : Int64
  currency : Str
  paymentMethodTypes : List Str
  customerEmail : Str
  successURL : Str
  cancelURL : Str
  method : Str
  deriving DecidableEq, Repr

structure CryptoPayload where
  contractAddress : Str
  orderID : Str
  amount : Int64
  chainID : Int64
  deriving DecidableEq, Repr

structure CreatePaymentResult where
  orderID : Str
  transactionID : Str
  stripeSessionID : Str
  checkoutURL : Str
  stripePaymentIntentID : Str
  clientSecret : Str
  status : Str
  cryptoPayload : Option CryptoPayload
  deriving DecidableEq, Repr

structure PaymentService where
  currency : Str
  cryptoContract : Str
  cryptoChainID : Int64
  lazyCheckout : Bool
  publicBaseURL : Str
  checkoutSecret : Str
  checkoutTokenTTL : Time
  defaultSuccessURL : Str
  defaultCancelURL : Str
  deriving DecidableEq, Repr

/-- `NewPaymentService`: a zero token lifetime is a day. -/
def newPaymentService (opts : PaymentService) : PaymentService :=
  { opts with
    checkoutTokenTTL :=
      if opts.checkoutTokenTTL = 0 then 24 * 3600 * second else opts.checkoutTokenTTL }

/-- The bytes that are hashed into a transaction id: `merchant_id ':' order_id`. -/
def hashInput (merchantID orderID : Str) : Str := merchantID ++ 58 :: orderID

/-- The first sixteen bytes of SHA-256. -/
def Deployment.hash16 (D : Deployment) (s : Str) : Str := (D.sha256 s).take 16

def deriveTransactionID (D : Deployment) (merchantID orderID : Str) : Str :=
  hexEncode (D.hash16 (hashInput merchantID orderID))

def isCrypto (U : Unicode) (inp : CreatePaymentInput) : Bool :=
  equalFold U inp.method (bytes "crypto")

def primaryMethod (U : Unicode) (inp : CreatePaymentInput) : Str :=
  if isCrypto U inp then bytes "crypto_eth"
  else
    match inp.paymentMethodTypes with
    | t :: _ => t
    | [] => bytes "card"

def defaultIfEmpty (v dflt : List Str) : List Str := if v = [] then dflt else v

def orFallback (v dflt : Str) : Str := if v ≠ [] then v else dflt

/-- Whether the stored order and the request are the same payment. -/
def sameMaterialPayment (U : Unicode) (existing : Transaction) (amount : Int64)
    (currency method : Str) : Bool :=
  if existing.amount ≠ amount then false
  else if !equalFold U existing.currency currency then false
  else
    let wasCrypto := hasPrefix existing.paymentMethod (bytes "crypto")
    let wantCrypto := hasPrefix method (bytes "crypto")
    wasCrypto == wantCrypto

namespace PaymentService

variable (D : Deployment) (s : PaymentService)

/-- The link to the hosted checkout; its token is signed with the time of the call. -/
def lazyCheckoutURL (merchantID orderID : Str) : Svc Str := do
  let base := s.publicBaseURL ++ bytes "/pay/" ++ merchantID ++ bytes "/" ++ orderID
  if s.checkoutSecret = [] then return base
  else
    let now ← Svc.ask .timeNow
    let token := CheckoutToken.sign D.hmacSHA256 now s.checkoutSecret merchantID orderID
      s.checkoutTokenTTL
    if token = [] then return base else return base ++ bytes "?t=" ++ token

def cryptoPayload (orderID : Str) (amount : Int64) : CryptoPayload :=
  ⟨s.cryptoContract, orderID, amount, s.cryptoChainID⟩

/-- The response to a retry, from the stored order. -/
def reconstructResult (merchantID : Str) (o : Transaction) : Svc CreatePaymentResult := do
  let res : CreatePaymentResult :=
    { orderID := o.orderID
      transactionID := o.transactionID
      stripeSessionID := o.stripeSessionID
      checkoutURL := []
      stripePaymentIntentID := o.stripePaymentIntentID
      clientSecret := []
      status := bytes "accepted"
      cryptoPayload := none }
  if hasPrefix o.paymentMethod (bytes "crypto") then
    return { res with cryptoPayload := some (s.cryptoPayload o.orderID o.amount) }
  else if o.stripeSessionID ≠ [] then
    return { res with checkoutURL := checkoutBase ++ o.stripeSessionID }
  else
    let url ← s.lazyCheckoutURL D merchantID o.orderID
    return { res with checkoutURL := url }

/-- The upper-cased currency, the service's own if the request has none. -/
def normalizedCurrency (inp : CreatePaymentInput) : Str :=
  toUpper D.unicode (if inp.currency = [] then s.currency else inp.currency)

/-- The row `Create` inserts. -/
def newRow (merchant : Merchant) (inp : CreatePaymentInput) : Transaction :=
  { merchantID := merchant.merchantID
    transactionID := deriveTransactionID D merchant.merchantID inp.orderID
    orderID := inp.orderID
    amount := inp.amount
    currency := s.normalizedCurrency D inp
    status := .created
    paymentMethod := primaryMethod D.unicode inp
    stripeSessionID := []
    stripePaymentIntentID := []
    createdAt := 0
    updatedAt := 0
    shardIndex := merchant.shardIndex }

/-- The request for an eager Stripe session. -/
def checkoutRequest (merchant : Merchant) (inp : CreatePaymentInput) : CreateCheckoutRequest :=
  { amount := inp.amount
    currency := toLower D.unicode (s.normalizedCurrency D inp)
    paymentMethodTypes := defaultIfEmpty inp.paymentMethodTypes [bytes "card"]
    customerEmail := inp.customerEmail
    successURL := orFallback inp.successURL s.defaultSuccessURL
    cancelURL := orFallback inp.cancelURL s.defaultCancelURL
    clientReferenceID := inp.orderID
    metadata := [(bytes "order_id", inp.orderID), (bytes "merchant_id", merchant.merchantID)] }

/-- `Create` after its own insert went through: the chosen flow. -/
def startFlow (merchant : Merchant) (inp : CreatePaymentInput) : Svc (Res CreatePaymentResult) := do
  let txnID := deriveTransactionID D merchant.merchantID inp.orderID
  let result : CreatePaymentResult :=
    { orderID := inp.orderID
      transactionID := txnID
      stripeSessionID := []
      checkoutURL := []
      stripePaymentIntentID := []
      clientSecret := []
      status := bytes "accepted"
      cryptoPayload := none }
  if isCrypto D.unicode inp then
    return .ok { result with cryptoPayload := some (s.cryptoPayload inp.orderID inp.amount) }
  else if s.lazyCheckout then
    let url ← s.lazyCheckoutURL D merchant.merchantID inp.orderID
    return .ok { result with checkoutURL := url }
  else
    match ← Svc.ask (.createCheckoutSession (s.checkoutRequest D merchant inp) txnID) with
    | .error e => return .error (e.wrap (bytes "stripe checkout: "))
    | .ok session =>
      match ← Svc.ask (.updateCheckout merchant.shardIndex merchant.merchantID inp.orderID
          session.id session.paymentIntentID) with
      | .error e => return .error (e.wrap (bytes "persist stripe session: "))
      | .ok _ =>
        return .ok
          { result with
            stripeSessionID := session.id
            checkoutURL := session.url
            stripePaymentIntentID := session.paymentIntentID
            clientSecret := session.clientSecret }

/-- `Create` after it lost the insert race: answer from the winner's row. -/
def answerRetry (merchant : Merchant) (inp : CreatePaymentInput) :
    Svc (Res CreatePaymentResult) := do
  match ← Svc.ask (.getByTransactionID merchant.shardIndex merchant.merchantID
      (deriveTransactionID D merchant.merchantID inp.orderID)) with
  | .error e => return .error (e.wrap (bytes "idem lookup: "))
  | .ok existing =>
    if !sameMaterialPayment D.unicode existing inp.amount (s.normalizedCurrency D inp)
        (primaryMethod D.unicode inp) then
      return .error (.because .transactionConflict
        (bytes "amount/currency/method mismatch with order " ++ existing.orderID))
    else
      let res ← s.reconstructResult D merchant.merchantID existing
      return .ok res

def create (inp : CreatePaymentInput) : Svc (Res CreatePaymentResult) := do
  match inp.merchant with
  | none => return .error (.because .invalidRequest (bytes "merchant required"))
  | some merchant =>
    match validateOrderID inp.orderID with
    | .error e => return .error (.because .invalidRequest e.msg)
    | .ok _ =>
      if inp.amount ≤ 0 then
        return .error (.because .invalidRequest (bytes "amount must be > 0"))
      else
        match ← Svc.ask (.insert (s.newRow D merchant inp)) with
        | .error e =>
          if !e.is .duplicateTransaction then return .error (e.wrap (bytes "insert order: "))
          else s.answerRetry D merchant inp
        | .ok _ => s.startFlow D merchant inp

/-! ## What the calls of `Create` are -/

/-- Building a link asks for the time at most. -/
theorem lazyCheckoutURL_next {m o : Str} {t : Calls} {op : Op}
    {k : op.Ans → Svc Str} (h : Prog.Runs (s.lazyCheckoutURL D m o) t (.call op k)) :
    t = [] ∧ op = .timeNow := by
  unfold lazyCheckoutURL at h
  simp only at h
  split at h
  · cases h
  · rcases Svc.runs_ask.mp h with ⟨rfl, hq⟩ | ⟨a, t', rfl, h'⟩
    · cases hq
      exact ⟨rfl, rfl⟩
    · split at h'
      · cases h'
      · cases h'

/-- The link of a service with a secret. -/
theorem lazyCheckoutURL_ret {m o : Str} (hsecret : s.checkoutSecret ≠ []) {t : Calls} {url : Str}
    (h : Prog.Runs (s.lazyCheckoutURL D m o) t (.ret url)) :
    ∃ now, t = [Op.timeNow.gave now] ∧
      url = s.publicBaseURL ++ bytes "/pay/" ++ m ++ bytes "/" ++ o ++ bytes "?t=" ++
        CheckoutToken.sign D.hmacSHA256 now s.checkoutSecret m o s.checkoutTokenTTL := by
  unfold lazyCheckoutURL at h
  simp only [if_neg hsecret] at h
  rcases Svc.runs_ask.mp h with ⟨rfl, hq⟩ | ⟨now, t', rfl, h'⟩
  · cases hq
  rw [if_neg (CheckoutToken.sign_ne_nil _ _ _ _ _)] at h'
  cases h'
  exact ⟨now, rfl, rfl⟩

theorem startFlow_next {M : Merchant} {inp : CreatePaymentInput} {t : Calls} {op : Op}
    {k : op.Ans → Svc (Res CreatePaymentResult)}
    (h : Prog.Runs (s.startFlow D M inp) t (.call op k)) :
    op = .timeNow ∨
    (isCrypto D.unicode inp = false ∧ s.lazyCheckout = false ∧
      ((t = [] ∧ op = .createCheckoutSession (s.checkoutRequest D M inp)
          (deriveTransactionID D M.merchantID inp.orderID)) ∨
        ∃ sess, t = [(Op.createCheckoutSession (s.checkoutRequest D M inp)
            (deriveTransactionID D M.merchantID inp.orderID)).gave (.ok sess)] ∧
          op = .updateCheckout M.shardIndex M.merchantID inp.orderID sess.id
            sess.paymentIntentID)) := by
  unfold startFlow at h
  simp only at h
  split at h
  · cases h
  next hcrypto =>
  split at h
  · rcases Prog.runs_bind h with ⟨o', k', hr, hq⟩ | ⟨t₁, a, t₂, -, -, hr⟩
    · cases hq
      exact .inl (s.lazyCheckoutURL_next D hr).2
    · cases hr
  next hlazy =>
  refine .inr ⟨by simpa using hcrypto, by simpa using hlazy, ?_⟩
  rcases Svc.runs_ask.mp h with ⟨rfl, hq⟩ | ⟨a, t', rfl, h'⟩
  · cases hq
    exact .inl ⟨rfl, rfl⟩
  cases a with
  | error e => cases h'
  | ok sess =>
    rcases Svc.runs_ask.mp h' with ⟨rfl, hq⟩ | ⟨b, t', rfl, h''⟩
    · cases hq
      exact .inr ⟨sess, rfl, rfl⟩
    · cases b <;> cases h''

/-- A result of the winner is about its own order. -/
theorem startFlow_ret {M : Merchant} {inp : CreatePaymentInput} {t : Calls}
    {res : CreatePaymentResult} (h : Prog.Runs (s.startFlow D M inp) t (.ret (.ok res))) :
    res.orderID = inp.orderID ∧
      res.transactionID = deriveTransactionID D M.merchantID inp.orderID ∧
      res.cryptoPayload.isSome = isCrypto D.unicode inp := by
  unfold startFlow at h
  simp only at h
  split at h
  · next hcrypto =>
    cases h
    exact ⟨rfl, rfl, hcrypto.symm⟩
  next hcrypto =>
  have hcrypto : isCrypto D.unicode inp = false := by simpa using hcrypto
  rw [hcrypto]
  split at h
  · rcases Prog.runs_bind h with ⟨o', k', hr, hq⟩ | ⟨t₁, a, t₂, -, -, hr⟩
    · cases hq
    · cases hr
      exact ⟨rfl, rfl, rfl⟩
  rcases Svc.runs_ask.mp h with ⟨rfl, hq⟩ | ⟨a, t', rfl, h'⟩
  · cases hq
  cases a with
  | error e => cases h'
  | ok sess =>
    rcases Svc.runs_ask.mp h' with ⟨rfl, hq⟩ | ⟨b, t', rfl, h''⟩
    · cases hq
    · cases b with
      | error e => cases h''
      | ok u =>
        cases h''
        exact ⟨rfl, rfl, rfl⟩

/-- The winner fails at Stripe or at storing the session, in eager mode. -/
theorem startFlow_error {M : Merchant} {inp : CreatePaymentInput} {t : Calls} {e : Err}
    (h : Prog.Runs (s.startFlow D M inp) t (.ret (.error e))) :
    (∃ e', t = [(Op.createCheckoutSession (s.checkoutRequest D M inp)
        (deriveTransactionID D M.merchantID inp.orderID)).gave (.error e')]) ∨
    ∃ sess e', t = [(Op.createCheckoutSession (s.checkoutRequest D M inp)
        (deriveTransactionID D M.merchantID inp.orderID)).gave (.ok sess),
      (Op.updateCheckout M.shardIndex M.merchantID inp.orderID sess.id
        sess.paymentIntentID).gave (.error e')] := by
  unfold startFlow at h
  simp only at h
  split at h
  · cases h
  split at h
  · rcases Prog.runs_bind h with ⟨o', k', hr, hq⟩ | ⟨t₁, a, t₂, -, -, hr⟩
    · cases hq
    · cases hr
  rcases Svc.runs_ask.mp h with ⟨rfl, hq⟩ | ⟨a, t', rfl, h'⟩
  · cases hq
  cases a with
  | error e' =>
    cases h'
    exact .inl ⟨e', rfl⟩
  | ok sess =>
    rcases Svc.runs_ask.mp h' with ⟨rfl, hq⟩ | ⟨b, t', rfl, h''⟩
    · cases hq
    · cases b with
      | error e' =>
        cases h''
        exact .inr ⟨sess, e', rfl⟩
      | ok u => cases h''

theorem reconstructResult_next {m : Str} {o : Transaction} {t : Calls} {op : Op}
    {k : op.Ans → Svc CreatePaymentResult}
    (h : Prog.Runs (s.reconstructResult D m o) t (.call op k)) : op = .timeNow := by
  unfold reconstructResult at h
  simp only at h
  split at h
  · cases h
  split at h
  · cases h
  rcases Prog.runs_bind h with ⟨o', k', hr, hq⟩ | ⟨t₁, a, t₂, -, -, hr⟩
  · cases hq
    exact (s.lazyCheckoutURL_next D hr).2
  · cases hr

/-- A result of a retry is about the stored order. -/
theorem reconstructResult_ret {m : Str} {o : Transaction} {t : Calls} {res : CreatePaymentResult}
    (h : Prog.Runs (s.reconstructResult D m o) t (.ret res)) :
    res.orderID = o.orderID ∧ res.transactionID = o.transactionID ∧
      res.cryptoPayload.isSome = hasPrefix o.paymentMethod (bytes "crypto") := by
  unfold reconstructResult at h
  simp only at h
  split at h
  · next hp =>
    cases h
    exact ⟨rfl, rfl, hp.symm⟩
  next hp =>
  have hp : hasPrefix o.paymentMethod (bytes "crypto") = false := by simpa using hp
  rw [hp]
  split at h
  · cases h
    exact ⟨rfl, rfl, rfl⟩
  rcases Prog.runs_bind h with ⟨o', k', hr, hq⟩ | ⟨t₁, a, t₂, -, -, hr⟩
  · cases hq
  · cases hr
    exact ⟨rfl, rfl, rfl⟩

theorem answerRetry_next {M : Merchant} {inp : CreatePaymentInput} {t : Calls} {op : Op}
    {k : op.Ans → Svc (Res CreatePaymentResult)}
    (h : Prog.Runs (s.answerRetry D M inp) t (.call op k)) :
    op = .timeNow ∨
      (t = [] ∧ op = .getByTransactionID M.shardIndex M.merchantID
        (deriveTransactionID D M.merchantID inp.orderID)) := by
  unfold answerRetry at h
  rcases Svc.runs_ask.mp h with ⟨rfl, hq⟩ | ⟨a, t', rfl, h'⟩
  · cases hq
    exact .inr ⟨rfl, rfl⟩
  cases a with
  | error e => cases h'
  | ok existing =>
    simp only at h'
    split at h'
    · cases h'
    · rcases Prog.runs_bind h' with ⟨o', k', hr, hq⟩ | ⟨t₁, a, t₂, -, -, hr⟩
      · cases hq
        exact .inl (s.reconstructResult_next D hr)
      · cases hr

/-- What a retry returns is decided by the row it reads. -/
theorem answerRetry_ret {M : Merchant} {inp : CreatePaymentInput} {t : Calls}
    {r : Res CreatePaymentResult} (h : Prog.Runs (s.answerRetry D M inp) t (.ret r)) :
    ∃ a t', t = (Op.getByTransactionID M.shardIndex M.merchantID
        (deriveTransactionID D M.merchantID inp.orderID)).gave a :: t' ∧
      ((∃ e, a = .error e ∧ r = .error (e.wrap (bytes "idem lookup: "))) ∨
        ∃ existing, a = .ok existing ∧
          ((sameMaterialPayment D.unicode existing inp.amount (s.normalizedCurrency D inp)
              (primaryMethod D.unicode inp) = false ∧
            r = .error (.because .transactionConflict
              (bytes "amount/currency/method mismatch with order " ++ existing.orderID))) ∨
          (sameMaterialPayment D.unicode existing inp.amount (s.normalizedCurrency D inp)
              (primaryMethod D.unicode inp) = true ∧
            ∃ res, r = .ok res ∧ res.orderID = existing.orderID ∧
              res.transactionID = existing.transactionID ∧
              res.cryptoPayload.isSome = hasPrefix existing.paymentMethod (bytes "crypto")))) := by
  unfold answerRetry at h
  rcases Svc.runs_ask.mp h with ⟨rfl, hq⟩ | ⟨a, t', rfl, h'⟩
  · cases hq
  refine ⟨a, t', rfl, ?_⟩
  cases a with
  | error e =>
    cases h'
    exact .inl ⟨e, rfl, rfl⟩
  | ok existing =>
    refine .inr ⟨existing, rfl, ?_⟩
    simp only at h'
    split at h'
    · next hs =>
      cases h'
      exact .inl ⟨by simpa using hs, rfl⟩
    · next hs =>
      rcases Prog.runs_bind h' with ⟨o', k', hr, hq⟩ | ⟨t₁, res, t₂, -, hr, hr'⟩
      · cases hq
      · cases hr'
        exact .inr ⟨by simpa using hs, res, rfl, s.reconstructResult_ret D hr⟩

/-- The checks `Create` makes before its first call. -/
def Accepts (inp : CreatePaymentInput) (M : Merchant) : Prop :=
  inp.merchant = some M ∧ ValidOrderID inp.orderID ∧ 0 < inp.amount

/-- `Create` of an accepted request, from its first call on. -/
theorem create_eq {inp : CreatePaymentInput} {M : Merchant} (h : Accepts inp M) :
    s.create D inp = (Svc.ask (.insert (s.newRow D M inp)) >>= fun a =>
      match a with
      | .error e =>
        if !e.is .duplicateTransaction then return .error (e.wrap (bytes "insert order: "))
        else s.answerRetry D M inp
      | .ok _ => s.startFlow D M inp) := by
  obtain ⟨hM, ho, ha⟩ := h
  unfold create
  rw [hM, (validateOrderID_ok_iff _).mpr ho]
  simp only [Int64.not_le.mpr ha, if_false]

/-- A request that is not accepted is answered without a call. -/
theorem create_of_not_accepts {inp : CreatePaymentInput} (h : ∀ M, ¬ Accepts inp M) :
    ∃ e, s.create D inp = .ret (.error e) ∧ e.chain = [.invalidRequest] := by
  unfold create
  split
  · exact ⟨_, rfl, rfl⟩
  next M hM =>
  split
  · exact ⟨_, rfl, rfl⟩
  next hv =>
  split
  · exact ⟨_, rfl, rfl⟩
  next ha =>
  exact absurd ⟨hM, (validateOrderID_ok_iff _).mp hv, Int64.not_le.mp ha⟩ (h M)

/-- The calls `Create` makes for the merchant `M`: it inserts its row; having lost the race
it reads the winner's row; having won, in eager mode, it asks Stripe for a session and
stores it.  Beyond that it only looks at the clock. -/
inductive CreateCall (M : Merchant) (inp : CreatePaymentInput) : Calls → Op → Prop
  | insert : CreateCall M inp [] (.insert (s.newRow D M inp))
  | lookup (e : Err) : e.is .duplicateTransaction = true →
      CreateCall M inp [(Op.insert (s.newRow D M inp)).gave (.error e)]
        (.getByTransactionID M.shardIndex M.merchantID
          (deriveTransactionID D M.merchantID inp.orderID))
  | session : isCrypto D.unicode inp = false → s.lazyCheckout = false →
      CreateCall M inp [(Op.insert (s.newRow D M inp)).gave (.ok ())]
        (.createCheckoutSession (s.checkoutRequest D M inp)
          (deriveTransactionID D M.merchantID inp.orderID))
  | store (sess : CheckoutSession) : isCrypto D.unicode inp = false → s.lazyCheckout = false →
      CreateCall M inp [(Op.insert (s.newRow D M inp)).gave (.ok ()),
          (Op.createCheckoutSession (s.checkoutRequest D M inp)
            (deriveTransactionID D M.merchantID inp.orderID)).gave (.ok sess)]
        (.updateCheckout M.shardIndex M.merchantID inp.orderID sess.id sess.paymentIntentID)
  | clock (t : Calls) : CreateCall M inp t .timeNow

/-- A session is stored in a row of its own. -/
theorem CreateCall.inserted {M : Merchant} {inp : CreatePaymentInput} {t : Calls} {x : UInt8}
    {m o sess pi : Str} (h : s.CreateCall D M inp t (.updateCheckout x m o sess pi)) :
    (Op.insert (s.newRow D M inp)).gave (.ok ()) ∈ t := by
  cases h
  exact List.mem_cons_self

/-- Stripe is asked by the winner, in eager mode. -/
theorem CreateCall.session_inv {M : Merchant} {inp : CreatePaymentInput} {t : Calls}
    {req : CreateCheckoutRequest} {key : Str}
    (h : s.CreateCall D M inp t (.createCheckoutSession req key)) :
    s.lazyCheckout = false ∧ (Op.insert (s.newRow D M inp)).gave (.ok ()) ∈ t := by
  cases h with
  | session _ hlazy => exact ⟨hlazy, List.mem_cons_self⟩

/-- A request is accepted for a merchant, or refused at once. -/
theorem accepts_or_refuses (inp : CreatePaymentInput) :
    (∃ M, Accepts inp M) ∨ ∃ e, s.create D inp = .ret (.error e) := by
  by_cases hacc : ∃ M, Accepts inp M
  · exact .inl hacc
  · obtain ⟨e, he, -⟩ := s.create_of_not_accepts D (fun M hM => hacc ⟨M, hM⟩)
    exact .inr ⟨e, he⟩

/-- **The calls of Create.** -/
theorem create_next {inp : CreatePaymentInput} {t : Calls} {op : Op}
    {k : op.Ans → Svc (Res CreatePaymentResult)}
    (h : Prog.Runs (s.create D inp) t (.call op k)) :
    ∃ M, Accepts inp M ∧ s.CreateCall D M inp t op := by
  rcases s.accepts_or_refuses D inp with ⟨M, hM⟩ | ⟨e, he⟩
  · refine ⟨M, hM, ?_⟩
    rw [s.create_eq D hM] at h
    rcases Svc.runs_ask.mp h with ⟨rfl, hq⟩ | ⟨a, t', rfl, h'⟩
    · cases hq
      exact .insert
    cases a with
    | error e =>
      simp only at h'
      split at h'
      · cases h'
      · next hd =>
        rcases s.answerRetry_next D h' with rfl | ⟨rfl, rfl⟩
        · exact .clock _
        · exact .lookup e (by simpa using hd)
    | ok u =>
      rcases s.startFlow_next D h' with rfl | ⟨hc, hl, ⟨rfl, rfl⟩ | ⟨sess, rfl, rfl⟩⟩
      · exact .clock _
      · exact .session hc hl
      · exact .store sess hc hl
  · rw [he] at h
    cases h

/-- **The results of Create.**  A success answers the order of the request if it won the
race, and the order of the row it read if it lost. -/
theorem create_ok {inp : CreatePaymentInput} {t : Calls} {res : CreatePaymentResult}
    (h : Prog.Runs (s.create D inp) t (.ret (.ok res))) :
    ∃ M, Accepts inp M ∧
      ((∃ t', t = (Op.insert (s.newRow D M inp)).gave (.ok ()) :: t' ∧
        res.orderID = inp.orderID ∧
        res.transactionID = deriveTransactionID D M.merchantID inp.orderID) ∨
      ∃ e existing t', e.is .duplicateTransaction = true ∧
        t = (Op.insert (s.newRow D M inp)).gave (.error e) ::
          (Op.getByTransactionID M.shardIndex M.merchantID
            (deriveTransactionID D M.merchantID inp.orderID)).gave (.ok existing) :: t' ∧
        res.orderID = existing.orderID ∧ res.transactionID = existing.transactionID) := by
  rcases s.accepts_or_refuses D inp with ⟨M, hM⟩ | ⟨e, he⟩
  · refine ⟨M, hM, ?_⟩
    rw [s.create_eq D hM] at h
    rcases Svc.runs_ask.mp h with ⟨rfl, hq⟩ | ⟨a, t', rfl, h'⟩
    · cases hq
    cases a with
    | error e =>
      simp only at h'
      split at h'
      · cases h'
      · next hd =>
        obtain ⟨a, t'', rfl, ⟨e', rfl, hr⟩ | ⟨existing, rfl, ⟨-, hr⟩ | ⟨-, res', hr, ho, ht, -⟩⟩⟩ :=
          s.answerRetry_ret D h'
        · cases hr
        · cases hr
        · cases hr
          exact .inr ⟨e, existing, t'', by simpa using hd, rfl, ho, ht⟩
    | ok u =>
      obtain ⟨ho, ht, -⟩ := s.startFlow_ret D h'
      exact .inl ⟨t', rfl, ho, ht⟩
  · rw [he] at h
    cases h

/-- **The errors of Create.**  Its insert fails, or what comes after it. -/
theorem create_error {inp : CreatePaymentInput} {M : Merchant} {t : Calls} {e : Err}
    (hM : Accepts inp M) (h : Prog.Runs (s.create D inp) t (.ret (.error e))) :
    (∃ e' t', t = (Op.insert (s.newRow D M inp)).gave (.error e') :: t') ∨
    ∃ t', t = (Op.insert (s.newRow D M inp)).gave (.ok ()) :: t' ∧
      Prog.Runs (s.startFlow D M inp) t' (.ret (.error e)) := by
  rw [s.create_eq D hM] at h
  rcases Svc.runs_ask.mp h with ⟨rfl, hq⟩ | ⟨a, t', rfl, h'⟩
  · cases hq
  cases a with
  | error e' => exact .inl ⟨e', t', rfl⟩
  | ok u => exact .inr ⟨t', rfl, h'⟩

end PaymentService

end EasyPay
