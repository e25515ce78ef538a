import EasyPay.Lib.Prog
import EasyPay.Cache
import EasyPay.Provider.PaymentEvent
import EasyPay.Repository.OnchainTxRepo

/-!
# The gateway's ports

Every service of the gateway is written against interfaces: the repositories, the
Stripe client, Redis, the URL cache, the Kafka publisher, the chain client.  `Op`
has one constructor for each method the services call, and `exec` says what the
call does to the `World` behind the interfaces: the MySQL pools, Redis, Stripe's
sessions, the caches and the published events.

A call is atomic: a query that the code sends to every pool reads all of them in one
state.  What the gateway does not decide is in the `Choice` made for the call: that it
fails, the time, what Stripe or a chain node answers, which of several rows a query
returns.

A write that fails has no effect.  A row, a Redis key or an event that is written while
its answer is lost is not among the choices; only a request for a Stripe session can
arrive without its answer (`Choice.reached`).

Stripe is modelled by what it promises: a request under a used idempotency key is
answered with the session of the first one, any other gets a fresh session.  Its refunds
are not part of the `World`: that one was asked for is read off the run's history.
-/

namespace EasyPay

open GoStrings Tables Ports

/-! ## Messages -/

/-- A Go `map[string]string`; a missing key reads as the empty string. -/
abbrev StrMap := List (Str × Str)

def StrMap.get (m : StrMap) (key : Str) : Str := (m.lookup key).getD []

structure CreateCheckoutRequest where
  amount : Int64
  currency : Str
  paymentMethodTypes : List Str
  customerEmail : Str
  successURL : Str
  cancelURL : Str
  clientReferenceID : Str
  metadata : StrMap
  deriving DecidableEq, Repr

structure CheckoutSession where
  id : Str
  url : Str
  paymentIntentID : Str
  clientSecret : Str
  deriving DecidableEq, Repr

structure PaymentIntent where
  id : Str
  status : Str
  deriving DecidableEq, Repr

/-- The input of `Client.CreateRefund`; amount 0 is a full refund. -/
structure CreateRefundRequest where
  paymentIntentID : Str
  amount : Int64
  reason : Str
  metadata : StrMap
  deriving DecidableEq, Repr

structure Refund where
  id : Str
  amount : Int64
  currency : Str
  status : Str
  deriving DecidableEq, Repr

structure PaymentConfirmedEvent where
  orderID : Str
  merchantID : Str
  status : Str
  stripePaymentIntentID : Str
  amount : Int64
  currency : Str
  confirmedAt : Int
  deriving DecidableEq, Repr

/-- The part of a transaction receipt that matters to a payment: whether the transaction
succeeded, and the block it is in. -/
structure Receipt where
  status : UInt64
  blockNumber : Nat
  deriving DecidableEq, Repr

/-- The handle `Locker.Acquire` returns. -/
structure Lock where
  key : Str
  token : Str
  deriving DecidableEq, Repr

/-! ## Calls -/

inductive Op
  -- TransactionRepository
  | insert (t : Transaction)
  | getByTransactionID (shardIdx : UInt8) (merchantID transactionID : Str)
  | getByMerchantOrderID (shardIdx : UInt8) (merchantID orderID : Str)
  | updateStatus (shardIdx : UInt8) (merchantID orderID : Str) (status : TransactionStatus)
      (piID : Str)
  | updateCheckout (shardIdx : UInt8) (merchantID orderID sessionID piID : Str)
  | getByOrderIDAny (orderID : Str)
  | getByPaymentIntentID (pi : Str)
  | getPendingBefore (before : Time) (limit : Int)
  -- MerchantRepository
  | getByMerchantID (merchantID : Str)
  | countByShard (count : UInt8)
  | insertMerchant (m : Merchant)
  -- stripe.Client
  | createCheckoutSession (req : CreateCheckoutRequest) (idempotencyKey : Str)
  | getPaymentIntent (id : Str)
  | createRefund (req : CreateRefundRequest) (idempotencyKey : Str)
  -- Redis, Locker, TokenBucket, URLCache
  | setNX (key value : Str) (ttl : Time)
  | acquire (key : Str) (ttl : Time)
  | release (lock : Lock)
  | allow
  | cacheGet (pod : Nat) (key : Str)
  | cachePut (pod : Nat) (key url : Str)
  -- EventPublisher
  | publishPaymentConfirmed (event : PaymentConfirmedEvent)
  -- ChainClient, OnchainTxRepository, CursorStore
  | blockNumber
  | transactionReceipt (txHash : Str)
  | filterLogs (q : FilterQuery)
  | listPendingByChain (chainID : Int64) (limit : Int)
  | updateConfirmations (txHash : Str) (confirmations : UInt64) (status : OnchainTxStatus)
  | getByTxHash (txHash : Str)
  | createOnchainTx (tx : OnchainTransaction)
  | cursorGet (chainID : Int64)
  | cursorSet (chainID : Int64) (block : UInt64)
  -- the clock, and crypto/rand
  | timeNow
  | randRead (n : Nat)
  deriving DecidableEq, Repr

@[reducible] def Op.Ans : Op → Type
  | insert _ => Res Unit
  | getByTransactionID _ _ _ => Res Transaction
  | getByMerchantOrderID _ _ _ => Res Transaction
  | updateStatus _ _ _ _ _ => Res Unit
  | updateCheckout _ _ _ _ _ => Res Unit
  | getByOrderIDAny _ => Res Transaction
  | getByPaymentIntentID _ => Res Transaction
  | getPendingBefore _ _ => Res (List Transaction)
  | getByMerchantID _ => Res Merchant
  | countByShard _ => Res (List (UInt8 × Int))
  | insertMerchant _ => Res Unit
  | createCheckoutSession _ _ => Res CheckoutSession
  | getPaymentIntent _ => Res PaymentIntent
  | createRefund _ _ => Res Refund
  | setNX _ _ _ => Res Bool
  | acquire _ _ => Res Lock
  | release _ => Res Unit
  | allow => Res Unit
  | cacheGet _ _ => Option Str
  | cachePut _ _ _ => Unit
  | publishPaymentConfirmed _ => Res Unit
  | blockNumber => Res UInt64
  | transactionReceipt _ => Res (Option Receipt)
  | filterLogs _ => Res (List Log)
  | listPendingByChain _ _ => Res (List OnchainTransaction)
  | updateConfirmations _ _ _ => Res Unit
  | getByTxHash _ => Res OnchainTransaction
  | createOnchainTx _ => Res Unit
  | cursorGet _ => Res UInt64
  | cursorSet _ _ => Res Unit
  | timeNow => Time
  | randRead _ => Res Str

instance (o : Op) : DecidableEq o.Ans := by
  cases o <;> infer_instance

/-- The interfaces the services are written against. -/
abbrev gateway : Port := ⟨Op, Op.Ans⟩

/-- A service call. -/
abbrev Svc (α : Type) := Prog gateway α

/-- Make a call. -/
def Svc.ask (o : Op) : Svc o.Ans := Prog.perform (P := gateway) o

/-- The calls made so far, with their answers. -/
abbrev Calls := List (Prog.Step gateway)

instance : DecidableEq (Prog.Step gateway) := inferInstanceAs (DecidableEq (Sigma Op.Ans))

/-- A call and its answer. -/
def Op.gave (o : Op) (a : o.Ans) : Prog.Step gateway := ⟨o, a⟩

theorem Op.gave_inj {o : Op} {a b : o.Ans} : o.gave a = o.gave b ↔ a = b := by
  unfold Op.gave
  constructor
  · intro h
    cases h
    rfl
  · rintro rfl
    rfl

/-- A service that makes a call has not made it yet, or goes on with its answer. -/
theorem Svc.runs_ask {β : Type} {o : Op} {f : o.Ans → Svc β} {t : Calls} {q : Svc β} :
    Prog.Runs (Svc.ask o >>= f) t q ↔
      (t = [] ∧ q = Prog.call (P := gateway) o f) ∨
        ∃ a t', t = o.gave a :: t' ∧ Prog.Runs (f a) t' q :=
  Prog.runs_call (P := gateway)

theorem Svc.executes_ask {W C β : Type} {exec : (o : Op) → C → W → o.Ans × W} {E : Op → C → Prop}
    {o : Op} {f : o.Ans → Svc β} {w w' : W} {b : β}
    (h : Prog.Executes (P := gateway) exec E (Svc.ask o >>= f) w b w') :
    ∃ c, E o c ∧ Prog.Executes (P := gateway) exec E (f (exec o c w).1) (exec o c w).2 b w' :=
  Prog.executes_call h

theorem Svc.meets_ask {β : Type} {I : Calls → Op → Prop} {S : Calls → β → Prop} {o : Op}
    {f : o.Ans → Svc β} {t : Calls} (ho : I t o)
    (hf : ∀ a, Prog.Meets (P := gateway) I S (f a) (t ++ [o.gave a])) :
    Prog.Meets (P := gateway) I S (Svc.ask o >>= f) t :=
  Prog.meets_perform (P := gateway) ho hf

theorem Svc.play_ask {β : Type} (answer : Calls → (o : Op) → o.Ans) (o : Op) (f : o.Ans → Svc β)
    (t : Calls) :
    Prog.play (P := gateway) answer (Svc.ask o >>= f) t =
      Prog.play (P := gateway) answer (f (answer t o)) (t ++ [o.gave (answer t o)]) := rfl

/-! ## The world behind the interfaces -/

/-- The stable form of a session's public URL, without its id. -/
def checkoutBase : Str := bytes "https://checkout.stripe.com/c/pay/"

/-- Stripe: the sessions it would make, one after another, and which of them a URL
shows.  A page loads from the session id alone. -/
structure Stripe where
  mint : Nat → CheckoutSession
  mint_injective : ∀ n k, (mint n).id = (mint k).id → n = k
  page : Str → Option Str
  page_url : ∀ n, page (mint n).url = some (mint n).id
  page_id : ∀ n, page (checkoutBase ++ (mint n).id) = some (mint n).id

/-- What is fixed while the gateway runs; the hash functions among it, and the checksummed
text of an address. -/
structure Deployment extends TransactionRepo where
  stripe : Stripe
  sha256 : Str → Str
  sha256_length : ∀ s, (sha256 s).length = 32
  hmacSHA256 : (secret msg : Str) → Str
  hmacSHA256_length : ∀ secret msg, (hmacSHA256 secret msg).length = 32
  addressHex : Address → Str

/-- A session Stripe made, with the idempotency key and the request it was made for. -/
structure StripeSession where
  key : Str
  req : CreateCheckoutRequest
  session : CheckoutSession
  deriving DecidableEq, Repr

structure World where
  pools : Pools
  merchants : List Merchant
  redis : Redis
  /-- The number of lock tokens given out. -/
  tokens : Nat
  urlCaches : Nat → URLCache
  sessions : List StripeSession
  published : List PaymentConfirmedEvent
  onchain : List OnchainTransaction
  /-- `block_cursors`: the last block of each chain. -/
  cursors : Int64 → Option UInt64

/-- What the environment decides about one call. -/
structure Choice where
  /-- The call fails. -/
  fault : Option Fault := none
  /-- The circuit breaker is open, or the rate limit is reached. -/
  refused : Bool := false
  /-- A failed request reached Stripe, only its answer got lost. -/
  reached : Bool := false
  now : Time := 1
  /-- Which row a query returns, by pool; which entry a full cache drops. -/
  pick : Nat → Nat := fun _ => 0
  /-- The pools whose query fails in a scatter-gather. -/
  faults : Nat → Option Fault := fun _ => none
  /-- Order of rows with equal sort keys, by pool. -/
  ties : Nat → List Nat := fun _ => []
  /-- Order in which the pools answer. -/
  arrival : List Nat := []
  intent : PaymentIntent := ⟨[], []⟩
  refund : Refund := ⟨[], 0, [], []⟩
  head : UInt64 := 0
  receipt : Option Receipt := none
  logs : List Log := []
  random : Str := []

/-! ## What a call does -/

/-- `CreateCheckoutSession` at Stripe's side. -/
def Stripe.create (S : Stripe) (req : CreateCheckoutRequest) (key : Str)
    (made : List StripeSession) : CheckoutSession × List StripeSession :=
  match made.find? fun s => s.key = key with
  | some s => (s.session, made)
  | none => (S.mint made.length, made ++ [⟨key, req, S.mint made.length⟩])

/-- A request under a used key gets the session made for it, any other a fresh one. -/
theorem Stripe.create_cases (S : Stripe) (req : CreateCheckoutRequest) (key : Str)
    (made : List StripeSession) :
    (∃ s ∈ made, s.key = key ∧ S.create req key made = (s.session, made)) ∨
      ((∀ s ∈ made, s.key ≠ key) ∧ S.create req key made =
        (S.mint made.length, made ++ [⟨key, req, S.mint made.length⟩])) := by
  unfold Stripe.create
  split
  · next s hs =>
    exact .inl ⟨s, List.mem_of_find?_eq_some hs, by simpa using List.find?_some hs, rfl⟩
  · next hs =>
    refine .inr ⟨fun s hmem heq => ?_, rfl⟩
    have := List.find?_eq_none.mp hs s hmem
    exact this (decide_eq_true heq)

/-- A call of the Stripe client through its circuit breaker. -/
def throughBreaker {α : Type} (c : Choice) (a : α) : Res α :=
  if c.refused then .error (.of .circuitOpen)
  else
    match c.fault with
    | some f => .error (.new f.msg)
    | none => .ok a

/-- `db.QueryRowContext` and `scanMerchant`.  Merchants are never changed, so the LRU
cache in front of the query answers what the query would (`MerchantLookup.lookup_refines`). -/
def getMerchant (C : Collation) (fault : Option Fault) (merchantID : Str)
    (merchants : List Merchant) : Res Merchant :=
  match fault with
  | some f => .error (.wrap (bytes "query merchant: ") (.new f.msg))
  | none =>
    match merchants.find? fun m => C.eq m.merchantID merchantID with
    | some m => .ok m
    | none => .error (.of .merchantNotFound)

/-- The statement of `merchantRepo.Insert`; `merchant_id` and `api_key` are unique. -/
def insertMerchant (C : Collation) (fault : Option Fault) (m : Merchant)
    (merchants : List Merchant) : Res Unit × List Merchant :=
  match fault with
  | some f => (.error (.wrap (bytes "insert merchant: ") (.new f.msg)), merchants)
  | none =>
    if merchants.any fun x => C.eq x.merchantID m.merchantID || C.eq x.apiKey m.apiKey then
      (.error (.wrap (bytes "merchant exists: ") (.new duplicateEntry)), merchants)
    else (.ok (), merchants ++ [m])

/-- The statement of `mysqlCursor.Set`; `last_block` is a BIGINT. -/
def setCursor (fault : Option Fault) (chainID : Int64) (block : UInt64)
    (cursors : Int64 → Option UInt64) : Res Unit × (Int64 → Option UInt64) :=
  match fault with
  | some f => (.error (.wrap (bytes "cursor set: ") (.new f.msg)), cursors)
  | none =>
    if fitsBigint block then (.ok (), Function.update cursors chainID (some block))
    else (.error (.wrap (bytes "cursor set: ") (.new (outOfRange (bytes "last_block")))), cursors)

/-- How many merchants each logical shard below `count` has. -/
def shardCounts (count : UInt8) (merchants : List Merchant) : List (UInt8 × Int) :=
  ((merchants.map Merchant.shardIndex).filter fun i => i < count).dedup.map fun i =>
    (i, ((merchants.countP fun m => m.shardIndex = i : Nat) : Int))

/-- The effect of one call. -/
def exec (D : Deployment) : (o : Op) → Choice → World → o.Ans × World
  | .insert t, c, w =>
    ((D.insert c.now c.fault t w.pools).1,
      { w with pools := (D.insert c.now c.fault t w.pools).2 })
  | .getByTransactionID i m txn, c, w =>
    (D.getByTransactionID c.fault (c.pick 0) i m txn w.pools, w)
  | .getByMerchantOrderID i m o, c, w =>
    (D.getByMerchantOrderID c.fault (c.pick 0) i m o w.pools, w)
  | .updateStatus i m o st pi, c, w =>
    ((D.updateStatus c.now c.fault i m o st pi w.pools).1,
      { w with pools := (D.updateStatus c.now c.fault i m o st pi w.pools).2 })
  | .updateCheckout i m o sess pi, c, w =>
    ((D.updateCheckout c.now c.fault i m o sess pi w.pools).1,
      { w with pools := (D.updateCheckout c.now c.fault i m o sess pi w.pools).2 })
  | .getByOrderIDAny o, c, w => (D.getByOrderIDAny c.faults c.pick c.arrival o w.pools, w)
  | .getByPaymentIntentID pi, c, w =>
    (D.getByPaymentIntentID c.faults c.pick c.arrival pi w.pools, w)
  | .getPendingBefore before limit, c, w =>
    (D.getPendingBefore c.faults c.ties c.arrival before limit w.pools, w)
  | .getByMerchantID m, c, w => (getMerchant D.collation c.fault m w.merchants, w)
  | .countByShard count, c, w =>
    (match c.fault with
      | some f => .error (.wrap (bytes "count by shard: ") (.new f.msg))
      | none => .ok (shardCounts count w.merchants), w)
  | .insertMerchant m, c, w =>
    ((insertMerchant D.collation c.fault m w.merchants).1,
      { w with merchants := (insertMerchant D.collation c.fault m w.merchants).2 })
  | .createCheckoutSession req key, c, w =>
    (throughBreaker c (D.stripe.create req key w.sessions).1,
      if c.refused ∨ (c.fault.isSome ∧ ¬ c.reached) then w
      else { w with sessions := (D.stripe.create req key w.sessions).2 })
  | .getPaymentIntent _, c, w => (throughBreaker c c.intent, w)
  | .createRefund _ _, c, w => (throughBreaker c c.refund, w)
  | .setNX key value ttl, c, w =>
    match c.fault with
    | some f => (.error (.new f.msg), w)
    | none =>
      (.ok (w.redis.setNX c.now key value ttl).1,
        { w with redis := (w.redis.setNX c.now key value ttl).2 })
  | .acquire key ttl, c, w =>
    match c.fault with
    | some f => (.error (.wrap (bytes "acquire lock: ") (.new f.msg)), w)
    | none =>
      let token := formatNat w.tokens
      let lockKey := bytes "lock:" ++ key
      (if (w.redis.setNX c.now lockKey token ttl).1 then .ok ⟨lockKey, token⟩
        else .error (.of .lockNotAcquired),
        { w with
          redis := (w.redis.setNX c.now lockKey token ttl).2
          tokens := w.tokens + 1 })
  | .release lock, c, w =>
    match c.fault with
    | some f => (.error (.wrap (bytes "release lock: ") (.new f.msg)), w)
    | none => (.ok (), { w with redis := w.redis.release c.now lock.key lock.token })
  | .allow, c, w =>
    (if c.refused then .error (.of .rateLimited)
      else
        match c.fault with
        | some f => .error (.wrap (bytes "token bucket eval: ") (.new f.msg))
        | none => .ok (), w)
  | .cacheGet pod key, c, w => ((w.urlCaches pod).get c.now key, w)
  | .cachePut pod key url, c, w =>
    ((), { w with
      urlCaches := Function.update w.urlCaches pod
        ((w.urlCaches pod).put c.now (c.pick 0) key url) })
  | .publishPaymentConfirmed event, c, w =>
    match c.fault with
    | some f => (.error (.new f.msg), w)
    | none => (.ok (), { w with published := w.published ++ [event] })
  | .blockNumber, c, w =>
    (match c.fault with
      | some f => .error (.new f.msg)
      | none => .ok c.head, w)
  | .transactionReceipt _, c, w =>
    (match c.fault with
      | some f => .error (.new f.msg)
      | none => .ok c.receipt, w)
  | .filterLogs _, c, w =>
    (match c.fault with
      | some f => .error (.new f.msg)
      | none => .ok c.logs, w)
  | .listPendingByChain chainID limit, c, w =>
    (match c.fault with
      | some f => .error (.wrap (bytes "query onchain_transactions: ") (.new f.msg))
      | none => .ok (listPending (c.ties 0) chainID limit w.onchain), w)
  | .updateConfirmations txHash n st, c, w =>
    ((setConfirmations D.collation c.fault txHash n st w.onchain).1,
      { w with onchain := (setConfirmations D.collation c.fault txHash n st w.onchain).2 })
  | .getByTxHash txHash, c, w => (getByTxHash D.collation c.fault txHash w.onchain, w)
  | .createOnchainTx tx, c, w =>
    ((createOnchainTx D.collation c.fault tx w.onchain).1,
      { w with onchain := (createOnchainTx D.collation c.fault tx w.onchain).2 })
  | .cursorGet chainID, c, w =>
    (match c.fault with
      | some f => .error (.wrap (bytes "cursor get: ") (.new f.msg))
      | none => .ok ((w.cursors chainID).getD 0), w)
  | .cursorSet chainID block, c, w =>
    ((setCursor c.fault chainID block w.cursors).1,
      { w with cursors := (setCursor c.fault chainID block w.cursors).2 })
  | .randRead n, c, w =>
    (match c.fault with
      | some f => .error (.new f.msg)
      | none => .ok ((c.random ++ List.replicate n 0).take n), w)
  | .timeNow, c, w => (c.now, w)

/-! ## What a call changes -/

/-- A request for a session reaches Stripe. -/
def Choice.reaches (c : Choice) : Prop := ¬ (c.refused ∨ (c.fault.isSome ∧ ¬ c.reached))

/-- An answer means that the request reached Stripe. -/
theorem throughBreaker_ok {α : Type} {c : Choice} {a b : α} (h : throughBreaker c a = .ok b) :
    c.reaches ∧ a = b := by
  unfold throughBreaker at h
  split at h
  · cases h
  next hrefused =>
  split at h
  · cases h
  next hfault =>
  refine ⟨?_, Except.ok.inj h⟩
  unfold Choice.reaches
  rw [hfault]
  rintro (h | ⟨h, -⟩)
  · exact hrefused h
  · cases h

/-- The calls that change the world, each in its own part of it. -/
inductive Effect (D : Deployment) (c : Choice) (w : World) : Op → World → Prop
  | none (o : Op) : (∀ req key, o = .createCheckoutSession req key → ¬ c.reaches) → Effect D c w o w
  | insert (t : Transaction) :
      Effect D c w (.insert t) { w with pools := (D.insert c.now c.fault t w.pools).2 }
  | updateStatus (i : UInt8) (m o : Str) (st : TransactionStatus) (pi : Str) :
      Effect D c w (.updateStatus i m o st pi)
        { w with pools := (D.updateStatus c.now c.fault i m o st pi w.pools).2 }
  | updateCheckout (i : UInt8) (m o sess pi : Str) :
      Effect D c w (.updateCheckout i m o sess pi)
        { w with pools := (D.updateCheckout c.now c.fault i m o sess pi w.pools).2 }
  | insertMerchant (m : Merchant) :
      Effect D c w (.insertMerchant m)
        { w with merchants := (EasyPay.insertMerchant D.collation c.fault m w.merchants).2 }
  | session (req : CreateCheckoutRequest) (key : Str) : c.reaches →
      Effect D c w (.createCheckoutSession req key)
        { w with sessions := (D.stripe.create req key w.sessions).2 }
  | setNX (key value : Str) (ttl : Time) :
      Effect D c w (.setNX key value ttl)
        { w with redis := (w.redis.setNX c.now key value ttl).2 }
  | acquire (key : Str) (ttl : Time) :
      Effect D c w (.acquire key ttl)
        { w with
          redis := (w.redis.setNX c.now (bytes "lock:" ++ key) (formatNat w.tokens) ttl).2
          tokens := w.tokens + 1 }
  | release (lock : Lock) :
      Effect D c w (.release lock) { w with redis := w.redis.release c.now lock.key lock.token }
  | cachePut (pod : Nat) (key url : Str) :
      Effect D c w (.cachePut pod key url)
        { w with
          urlCaches := Function.update w.urlCaches pod
            ((w.urlCaches pod).put c.now (c.pick 0) key url) }
  | publish (event : PaymentConfirmedEvent) :
      Effect D c w (.publishPaymentConfirmed event)
        { w with published := w.published ++ [event] }
  | confirmations (txHash : Str) (n : UInt64) (st : OnchainTxStatus) :
      Effect D c w (.updateConfirmations txHash n st)
        { w with onchain := (setConfirmations D.collation c.fault txHash n st w.onchain).2 }
  | createTx (tx : OnchainTransaction) :
      Effect D c w (.createOnchainTx tx)
        { w with onchain := (EasyPay.createOnchainTx D.collation c.fault tx w.onchain).2 }
  | cursor (chainID : Int64) (block : UInt64) :
      Effect D c w (.cursorSet chainID block)
        { w with cursors := (setCursor c.fault chainID block w.cursors).2 }

/-- **Effects.**  Every call does to the world what `Effect` says; the field lemmas below and
those of the system go by its cases. -/
theorem exec_effect (D : Deployment) (o : Op) (c : Choice) (w : World) :
    Effect D c w o (exec D o c w).2 := by
  cases o with
  | insert t => exact .insert t
  | updateStatus i m o st pi => exact .updateStatus i m o st pi
  | updateCheckout i m o sess pi => exact .updateCheckout i m o sess pi
  | insertMerchant m => exact .insertMerchant m
  | createCheckoutSession req key =>
    by_cases hc : c.refused ∨ (c.fault.isSome ∧ ¬ c.reached)
    · simp only [exec, if_pos hc]
      exact .none _ fun _ _ _ hreach => hreach hc
    · simp only [exec, if_neg hc]
      exact .session req key hc
  | setNX key value ttl =>
    simp only [exec]
    split
    · exact .none _ fun _ _ ho => by cases ho
    · exact .setNX key value ttl
  | acquire key ttl =>
    simp only [exec]
    split
    · exact .none _ fun _ _ ho => by cases ho
    · exact .acquire key ttl
  | release lock =>
    simp only [exec]
    split
    · exact .none _ fun _ _ ho => by cases ho
    · exact .release lock
  | cachePut pod key url => exact .cachePut pod key url
  | publishPaymentConfirmed event =>
    simp only [exec]
    split
    · exact .none _ fun _ _ ho => by cases ho
    · exact .publish event
  | updateConfirmations txHash n st => exact .confirmations txHash n st
  | createOnchainTx tx => exact .createTx tx
  | cursorSet chainID block => exact .cursor chainID block
  | _ => exact .none _ fun _ _ ho => by cases ho

end EasyPay
