import EasyPay.Lib.Strings

/-!
# Domain types

`internal/domain`: transaction status, the transaction row as the service layer
sees it, the merchant, and `ValidateOrderID`; and Go errors, as far as callers
look at them: the text, and the sentinels `errors.Is` finds in the chain.
-/

namespace EasyPay

open GoStrings

/-- Time, counted in nanoseconds from Go's zero time; `0` is `time.Time{}`. -/
abbrev Time := Int

def second : Time := 1000000000

/-- `Time.Unix`: whole seconds since 1970. -/
def unix (t : Time) : Int64 := Int64.ofInt (t / second - 62135596800)

/-! ## Errors -/

/-- The errors callers compare with `errors.Is`. -/
inductive Sentinel
  | invalidOrderID
  | notFound
  | duplicateTransaction
  | unknownShard
  | merchantNotFound
  | onchainTxNotFound
  | invalidRequest
  | transactionConflict
  | webhookDuplicate
  | webhookOrderMissing
  | orderNotFound
  | orderNotReady
  | unavailable
  | lockNotAcquired
  | rateLimited
  | circuitOpen
  | tokenMalformed
  | tokenExpired
  | tokenSignature
  | signatureMissing
  | signatureFormat
  | signatureMismatch
  | signatureExpired
  | unexpectedLog
  deriving DecidableEq, Repr

def Sentinel.text : Sentinel → Str
  | invalidOrderID => bytes "invalid order_id"
  | notFound => bytes "transaction not found"
  | duplicateTransaction => bytes "duplicate transaction (transaction_id)"
  | unknownShard => bytes "unknown shard_index"
  | merchantNotFound => bytes "merchant not found"
  | onchainTxNotFound => bytes "onchain tx not found"
  | invalidRequest => bytes "invalid request"
  | transactionConflict => bytes "order_id conflicts with existing payment"
  | webhookDuplicate => bytes "duplicate webhook event"
  | webhookOrderMissing => bytes "webhook order_id not found in DB"
  | orderNotFound => bytes "order not found"
  | orderNotReady => bytes "order not yet available"
  | unavailable => bytes "checkout temporarily unavailable"
  | lockNotAcquired => bytes "lock not acquired"
  | rateLimited => bytes "rate limited"
  | circuitOpen => bytes "stripe circuit breaker open"
  | tokenMalformed => bytes "checkout token malformed"
  | tokenExpired => bytes "checkout token expired"
  | tokenSignature => bytes "checkout token signature mismatch"
  | signatureMissing => bytes "stripe-signature header missing"
  | signatureFormat => bytes "stripe-signature malformed"
  | signatureMismatch => bytes "stripe signature mismatch"
  | signatureExpired => bytes "stripe signature timestamp outside tolerance"
  | unexpectedLog => bytes "log shape does not match PaymentReceived"

/-- An error value: its text and the sentinels in its chain. -/
structure Err where
  msg : Str
  chain : List Sentinel
  deriving DecidableEq, Repr

namespace Err

/-- A sentinel itself. -/
def of (s : Sentinel) : Err := ⟨s.text, [s]⟩

/-- `errors.New` and `fmt.Errorf` without `%w`. -/
def new (msg : Str) : Err := ⟨msg, []⟩

/-- `fmt.Errorf(pre + "%w", e)`. -/
def wrap (pre : Str) (e : Err) : Err := ⟨pre ++ e.msg, e.chain⟩

/-- `fmt.Errorf("%w: " + msg, s)`. -/
def because (s : Sentinel) (msg : Str) : Err := ⟨s.text ++ bytes ": " ++ msg, [s]⟩

/-- `errors.Is`. -/
def is (e : Err) (s : Sentinel) : Bool := s ∈ e.chain

@[simp] theorem is_wrap (pre : Str) (e : Err) (t : Sentinel) : (wrap pre e).is t = e.is t := rfl

end Err

abbrev Res (α : Type) := Except Err α

/-! ## Transactions and merchants -/

inductive TransactionStatus
  | created
  | pending
  | paid
  | failed
  | expired
  | refunded
  deriving DecidableEq, Repr

/-- `string(status)`. -/
def TransactionStatus.text : TransactionStatus → Str
  | created => bytes "created"
  | pending => bytes "pending"
  | paid => bytes "paid"
  | failed => bytes "failed"
  | expired => bytes "expired"
  | refunded => bytes "refunded"

structure Transaction where
  merchantID : Str
  transactionID : Str
  orderID : Str
  amount : Int64
  currency : Str
  status : TransactionStatus
  paymentMethod : Str
  stripeSessionID : Str
  stripePaymentIntentID : Str
  createdAt : Time
  updatedAt : Time
  shardIndex : UInt8
  deriving DecidableEq, Repr

inductive MerchantStatus
  | active
  | suspended
  deriving DecidableEq, Repr

structure Merchant where
  merchantID : Str
  name : Str
  apiKey : Str
  secretKey : Str
  callbackURL : Str
  rateLimit : Int
  status : MerchantStatus
  shardIndex : UInt8
  deriving DecidableEq, Repr

inductive OnchainTxStatus
  | pending
  | confirmed
  | failed
  | reorged
  deriving DecidableEq, Repr

/-- A payment event seen on chain; `amount` is `none` for a nil `*big.Int`. -/
structure OnchainTransaction where
  txHash : Str
  blockNumber : UInt64
  merchantID : Str
  orderID : Str
  payer : Str
  token : Str
  amount : Option Int
  chainID : Int64
  confirmations : UInt64
  requiredConfirm : UInt64
  status : OnchainTxStatus
  deriving DecidableEq, Repr

/-! ## Order ids -/

/-- `[A-Za-z0-9._:-]`. -/
def orderIDByte (c : UInt8) : Bool :=
  (65 ≤ c && c ≤ 90) || (97 ≤ c && c ≤ 122) || (48 ≤ c && c ≤ 57) ||
    (c == 46 || c == 95 || c == 58 || c == 45)

/-- The scan of `ValidateOrderID` from position `i` on. -/
def validateBytes : Nat → Str → Res Unit
  | _, [] => .ok ()
  | i, c :: s =>
    if orderIDByte c then validateBytes (i + 1) s
    else .error (.because .invalidOrderID
      (bytes "invalid char " ++ quoteByte c ++ bytes " at " ++ formatInt i))

def validateOrderID (orderID : Str) : Res Unit :=
  let n := orderID.length
  if n = 0 ∨ n > 64 then
    .error (.because .invalidOrderID (bytes "length must be 1..64, got " ++ formatInt n))
  else validateBytes 0 orderID

/-- An order id the gateway takes. -/
def ValidOrderID (o : Str) : Prop :=
  o ≠ [] ∧ o.length ≤ 64 ∧ ∀ c ∈ o, orderIDByte c = true

instance (o : Str) : Decidable (ValidOrderID o) :=
  -- named, since the bytes of a string are checked one by one, not all bytes there are
  have : Decidable (∀ c ∈ o, orderIDByte c = true) := List.decidableBAll _ o
  inferInstanceAs (Decidable (o ≠ [] ∧ o.length ≤ 64 ∧ ∀ c ∈ o, orderIDByte c = true))

theorem validateBytes_ok_iff (i : Nat) (s : Str) :
    validateBytes i s = .ok () ↔ ∀ c ∈ s, orderIDByte c = true := by
  induction s generalizing i with
  | nil => simp [validateBytes]
  | cons c s ih =>
    unfold validateBytes
    by_cases hc : orderIDByte c = true
    · rw [if_pos hc, ih]
      simp [hc]
    · rw [if_neg hc]
      simp [hc]

theorem validateOrderID_ok_iff (o : Str) : validateOrderID o = .ok () ↔ ValidOrderID o := by
  unfold validateOrderID ValidOrderID
  simp only [gt_iff_lt]
  by_cases h : o.length = 0 ∨ 64 < o.length
  · rw [if_pos h]
    constructor
    · intro h'
      cases h'
    · rintro ⟨hne, hle, -⟩
      rcases h with h | h
      · exact absurd (List.length_eq_zero_iff.mp h) hne
      · omega
  · rw [if_neg h, validateBytes_ok_iff]
    constructor
    · intro hb
      refine ⟨fun e => h (.inl (by rw [e]; rfl)), by omega, hb⟩
    · exact fun hv => hv.2.2

/-- A refused order id is reported as `ErrInvalidOrderID` and nothing else. -/
theorem validateOrderID_error {o : Str} {e : Err} (h : validateOrderID o = .error e) :
    e.chain = [.invalidOrderID] := by
  have hb : ∀ (s : Str) (i : Nat), validateBytes i s = .error e → e.chain = [.invalidOrderID] := by
    intro s
    induction s with
    | nil => intro i h; cases h
    | cons c s ih =>
      intro i h
      unfold validateBytes at h
      split at h
      · exact ih _ h
      · cases h
        rfl
  unfold validateOrderID at h
  simp only at h
  split at h
  · cases h
    rfl
  · exact hb _ _ h

theorem validateOrderID_cases (o : Str) :
    (ValidOrderID o ∧ validateOrderID o = .ok ()) ∨
      (¬ ValidOrderID o ∧ ∃ e, validateOrderID o = .error e) := by
  cases h : validateOrderID o with
  | ok u => exact .inl ⟨(validateOrderID_ok_iff o).mp h, rfl⟩
  | error e =>
    refine .inr ⟨fun hv => ?_, e, rfl⟩
    rw [(validateOrderID_ok_iff o).mpr hv] at h
    cases h

end EasyPay
