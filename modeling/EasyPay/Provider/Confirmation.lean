import EasyPay.Gateway

/-!
# Confirmation tracker

`internal/provider/blockchain/confirmation.go`: a tick lists the pending on-chain
payments, counts their confirmations against the chain head, and confirms the order of
each that is deep enough and matches.
-/

namespace EasyPay

open GoStrings Ports

structure ConfirmationTracker where
  chainID : Int64
  batchLimit : Int
  deriving DecidableEq, Repr

def chainConfirmedEvent (order : Transaction) (now : Time) : PaymentConfirmedEvent :=
  { orderID := order.orderID
    merchantID := order.merchantID
    status := TransactionStatus.paid.text
    stripePaymentIntentID := []
    amount := order.amount
    currency := order.currency
    confirmedAt := (unix now).toInt }

/-- `p.Amount == nil || p.Amount.Int64() != order.Amount`; `Int64` keeps the low 64 bits. -/
def amountMismatch (p : OnchainTransaction) (order : Transaction) : Bool :=
  match p.amount with
  | none => true
  | some a => Int64.ofInt a ≠ order.amount

namespace ConfirmationTracker

/-- `processOne` for a payment that is deep enough. -/
def confirmOrder (p : OnchainTransaction) (confirmations : UInt64) : Svc Unit := do
  match ← Svc.ask (.getByOrderIDAny p.orderID) with
  | .error _ => return ()
  | .ok order =>
    if order.status = .paid ∨ order.status = .refunded then
      -- already finalised
      let _ ← Svc.ask (.updateConfirmations p.txHash confirmations .confirmed)
      return ()
    else if amountMismatch p order then
      let _ ← Svc.ask (.updateConfirmations p.txHash confirmations .failed)
      return ()
    else
      match ← Svc.ask (.updateConfirmations p.txHash confirmations .confirmed) with
      | .error _ => return ()
      | .ok _ =>
        match ← Svc.ask
            (.updateStatus order.shardIndex order.merchantID order.orderID .paid []) with
        | .error _ => return ()
        | .ok _ =>
          let now ← Svc.ask .timeNow
          let _ ← Svc.ask (.publishPaymentConfirmed (chainConfirmedEvent order now))
          return ()

/-- `processOne` for a payment whose receipt was found. -/
def countConfirmations (p : OnchainTransaction) (latest : UInt64) (receipt : Receipt) :
    Svc Unit := do
  if receipt.status ≠ 1 then
    let _ ← Svc.ask (.updateConfirmations p.txHash 0 .failed)
    return ()
  else if latest < p.blockNumber then return ()
  else
    let confirmations := latest - p.blockNumber
    if confirmations < p.requiredConfirm then
      let _ ← Svc.ask (.updateConfirmations p.txHash confirmations .pending)
      return ()
    else confirmOrder p confirmations

def processOne (p : OnchainTransaction) (latest : UInt64) : Svc Unit := do
  match ← Svc.ask (.transactionReceipt p.txHash) with
  | .ok (some receipt) => countConfirmations p latest receipt
  | .ok none =>
    -- the transaction is no longer canonical
    let _ ← Svc.ask (.updateConfirmations p.txHash 0 .reorged)
    return ()
  | .error _ =>
    let _ ← Svc.ask (.updateConfirmations p.txHash 0 .reorged)
    return ()

def processAll (latest : UInt64) : List OnchainTransaction → Svc Unit
  | [] => return ()
  | p :: pendings => do
    processOne p latest
    processAll latest pendings

def tick (c : ConfirmationTracker) : Svc (Res Unit) := do
  match ← Svc.ask .blockNumber with
  | .error e => return .error (e.wrap (bytes "block number: "))
  | .ok latest =>
    match ← Svc.ask (.listPendingByChain c.chainID c.batchLimit) with
    | .error e => return .error (e.wrap (bytes "list pending: "))
    | .ok pendings =>
      processAll latest pendings
      return .ok ()

/-! ## Where a tick can be

`ProcessAt p latest t o`: after the calls `t`, `processOne` makes the call `o`, or returns if that
is `none`.  Whatever is said below of a tick is read off these tables. -/

/-- The row is as deep below the head as its chain asks for. -/
def DeepEnough (p : OnchainTransaction) (latest : UInt64) : Prop :=
  p.blockNumber.toNat + p.requiredConfirm.toNat ≤ latest.toNat

/-- The order is open, and the low 64 bits of the payment are its amount. -/
def Matches (p : OnchainTransaction) (order : Transaction) : Prop :=
  order.status ≠ .paid ∧ order.status ≠ .refunded ∧ amountMismatch p order = false

section
variable (p : OnchainTransaction) (n latest : UInt64)

/-- The order of the payment was found. -/
def found (order : Transaction) : Prog.Step gateway :=
  (Op.getByOrderIDAny p.orderID).gave (.ok order)

/-- The payment was marked as confirmed. -/
def marked : Prog.Step gateway := (Op.updateConfirmations p.txHash n .confirmed).gave (.ok ())

/-- The order was set to `paid`. -/
def paid (order : Transaction) : Prog.Step gateway :=
  (Op.updateStatus order.shardIndex order.merchantID order.orderID .paid []).gave (.ok ())

inductive ConfirmAt : Calls → Option Op → Prop
  | order : ConfirmAt [] (some (.getByOrderIDAny p.orderID))
  | unknown (e : Err) : ConfirmAt [(Op.getByOrderIDAny p.orderID).gave (.error e)] none
  | final {order : Transaction} : order.status = .paid ∨ order.status = .refunded →
      ConfirmAt [found p order] (some (.updateConfirmations p.txHash n .confirmed))
  | finalDone {order : Transaction} (a : Res Unit) :
      order.status = .paid ∨ order.status = .refunded →
      ConfirmAt [found p order, (Op.updateConfirmations p.txHash n .confirmed).gave a] none
  | mismatch {order : Transaction} : amountMismatch p order = true →
      ConfirmAt [found p order] (some (.updateConfirmations p.txHash n .failed))
  | mismatchDone {order : Transaction} (a : Res Unit) : amountMismatch p order = true →
      ConfirmAt [found p order, (Op.updateConfirmations p.txHash n .failed).gave a] none
  | confirm {order : Transaction} : Matches p order →
      ConfirmAt [found p order] (some (.updateConfirmations p.txHash n .confirmed))
  | unconfirmed {order : Transaction} (e : Err) : Matches p order →
      ConfirmAt [found p order, (Op.updateConfirmations p.txHash n .confirmed).gave (.error e)] none
  | pay {order : Transaction} : Matches p order →
      ConfirmAt [found p order, marked p n]
        (some (.updateStatus order.shardIndex order.merchantID order.orderID .paid []))
  | unpaid {order : Transaction} (e : Err) : Matches p order →
      ConfirmAt [found p order, marked p n,
        (Op.updateStatus order.shardIndex order.merchantID order.orderID .paid []).gave (.error e)]
        none
  | clock {order : Transaction} : Matches p order →
      ConfirmAt [found p order, marked p n, paid order] (some .timeNow)
  | announce {order : Transaction} (now : Time) : Matches p order →
      ConfirmAt [found p order, marked p n, paid order, Op.timeNow.gave now]
        (some (.publishPaymentConfirmed (chainConfirmedEvent order now)))
  | announced {order : Transaction} (now : Time) (a : Res Unit) : Matches p order →
      ConfirmAt [found p order, marked p n, paid order, Op.timeNow.gave now,
        (Op.publishPaymentConfirmed (chainConfirmedEvent order now)).gave a] none

inductive ProcessAt : Calls → Option Op → Prop
  | receipt : ProcessAt [] (some (.transactionReceipt p.txHash))
  | gone {a : Res (Option Receipt)} : (∀ r, a ≠ .ok (some r)) →
      ProcessAt [(Op.transactionReceipt p.txHash).gave a]
        (some (.updateConfirmations p.txHash 0 .reorged))
  | goneDone {a : Res (Option Receipt)} (b : Res Unit) : (∀ r, a ≠ .ok (some r)) →
      ProcessAt [(Op.transactionReceipt p.txHash).gave a,
        (Op.updateConfirmations p.txHash 0 .reorged).gave b] none
  | failed {r : Receipt} : r.status ≠ 1 →
      ProcessAt [(Op.transactionReceipt p.txHash).gave (.ok (some r))]
        (some (.updateConfirmations p.txHash 0 .failed))
  | failedDone {r : Receipt} (b : Res Unit) : r.status ≠ 1 →
      ProcessAt [(Op.transactionReceipt p.txHash).gave (.ok (some r)),
        (Op.updateConfirmations p.txHash 0 .failed).gave b] none
  | ahead {r : Receipt} : r.status = 1 → latest < p.blockNumber →
      ProcessAt [(Op.transactionReceipt p.txHash).gave (.ok (some r))] none
  | shallow {r : Receipt} : r.status = 1 → latest - p.blockNumber < p.requiredConfirm →
      ProcessAt [(Op.transactionReceipt p.txHash).gave (.ok (some r))]
        (some (.updateConfirmations p.txHash (latest - p.blockNumber) .pending))
  | shallowDone {r : Receipt} (b : Res Unit) : r.status = 1 →
      latest - p.blockNumber < p.requiredConfirm →
      ProcessAt [(Op.transactionReceipt p.txHash).gave (.ok (some r)),
        (Op.updateConfirmations p.txHash (latest - p.blockNumber) .pending).gave b] none
  | deep {r : Receipt} {t : Calls} {o : Option Op} : r.status = 1 → DeepEnough p latest →
      ConfirmAt p (latest - p.blockNumber) t o →
      ProcessAt ((Op.transactionReceipt p.txHash).gave (.ok (some r)) :: t) o

/-- The calls of `processOne` for one payment after another, each of them through. -/
abbrev ProcessedAll : List OnchainTransaction → Calls → Prop :=
  Prog.Each (P := gateway) fun p t => ProcessAt p latest t none

inductive TickAt (c : ConfirmationTracker) : Calls → Option Op → Prop
  | head : TickAt c [] (some .blockNumber)
  | noHead (e : Err) : TickAt c [Op.blockNumber.gave (.error e)] none
  | list (latest : UInt64) : TickAt c [Op.blockNumber.gave (.ok latest)]
      (some (.listPendingByChain c.chainID c.batchLimit))
  | noList (latest : UInt64) (e : Err) : TickAt c [Op.blockNumber.gave (.ok latest),
      (Op.listPendingByChain c.chainID c.batchLimit).gave (.error e)] none
  | payment {latest : UInt64} {ps ps' : List OnchainTransaction} {p : OnchainTransaction}
      {t t' : Calls} {o : Op} : ProcessedAll latest ps t → ProcessAt p latest t' (some o) →
      TickAt c (Op.blockNumber.gave (.ok latest) ::
        (Op.listPendingByChain c.chainID c.batchLimit).gave (.ok (ps ++ p :: ps')) :: (t ++ t'))
        (some o)
  | done {latest : UInt64} {pendings : List OnchainTransaction} {t : Calls} :
      ProcessedAll latest pendings t →
      TickAt c (Op.blockNumber.gave (.ok latest) ::
        (Op.listPendingByChain c.chainID c.batchLimit).gave (.ok pendings) :: t) none

end

theorem confirmOrder_at {p : OnchainTransaction} {n : UInt64} {t : Calls} {q : Svc Unit}
    (h : Prog.Runs (confirmOrder p n) t q) : ConfirmAt p n t q.next? := by
  unfold confirmOrder at h
  rcases Svc.runs_ask.mp h with ⟨rfl, rfl⟩ | ⟨a, t₁, rfl, h₁⟩
  · exact .order
  cases a with
  | error e =>
    obtain ⟨rfl, rfl⟩ := Prog.runs_ret.mp h₁
    exact .unknown e
  | ok order =>
    simp only at h₁
    split at h₁
    · next hfinal =>
      rcases Svc.runs_ask.mp h₁ with ⟨rfl, rfl⟩ | ⟨b, t₂, rfl, h₂⟩
      · exact .final hfinal
      · obtain ⟨rfl, rfl⟩ := Prog.runs_ret.mp h₂
        exact .finalDone b hfinal
    next hopen =>
    split at h₁
    · next hmis =>
      rcases Svc.runs_ask.mp h₁ with ⟨rfl, rfl⟩ | ⟨b, t₂, rfl, h₂⟩
      · exact .mismatch hmis
      · obtain ⟨rfl, rfl⟩ := Prog.runs_ret.mp h₂
        exact .mismatchDone b hmis
    next hmis =>
    have hmatch : Matches p order :=
      ⟨fun hp => hopen (.inl hp), fun hr => hopen (.inr hr), by simpa using hmis⟩
    rcases Svc.runs_ask.mp h₁ with ⟨rfl, rfl⟩ | ⟨b, t₂, rfl, h₂⟩
    · exact .confirm hmatch
    cases b with
    | error e =>
      obtain ⟨rfl, rfl⟩ := Prog.runs_ret.mp h₂
      exact .unconfirmed e hmatch
    | ok u =>
      rcases Svc.runs_ask.mp h₂ with ⟨rfl, rfl⟩ | ⟨b, t₃, rfl, h₃⟩
      · exact .pay hmatch
      cases b with
      | error e =>
        obtain ⟨rfl, rfl⟩ := Prog.runs_ret.mp h₃
        exact .unpaid e hmatch
      | ok u =>
        rcases Svc.runs_ask.mp h₃ with ⟨rfl, rfl⟩ | ⟨now, t₄, rfl, h₄⟩
        · exact .clock hmatch
        rcases Svc.runs_ask.mp h₄ with ⟨rfl, rfl⟩ | ⟨b, t₅, rfl, h₅⟩
        · exact .announce now hmatch
        obtain ⟨rfl, rfl⟩ := Prog.runs_ret.mp h₅
        exact .announced now b hmatch

theorem processOne_at {p : OnchainTransaction} {latest : UInt64} {t : Calls} {q : Svc Unit}
    (h : Prog.Runs (processOne p latest) t q) : ProcessAt p latest t q.next? := by
  unfold processOne at h
  rcases Svc.runs_ask.mp h with ⟨rfl, rfl⟩ | ⟨a, t₁, rfl, h₁⟩
  · exact .receipt
  rcases a with e | _ | r
  · rcases Svc.runs_ask.mp h₁ with ⟨rfl, rfl⟩ | ⟨b, t₂, rfl, h₂⟩
    · exact .gone (by simp)
    · obtain ⟨rfl, rfl⟩ := Prog.runs_ret.mp h₂
      exact .goneDone b (by simp)
  · rcases Svc.runs_ask.mp h₁ with ⟨rfl, rfl⟩ | ⟨b, t₂, rfl, h₂⟩
    · exact .gone (by simp)
    · obtain ⟨rfl, rfl⟩ := Prog.runs_ret.mp h₂
      exact .goneDone b (by simp)
  simp only at h₁
  unfold countConfirmations at h₁
  split at h₁
  · next hstatus =>
    rcases Svc.runs_ask.mp h₁ with ⟨rfl, rfl⟩ | ⟨b, t₂, rfl, h₂⟩
    · exact .failed hstatus
    · obtain ⟨rfl, rfl⟩ := Prog.runs_ret.mp h₂
      exact .failedDone b hstatus
  next hstatus =>
  have hone : r.status = 1 := not_not.mp hstatus
  split at h₁
  · next hahead =>
    obtain ⟨rfl, rfl⟩ := Prog.runs_ret.mp h₁
    exact .ahead hone hahead
  next hlatest =>
  simp only at h₁
  split at h₁
  · next hlow =>
    rcases Svc.runs_ask.mp h₁ with ⟨rfl, rfl⟩ | ⟨b, t₂, rfl, h₂⟩
    · exact .shallow hone hlow
    · obtain ⟨rfl, rfl⟩ := Prog.runs_ret.mp h₂
      exact .shallowDone b hone hlow
  next hdeep =>
  refine .deep hone ?_ (confirmOrder_at h₁)
  have hle := UInt64.le_iff_toNat_le.mp (UInt64.not_lt.mp hlatest)
  have hreq := UInt64.le_iff_toNat_le.mp (UInt64.not_lt.mp hdeep)
  rw [UInt64.toNat_sub_of_le _ _ (UInt64.not_lt.mp hlatest)] at hreq
  unfold DeepEnough
  omega

/-- **Where a tick can be.** -/
theorem tick_at (c : ConfirmationTracker) {t : Calls} {q : Svc (Res Unit)}
    (h : Prog.Runs c.tick t q) : TickAt c t q.next? := by
  unfold tick at h
  rcases Svc.runs_ask.mp h with ⟨rfl, rfl⟩ | ⟨a, t₁, rfl, h₁⟩
  · exact .head
  cases a with
  | error e =>
    obtain ⟨rfl, rfl⟩ := Prog.runs_ret.mp h₁
    exact .noHead e
  | ok latest =>
    rcases Svc.runs_ask.mp h₁ with ⟨rfl, rfl⟩ | ⟨b, t₂, rfl, h₂⟩
    · exact .list latest
    cases b with
    | error e =>
      obtain ⟨rfl, rfl⟩ := Prog.runs_ret.mp h₂
      exact .noList latest e
    | ok pendings =>
      -- in the middle of the list, or through with it
      have hloop : ∀ {t q}, Prog.Runs (processAll latest pendings) t q → _ :=
        Prog.runs_loop rfl (fun _ _ => rfl) (A := fun p t => ProcessAt p latest t none)
          fun p t h => processOne_at h
      rcases Prog.runs_bind h₂ with ⟨o, k, hall, rfl⟩ | ⟨t₃, u, t₄, rfl, hall, hret⟩
      · rcases hloop hall with
          ⟨ps, p, ps', t₁, t₂, o, k, k', rfl, rfl, hq, hps, hp⟩ | ⟨hq, -⟩
        · cases hq
          exact .payment hps (processOne_at hp)
        · cases hq
      · obtain ⟨rfl, rfl⟩ := Prog.runs_ret.mp hret
        rcases hloop hall with ⟨_, _, _, _, _, _, _, _, _, _, hq, _⟩ | ⟨-, hdone⟩
        · cases hq
        · rw [List.append_nil]
          exact .done hdone

/-! ## What the calls of a tick are -/

/-- The calls a tick makes; of the statuses of an order it writes `paid` only. -/
inductive TrackerCall : Op → Prop
  | head : TrackerCall .blockNumber
  | list (chainID : Int64) (limit : Int) : TrackerCall (.listPendingByChain chainID limit)
  | receipt (txHash : Str) : TrackerCall (.transactionReceipt txHash)
  | count (txHash : Str) (n : UInt64) (st : OnchainTxStatus) :
      TrackerCall (.updateConfirmations txHash n st)
  | order (orderID : Str) : TrackerCall (.getByOrderIDAny orderID)
  | confirm (i : UInt8) (m o : Str) : TrackerCall (.updateStatus i m o .paid [])
  | clock : TrackerCall .timeNow
  | announce (order : Transaction) (now : Time) :
      TrackerCall (.publishPaymentConfirmed (chainConfirmedEvent order now))

theorem ConfirmAt.call {p : OnchainTransaction} {n : UInt64} {t : Calls} {op : Op}
    (h : ConfirmAt p n t (some op)) : TrackerCall op := by
  cases h with
  | order => exact .order _
  | final _ => exact .count _ _ _
  | mismatch _ => exact .count _ _ _
  | confirm _ => exact .count _ _ _
  | pay _ => exact .confirm _ _ _
  | clock _ => exact .clock
  | announce now _ => exact .announce _ now

theorem ProcessAt.call {p : OnchainTransaction} {latest : UInt64} {t : Calls} {op : Op}
    (h : ProcessAt p latest t (some op)) : TrackerCall op := by
  cases h with
  | receipt => exact .receipt _
  | gone _ => exact .count _ _ _
  | failed _ => exact .count _ _ _
  | shallow _ _ => exact .count _ _ _
  | deep _ _ h => exact h.call

theorem TickAt.call {c : ConfirmationTracker} {t : Calls} {op : Op} (h : TickAt c t (some op)) :
    TrackerCall op := by
  cases h with
  | head => exact .head
  | list latest => exact .list _ _
  | payment _ hp => exact hp.call

/-- **The calls of a tracker tick.** -/
theorem tick_next (c : ConfirmationTracker) {t : Calls} {op : Op} {k : op.Ans → Svc (Res Unit)}
    (h : Prog.Runs c.tick t (.call op k)) : TrackerCall op :=
  (c.tick_at h).call

end ConfirmationTracker

end EasyPay
