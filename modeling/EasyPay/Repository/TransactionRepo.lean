import Mathlib.Logic.Function.Basic
import Mathlib.Data.List.Sort
import EasyPay.Lib.Table
import EasyPay.Repository.Codec
import EasyPay.Repository.ShardRouter

/-!
# Transaction repository

`internal/repository/transaction_repo.go` over the `transactions` table of each
physical pool.  Every method runs one SQL statement per pool, so it is one atomic
function on the pools.  What the source leaves open is an argument: the clock, the
text of a driver error if the statement fails, which of several matching rows a
`LIMIT 1` returns, and the order in which the pools answer.

String comparison on the two VARCHAR columns is the parameter `Collation`;
`transaction_id` (BINARY) and `stripe_pi_id` (VARBINARY) compare bytewise.
`RowsAffected` counts matched rows (`withClientFoundRows`).

The writing methods have one lemma each that says all they can do: `insert_cases`, and
`updateOrder_cases` for both updates.  Of the reading methods the callers use that an
answer comes from a stored row.
-/

namespace EasyPay

open GoStrings Tables

/-- How SQL `=` compares VARCHAR columns. -/
structure Collation where
  eq : Str → Str → Bool
  refl : ∀ s, eq s s = true

namespace Collation

/-- Byte equality. -/
def binary : Collation := ⟨fun s t => s == t, fun s => beq_self_eq_true s⟩

/-- `utf8mb4_unicode_ci` on ASCII strings: letters compare case-insensitively. -/
def asciiCI : Collation :=
  ⟨fun s t => s.map lowerByte == t.map lowerByte, fun _ => beq_self_eq_true _⟩

@[simp] theorem binary_eq (s t : Str) : binary.eq s t = true ↔ s = t := by
  simp [binary]

theorem asciiCI_eq (s t : Str) : asciiCI.eq s t = true ↔ s.map lowerByte = t.map lowerByte := by
  simp [asciiCI]

end Collation

/-- MySQL's ER_DUP_ENTRY, recognised by its text. -/
def isDuplicateKeyErr (msg : Str) : Bool :=
  contains msg (bytes "Error 1062") || contains msg (bytes "Duplicate entry")

/-- An error of a database, Redis, Stripe or Kafka client that is not about a duplicate
key; that one is reported by the statement itself. -/
structure Fault where
  msg : Str
  other : isDuplicateKeyErr msg = false

def Fault.badConnection : Fault := ⟨bytes "driver: bad connection", by decide⟩

/-- What MySQL reports for a taken `transaction_id`. -/
def duplicateEntry : Str :=
  bytes "Error 1062 (23000): Duplicate entry for key 'transactions.uniq_transaction_id'"

/-- The columns of `transactions`; `none` is NULL.  A row is only ever written by
`Insert`, whose checks it has passed, and its codes by the row codec. -/
structure Row where
  transactionID : Str
  merchantID : Str
  orderID : Str
  amount : UInt64
  currencyCode : UInt16
  status : UInt8
  paymentMethod : UInt8
  stripePiID : Option Str
  stripeSession : Option Str
  createdAt : Time
  updatedAt : Time
  transactionID_length : transactionID.length = 16
  merchantID_length : merchantID.length ≤ 16
  orderID_valid : ValidOrderID orderID
  currency_known : (decodeCurrency currencyCode).isOk = true
  status_known : (decodeStatus status).isOk = true
  deriving DecidableEq, Repr

/-- The columns that no statement changes once the row is stored. -/
structure Facts where
  transactionID : Str
  merchantID : Str
  orderID : Str
  amount : UInt64
  currencyCode : UInt16
  paymentMethod : UInt8
  deriving DecidableEq, Repr

def Row.facts (r : Row) : Facts :=
  ⟨r.transactionID, r.merchantID, r.orderID, r.amount, r.currencyCode, r.paymentMethod⟩

/-- The `transactions` table of each physical pool. -/
abbrev Pools := Nat → List Row

structure TransactionRepo where
  unicode : Unicode
  collation : Collation
  router : Router

def nullBytes (s : Str) : Option Str := if s = [] then none else some s

/-- `COALESCE(NULLIF(?, ''), column)`. -/
def coalesce (s : Str) (old : Option Str) : Option Str := if s = [] then old else some s

/-- `string(b)` of a nullable column. -/
def stringOf (b : Option Str) : Str := b.getD []

def hexTable : Str := bytes "0123456789abcdef"

def hexLower (b : Str) : Str :=
  b.flatMap fun v : UInt8 => [hexTable.getD (v >>> 4).toNat 0, hexTable.getD (v &&& 0x0f).toNat 0]

/-- The gateway's own hex is the library's. -/
theorem hexLower_eq (b : Str) : hexLower b = hexEncode b := by
  have hbyte : ∀ v : UInt8,
      [hexTable.getD (v >>> 4).toNat 0, hexTable.getD (v &&& 0x0f).toNat 0] =
        [hexDigit (v / 16), hexDigit (v % 16)] := forall_byte (by decide +kernel)
  unfold hexLower hexEncode
  congr 1
  funext v
  exact hbyte v

/-- What `scanTransaction` makes of the columns; the shard index is set by the caller. -/
def scanTransaction (r : Row) : Res Transaction :=
  match decodeCurrency r.currencyCode with
  | .error e => .error e
  | .ok cur =>
    match decodeStatus r.status with
    | .error e => .error e
    | .ok st =>
      .ok
        { merchantID := r.merchantID
          transactionID := hexLower r.transactionID
          orderID := r.orderID
          amount := r.amount.toInt64
          currency := cur
          status := st
          paymentMethod := decodeMethod r.paymentMethod
          stripeSessionID := stringOf r.stripeSession
          stripePaymentIntentID := stringOf r.stripePiID
          createdAt := r.createdAt
          updatedAt := r.updatedAt
          shardIndex := 0 }

namespace TransactionRepo

variable (R : TransactionRepo)

/-! ## Insert -/

/-- The checks of `Insert`, and the columns it hands to the statement. -/
def row (now : Time) (t : Transaction) : Res Row :=
  if hm : t.merchantID.length > 16 then
    .error (.new (bytes "merchant_id too long: " ++ formatInt t.merchantID.length ++
      bytes " bytes (max 16)"))
  else
    match htxn : decodeHex16 t.transactionID with
    | .error e => .error (e.wrap (bytes "transaction_id: "))
    | .ok txn =>
      match ho : validateOrderID t.orderID with
      | .error e => .error (e.wrap (bytes "order_id: "))
      | .ok _ =>
        if t.amount < 0 then
          .error (.new (bytes "amount must be >= 0, got " ++ formatInt t.amount.toInt))
        else
          match hcur : encodeCurrency R.unicode t.currency with
          | .error e => .error e
          | .ok cur =>
            .ok
              { transactionID := txn
                merchantID := t.merchantID
                orderID := t.orderID
                amount := t.amount.toUInt64
                currencyCode := cur
                status := encodeStatus t.status
                paymentMethod := encodeMethod R.unicode t.paymentMethod
                stripePiID := nullBytes t.stripePaymentIntentID
                stripeSession := nullBytes t.stripeSessionID
                createdAt := if t.createdAt = 0 then now else t.createdAt
                updatedAt := now
                transactionID_length := decodeHex16_length htxn
                merchantID_length := Nat.le_of_not_lt hm
                orderID_valid := (validateOrderID_ok_iff _).mp ho
                currency_known := by rw [decodeCurrency_encodeCurrency hcur]; rfl
                status_known := by rw [decodeStatus_encodeStatus]; rfl }

/-- What `Insert` makes of the error of its statement. -/
def insertError (msg : Str) : Err :=
  if isDuplicateKeyErr msg then .of .duplicateTransaction
  else .wrap (bytes "insert transaction: ") (.new msg)

def insert (now : Time) (fault : Option Fault) (t : Transaction) (db : Pools) : Res Unit × Pools :=
  match R.row now t with
  | .error e => (.error e, db)
  | .ok row =>
    match R.router.forIndex t.shardIndex with
    | .error e => (.error (e.wrap (bytes "route: ")), db)
    | .ok p =>
      match fault with
      | some f => (.error (insertError f.msg), db)
      | none =>
        match insertUnique Row.transactionID row (db p) with
        | none => (.error (insertError duplicateEntry), db)
        | some table => (.ok (), Function.update db p table)

/-! ## Lookups in one pool -/

/-- `WHERE merchant_id = ? AND order_id = ?`. -/
def ofOrder (merchantID orderID : Str) (r : Row) : Bool :=
  R.collation.eq r.merchantID merchantID && R.collation.eq r.orderID orderID

/-- `scanTransaction(db.QueryRowContext(...))` for a query with `LIMIT 1`. -/
def queryRow (fault : Option Fault) (pick : Nat) (p : Row → Bool) (table : List Row) :
    Res Transaction :=
  match fault with
  | some f => .error (.wrap (bytes "scan transaction: ") (.new f.msg))
  | none =>
    match selectOne pick p table with
    | none => .error (.of .notFound)
    | some r => scanTransaction r

def withShard (shardIdx : UInt8) (t : Transaction) : Transaction :=
  { t with shardIndex := shardIdx }

def getByTransactionID (fault : Option Fault) (pick : Nat) (shardIdx : UInt8)
    (merchantID transactionID : Str) (db : Pools) : Res Transaction :=
  match R.router.forIndex shardIdx with
  | .error e => .error (e.wrap (bytes "route: "))
  | .ok p =>
    match decodeHex16 transactionID with
    | .error e => .error (e.wrap (bytes "transaction_id: "))
    | .ok txn =>
      (queryRow fault pick
        (fun r => R.collation.eq r.merchantID merchantID && r.transactionID == txn) (db p)).map
        (withShard shardIdx)

def getByMerchantOrderID (fault : Option Fault) (pick : Nat) (shardIdx : UInt8)
    (merchantID orderID : Str) (db : Pools) : Res Transaction :=
  match validateOrderID orderID with
  | .error e => .error e
  | .ok _ =>
    match R.router.forIndex shardIdx with
    | .error e => .error (e.wrap (bytes "route: "))
    | .ok p =>
      (queryRow fault pick (R.ofOrder merchantID orderID) (db p)).map (withShard shardIdx)

/-! ## Updates -/

/-- Run an UPDATE of the rows of one order; no matched row is `ErrNotFound`. -/
def updateOrder (op : Str) (fault : Option Fault) (shardIdx : UInt8) (merchantID orderID : Str)
    (f : Row → Row) (db : Pools) : Res Unit × Pools :=
  match validateOrderID orderID with
  | .error e => (.error e, db)
  | .ok _ =>
    match R.router.forIndex shardIdx with
    | .error e => (.error (e.wrap (bytes "route: ")), db)
    | .ok p =>
      match fault with
      | some f => (.error (.wrap op (.new f.msg)), db)
      | none =>
        if (db p).any (R.ofOrder merchantID orderID) then
          (.ok (), Function.update db p (updateWhere (R.ofOrder merchantID orderID) f (db p)))
        else (.error (.of .notFound), db)

/-- The SET clause of `UpdateStatus`. -/
def setStatus (now : Time) (status : TransactionStatus) (piID : Str) (r : Row) : Row :=
  { r with
    status := encodeStatus status
    updatedAt := now
    stripePiID := coalesce piID r.stripePiID
    status_known := by rw [decodeStatus_encodeStatus]; rfl }

def updateStatus (now : Time) (fault : Option Fault) (shardIdx : UInt8) (merchantID orderID : Str)
    (status : TransactionStatus) (piID : Str) (db : Pools) : Res Unit × Pools :=
  R.updateOrder (bytes "update status: ") fault shardIdx merchantID orderID
    (setStatus now status piID) db

/-- The SET clause of `UpdateCheckout`. -/
def setCheckout (now : Time) (sessionID piID : Str) (r : Row) : Row :=
  { r with
    stripeSession := coalesce sessionID r.stripeSession
    stripePiID := coalesce piID r.stripePiID
    updatedAt := now }

def updateCheckout (now : Time) (fault : Option Fault) (shardIdx : UInt8)
    (merchantID orderID sessionID piID : Str) (db : Pools) : Res Unit × Pools :=
  R.updateOrder (bytes "update checkout: ") fault shardIdx merchantID orderID
    (setCheckout now sessionID piID) db

/-! ## Scatter-gather

The pools are read in one step.  A pool is read by its own goroutine, and the answers
arrive in any order. -/

/-- The receiving loop of `scatterFirst` on the answers in their order of arrival: the transaction and
the error it returns, `none` for `nil`. -/
def receive (logicalForPhysical : List UInt8) (pools : Nat) :
    List (Nat × Res Transaction) → (misses : Nat) → (firstErr : Option Err) →
    Option Transaction × Option Err
  | [], misses, firstErr =>
    if misses = pools then (none, some (.of .notFound)) else (none, firstErr)
  | (i, .ok t) :: _, _, _ => (some (withShard (logicalForPhysical.getD i 0) t), none)
  | (_, .error e) :: rest, misses, firstErr =>
    if e.is .notFound then receive logicalForPhysical pools rest (misses + 1) firstErr
    else receive logicalForPhysical pools rest misses (firstErr <|> some e)

/-- The two results as one. -/
def gather : Option Transaction × Option Err → Res Transaction
  | (some t, _) => .ok t
  | (none, some e) => .error e
  -- does not occur: with fewer misses than pools some answer was another error
  | (none, none) => .error (.new [])

def scatterFirst (faults : Nat → Option Fault) (pick : Nat → Nat) (arrival : List Nat)
    (p : Row → Bool) (db : Pools) : Res Transaction :=
  let n := R.router.pools
  gather (receive (R.router.physicalToFirstLogical n) n
    (shuffle arrival ((List.range n).map fun i => (i, queryRow (faults i) (pick i) p (db i)))) 0
    none)

def getByOrderIDAny (faults : Nat → Option Fault) (pick : Nat → Nat) (arrival : List Nat)
    (orderID : Str) (db : Pools) : Res Transaction :=
  match validateOrderID orderID with
  | .error e => .error e
  | .ok _ =>
    R.scatterFirst faults pick arrival (fun r => R.collation.eq r.orderID orderID) db

def getByPaymentIntentID (faults : Nat → Option Fault) (pick : Nat → Nat) (arrival : List Nat)
    (pi : Str) (db : Pools) : Res Transaction :=
  if pi = [] then .error (.of .notFound)
  else R.scatterFirst faults pick arrival (fun r => r.stripePiID == some pi) db

/-! ## Stuck orders -/

/-- `WHERE status IN (created, pending) AND created_at < ?`. -/
def stuck (cutoff : Time) (r : Row) : Bool :=
  (r.status == encodeStatus .created || r.status == encodeStatus .pending) &&
    decide (r.createdAt < cutoff)

/-- One pool's rows under `ORDER BY created_at ASC LIMIT ?`, ties in any order. -/
def pendingRows (ties : List Nat) (cutoff : Time) (limit : Nat) (table : List Row) : List Row :=
  ((shuffle ties (table.filter (stuck cutoff))).insertionSort
    fun a b => a.createdAt ≤ b.createdAt).take limit

def scanAll : List Row → Res (List Transaction)
  | [] => .ok []
  | r :: rs =>
    match scanTransaction r with
    | .error e => .error e
    | .ok t =>
      match scanAll rs with
      | .error e => .error e
      | .ok ts => .ok (t :: ts)

/-- The goroutine of pool `i`. -/
def shardPending (fault : Option Fault) (i : Nat) (logical : UInt8) (rows : List Row) :
    Res (List Transaction) :=
  match fault with
  | some f =>
    .error (.wrap (bytes "query pending shard " ++ formatInt i ++ bytes ": ") (.new f.msg))
  | none =>
    match scanAll rows with
    | .error e => .error (e.wrap (bytes "scan shard " ++ formatInt i ++ bytes ": "))
    | .ok ts => .ok (ts.map (withShard logical))

/-- All rows, or the first error in order of arrival. -/
def collect : List (Res (List Transaction)) → Res (List Transaction)
  | [] => .ok []
  | .error e :: _ => .error e
  | .ok ts :: rest =>
    match collect rest with
    | .error e => .error e
    | .ok all => .ok (ts ++ all)

/-- The inner loop of the insertion sort: `b` sinks into the sorted prefix, which is
given back to front. -/
def sinkBack (b : Transaction) : List Transaction → List Transaction
  | [] => [b]
  | a :: rest =>
    if a.createdAt < b.createdAt ∨ (a.createdAt = b.createdAt ∧ a.transactionID ≤ b.transactionID)
    then b :: a :: rest
    else a :: sinkBack b rest

def sortTransactionsByCreatedAt (txns : List Transaction) : List Transaction :=
  (txns.foldl (fun sorted b => sinkBack b sorted) []).reverse

def getPendingBefore (faults : Nat → Option Fault) (ties : Nat → List Nat) (arrival : List Nat)
    (before : Time) (limit : Int) (db : Pools) : Res (List Transaction) :=
  if limit ≤ 0 then .ok []
  else
    let n := R.router.pools
    let logicalForPhysical := R.router.physicalToFirstLogical n
    let answers := (List.range n).map fun i =>
      shardPending (faults i) i (logicalForPhysical.getD i 0)
        (pendingRows (ties i) before limit.toNat (db i))
    match collect (shuffle arrival answers) with
    | .error e => .error e
    | .ok all => .ok ((sortTransactionsByCreatedAt all).take limit.toNat)

/-! ## What the methods can do -/

/-- What `Insert` hands to its statement, of a transaction that passes its checks. -/
structure Stored (now : Time) (t : Transaction) (r : Row) : Prop where
  transactionID : decodeHex16 t.transactionID = .ok r.transactionID
  merchantID : r.merchantID = t.merchantID
  orderID : r.orderID = t.orderID
  valid : ValidOrderID t.orderID
  nonneg : 0 ≤ t.amount
  amount : r.amount = t.amount.toUInt64
  currency : encodeCurrency R.unicode t.currency = .ok r.currencyCode
  status : r.status = encodeStatus t.status
  paymentMethod : r.paymentMethod = encodeMethod R.unicode t.paymentMethod
  stripePiID : r.stripePiID = nullBytes t.stripePaymentIntentID
  stripeSession : r.stripeSession = nullBytes t.stripeSessionID
  createdAt : r.createdAt = if t.createdAt = 0 then now else t.createdAt
  updatedAt : r.updatedAt = now

theorem row_stored {now : Time} {t : Transaction} {r : Row} (h : R.row now t = .ok r) :
    R.Stored now t r := by
  unfold row at h
  split at h
  · cases h
  split at h
  · cases h
  next txn htxn =>
  split at h
  · cases h
  next hord =>
  split at h
  · cases h
  next hneg =>
  split at h
  · cases h
  next cur hcur =>
  cases h
  exact ⟨htxn, rfl, rfl, (validateOrderID_ok_iff _).mp hord, Int64.not_lt.mp hneg, rfl, hcur, rfl, rfl,
    rfl, rfl, rfl, rfl⟩

theorem row_ok {now : Time} {t : Transaction} {r : Row} (h : R.row now t = .ok r) :
    decodeHex16 t.transactionID = .ok r.transactionID ∧ r.merchantID = t.merchantID ∧
      r.orderID = t.orderID ∧ ValidOrderID t.orderID ∧ r.amount = t.amount.toUInt64 ∧
      encodeCurrency R.unicode t.currency = .ok r.currencyCode ∧
      r.status = encodeStatus t.status ∧
      r.paymentMethod = encodeMethod R.unicode t.paymentMethod ∧
      r.stripePiID = nullBytes t.stripePaymentIntentID ∧
      r.stripeSession = nullBytes t.stripeSessionID := by
  have hs := R.row_stored h
  exact ⟨hs.transactionID, hs.merchantID, hs.orderID, hs.valid, hs.amount, hs.currency, hs.status,
    hs.paymentMethod, hs.stripePiID, hs.stripeSession⟩

/-- `Insert` stores no amount that an `int64` does not hold. -/
theorem row_amount {now : Time} {t : Transaction} {r : Row} (h : R.row now t = .ok r) :
    r.amount.toNat < 2 ^ 63 := by
  have hs := R.row_stored h
  rw [hs.amount]
  exact toUInt64_lt hs.nonneg

/-- The checks of `Insert`. -/
theorem exists_row_of_nonneg {t : Transaction} {txn : Str} {cur : UInt16} (now : Time)
    (hm : t.merchantID.length ≤ 16) (htxn : decodeHex16 t.transactionID = .ok txn)
    (ho : ValidOrderID t.orderID) (ha : 0 ≤ t.amount)
    (hcur : encodeCurrency R.unicode t.currency = .ok cur) : ∃ r, R.row now t = .ok r := by
  unfold row
  rw [dif_neg (Nat.not_lt.mpr hm)]
  split
  · next he =>
    rw [htxn] at he
    cases he
  split
  · next he =>
    rw [(validateOrderID_ok_iff _).mpr ho] at he
    cases he
  rw [if_neg (Int64.not_lt.mpr ha)]
  split
  · next he =>
    rw [hcur] at he
    cases he
  · exact ⟨_, rfl⟩

theorem exists_row {t : Transaction} {txn : Str} {cur : UInt16} (now : Time)
    (hm : t.merchantID.length ≤ 16) (htxn : decodeHex16 t.transactionID = .ok txn)
    (ho : ValidOrderID t.orderID) (ha : 0 < t.amount)
    (hcur : encodeCurrency R.unicode t.currency = .ok cur) : ∃ r, R.row now t = .ok r :=
  R.exists_row_of_nonneg now hm htxn ho (Int64.le_of_lt ha) hcur

/-- The checks of `Insert` do not report a duplicate. -/
theorem row_error {now : Time} {t : Transaction} {e : Err} (h : R.row now t = .error e) :
    e.is .duplicateTransaction = false := by
  unfold row at h
  split at h
  · cases h
    rfl
  split at h
  · next e' he =>
    cases h
    unfold decodeHex16 at he
    split at he
    · cases he
      rfl
    · split at he
      · cases he
      · cases he
        rfl
  split at h
  · next e' he =>
    cases h
    rw [Err.is_wrap, Err.is, validateOrderID_error he]
    rfl
  split at h
  · cases h
    rfl
  split at h
  · next e' he =>
    cases h
    unfold encodeCurrency at he
    split at he
    · cases he
    · cases he
      rfl
  cases h

theorem insertError_fault (f : Fault) : (insertError f.msg).is .duplicateTransaction = false := by
  unfold insertError
  rw [f.other]
  rfl

theorem insertError_duplicateEntry : insertError duplicateEntry = .of .duplicateTransaction := by
  decide

theorem forIndex_error {r : Router} {i : UInt8} {e : Err} (h : r.forIndex i = .error e) :
    e.chain = [.unknownShard] := by
  unfold Router.forIndex at h
  split at h
  · cases h
    rfl
  · cases h

/-- **Insert** appends its row to the pool of the shard, or finds the transaction id
taken, or fails for another reason; only the first changes a table. -/
theorem insert_cases (now : Time) (fault : Option Fault) (t : Transaction) (db : Pools) :
    (∃ r p, R.row now t = .ok r ∧ R.router.forIndex t.shardIndex = .ok p ∧ fault = none ∧
      (∀ y ∈ db p, y.transactionID ≠ r.transactionID) ∧
      R.insert now fault t db = (.ok (), Function.update db p (db p ++ [r]))) ∨
    (∃ r p, R.row now t = .ok r ∧ R.router.forIndex t.shardIndex = .ok p ∧ fault = none ∧
      (∃ y ∈ db p, y.transactionID = r.transactionID) ∧
      R.insert now fault t db = (.error (.of .duplicateTransaction), db)) ∨
    (∃ e, e.is .duplicateTransaction = false ∧ R.insert now fault t db = (.error e, db)) := by
  unfold insert
  cases hr : R.row now t with
  | error e => exact .inr (.inr ⟨e, R.row_error hr, rfl⟩)
  | ok r =>
    cases hp : R.router.forIndex t.shardIndex with
    | error e =>
      refine .inr (.inr ⟨_, ?_, rfl⟩)
      rw [Err.is_wrap, Err.is, forIndex_error hp]
      rfl
    | ok p =>
      cases fault with
      | some f => exact .inr (.inr ⟨_, insertError_fault f, rfl⟩)
      | none =>
        cases hi : insertUnique Row.transactionID r (db p) with
        | none =>
          refine .inr (.inl ⟨r, p, rfl, rfl, rfl, insertUnique_eq_none.mp hi, ?_⟩)
          simp only [insertError_duplicateEntry, hi]
        | some table =>
          obtain ⟨hne, rfl⟩ := insertUnique_eq_some.mp hi
          refine .inl ⟨r, p, rfl, rfl, rfl, hne, ?_⟩
          simp only [hi]

/-- A row that passes the checks is stored or found taken, if the statement runs. -/
theorem insert_ok_or_duplicate {now : Time} {t : Transaction} {r : Row} {p : Nat}
    (hr : R.row now t = .ok r) (hp : R.router.forIndex t.shardIndex = .ok p) (db : Pools) :
    (R.insert now none t db).1 = .ok () ∨
      (R.insert now none t db).1 = .error (.of .duplicateTransaction) := by
  unfold insert
  rw [hr, hp]
  simp only
  split
  · right
    rw [insertError_duplicateEntry]
  · exact .inl rfl

@[simp] theorem facts_setStatus (now : Time) (st : TransactionStatus) (piID : Str) (r : Row) :
    (setStatus now st piID r).facts = r.facts := rfl

@[simp] theorem facts_setCheckout (now : Time) (sessionID piID : Str) (r : Row) :
    (setCheckout now sessionID piID r).facts = r.facts := rfl

/-- **Update** of an order changes the matching rows of the pool of the shard, at least
one, or nothing at all. -/
theorem updateOrder_cases (op : Str) (fault : Option Fault) (shardIdx : UInt8) (m o : Str)
    (f : Row → Row) (db : Pools) :
    (∃ p, R.router.forIndex shardIdx = .ok p ∧ ValidOrderID o ∧ fault = none ∧
      (∃ r ∈ db p, R.ofOrder m o r = true) ∧
      R.updateOrder op fault shardIdx m o f db =
        (.ok (), Function.update db p (updateWhere (R.ofOrder m o) f (db p)))) ∨
    (∃ e, R.updateOrder op fault shardIdx m o f db = (.error e, db)) := by
  unfold updateOrder
  cases hv : validateOrderID o with
  | error e => exact .inr ⟨e, rfl⟩
  | ok u =>
    cases hp : R.router.forIndex shardIdx with
    | error e => exact .inr ⟨_, rfl⟩
    | ok p =>
      cases fault with
      | some f => exact .inr ⟨_, rfl⟩
      | none =>
        by_cases hm : (db p).any (R.ofOrder m o) = true
        · refine .inl ⟨p, rfl, (validateOrderID_ok_iff o).mp hv, rfl, List.any_eq_true.mp hm, ?_⟩
          simp only [hm, if_true]
        · refine .inr ⟨.of .notFound, ?_⟩
          simp only [hm, if_false, Bool.false_eq_true]

theorem ofOrder_of_facts {m o : Str} {r r' : Row} (hf : r'.facts = r.facts) :
    R.ofOrder m o r' = R.ofOrder m o r := by
  have hm : r'.merchantID = r.merchantID := congrArg Facts.merchantID hf
  have ho : r'.orderID = r.orderID := congrArg Facts.orderID hf
  unfold ofOrder
  rw [hm, ho]

theorem ofOrder_self (r : Row) : R.ofOrder r.merchantID r.orderID r = true := by
  unfold ofOrder
  rw [R.collation.refl, R.collation.refl]
  rfl

/-- An update that does not fail changes the order that is there. -/
theorem updateOrder_of_row {shardIdx : UInt8} {m o : Str} {p : Nat} {db : Pools} {r : Row}
    (hp : R.router.forIndex shardIdx = .ok p) (hv : ValidOrderID o) (hr : r ∈ db p)
    (hof : R.ofOrder m o r = true) (op : Str) (f : Row → Row) :
    R.updateOrder op none shardIdx m o f db =
      (.ok (), Function.update db p (updateWhere (R.ofOrder m o) f (db p))) := by
  have hany : (db p).any (R.ofOrder m o) = true := List.any_eq_true.mpr ⟨r, hr, hof⟩
  unfold updateOrder
  rw [(validateOrderID_ok_iff o).mpr hv, hp]
  simp only [hany, if_true]

/-- A row that comes back is a stored row that satisfies the WHERE clause. -/
theorem queryRow_ok {fault : Option Fault} {pick : Nat} {p : Row → Bool} {table : List Row}
    {t : Transaction} (h : queryRow fault pick p table = .ok t) :
    ∃ r ∈ table, p r = true ∧ scanTransaction r = .ok t := by
  unfold queryRow at h
  split at h
  · cases h
  · split at h
    · cases h
    · next r hr => exact ⟨r, (selectOne_some hr).1, (selectOne_some hr).2, h⟩

/-- A query that does not fail finds a row if there is one. -/
theorem queryRow_none (pick : Nat) {p : Row → Bool} {table : List Row} {r : Row}
    (hr : r ∈ table) (hp : p r = true) :
    ∃ y ∈ table, p y = true ∧ queryRow none pick p table = scanTransaction y := by
  unfold queryRow
  cases hs : selectOne pick p table with
  | none =>
    have := selectOne_none.mp hs r hr
    rw [hp] at this
    cases this
  | some y => exact ⟨y, (selectOne_some hs).1, (selectOne_some hs).2, rfl⟩

theorem map_withShard_ok {x : Res Transaction} {i : UInt8} {t : Transaction}
    (h : x.map (withShard i) = .ok t) : ∃ t', x = .ok t' ∧ t = withShard i t' := by
  cases x with
  | error e => cases h
  | ok t' => exact ⟨t', rfl, (Except.ok.inj h).symm⟩

theorem getByTransactionID_ok {fault : Option Fault} {pick : Nat} {shardIdx : UInt8}
    {m txnID : Str} {db : Pools} {t : Transaction}
    (h : R.getByTransactionID fault pick shardIdx m txnID db = .ok t) :
    ∃ p txn r t', R.router.forIndex shardIdx = .ok p ∧ decodeHex16 txnID = .ok txn ∧ r ∈ db p ∧
      R.collation.eq r.merchantID m = true ∧ r.transactionID = txn ∧
      scanTransaction r = .ok t' ∧ t = withShard shardIdx t' := by
  unfold getByTransactionID at h
  split at h
  · cases h
  next p hp =>
  split at h
  · cases h
  next txn htxn =>
  obtain ⟨t', ht', rfl⟩ := map_withShard_ok h
  obtain ⟨r, hr, hw, hs⟩ := queryRow_ok ht'
  simp only [Bool.and_eq_true, beq_iff_eq] at hw
  exact ⟨p, txn, r, t', hp, htxn, hr, hw.1, hw.2, hs, rfl⟩

theorem getByMerchantOrderID_ok {fault : Option Fault} {pick : Nat} {shardIdx : UInt8}
    {m o : Str} {db : Pools} {t : Transaction}
    (h : R.getByMerchantOrderID fault pick shardIdx m o db = .ok t) :
    ∃ p r t', R.router.forIndex shardIdx = .ok p ∧ ValidOrderID o ∧ r ∈ db p ∧
      R.ofOrder m o r = true ∧ scanTransaction r = .ok t' ∧ t = withShard shardIdx t' := by
  unfold getByMerchantOrderID at h
  split at h
  · cases h
  next hv =>
  split at h
  · cases h
  next p hp =>
  obtain ⟨t', ht', rfl⟩ := map_withShard_ok h
  obtain ⟨r, hr, hw, hs⟩ := queryRow_ok ht'
  exact ⟨p, r, t', hp, (validateOrderID_ok_iff o).mp hv, hr, hw, hs, rfl⟩

/-- A stored row can always be scanned. -/
theorem exists_scanTransaction (r : Row) : ∃ t, scanTransaction r = .ok t := by
  have hc := r.currency_known
  have hs := r.status_known
  unfold scanTransaction
  cases h : decodeCurrency r.currencyCode with
  | error e =>
    rw [h] at hc
    cases hc
  | ok cur =>
    cases h' : decodeStatus r.status with
    | error e =>
      rw [h'] at hs
      cases hs
    | ok st => exact ⟨_, rfl⟩

/-- A lookup that does not fail finds the order that is there. -/
theorem exists_getByMerchantOrderID {shardIdx : UInt8} {m o : Str} {p : Nat} {db : Pools} {r : Row}
    (hp : R.router.forIndex shardIdx = .ok p) (hv : ValidOrderID o) (hr : r ∈ db p)
    (hof : R.ofOrder m o r = true) (pick : Nat) :
    ∃ t, R.getByMerchantOrderID none pick shardIdx m o db = .ok t := by
  obtain ⟨y, -, -, hy⟩ := queryRow_none pick hr hof
  obtain ⟨t, ht⟩ := exists_scanTransaction y
  refine ⟨withShard shardIdx t, ?_⟩
  unfold getByMerchantOrderID
  rw [(validateOrderID_ok_iff o).mpr hv, hp]
  simp only
  rw [hy, ht]
  rfl

/-- A transaction that is received is the answer of some pool... -/
theorem receive_row {logical : List UInt8} {pools : Nat} {answers : List (Nat × Res Transaction)}
    {misses : Nat} {firstErr : Option Err} {t : Transaction}
    (h : (receive logical pools answers misses firstErr).1 = some t) :
    ∃ i t', (i, .ok t') ∈ answers ∧ t = withShard (logical.getD i 0) t' := by
  induction answers generalizing misses firstErr with
  | nil =>
    unfold receive at h
    split at h <;> cases h
  | cons a answers ih =>
    obtain ⟨i, a⟩ := a
    cases a with
    | ok t' =>
      cases h
      exact ⟨i, t', List.mem_cons_self, rfl⟩
    | error e =>
      unfold receive at h
      split at h
      · obtain ⟨i', t', hmem, ht⟩ := ih h
        exact ⟨i', t', List.mem_cons_of_mem _ hmem, ht⟩
      · obtain ⟨i', t', hmem, ht⟩ := ih h
        exact ⟨i', t', List.mem_cons_of_mem _ hmem, ht⟩

/-- ... and there is one if some pool has an answer. -/
theorem exists_receive {logical : List UInt8} {pools : Nat} {answers : List (Nat × Res Transaction)}
    {i : Nat} {t' : Transaction} (h : (i, .ok t') ∈ answers) (misses : Nat)
    (firstErr : Option Err) :
    ∃ t, receive logical pools answers misses firstErr = (some t, none) := by
  induction answers generalizing misses firstErr with
  | nil => cases h
  | cons a answers ih =>
    obtain ⟨i', a⟩ := a
    cases a with
    | ok t'' => exact ⟨_, rfl⟩
    | error e =>
      have hrest : (i, .ok t') ∈ answers := by
        rcases List.mem_cons.mp h with heq | hmem
        · cases heq
        · exact hmem
      unfold receive
      split
      · exact ih hrest _ _
      · exact ih hrest _ _

theorem gather_ok {res : Option Transaction × Option Err} {t : Transaction} (h : gather res = .ok t) :
    res.1 = some t := by
  unfold gather at h
  split at h
  · cases h
    rfl
  · cases h
  · cases h

/-- What a scatter-gather returns is a stored row, with a shard index of its pool. -/
theorem scatterFirst_ok {faults : Nat → Option Fault} {pick : Nat → Nat} {arrival : List Nat}
    {cond : Row → Bool} {db : Pools} {t : Transaction}
    (h : R.scatterFirst faults pick arrival cond db = .ok t) :
    ∃ i r t' x, i < R.router.pools ∧ r ∈ db i ∧ cond r = true ∧ scanTransaction r = .ok t' ∧
      t = withShard x t' ∧ R.router.forIndex x = .ok i := by
  obtain ⟨i, t', hmem, rfl⟩ := receive_row (gather_ok h)
  have hmem' := (shuffle_perm _ _).mem_iff.mp hmem
  rw [List.mem_map] at hmem'
  obtain ⟨i', hi', heq⟩ := hmem'
  obtain ⟨rfl, hquery⟩ := Prod.mk.inj heq
  have hi := List.mem_range.mp hi'
  obtain ⟨r, hr, hc, hs⟩ := queryRow_ok hquery
  exact ⟨i', r, t', _, hi, hr, hc, hs, rfl, Router.forIndex_firstLogical hi⟩

/-- A scatter-gather none of whose queries fails finds a row if there is one. -/
theorem exists_scatterFirst {faults : Nat → Option Fault} (hf : ∀ i, faults i = none)
    (pick : Nat → Nat) (arrival : List Nat) {cond : Row → Bool} {db : Pools} {i : Nat} {r : Row}
    (hi : i < R.router.pools) (hr : r ∈ db i) (hc : cond r = true) :
    ∃ t, R.scatterFirst faults pick arrival cond db = .ok t := by
  obtain ⟨y, -, -, hquery⟩ := queryRow_none (pick i) hr hc
  obtain ⟨t', ht'⟩ := exists_scanTransaction y
  have hanswer : (i, .ok t') ∈ (List.range R.router.pools).map fun i =>
      (i, queryRow (faults i) (pick i) cond (db i)) :=
    List.mem_map.mpr ⟨i, List.mem_range.mpr hi, by rw [hf i, hquery, ht']⟩
  obtain ⟨t, ht⟩ := exists_receive ((shuffle_perm arrival _).mem_iff.mpr hanswer) 0 none
  exact ⟨t, congrArg gather ht⟩

theorem getByOrderIDAny_ok {faults : Nat → Option Fault} {pick : Nat → Nat} {arrival : List Nat}
    {o : Str} {db : Pools} {t : Transaction}
    (h : R.getByOrderIDAny faults pick arrival o db = .ok t) :
    ValidOrderID o ∧ ∃ i r t' x, i < R.router.pools ∧ r ∈ db i ∧
      R.collation.eq r.orderID o = true ∧ scanTransaction r = .ok t' ∧ t = withShard x t' ∧
      R.router.forIndex x = .ok i := by
  unfold getByOrderIDAny at h
  split at h
  · cases h
  · next hv => exact ⟨(validateOrderID_ok_iff o).mp hv, R.scatterFirst_ok h⟩

theorem exists_getByOrderIDAny {faults : Nat → Option Fault} (hf : ∀ i, faults i = none)
    (pick : Nat → Nat) (arrival : List Nat) {o : Str} {db : Pools} {i : Nat} {r : Row}
    (ho : ValidOrderID o) (hi : i < R.router.pools) (hr : r ∈ db i)
    (heq : R.collation.eq r.orderID o = true) :
    ∃ t, R.getByOrderIDAny faults pick arrival o db = .ok t := by
  unfold getByOrderIDAny
  rw [(validateOrderID_ok_iff o).mpr ho]
  exact R.exists_scatterFirst hf pick arrival hi hr heq

/-- Any matching row can be the one that comes back: the first of its pool, from the first pool to
answer. -/
theorem getByOrderIDAny_any {o : Str} {db : Pools} {i : Nat} {r : Row} {t : Transaction}
    (ho : ValidOrderID o) (hi : i < R.router.pools) (hr : r ∈ db i)
    (heq : R.collation.eq r.orderID o = true) (hscan : scanTransaction r = .ok t) :
    ∃ pick arrival x, R.getByOrderIDAny (fun _ => none) pick arrival o db = .ok (withShard x t) := by
  obtain ⟨k, hk⟩ := List.mem_iff_getElem?.mp
    (List.mem_filter.mpr ⟨hr, heq⟩ : r ∈ (db i).filter fun r => R.collation.eq r.orderID o)
  have hlt := (List.getElem?_eq_some_iff.mp hk).1
  have hquery : queryRow none k (fun r => R.collation.eq r.orderID o) (db i) = .ok t := by
    unfold queryRow selectOne pickFrom
    rw [Nat.mod_eq_of_lt hlt, hk]
    exact hscan
  have hfirst : pickFrom i ((List.range R.router.pools).map fun i =>
      (i, queryRow none k (fun r => R.collation.eq r.orderID o) (db i))) = some (i, .ok t) := by
    unfold pickFrom
    rw [List.length_map, List.length_range, Nat.mod_eq_of_lt hi, List.getElem?_map,
      List.getElem?_range hi, Option.map_some, hquery]
  refine ⟨fun _ => k, [i], (R.router.physicalToFirstLogical R.router.pools).getD i 0, ?_⟩
  unfold getByOrderIDAny scatterFirst
  rw [(validateOrderID_ok_iff o).mpr ho]
  simp only [shuffle, hfirst]
  rfl

/-- What a scanned row looks like. -/
theorem scanTransaction_ok {r : Row} {t : Transaction} (h : scanTransaction r = .ok t) :
    t.merchantID = r.merchantID ∧ t.transactionID = hexLower r.transactionID ∧
      t.orderID = r.orderID ∧ t.amount = r.amount.toInt64 ∧
      decodeCurrency r.currencyCode = .ok t.currency ∧ decodeStatus r.status = .ok t.status ∧
      t.paymentMethod = decodeMethod r.paymentMethod ∧
      t.stripeSessionID = stringOf r.stripeSession ∧
      t.stripePaymentIntentID = stringOf r.stripePiID := by
  unfold scanTransaction at h
  split at h
  · cases h
  next cur hcur =>
  split at h
  · cases h
  next st hst =>
  cases h
  exact ⟨rfl, rfl, rfl, rfl, hcur, hst, rfl, rfl, rfl⟩

end TransactionRepo

end EasyPay
