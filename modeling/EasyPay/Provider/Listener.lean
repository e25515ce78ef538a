import EasyPay.Gateway

/-!
# Chain listener

`internal/provider/blockchain`: the subscriber persists each log the WebSocket delivers, the
backfill scanner reads the logs from the block cursor up to the chain head window by window,
and the reconciler checks the receipts of the payments that are still pending.  The
confirmation tracker has a module of its own.

Each log line is left out, the alert for a stuck payment among them.  The loop of a backfill
tick takes fuel; it returns `none` when that runs out, and with enough of it returns as the
source does (`BackfillScanner.tick_returns`).  `ListenerCall` has what each of them calls, and
what it has been told before.
-/

namespace EasyPay

open GoStrings Ports

/-- The row the subscriber and the scanner make of a payment event. -/
def newOnchainTx (addressHex : Address → Str) (cfg : ChainConfig) (lg : Log)
    (parsed : ParsedPaymentEvent) (order : Transaction) : OnchainTransaction :=
  { txHash := lg.txHash.hex
    blockNumber := lg.blockNumber
    merchantID := order.merchantID
    orderID := parsed.orderID
    payer := addressHex parsed.payer
    token := addressHex parsed.token
    amount := some parsed.amount
    chainID := cfg.chainID
    confirmations := 0
    requiredConfirm := cfg.requiredConfirmations
    status := .pending }

/-- Its amount is stored as it is. -/
theorem storedTx_newOnchainTx (addressHex : Address → Str) (cfg : ChainConfig) (lg : Log)
    (parsed : ParsedPaymentEvent) (order : Transaction) :
    storedTx (newOnchainTx addressHex cfg lg parsed order) =
      newOnchainTx addressHex cfg lg parsed order := by
  have hamount : scanAmount (amountText (newOnchainTx addressHex cfg lg parsed order).amount) =
      parsed.amount := scanAmount_amountText _
  unfold storedTx
  rw [hamount]
  rfl

/-- The numbers of the event fit the columns they are stored in. -/
def Storable (cfg : ChainConfig) (lg : Log) (parsed : ParsedPaymentEvent) : Prop :=
  fitsBigint lg.blockNumber = true ∧ parsed.amount < 10 ^ 65 ∧
    fitsBigint cfg.requiredConfirmations = true

theorem outOfRangeColumn_newOnchainTx {addressHex : Address → Str} {cfg : ChainConfig} {lg : Log}
    {parsed : ParsedPaymentEvent} {order : Transaction} :
    outOfRangeColumn (newOnchainTx addressHex cfg lg parsed order) = none ↔
      Storable cfg lg parsed := by
  have hamount : scanAmount (amountText (newOnchainTx addressHex cfg lg parsed order).amount) =
      parsed.amount := scanAmount_amountText _
  have hzero : fitsBigint 0 = true := by decide
  unfold outOfRangeColumn Storable
  rw [hamount, Int.natAbs_natCast]
  show (if fitsBigint lg.blockNumber = false then _ else if parsed.amount ≥ 10 ^ 65 then _
    else if fitsBigint 0 = false then _
    else if fitsBigint cfg.requiredConfirmations = false then _ else _) = none ↔ _
  by_cases hblock : fitsBigint lg.blockNumber = true
  · by_cases hbig : parsed.amount ≥ 10 ^ 65
    · simp only [hblock, hbig, if_true, Bool.true_eq_false, if_false]
      constructor
      · intro h
        cases h
      · rintro ⟨-, hlt, -⟩
        exact absurd hlt (Nat.not_lt.mpr hbig)
    · have hlt : parsed.amount < 10 ^ 65 := Nat.lt_of_not_le hbig
      rw [if_neg hbig]
      simp only [hblock, hzero, hlt, Bool.true_eq_false, if_false, true_and]
      cases fitsBigint cfg.requiredConfirmations with
      | false => simp
      | true => simp
  · simp [hblock]

/-- Such an event goes into an empty table. -/
theorem createOnchainTx_nil (C : Collation) (addressHex : Address → Str) {cfg : ChainConfig} {lg : Log}
    {parsed : ParsedPaymentEvent} (h : Storable cfg lg parsed) (order : Transaction) :
    createOnchainTx C none (newOnchainTx addressHex cfg lg parsed order) [] =
      (.ok (), [newOnchainTx addressHex cfg lg parsed order]) := by
  unfold createOnchainTx
  rw [outOfRangeColumn_newOnchainTx.mpr h]
  show (Except.ok (), [storedTx (newOnchainTx addressHex cfg lg parsed order)]) = _
  rw [storedTx_newOnchainTx]

/-! ## Subscriber -/

structure Subscriber where
  cfg : ChainConfig
  deriving DecidableEq, Repr

def Subscriber.handleLog (addressHex : Address → Str) (s : Subscriber) (lg : Log) :
    Svc (Res Unit) := do
  match ← Svc.ask (.getByTxHash lg.txHash.hex) with
  | .ok _ => return .ok ()
  | .error e =>
    if e.is .onchainTxNotFound then
      match parsePaymentEvent lg with
      | .error e => return .error (e.wrap (bytes "parse event: "))
      | .ok parsed =>
        match ← Svc.ask (.getByOrderIDAny parsed.orderID) with
        | .error e =>
          -- a payment for an unknown order is dropped
          if e.is .notFound then return .ok ()
          else return .error (e.wrap (bytes "resolve merchant: "))
        | .ok order =>
          match ← Svc.ask (.createOnchainTx (newOnchainTx addressHex s.cfg lg parsed order)) with
          | .error e => return .error (e.wrap (bytes "persist pending_tx: "))
          | .ok _ =>
            let _ ← Svc.ask (.cursorSet s.cfg.chainID lg.blockNumber)
            return .ok ()
    else return .error (e.wrap (bytes "dedup lookup: "))

/-! ## Backfill scanner -/

structure BackfillScanner where
  cfg : ChainConfig
  batchSize : UInt64
  deriving DecidableEq, Repr

def newBackfillScanner (cfg : ChainConfig) : BackfillScanner := ⟨cfg, 5000⟩

namespace BackfillScanner

/-- Every error ends the handling of a log, and none is reported. -/
def persist (addressHex : Address → Str) (b : BackfillScanner) (lg : Log) : Svc Unit := do
  match ← Svc.ask (.getByTxHash lg.txHash.hex) with
  | .ok _ => return ()
  | .error _ =>
    match parsePaymentEvent lg with
    | .error _ => return ()
    | .ok parsed =>
      match ← Svc.ask (.getByOrderIDAny parsed.orderID) with
      | .error _ => return ()
      | .ok order =>
        let _ ← Svc.ask (.createOnchainTx (newOnchainTx addressHex b.cfg lg parsed order))
        return ()

def persistAll (addressHex : Address → Str) (b : BackfillScanner) : List Log → Svc Unit
  | [] => return ()
  | lg :: logs => do
    b.persist addressHex lg
    b.persistAll addressHex logs

/-- The last block of the window that starts at `fromBlock`. -/
def windowEnd (b : BackfillScanner) (head fromBlock : UInt64) : UInt64 :=
  if fromBlock + b.batchSize > head then head else fromBlock + b.batchSize

/-- The block a tick starts from; an empty cursor reads as 0. -/
def scanStart (b : BackfillScanner) (cursor : UInt64) : UInt64 :=
  if cursor = 0 then b.cfg.startBlock else cursor

/-- The loop of `tick`. -/
def scan (addressHex : Address → Str) (b : BackfillScanner) (head : UInt64) :
    Nat → UInt64 → Svc (Option (Res Unit))
  | 0, _ => return none
  | fuel + 1, fromBlock =>
    if fromBlock < head then do
      match ← Svc.ask (.filterLogs (b.cfg.window fromBlock (b.windowEnd head fromBlock))) with
      | .error e => return some (.error (e.wrap (bytes "filter logs: ")))
      | .ok logs =>
        b.persistAll addressHex logs
        let _ ← Svc.ask (.cursorSet b.cfg.chainID (b.windowEnd head fromBlock))
        b.scan addressHex head fuel (b.windowEnd head fromBlock)
    else return some (.ok ())

def tick (addressHex : Address → Str) (b : BackfillScanner) (fuel : Nat) :
    Svc (Option (Res Unit)) := do
  match ← Svc.ask (.cursorGet b.cfg.chainID) with
  | .error e => return some (.error (e.wrap (bytes "cursor get: ")))
  | .ok cursor =>
    match ← Svc.ask .blockNumber with
    | .error e => return some (.error (e.wrap (bytes "block number: ")))
    | .ok head =>
      if head ≤ b.scanStart cursor then return some (.ok ())
      else b.scan addressHex head fuel (b.scanStart cursor)

end BackfillScanner

/-! ## Reconciler -/

structure Reconciler where
  chainID : Int64
  batchSize : Int
  deriving DecidableEq, Repr

namespace Reconciler

def recheck (p : OnchainTransaction) : Svc Unit := do
  match ← Svc.ask (.transactionReceipt p.txHash) with
  | .ok (some receipt) =>
    if receipt.status ≠ 1 then
      let _ ← Svc.ask (.updateConfirmations p.txHash p.confirmations .failed)
      return ()
    else return ()
  | .ok none =>
    let _ ← Svc.ask (.updateConfirmations p.txHash p.confirmations .reorged)
    return ()
  | .error _ =>
    let _ ← Svc.ask (.updateConfirmations p.txHash p.confirmations .reorged)
    return ()

def recheckAll : List OnchainTransaction → Svc Unit
  | [] => return ()
  | p :: pendings => do
    recheck p
    recheckAll pendings

def tick (r : Reconciler) : Svc (Res Unit) := do
  match ← Svc.ask (.listPendingByChain r.chainID r.batchSize) with
  | .error e => return .error e
  | .ok pendings =>
    recheckAll pendings
    return .ok ()

end Reconciler

/-! ## The jobs of the listener -/

inductive ListenerJob
  | handleLog (s : Subscriber) (lg : Log)
  | backfill (b : BackfillScanner) (fuel : Nat)
  | recheck (r : Reconciler)
  deriving DecidableEq, Repr

/-- What a job of the listener returns; `none` is a tick still scanning. -/
def ListenerJob.prog (addressHex : Address → Str) : ListenerJob → Svc (Option (Res Unit))
  | handleLog s lg => s.handleLog addressHex lg >>= fun r => .ret (some r)
  | backfill b fuel => b.tick addressHex fuel
  | recheck r => r.tick >>= fun r => .ret (some r)

/-- The logs a job has to persist: the one delivered to it, or those it was answered. -/
inductive Delivered : ListenerJob → Calls → ChainConfig → Log → Prop
  | socket (s : Subscriber) (lg : Log) (t : Calls) : Delivered (.handleLog s lg) t s.cfg lg
  | window {b : BackfillScanner} {fuel : Nat} {t : Calls} {q : FilterQuery} {logs : List Log}
      {lg : Log} : (Op.filterLogs q).gave (.ok logs) ∈ t → lg ∈ logs →
      Delivered (.backfill b fuel) t b.cfg lg

/-- A tick has listed the payment. -/
def Listed (p : OnchainTransaction) (t : Calls) : Prop :=
  ∃ chainID limit pendings,
    (Op.listPendingByChain chainID limit).gave (.ok pendings) ∈ t ∧ p ∈ pendings

theorem Listed.mono {p : OnchainTransaction} {t t' : Calls} (h : Listed p t) (ht : t <+: t') :
    Listed p t' := by
  obtain ⟨chainID, limit, pendings, hmem, hp⟩ := h
  exact ⟨chainID, limit, pendings, ht.subset hmem, hp⟩

/-- A tick has taken a listed payment for gone: its receipt is missing, or the call failed. -/
def LooksGone (txHash : Str) (t : Calls) : Prop :=
  (∃ p, Listed p t ∧ p.txHash = txHash) ∧
    ((∃ e, (Op.transactionReceipt txHash).gave (.error e) ∈ t) ∨
      (Op.transactionReceipt txHash).gave (.ok none) ∈ t)

/-- The receipt of a listed payment says that its transaction has failed. -/
def LooksFailed (txHash : Str) (t : Calls) : Prop :=
  (∃ p, Listed p t ∧ p.txHash = txHash) ∧
    ∃ receipt : Receipt, receipt.status ≠ 1 ∧
      (Op.transactionReceipt txHash).gave (.ok (some receipt)) ∈ t

/-- What a job of the listener calls next, after the calls `t`. -/
inductive ListenerCall (addressHex : Address → Str) (j : ListenerJob) (t : Calls) : Op → Prop
  | lookup (txHash : Str) : ListenerCall addressHex j t (.getByTxHash txHash)
  | order (orderID : Str) : ListenerCall addressHex j t (.getByOrderIDAny orderID)
  | create {cfg : ChainConfig} {lg : Log} {parsed : ParsedPaymentEvent} {order : Transaction} :
      Delivered j t cfg lg → parsePaymentEvent lg = .ok parsed →
      (Op.getByOrderIDAny parsed.orderID).gave (.ok order) ∈ t →
      ListenerCall addressHex j t (.createOnchainTx (newOnchainTx addressHex cfg lg parsed order))
  | advance (chainID : Int64) (block : UInt64) : ListenerCall addressHex j t (.cursorSet chainID block)
  | cursor (chainID : Int64) : ListenerCall addressHex j t (.cursorGet chainID)
  | head : ListenerCall addressHex j t .blockNumber
  | logs {b : BackfillScanner} {fuel : Nat} (fromBlock toBlock : UInt64) : j = .backfill b fuel →
      ListenerCall addressHex j t (.filterLogs (b.cfg.window fromBlock toBlock))
  | list (chainID : Int64) (limit : Int) :
      ListenerCall addressHex j t (.listPendingByChain chainID limit)
  | receipt (txHash : Str) : ListenerCall addressHex j t (.transactionReceipt txHash)
  | gone {r : Reconciler} {txHash : Str} (n : UInt64) : j = .recheck r → LooksGone txHash t →
      ListenerCall addressHex j t (.updateConfirmations txHash n .reorged)
  | failed {r : Reconciler} {txHash : Str} (n : UInt64) : j = .recheck r → LooksFailed txHash t →
      ListenerCall addressHex j t (.updateConfirmations txHash n .failed)

section
variable (addressHex : Address → Str)

theorem Subscriber.handleLog_meets (s : Subscriber) (lg : Log) :
    Prog.Meets (P := gateway) (ListenerCall addressHex (.handleLog s lg)) (fun _ _ => True)
      (s.handleLog addressHex lg) [] := by
  unfold handleLog
  refine Svc.meets_ask (.lookup _) fun a => ?_
  cases a with
  | ok _ => trivial
  | error e =>
    simp only
    split
    · cases hparse : parsePaymentEvent lg with
      | error e => trivial
      | ok parsed =>
        refine Svc.meets_ask (.order _) fun a => ?_
        cases a with
        | error e =>
          simp only
          split <;> trivial
        | ok order =>
          refine Svc.meets_ask (.create (.socket s lg _) hparse (by simp)) fun a => ?_
          cases a with
          | error e => trivial
          | ok _ => exact Svc.meets_ask (.advance _ _) fun _ => trivial
    · trivial

theorem BackfillScanner.persist_meets (b : BackfillScanner) (fuel : Nat) (lg : Log) {t : Calls}
    (hlg : ∀ t', t <+: t' → Delivered (.backfill b fuel) t' b.cfg lg) :
    Prog.Meets (P := gateway) (ListenerCall addressHex (.backfill b fuel)) (fun _ _ => True)
      (b.persist addressHex lg) t := by
  unfold persist
  refine Svc.meets_ask (.lookup _) fun a => ?_
  cases a with
  | ok _ => trivial
  | error e =>
    simp only
    cases hparse : parsePaymentEvent lg with
    | error e => trivial
    | ok parsed =>
      refine Svc.meets_ask (.order _) fun a => ?_
      cases a with
      | error e => trivial
      | ok order =>
        refine Svc.meets_ask (.create (hlg _ ?_) hparse (by simp)) fun _ => trivial
        rw [List.append_assoc]
        exact List.prefix_append _ _

theorem BackfillScanner.persistAll_meets (b : BackfillScanner) (fuel : Nat) (logs : List Log)
    {t : Calls} (hlogs : ∀ lg ∈ logs, ∀ t', t <+: t' → Delivered (.backfill b fuel) t' b.cfg lg) :
    Prog.Meets (P := gateway) (ListenerCall addressHex (.backfill b fuel)) (fun _ _ => True)
      (b.persistAll addressHex logs) t := by
  induction logs generalizing t with
  | nil => trivial
  | cons lg logs ih =>
    have hone := b.persist_meets addressHex fuel lg (hlogs lg List.mem_cons_self)
    refine Prog.meets_bind hone.extend fun t' _ ht => ih fun lg' hlg' t'' ht' => ?_
    exact hlogs lg' (List.mem_cons_of_mem _ hlg') t'' (ht.1.trans ht')

theorem BackfillScanner.scan_meets (b : BackfillScanner) (fuel : Nat) (head : UInt64) (n : Nat)
    (fromBlock : UInt64) (t : Calls) :
    Prog.Meets (P := gateway) (ListenerCall addressHex (.backfill b fuel)) (fun _ _ => True)
      (b.scan addressHex head n fromBlock) t := by
  induction n generalizing fromBlock t with
  | zero => trivial
  | succ n ih =>
    unfold scan
    split
    · refine Svc.meets_ask (.logs _ _ rfl) fun a => ?_
      cases a with
      | error e => trivial
      | ok logs =>
        simp only
        refine Prog.meets_bind (b.persistAll_meets addressHex fuel logs ?_) fun t' _ _ => ?_
        · intro lg hlg t' ht'
          exact .window (ht'.subset (List.mem_append_right _ (List.mem_singleton.mpr rfl))) hlg
        · exact Svc.meets_ask (.advance _ _) fun _ => ih _ _
    · trivial

theorem BackfillScanner.tick_meets (b : BackfillScanner) (fuel : Nat) :
    Prog.Meets (P := gateway) (ListenerCall addressHex (.backfill b fuel)) (fun _ _ => True)
      (b.tick addressHex fuel) [] := by
  unfold tick
  refine Svc.meets_ask (.cursor _) fun a => ?_
  cases a with
  | error e => trivial
  | ok cursor =>
    refine Svc.meets_ask .head fun a => ?_
    cases a with
    | error e => trivial
    | ok head =>
      simp only
      split
      · trivial
      · exact b.scan_meets addressHex fuel head fuel _ _

theorem Reconciler.recheck_meets (r : Reconciler) {p : OnchainTransaction} {t : Calls}
    (hp : Listed p t) :
    Prog.Meets (P := gateway) (ListenerCall addressHex (.recheck r)) (fun _ _ => True)
      (recheck p) t := by
  unfold recheck
  refine Svc.meets_ask (.receipt _) fun a => ?_
  have hlisted : ∃ p', Listed p' (t ++ [(Op.transactionReceipt p.txHash).gave a]) ∧
      p'.txHash = p.txHash := ⟨p, hp.mono (List.prefix_append _ _), rfl⟩
  have hgiven : (Op.transactionReceipt p.txHash).gave a ∈
      t ++ [(Op.transactionReceipt p.txHash).gave a] :=
    List.mem_append_right _ (List.mem_singleton.mpr rfl)
  rcases a with e | _ | receipt
  · exact Svc.meets_ask (.gone _ rfl ⟨hlisted, .inl ⟨e, hgiven⟩⟩) fun _ => trivial
  · exact Svc.meets_ask (.gone _ rfl ⟨hlisted, .inr hgiven⟩) fun _ => trivial
  · simp only
    split
    · next hne =>
      exact Svc.meets_ask (.failed _ rfl ⟨hlisted, receipt, hne, hgiven⟩) fun _ => trivial
    · trivial

theorem Reconciler.recheckAll_meets (r : Reconciler) (pendings : List OnchainTransaction)
    {t : Calls} (hp : ∀ p ∈ pendings, Listed p t) :
    Prog.Meets (P := gateway) (ListenerCall addressHex (.recheck r)) (fun _ _ => True)
      (recheckAll pendings) t := by
  induction pendings generalizing t with
  | nil => trivial
  | cons p pendings ih =>
    have hone := r.recheck_meets addressHex (hp p List.mem_cons_self)
    refine Prog.meets_bind hone.extend fun t' _ ht => ih fun p' hp' => ?_
    exact (hp p' (List.mem_cons_of_mem _ hp')).mono ht.1

/-- **The calls of the listener.** -/
theorem ListenerJob.next {j : ListenerJob} {t : Calls} {op : Op}
    {k : op.Ans → Svc (Option (Res Unit))} (h : Prog.Runs (j.prog addressHex) t (.call op k)) :
    ListenerCall addressHex j t op := by
  cases j with
  | handleLog s lg =>
    obtain ⟨k', h⟩ := Prog.runs_map_call h
    exact (s.handleLog_meets addressHex lg).call h
  | backfill b fuel => exact (b.tick_meets addressHex fuel).call h
  | recheck r =>
    obtain ⟨k', h⟩ := Prog.runs_map_call h
    have hm : Prog.Meets (P := gateway) (ListenerCall addressHex (.recheck r)) (fun _ _ => True)
        r.tick [] := by
      unfold Reconciler.tick
      refine Svc.meets_ask (.list _ _) fun a => ?_
      cases a with
      | error e => trivial
      | ok pendings =>
        refine Prog.meets_bind (r.recheckAll_meets addressHex pendings ?_) fun _ _ _ => trivial
        intro p hp
        exact ⟨_, _, pendings, List.mem_append_right _ (List.mem_singleton.mpr rfl), hp⟩
    exact hm.call h

end

/-! ## A tick returns -/

/-- The block numbers of a window do not overflow. -/
theorem BackfillScanner.toNat_add_batchSize {b : BackfillScanner} {head fromBlock : UInt64}
    (hmax : head.toNat + b.batchSize.toNat < 2 ^ 64) (h : fromBlock < head) :
    (fromBlock + b.batchSize).toNat = fromBlock.toNat + b.batchSize.toNat := by
  have h' : fromBlock.toNat < head.toNat := UInt64.lt_iff_toNat_lt.mp h
  rw [UInt64.toNat_add]
  exact Nat.mod_eq_of_lt (by omega)

/-- The next window is after this one, as long as the block numbers do not overflow. -/
theorem BackfillScanner.lt_windowEnd {b : BackfillScanner} {head fromBlock : UInt64}
    (hb : 0 < b.batchSize) (hmax : head.toNat + b.batchSize.toNat < 2 ^ 64)
    (h : fromBlock < head) :
    fromBlock.toNat < (b.windowEnd head fromBlock).toNat ∧
      (b.windowEnd head fromBlock).toNat ≤ head.toNat := by
  have hb' : 0 < b.batchSize.toNat := UInt64.lt_iff_toNat_lt.mp hb
  have h' : fromBlock.toNat < head.toNat := UInt64.lt_iff_toNat_lt.mp h
  have hsum := toNat_add_batchSize hmax h
  unfold windowEnd
  split
  · omega
  · next hle =>
    have hle' := UInt64.le_iff_toNat_le.mp (UInt64.not_lt.mp hle)
    omega

theorem BackfillScanner.scan_returns (addressHex : Address → Str) {b : BackfillScanner}
    {head : UInt64} (hb : 0 < b.batchSize) (hmax : head.toNat + b.batchSize.toNat < 2 ^ 64)
    {n : Nat} {fromBlock : UInt64} (hn : head.toNat - fromBlock.toNat < n) (t : Calls) :
    Prog.Meets (P := gateway) (fun _ _ => True) (fun _ r => r.isSome = true)
      (b.scan addressHex head n fromBlock) t := by
  induction n generalizing fromBlock t with
  | zero => omega
  | succ n ih =>
    unfold scan
    split
    · next hlt =>
      obtain ⟨hgt, hle⟩ := lt_windowEnd hb hmax hlt
      refine Svc.meets_ask trivial fun a => ?_
      cases a with
      | error e => rfl
      | ok logs =>
        refine Prog.meets_bind (Prog.meets_true (b.persistAll addressHex logs) _) fun t' _ _ => ?_
        refine Svc.meets_ask trivial fun _ => ih ?_ _
        omega
    · rfl

/-- **A tick returns**, given fuel for the blocks up to the head it reads. -/
theorem BackfillScanner.tick_returns (addressHex : Address → Str) {b : BackfillScanner}
    (hb : 0 < b.batchSize) {fuel : Nat} {t : Calls} {r : Option (Res Unit)}
    (hhead : ∀ head, (Op.blockNumber).gave (.ok head) ∈ t →
      head.toNat + b.batchSize.toNat < 2 ^ 64 ∧ head.toNat < fuel)
    (h : Prog.Runs (b.tick addressHex fuel) t (.ret r)) : r.isSome = true := by
  have hm : Prog.Meets (P := gateway) (fun _ _ => True) (fun t r =>
      (∀ head, (Op.blockNumber).gave (.ok head) ∈ t →
        head.toNat + b.batchSize.toNat < 2 ^ 64 ∧ head.toNat < fuel) → r.isSome = true)
      (b.tick addressHex fuel) [] := by
    unfold tick
    refine Svc.meets_ask trivial fun a => ?_
    cases a with
    | error e => exact fun _ => rfl
    | ok cursor =>
      refine Svc.meets_ask trivial fun a => ?_
      cases a with
      | error e => exact fun _ => rfl
      | ok head =>
        simp only
        split
        · exact fun _ => rfl
        by_cases hok : head.toNat + b.batchSize.toNat < 2 ^ 64 ∧ head.toNat < fuel
        · have hscan := scan_returns addressHex hb hok.1
            (Nat.lt_of_le_of_lt (Nat.sub_le _ (b.scanStart cursor).toNat) hok.2)
          exact (hscan _).imp fun _ _ hr _ => hr
        · -- the tick was told a head it has no fuel for
          refine (Prog.meets_true _ _).extend.imp fun t' r ht hall => ?_
          exact absurd (hall head (ht.1.subset (List.mem_append_right _
            (List.mem_singleton.mpr rfl)))) hok
  exact hm.ret h hhead

end EasyPay
