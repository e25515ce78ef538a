import EasyPay.System

/-!
# What an on-chain payment is confirmed on

`processOne` confirms a payment on the block number and the amount of its row.  The block is
the one the log was in when it was recorded; the receipt the node has now may name another.
The amount is compared through `big.Int.Int64`, its low 64 bits.

* `processOne_pays`: when an order is set to `paid`, and after which answers.
* `paid_depth_iff`: which receipts are deep enough whenever the order is paid.
* `paid_amount_iff`: which events have paid the amount of the order whenever it is paid.
-/

namespace EasyPay

open GoStrings Tables Ports

/-! ## When an order is paid -/

namespace ConfirmationTracker

/-- **When an order is paid.** -/
theorem processOne_pays {p : OnchainTransaction} {latest : UInt64} {t : Calls} {x : UInt8}
    {m o pi : Str} {st : TransactionStatus} {k : Res Unit → Svc Unit}
    (h : Prog.Runs (processOne p latest) t (.call (.updateStatus x m o st pi) k)) :
    ∃ receipt order, receipt.status = 1 ∧ DeepEnough p latest ∧ Matches p order ∧
      t = [(Op.transactionReceipt p.txHash).gave (.ok (some receipt)),
        (Op.getByOrderIDAny p.orderID).gave (.ok order),
        (Op.updateConfirmations p.txHash (latest - p.blockNumber) .confirmed).gave (.ok ())] := by
  have hat : ProcessAt p latest t (some (.updateStatus x m o st pi)) := processOne_at h
  cases hat with
  | deep hstatus hdeep hat =>
    cases hat with
    | @pay order hmatch => exact ⟨_, order, hstatus, hdeep, hmatch, rfl⟩

/-- And it is paid, if the answers are such. -/
theorem processOne_runs {p : OnchainTransaction} {latest : UInt64} {receipt : Receipt}
    {order : Transaction} (hstatus : receipt.status = 1) (hdeep : DeepEnough p latest)
    (hmatch : Matches p order) :
    ∃ k, Prog.Runs (processOne p latest)
      [(Op.transactionReceipt p.txHash).gave (.ok (some receipt)),
        (Op.getByOrderIDAny p.orderID).gave (.ok order),
        (Op.updateConfirmations p.txHash (latest - p.blockNumber) .confirmed).gave (.ok ())]
      (.call (.updateStatus order.shardIndex order.merchantID order.orderID .paid []) k) := by
  obtain ⟨hpaid, href, hamount⟩ := hmatch
  unfold DeepEnough at hdeep
  have hle : p.blockNumber ≤ latest := UInt64.le_iff_toNat_le.mpr (by omega)
  have hreq : ¬ latest - p.blockNumber < p.requiredConfirm := by
    rw [UInt64.not_lt, UInt64.le_iff_toNat_le, UInt64.toNat_sub_of_le _ _ hle]
    omega
  have hcount : countConfirmations p latest receipt = confirmOrder p (latest - p.blockNumber) := by
    unfold countConfirmations
    rw [if_neg (not_not_intro hstatus), if_neg (UInt64.not_lt.mpr hle), if_neg hreq]
  apply Exists.intro
  refine Svc.runs_ask.mpr (.inr ⟨_, _, rfl, ?_⟩)
  show Prog.Runs (countConfirmations p latest receipt) _ _
  rw [hcount]
  refine Svc.runs_ask.mpr (.inr ⟨_, _, rfl, ?_⟩)
  simp only
  rw [if_neg (by simp [hpaid, href]), if_neg (by simp [hamount])]
  exact Svc.runs_ask.mpr (.inr ⟨_, _, rfl, .nil _⟩)

end ConfirmationTracker

open ConfirmationTracker

/-! ## The block of the receipt -/

/-- **The depth of a paid transaction.**  The receipt is as deep as the chain asks for whenever
its order is paid, if and only if it is so whenever the recorded block is. -/
theorem paid_depth_iff (p : OnchainTransaction) (latest : UInt64) (receipt : Receipt) :
    (∀ t x m o pi k,
      Prog.Runs (processOne p latest) t (.call (.updateStatus x m o .paid pi) k) →
      (Op.transactionReceipt p.txHash).gave (.ok (some receipt)) ∈ t →
      receipt.status = 1 ∧ receipt.blockNumber + p.requiredConfirm.toNat ≤ latest.toNat) ↔
    (receipt.status = 1 → p.amount ≠ none →
      p.blockNumber.toNat + p.requiredConfirm.toNat ≤ latest.toNat →
      receipt.blockNumber + p.requiredConfirm.toNat ≤ latest.toNat) := by
  constructor
  · intro h hstatus hamount hdeep
    obtain ⟨a, ha⟩ := Option.ne_none_iff_exists'.mp hamount
    -- an open order of just the amount the low 64 bits make
    obtain ⟨order, hmatch⟩ : ∃ order, Matches p order := by
      refine ⟨⟨[], [], [], Int64.ofInt a, [], .pending, [], [], [], 0, 0, 0⟩, by simp, by simp, ?_⟩
      unfold amountMismatch
      rw [ha]
      simp
    obtain ⟨k, hruns⟩ := processOne_runs hstatus hdeep hmatch
    exact (h _ _ _ _ _ k hruns List.mem_cons_self).2
  · intro h t x m o pi k hruns hmem
    obtain ⟨receipt', order, hstatus, hdeep, ⟨-, -, hmatch⟩, rfl⟩ := processOne_pays hruns
    have hsame : receipt = receipt' := by
      rcases List.mem_cons.mp hmem with heq | hmem
      · exact Option.some.inj (Except.ok.inj (Op.gave_inj.mp heq))
      · rcases List.mem_cons.mp hmem with heq | hmem
        · cases heq
        · cases List.mem_singleton.mp hmem
    subst hsame
    refine ⟨hstatus, h hstatus ?_ hdeep⟩
    intro hnone
    unfold amountMismatch at hmatch
    rw [hnone] at hmatch
    cases hmatch

/-! A transaction is recorded in block 100.  After a reorganisation it is in block 110, and the
tracker, told so by the receipt, pays the order at block 112. -/

def remined : List (Nat × Choice) :=
  steps 0 4 ++ [(1, { head := 112 })] ++ steps 1 1 ++ [(1, { receipt := some ⟨1, 110⟩ })] ++
    steps 1 3

def reminedRun : System :=
  System.run (Deployment.sample .asciiCI) World.oneOrder
    [.socket (.payment 1 100 (bytes "o-1") 100), .track] remined

theorem paid_two_blocks_deep :
    (reminedRun.world.pools 0).map Row.status = [statusPaid] ∧
      reminedRun.world.onchain.map (fun p => (p.blockNumber, p.requiredConfirm, p.status)) =
        [(100, 12, .confirmed)] ∧
      (Op.blockNumber).gave (.ok 112) ∈ callsOf 1 reminedRun.hist ∧
      (Op.transactionReceipt (wordOf 1).hex).gave (.ok (some ⟨1, 110⟩)) ∈
        callsOf 1 reminedRun.hist ∧
      ¬ 110 + 12 ≤ 112 := by
  refine ⟨by decide +kernel, by decide +kernel, ?_, ?_, by decide⟩
  · decide +kernel
  · decide +kernel

/-! ## The amount of the event -/

/-- Whenever `order` is paid on the row of the event, it is paid its amount.  The row is
stored, other statements may count its confirmations, and it is listed again. -/
def PaysItsAmount (D : Deployment) (cfg : ChainConfig) (lg : Log) (order : Transaction) : Prop :=
  ∀ parsed owner before stored now ties chainID limit p latest t x m o pi k,
    parsePaymentEvent lg = .ok parsed →
    createOnchainTx D.collation none (newOnchainTx D.addressHex cfg lg parsed owner) before =
      (.ok (), stored) →
    now.map OnchainTransaction.facts = stored.map OnchainTransaction.facts →
    p ∈ listPending ties chainID limit now → p.txHash = lg.txHash.hex →
    Prog.Runs (processOne p latest) t (.call (.updateStatus x m o .paid pi) k) →
    (Op.getByOrderIDAny p.orderID).gave (.ok order) ∈ t →
    (parsed.amount : Int) = order.amount.toInt

/-- The row of the event is the one with its hash. -/
theorem facts_of_created {C : Collation} {tx p : OnchainTransaction}
    {before stored now : List OnchainTransaction}
    (hcreate : createOnchainTx C none tx before = (.ok (), stored))
    (hfacts : now.map OnchainTransaction.facts = stored.map OnchainTransaction.facts)
    (hp : p ∈ now) (hhash : p.txHash = tx.txHash) : p.facts = (storedTx tx).facts := by
  rcases createOnchainTx_cases C none tx before with
    ⟨-, -, hfresh, he⟩ | ⟨-, -, -, he⟩ | ⟨-, e, he⟩
  · rw [he] at hcreate
    obtain rfl := (Prod.mk.inj hcreate).2
    have hmem : p.facts ∈ (before ++ [storedTx tx]).map OnchainTransaction.facts := by
      rw [← hfacts]
      exact List.mem_map_of_mem hp
    obtain ⟨y, hy, hfy⟩ := List.mem_map.mp hmem
    rcases List.mem_append.mp hy with hold | hnew
    · -- an older row has another hash
      have hyhash : y.txHash = tx.txHash := (congrArg OnchainTransaction.txHash hfy).trans hhash
      have hne := hfresh y hold
      rw [hyhash, C.refl] at hne
      cases hne
    · rw [← hfy, List.mem_singleton.mp hnew]
  · rw [he] at hcreate
    cases hcreate
  · rw [he] at hcreate
    cases hcreate

/-- The low 64 bits of a number are the number as long as it fits. -/
theorem eq_of_low_bits {a : Nat} {n : Int64} (hlow : Int64.ofInt a = n) :
    (a : Int) = n.toInt ↔ a < 2 ^ 63 := by
  constructor
  · intro h
    have hlt := n.toInt_lt
    omega
  · intro h
    rw [← hlow, Int64.toInt_ofInt_of_le (by omega) (by omega)]

/-- A row that fits the columns is deep enough at some head. -/
theorem deepEnough_newOnchainTx (addressHex : Address → Str) {cfg : ChainConfig} {lg : Log}
    {parsed : ParsedPaymentEvent} (h : Storable cfg lg parsed) (order : Transaction) :
    DeepEnough (newOnchainTx addressHex cfg lg parsed order)
      (lg.blockNumber + cfg.requiredConfirmations) := by
  have hblock : lg.blockNumber.toNat < 2 ^ 63 := of_decide_eq_true h.1
  have hreq : cfg.requiredConfirmations.toNat < 2 ^ 63 := of_decide_eq_true h.2.2
  show lg.blockNumber.toNat + cfg.requiredConfirmations.toNat ≤ _
  rw [UInt64.toNat_add, Nat.mod_eq_of_lt (by omega)]

/-- **The amount of a paid order** is the amount of the event, if and only if the event is not
for an amount of more than 63 bits that agrees with an open order in its low 64 bits. -/
theorem paid_amount_iff (D : Deployment) (cfg : ChainConfig) (lg : Log) (order : Transaction) :
    PaysItsAmount D cfg lg order ↔
      ∀ parsed, parsePaymentEvent lg = .ok parsed →
        order.status ≠ .paid ∧ order.status ≠ .refunded → Storable cfg lg parsed →
        Int64.ofInt parsed.amount = order.amount → parsed.amount < 2 ^ 63 := by
  constructor
  · intro h parsed hparse hopen hfits hlow
    have hcreate := createOnchainTx_nil D.collation D.addressHex hfits order
    have hmatch : Matches (newOnchainTx D.addressHex cfg lg parsed order) order :=
      ⟨hopen.1, hopen.2, decide_eq_false (not_not.mpr hlow)⟩
    have hdeep := deepEnough_newOnchainTx D.addressHex hfits order
    have hstatus : (⟨1, 0⟩ : Receipt).status = 1 := rfl
    obtain ⟨k, hruns⟩ := processOne_runs hstatus hdeep hmatch
    have heq := h parsed order [] _ _ [] cfg.chainID 1 _ _ _ _ _ _ _ k hparse hcreate rfl
      (by simp [listPending, shuffle, newOnchainTx]) rfl hruns (by simp)
    exact (eq_of_low_bits hlow).mp heq
  · intro h parsed owner before stored now ties chainID limit p latest t x m o pi k hparse hcreate
      hfacts hlisted hhash hruns hmem
    obtain ⟨hp, -, -⟩ := mem_listPending hlisted
    have hrow := facts_of_created hcreate hfacts hp hhash
    have hamount : p.amount = some (parsed.amount : Int) :=
      (congrArg OnchainTransaction.amount hrow).trans (congrArg some (scanAmount_amountText _))
    have hfits : Storable cfg lg parsed :=
      outOfRangeColumn_newOnchainTx.mp (outOfRangeColumn_of_created hcreate)
    obtain ⟨receipt, order', -, -, ⟨hpaid, href, hmatch⟩, rfl⟩ := processOne_pays hruns
    have hsame : order = order' := by
      rcases List.mem_cons.mp hmem with heq | hmem
      · cases heq
      · rcases List.mem_cons.mp hmem with heq | hmem
        · exact Except.ok.inj (Op.gave_inj.mp heq)
        · cases List.mem_singleton.mp hmem
    subst hsame
    have hlow : Int64.ofInt parsed.amount = order.amount := by
      unfold amountMismatch at hmatch
      rw [hamount] at hmatch
      simpa using hmatch
    exact (eq_of_low_bits hlow).mpr (h parsed hparse ⟨hpaid, href⟩ hfits hlow)

/-! A payment of 2^64 + 100 pays an order of 100. -/

def overpaid : List (Nat × Choice) :=
  steps 0 4 ++ [(1, { head := 112 })] ++ steps 1 1 ++ [(1, { receipt := some ⟨1, 100⟩ })] ++
    steps 1 3

def overpaidRun : System :=
  System.run (Deployment.sample .asciiCI) World.oneOrder
    [.socket (.payment 1 100 (bytes "o-1") (2 ^ 64 + 100)), .track] overpaid

theorem paid_another_amount :
    (parsePaymentEvent (.payment 1 100 (bytes "o-1") (2 ^ 64 + 100))).map
        ParsedPaymentEvent.amount = .ok (2 ^ 64 + 100) ∧
      (overpaidRun.world.pools 0).map (fun r => (r.amount, r.status)) = [(100, statusPaid)] ∧
      overpaidRun.world.onchain.map (fun p => (p.orderID, p.amount, p.status)) =
        [(bytes "o-1", some (2 ^ 64 + 100), .confirmed)] := by
  refine ⟨?_, ?_, ?_⟩
  · decide +kernel
  · decide +kernel
  · decide +kernel

end EasyPay
