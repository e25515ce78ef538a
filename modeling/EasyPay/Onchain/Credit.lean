import EasyPay.Onchain.Finality
import EasyPay.Onchain.Recording

/-!
# Whose order an on-chain payment pays

A payment names an order id and no merchant.  The listener looks the order up when it records the
payment, and takes the merchant from what it finds; the tracker looks the order up again when it
confirms the payment, and pays what it finds then.  An order id is unique per merchant only, and
either lookup may return any order with it, from whichever pool answers first.

`credited_iff`: a recorded payment can only pay the order it was recorded for, exactly if no other
order that is stored would take it.
-/

namespace EasyPay

open GoStrings Tables Ports ConfirmationTracker

/-- The listener has recorded the payment: for an order it has found, in a row that was stored. -/
def RecordedPayment (D : Deployment) (p : OnchainTransaction) : Prop :=
  ∃ cfg lg parsed owner w c before stored, parsePaymentEvent lg = .ok parsed ∧
    (exec D (.getByOrderIDAny parsed.orderID) c w).1 = .ok owner ∧
    createOnchainTx D.collation none (newOnchainTx D.addressHex cfg lg parsed owner) before =
      (.ok (), stored) ∧
    p.facts = (storedTx (newOnchainTx D.addressHex cfg lg parsed owner)).facts

/-- Whatever the tables `w` answer, the order that is paid on the payment is the one it was
recorded for. -/
def CreditsItsOrder (D : Deployment) (w : World) (p : OnchainTransaction) : Prop :=
  ∀ latest t x m o st pi k order c,
    Prog.Runs (processOne p latest) t (.call (.updateStatus x m o st pi) k) →
    (Op.getByOrderIDAny p.orderID).gave (.ok order) ∈ t →
    (exec D (.getByOrderIDAny p.orderID) c w).1 = .ok order →
    m = p.merchantID ∧ o = p.orderID

/-- The order would take the payment: it is open, and the low 64 bits of the payment are its
amount. -/
def Row.Takes (p : OnchainTransaction) (r : Row) : Prop :=
  r.status ≠ statusPaid ∧ r.status ≠ statusRefunded ∧
    ∃ a, p.amount = some a ∧ Int64.ofInt a = r.amount.toInt64

/-- A row takes a payment exactly if the tracker, shown it, does not object. -/
theorem Row.takes_iff {p : OnchainTransaction} {r : Row} {t : Transaction} (x : UInt8)
    (h : scanTransaction r = .ok t) :
    r.Takes p ↔ Matches p (TransactionRepo.withShard x t) := by
  obtain ⟨-, -, -, hamount, -, hst, -⟩ := TransactionRepo.scanTransaction_ok h
  have hpaid : r.status = statusPaid ↔ t.status = .paid := eq_encodeStatus_iff hst .paid
  have href : r.status = statusRefunded ↔ t.status = .refunded := eq_encodeStatus_iff hst .refunded
  have hmis : ∀ a, decide (Int64.ofInt a ≠ t.amount) = false ↔ Int64.ofInt a = t.amount := by
    intro a
    rw [decide_eq_false_iff_not, not_not]
  unfold Row.Takes Matches amountMismatch
  rw [Ne, Ne, hpaid, href, ← hamount]
  show _ ↔ t.status ≠ .paid ∧ t.status ≠ .refunded ∧ _
  cases p.amount with
  | none => simp
  | some a =>
    show _ ↔ _ ∧ _ ∧ decide (Int64.ofInt a ≠ t.amount) = false
    rw [hmis]
    simp

/-- A recorded payment names a valid order id, and there is a head at which it is deep enough. -/
theorem RecordedPayment.storable {D : Deployment} {p : OnchainTransaction}
    (h : RecordedPayment D p) :
    ValidOrderID p.orderID ∧ DeepEnough p (p.blockNumber + p.requiredConfirm) := by
  obtain ⟨cfg, lg, parsed, owner, w, c, before, stored, hparse, hfound, hcreate, hfacts⟩ := h
  have horder : p.orderID = parsed.orderID := congrArg OnchainTransaction.orderID hfacts
  have hblock : p.blockNumber = lg.blockNumber := congrArg OnchainTransaction.blockNumber hfacts
  have hreq : p.requiredConfirm = cfg.requiredConfirmations :=
    congrArg OnchainTransaction.requiredConfirm hfacts
  constructor
  · rw [horder]
    exact (D.getByOrderIDAny_ok hfound).1
  · obtain ⟨hb, -, hr⟩ := outOfRangeColumn_newOnchainTx.mp (outOfRangeColumn_of_created hcreate)
    have hb' : lg.blockNumber.toNat < 2 ^ 63 := of_decide_eq_true hb
    have hr' : cfg.requiredConfirmations.toNat < 2 ^ 63 := of_decide_eq_true hr
    unfold DeepEnough
    rw [hblock, hreq, UInt64.toNat_add, Nat.mod_eq_of_lt (by omega)]

/-- **The credited order** is the recorded one, if and only if every stored order with the order
id that would take the payment is that order. -/
theorem credited_iff (D : Deployment) (w : World) {p : OnchainTransaction}
    (hrec : RecordedPayment D p) :
    CreditsItsOrder D w p ↔
      ∀ q < D.router.pools, ∀ r ∈ w.pools q, D.collation.eq r.orderID p.orderID = true →
        r.Takes p → r.merchantID = p.merchantID ∧ r.orderID = p.orderID := by
  obtain ⟨hv, hdeep⟩ := hrec.storable
  constructor
  · intro h q hq r hr heq htakes
    obtain ⟨t, ht⟩ := TransactionRepo.exists_scanTransaction r
    obtain ⟨pick, arrival, x, hans⟩ := D.getByOrderIDAny_any hv hq hr heq ht
    have hone : (⟨1, 0⟩ : Receipt).status = 1 := rfl
    obtain ⟨k, hruns⟩ := processOne_runs hone hdeep ((Row.takes_iff x ht).mp htakes)
    obtain ⟨hm, -, ho, -⟩ := TransactionRepo.scanTransaction_ok ht
    rw [← hm, ← ho]
    exact h _ _ _ _ _ _ _ k _ { pick := pick, arrival := arrival } hruns
      (.tail _ (.head _)) hans
  · intro h latest t x m o st pi k order c hruns hmem hans
    have hat : ProcessAt p latest t (some (.updateStatus x m o st pi)) := processOne_at hruns
    cases hat with
    | deep _ _ hat =>
      cases hat with
      | @pay order' hmatch =>
        obtain rfl : order = order' := by
          simpa [found, marked, Op.gave] using hmem
        obtain ⟨-, q, r, t', y, hq, hr, heq, hscan, rfl, -⟩ := D.getByOrderIDAny_ok hans
        obtain ⟨hm, -, ho, -⟩ := TransactionRepo.scanTransaction_ok hscan
        have hids := h q hq r hr heq ((Row.takes_iff y hscan).mpr hmatch)
        rw [← hm, ← ho] at hids
        exact hids

/-! ## One order id, two merchants -/

/-- The first payment of the sample, as it is recorded. -/
theorem recorded_firstPayment : ∃ p, RecordedPayment (Deployment.sample .asciiCI) p ∧
    p.merchantID = bytes "m1" ∧ p.orderID = bytes "o-1" := by
  obtain ⟨parsed, hparse, horder⟩ := parse_firstPayment
  obtain ⟨owner, hfound, hm⟩ : ∃ owner, (exec (Deployment.sample .asciiCI)
      (.getByOrderIDAny parsed.orderID) {} World.oneOrder).1 = .ok owner ∧
      owner.merchantID = bytes "m1" := by
    rw [horder]
    exact ⟨_, rfl, by decide⟩
  have hcreate := createOnchainTx_nil .asciiCI (Deployment.sample .asciiCI).addressHex
    (storable_apart (.inl rfl) hparse) owner
  exact ⟨_, ⟨_, _, _, _, _, _, _, _, hparse, hfound, hcreate, rfl⟩, hm, horder⟩

/-- With one order in the table the payment can pay no other. -/
theorem credited_oneOrder : ∃ p, RecordedPayment (Deployment.sample .asciiCI) p ∧
    p.orderID = bytes "o-1" ∧ CreditsItsOrder (Deployment.sample .asciiCI) World.oneOrder p := by
  obtain ⟨p, hrec, hm, ho⟩ := recorded_firstPayment
  refine ⟨p, hrec, ho, (credited_iff _ _ hrec).mpr ?_⟩
  intro q _ r hr _ _
  rw [List.mem_singleton.mp hr, hm, ho]
  exact ⟨rfl, rfl⟩

/-- An order of the same id and amount in each of two pools. -/
def World.sameOrderID : World :=
  { World.fresh [.named (bytes "m1"), .onShard (bytes "m2") 1] with
    pools := fun p => if p = 0 then [Row.sample] else
      [{ Row.sample with merchantID := bytes "m2", merchantID_length := by decide }] }

/-- The first pool is the first to answer the listener, the second the first to answer the
tracker. -/
def crossed : List (Nat × Choice) :=
  steps 0 4 ++ List.replicate 3 (1, .onChain) ++ [(1, { arrival := [1] })] ++ steps 1 4

def crossedRun : System :=
  System.run Deployment.twoPools World.sameOrderID [.socket firstPayment, .track] crossed

/-- A payment recorded for the one merchant pays the other. -/
theorem credited_to_another :
    crossedRun.world.onchain.map (fun p => (p.merchantID, p.orderID, p.status)) =
        [(bytes "m1", bytes "o-1", .confirmed)] ∧
      (crossedRun.world.pools 0).map (fun r => (r.merchantID, r.orderID, r.status)) =
        [(bytes "m1", bytes "o-1", statusPending)] ∧
      (crossedRun.world.pools 1).map (fun r => (r.merchantID, r.orderID, r.status)) =
        [(bytes "m2", bytes "o-1", statusPaid)] := by
  decide +kernel

end EasyPay
