import EasyPay.Onchain.Recording

/-!
# How an on-chain payment is settled

A tick of the confirmation tracker moves each pending payment on, at most to one of
`confirmed`, `failed` and `reorged`, none of which is ever listed again.

* `ConfirmationTracker.tick_justified`, `ConfirmationTracker.tick_settled`: what the tracker was
  told when it writes a status, and what it has done about the order by the time it is through.
* `confirmed_paid`: between ticks every payment the tracker has confirmed belongs to an order that
  is paid or refunded, in every run in which no `UpdateStatus` fails.
* `payment_survives`: a payment whose transaction is on chain is not given up, in every run in
  which no `TransactionReceipt` call for it fails.
-/

namespace EasyPay

open GoStrings Tables Ports

/-! ## What a tick was told -/

/-- A tick has found `order` for a payment it has listed under the hash `txHash`. -/
def Found (txHash : Str) (p : OnchainTransaction) (order : Transaction) (t : Calls) : Prop :=
  Listed p t ∧ p.txHash = txHash ∧ (Op.getByOrderIDAny p.orderID).gave (.ok order) ∈ t

/-- The order was final when it was found, or has been asked to be set to `paid` since. -/
def Finalised (order : Transaction) (t : Calls) : Prop :=
  order.status = .paid ∨ order.status = .refunded ∨
    ∃ a, (Op.updateStatus order.shardIndex order.merchantID order.orderID .paid []).gave a ∈ t

theorem Finalised.mono {order : Transaction} {t t' : Calls} (h : Finalised order t)
    (ht : t ⊆ t') : Finalised order t' := by
  rcases h with h | h | ⟨a, h⟩
  · exact .inl h
  · exact .inr (.inl h)
  · exact .inr (.inr ⟨a, ht h⟩)

namespace ConfirmationTracker

/-- Why the tracker gives a payment up. -/
def Justified (t : Calls) : Op → Prop
  | .updateConfirmations txHash _ .reorged => LooksGone txHash t
  | .updateConfirmations txHash _ .failed =>
    LooksFailed txHash t ∨ ∃ p order, Found txHash p order t ∧ amountMismatch p order = true
  | _ => True

/-- The call has moved a payment to `confirmed`. -/
def Confirms (txHash : Str) (s : Prog.Step gateway) : Prop :=
  ∃ n, s = (Op.updateConfirmations txHash n .confirmed).gave (.ok ())

/-- For every payment it has confirmed, the tick has found an order and finalised it. -/
def Settled (t : Calls) : Prop :=
  ∀ s ∈ t, ∀ txHash, Confirms txHash s → ∃ p order, Found txHash p order t ∧ Finalised order t

/-- What a tick was told about a payment makes it give the payment up. -/
theorem ProcessAt.justified {p : OnchainTransaction} {latest : UInt64} {t t' : Calls} {op : Op}
    (h : ProcessAt p latest t' (some op)) (hp : Listed p t) (ht : t' ⊆ t) : Justified t op := by
  have hlisted : ∃ p', Listed p' t ∧ p'.txHash = p.txHash := ⟨p, hp, rfl⟩
  cases h with
  | receipt => trivial
  | @gone a ha =>
    have hmem : (Op.transactionReceipt p.txHash).gave a ∈ t := ht (.head _)
    rcases a with e | _ | r
    · exact ⟨hlisted, .inl ⟨e, hmem⟩⟩
    · exact ⟨hlisted, .inr hmem⟩
    · exact absurd rfl (ha r)
  | @failed r hr => exact .inl ⟨hlisted, r, hr, ht (.head _)⟩
  | shallow => trivial
  | deep _ _ h =>
    cases h with
    | @mismatch order hmis => exact .inr ⟨p, order, ⟨hp, rfl, ht (.tail _ (.head _))⟩, hmis⟩
    | _ => trivial

/-- A payment that was confirmed had its order found and finalised. -/
theorem ConfirmAt.settled {p : OnchainTransaction} {n n' : UInt64} {t : Calls} {txHash : Str}
    (h : ConfirmAt p n t none)
    (hs : (Op.updateConfirmations txHash n' .confirmed).gave (.ok ()) ∈ t) :
    p.txHash = txHash ∧ ∃ order, found p order ∈ t ∧ Finalised order t := by
  cases h with
  | unknown e => simp [Op.gave] at hs
  | @finalDone order a hfinal =>
    simp [found, Op.gave] at hs
    refine ⟨hs.1.1.symm, order, .head _, ?_⟩
    rcases hfinal with hpaid | href
    · exact .inl hpaid
    · exact .inr (.inl href)
  | mismatchDone a _ => simp [found, Op.gave] at hs
  | unconfirmed e _ => simp [found, Op.gave] at hs
  | @unpaid order e _ =>
    simp [found, marked, Op.gave] at hs
    exact ⟨hs.1.symm, order, .head _, .inr (.inr ⟨.error e, .tail _ (.tail _ (.head _))⟩)⟩
  | @announced order now a _ =>
    simp [found, marked, paid, Op.gave] at hs
    exact ⟨hs.1.symm, order, .head _, .inr (.inr ⟨.ok (), .tail _ (.tail _ (.head _))⟩)⟩

theorem ProcessAt.settled {p : OnchainTransaction} {latest n : UInt64} {t : Calls} {txHash : Str}
    (h : ProcessAt p latest t none)
    (hs : (Op.updateConfirmations txHash n .confirmed).gave (.ok ()) ∈ t) :
    p.txHash = txHash ∧ ∃ order, found p order ∈ t ∧ Finalised order t := by
  cases h with
  | goneDone b _ => simp [Op.gave] at hs
  | failedDone b _ => simp [Op.gave] at hs
  | ahead _ _ => simp [Op.gave] at hs
  | shallowDone b _ _ => simp [Op.gave] at hs
  | deep _ _ h =>
    rcases List.mem_cons.mp hs with heq | hs
    · cases heq
    · obtain ⟨hhash, order, hfound, hfinal⟩ := h.settled hs
      exact ⟨hhash, order, .tail _ hfound, hfinal.mono fun x hx => .tail _ hx⟩

/-- **Why a payment is given up.** -/
theorem tick_justified (c : ConfirmationTracker) {t : Calls} {op : Op}
    {k : op.Ans → Svc (Res Unit)} (h : Prog.Runs c.tick t (.call op k)) : Justified t op := by
  have hat : TickAt c t (some op) := c.tick_at h
  cases hat with
  | head => trivial
  | list latest => trivial
  | @payment latest ps ps' p t t' o hps hp =>
    refine hp.justified ⟨_, _, ps ++ p :: ps', .tail _ (.head _), by simp⟩ fun x hx => ?_
    exact .tail _ (.tail _ (List.mem_append_right _ hx))

/-- **What a tick has settled** when it returns. -/
theorem tick_settled (c : ConfirmationTracker) {t : Calls} {r : Res Unit}
    (h : Prog.Runs c.tick t (.ret r)) : Settled t := by
  have hat : TickAt c t none := c.tick_at h
  rintro s hs txHash ⟨n, rfl⟩
  cases hat with
  | noHead e => simp [Op.gave] at hs
  | noList latest e => simp [Op.gave] at hs
  | @done latest pendings t hall =>
    have hs : (Op.updateConfirmations txHash n .confirmed).gave (.ok ()) ∈ t := by
      simpa [Op.gave] using hs
    obtain ⟨p, hp, t', hat, hst', hsub⟩ := hall.exists_of_mem hs
    obtain ⟨hhash, order, hfound, hfinal⟩ := hat.settled hst'
    have hall : ∀ x ∈ t', x ∈ Op.blockNumber.gave (.ok latest) ::
        (Op.listPendingByChain c.chainID c.batchLimit).gave (.ok pendings) :: t :=
      fun x hx => .tail _ (.tail _ (hsub hx))
    exact ⟨p, order, ⟨⟨_, _, pendings, .tail _ (.head _), hp⟩, hhash, hall _ hfound⟩,
      hfinal.mono hall⟩

end ConfirmationTracker

open ConfirmationTracker

/-! ## The rows of a run -/

section
variable (D : Deployment) (w : World) (js : List Job)

/-- **A row in a run.**  Its facts stay, and its status is the one a call last gave it. -/
theorem row_history (xs : List (Nat × Choice)) {n : Nat} {x : OnchainTransaction}
    (hx : w.onchain[n]? = some x) :
    ∃ y, (System.run D w js xs).world.onchain[n]? = some y ∧ y.facts = x.facts ∧
      (y.status = x.status ∨ ∃ i txHash k,
        (Op.updateConfirmations txHash k y.status).gave (.ok ()) ∈
          callsOf i (System.run D w js xs).hist ∧ D.collation.eq x.txHash txHash = true) := by
  refine System.invariant D w js (Q := fun S => ∃ y, S.world.onchain[n]? = some y ∧
    y.facts = x.facts ∧ (y.status = x.status ∨ ∃ i txHash k,
      (Op.updateConfirmations txHash k y.status).gave (.ok ()) ∈ callsOf i S.hist ∧
        D.collation.eq x.txHash txHash = true)) ⟨x, hx, rfl, .inl rfl⟩ ?_ xs
  rintro S i c o k j ⟨y, hy, hfacts, hstatus⟩ - -
  have hkeep : y.status = x.status ∨ ∃ i' txHash k',
      (Op.updateConfirmations txHash k' y.status).gave (.ok ()) ∈
        callsOf i' (S.after D i c o k).hist ∧ D.collation.eq x.txHash txHash = true := by
    rcases hstatus with h | ⟨i', txHash, k', hmem, heq⟩
    · exact .inl h
    · exact .inr ⟨i', txHash, k', System.callsOf_after_mono i' _ hmem, heq⟩
  show ∃ y', (exec D o c S.world).2.onchain[n]? = some y' ∧ _
  rcases exec_onchain_cases D o c S.world with
    he | ⟨tx, -, -, -, -, he⟩ | ⟨txHash, n', st, rfl, hok, he⟩
  · rw [he]
    exact ⟨y, hy, hfacts, hkeep⟩
  · have hlt := (List.getElem?_eq_some_iff.mp hy).1
    rw [he, List.getElem?_append_left hlt]
    exact ⟨y, hy, hfacts, hkeep⟩
  · rw [he]
    unfold updateWhere
    rw [List.getElem?_map, hy, Option.map_some]
    refine ⟨_, rfl, ?_⟩
    by_cases hc : D.collation.eq y.txHash txHash = true
    · rw [if_pos hc]
      refine ⟨hfacts, .inr ⟨i, txHash, n', ?_, ?_⟩⟩
      · exact System.mem_callsOf_after.mpr (.inr ⟨rfl, by rw [hok]⟩)
      · rwa [show x.txHash = y.txHash from (congrArg OnchainTransaction.txHash hfacts).symm]
    · rw [if_neg hc]
      exact ⟨hfacts, hkeep⟩

/-- A job that does not record payments. -/
def RecordsNothing (j : Job) : Prop :=
  (∃ c, j = .confirm c) ∨ ∃ r, j = .listen (.recheck r)

theorem RecordsNothing.not_create {j : Job} (hj : RecordsNothing j) {t : Calls}
    {tx : OnchainTransaction} : ¬ JobCall D j t (.createOnchainTx tx) := by
  intro h
  rcases hj with ⟨c, rfl⟩ | ⟨r, rfl⟩
  · cases h with
    | confirm hc => cases hc
  · cases h with
    | listen hc =>
      cases hc with
      | create hdel _ _ => cases hdel

theorem RecordsNothing.not_creator {j : Job} (hj : RecordsNothing j) (s : PaymentService)
    (inp : CreatePaymentInput) : j ≠ .create s inp := by
  rintro rfl
  rcases hj with ⟨c, hc⟩ | ⟨r, hr⟩
  · cases hc
  · cases hr

/-- While no payment is recorded, what a tick lists is what was there at the start. -/
theorem listed_facts (hjs : ∀ j ∈ js, RecordsNothing j) (xs : List (Nat × Choice)) :
    ∀ i p, Listed p (callsOf i (System.run D w js xs).hist) →
      p.facts ∈ w.onchain.map OnchainTransaction.facts := by
  have hinv : (System.run D w js xs).world.onchain.map OnchainTransaction.facts =
        w.onchain.map OnchainTransaction.facts ∧
      ∀ i p, Listed p (callsOf i (System.run D w js xs).hist) →
        p.facts ∈ w.onchain.map OnchainTransaction.facts := by
    refine System.invariant D w js (Q := fun S =>
      S.world.onchain.map OnchainTransaction.facts = w.onchain.map OnchainTransaction.facts ∧
      ∀ i p, Listed p (callsOf i S.hist) → p.facts ∈ w.onchain.map OnchainTransaction.facts)
      ⟨rfl, ?_⟩ ?_ xs
    · rintro i p ⟨_, _, _, hmem, -⟩
      cases hmem
    rintro S i c o k j ⟨hsame, hlisted⟩ hj hcall
    constructor
    · show (exec D o c S.world).2.onchain.map _ = _
      rcases exec_onchain_cases D o c S.world with
        he | ⟨tx, rfl, -, -, -, -⟩ | ⟨txHash, n', st, rfl, -, he⟩
      · rw [he, hsame]
      · exact absurd hcall ((hjs j (List.mem_of_getElem? hj)).not_create D)
      · rw [he, map_updateWhere OnchainTransaction.facts, hsame]
        intro x
        rfl
    · rintro i' p ⟨chainID, limit, pendings, hmem, hp⟩
      rcases System.mem_callsOf_after.mp hmem with hold | ⟨rfl, hnew⟩
      · exact hlisted i' p ⟨chainID, limit, pendings, hold, hp⟩
      · -- listed just now, so in the table
        obtain rfl : o = .listPendingByChain chainID limit := congrArg Sigma.fst hnew
        have hans := Op.gave_inj.mp hnew
        simp only [exec] at hans
        split at hans
        · cases hans
        · obtain rfl := Except.ok.inj hans
          rw [← hsame]
          exact List.mem_map_of_mem (mem_listPending hp).1
  exact hinv.2

end

/-- The UNIQUE key of `onchain_transactions`. -/
def UniqueHashes (C : Collation) (txs : List OnchainTransaction) : Prop :=
  ∀ x ∈ txs, ∀ y ∈ txs, C.eq x.txHash y.txHash = true → x = y

theorem uniqueHashes_singleton (C : Collation) (x : OnchainTransaction) : UniqueHashes C [x] := by
  intro y hy z hz _
  rw [List.mem_singleton.mp hy, List.mem_singleton.mp hz]

/-- A payment is listed under its hash as what it was at the start. -/
theorem facts_of_listed {D : Deployment} {w : World} {js : List Job}
    (hjs : ∀ j ∈ js, RecordsNothing j) (hunique : UniqueHashes D.collation w.onchain)
    {xs : List (Nat × Choice)} {n i : Nat} {x p : OnchainTransaction}
    (hx : w.onchain[n]? = some x) (hp : Listed p (callsOf i (System.run D w js xs).hist))
    (heq : D.collation.eq x.txHash p.txHash = true) : p.facts = x.facts := by
  obtain ⟨y, hy, hfacts⟩ := List.mem_map.mp (listed_facts D w js hjs xs i p hp)
  have hhash : y.facts.txHash = p.facts.txHash := by rw [hfacts]
  rw [← show y.txHash = p.txHash from hhash] at heq
  rw [← hfacts, hunique x (List.mem_of_getElem? hx) y hy heq]

/-! ## A confirmed payment and its order -/

/-- The order is paid or refunded. -/
def Row.Final (r : Row) : Prop := r.status = statusPaid ∨ r.status = statusRefunded

theorem Row.final_iff {r : Row} {t : Transaction} (h : scanTransaction r = .ok t) :
    r.Final ↔ t.status = .paid ∨ t.status = .refunded := by
  obtain ⟨-, -, -, -, -, hst, -⟩ := TransactionRepo.scanTransaction_ok h
  exact or_congr (eq_encodeStatus_iff hst .paid) (eq_encodeStatus_iff hst .refunded)

/-- The row `GetByOrderIDAny` has returned as `order`. -/
def RowOf (order : Transaction) (r : Row) : Prop :=
  order.transactionID = hexLower r.transactionID ∧ order.merchantID = r.merchantID ∧
    order.orderID = r.orderID

theorem RowOf.of_facts {order : Transaction} {r r' : Row} (h : RowOf order r)
    (hf : r'.facts = r.facts) : RowOf order r' := by
  have htxn : r'.transactionID = r.transactionID := congrArg Facts.transactionID hf
  have hm : r'.merchantID = r.merchantID := congrArg Facts.merchantID hf
  have ho : r'.orderID = r.orderID := congrArg Facts.orderID hf
  unfold RowOf
  rw [htxn, hm, ho]
  exact h

section
variable {D : Deployment}

/-- The tracker sets an order to `paid` and nothing else. -/
theorem tracker_pools {op : Op} (hop : TrackerCall op) (c : Choice) (w : World) :
    (exec D op c w).2.pools = w.pools ∨
      ∃ x m o p, op = .updateStatus x m o .paid [] ∧ D.router.forIndex x = .ok p ∧
        (exec D op c w).2.pools = Function.update w.pools p (updateWhere (D.ofOrder m o)
          (TransactionRepo.setStatus c.now .paid []) (w.pools p)) := by
  rcases exec_pools_cases D op c w with
    he | ⟨t, r, p, rfl, -⟩ | ⟨x, m, oid, f, p, hf, hp, -, -, he⟩
  · exact .inl he
  · cases hop
  · rcases hf with ⟨st, pi, rfl, rfl⟩ | ⟨sess, pi, rfl, rfl⟩
    · cases hop
      exact .inr ⟨x, m, oid, p, rfl, hp, he⟩
    · cases hop

/-- Row by row: the facts stay, and so does a final status. -/
theorem tracker_rows {op : Op} (hop : TrackerCall op) (c : Choice) (w : World) (p : Nat) :
    List.Forall₂ (fun r r' : Row => r'.facts = r.facts ∧ (r.Final → r'.Final)) (w.pools p)
      ((exec D op c w).2.pools p) := by
  have hsame : List.Forall₂ (fun r r' : Row => r'.facts = r.facts ∧ (r.Final → r'.Final))
      (w.pools p) (w.pools p) := List.forall₂_same.mpr fun r _ => ⟨rfl, id⟩
  rcases tracker_pools hop c w with he | ⟨x, m, o, q, rfl, -, he⟩
  · rw [he]
    exact hsame
  · rw [he]
    by_cases hq : p = q
    · subst hq
      rw [Function.update_self, forall₂_updateWhere]
      intro r _
      split
      · exact ⟨rfl, fun _ => .inl rfl⟩
      · exact ⟨rfl, id⟩
    · rw [Function.update_of_ne hq]
      exact hsame

/-- What the orders of a run of the tracker look like: those it has found are there, and final
if they were; those it has set to `paid` are final. -/
structure TrackedInv (D : Deployment) (S : System) : Prop where
  found : ∀ i o order, (Op.getByOrderIDAny o).gave (.ok order) ∈ callsOf i S.hist →
    ∃ p r, D.router.forIndex order.shardIndex = .ok p ∧ r ∈ S.world.pools p ∧ RowOf order r ∧
      (order.status = .paid ∨ order.status = .refunded → r.Final)
  paid : ∀ i x m o a p, (Op.updateStatus x m o .paid []).gave a ∈ callsOf i S.hist →
    D.router.forIndex x = .ok p → ValidOrderID o → ∀ r ∈ S.world.pools p,
      D.ofOrder m o r = true → r.Final

/-- What `GetByOrderIDAny` has just returned. -/
theorem found_now {o : Str} {order : Transaction} {c : Choice} {w : World}
    (h : (exec D (.getByOrderIDAny o) c w).1 = .ok order) :
    ∃ p r, p < D.router.pools ∧ D.router.forIndex order.shardIndex = .ok p ∧ r ∈ w.pools p ∧
      RowOf order r ∧ (r.Final ↔ order.status = .paid ∨ order.status = .refunded) := by
  obtain ⟨-, p, r, t', x, hp, hr, -, hscan, rfl, hx⟩ := D.getByOrderIDAny_ok h
  obtain ⟨hm, htxn, ho, -⟩ := TransactionRepo.scanTransaction_ok hscan
  have hfinal : r.Final ↔ t'.status = .paid ∨ t'.status = .refunded := Row.final_iff hscan
  exact ⟨p, r, hp, hx, hr, ⟨htxn, hm, ho⟩, hfinal⟩

/-- The rows of an order that has just been set to `paid` are final. -/
theorem final_of_paid {x : UInt8} {m o : Str} {c : Choice} {w : World} {p : Nat}
    (hexec : (exec D (.updateStatus x m o .paid []) c w).2.pools =
      Function.update w.pools p (updateWhere (D.ofOrder m o)
        (TransactionRepo.setStatus c.now .paid []) (w.pools p)))
    {r : Row} (hr : r ∈ (exec D (.updateStatus x m o .paid []) c w).2.pools p)
    (hof : D.ofOrder m o r = true) : r.Final := by
  rw [hexec, Function.update_self, mem_updateWhere] at hr
  obtain ⟨y, -, rfl⟩ := hr
  by_cases hy : D.ofOrder m o y = true
  · rw [if_pos hy]
    exact .inl rfl
  · rw [if_neg hy] at hof
    exact absurd hof hy

/-- **One call of the tracker**, an `UpdateStatus` among them only if it does not fail. -/
theorem TrackedInv.after {S : System} {i : Nat} {c : Choice} {op : Op} {k : op.Ans → Svc Outcome}
    (h : TrackedInv D S) (hop : TrackerCall op)
    (hok : ∀ x m o st pi, op = .updateStatus x m o st pi → c.fault = none) :
    TrackedInv D (S.after D i c op k) := by
  constructor
  · intro i' o order hmem
    rcases System.mem_callsOf_after.mp hmem with hold | ⟨rfl, hnew⟩
    · obtain ⟨p, r, hp, hr, hrow, hfinal⟩ := h.found i' o order hold
      obtain ⟨r', hr', hfacts, hkeep⟩ := exists_right_of_forall₂ (tracker_rows hop c S.world p) hr
      exact ⟨p, r', hp, hr', hrow.of_facts hfacts, fun hst => hkeep (hfinal hst)⟩
    · obtain rfl : op = .getByOrderIDAny o := congrArg Sigma.fst hnew
      obtain ⟨p, r, -, hp, hr, hrow, hfinal⟩ := found_now (Op.gave_inj.mp hnew)
      exact ⟨p, r, hp, hr, hrow, hfinal.mpr⟩
  · intro i' x m o a p hmem hp hv r' hr' hof
    obtain ⟨r, hr, hfacts, hkeep⟩ := exists_left_of_forall₂ (tracker_rows hop c S.world p) hr'
    have hof₀ : D.ofOrder m o r = true := by rwa [← D.ofOrder_of_facts hfacts]
    rcases System.mem_callsOf_after.mp hmem with hold | ⟨rfl, hnew⟩
    · exact hkeep (h.paid i' x m o a p hold hp hv r hr hof₀)
    · obtain rfl : op = .updateStatus x m o .paid [] := congrArg Sigma.fst hnew
      have hfault := hok x m o .paid [] rfl
      refine final_of_paid ?_ hr' hof
      simp only [exec, TransactionRepo.updateStatus, hfault, D.updateOrder_of_row hp hv hr hof₀]

/-- No job is in the middle of its work. -/
def BetweenTicks (S : System) : Prop :=
  ∀ i q, S.procs[i]? = some q → callsOf i S.hist = [] ∨ ∃ r, q = .ret r

/-- So it is once every job has a result. -/
theorem betweenTicks_of_results {S : System}
    (h : (S.procs.all fun p => p.result?.isSome) = true) : BetweenTicks S := by
  intro i q hq
  have hdone := List.all_eq_true.mp h q (List.mem_of_getElem? hq)
  cases q with
  | ret r => exact .inr ⟨r, rfl⟩
  | call o k => cases hdone

/-- No `UpdateStatus` of the run has failed. -/
def StatusesWritten (S : System) : Prop :=
  ∀ e ∈ S.hist, ∀ x m o st pi, e.op = .updateStatus x m o st pi → e.choice.fault = none

theorem tracked_invariant {w : World} {js : List Job} (hjs : ∀ j ∈ js, ∃ c, j = .confirm c)
    {xs : List (Nat × Choice)} (hok : StatusesWritten (System.run D w js xs)) :
    TrackedInv D (System.run D w js xs) := by
  refine System.invariant D w js (Q := fun S => StatusesWritten S → TrackedInv D S) ?_ ?_ xs hok
  · intro _
    constructor
    · intro i o order hmem
      cases hmem
    · intro i x m o a p hmem
      cases hmem
  · intro S i c o k j hQ hj hcall hok'
    obtain ⟨tr, rfl⟩ := hjs j (List.mem_of_getElem? hj)
    have hop : TrackerCall o := by
      cases hcall with
      | confirm hc => exact hc
    refine (hQ fun e he => hok' e (System.mem_hist_after.mpr (.inl he))).after hop ?_
    exact hok' _ (System.mem_hist_after.mpr (.inr rfl))

/-- **A confirmed payment has its order paid.**  Between ticks, every payment the tracker has
moved to `confirmed` belongs to an order that is paid or refunded, if no `UpdateStatus` has
failed. -/
theorem confirmed_paid {w : World} {js : List Job} (hjs : ∀ j ∈ js, ∃ c, j = .confirm c)
    (hunique : UniqueHashes D.collation w.onchain) {xs : List (Nat × Choice)}
    (hok : StatusesWritten (System.run D w js xs)) (hidle : BetweenTicks (System.run D w js xs)) :
    ∀ (n : Nat) (x y : OnchainTransaction), w.onchain[n]? = some x → x.status ≠ .confirmed →
      (System.run D w js xs).world.onchain[n]? = some y → y.status = .confirmed →
      ∃ i order p r,
        (Op.getByOrderIDAny y.orderID).gave (.ok order) ∈ callsOf i (System.run D w js xs).hist ∧
        D.router.forIndex order.shardIndex = .ok p ∧ r ∈ (System.run D w js xs).world.pools p ∧
        RowOf order r ∧ r.Final := by
  intro n x y hx hne hy hconf
  have hnothing : ∀ j ∈ js, RecordsNothing j := fun j hj => .inl (hjs j hj)
  obtain ⟨y', hy', hfacts, hstatus⟩ := row_history D w js xs hx
  obtain rfl := Option.some.inj (hy.symm.trans hy')
  rw [hconf] at hstatus
  obtain ⟨i, txHash, k, hcall, heq⟩ := hstatus.resolve_left fun h => hne h.symm
  -- the tick that has confirmed it is through
  obtain ⟨j, t, k', hj, -⟩ := System.callsOf_runs D w js hcall
  obtain ⟨tr, rfl⟩ := hjs j (List.mem_of_getElem? hj)
  obtain ⟨q, hq, hruns⟩ := System.run_runs D w js hj xs
  rcases hidle i q hq with hnil | ⟨r, rfl⟩
  · rw [hnil] at hcall
    cases hcall
  obtain ⟨r', hruns, -⟩ := Prog.runs_map_ret hruns
  obtain ⟨p, order, ⟨hlisted, hhash, hfound⟩, hfinal⟩ := tr.tick_settled hruns _ hcall txHash ⟨k, rfl⟩
  rw [← hhash] at heq
  have hp := facts_of_listed hnothing hunique hx hlisted heq
  have horder : p.facts.orderID = y.facts.orderID := by rw [hp, hfacts]
  have hinv := tracked_invariant hjs hok
  obtain ⟨pool, r, hpool, hr, hrow, hkept⟩ := hinv.found i p.orderID order hfound
  refine ⟨i, order, pool, r, ?_, hpool, hr, hrow, ?_⟩
  · rw [← show p.orderID = y.orderID from horder]
    exact hfound
  · rcases hfinal with hst | hst | ⟨a, hpaid⟩
    · exact hkept (.inl hst)
    · exact hkept (.inr hst)
    · have hof : D.ofOrder order.merchantID order.orderID r = true := by
        rw [hrow.2.1, hrow.2.2]
        exact D.ofOrder_self r
      have hv : ValidOrderID order.orderID := by
        rw [hrow.2.2]
        exact r.orderID_valid
      exact hinv.paid i _ _ _ a pool hpaid hpool hv r hr hof

end

/-! The node confirms the payment, but the database is away when the order is to be paid. -/

def tickTwice (status : Choice) : List (Nat × Choice) :=
  List.replicate 5 (0, .onChain) ++ [(0, status)] ++ List.replicate 2 (0, .onChain) ++
    List.replicate 2 (1, .onChain)

def tickTwiceRun (status : Choice) : System :=
  System.run (Deployment.sample .asciiCI) World.onePayment [.track, .track] (tickTwice status)

/-- A payment confirmed, and its order never paid. -/
theorem confirmed_not_paid :
    BetweenTicks (tickTwiceRun { fault := some .badConnection }) ∧
      (tickTwiceRun { fault := some .badConnection }).world.onchain.map OnchainTransaction.status =
        [.confirmed] ∧
      ((tickTwiceRun { fault := some .badConnection }).world.pools 0).map Row.status =
        [statusPending] := by
  have hend : ((tickTwiceRun { fault := some .badConnection }).procs.all fun p => p.result?.isSome) = true ∧
      (tickTwiceRun { fault := some .badConnection }).world.onchain.map OnchainTransaction.status =
        [.confirmed] ∧
      ((tickTwiceRun { fault := some .badConnection }).world.pools 0).map Row.status =
        [statusPending] := by decide +kernel
  exact ⟨betweenTicks_of_results hend.1, hend.2⟩

theorem confirmed_paid_sample :
    (tickTwiceRun .onChain).world.onchain[0]? =
        some { OnchainTransaction.sample with confirmations := 12, status := .confirmed } ∧
      ∃ i order p r,
        (Op.getByOrderIDAny (bytes "o-1")).gave (.ok order) ∈
          callsOf i (tickTwiceRun .onChain).hist ∧
        Router.single.forIndex order.shardIndex = .ok p ∧
        r ∈ (tickTwiceRun .onChain).world.pools p ∧ RowOf order r ∧ r.Final := by
  obtain ⟨hdone, hrow⟩ : ((tickTwiceRun .onChain).procs.all fun p => p.result?.isSome) = true ∧
      (tickTwiceRun .onChain).world.onchain[0]? =
        some { OnchainTransaction.sample with confirmations := 12, status := .confirmed } := by
    decide +kernel
  have hjs : ∀ j ∈ [Job.track, Job.track], ∃ c, j = .confirm c := by
    intro j hj
    have htrack : j = .track := by simpa using hj
    exact ⟨_, htrack⟩
  have hok : StatusesWritten (tickTwiceRun .onChain) := by
    intro e he x m o st pi _
    have hmem := System.mem_schedule _ _ _ he
    have hall : ∀ x ∈ tickTwice .onChain, x.2 = .onChain := by
      intro x hx
      simp [tickTwice] at hx
      rcases hx with rfl | rfl <;> rfl
    rw [show e.choice = .onChain from hall _ hmem]
    rfl
  exact ⟨hrow, confirmed_paid hjs (uniqueHashes_singleton _ _) hok
    (betweenTicks_of_results hdone) 0 .sample _ rfl (by decide) hrow rfl⟩

/-! ## A payment that is on chain -/

section
variable {D : Deployment} {w : World} {js : List Job}

/-- A payment whose amount is its order's does not mismatch. -/
theorem not_mismatch {p : OnchainTransaction} {order : Transaction} {a : Int}
    (hp : p.amount = some a) (ha : order.amount.toInt = a) : amountMismatch p order = false := by
  unfold amountMismatch
  rw [hp, ← ha]
  simp [Int64.ofInt_toInt]

/-- Why a tick gives a payment up. -/
theorem given_up {j : Job} (hj : RecordsNothing j) {t : Calls} {txHash : Str} {n : UInt64}
    {st : OnchainTxStatus} {k : Res Unit → Svc Outcome}
    (h : Prog.Runs (j.prog D) t (.call (.updateConfirmations txHash n st) k)) :
    (st = .reorged → LooksGone txHash t) ∧
      (st = .failed → LooksFailed txHash t ∨
        ∃ p order, Found txHash p order t ∧ amountMismatch p order = true) := by
  rcases hj with ⟨tr, rfl⟩ | ⟨r, rfl⟩
  · obtain ⟨k', hruns⟩ := Prog.runs_map_call h
    have hjust := tr.tick_justified hruns
    constructor
    · rintro rfl
      exact hjust
    · rintro rfl
      exact hjust
  · have hnext := Job.next h
    cases hnext with
    | listen hc =>
      constructor
      · rintro rfl
        cases hc with
        | gone _ _ hgone => exact hgone
      · rintro rfl
        cases hc with
        | failed _ _ hfailed => exact .inl hfailed

/-- **A payment that is on chain survives.**  Its receipt is there whenever the node answers, and
its amount is that of every order stored under its order id.  In a run of ticks of the tracker
and the reconciler it becomes neither `reorged` nor `failed`, if no `TransactionReceipt` call for
it fails. -/
theorem payment_survives (hjs : ∀ j ∈ js, RecordsNothing j)
    (hunique : UniqueHashes D.collation w.onchain) {n : Nat} {x : OnchainTransaction}
    (hx : w.onchain[n]? = some x) (hstart : x.status ≠ .reorged ∧ x.status ≠ .failed) {a : Int}
    (hamount : x.amount = some a)
    (horder : ∀ p < D.router.pools, ∀ r ∈ w.pools p, D.collation.eq r.orderID x.orderID = true →
      r.amount.toInt64.toInt = a)
    {xs : List (Nat × Choice)}
    (hcanonical : ∀ i found, (Op.transactionReceipt x.txHash).gave (.ok found) ∈
        callsOf i (System.run D w js xs).hist → ∃ receipt : Receipt, found = some receipt ∧
          receipt.status = 1)
    (hanswered : ∀ i e, (Op.transactionReceipt x.txHash).gave (.error e) ∉
        callsOf i (System.run D w js xs).hist) :
    ∃ y, (System.run D w js xs).world.onchain[n]? = some y ∧ y.facts = x.facts ∧
      y.status ≠ .reorged ∧ y.status ≠ .failed := by
  obtain ⟨y, hy, hfacts, hstatus⟩ := row_history D w js xs hx
  refine ⟨y, hy, hfacts, ?_⟩
  rcases hstatus with h | ⟨i, txHash, k, hcall, heq⟩
  · rw [h]
    exact hstart
  obtain ⟨j, t, k', hj, hruns, ht⟩ := System.callsOf_runs D w js hcall
  obtain ⟨hreorged, hfailed⟩ := given_up (hjs j (List.mem_of_getElem? hj)) hruns
  -- a payment listed under this hash is this one
  have hthis : ∀ p, Listed p t → p.txHash = txHash → p.facts = x.facts := by
    rintro p ⟨chainID, limit, pendings, hmem, hp⟩ rfl
    exact facts_of_listed hjs hunique hx ⟨chainID, limit, pendings, ht _ hmem, hp⟩ heq
  have hhash : ∀ p, Listed p t → p.txHash = txHash → txHash = x.txHash := by
    rintro p hp rfl
    have h : p.facts.txHash = x.facts.txHash := by rw [hthis p hp rfl]
    exact h
  constructor
  · intro h
    obtain ⟨⟨p, hp, hph⟩, hgone⟩ := hreorged h
    rw [hhash p hp hph] at hgone
    rcases hgone with ⟨err, hmem⟩ | hmem
    · exact hanswered i err (ht _ hmem)
    · obtain ⟨receipt, hnone, -⟩ := hcanonical i none (ht _ hmem)
      cases hnone
  · intro h
    rcases hfailed h with ⟨⟨p, hp, hph⟩, receipt, hne, hmem⟩ | ⟨p, order, ⟨hp, hph, hfound⟩, hmis⟩
    · rw [hhash p hp hph] at hmem
      obtain ⟨receipt', heq', hone⟩ := hcanonical i (some receipt) (ht _ hmem)
      obtain rfl := Option.some.inj heq'
      exact hne hone
    · have hpo : p.facts.orderID = x.facts.orderID := by rw [hthis p hp hph]
      have hpa : p.facts.amount = x.facts.amount := by rw [hthis p hp hph]
      have hno : ∀ j ∈ js, ∀ s inp, j ≠ .create s inp := fun j hj => (hjs j hj).not_creator
      obtain ⟨-, q, r, hq, -, hr, hreq, -, -, ham⟩ := found_at_start hno xs i _ order (ht _ hfound)
      rw [show p.orderID = x.orderID from hpo] at hreq
      have ha := horder q hq r hr hreq
      rw [← ham] at ha
      rw [not_mismatch ((show p.amount = x.amount from hpa).trans hamount) ha] at hmis
      cases hmis

end

/-! One call of the node fails, and the payment is given up. -/

def tickOf (j : Job) (receipt : Choice) (n : Nat) : System :=
  System.run (Deployment.sample .asciiCI) World.onePayment [j]
    (List.replicate n (0, .onChain) ++ [(0, receipt), (0, .onChain)])

theorem payment_given_up :
    (tickOf .track { Choice.onChain with fault := some .badConnection } 2).world.onchain.map
        OnchainTransaction.status = [.reorged] ∧
      (tickOf .recheck { Choice.onChain with fault := some .badConnection } 1).world.onchain.map
        OnchainTransaction.status = [.reorged] := by
  constructor
  · decide +kernel
  · decide +kernel

theorem payment_survives_sample :
    OnchainTransaction.sample.amount = some 100 ∧
      ∃ y, (tickOf .recheck .onChain 1).world.onchain[0]? = some y ∧
        y.facts = OnchainTransaction.sample.facts ∧ y.status ≠ .reorged ∧ y.status ≠ .failed := by
  have hall : ∀ x ∈ List.replicate 1 (0, Choice.onChain) ++ [(0, .onChain), (0, .onChain)],
      x.2 = .onChain := by
    intro x hx
    have hx' : x = (0, .onChain) := by simpa using hx
    rw [hx']
  have hjs : ∀ j ∈ [Job.recheck], RecordsNothing j := by
    intro j hj
    exact .inr ⟨_, List.mem_singleton.mp hj⟩
  -- the node has answered each call with the receipt
  have hanswer : ∀ i a, (Op.transactionReceipt OnchainTransaction.sample.txHash).gave a ∈
      callsOf i (tickOf .recheck .onChain 1).hist → a = .ok (some ⟨1, 100⟩) := by
    intro i a hmem
    obtain ⟨e, he, -, -, w', ha⟩ := System.answered_of_mem _ _ _ hmem
    rw [ha, show e.choice = .onChain from hall _ (System.mem_schedule _ _ _ he)]
    rfl
  refine ⟨rfl, payment_survives hjs (uniqueHashes_singleton _ _) rfl (by decide) rfl ?_ ?_ ?_⟩
  · intro p _ r hr _
    rw [List.mem_singleton.mp hr]
    decide
  · intro i found hmem
    exact ⟨⟨1, 100⟩, Except.ok.inj (hanswer i _ hmem), rfl⟩
  · intro i e hmem
    cases hanswer i _ hmem

end EasyPay
