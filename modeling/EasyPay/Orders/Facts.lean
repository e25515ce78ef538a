import EasyPay.Repository.Snapshot
import EasyPay.System

/-!
# The facts of a payment

Whatever a job announces it has read from a row, some time before.

* `status_history`: where the status of a row comes from.
* `payment_facts`: every event states the facts of a row that is there.
-/

namespace EasyPay

open GoStrings Tables Ports

/-! ## Where a status comes from -/

section
variable (D : Deployment) (w : World) (js : List Job)

/-- Why a row has its status: it had it at the start, it was inserted with it, or an
`UpdateStatus` has written it. -/
def StatusFrom (S : System) (q n : Nat) (r : Row) : Prop :=
  (∃ r₀, (w.pools q)[n]? = some r₀ ∧ r.status = r₀.status) ∨
    (∃ i t a, (Op.insert t).gave a ∈ callsOf i S.hist ∧ r.status = encodeStatus t.status) ∨
    ∃ i x m o st pi, (Op.updateStatus x m o st pi).gave (.ok ()) ∈ callsOf i S.hist ∧
      D.router.forIndex x = .ok q ∧ D.ofOrder m o r = true ∧ r.status = encodeStatus st

/-- **The status of a row** in a run. -/
theorem status_history (xs : List (Nat × Choice)) (q n : Nat) (r : Row)
    (hr : ((System.run D w js xs).world.pools q)[n]? = some r) :
    StatusFrom D w (System.run D w js xs) q n r := by
  revert r
  refine System.invariant D w js
    (Q := fun S => ∀ r, (S.world.pools q)[n]? = some r → StatusFrom D w S q n r) ?_ ?_ xs
  · intro r hr
    exact .inl ⟨r, hr, rfl⟩
  intro S i c op k j hS _ _ r' hr'
  -- a row whose status stays has it for the same reason
  have hkeep : ∀ r, (S.world.pools q)[n]? = some r → r'.facts = r.facts → r'.status = r.status →
      StatusFrom D w (S.after D i c op k) q n r' := by
    intro r hr hfacts hst
    rcases hS r hr with ⟨r₀, hr₀, h⟩ | ⟨i', t, a, hmem, h⟩ | ⟨i', x, m, o, st, pi, hmem, hx, hof, h⟩
    · exact .inl ⟨r₀, hr₀, hst.trans h⟩
    · exact .inr (.inl ⟨i', t, a, System.callsOf_after_mono i' _ hmem, hst.trans h⟩)
    · refine .inr (.inr ⟨i', x, m, o, st, pi, System.callsOf_after_mono i' _ hmem, hx, ?_, hst.trans h⟩)
      rwa [D.ofOrder_of_facts hfacts]
  rcases exec_row_cases hr' with hr | ⟨t, rfl, hrow, -⟩ |
    ⟨r, x, m, oid, st, pi, -, rfl, hok, hx, hof, rfl⟩ | ⟨r, x, m, oid, sess, pi, hr, -, -, -, -, rfl⟩
  · exact hkeep r' hr rfl rfl
  · obtain ⟨-, -, -, -, -, -, hst, -⟩ := D.row_ok hrow
    exact .inr (.inl ⟨i, t, _, System.mem_callsOf_after.mpr (.inr ⟨rfl, rfl⟩), hst⟩)
  · refine .inr (.inr ⟨i, x, m, oid, st, pi, ?_, hx, hof, rfl⟩)
    exact System.mem_callsOf_after.mpr (.inr ⟨rfl, by rw [hok]⟩)
  · exact hkeep r hr rfl rfl

/-- The amounts are what `Insert` stores. -/
def AmountsStored (pools : Pools) : Prop := ∀ q, ∀ r ∈ pools q, r.amount.toNat < 2 ^ 63

theorem amountsStored_run (hw : AmountsStored w.pools) (xs : List (Nat × Choice)) :
    AmountsStored (System.run D w js xs).world.pools := by
  refine System.invariant D w js (Q := fun S => AmountsStored S.world.pools) hw ?_ xs
  intro S i c o k j hS _ _ q r' hr'
  obtain ⟨n, hn⟩ := List.mem_iff_getElem?.mp hr'
  rcases exec_row_cases hn with hr | ⟨t, -, hrow, -⟩ | ⟨r, _, _, _, _, _, hr, -, -, -, -, rfl⟩ |
    ⟨r, _, _, _, _, _, hr, -, -, -, -, rfl⟩
  · exact hS q r' (List.mem_of_getElem? hr)
  · exact D.row_amount hrow
  · exact hS q r (List.mem_of_getElem? hr)
  · exact hS q r (List.mem_of_getElem? hr)

end

/-! ## What a job announces -/

/-- The order as it was read from a row with these facts. -/
def Transaction.Describes (t : Transaction) (f : Facts) : Prop :=
  t.merchantID = f.merchantID ∧ t.orderID = f.orderID ∧ t.amount = f.amount.toInt64 ∧
    decodeCurrency f.currencyCode = .ok t.currency

theorem describes_of_scan {r : Row} {t : Transaction} (x : UInt8) (h : scanTransaction r = .ok t) :
    (TransactionRepo.withShard x t).Describes r.facts := by
  obtain ⟨hm, -, ho, ha, hc, -⟩ := TransactionRepo.scanTransaction_ok h
  exact ⟨hm, ho, ha, hc⟩

/-- The event states the facts of a payment. -/
def PaymentConfirmedEvent.States (ev : PaymentConfirmedEvent) (f : Facts) : Prop :=
  ev.merchantID = f.merchantID ∧ ev.orderID = f.orderID ∧ ev.amount.toInt = f.amount.toNat ∧
    decodeCurrency f.currencyCode = .ok ev.currency

/-- The event is made from the order. -/
def PaymentConfirmedEvent.Copies (ev : PaymentConfirmedEvent) (order : Transaction) : Prop :=
  ev.merchantID = order.merchantID ∧ ev.orderID = order.orderID ∧ ev.amount = order.amount ∧
    ev.currency = order.currency

/-- The calls have read the order: on its own, from whichever pool had it, or in a snapshot. -/
inductive HasRead (order : Transaction) : Prog.Step gateway → Prop
  | one (i : UInt8) (m o : Str) : HasRead order ((Op.getByMerchantOrderID i m o).gave (.ok order))
  | any (o : Str) : HasRead order ((Op.getByOrderIDAny o).gave (.ok order))
  | snapshot (before : Time) (limit : Int) {stuck : List Transaction} : order ∈ stuck →
      HasRead order ((Op.getPendingBefore before limit).gave (.ok stuck))

/-- **The publishing sites**: a job announces an order it has read. -/
theorem announces_read {D : Deployment} {j : Job} {t : Calls} {ev : PaymentConfirmedEvent}
    {k : Res Unit → Svc Outcome}
    (h : Prog.Runs (j.prog D) t (.call (.publishPaymentConfirmed ev) k)) :
    ∃ order, ev.Copies order ∧ ∃ x ∈ t, HasRead order x := by
  have hcall := Job.next h
  cases hcall with
  | create _ hc => cases hc
  | resolve hr => cases hr
  | @handle s payload sig e t op k he hr =>
    obtain ⟨i, m, o, order, st, now, rfl, hread⟩ := s.handle_announces hr
    exact ⟨order, ⟨rfl, rfl, rfl, rfl⟩, _, List.mem_cons_of_mem _ hread, .one i m o⟩
  | @reconcile r _ _ _ =>
    obtain ⟨k', hruns⟩ := Prog.runs_map_call h
    have hat : r.TickAt t (some (.publishPaymentConfirmed ev)) := r.tick_at hruns
    cases hat with
    | @order now os os' o t t' _ _ ho =>
      cases ho with
      | announce now _ =>
        exact ⟨o, ⟨rfl, rfl, rfl, rfl⟩, _, .tail _ (.head _), .snapshot _ _ (by simp)⟩
  | @confirm c _ _ _ =>
    obtain ⟨k', hruns⟩ := Prog.runs_map_call h
    have hat : c.TickAt t (some (.publishPaymentConfirmed ev)) := c.tick_at hruns
    cases hat with
    | @payment latest ps ps' p t t' _ _ hp =>
      cases hp with
      | deep _ _ hp =>
        cases hp with
        | @announce order now _ =>
          refine ⟨order, ⟨rfl, rfl, rfl, rfl⟩, ConfirmationTracker.found p order, ?_, .any _⟩
          simp
  | listen hc => cases hc

section
variable (D : Deployment) (w : World) (js : List Job)

/-- An order that was read is a row of then. -/
theorem read_describes {c : Choice} {w : World} {o : Op} {order : Transaction}
    (h : HasRead order (o.gave (exec D o c w).1)) :
    ∃ q < D.router.pools, D.router.forIndex order.shardIndex = .ok q ∧
      ∃ r ∈ w.pools q, order.Describes r.facts := by
  generalize hx : o.gave (exec D o c w).1 = x at h
  cases h with
  | one i m oid =>
    obtain rfl : o = .getByMerchantOrderID i m oid := congrArg Sigma.fst hx
    obtain ⟨q, r, t', hq, -, hr, -, hscan, rfl⟩ := D.getByMerchantOrderID_ok (Op.gave_inj.mp hx)
    exact ⟨q, (Router.forIndex_ok hq).2, hq, r, hr, describes_of_scan i hscan⟩
  | any oid =>
    obtain rfl : o = .getByOrderIDAny oid := congrArg Sigma.fst hx
    obtain ⟨-, q, r, t', i, hq, hr, -, hscan, rfl, hi⟩ := D.getByOrderIDAny_ok (Op.gave_inj.mp hx)
    exact ⟨q, hq, hi, r, hr, describes_of_scan i hscan⟩
  | snapshot before limit hmem =>
    obtain rfl : o = .getPendingBefore before limit := congrArg Sigma.fst hx
    obtain ⟨q, r, t', i, hq, hr, -, hscan, rfl, hi⟩ :=
      TransactionRepo.getPendingBefore_ok (Op.gave_inj.mp hx) hmem
    exact ⟨q, hq, hi, r, hr, describes_of_scan i hscan⟩

/-- An order that was read in a run is a row that is there still. -/
theorem read_kept {xs : List (Nat × Choice)} {i : Nat} {x : Prog.Step gateway}
    (hx : x ∈ callsOf i (System.run D w js xs).hist) {order : Transaction}
    (hread : HasRead order x) :
    ∃ q < D.router.pools, D.router.forIndex order.shardIndex = .ok q ∧
      ∃ r ∈ (System.run D w js xs).world.pools q, order.Describes r.facts := by
  obtain ⟨⟨i', c, op, a⟩, he, -, rfl⟩ := mem_callsOf.mp hx
  obtain ⟨ys, zs, -, rfl, -, hans⟩ := System.happened D w js he
  obtain rfl : a = (exec D op c (System.run D w js ys).world).1 := hans
  obtain ⟨q, hq, hshard, r, hr, hdescribes⟩ := read_describes D hread
  obtain ⟨r', hr', hfacts⟩ := (rows_kept D w js ys _).exists_of_mem hr
  exact ⟨q, hq, hshard, r', hr', by rwa [hfacts]⟩

/-- **Payment facts.**  Between any two states of a run every row is kept, with its facts, its
session and its payment intent; and every event that is published then states the facts of a row
that is there. -/
theorem payment_facts (hamounts : AmountsStored w.pools)
    (hstart : ∀ ev ∈ w.published, ∃ q < D.router.pools, ∃ r ∈ w.pools q, ev.States r.facts)
    (xs : List (Nat × Choice)) :
    (∀ ys zs, xs = ys ++ zs →
      RowsKept (System.run D w js ys).world.pools (System.run D w js xs).world.pools) ∧
    ∀ ev ∈ (System.run D w js xs).world.published,
      ∃ q < D.router.pools, ∃ r ∈ (System.run D w js xs).world.pools q, ev.States r.facts := by
  have hkept : ∀ ys zs, xs = ys ++ zs →
      RowsKept (System.run D w js ys).world.pools (System.run D w js xs).world.pools := by
    rintro ys zs rfl
    exact rows_kept D w js ys zs
  refine ⟨hkept, fun ev hev => ?_⟩
  rcases mem_published.mp hev with hev | ⟨i, hpublished⟩
  · obtain ⟨q, hq, r, hr, hstates⟩ := hstart ev hev
    obtain ⟨r', hr', hfacts⟩ := (hkept [] xs rfl).exists_of_mem hr
    exact ⟨q, hq, r', hr', by rwa [hfacts]⟩
  -- its job has read the order ...
  obtain ⟨j, t, k, -, hruns, ht⟩ := System.callsOf_runs D w js hpublished
  obtain ⟨order, ⟨hm, ho, ha, hc⟩, y, hy, hread⟩ := announces_read hruns
  -- ... from a row that is kept
  obtain ⟨q, hq, -, r', hr', hm', ho', ha', hc'⟩ := read_kept D w js (ht y hy) hread
  refine ⟨q, hq, r', hr', hm.trans hm', ho.trans ho', ?_, by rw [hc', hc]⟩
  rw [ha, ha']
  exact toInt_toInt64 (amountsStored_run D w js hamounts xs q r' hr')

end

/-! The tracker confirms a payment, and announces the order as it is stored. -/

def trackedOnce : System :=
  System.run (Deployment.sample .binary) World.onePayment [.track] (List.replicate 8 (0, .onChain))

theorem payment_facts_trackedOnce :
    AmountsStored World.onePayment.pools ∧ trackedOnce.world.published.length = 1 ∧
      ∀ ev ∈ trackedOnce.world.published, ∃ q < (Deployment.sample .binary).router.pools,
        ∃ r ∈ trackedOnce.world.pools q, ev.States r.facts := by
  have hamounts : AmountsStored World.onePayment.pools := by
    intro q r hr
    rw [List.mem_singleton.mp hr]
    decide
  refine ⟨hamounts, by decide +kernel, ?_⟩
  refine (payment_facts (Deployment.sample .binary) World.onePayment [.track] hamounts ?_ _).2
  intro ev hev
  cases hev

end EasyPay
