import EasyPay.Onchain.Recording

/-!
# Delivered payment events

A log may be delivered any number of times, by the WebSocket and by the backfill, and is
recorded once.  What tells two logs apart is their transaction hash, and nothing else: neither
the order a payment is for, nor the block it is in, nor what has become of the row.

* `deliveries_recorded_iff`: every event has its row in the end, if and only if no transaction
  pays two orders.
* `redelivered_iff`: an event is pending in its block after it was delivered, if and only if it
  had no row before or was pending there already.
-/

namespace EasyPay

open GoStrings Tables Ports

/-! ## Every event has its row -/

/-- Everything the listener was given to do is done. -/
def ListenerDone (js : List Job) (S : System) : Prop :=
  ∀ (i : Nat) (l : ListenerJob), js[i]? = some (.listen l) → ∃ r, S.procs[i]? = some (.ret r)

section
variable {D : Deployment} {w : World} {js : List Job} {xs : List (Nat × Choice)}

/-- A delivered event is recorded, under its hash at least. -/
theorem recorded_of_delivered (hworks : ∀ x ∈ xs, x.2.Works)
    (hdone : ListenerDone js (System.run D w js xs)) {cfg : ChainConfig} {lg : Log}
    {parsed : ParsedPaymentEvent} (hdel : System.WasDelivered js (System.run D w js xs) cfg lg)
    (hpays : w.Pays D lg parsed) (hfits : Storable cfg lg parsed) :
    (System.run D w js xs).world.Recorded D lg.txHash.hex := by
  obtain ⟨i, l, hi, hdel⟩ := hdel
  obtain ⟨r, hret⟩ := hdone i l hi
  have hhandled := handled_of_returned hworks hi hret hdel
  exact recorded_of_handled hhandled (.of_schedule hworks i) hpays fun _ _ _ => hfits

/-- **No event is dropped**, if and only if each can be stored, or another one with its hash and
its order can, and no other order is paid in its transaction. -/
theorem deliveries_recorded_iff (hC : D.collation.SeparatesHashes) (hempty : w.onchain = [])
    (hjs : ∀ j ∈ js, ∀ s inp, j ≠ .create s inp) (hworks : ∀ x ∈ xs, x.2.Works)
    (hdone : ListenerDone js (System.run D w js xs)) :
    (∀ cfg lg parsed, System.WasDelivered js (System.run D w js xs) cfg lg →
      w.Pays D lg parsed → ∃ r ∈ (System.run D w js xs).world.onchain,
        r.txHash = lg.txHash.hex ∧ r.orderID = parsed.orderID) ↔
    ∀ cfg lg parsed, System.WasDelivered js (System.run D w js xs) cfg lg → w.Pays D lg parsed →
      (∃ cfg' lg' parsed', System.WasDelivered js (System.run D w js xs) cfg' lg' ∧
        w.Pays D lg' parsed' ∧ Storable cfg' lg' parsed' ∧
        lg'.txHash = lg.txHash ∧ parsed'.orderID = parsed.orderID) ∧
      ∀ cfg' lg' parsed', System.WasDelivered js (System.run D w js xs) cfg' lg' →
        w.Pays D lg' parsed' → lg'.txHash = lg.txHash → parsed'.orderID = parsed.orderID := by
  constructor
  · intro h cfg lg parsed hdel hpays
    obtain ⟨r, hr, hhash, horder⟩ := h cfg lg parsed hdel hpays
    constructor
    · -- the row was made of some log, and that one could be stored
      rcases row_origin D w js xs r hr with ⟨r₀, hr₀, -⟩ | ⟨i, l, cfg', lg', hl, hdel', hrow⟩
      · rw [hempty] at hr₀
        cases hr₀
      · obtain ⟨hhash', parsed', order, hparse', horder', hfits, -⟩ := hrow
        have hsame : parsed'.orderID = parsed.orderID := horder'.symm.trans horder
        refine ⟨cfg', lg', parsed', ⟨i, l, hl, hdel'⟩, ⟨hparse', ?_⟩, hfits, ?_, hsame⟩
        · rw [hsame]
          exact hpays.2
        · exact Hash.hex_injective (hhash'.symm.trans hhash)
    · intro cfg' lg' parsed' hdel' hpays' heq
      obtain ⟨r', hr', hhash', horder'⟩ := h cfg' lg' parsed' hdel' hpays'
      have hdistinct : DistinctHashes (System.run D w js xs).world.onchain := by
        refine hashes_distinct D js xs ?_
        rw [hempty]
        intro x hx
        cases hx
      rw [heq] at hhash'
      obtain rfl := hdistinct r' hr' r hr (hhash'.trans hhash.symm)
      exact horder'.symm.trans horder
  · intro h cfg lg parsed hdel hpays
    obtain ⟨⟨cfg', lg', parsed', hdel', hpays', hfits, heq, -⟩, hone⟩ := h cfg lg parsed hdel hpays
    have hrec := recorded_of_delivered hworks hdone hdel' hpays' hfits
    rw [heq] at hrec
    refine row_of_recorded hC hrec ?_ ?_
    · intro r hr
      rw [hempty] at hr
      cases hr
    · rintro cfg'' lg'' parsed'' hdel'' heq'' hparse'' ⟨i, order, hfound⟩
      obtain ⟨hv, p, r, hp, -, hr, hreq, -⟩ := found_at_start hjs xs i _ order hfound
      exact hone cfg'' lg'' parsed'' hdel'' ⟨hparse'', hv, p, hp, r, hr, hreq⟩ heq''

end

/-! One transaction pays two orders.  The first event takes the hash, and the second is never
recorded, whoever delivers it. -/

def secondPayment : Log := .payment 1 100 (bytes "o-2") 100

/-- Both events arrive on the socket, and once more in a window of the backfill. -/
def bothDelivered : List (Nat × Choice) :=
  steps 0 4 ++ steps 1 1 ++ steps 2 1 ++
    [(2, { head := 112 }), (2, { logs := [firstPayment, secondPayment] })] ++ steps 2 3

def bothDeliveredRun : System :=
  System.run (Deployment.sample .asciiCI) World.twoOrders
    [.socket firstPayment, .socket secondPayment, .backfill] bothDelivered

theorem second_payment_dropped :
    bothDeliveredRun.world.onchain.map (fun r => (r.txHash, r.orderID)) =
        [((wordOf 1).hex, bytes "o-1")] ∧
      (parsePaymentEvent secondPayment).map ParsedPaymentEvent.orderID = .ok (bytes "o-2") ∧
      secondPayment.txHash = wordOf 1 ∧
      (Op.filterLogs (ChainConfig.sample.window 100 112)).gave
        (.ok [firstPayment, secondPayment]) ∈ callsOf 2 bothDeliveredRun.hist ∧
      bothDeliveredRun.procs.map Prog.result? =
        [some (.listened (some (.ok ()))), some (.listened (some (.ok ()))),
          some (.listened (some (.ok ())))] := by
  refine ⟨?_, ?_, rfl, ?_, ?_⟩
  · decide +kernel
  · decide +kernel
  · decide +kernel
  · decide +kernel

/-! Two transactions that pay an order each. -/

def apartRun : System :=
  System.run (Deployment.sample .asciiCI) World.twoOrders
    [.socket firstPayment, .socket otherPayment] (steps 0 4 ++ steps 1 4)

theorem delivered_apart {S : System} {cfg : ChainConfig} {lg : Log}
    (h : System.WasDelivered [.socket firstPayment, .socket otherPayment] S cfg lg) :
    cfg = ChainConfig.sample ∧ (lg = firstPayment ∨ lg = otherPayment) := by
  obtain ⟨i, l, hi, hdel⟩ := h
  match i, hi with
  | 0, hi =>
    cases hi
    cases hdel
    exact ⟨rfl, .inl rfl⟩
  | 1, hi =>
    cases hi
    cases hdel
    exact ⟨rfl, .inr rfl⟩

theorem apart_recorded :
    (∃ r ∈ apartRun.world.onchain, r.txHash = (wordOf 1).hex ∧ r.orderID = bytes "o-1") ∧
      ∃ r ∈ apartRun.world.onchain, r.txHash = (wordOf 2).hex ∧ r.orderID = bytes "o-2" := by
  have hjs : ∀ j ∈ [Job.socket firstPayment, .socket otherPayment], ∀ s inp, j ≠ .create s inp := by
    intro j hj s inp
    rcases List.mem_pair.mp hj with rfl | rfl
    · intro h
      cases h
    · intro h
      cases h
  have hworks : ∀ x ∈ steps 0 4 ++ steps 1 4, x.2.Works := by
    intro x hx
    rcases List.mem_append.mp hx with hx | hx
    · exact works_of_mem_steps hx
    · exact works_of_mem_steps hx
  have hdone : ListenerDone [.socket firstPayment, .socket otherPayment] apartRun := by
    intro i l hi
    match i, hi with
    | 0, _ => exact ⟨.listened (some (.ok ())), Prog.getElem?_of_result? (by decide +kernel)⟩
    | 1, _ => exact ⟨.listened (some (.ok ())), Prog.getElem?_of_result? (by decide +kernel)⟩
  have hall := (deliveries_recorded_iff Collation.asciiCI_separatesHashes rfl hjs hworks hdone).mpr (by
    intro cfg lg parsed hdel hpays
    obtain ⟨rfl, hlg⟩ := delivered_apart hdel
    refine ⟨⟨_, lg, parsed, hdel, hpays, storable_apart hlg hpays.1, rfl, rfl⟩, ?_⟩
    intro cfg' lg' parsed' hdel' hpays' heq
    obtain rfl := apart_of_hash hlg (delivered_apart hdel').2 heq
    cases hpays'.1.symm.trans hpays.1
    rfl)
  constructor
  · obtain ⟨parsed, hparse, horder⟩ := parse_firstPayment
    rw [← horder]
    exact hall _ firstPayment parsed ⟨0, _, rfl, .socket _ _ _⟩ (pays_apart (.inl rfl) hparse)
  · obtain ⟨parsed, hparse, horder⟩ := parse_otherPayment
    rw [← horder]
    exact hall _ otherPayment parsed ⟨1, _, rfl, .socket _ _ _⟩ (pays_apart (.inr rfl) hparse)

/-! ## Deliveries of one event -/

/-- The job delivers logs, and does nothing else. -/
def Delivers (j : Job) : Prop := ∃ l, j = .listen l ∧ ∀ r, l ≠ .recheck r

/-- The row is the fresh row of a delivered log, and nothing was recorded under its hash. -/
def FreshRow (D : Deployment) (w : World) (js : List Job) (S : System) (r : OnchainTransaction) :
    Prop :=
  r.status = .pending ∧ (∀ x ∈ w.onchain, D.collation.eq x.txHash r.txHash = false) ∧
    ∃ cfg lg, System.WasDelivered js S cfg lg ∧ r.txHash = lg.txHash.hex ∧
      r.blockNumber = lg.blockNumber

/-- The row was made of a delivered log and the order found for it, and nothing was recorded under
its hash. -/
def MadeRow (D : Deployment) (w : World) (js : List Job) (S : System) (r : OnchainTransaction) :
    Prop :=
  (∀ x ∈ w.onchain, D.collation.eq x.txHash r.txHash = false) ∧
    ∃ i l cfg lg parsed order, js[i]? = some (.listen l) ∧ Delivered l (callsOf i S.hist) cfg lg ∧
      parsePaymentEvent lg = .ok parsed ∧
      (Op.getByOrderIDAny parsed.orderID).gave (.ok order) ∈ callsOf i S.hist ∧
      r = newOnchainTx D.addressHex cfg lg parsed order

section
variable {D : Deployment} {w : World} {js : List Job}

theorem MadeRow.after {S : System} {r : OnchainTransaction} (h : MadeRow D w js S r) (i : Nat)
    (c : Choice) (o : Op) (k : o.Ans → Svc Outcome) : MadeRow D w js (S.after D i c o k) r := by
  obtain ⟨hnone, i', l, cfg, lg, parsed, order, hl, hdel, hparse, hfound, hr⟩ := h
  have hmono := System.callsOf_after_mono (D := D) (s := S) (i := i) (c := c) (o := o) (k := k) i'
  exact ⟨hnone, i', l, cfg, lg, parsed, order, hl, hdel.mono hmono, hparse, hmono _ hfound, hr⟩

theorem MadeRow.fresh {S : System} {r : OnchainTransaction} (h : MadeRow D w js S r) :
    FreshRow D w js S r := by
  obtain ⟨hnone, i, l, cfg, lg, parsed, order, hl, hdel, -, -, rfl⟩ := h
  exact ⟨rfl, hnone, cfg, lg, ⟨i, l, hl, hdel⟩, rfl, rfl⟩

variable (D w js) in
/-- The table has grown at its end, by rows with hashes of their own. -/
def Grown (S : System) : Prop :=
  ∃ rows, S.world.onchain = w.onchain ++ rows ∧ (rows.map OnchainTransaction.txHash).Nodup ∧
    ∀ r ∈ rows, MadeRow D w js S r

/-- One call. -/
theorem Grown.after {S : System} (h : Grown D w js S) {j : Job} {i : Nat} (hdeliver : Delivers j)
    (hj : js[i]? = some j) {o : Op} (hcall : JobCall D j (callsOf i S.hist) o) (c : Choice)
    (k : o.Ans → Svc Outcome) : Grown D w js (S.after D i c o k) := by
  obtain ⟨rows, hrows, hnodup, hmade⟩ := h
  have hmade' : ∀ r ∈ rows, MadeRow D w js (S.after D i c o k) r :=
    fun r hr => (hmade r hr).after i c o k
  rcases exec_onchain_cases D o c S.world with
    he | ⟨tx, rfl, -, -, hfresh, he⟩ | ⟨txHash, n, st, rfl, -, -⟩
  · exact ⟨rows, he.trans hrows, hnodup, hmade'⟩
  · obtain ⟨l, rfl, cfg, lg, parsed, order, rfl, hdel, hparse, hfound⟩ := hcall.create_inv
    rw [storedTx_newOnchainTx, hrows, List.append_assoc] at he
    rw [hrows] at hfresh
    refine ⟨_, he, nodup_map_concat hnodup fun r hr heq => ?_, fun r hr => ?_⟩
    · have hno := hfresh r (List.mem_append_right _ hr)
      rw [heq, D.collation.refl] at hno
      cases hno
    · rcases List.mem_append.mp hr with hr | hr
      · exact hmade' r hr
      · rw [List.mem_singleton.mp hr]
        have hmono := System.callsOf_after_mono (D := D) (s := S) (i := i) (c := c)
          (o := .createOnchainTx (newOnchainTx D.addressHex cfg lg parsed order)) (k := k) i
        exact ⟨fun x hx => hfresh x (List.mem_append_left _ hx), i, l, cfg, lg, parsed, order, hj,
          hdel.mono hmono, hparse, hmono _ hfound, rfl⟩
  · -- the reconciler alone changes a row
    obtain ⟨l, rfl, hl⟩ := hdeliver
    cases hcall with
    | listen hcall =>
      cases hcall with
      | gone _ hr _ => exact absurd hr (hl _)
      | failed _ hr _ => exact absurd hr (hl _)

/-- **While logs are delivered**, in every state of every run. -/
theorem deliveries_rows (hjs : ∀ j ∈ js, Delivers j) (xs : List (Nat × Choice)) :
    Grown D w js (System.run D w js xs) := by
  refine System.invariant D w js (Q := Grown D w js) ?_ ?_ xs
  · exact ⟨[], (List.append_nil _).symm, List.nodup_nil, fun r hr => by cases hr⟩
  · intro S i c o k j h hj hcall
    exact h.after (hjs j (List.mem_of_getElem? hj)) hj hcall c k

/-- So the rows stay as they are, and fresh ones come. -/
theorem deliveries_append (hjs : ∀ j ∈ js, Delivers j) (xs : List (Nat × Choice)) :
    (∀ r ∈ w.onchain, r ∈ (System.run D w js xs).world.onchain) ∧
      ∀ r ∈ (System.run D w js xs).world.onchain,
        r ∈ w.onchain ∨ FreshRow D w js (System.run D w js xs) r := by
  obtain ⟨rows, hrows, -, hmade⟩ := deliveries_rows (D := D) (w := w) hjs xs
  rw [hrows]
  refine ⟨fun r hr => List.mem_append_left _ hr, fun r hr => ?_⟩
  rcases List.mem_append.mp hr with hr | hr
  · exact .inl hr
  · exact .inr (hmade r hr).fresh

/-- The log's transaction is pending, in the log's block. -/
def World.AwaitsConfirmation (w : World) (lg : Log) : Prop :=
  ∃ r ∈ w.onchain, r.txHash = lg.txHash.hex ∧ r.blockNumber = lg.blockNumber ∧ r.status = .pending

/-- **After a delivery** the payment is pending in the block of its log, if and only if it had no
row before the delivery, or was pending in that block already.  The world before the delivery is
that of any state of any run; the same transaction may be delivered again any number of times
meanwhile. -/
theorem redelivered_iff {w₀ : World} {js₀ : List Job} {ys xs : List (Nat × Choice)} {i : Nat}
    {l : ListenerJob} {r : Outcome} {cfg : ChainConfig} {lg : Log} {parsed : ParsedPaymentEvent}
    (hC : D.collation.SeparatesHashes) (hempty : w₀.onchain = [])
    (hw : w = (System.run D w₀ js₀ ys).world) (hjs : ∀ j ∈ js, Delivers j)
    (hworks : ∀ x ∈ xs, x.2.Works) (hi : js[i]? = some (.listen l))
    (hret : (System.run D w js xs).procs[i]? = some (.ret r))
    (hdel : Delivered l (callsOf i (System.run D w js xs).hist) cfg lg)
    (hpays : w.Pays D lg parsed) (hfits : Storable cfg lg parsed)
    (hblock : ∀ cfg' lg', System.WasDelivered js (System.run D w js xs) cfg' lg' →
      lg'.txHash = lg.txHash → lg'.blockNumber = lg.blockNumber) :
    (System.run D w js xs).world.AwaitsConfirmation lg ↔
      (∀ r ∈ w.onchain, r.txHash ≠ lg.txHash.hex) ∨ w.AwaitsConfirmation lg := by
  obtain ⟨hkept, hrows⟩ := deliveries_append (D := D) (w := w) hjs xs
  constructor
  · rintro ⟨r, hr, hhash, hrest⟩
    rcases hrows r hr with hr | ⟨-, hnone, -⟩
    · exact .inr ⟨r, hr, hhash, hrest⟩
    · left
      intro x hx hxhash
      have hno := hnone x hx
      rw [hxhash, hhash, D.collation.refl] at hno
      cases hno
  · rintro (hnone | ⟨r, hr, hrest⟩)
    · have hhandled := handled_of_returned hworks hi hret hdel
      obtain ⟨r, hr, heq⟩ :=
        recorded_of_handled hhandled (.of_schedule hworks i) hpays fun _ _ _ => hfits
      refine ⟨r, hr, ?_⟩
      rcases hrows r hr with hold | ⟨hpending, -, cfg', lg', hdel', hhash, hrblock⟩
      · -- a row from before has the text of a hash, and so this very one
        subst hw
        rcases row_origin D w₀ js₀ ys r hold with ⟨r₀, hr₀, -⟩ | ⟨i', l', cfg', lg', -, -, hhash, -⟩
        · rw [hempty] at hr₀
          cases hr₀
        · rw [hhash] at heq
          rw [hC _ _ heq] at hhash
          exact absurd hhash (hnone r hold)
      · rw [hhash] at heq
        have hsame : lg'.txHash = lg.txHash := hC _ _ heq
        rw [hhash, hsame, hrblock, hblock cfg' lg' hdel' hsame]
        exact ⟨rfl, rfl, hpending⟩
    · exact ⟨r, hkept r hr, hrest⟩

end

/-! A payment is recorded in block 100, and found to be gone.  Its transaction is then mined in
block 105; delivered by the socket and by the backfill, it stays given up, and the next tick of
the tracker does not see it. -/

def minedAgain : Log := .payment 1 105 (bytes "o-1") 100

def reorganised : List (Nat × Choice) :=
  steps 0 4 ++ [(1, { head := 104 })] ++ steps 1 3

def redelivered : List (Nat × Choice) :=
  steps 2 1 ++ steps 3 1 ++ [(3, { head := 130 }), (3, { logs := [minedAgain] })] ++ steps 3 2 ++
    [(4, { head := 130 }), (4, { receipt := some ⟨1, 105⟩ })]

/-- The state after a schedule of these jobs. -/
def reorgRun (xs : List (Nat × Choice)) : System :=
  System.run (Deployment.sample .asciiCI) World.oneOrder
    [.socket firstPayment, .track, .socket minedAgain, .backfill, .track] xs

theorem mined_again_not_credited :
    (reorgRun reorganised).world.onchain.map (fun r => (r.txHash, r.blockNumber, r.status)) =
        [((wordOf 1).hex, 100, .reorged)] ∧
      (reorgRun (reorganised ++ redelivered)).world.onchain.map
          (fun r => (r.txHash, r.blockNumber, r.status)) = [((wordOf 1).hex, 100, .reorged)] ∧
      (reorgRun (reorganised ++ redelivered)).procs.map Prog.result? =
        [some (.listened (some (.ok ()))), some (.confirmed (.ok ())),
          some (.listened (some (.ok ()))), some (.listened (some (.ok ()))),
          some (.confirmed (.ok ()))] ∧
      (Op.filterLogs (ChainConfig.sample.window 100 130)).gave (.ok [minedAgain]) ∈
        callsOf 3 (reorgRun (reorganised ++ redelivered)).hist ∧
      ((reorgRun (reorganised ++ redelivered)).world.pools 0).map Row.status = [statusPending] := by
  refine ⟨?_, ?_, ?_, ?_, ?_⟩
  · decide +kernel
  · decide +kernel
  · decide +kernel
  · decide +kernel
  · decide +kernel

/-! A payment that is still pending is delivered once more. -/

def onceRun : System :=
  System.run (Deployment.sample .asciiCI) World.oneOrder [.socket firstPayment] (steps 0 4)

def twiceRun : System :=
  System.run (Deployment.sample .asciiCI) onceRun.world [.socket firstPayment] (steps 0 1)

theorem delivered_twice_awaits : twiceRun.world.AwaitsConfirmation firstPayment := by
  have hjs : ∀ j ∈ [Job.socket firstPayment], Delivers j := by
    intro j hj
    refine ⟨_, List.mem_singleton.mp hj, fun r hr => ?_⟩
    cases hr
  have hret : twiceRun.procs[0]? = some (.ret (.listened (some (.ok ())))) :=
    Prog.getElem?_of_result? (by decide +kernel)
  obtain ⟨parsed, hparse, horder⟩ := parse_firstPayment
  have hpays : onceRun.world.Pays (Deployment.sample .asciiCI) firstPayment parsed := by
    refine ⟨hparse, ?_⟩
    rw [horder]
    exact ⟨by decide, 0, by decide, Row.sample, by decide +kernel, by decide⟩
  have hblock : ∀ cfg' lg', System.WasDelivered [.socket firstPayment] twiceRun cfg' lg' →
      lg'.txHash = firstPayment.txHash → lg'.blockNumber = firstPayment.blockNumber := by
    rintro cfg' lg' ⟨i, l, hi, hdel⟩ -
    match i, hi with
    | 0, hi =>
      cases hi
      cases hdel
      rfl
  have hpending : onceRun.world.AwaitsConfirmation firstPayment :=
    ⟨(onceRun.world.onchain).headD .sample, by decide +kernel, by decide +kernel,
      by decide +kernel, by decide +kernel⟩
  exact (redelivered_iff Collation.asciiCI_separatesHashes rfl rfl hjs
    (fun x hx => works_of_mem_steps hx) rfl hret (.socket _ _ _) hpays
    (storable_apart (.inl rfl) hparse) hblock).mpr (.inr hpending)

end EasyPay
