import EasyPay.Onchain.Backfill
import EasyPay.Onchain.Delivery

/-!
# The subscriber and the backfill scanner agree

`handleLog` and `persist` are written apart.  Both look the transaction hash up, parse the log, look
its order up and insert a row.

* `World.dueRow`: the row a log is due, by the tables alone.
* `handleLog_table`, `persist_table`: alone with a log, each of them leaves the table with that row.
* `rows_due`: so do both together, for any logs and in any interleaving.
* `listeners_agree`: the two results in one.
-/

namespace EasyPay

open GoStrings Tables Ports

/-! ## The row a log is due -/

/-- The orders that a lookup of an id can find are of one merchant. -/
def World.Unshared (D : Deployment) (w : World) : Prop :=
  ∀ orderID, ∀ p < D.router.pools, ∀ r ∈ w.pools p, ∀ q < D.router.pools, ∀ r' ∈ w.pools q,
    D.collation.eq r.orderID orderID = true → D.collation.eq r'.orderID orderID = true →
    r.merchantID = r'.merchantID

/-- A lookup of the id has found `order`, as far as its merchant goes. -/
def World.Finds (D : Deployment) (w : World) (orderID : Str) (order : Transaction) : Prop :=
  ValidOrderID orderID ∧ ∃ p < D.router.pools, ∃ r ∈ w.pools p,
    D.collation.eq r.orderID orderID = true ∧ order.merchantID = r.merchantID

/-- The row of a log whose hash is not known, that can be parsed and that names an order. -/
def World.dueRow (D : Deployment) (w : World) (cfg : ChainConfig) (lg : Log) :
    Option OnchainTransaction :=
  if w.onchain.any fun r => D.collation.eq r.txHash lg.txHash.hex then none
  else
    match parsePaymentEvent lg with
    | .error _ => none
    | .ok parsed =>
      -- the pools answer in their order, each with its first row
      match D.getByOrderIDAny (fun _ => none) (fun _ => 0) [] parsed.orderID w.pools with
      | .error _ => none
      | .ok order => some (newOnchainTx D.addressHex cfg lg parsed order)

section
variable {D : Deployment} {w : World} {cfg : ChainConfig} {lg : Log} {parsed : ParsedPaymentEvent}

theorem finds_of_lookup {faults : Nat → Option Fault} {pick : Nat → Nat} {arrival : List Nat}
    {o : Str} {order : Transaction}
    (h : D.getByOrderIDAny faults pick arrival o w.pools = .ok order) : w.Finds D o order := by
  obtain ⟨hv, p, r, t', x, hp, hr, heq, hscan, rfl, -⟩ := D.getByOrderIDAny_ok h
  obtain ⟨hm, -⟩ := TransactionRepo.scanTransaction_ok hscan
  exact ⟨hv, p, hp, r, hr, heq, hm⟩

theorem World.Finds.known {o : Str} {order : Transaction} (h : w.Finds D o order) :
    w.KnowsOrder D o := by
  obtain ⟨hv, p, hp, r, hr, heq, -⟩ := h
  exact ⟨hv, p, hp, r, hr, heq⟩

theorem World.Unshared.merchantID_eq {o : Str} {order order' : Transaction} (h : w.Unshared D)
    (hf : w.Finds D o order) (hf' : w.Finds D o order') : order.merchantID = order'.merchantID := by
  obtain ⟨-, p, hp, r, hr, heq, hm⟩ := hf
  obtain ⟨-, q, hq, r', hr', heq', hm'⟩ := hf'
  rw [hm, hm']
  exact h o p hp r hr q hq r' hr' heq heq'

theorem newOnchainTx_eq_of_merchantID {order order' : Transaction}
    (h : order.merchantID = order'.merchantID) :
    newOnchainTx D.addressHex cfg lg parsed order = newOnchainTx D.addressHex cfg lg parsed order' := by
  unfold newOnchainTx
  rw [h]

theorem any_eq_recorded {txHash : Str} :
    (w.onchain.any fun r => D.collation.eq r.txHash txHash) = true ↔ w.Recorded D txHash :=
  List.any_eq_true

/-- Only a payment of an order that is there is due a row, once. -/
theorem pays_of_dueRow {r : OnchainTransaction} (h : w.dueRow D cfg lg = some r) :
    ¬ w.Recorded D lg.txHash.hex ∧ r.txHash = lg.txHash.hex ∧ ∃ parsed, w.Pays D lg parsed := by
  unfold World.dueRow at h
  split at h
  · cases h
  next hnone =>
  rw [any_eq_recorded] at hnone
  split at h
  · cases h
  next parsed hparse =>
  split at h
  · cases h
  next order hfound =>
  cases h
  exact ⟨hnone, rfl, parsed, hparse, (finds_of_lookup hfound).known⟩

theorem dueRow_eq_none (h : ∀ parsed, w.Pays D lg parsed → w.Recorded D lg.txHash.hex) :
    w.dueRow D cfg lg = none := by
  cases hdue : w.dueRow D cfg lg with
  | none => rfl
  | some r =>
    obtain ⟨hnone, -, parsed, hpays⟩ := pays_of_dueRow hdue
    exact absurd (h parsed hpays) hnone

/-- Whichever order a lookup finds, the row is the same. -/
theorem World.Unshared.dueRow {order : Transaction} (h : w.Unshared D)
    (hnone : ¬ w.Recorded D lg.txHash.hex) (hparse : parsePaymentEvent lg = .ok parsed)
    (hfound : w.Finds D parsed.orderID order) :
    w.dueRow D cfg lg = some (newOnchainTx D.addressHex cfg lg parsed order) := by
  obtain ⟨hv, p, hp, r, hr, heq⟩ := hfound.known
  obtain ⟨order', hfirst⟩ :=
    D.exists_getByOrderIDAny (fun _ => rfl) (fun _ => 0) [] hv hp hr heq
  unfold World.dueRow
  rw [if_neg (by rwa [any_eq_recorded]), hparse]
  simp only [hfirst]
  rw [newOnchainTx_eq_of_merchantID (h.merchantID_eq (finds_of_lookup hfirst) hfound)]

/-! ## One log -/

/-- The table after one log: its row is there if it fits the columns. -/
def World.tableWith (D : Deployment) (w : World) (cfg : ChainConfig) (lg : Log) :
    List OnchainTransaction :=
  match w.dueRow D cfg lg with
  | none => w.onchain
  | some r => if outOfRangeColumn r = none then w.onchain ++ [r] else w.onchain

theorem tableWith_eq_onchain (h : ∀ parsed, w.Pays D lg parsed → w.Recorded D lg.txHash.hex) :
    w.tableWith D cfg lg = w.onchain := by
  unfold World.tableWith
  rw [dueRow_eq_none h]

variable (D w) in
/-- A lookup of a hash that works tells whether it is there, and changes nothing. -/
theorem lookup_works {c : Choice} (hc : c.Works) (txHash : Str) :
    (∃ r, (exec D (.getByTxHash txHash) c w).1 = .ok r ∧ w.Recorded D txHash) ∨
    ((exec D (.getByTxHash txHash) c w).1 = .error (.of .onchainTxNotFound) ∧
      ¬ w.Recorded D txHash) := by
  show (∃ r, getByTxHash D.collation c.fault txHash w.onchain = .ok r ∧ _) ∨
    (getByTxHash D.collation c.fault txHash w.onchain = _ ∧ _)
  rcases getByTxHash_cases D.collation c.fault txHash w.onchain with
    ⟨t, ht, heq, he⟩ | ⟨-, hnone, he⟩ | ⟨f, hf, -⟩
  · exact .inl ⟨t, he, t, ht, heq⟩
  · refine .inr ⟨he, ?_⟩
    rintro ⟨r, hr, heq⟩
    rw [hnone r hr] at heq
    cases heq
  · cases hc.1.symm.trans hf

variable (D w) in
theorem order_works {c : Choice} (hc : c.Works) (orderID : Str) :
    (∃ order, (exec D (.getByOrderIDAny orderID) c w).1 = .ok order ∧ w.Finds D orderID order) ∨
    (∃ e, (exec D (.getByOrderIDAny orderID) c w).1 = .error e ∧ ¬ w.KnowsOrder D orderID) := by
  cases hans : (exec D (.getByOrderIDAny orderID) c w).1 with
  | ok order => exact .inl ⟨order, rfl, finds_of_lookup hans⟩
  | error e => exact .inr ⟨e, rfl, not_known_of_lookup hc.2 hans⟩

theorem create_works {c : Choice} {order : Transaction} (h : w.Unshared D) (hc : c.Works)
    (hnone : ¬ w.Recorded D lg.txHash.hex) (hparse : parsePaymentEvent lg = .ok parsed)
    (hfound : w.Finds D parsed.orderID order) :
    (exec D (.createOnchainTx (newOnchainTx D.addressHex cfg lg parsed order)) c w).2.onchain =
      w.tableWith D cfg lg := by
  show (createOnchainTx D.collation c.fault _ w.onchain).2 = _
  unfold World.tableWith
  rw [h.dueRow hnone hparse hfound]
  rcases createOnchainTx_cases D.collation c.fault (newOnchainTx D.addressHex cfg lg parsed order)
    w.onchain with ⟨-, hcol, -, he⟩ | ⟨-, -, htaken, -⟩ | ⟨hno, e, he⟩
  · rw [he, storedTx_newOnchainTx]
    exact (if_pos hcol).symm
  · exact absurd htaken hnone
  · -- a number out of the range of its column
    have hcol : outOfRangeColumn (newOnchainTx D.addressHex cfg lg parsed order) ≠ none :=
      hno.resolve_left fun hfault => hfault hc.1
    rw [he]
    exact (if_neg hcol).symm

variable (D) in
/-- The program leaves the table alone. -/
def Quiet {α : Type} (p : Svc α) : Prop :=
  ∀ w a w', Prog.Executes (exec D) (fun _ c => c.Works) p w a w' → w'.onchain = w.onchain

theorem quiet_ret {α : Type} (a : α) : Quiet D (.ret a) := by
  intro w a' w' hrun
  obtain ⟨-, rfl⟩ := Prog.executes_ret hrun
  rfl

theorem quiet_cursorSet {α : Type} (chainID : Int64) (block : UInt64) (a : α) :
    Quiet D (Svc.ask (.cursorSet chainID block) >>= fun _ => .ret a) := by
  intro w a' w' hrun
  obtain ⟨c, -, hrun⟩ := Svc.executes_ask hrun
  obtain ⟨-, rfl⟩ := Prog.executes_ret hrun
  rcases exec_onchain_cases D (.cursorSet chainID block) c w with he | ⟨tx, ho, -⟩ | ⟨h, n, st, ho, -⟩
  · exact he
  · cases ho
  · cases ho

/-- First the hash is looked up. -/
theorem lookup_table {α : Type} {k : Res OnchainTransaction → Svc α} {a : α} {w' : World}
    (hrun : Prog.Executes (exec D) (fun _ c => c.Works)
      (Svc.ask (.getByTxHash lg.txHash.hex) >>= k) w a w')
    (hknown : ∀ row, Quiet D (k (.ok row)))
    (hunknown : ¬ w.Recorded D lg.txHash.hex → Prog.Executes (exec D) (fun _ c => c.Works)
      (k (.error (.of .onchainTxNotFound))) w a w' → w'.onchain = w.tableWith D cfg lg) :
    w'.onchain = w.tableWith D cfg lg := by
  obtain ⟨c, hc, hrun⟩ := Svc.executes_ask hrun
  rw [show (exec D (.getByTxHash lg.txHash.hex) c w).2 = w from rfl] at hrun
  rcases lookup_works D w hc lg.txHash.hex with ⟨row, hans, hrec⟩ | ⟨hans, hnone⟩
  · rw [hans] at hrun
    rw [tableWith_eq_onchain fun _ _ => hrec]
    exact hknown row w a w' hrun
  · rw [hans] at hrun
    exact hunknown hnone hrun

theorem malformed_table {α : Type} {p : Svc α} {a : α} {w' : World} {e : Err}
    (hrun : Prog.Executes (exec D) (fun _ c => c.Works) p w a w') (hp : Quiet D p)
    (hparse : parsePaymentEvent lg = .error e) : w'.onchain = w.tableWith D cfg lg := by
  rw [tableWith_eq_onchain fun parsed hpays => by cases hparse.symm.trans hpays.1]
  exact hp w a w' hrun

/-- Then the order is, and the row is inserted. -/
theorem resolve_table {α : Type} {k : Res Transaction → Svc α} {a : α} {w' : World}
    (hrun : Prog.Executes (exec D) (fun _ c => c.Works)
      (Svc.ask (.getByOrderIDAny parsed.orderID) >>= k) w a w')
    (h : w.Unshared D) (hnone : ¬ w.Recorded D lg.txHash.hex)
    (hparse : parsePaymentEvent lg = .ok parsed) (hdropped : ∀ e, Quiet D (k (.error e)))
    (hfound : ∀ order, ∃ k', (∀ b, Quiet D (k' b)) ∧ k (.ok order) =
      Svc.ask (.createOnchainTx (newOnchainTx D.addressHex cfg lg parsed order)) >>= k') :
    w'.onchain = w.tableWith D cfg lg := by
  obtain ⟨c, hc, hrun⟩ := Svc.executes_ask hrun
  rw [show (exec D (.getByOrderIDAny parsed.orderID) c w).2 = w from rfl] at hrun
  rcases order_works D w hc parsed.orderID with ⟨order, hans, hfinds⟩ | ⟨e, hans, hunknown⟩
  · obtain ⟨k', hafter, hk⟩ := hfound order
    rw [hans, hk] at hrun
    obtain ⟨c', hc', hrun⟩ := Svc.executes_ask hrun
    rw [← create_works h hc' hnone hparse hfinds]
    exact hafter _ _ a w' hrun
  · rw [hans] at hrun
    have hnot : ∀ parsed', w.Pays D lg parsed' → w.Recorded D lg.txHash.hex := by
      rintro parsed' ⟨hparse', hknown⟩
      cases hparse.symm.trans hparse'
      exact absurd hknown hunknown
    rw [tableWith_eq_onchain hnot]
    exact hdropped e w a w' hrun

/-- **The subscriber**, alone with a log. -/
theorem handleLog_table {s : Subscriber} {r : Res Unit} {w' : World} (h : w.Unshared D)
    (hrun : Prog.Executes (exec D) (fun _ c => c.Works) (s.handleLog D.addressHex lg) w r w') :
    w'.onchain = w.tableWith D s.cfg lg := by
  unfold Subscriber.handleLog at hrun
  refine lookup_table hrun (fun row => quiet_ret _) fun hnone hrun => ?_
  simp only at hrun
  rw [if_pos (by decide)] at hrun
  cases hparse : parsePaymentEvent lg with
  | error e =>
    rw [hparse] at hrun
    exact malformed_table hrun (quiet_ret _) hparse
  | ok parsed =>
    rw [hparse] at hrun
    refine resolve_table hrun h hnone hparse (fun e => ?_) fun order => ⟨_, fun a => ?_, rfl⟩
    · simp only
      split
      · exact quiet_ret _
      · exact quiet_ret _
    · cases a with
      | error e => exact quiet_ret _
      | ok _ => exact quiet_cursorSet _ _ _

/-- **The backfill scanner**, alone with a log. -/
theorem persist_table {b : BackfillScanner} {u : Unit} {w' : World} (h : w.Unshared D)
    (hrun : Prog.Executes (exec D) (fun _ c => c.Works) (b.persist D.addressHex lg) w u w') :
    w'.onchain = w.tableWith D b.cfg lg := by
  unfold BackfillScanner.persist at hrun
  refine lookup_table hrun (fun row => quiet_ret _) fun hnone hrun => ?_
  simp only at hrun
  cases hparse : parsePaymentEvent lg with
  | error e =>
    rw [hparse] at hrun
    exact malformed_table hrun (quiet_ret _) hparse
  | ok parsed =>
    rw [hparse] at hrun
    exact resolve_table hrun h hnone hparse (fun e => quiet_ret _) fun order =>
      ⟨_, fun a => quiet_ret _, rfl⟩

end

/-! ## All logs, in any interleaving -/

/-- A run of the two, with one configuration, over the logs: no call fails, and all is done. -/
structure Recording (D : Deployment) (w : World) (js : List Job) (xs : List (Nat × Choice))
    (cfg : ChainConfig) (logs : List Log) : Prop where
  jobs : ∀ j ∈ js, Delivers j
  done : ListenerDone js (System.run D w js xs)
  /-- Each log is delivered at least once, and no other is. -/
  delivered : ∀ cfg' lg,
    System.WasDelivered js (System.run D w js xs) cfg' lg ↔ cfg' = cfg ∧ lg ∈ logs
  works : ∀ x ∈ xs, x.2.Works
  /-- An insert is refused only if its hash is taken. -/
  inserts : ∀ i tx e,
    (Op.createOnchainTx tx).gave (.error e) ∈ callsOf i (System.run D w js xs).hist →
    e = .wrap (bytes "insert onchain_tx: ") (.new duplicateTxHash)

section
variable {D : Deployment} {w : World} {js : List Job} {xs : List (Nat × Choice)} {cfg : ChainConfig}
  {logs : List Log}

/-- What was inserted, or found its hash taken, fits the columns. -/
theorem Recording.fits (h : Recording D w js xs cfg logs) {i : Nat} {tx : OnchainTransaction}
    {a : Res Unit} (hmem : (Op.createOnchainTx tx).gave a ∈ callsOf i (System.run D w js xs).hist) :
    outOfRangeColumn tx = none := by
  obtain ⟨ev, hev, -, -, w', hans⟩ := System.answered_of_mem D w js hmem
  have hw := h.works _ (System.mem_schedule D w js hev)
  have hans : a = (createOnchainTx D.collation ev.choice.fault tx w'.onchain).1 := hans
  rw [hw.1] at hans
  have htaken : ∀ e, (createOnchainTx D.collation none tx w'.onchain).1 = .error e →
      e = .wrap (bytes "insert onchain_tx: ") (.new duplicateTxHash) := by
    intro e he
    rw [hans.trans he] at hmem
    exact h.inserts i tx e hmem
  exact outOfRangeColumn_of_taken htaken

/-- A log that is due a row is recorded. -/
theorem Recording.recorded (h : Recording D w js xs cfg logs) {lg : Log} (hlg : lg ∈ logs)
    {parsed : ParsedPaymentEvent} (hpays : w.Pays D lg parsed) :
    (System.run D w js xs).world.Recorded D lg.txHash.hex := by
  obtain ⟨i, l, hi, hdel⟩ := (h.delivered cfg lg).mpr ⟨rfl, hlg⟩
  obtain ⟨r, hret⟩ := h.done i l hi
  have hhandled := handled_of_returned h.works hi hret hdel
  refine recorded_of_handled hhandled (.of_schedule h.works i) hpays fun order a ha => ?_
  exact outOfRangeColumn_newOnchainTx.mp (h.fits ha)

/-- A row that was made is the one its log is due. -/
theorem Recording.dueRow_of_made (h : Recording D w js xs cfg logs) (hshared : w.Unshared D)
    {r : OnchainTransaction} (hmade : MadeRow D w js (System.run D w js xs) r) :
    ∃ lg ∈ logs, w.dueRow D cfg lg = some r := by
  obtain ⟨hnone, i, l, cfg', lg, parsed, order, hl, hdel, hparse, hfound, rfl⟩ := hmade
  obtain ⟨rfl, hlg⟩ := (h.delivered cfg' lg).mp ⟨i, l, hl, hdel⟩
  refine ⟨lg, hlg, hshared.dueRow ?_ hparse ?_⟩
  · rintro ⟨x, hx, heq⟩
    have hno := hnone x hx
    rw [show (newOnchainTx D.addressHex cfg' lg parsed order).txHash = lg.txHash.hex from rfl, heq]
      at hno
    cases hno
  · have hjs : ∀ j ∈ js, ∀ s inp, j ≠ .create s inp := by
      rintro j hj s inp rfl
      obtain ⟨l', hl', -⟩ := h.jobs _ hj
      cases hl'
    obtain ⟨hv, p, row, hp, -, hrow, heq, hm, -⟩ := found_at_start hjs xs i _ order hfound
    exact ⟨hv, p, hp, row, hrow, heq, hm⟩

/-- No two rows are due under one hash. -/
theorem nodup_dueRows (hlogs : (logs.map Log.txHash).Nodup) :
    (logs.filterMap (w.dueRow D cfg)).Nodup := by
  have hapart : logs.Pairwise fun lg lg' => lg.txHash ≠ lg'.txHash := List.pairwise_map.mp hlogs
  refine hapart.filterMap _ fun lg lg' hne r hr r' hr' heq => ?_
  obtain ⟨-, hhash, -⟩ := pays_of_dueRow hr
  obtain ⟨-, hhash', -⟩ := pays_of_dueRow hr'
  rw [heq] at hhash
  exact hne (Hash.hex_injective (hhash.symm.trans hhash'))

/-- **The rows of a run** are those its logs are due. -/
theorem rows_due (h : Recording D w js xs cfg logs) (hshared : w.Unshared D)
    (hC : D.collation.SeparatesHashes) (hlogs : (logs.map Log.txHash).Nodup) :
    ∃ rows, (System.run D w js xs).world.onchain = w.onchain ++ rows ∧
      rows.Perm (logs.filterMap (w.dueRow D cfg)) := by
  obtain ⟨rows, hrows, hnodup, hmade⟩ := deliveries_rows (D := D) (w := w) h.jobs xs
  refine ⟨rows, hrows, ?_⟩
  rw [List.perm_ext_iff_of_nodup (List.Nodup.of_map _ hnodup) (nodup_dueRows hlogs)]
  intro r
  rw [List.mem_filterMap]
  constructor
  · exact fun hr => h.dueRow_of_made hshared (hmade r hr)
  · rintro ⟨lg, hlg, hdue⟩
    obtain ⟨hnone, -, parsed, hpays⟩ := pays_of_dueRow hdue
    -- the row recorded under its hash is new, and made of this very log
    obtain ⟨x, hx, heq⟩ := h.recorded hlg hpays
    rw [hrows] at hx
    rcases List.mem_append.mp hx with hx | hx
    · exact absurd ⟨x, hx, heq⟩ hnone
    · obtain ⟨lg', hlg', hdue'⟩ := h.dueRow_of_made hshared (hmade x hx)
      obtain ⟨-, hhash, -⟩ := pays_of_dueRow hdue'
      rw [hhash] at heq
      obtain rfl := List.inj_on_of_nodup_map hlogs hlg' hlg (hC _ _ heq)
      cases hdue'.symm.trans hdue
      exact hx

/-- **The subscriber and the scanner record the same**, if no order id is shared between merchants
and nothing fails: one log leaves the same table with either, and any logs with hashes of their own
leave, in any interleaving of both, the rows they are due. -/
theorem listeners_agree (hshared : w.Unshared D) :
    (∀ (s : Subscriber) (b : BackfillScanner) lg r u w₁ w₂, s.cfg = cfg → b.cfg = cfg →
      Prog.Executes (exec D) (fun _ c => c.Works) (s.handleLog D.addressHex lg) w r w₁ →
      Prog.Executes (exec D) (fun _ c => c.Works) (b.persist D.addressHex lg) w u w₂ →
      w₁.onchain = w₂.onchain) ∧
    ∀ logs js xs, D.collation.SeparatesHashes → (logs.map Log.txHash).Nodup →
      Recording D w js xs cfg logs →
      ∃ rows, (System.run D w js xs).world.onchain = w.onchain ++ rows ∧
        rows.Perm (logs.filterMap (w.dueRow D cfg)) := by
  constructor
  · intro s b lg r u w₁ w₂ hs hb hlog hpersist
    rw [handleLog_table hshared hlog, persist_table hshared hpersist, hs, hb]
  · exact fun logs js xs hC hlogs h => rows_due h hshared hC hlogs

/-- The inserts of a run are refused for a taken hash only, if the delivered logs fit the columns. -/
theorem inserts_of_storable (hworks : ∀ x ∈ xs, x.2.Works)
    (hfits : ∀ cfg lg parsed, System.WasDelivered js (System.run D w js xs) cfg lg →
      parsePaymentEvent lg = .ok parsed → Storable cfg lg parsed) (i : Nat) (tx : OnchainTransaction)
    (e : Err) (hmem : (Op.createOnchainTx tx).gave (.error e) ∈ callsOf i (System.run D w js xs).hist) :
    e = .wrap (bytes "insert onchain_tx: ") (.new duplicateTxHash) := by
  obtain ⟨j, t, k, hj, hruns, ht⟩ := System.callsOf_runs D w js hmem
  obtain ⟨l, rfl, cfg, lg, parsed, order, rfl, hdel, hparse, -⟩ := (Job.next hruns).create_inv
  have hstorable := hfits cfg lg parsed ⟨i, l, hj, hdel.mono ht⟩ hparse
  obtain ⟨ev, hev, -, -, w', hans⟩ := System.answered_of_mem D w js hmem
  have hw := hworks _ (System.mem_schedule D w js hev)
  have hans : .error e = (createOnchainTx D.collation ev.choice.fault _ w'.onchain).1 := hans
  rcases createOnchainTx_cases D.collation ev.choice.fault
    (newOnchainTx D.addressHex cfg lg parsed order) w'.onchain with
    ⟨-, -, -, he⟩ | ⟨-, -, -, he⟩ | ⟨hno, -⟩
  · rw [he] at hans
    cases hans
  · rw [he] at hans
    exact Except.error.inj hans
  · rcases hno with hfault | hrange
    · exact absurd hw.1 hfault
    · exact absurd (outOfRangeColumn_newOnchainTx.mpr hstorable) hrange

end

/-! The two race for a payment: both look its hash up before either inserts.  The scanner is first,
and finds the other payment as well. -/

def racedJobs : List Job := [.socket firstPayment, .backfill]

def raced : List (Nat × Choice) :=
  steps 0 1 ++ steps 1 1 ++ [(1, { head := 112 }), (1, { logs := [firstPayment, otherPayment] })] ++
    steps 1 3 ++ steps 0 2 ++ steps 1 4

def racedRun : System := System.run (Deployment.sample .asciiCI) World.twoOrders racedJobs raced

theorem unshared_twoOrders : World.twoOrders.Unshared (Deployment.sample .asciiCI) := by
  have hm : ∀ r ∈ [Row.sample, Row.another], r.merchantID = bytes "m1" := by decide
  intro o p _ r hr q _ r' hr' _ _
  rw [hm r hr, hm r' hr']

theorem delivered_raced {cfg : ChainConfig} {lg : Log} :
    System.WasDelivered racedJobs racedRun cfg lg ↔
      cfg = ChainConfig.sample ∧ lg ∈ [firstPayment, otherPayment] := by
  have htold : ToldTheChain [firstPayment, otherPayment] 1 racedRun :=
    toldTheChain (by decide +kernel) 1
  constructor
  · rintro ⟨i, l, hi, hdel⟩
    match i, hi with
    | 0, hi =>
      cases hi
      cases hdel
      exact ⟨rfl, List.mem_cons_self⟩
    | 1, hi =>
      cases hi
      cases hdel with
      | window hmem hlg => exact ⟨rfl, ((htold _ _ hmem lg).mp hlg).1⟩
  · rintro ⟨rfl, hlg⟩
    have hmem : (Op.filterLogs (ChainConfig.sample.window 1 112)).gave
        (.ok [firstPayment, otherPayment]) ∈ callsOf 1 racedRun.hist := by
      decide +kernel
    exact ⟨1, _, rfl, .window hmem hlg⟩

theorem recording_raced :
    Recording (Deployment.sample .asciiCI) World.twoOrders racedJobs raced .sample
      [firstPayment, otherPayment] := by
  have hworks : ∀ x ∈ raced, x.2.Works := by
    intro x hx
    unfold raced at hx
    rcases List.mem_append.mp hx with hx | hx
    · rcases List.mem_append.mp hx with hx | hx
      · exact works_of_mem_told hx
      · exact works_of_mem_steps hx
    · exact works_of_mem_steps hx
  refine ⟨?_, ?_, fun _ _ => delivered_raced, hworks, inserts_of_storable hworks ?_⟩
  · intro j hj
    rcases List.mem_pair.mp hj with rfl | rfl
    · exact ⟨_, rfl, fun r hr => by cases hr⟩
    · exact ⟨_, rfl, fun r hr => by cases hr⟩
  · intro i l hi
    match i, hi with
    | 0, _ =>
      exact ⟨.listened (some (.error (.new (bytes "persist pending_tx: insert onchain_tx: " ++
        duplicateTxHash)))), Prog.getElem?_of_result? (by decide +kernel)⟩
    | 1, _ => exact ⟨.listened (some (.ok ())), Prog.getElem?_of_result? (by decide +kernel)⟩
  · intro cfg lg parsed hdel hparse
    obtain ⟨rfl, hlg⟩ := delivered_raced.mp hdel
    exact storable_apart (List.mem_pair.mp hlg) hparse

theorem listeners_agree_raced :
    ∃ rows, racedRun.world.onchain = World.twoOrders.onchain ++ rows ∧
      rows.Perm ([firstPayment, otherPayment].filterMap
        (World.twoOrders.dueRow (Deployment.sample .asciiCI) .sample)) :=
  (listeners_agree unshared_twoOrders).2 [firstPayment, otherPayment] racedJobs raced
    Collation.asciiCI_separatesHashes (by decide +kernel) recording_raced

end EasyPay
