import Mathlib.Data.List.Infix
import EasyPay.Onchain.Recording

/-!
# The backfill and its cursor

The cursor of a chain is written by two: a tick of the backfill stores the last block of each
window it has been through, the subscriber the block of each payment it has recorded.

* `cursor_behind_saved`: what a tick has scanned up to the cursor it stores is recorded, if no
  lookup of an order and no `Create` failed.
* `backfill_makes_up`: after a tick everything up to the head is recorded, if the subscriber
  never moved the cursor past an event that was not.
-/

namespace EasyPay

open GoStrings Tables Ports

/-- Job `i` is answered its queries with the logs of the chain. -/
def ToldTheChain (chain : List Log) (i : Nat) (S : System) : Prop :=
  ∀ q logs, (Op.filterLogs q).gave (.ok logs) ∈ callsOf i S.hist →
    ∀ lg, lg ∈ logs ↔ lg ∈ chain ∧ q.accepts lg = true

/-! ## What a tick has scanned -/

section
variable {D : Deployment} {w : World} {js : List Job} {xs : List (Nat × Choice)} {i : Nat}
  {b : BackfillScanner} {fuel : Nat} {chain : List Log}

/-- When a tick is about to move the cursor, it has read and handled what is behind it. -/
theorem scanned_at_cursorSet {chainID : Int64} {n : UInt64} {k : Res Unit → Svc Outcome}
    (hi : js[i]? = some (.listen (.backfill b fuel)))
    (hcall : (System.run D w js xs).procs[i]? = some (.call (.cursorSet chainID n) k)) :
    ScanCall D.addressHex b (callsOf i (System.run D w js xs).hist) (.cursorSet chainID n) := by
  obtain ⟨q, hq, hruns⟩ := System.run_runs D w js hi xs
  cases hcall.symm.trans hq
  obtain ⟨k', hruns⟩ := Prog.runs_map_call hruns
  exact (b.tick_scans D.addressHex fuel).call hruns

/-- An event in a block that was read is recorded. -/
theorem recorded_of_read {lg : Log} {parsed : ParsedPaymentEvent}
    (hhandled : LogsHandled D.addressHex b (callsOf i (System.run D w js xs).hist))
    (hread : InWindow b (callsOf i (System.run D w js xs).hist) lg.blockNumber)
    (htold : ToldTheChain chain i (System.run D w js xs))
    (hwork : CallsWork i (System.run D w js xs)) (hlg : lg ∈ chain)
    (hselects : b.cfg.selects lg = true) (hpays : w.Pays D lg parsed)
    (hfits : Storable b.cfg lg parsed) :
    (System.run D w js xs).world.Recorded D lg.txHash.hex := by
  obtain ⟨fromBlock, toBlock, logs, hmem, hlo, hhi⟩ := hread
  have haccepts : (b.cfg.window fromBlock toBlock).accepts lg = true :=
    ChainConfig.window_accepts.mpr ⟨hlo, hhi, hselects⟩
  have hgiven : lg ∈ logs := (htold _ _ hmem lg).mpr ⟨hlg, haccepts⟩
  exact recorded_of_handled (hhandled _ _ hmem lg hgiven) hwork hpays fun _ _ _ => hfits

/-- **The cursor stays behind what is saved.**  When a tick stores the cursor `n`, every payment
event in the blocks it has scanned up to `n` has its row, if none of its lookups of an order and
none of its `Create`s failed, the event fits the table, and nothing else is recorded under its
hash than payments of its order. -/
theorem cursor_behind_saved {chainID : Int64} {n cursor : UInt64} {k : Res Unit → Svc Outcome}
    {lg : Log} {parsed : ParsedPaymentEvent} (hC : D.collation.SeparatesHashes)
    (hi : js[i]? = some (.listen (.backfill b fuel)))
    (hcall : (System.run D w js xs).procs[i]? = some (.call (.cursorSet chainID n) k))
    (htold : ToldTheChain chain i (System.run D w js xs))
    (hwork : CallsWork i (System.run D w js xs))
    (hcursor : (Op.cursorGet b.cfg.chainID).gave (.ok cursor) ∈
      callsOf i (System.run D w js xs).hist)
    (hlg : lg ∈ chain) (hselects : b.cfg.selects lg = true) (hpays : w.Pays D lg parsed)
    (hlo : b.scanStart cursor ≤ lg.blockNumber) (hhi : lg.blockNumber ≤ n)
    (hfits : Storable b.cfg lg parsed)
    (hstart : ∀ r ∈ w.onchain, D.collation.eq r.txHash lg.txHash.hex = true →
      r.txHash = lg.txHash.hex ∧ r.orderID = parsed.orderID)
    (hone : ∀ cfg' lg' parsed', System.WasDelivered js (System.run D w js xs) cfg' lg' →
      lg'.txHash = lg.txHash → parsePaymentEvent lg' = .ok parsed' →
      parsed'.orderID = parsed.orderID) :
    ∃ r ∈ (System.run D w js xs).world.onchain,
      r.txHash = lg.txHash.hex ∧ r.orderID = parsed.orderID := by
  obtain ⟨-, hhandled, hread⟩ := scanned_at_cursorSet hi hcall
  have hrec := recorded_of_read hhandled (hread cursor hcursor _ hlo hhi) htold hwork hlg hselects
    hpays hfits
  refine row_of_recorded hC hrec hstart fun cfg' lg' parsed' hdel hhash hparse _ => ?_
  exact hone cfg' lg' parsed' hdel hhash hparse

end

/-! Two payments are in the blocks 100 and 101.  The lookup of the first one's order fails, so does
the insert of the second, and the tick moves the cursor past them. -/

/-- A tick that is told of the two payments, and handles them in the calls `xs`. -/
def tickTold (xs : List (Nat × Choice)) : List (Nat × Choice) :=
  steps 0 1 ++ [(0, { head := 112 }), (0, { logs := [firstPayment, otherPayment] })] ++ xs

def tickToldRun (xs : List (Nat × Choice)) : System :=
  System.run (Deployment.sample .asciiCI) World.twoOrders [.backfill] (tickTold xs)

def unsavedRun : System :=
  tickToldRun (steps 0 1 ++ [(0, { faults := fun _ => some .badConnection })] ++ steps 0 2 ++
    [(0, { fault := some .badConnection })] ++ steps 0 1)

theorem cursor_past_unsaved :
    unsavedRun.world.onchain = [] ∧ unsavedRun.world.cursors 1 = some 112 ∧
      unsavedRun.procs.map Prog.result? = [some (.listened (some (.ok ())))] ∧
      (Op.filterLogs (ChainConfig.sample.window 1 112)).gave (.ok [firstPayment, otherPayment]) ∈
        callsOf 0 unsavedRun.hist ∧
      (parsePaymentEvent firstPayment).map ParsedPaymentEvent.orderID = .ok (bytes "o-1") ∧
      (parsePaymentEvent otherPayment).map ParsedPaymentEvent.orderID = .ok (bytes "o-2") ∧
      (unsavedRun.world.pools 0).map Row.orderID = [bytes "o-1", bytes "o-2"] := by
  refine ⟨?_, ?_, ?_, ?_, ?_, ?_, ?_⟩
  · decide +kernel
  · decide +kernel
  · decide +kernel
  · decide +kernel
  · decide +kernel
  · decide +kernel
  · decide +kernel

/-! The same tick when nothing fails, about to move the cursor. -/

def savedRun : System := tickToldRun (steps 0 6)

/-- A query that was answered. -/
def answeredLogs : Prog.Step gateway → Option (FilterQuery × List Log)
  | ⟨.filterLogs q, .ok logs⟩ => some (q, logs)
  | _ => none

/-- The queries of a run that were answered with the logs of the chain. -/
theorem toldTheChain {S : System} {chain : List Log}
    (h : ∀ x ∈ (S.hist.map Event.step).filterMap answeredLogs, x.2 = chain.filter x.1.accepts)
    (i : Nat) : ToldTheChain chain i S := by
  intro q logs hmem lg
  obtain ⟨e, he, -, hstep⟩ := mem_callsOf.mp hmem
  have hans : (q, logs) ∈ (S.hist.map Event.step).filterMap answeredLogs :=
    List.mem_filterMap.mpr ⟨_, List.mem_map.mpr ⟨e, he, hstep⟩, rfl⟩
  have hlogs : logs = chain.filter q.accepts := h _ hans
  rw [hlogs, List.mem_filter]

theorem works_of_mem_tickTold {n : Nat} {x : Nat × Choice} (hx : x ∈ tickTold (steps 0 n)) :
    x.2.Works :=
  works_of_mem_told (i := 0) (l := 0) (m := 1) hx

theorem saved_behind_cursor :
    ∃ r ∈ savedRun.world.onchain, r.txHash = (wordOf 1).hex ∧ r.orderID = bytes "o-1" := by
  obtain ⟨k, hcall⟩ := Prog.getElem?_of_next?
    (show savedRun.procs[0]?.bind Prog.next? = some (Op.cursorSet 1 112) by decide +kernel)
  obtain ⟨parsed, hparse, horder⟩ := parse_firstPayment
  have htold : ToldTheChain [firstPayment, otherPayment] 0 savedRun :=
    toldTheChain (by decide +kernel) 0
  have hpays := pays_apart (.inl rfl) hparse
  have hone : ∀ cfg' lg' parsed', System.WasDelivered [.backfill] savedRun cfg' lg' →
      lg'.txHash = firstPayment.txHash → parsePaymentEvent lg' = .ok parsed' →
      parsed'.orderID = parsed.orderID := by
    rintro cfg' lg' parsed' ⟨i, l, hi, hdel⟩ hhash hparse'
    match i, hi with
    | 0, hi =>
      cases hi
      cases hdel with
      | window hmem hlg =>
        rcases List.mem_pair.mp ((htold _ _ hmem lg').mp hlg).1 with rfl | rfl
        · cases hparse.symm.trans hparse'
          rfl
        · exact absurd hhash (by decide +kernel)
  rw [← horder]
  exact cursor_behind_saved Collation.asciiCI_separatesHashes rfl hcall htold
    (CallsWork.of_schedule (fun x hx => works_of_mem_tickTold hx) 0)
    (show (Op.cursorGet 1).gave (.ok 0) ∈ callsOf 0 savedRun.hist by decide +kernel)
    List.mem_cons_self (by decide +kernel) hpays (by decide) (by decide)
    (storable_apart (.inl rfl) hparse) (fun r hr => by cases hr) hone

/-! ## What the subscriber missed -/

/-- The payment events of the chain: the logs the listener looks for that can be parsed. -/
def PaymentEvent (cfg : ChainConfig) (chain : List Log) (lg : Log) (parsed : ParsedPaymentEvent) :
    Prop :=
  lg ∈ chain ∧ cfg.selects lg = true ∧ parsePaymentEvent lg = .ok parsed

/-- A listener at work: subscribers that are delivered some of the chain's logs, and ticks of the
backfill, from an empty cursor.  Blocks that were read once do not change any more, so that one
list of logs stands for the chain as it grows. -/
structure Listening (D : Deployment) (cfg : ChainConfig) (chain : List Log) (w : World)
    (js : List Job) (xs : List (Nat × Choice)) : Prop where
  collation : D.collation.SeparatesHashes
  jobs : ∀ j ∈ js,
    (∃ lg ∈ chain, cfg.selects lg = true ∧ j = .listen (.handleLog ⟨cfg⟩ lg)) ∨
      ∃ b fuel, j = .listen (.backfill b fuel) ∧ b.cfg = cfg
  works : ∀ x ∈ xs, x.2.Works
  told : ∀ i, ToldTheChain chain i (System.run D w js xs)
  one : ∀ lg parsed lg' parsed', PaymentEvent cfg chain lg parsed →
    PaymentEvent cfg chain lg' parsed' → lg.txHash = lg'.txHash → lg = lg'
  orders : ∀ lg parsed, PaymentEvent cfg chain lg parsed → w.KnowsOrder D parsed.orderID
  fits : ∀ lg parsed, PaymentEvent cfg chain lg parsed → Storable cfg lg parsed
  /-- What was recorded before comes from the chain, too. -/
  rows : ∀ r ∈ w.onchain, ∃ lg parsed, PaymentEvent cfg chain lg parsed ∧
    r.txHash = lg.txHash.hex ∧ r.orderID = parsed.orderID
  cursor : w.cursors cfg.chainID = none

/-- Every payment event from the first block up to `n` is recorded. -/
def SavedUpTo (D : Deployment) (cfg : ChainConfig) (chain : List Log) (w : World) (n : UInt64) :
    Prop :=
  ∀ lg parsed, PaymentEvent cfg chain lg parsed → cfg.startBlock ≤ lg.blockNumber →
    lg.blockNumber ≤ n → w.Recorded D lg.txHash.hex

/-- Whenever the subscriber moves the cursor, everything up to there is recorded. -/
def SkipsNothing (D : Deployment) (cfg : ChainConfig) (chain : List Log) (w : World)
    (js : List Job) (xs : List (Nat × Choice)) : Prop :=
  ∀ (ys : List (Nat × Choice)) (i : Nat) (s : Subscriber) (lg : Log) (chainID : Int64) (n : UInt64)
    (k : Res Unit → Svc Outcome), ys <+: xs → js[i]? = some (.listen (.handleLog s lg)) →
    (System.run D w js ys).procs[i]? = some (.call (.cursorSet chainID n) k) →
    SavedUpTo D cfg chain (System.run D w js ys).world n

section
variable {D : Deployment} {cfg : ChainConfig} {chain : List Log} {w : World} {js : List Job}
  {xs : List (Nat × Choice)}

/-- The listener was at work all along. -/
theorem Listening.until (h : Listening D cfg chain w js xs) {ys : List (Nat × Choice)}
    (hys : ys <+: xs) : Listening D cfg chain w js ys := by
  refine { h with works := fun x hx => h.works x (hys.subset hx), told := ?_ }
  intro i q logs hmem
  obtain ⟨zs, rfl⟩ := hys
  exact h.told i q logs (System.mem_callsOf_run D w js hmem)

theorem Listening.backfill_cfg (h : Listening D cfg chain w js xs) {i : Nat} {b : BackfillScanner}
    {fuel : Nat} (hi : js[i]? = some (.listen (.backfill b fuel))) : b.cfg = cfg := by
  rcases h.jobs _ (List.mem_of_getElem? hi) with ⟨lg, -, -, hj⟩ | ⟨b', fuel', hj, hcfg⟩
  · cases hj
  · cases hj
    exact hcfg

/-- A tick is given logs the listener looks for. -/
theorem Listening.selected (h : Listening D cfg chain w js xs) {i : Nat} {q : FilterQuery}
    {logs : List Log} {lg : Log}
    (hmem : (Op.filterLogs q).gave (.ok logs) ∈ callsOf i (System.run D w js xs).hist)
    (hlg : lg ∈ logs) : lg ∈ chain ∧ cfg.selects lg = true := by
  obtain ⟨hchain, haccepts⟩ := (h.told i q logs hmem lg).mp hlg
  refine ⟨hchain, ?_⟩
  obtain ⟨j, t, k, hj, hruns, -⟩ := System.callsOf_runs D w js hmem
  rcases h.jobs j (List.mem_of_getElem? hj) with ⟨lg', -, -, rfl⟩ | ⟨b, fuel, rfl, rfl⟩
  · -- the subscriber asks for no logs
    cases Job.next hruns with
    | listen hcall =>
      cases hcall with
      | logs _ _ hj => cases hj
  · cases Job.next hruns with
    | listen hcall =>
      cases hcall with
      | logs _ _ hj =>
        cases hj
        exact (ChainConfig.window_accepts.mp haccepts).2.2

/-- What is recorded has its row. -/
theorem Listening.row_of_recorded (h : Listening D cfg chain w js xs) {lg : Log}
    {parsed : ParsedPaymentEvent} (hev : PaymentEvent cfg chain lg parsed)
    (hrec : (System.run D w js xs).world.Recorded D lg.txHash.hex) :
    ∃ r ∈ (System.run D w js xs).world.onchain,
      r.txHash = lg.txHash.hex ∧ r.orderID = parsed.orderID := by
  -- one event has this hash
  have hsame : ∀ {lg' parsed'}, PaymentEvent cfg chain lg' parsed' → lg'.txHash = lg.txHash →
      parsed'.orderID = parsed.orderID := by
    intro lg' parsed' hev' hhash
    obtain rfl := h.one _ _ _ _ hev' hev hhash
    cases hev.2.2.symm.trans hev'.2.2
    rfl
  refine EasyPay.row_of_recorded h.collation hrec ?_ ?_
  · intro r hr heq
    obtain ⟨lg', parsed', hev', hhash, horder⟩ := h.rows r hr
    rw [hhash] at heq
    have hlg := h.collation _ _ heq
    rw [hhash, horder, hlg]
    exact ⟨rfl, hsame hev' hlg⟩
  · rintro cfg' lg' parsed' ⟨i, l, hi, hdel⟩ hhash hparse -
    refine hsame ?_ hhash
    cases hdel with
    | socket s lg' =>
      rcases h.jobs _ (List.mem_of_getElem? hi) with ⟨lg₀, hlg, hselects, hj⟩ | ⟨b, fuel, hj, -⟩
      · cases hj
        exact ⟨hlg, hselects, hparse⟩
      · cases hj
    | @window b fuel _ q logs _ hmem hlg =>
      obtain ⟨hchain, hselects⟩ := h.selected hmem hlg
      exact ⟨hchain, hselects, hparse⟩

/-! The cursor, once it is set, and what the ticks have read of it, are behind what is saved. -/

def CursorInv (D : Deployment) (cfg : ChainConfig) (chain : List Log) (S : System) : Prop :=
  (∀ n, S.world.cursors cfg.chainID = some n → n ≠ 0 → SavedUpTo D cfg chain S.world n) ∧
    ∀ i c, (Op.cursorGet cfg.chainID).gave (.ok c) ∈ callsOf i S.hist → c ≠ 0 →
      SavedUpTo D cfg chain S.world c

theorem SavedUpTo.after {w' : World} {n : UInt64} (h : SavedUpTo D cfg chain w' n) (o : Op)
    (c : Choice) : SavedUpTo D cfg chain (exec D o c w').2 n :=
  fun lg parsed hev hlo hhi => (h lg parsed hev hlo hhi).after o c

/-- What a tick has read from its cursor up to `n` is saved, and so is what is before. -/
theorem Listening.saved_of_read (h : Listening D cfg chain w js xs)
    (hinv : CursorInv D cfg chain (System.run D w js xs)) {i : Nat} {b : BackfillScanner}
    {fuel : Nat} {cursor n : UInt64} (hi : js[i]? = some (.listen (.backfill b fuel)))
    (hcursor : (Op.cursorGet b.cfg.chainID).gave (.ok cursor) ∈
      callsOf i (System.run D w js xs).hist)
    (hhandled : LogsHandled D.addressHex b (callsOf i (System.run D w js xs).hist))
    (hread : ReadUpTo b (callsOf i (System.run D w js xs).hist) n) :
    SavedUpTo D cfg chain (System.run D w js xs).world n := by
  obtain rfl := h.backfill_cfg hi
  intro lg parsed hev hlo hhi
  by_cases hfrom : b.scanStart cursor ≤ lg.blockNumber
  · have hpays : w.Pays D lg parsed := ⟨hev.2.2, h.orders lg parsed hev⟩
    exact recorded_of_read hhandled (hread cursor hcursor _ hfrom hhi) (h.told i)
      (.of_schedule h.works i) hev.1 hev.2.1 hpays (h.fits lg parsed hev)
  · unfold BackfillScanner.scanStart at hfrom
    split at hfrom
    · exact absurd hlo hfrom
    · next hne =>
      exact hinv.2 i cursor hcursor hne lg parsed hev hlo (UInt64.le_of_lt (UInt64.not_le.mp hfrom))

/-- Reading a cursor that is not 0. -/
theorem cursor_of_read {w' : World} {chainID : Int64} {c : Choice} {cursor : UInt64}
    (h : (exec D (.cursorGet chainID) c w').1 = .ok cursor) (hne : cursor ≠ 0) :
    w'.cursors chainID = some cursor := by
  simp only [exec] at h
  split at h
  · cases h
  · have h := Except.ok.inj h
    cases hcursor : w'.cursors chainID with
    | none =>
      rw [hcursor] at h
      exact absurd h.symm hne
    | some n =>
      rw [hcursor] at h
      exact congrArg some h

/-- **One call.** -/
theorem Listening.cursor_step (h : Listening D cfg chain w js xs)
    (hinv : CursorInv D cfg chain (System.run D w js xs)) (hskips : SkipsNothing D cfg chain w js xs)
    {i : Nat} {j : Job} {o : Op} {k : o.Ans → Svc Outcome} (hj : js[i]? = some j)
    (hk : (System.run D w js xs).procs[i]? = some (.call o k)) (c : Choice) :
    CursorInv D cfg chain ((System.run D w js xs).after D i c o k) := by
  constructor
  · intro n hn hne
    have hn : (exec D o c (System.run D w js xs).world).2.cursors cfg.chainID = some n := hn
    rcases exec_cursors_cases D o c (System.run D w js xs).world with he | ⟨chainID, block, rfl, he⟩
    · rw [he] at hn
      exact (hinv.1 n hn hne).after o c
    · rw [he] at hn
      by_cases hchain : cfg.chainID = chainID
      · subst hchain
        rw [Function.update_self] at hn
        cases hn
        -- who moves the cursor
        rcases h.jobs j (List.mem_of_getElem? hj) with ⟨lg, -, -, rfl⟩ | ⟨b, fuel, rfl, -⟩
        · exact (hskips xs i _ lg _ _ k List.prefix_rfl hj hk).after _ c
        · obtain ⟨⟨cursor, hcursor⟩, hhandled, hread⟩ := scanned_at_cursorSet hj hk
          exact (h.saved_of_read hinv hj hcursor hhandled hread).after _ c
      · rw [Function.update_of_ne hchain] at hn
        exact (hinv.1 n hn hne).after _ c
  · intro i' cursor hmem hne
    rcases System.mem_callsOf_after.mp hmem with hold | ⟨-, hnew⟩
    · exact (hinv.2 i' cursor hold hne).after o c
    · obtain rfl : o = .cursorGet cfg.chainID := congrArg Sigma.fst hnew
      have hread := cursor_of_read (Op.gave_inj.mp hnew) hne
      exact (hinv.1 cursor hread hne).after _ c

/-- **In every state of the run.** -/
theorem Listening.cursor_invariant (h : Listening D cfg chain w js xs)
    (hskips : SkipsNothing D cfg chain w js xs) :
    CursorInv D cfg chain (System.run D w js xs) := by
  induction xs using List.reverseRecOn with
  | nil =>
    constructor
    · intro n hn
      cases h.cursor.symm.trans hn
    · intro i c hmem
      cases hmem
  | append_singleton ys x ih =>
    have hys : ys <+: ys ++ [x] := List.prefix_append ys [x]
    have hbefore : SkipsNothing D cfg chain w js ys := by
      intro zs i s lg chainID n k hzs
      exact hskips zs i s lg chainID n k (hzs.trans hys)
    have hinv := ih (h.until hys) hbefore
    rcases System.step_call D w js ys x.1 x.2 with hsame | ⟨j, o, k, hj, hk, -, hstep⟩
    · rw [hsame]
      exact hinv
    · rw [hstep]
      exact (h.until hys).cursor_step hinv hbefore hj hk x.2

/-- **The backfill makes up for what the subscriber missed.**  After a tick that returned without
an error every payment event up to the head it was told has its row, if the subscriber has never
moved the cursor past an event that had none. -/
theorem backfill_makes_up (h : Listening D cfg chain w js xs)
    (hskips : SkipsNothing D cfg chain w js xs) {i : Nat} {b : BackfillScanner} {fuel : Nat}
    {head : UInt64} (hi : js[i]? = some (.listen (.backfill b fuel)))
    (hret : (System.run D w js xs).procs[i]? = some (.ret (.listened (some (.ok ())))))
    (hhead : (Op.blockNumber).gave (.ok head) ∈ callsOf i (System.run D w js xs).hist)
    (hstart : cfg.startBlock < head) {lg : Log} {parsed : ParsedPaymentEvent}
    (hev : PaymentEvent cfg chain lg parsed) (hlo : cfg.startBlock ≤ lg.blockNumber)
    (hhi : lg.blockNumber ≤ head) :
    ∃ r ∈ (System.run D w js xs).world.onchain,
      r.txHash = lg.txHash.hex ∧ r.orderID = parsed.orderID := by
  have hinv := h.cursor_invariant hskips
  refine h.row_of_recorded hev ?_
  obtain ⟨q, hq, hruns⟩ := System.run_runs D w js hi xs
  cases hret.symm.trans hq
  obtain ⟨r, hruns, hr⟩ := Prog.runs_map_ret hruns
  cases hr
  obtain ⟨hhandled, hdone⟩ := (b.tick_scans D.addressHex fuel).ret hruns
  obtain ⟨cursor, head', hcursor, htold, hread⟩ := hdone rfl
  obtain rfl := htold head hhead
  by_cases hlt : b.scanStart cursor < head
  · exact h.saved_of_read hinv hi hcursor hhandled (hread hlt) lg parsed hev hlo hhi
  · -- nothing to read: the cursor was at the head already
    have hle := UInt64.not_lt.mp hlt
    obtain rfl := h.backfill_cfg hi
    unfold BackfillScanner.scanStart at hle
    split at hle
    · exact absurd hle (UInt64.not_le.mpr hstart)
    · next hne =>
      exact hinv.2 i cursor hcursor hne lg parsed hev hlo (UInt64.le_trans hhi hle)

end

/-! Two payments are in the blocks 100 and 101. -/

theorem listening_sample {js : List Job} {xs : List (Nat × Choice)}
    (hjs : ∀ j ∈ js, j = .socket firstPayment ∨ j = .socket otherPayment ∨ j = .backfill)
    (hworks : ∀ x ∈ xs, x.2.Works)
    (htold : ∀ i, ToldTheChain [firstPayment, otherPayment] i
      (System.run (Deployment.sample .asciiCI) World.twoOrders js xs)) :
    Listening (Deployment.sample .asciiCI) ChainConfig.sample [firstPayment, otherPayment]
      World.twoOrders js xs where
  collation := Collation.asciiCI_separatesHashes
  jobs := by
    intro j hj
    rcases hjs j hj with rfl | rfl | rfl
    · exact .inl ⟨firstPayment, by simp, by decide, rfl⟩
    · exact .inl ⟨otherPayment, by simp, by decide, rfl⟩
    · exact .inr ⟨_, _, rfl, rfl⟩
  works := hworks
  told := htold
  one := by
    rintro lg parsed lg' parsed' ⟨hlg, -⟩ ⟨hlg', -⟩ hhash
    exact apart_of_hash (List.mem_pair.mp hlg') (List.mem_pair.mp hlg) hhash
  orders := by
    rintro lg parsed ⟨hlg, -, hparse⟩
    exact (pays_apart (List.mem_pair.mp hlg) hparse).2
  fits := by
    rintro lg parsed ⟨hlg, -, hparse⟩
    exact storable_apart (List.mem_pair.mp hlg) hparse
  rows := by
    intro r hr
    cases hr
  cursor := rfl

/-! The second one is delivered alone; the cursor is then past the first, and the tick does not
look back. -/

def missedJobs : List Job := [.socket otherPayment, .backfill]

def missed : List (Nat × Choice) :=
  steps 0 4 ++ steps 1 1 ++ [(1, { head := 112 }), (1, { logs := [otherPayment] })] ++ steps 1 2

def missedRun : System := System.run (Deployment.sample .asciiCI) World.twoOrders missedJobs missed

theorem missed_payment_not_made_up :
    Listening (Deployment.sample .asciiCI) ChainConfig.sample [firstPayment, otherPayment]
        World.twoOrders missedJobs missed ∧
      missedRun.procs.map Prog.result? =
        [some (.listened (some (.ok ()))), some (.listened (some (.ok ())))] ∧
      (Op.blockNumber).gave (.ok 112) ∈ callsOf 1 missedRun.hist ∧
      (∃ parsed, PaymentEvent ChainConfig.sample [firstPayment, otherPayment] firstPayment parsed) ∧
      ChainConfig.sample.startBlock ≤ firstPayment.blockNumber ∧ firstPayment.blockNumber ≤ 112 ∧
      missedRun.world.onchain.map OnchainTransaction.txHash = [otherPayment.txHash.hex] ∧
      firstPayment.txHash ≠ otherPayment.txHash := by
  refine ⟨listening_sample ?_ ?_ (toldTheChain (by decide +kernel)), by decide +kernel,
    by decide +kernel, ?_, by decide, by decide, by decide +kernel, by decide +kernel⟩
  · intro j hj
    rcases List.mem_pair.mp hj with rfl | rfl
    · exact .inr (.inl rfl)
    · exact .inr (.inr rfl)
  · exact fun x hx => works_of_mem_told hx
  · obtain ⟨parsed, hparse, -⟩ := parse_firstPayment
    exact ⟨parsed, by simp, by decide, hparse⟩

/-! The first one is delivered, and the tick finds the second. -/

def madeUpJobs : List Job := [.socket firstPayment, .backfill]

def madeUp : List (Nat × Choice) :=
  steps 0 4 ++ steps 1 1 ++
    [(1, { head := 112 }), (1, { logs := [firstPayment, otherPayment] })] ++ steps 1 5

def madeUpRun : System := System.run (Deployment.sample .asciiCI) World.twoOrders madeUpJobs madeUp

/-- The block a call moves the cursor to. -/
def movedTo : Op → Option UInt64
  | .cursorSet _ n => some n
  | _ => none

theorem madeUp_skipsNothing :
    SkipsNothing (Deployment.sample .asciiCI) ChainConfig.sample [firstPayment, otherPayment]
      World.twoOrders madeUpJobs madeUp := by
  -- the subscriber moves the cursor once, to block 100, with its row recorded
  have hmoves : ∀ ys ∈ madeUp.inits,
      ((System.run (Deployment.sample .asciiCI) World.twoOrders madeUpJobs ys).procs[0]?.bind
          Prog.next?).bind movedTo = none ∨
        ((System.run (Deployment.sample .asciiCI) World.twoOrders madeUpJobs ys).procs[0]?.bind
            Prog.next?).bind movedTo = some 100 ∧
          (System.run (Deployment.sample .asciiCI) World.twoOrders madeUpJobs ys).world.onchain.map
            OnchainTransaction.txHash = [firstPayment.txHash.hex] := by
    decide +kernel
  intro ys i s lg chainID n k hys hi hcall
  match i, hi with
  | 0, _ =>
    have hmove := hmoves ys ((List.mem_inits _ _).mpr hys)
    rw [hcall] at hmove
    rcases hmove with hnone | ⟨hn, hrows⟩
    · cases hnone
    · cases hn
      rintro lg' parsed ⟨hlg', -⟩ - hle
      rcases List.mem_pair.mp hlg' with rfl | rfl
      · have hmem : firstPayment.txHash.hex ∈ (System.run (Deployment.sample .asciiCI)
            World.twoOrders madeUpJobs ys).world.onchain.map OnchainTransaction.txHash := by
          rw [hrows]
          exact List.mem_singleton.mpr rfl
        obtain ⟨r, hr, hhash⟩ := List.mem_map.mp hmem
        refine ⟨r, hr, ?_⟩
        rw [hhash]
        exact Collation.refl _ _
      · exact absurd hle (by decide)
  | 1, hi => cases hi
  | _ + 2, hi => cases hi

theorem other_payment_made_up :
    ∃ r ∈ madeUpRun.world.onchain, r.txHash = (wordOf 2).hex ∧ r.orderID = bytes "o-2" := by
  have h : Listening (Deployment.sample .asciiCI) ChainConfig.sample [firstPayment, otherPayment]
      World.twoOrders madeUpJobs madeUp := by
    refine listening_sample ?_ ?_ (toldTheChain (by decide +kernel))
    · intro j hj
      rcases List.mem_pair.mp hj with rfl | rfl
      · exact .inl rfl
      · exact .inr (.inr rfl)
    · exact fun x hx => works_of_mem_told hx
  have hret : madeUpRun.procs[1]? = some (.ret (.listened (some (.ok ())))) :=
    Prog.getElem?_of_result? (by decide +kernel)
  obtain ⟨parsed, hparse, horder⟩ := parse_otherPayment
  rw [← horder]
  exact backfill_makes_up h madeUp_skipsNothing rfl hret
    (show (Op.blockNumber).gave (.ok 112) ∈ callsOf 1 madeUpRun.hist by decide +kernel)
    (by decide) ⟨by simp, by decide, hparse⟩ (by decide) (by decide)

end EasyPay
