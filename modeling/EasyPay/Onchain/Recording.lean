import EasyPay.System

/-!
# How payment events are recorded

The subscriber and the backfill scanner record each log they are given under its transaction
hash, unless a row with that hash is there.

* `Subscriber.handleLog_handled`, `BackfillScanner.tick_scans`: what a job has done about its logs
  by the time it is through, and about the blocks behind the cursor by the time it moves it.
* `recording_invariant`: what the calls for a log have achieved in every state of a run.
* `recorded_of_handled`: so a log that was handled is recorded, if the calls for it did not fail.
* `row_origin`, `hashes_distinct`: every row comes from a delivered log, and no two have one hash.
-/

namespace EasyPay

open GoStrings Tables Ports

/-! ## Logs that were handled -/

/-- The calls made for a log: its hash was found, or its order was not, or its row was created. -/
def HandledIn (addressHex : Address → Str) (cfg : ChainConfig) (lg : Log) (t : Calls) : Prop :=
  (∃ r, (Op.getByTxHash lg.txHash.hex).gave (.ok r) ∈ t) ∨
    ∀ parsed, parsePaymentEvent lg = .ok parsed →
      (∃ e, (Op.getByOrderIDAny parsed.orderID).gave (.error e) ∈ t) ∨
        ∃ order a, (Op.createOnchainTx (newOnchainTx addressHex cfg lg parsed order)).gave a ∈ t

theorem HandledIn.mono {addressHex : Address → Str} {cfg : ChainConfig} {lg : Log} {t t' : Calls}
    (h : HandledIn addressHex cfg lg t) (ht : ∀ s ∈ t, s ∈ t') : HandledIn addressHex cfg lg t' := by
  rcases h with ⟨r, hr⟩ | h
  · exact .inl ⟨r, ht _ hr⟩
  · refine .inr fun parsed hparse => ?_
    rcases h parsed hparse with ⟨e, he⟩ | ⟨order, a, ha⟩
    · exact .inl ⟨e, ht _ he⟩
    · exact .inr ⟨order, a, ht _ ha⟩

section
variable {addressHex : Address → Str} {cfg : ChainConfig} {lg : Log} {t : Calls}

theorem HandledIn.malformed {e : Err} (h : parsePaymentEvent lg = .error e) :
    HandledIn addressHex cfg lg t := by
  refine .inr fun parsed hok => ?_
  cases h.symm.trans hok

theorem HandledIn.unknown {parsed : ParsedPaymentEvent} {e : Err}
    (h : parsePaymentEvent lg = .ok parsed)
    (hmem : (Op.getByOrderIDAny parsed.orderID).gave (.error e) ∈ t) :
    HandledIn addressHex cfg lg t := by
  refine .inr fun parsed' hok => ?_
  cases h.symm.trans hok
  exact .inl ⟨e, hmem⟩

theorem HandledIn.created {parsed : ParsedPaymentEvent} {order : Transaction} {a : Res Unit}
    (h : parsePaymentEvent lg = .ok parsed)
    (hmem : (Op.createOnchainTx (newOnchainTx addressHex cfg lg parsed order)).gave a ∈ t) :
    HandledIn addressHex cfg lg t := by
  refine .inr fun parsed' hok => ?_
  cases h.symm.trans hok
  exact .inr ⟨order, a, hmem⟩

end

section
variable (addressHex : Address → Str)

/-- **A delivered log** is handled when the subscriber returns, unless the first lookup failed. -/
theorem Subscriber.handleLog_handled (s : Subscriber) (lg : Log) {t : Calls} {r : Res Unit}
    (h : Prog.Runs (s.handleLog addressHex lg) t (.ret r)) :
    HandledIn addressHex s.cfg lg t ∨
      ∃ e, (Op.getByTxHash lg.txHash.hex).gave (.error e) ∈ t ∧ e.is .onchainTxNotFound = false := by
  have hm : Prog.Meets (P := gateway) (fun _ _ => True) (fun t _ =>
      HandledIn addressHex s.cfg lg t ∨
        ∃ e, (Op.getByTxHash lg.txHash.hex).gave (.error e) ∈ t ∧ e.is .onchainTxNotFound = false)
      (s.handleLog addressHex lg) [] := by
    unfold handleLog
    refine Svc.meets_ask trivial fun a => ?_
    cases a with
    | ok row => exact .inl (.inl ⟨row, by simp⟩)
    | error e =>
      simp only
      split
      · cases hparse : parsePaymentEvent lg with
        | error e' => exact .inl (.malformed hparse)
        | ok parsed =>
          refine Svc.meets_ask trivial fun a => ?_
          cases a with
          | error e' =>
            simp only
            split
            · exact .inl (.unknown hparse List.mem_concat_self)
            · exact .inl (.unknown hparse List.mem_concat_self)
          | ok order =>
            refine Svc.meets_ask trivial fun a => ?_
            cases a with
            | error e' => exact .inl (.created hparse List.mem_concat_self)
            | ok u =>
              exact Svc.meets_ask trivial fun b =>
                .inl (.created hparse (List.mem_append_left _ List.mem_concat_self))
      · next hother => exact .inr ⟨e, by simp, by simpa using hother⟩
  exact hm.ret h

/-! ## What a scan has done -/

/-- The calls of `persist`. -/
def Op.isPersist : Op → Bool
  | .getByTxHash _ => true
  | .getByOrderIDAny _ => true
  | .createOnchainTx _ => true
  | _ => false

/-- `t'` is `t` with calls of `persist` after it. -/
def Persisted (t t' : Calls) : Prop := ∃ u, t' = t ++ u ∧ ∀ s ∈ u, s.1.isPersist = true

theorem Persisted.refl (t : Calls) : Persisted t t := ⟨[], by simp, by simp⟩

theorem Persisted.snoc {t t' : Calls} (h : Persisted t t') {o : Op} (ho : o.isPersist = true)
    (a : o.Ans) : Persisted t (t' ++ [o.gave a]) := by
  obtain ⟨u, rfl, hu⟩ := h
  refine ⟨u ++ [o.gave a], by simp, fun s hs => ?_⟩
  rcases List.mem_append.mp hs with hs | hs
  · exact hu s hs
  · rw [List.mem_singleton.mp hs]
    exact ho

theorem Persisted.trans {t t' t'' : Calls} (h : Persisted t t') (h' : Persisted t' t'') :
    Persisted t t'' := by
  obtain ⟨u, rfl, hu⟩ := h
  obtain ⟨v, rfl, hv⟩ := h'
  refine ⟨u ++ v, by simp, fun s hs => ?_⟩
  rcases List.mem_append.mp hs with hs | hs
  · exact hu s hs
  · exact hv s hs

theorem Persisted.subset {t t' : Calls} (h : Persisted t t') : ∀ s ∈ t, s ∈ t' := by
  obtain ⟨u, rfl, -⟩ := h
  exact fun s hs => List.mem_append_left _ hs

/-- Other calls are not among the new ones. -/
theorem Persisted.mem_of_other {t t' : Calls} (h : Persisted t t') {o : Op} {a : o.Ans}
    (ho : o.isPersist = false) (hmem : o.gave a ∈ t') : o.gave a ∈ t := by
  obtain ⟨u, rfl, hu⟩ := h
  rcases List.mem_append.mp hmem with hmem | hmem
  · exact hmem
  · have hyes : o.isPersist = true := hu _ hmem
    rw [ho] at hyes
    cases hyes

theorem BackfillScanner.persist_handled (b : BackfillScanner) (lg : Log) (t : Calls) :
    Prog.Meets (P := gateway) (fun _ o => o.isPersist = true)
      (fun t' _ => Persisted t t' ∧ HandledIn addressHex b.cfg lg t') (b.persist addressHex lg) t := by
  unfold persist
  refine Svc.meets_ask rfl fun a => ?_
  have h₁ := (Persisted.refl t).snoc (o := .getByTxHash lg.txHash.hex) rfl a
  cases a with
  | ok row => exact ⟨h₁, .inl ⟨row, by simp⟩⟩
  | error e =>
    simp only
    cases hparse : parsePaymentEvent lg with
    | error e' => exact ⟨h₁, .malformed hparse⟩
    | ok parsed =>
      refine Svc.meets_ask rfl fun a => ?_
      have h₂ := h₁.snoc (o := .getByOrderIDAny parsed.orderID) rfl a
      cases a with
      | error e' => exact ⟨h₂, .unknown hparse List.mem_concat_self⟩
      | ok order =>
        exact Svc.meets_ask rfl fun a => ⟨h₂.snoc rfl a, .created hparse List.mem_concat_self⟩

theorem BackfillScanner.persistAll_handled (b : BackfillScanner) (logs : List Log) (t : Calls) :
    Prog.Meets (P := gateway) (fun _ o => o.isPersist = true)
      (fun t' _ => Persisted t t' ∧ ∀ lg ∈ logs, HandledIn addressHex b.cfg lg t')
      (b.persistAll addressHex logs) t := by
  induction logs generalizing t with
  | nil => exact ⟨.refl t, fun lg hlg => by cases hlg⟩
  | cons lg logs ih =>
    refine Prog.meets_bind (b.persist_handled addressHex lg t) fun t₁ _ h₁ => ?_
    refine (ih t₁).imp fun t₂ _ h₂ => ⟨h₁.1.trans h₂.1, fun lg' hlg' => ?_⟩
    rcases List.mem_cons.mp hlg' with rfl | hlg'
    · exact h₁.2.mono h₂.1.subset
    · exact h₂.2 lg' hlg'

/-- Every log the tick was answered is handled. -/
def LogsHandled (b : BackfillScanner) (t : Calls) : Prop :=
  ∀ q logs, (Op.filterLogs q).gave (.ok logs) ∈ t → ∀ lg ∈ logs, HandledIn addressHex b.cfg lg t

end

/-- The tick has read a window that contains the block. -/
def InWindow (b : BackfillScanner) (t : Calls) (block : UInt64) : Prop :=
  ∃ fromBlock toBlock logs, (Op.filterLogs (b.cfg.window fromBlock toBlock)).gave (.ok logs) ∈ t ∧
    fromBlock ≤ block ∧ block ≤ toBlock

theorem InWindow.mono {b : BackfillScanner} {t t' : Calls} {block : UInt64}
    (h : InWindow b t block) (ht : ∀ s ∈ t, s ∈ t') : InWindow b t' block := by
  obtain ⟨fromBlock, toBlock, logs, hmem, hle⟩ := h
  exact ⟨fromBlock, toBlock, logs, ht _ hmem, hle⟩

/-- The tick has read the blocks from its start up to `n`. -/
def ReadUpTo (b : BackfillScanner) (t : Calls) (n : UInt64) : Prop :=
  ∀ cursor, (Op.cursorGet b.cfg.chainID).gave (.ok cursor) ∈ t →
    ∀ block, b.scanStart cursor ≤ block → block ≤ n → InWindow b t block

section
variable (addressHex : Address → Str)

/-- What is true when a tick moves the cursor: it has read, and handled, what is behind it. -/
def ScanCall (b : BackfillScanner) (t : Calls) : Op → Prop
  | .cursorSet _ n => (∃ cursor, (Op.cursorGet b.cfg.chainID).gave (.ok cursor) ∈ t) ∧
      LogsHandled addressHex b t ∧ ReadUpTo b t n
  | _ => True

/-- What is true when a tick returns: it has handled what it has read, and after success it has
read everything up to the head it was told. -/
def ScanDone (b : BackfillScanner) (t : Calls) (r : Option (Res Unit)) : Prop :=
  LogsHandled addressHex b t ∧
    (r = some (.ok ()) → ∃ cursor head, (Op.cursorGet b.cfg.chainID).gave (.ok cursor) ∈ t ∧
      (∀ head', (Op.blockNumber).gave (.ok head') ∈ t → head' = head) ∧
      (b.scanStart cursor < head → ReadUpTo b t head))

/-- The state of the loop: the tick started at `start`, was told `head`, and is at `fromBlock`. -/
structure Scanning (b : BackfillScanner) (cursor head fromBlock : UInt64) (t : Calls) : Prop where
  handled : LogsHandled addressHex b t
  started : (Op.cursorGet b.cfg.chainID).gave (.ok cursor) ∈ t
  start : ∀ cursor', (Op.cursorGet b.cfg.chainID).gave (.ok cursor') ∈ t → cursor' = cursor
  told : ∀ head', (Op.blockNumber).gave (.ok head') ∈ t → head' = head
  read : fromBlock = b.scanStart cursor ∨
    ∀ block, b.scanStart cursor ≤ block → block ≤ fromBlock → InWindow b t block

section
variable {addressHex} {b : BackfillScanner} {cursor head fromBlock toBlock : UInt64} {t t' : Calls}
  {logs : List Log}

/-- A call of the loop's body is an old one, the query of the window, or one of `persist`. -/
theorem Persisted.mem_of_window
    (h : Persisted (t ++ [(Op.filterLogs (b.cfg.window fromBlock toBlock)).gave (.ok logs)]) t')
    {o : Op} {a : o.Ans} (ho : o.isPersist = false) (hne : ∀ q, o ≠ .filterLogs q)
    (hmem : o.gave a ∈ t') : o.gave a ∈ t := by
  rcases List.mem_append.mp (h.mem_of_other ho hmem) with hmem | hmem
  · exact hmem
  · exact absurd (congrArg Sigma.fst (List.mem_singleton.mp hmem)) (hne _)

/-- What is read up to the end of a window. -/
theorem Scanning.readUpTo (h : Scanning addressHex b cursor head fromBlock t)
    (ht : ∀ s ∈ t, s ∈ t')
    (hwindow : (Op.filterLogs (b.cfg.window fromBlock toBlock)).gave (.ok logs) ∈ t') :
    ∀ block, b.scanStart cursor ≤ block → block ≤ toBlock → InWindow b t' block := by
  intro block hlo hhi
  by_cases hfrom : fromBlock ≤ block
  · exact ⟨fromBlock, toBlock, logs, hwindow, hfrom, hhi⟩
  · -- before this window, so behind the place the loop had come to
    have hlt := UInt64.not_le.mp hfrom
    rcases h.read with rfl | hread
    · exact absurd (UInt64.lt_of_le_of_lt hlo hlt) (UInt64.lt_irrefl _)
    · exact (hread block hlo (UInt64.le_of_lt hlt)).mono ht

/-- The body of the loop: a window is read, and its logs are handled. -/
theorem Scanning.window (h : Scanning addressHex b cursor head fromBlock t)
    (hpers : Persisted (t ++ [(Op.filterLogs (b.cfg.window fromBlock toBlock)).gave (.ok logs)]) t')
    (hlogs : ∀ lg ∈ logs, HandledIn addressHex b.cfg lg t') :
    Scanning addressHex b cursor head toBlock t' := by
  have hsub : ∀ s ∈ t, s ∈ t' := fun s hs => hpers.subset s (List.mem_append_left _ hs)
  have hwindow : (Op.filterLogs (b.cfg.window fromBlock toBlock)).gave (.ok logs) ∈ t' :=
    hpers.subset _ (List.mem_append_right _ (List.mem_singleton.mpr rfl))
  constructor
  · intro q logs' hmem lg hlg
    rcases List.mem_append.mp (hpers.mem_of_other rfl hmem) with hmem | hmem
    · exact (h.handled q logs' hmem lg hlg).mono hsub
    · cases List.mem_singleton.mp hmem
      exact hlogs lg hlg
  · exact hsub _ h.started
  · intro cursor' hmem
    exact h.start cursor' (hpers.mem_of_window rfl (by simp) hmem)
  · intro head' hmem
    exact h.told head' (hpers.mem_of_window rfl (by simp) hmem)
  · exact .inr (h.readUpTo hsub hwindow)

/-- Moving the cursor changes nothing about that. -/
theorem Scanning.advance (h : Scanning addressHex b cursor head fromBlock t) (chainID : Int64)
    (n : UInt64) (a : Res Unit) :
    Scanning addressHex b cursor head fromBlock (t ++ [(Op.cursorSet chainID n).gave a]) := by
  have hsub : ∀ s ∈ t, s ∈ t ++ [(Op.cursorSet chainID n).gave a] :=
    fun s hs => List.mem_append_left _ hs
  have hold : ∀ {o : Op} {a' : o.Ans}, (∀ i k, o ≠ .cursorSet i k) →
      o.gave a' ∈ t ++ [(Op.cursorSet chainID n).gave a] → o.gave a' ∈ t := by
    intro o a' hne hmem
    rcases List.mem_append.mp hmem with hmem | hmem
    · exact hmem
    · exact absurd (congrArg Sigma.fst (List.mem_singleton.mp hmem)) (hne _ _)
  constructor
  · intro q logs' hmem lg hlg
    exact (h.handled q logs' (hold (by simp) hmem) lg hlg).mono hsub
  · exact hsub _ h.started
  · intro cursor' hmem
    exact h.start cursor' (hold (by simp) hmem)
  · intro head' hmem
    exact h.told head' (hold (by simp) hmem)
  · rcases h.read with rfl | hread
    · exact .inl rfl
    · exact .inr fun block hlo hhi => (hread block hlo hhi).mono hsub

end

/-- **The loop**, by its rounds. -/
theorem BackfillScanner.scan_scans (b : BackfillScanner) (cursor head : UInt64) (n : Nat)
    {fromBlock : UInt64} {t : Calls} (h : Scanning addressHex b cursor head fromBlock t) :
    Prog.Meets (P := gateway) (ScanCall addressHex b) (ScanDone addressHex b)
      (b.scan addressHex head n fromBlock) t := by
  induction n generalizing fromBlock t with
  | zero => exact ⟨h.handled, fun hr => by cases hr⟩
  | succ n ih =>
    unfold scan
    split
    · refine Svc.meets_ask trivial fun a => ?_
      cases a with
      | error e =>
        refine ⟨fun q logs hmem lg hlg => ?_, fun hr => by cases hr⟩
        rcases List.mem_append.mp hmem with hmem | hmem
        · exact (h.handled q logs hmem lg hlg).mono fun s hs => List.mem_append_left _ hs
        · cases List.mem_singleton.mp hmem
      | ok logs =>
        have hall := b.persistAll_handled addressHex logs (t ++ [(Op.filterLogs (b.cfg.window fromBlock
          (b.windowEnd head fromBlock))).gave (.ok logs)])
        refine Prog.meets_bind (hall.weaken ?_) fun t' _ ht' => ?_
        · intro t o ho
          cases o <;> trivial
        have hnext := h.window ht'.1 ht'.2
        have hsub : ∀ s ∈ t, s ∈ t' := fun s hs => ht'.1.subset s (List.mem_append_left _ hs)
        refine Svc.meets_ask ⟨⟨cursor, hnext.started⟩, hnext.handled, fun cursor' hmem => ?_⟩
          fun a => ih (hnext.advance _ _ a)
        rw [hnext.start cursor' hmem]
        exact h.readUpTo hsub (ht'.1.subset _ (List.mem_append_right _ (List.mem_singleton.mpr rfl)))
    · next hge =>
      refine ⟨h.handled, fun _ => ⟨cursor, head, h.started, h.told, fun hlt cursor' hmem => ?_⟩⟩
      rw [h.start cursor' hmem]
      -- the loop has come past its start to the head
      rcases h.read with rfl | hread
      · exact absurd hlt hge
      · intro block hlo hhi
        exact hread block hlo (UInt64.le_trans hhi (UInt64.not_lt.mp hge))

/-- **What a tick does.** -/
theorem BackfillScanner.tick_scans (b : BackfillScanner) (fuel : Nat) :
    Prog.Meets (P := gateway) (ScanCall addressHex b) (ScanDone addressHex b)
      (b.tick addressHex fuel) [] := by
  unfold tick
  refine Svc.meets_ask trivial fun a => ?_
  cases a with
  | error e => exact ⟨fun q logs hmem => by simp [Op.gave] at hmem, fun hr => by cases hr⟩
  | ok cursor =>
    refine Svc.meets_ask trivial fun a => ?_
    cases a with
    | error e => exact ⟨fun q logs hmem => by simp [Op.gave] at hmem, fun hr => by cases hr⟩
    | ok head =>
      simp only
      have hnone : LogsHandled addressHex b
          ([] ++ [(Op.cursorGet b.cfg.chainID).gave (.ok cursor)] ++
            [(Op.blockNumber).gave (.ok head)]) := by
        intro q logs hmem
        simp [Op.gave] at hmem
      have htold : ∀ head', (Op.blockNumber).gave (.ok head') ∈
          [] ++ [(Op.cursorGet b.cfg.chainID).gave (.ok cursor)] ++
            [(Op.blockNumber).gave (.ok head)] → head' = head := by
        intro head' hmem
        simpa [Op.gave] using hmem
      split
      · next hle =>
        refine ⟨hnone, fun _ => ⟨cursor, head, by simp, htold, fun hlt => ?_⟩⟩
        exact absurd (UInt64.lt_of_lt_of_le hlt hle) (UInt64.lt_irrefl _)
      · refine b.scan_scans addressHex cursor head fuel ⟨hnone, by simp, ?_, htold, .inl rfl⟩
        intro cursor' hmem
        simpa [Op.gave] using hmem

end

/-! ## What the calls achieve -/

/-- A lookup of the hash would find a row. -/
def World.Recorded (D : Deployment) (w : World) (txHash : Str) : Prop :=
  ∃ r ∈ w.onchain, D.collation.eq r.txHash txHash = true

/-- There is an order with this id. -/
def World.KnowsOrder (D : Deployment) (w : World) (orderID : Str) : Prop :=
  ValidOrderID orderID ∧ ∃ p < D.router.pools, ∃ r ∈ w.pools p,
    D.collation.eq r.orderID orderID = true

/-- The log is a payment event, and its order is there. -/
def World.Pays (D : Deployment) (w : World) (lg : Log) (parsed : ParsedPaymentEvent) : Prop :=
  parsePaymentEvent lg = .ok parsed ∧ w.KnowsOrder D parsed.orderID

section
variable {D : Deployment}

/-- Rows are never lost. -/
theorem World.Recorded.after {w : World} {txHash : Str} (h : w.Recorded D txHash) (o : Op) (c : Choice) :
    (exec D o c w).2.Recorded D txHash := by
  obtain ⟨r, hr, heq⟩ := h
  rcases exec_onchain_cases D o c w with he | ⟨tx, -, -, -, -, he⟩ | ⟨h', n, st, -, -, he⟩
  · exact ⟨r, by rw [he]; exact hr, heq⟩
  · exact ⟨r, by rw [he]; exact List.mem_append_left _ hr, heq⟩
  · refine ⟨_, by rw [he]; exact mem_updateWhere.mpr ⟨r, hr, rfl⟩, ?_⟩
    split
    · exact heq
    · exact heq

/-- Nor are orders. -/
theorem World.KnowsOrder.after {w : World} {orderID : Str} (h : w.KnowsOrder D orderID) (o : Op)
    (c : Choice) : (exec D o c w).2.KnowsOrder D orderID := by
  obtain ⟨hv, p, hp, r, hr, heq⟩ := h
  obtain ⟨r', hr', hfacts⟩ := (exec_rowsKept D o c w).exists_of_mem hr
  have hid : r'.orderID = r.orderID := congrArg Facts.orderID hfacts
  exact ⟨hv, p, hp, r', hr', by rw [hid]; exact heq⟩

/-- A hash that was found is there. -/
theorem recorded_of_lookup {w : World} {c : Choice} {txHash : Str} {r : OnchainTransaction}
    (h : (exec D (.getByTxHash txHash) c w).1 = .ok r) : w.Recorded D txHash := by
  have h : getByTxHash D.collation c.fault txHash w.onchain = .ok r := h
  rcases getByTxHash_cases D.collation c.fault txHash w.onchain with
    ⟨t, ht, heq, -⟩ | ⟨-, -, he⟩ | ⟨f, -, he⟩
  · exact ⟨t, ht, heq⟩
  · cases he.symm.trans h
  · cases he.symm.trans h

/-- A row that fits the table is there once it was created, or was before. -/
theorem recorded_of_create {w : World} {c : Choice} {tx : OnchainTransaction}
    (hc : c.fault = none) (htx : outOfRangeColumn tx = none) :
    (exec D (.createOnchainTx tx) c w).2.Recorded D tx.txHash := by
  show ({ w with onchain := (createOnchainTx D.collation c.fault tx w.onchain).2 } :
    World).Recorded D tx.txHash
  rcases createOnchainTx_cases D.collation c.fault tx w.onchain with
    ⟨-, -, -, he⟩ | ⟨-, -, ⟨t, ht, heq⟩, he⟩ | ⟨hno, -⟩
  · rw [he]
    exact ⟨storedTx tx, List.mem_append_right _ (List.mem_singleton.mpr rfl), D.collation.refl _⟩
  · rw [he]
    exact ⟨t, ht, heq⟩
  · rcases hno with hno | hno
    · exact absurd hc hno
    · exact absurd htx hno

/-- An order that was looked for in every pool and not found is not there. -/
theorem not_known_of_lookup {w : World} {c : Choice} {orderID : Str} {e : Err}
    (hc : ∀ p, c.faults p = none) (h : (exec D (.getByOrderIDAny orderID) c w).1 = .error e) :
    ¬ w.KnowsOrder D orderID := by
  rintro ⟨hv, p, hp, r, hr, heq⟩
  obtain ⟨t, ht⟩ := D.exists_getByOrderIDAny hc c.pick c.arrival hv hp hr heq
  cases ht.symm.trans h

/-- What the calls of a run have achieved: a hash that was found and a row that was created are
there, an order that was not found was not there at the start. -/
structure RecordingInv (D : Deployment) (w : World) (S : System) : Prop where
  orders : ∀ orderID, w.KnowsOrder D orderID → S.world.KnowsOrder D orderID
  looked : ∀ i c txHash r, ⟨i, c, .getByTxHash txHash, .ok r⟩ ∈ S.hist →
    S.world.Recorded D txHash
  created : ∀ i c tx a, ⟨i, c, .createOnchainTx tx, a⟩ ∈ S.hist → c.fault = none →
    outOfRangeColumn tx = none → S.world.Recorded D tx.txHash
  missed : ∀ i c orderID e, ⟨i, c, .getByOrderIDAny orderID, .error e⟩ ∈ S.hist →
    (∀ p, c.faults p = none) → ¬ w.KnowsOrder D orderID

/-- **One call.** -/
theorem RecordingInv.after {w : World} {S : System} (h : RecordingInv D w S) (i : Nat) (c : Choice)
    (o : Op) (k : o.Ans → Svc Outcome) : RecordingInv D w (S.after D i c o k) := by
  constructor
  · intro orderID hknown
    exact (h.orders orderID hknown).after o c
  · intro i' c' txHash r hmem
    rcases System.mem_hist_after.mp hmem with hold | hnew
    · exact (h.looked i' c' txHash r hold).after o c
    · obtain ⟨-, rfl, rfl, hans⟩ := System.event_inj hnew
      exact (recorded_of_lookup hans).after _ _
  · intro i' c' tx a hmem hc htx
    rcases System.mem_hist_after.mp hmem with hold | hnew
    · exact (h.created i' c' tx a hold hc htx).after o c
    · obtain ⟨-, rfl, rfl, -⟩ := System.event_inj hnew
      exact recorded_of_create hc htx
  · intro i' c' orderID e hmem hc
    rcases System.mem_hist_after.mp hmem with hold | hnew
    · exact h.missed i' c' orderID e hold hc
    · obtain ⟨-, rfl, rfl, hans⟩ := System.event_inj hnew
      exact fun hknown => not_known_of_lookup hc hans (h.orders _ hknown)

/-- **In every state of every run.** -/
theorem recording_invariant (D : Deployment) (w : World) (js : List Job)
    (xs : List (Nat × Choice)) : RecordingInv D w (System.run D w js xs) := by
  refine System.invariant D w js (Q := RecordingInv D w) ?_ ?_ xs
  · constructor
    · exact fun _ h => h
    · intro i c txHash r hmem
      cases hmem
    · intro i c tx a hmem
      cases hmem
    · intro i c orderID e hmem
      cases hmem
  · intro S i c o k _ h _ _
    exact h.after i c o k

/-- No lookup of an order and no `Create` of job `i` has failed. -/
def CallsWork (i : Nat) (S : System) : Prop :=
  ∀ e ∈ S.hist, e.pid = i →
    (∀ orderID, e.op = .getByOrderIDAny orderID → ∀ p, e.choice.faults p = none) ∧
      ∀ tx, e.op = .createOnchainTx tx → e.choice.fault = none

/-- **A log that was handled is recorded**, if its order is there and the row made of it fits the
table. -/
theorem recorded_of_handled {w : World} {js : List Job} {xs : List (Nat × Choice)} {i : Nat}
    {cfg : ChainConfig} {lg : Log} {parsed : ParsedPaymentEvent}
    (h : HandledIn D.addressHex cfg lg (callsOf i (System.run D w js xs).hist))
    (hwork : CallsWork i (System.run D w js xs)) (hpays : w.Pays D lg parsed)
    (hfits : ∀ order a, (Op.createOnchainTx (newOnchainTx D.addressHex cfg lg parsed order)).gave a ∈
      callsOf i (System.run D w js xs).hist → Storable cfg lg parsed) :
    (System.run D w js xs).world.Recorded D lg.txHash.hex := by
  have hinv := recording_invariant D w js xs
  rcases h with ⟨r, hr⟩ | h
  · obtain ⟨c, he⟩ := exists_event hr
    exact hinv.looked i c _ r he
  rcases h parsed hpays.1 with ⟨e, herr⟩ | ⟨order, a, ha⟩
  · obtain ⟨c, he⟩ := exists_event herr
    exact absurd hpays.2 (hinv.missed i c _ e he ((hwork _ he rfl).1 _ rfl))
  · obtain ⟨c, he⟩ := exists_event ha
    exact hinv.created i c _ a he ((hwork _ he rfl).2 _ rfl)
      (outOfRangeColumn_newOnchainTx.mpr (hfits order a ha))

/-- Nothing goes wrong with a call. -/
def Choice.Works (c : Choice) : Prop := c.fault = none ∧ ∀ p, c.faults p = none

theorem CallsWork.of_schedule {w : World} {js : List Job} {xs : List (Nat × Choice)}
    (h : ∀ x ∈ xs, x.2.Works) (i : Nat) : CallsWork i (System.run D w js xs) := by
  intro e he _
  have hw := h _ (System.mem_schedule D w js he)
  exact ⟨fun _ _ => hw.2, fun _ _ => hw.1⟩

/-- A lookup that works finds a row or says that there is none. -/
theorem notFound_of_works {w : World} {js : List Job} {xs : List (Nat × Choice)} {i : Nat}
    {txHash : Str} {e : Err} (h : ∀ x ∈ xs, x.2.Works)
    (hmem : (Op.getByTxHash txHash).gave (.error e) ∈ callsOf i (System.run D w js xs).hist) :
    e.is .onchainTxNotFound = true := by
  obtain ⟨ev, hev, -, -, w', hans⟩ := System.answered_of_mem D w js hmem
  have hw := h _ (System.mem_schedule D w js hev)
  have hans : .error e = getByTxHash D.collation ev.choice.fault txHash w'.onchain := hans
  rcases getByTxHash_cases D.collation ev.choice.fault txHash w'.onchain with
    ⟨t, -, -, he⟩ | ⟨-, -, he⟩ | ⟨f, hf, -⟩
  · cases hans.trans he
  · cases hans.trans he
    rfl
  · cases hw.1.symm.trans hf

/-- **A job that has returned** has handled its logs. -/
theorem handled_of_returned {w : World} {js : List Job} {xs : List (Nat × Choice)} {i : Nat}
    {l : ListenerJob} {r : Outcome} {cfg : ChainConfig} {lg : Log} (hworks : ∀ x ∈ xs, x.2.Works)
    (hi : js[i]? = some (.listen l)) (hret : (System.run D w js xs).procs[i]? = some (.ret r))
    (hdel : Delivered l (callsOf i (System.run D w js xs).hist) cfg lg) :
    HandledIn D.addressHex cfg lg (callsOf i (System.run D w js xs).hist) := by
  obtain ⟨q, hq, hruns⟩ := System.run_runs D w js hi xs
  cases hret.symm.trans hq
  obtain ⟨o, hruns, -⟩ := Prog.runs_map_ret hruns
  cases hdel with
  | socket s lg =>
    obtain ⟨r', hruns, -⟩ := Prog.runs_map_ret hruns
    rcases s.handleLog_handled D.addressHex lg hruns with h | ⟨e, hmem, hother⟩
    · exact h
    · rw [notFound_of_works hworks hmem] at hother
      cases hother
  | @window b fuel _ q logs lg hmem hlg =>
    exact ((b.tick_scans D.addressHex fuel).ret hruns).1 q logs hmem lg hlg

/-! ## Where a row comes from -/

/-- The row of a log, as far as it is told from others; its order was found. -/
def RowOfLog (cfg : ChainConfig) (lg : Log) (t : Calls) (r : OnchainTransaction) : Prop :=
  r.txHash = lg.txHash.hex ∧ ∃ parsed order, parsePaymentEvent lg = .ok parsed ∧
    r.orderID = parsed.orderID ∧ Storable cfg lg parsed ∧
    (Op.getByOrderIDAny parsed.orderID).gave (.ok order) ∈ t

theorem RowOfLog.of_facts {cfg : ChainConfig} {lg : Log} {t t' : Calls}
    {r r' : OnchainTransaction} (h : RowOfLog cfg lg t r) (ht : ∀ s ∈ t, s ∈ t')
    (hf : r'.facts = r.facts) : RowOfLog cfg lg t' r' := by
  have hhash : r'.facts.txHash = r.facts.txHash := by rw [hf]
  have horder : r'.facts.orderID = r.facts.orderID := by rw [hf]
  obtain ⟨h₁, parsed, order, hparse, h₂, hfits, hfound⟩ := h
  exact ⟨(show r'.txHash = r.txHash from hhash).trans h₁, parsed, order, hparse,
    (show r'.orderID = r.orderID from horder).trans h₂, hfits, ht _ hfound⟩

theorem Delivered.mono {j : ListenerJob} {t t' : Calls} {cfg : ChainConfig} {lg : Log}
    (h : Delivered j t cfg lg) (ht : ∀ s ∈ t, s ∈ t') : Delivered j t' cfg lg := by
  cases h with
  | socket s lg => exact .socket s lg t'
  | window hmem hlg => exact .window (ht _ hmem) hlg

/-- **Origin.**  A row was there at the start, or is that of a log delivered since. -/
theorem row_origin (D : Deployment) (w : World) (js : List Job) (xs : List (Nat × Choice)) :
    ∀ r ∈ (System.run D w js xs).world.onchain,
      (∃ r₀ ∈ w.onchain, r.facts = r₀.facts) ∨
        ∃ i l cfg lg, js[i]? = some (.listen l) ∧
          Delivered l (callsOf i (System.run D w js xs).hist) cfg lg ∧
          RowOfLog cfg lg (callsOf i (System.run D w js xs).hist) r := by
  refine System.invariant D w js (Q := fun S => ∀ r ∈ S.world.onchain,
    (∃ r₀ ∈ w.onchain, r.facts = r₀.facts) ∨ ∃ i l cfg lg, js[i]? = some (.listen l) ∧
      Delivered l (callsOf i S.hist) cfg lg ∧ RowOfLog cfg lg (callsOf i S.hist) r)
    (fun r hr => .inl ⟨r, hr, rfl⟩) ?_ xs
  intro S i c o k j h hj hcall r hr
  -- a row that was there before, perhaps with another status
  have hold : ∀ r' ∈ S.world.onchain, r.facts = r'.facts →
      (∃ r₀ ∈ w.onchain, r.facts = r₀.facts) ∨ ∃ i' l cfg lg, js[i']? = some (.listen l) ∧
        Delivered l (callsOf i' (S.after D i c o k).hist) cfg lg ∧
        RowOfLog cfg lg (callsOf i' (S.after D i c o k).hist) r := by
    intro r' hr' hf
    rcases h r' hr' with ⟨r₀, hr₀, hf₀⟩ | ⟨i', l, cfg, lg, hl, hdel, hrow⟩
    · exact .inl ⟨r₀, hr₀, hf.trans hf₀⟩
    · have hmono := System.callsOf_after_mono (D := D) (s := S) (i := i) (c := c) (o := o) (k := k) i'
      exact .inr ⟨i', l, cfg, lg, hl, hdel.mono hmono, hrow.of_facts hmono hf⟩
  have hr : r ∈ (exec D o c S.world).2.onchain := hr
  rcases exec_onchain_cases D o c S.world with
    he | ⟨tx, rfl, -, hcol, -, he⟩ | ⟨txHash, n, st, rfl, -, he⟩
  · rw [he] at hr
    exact hold r hr rfl
  · rw [he] at hr
    rcases List.mem_append.mp hr with hr | hr
    · exact hold r hr rfl
    · obtain ⟨l, rfl, cfg, lg, parsed, order, rfl, hdel, hparse, hfound⟩ := hcall.create_inv
      have hmono := System.callsOf_after_mono (D := D) (s := S) (i := i) (c := c)
        (o := .createOnchainTx (newOnchainTx D.addressHex cfg lg parsed order)) (k := k) i
      rw [List.mem_singleton.mp hr]
      exact .inr ⟨i, l, cfg, lg, hj, hdel.mono hmono, rfl, parsed, order, hparse, rfl,
        outOfRangeColumn_newOnchainTx.mp hcol, hmono _ hfound⟩
  · rw [he] at hr
    obtain ⟨r', hr', rfl⟩ := mem_updateWhere.mp hr
    refine hold r' hr' ?_
    split
    · rfl
    · rfl

/-- The log was delivered to the subscriber, or to a scanner in the answer to a query. -/
def System.WasDelivered (js : List Job) (S : System) (cfg : ChainConfig) (lg : Log) : Prop :=
  ∃ i l, js[i]? = some (.listen l) ∧ Delivered l (callsOf i S.hist) cfg lg

/-- **A recorded event has its row**, if all that is recorded under its hash is of its order. -/
theorem row_of_recorded {w : World} {js : List Job} {xs : List (Nat × Choice)} {lg : Log}
    {orderID : Str} (hC : D.collation.SeparatesHashes)
    (hrec : (System.run D w js xs).world.Recorded D lg.txHash.hex)
    (hstart : ∀ r ∈ w.onchain, D.collation.eq r.txHash lg.txHash.hex = true →
      r.txHash = lg.txHash.hex ∧ r.orderID = orderID)
    (hsame : ∀ cfg' lg' parsed', System.WasDelivered js (System.run D w js xs) cfg' lg' →
      lg'.txHash = lg.txHash → parsePaymentEvent lg' = .ok parsed' →
      (∃ i order, (Op.getByOrderIDAny parsed'.orderID).gave (.ok order) ∈
        callsOf i (System.run D w js xs).hist) → parsed'.orderID = orderID) :
    ∃ r ∈ (System.run D w js xs).world.onchain,
      r.txHash = lg.txHash.hex ∧ r.orderID = orderID := by
  obtain ⟨r, hr, heq⟩ := hrec
  refine ⟨r, hr, ?_⟩
  rcases row_origin D w js xs r hr with ⟨r₀, hr₀, hfacts⟩ | ⟨i, l, cfg', lg', hl, hdel, hrow⟩
  · have hhash : r.facts.txHash = r₀.facts.txHash := by rw [hfacts]
    have horder : r.facts.orderID = r₀.facts.orderID := by rw [hfacts]
    have hhash : r.txHash = r₀.txHash := hhash
    have horder : r.orderID = r₀.orderID := horder
    rw [hhash] at heq
    rw [hhash, horder]
    exact hstart r₀ hr₀ heq
  · obtain ⟨hhash, parsed', order, hparse, horder, -, hfound⟩ := hrow
    rw [hhash] at heq
    have hlg : lg'.txHash = lg.txHash := hC _ _ heq
    rw [hhash, horder, hlg]
    exact ⟨rfl, hsame cfg' lg' parsed' ⟨i, l, hl, hdel⟩ hlg hparse ⟨i, order, hfound⟩⟩

/-- **Distinct hashes** stay distinct. -/
theorem hashes_distinct (D : Deployment) {w : World} (js : List Job) (xs : List (Nat × Choice))
    (h : DistinctHashes w.onchain) : DistinctHashes (System.run D w js xs).world.onchain := by
  refine System.invariant D w js (Q := fun S => DistinctHashes S.world.onchain) h ?_ xs
  intro S i c o k j h _ _
  show DistinctHashes (exec D o c S.world).2.onchain
  rcases exec_onchain_cases D o c S.world with
    he | ⟨tx, -, -, -, hfresh, he⟩ | ⟨txHash, n, st, -, -, he⟩
  · rw [he]
    exact h
  · rw [he]
    have hnew : ∀ x ∈ S.world.onchain, x.txHash ≠ tx.txHash := by
      intro x hx heq
      have hno := hfresh x hx
      rw [heq, D.collation.refl] at hno
      cases hno
    intro x hx y hy heq
    rcases List.mem_append.mp hx with hx | hx
    · rcases List.mem_append.mp hy with hy | hy
      · exact h x hx y hy heq
      · rw [List.mem_singleton.mp hy] at heq
        exact absurd heq (hnew x hx)
    · rcases List.mem_append.mp hy with hy | hy
      · rw [List.mem_singleton.mp hx] at heq
        exact absurd heq.symm (hnew y hy)
      · rw [List.mem_singleton.mp hx, List.mem_singleton.mp hy]
  · rw [he]
    intro x hx y hy heq
    obtain ⟨x', hx', rfl⟩ := mem_updateWhere.mp hx
    obtain ⟨y', hy', rfl⟩ := mem_updateWhere.mp hy
    have hkeep : ∀ z : OnchainTransaction,
        (if D.collation.eq z.txHash txHash then { z with confirmations := n, status := st }
          else z).txHash = z.txHash := by
      intro z
      split
      · rfl
      · rfl
    rw [hkeep, hkeep] at heq
    rw [h x' hx' y' hy' heq]

/-- While no order is created, the facts of the stored orders stay. -/
theorem facts_kept {w : World} {js : List Job} (hjs : ∀ j ∈ js, ∀ s inp, j ≠ .create s inp)
    (xs : List (Nat × Choice)) (p : Nat) :
    ((System.run D w js xs).world.pools p).map Row.facts = (w.pools p).map Row.facts := by
  refine System.invariant D w js (Q := fun S =>
    (S.world.pools p).map Row.facts = (w.pools p).map Row.facts) rfl ?_ xs
  intro S i c o k j hsame hj hcall
  have hins : ∀ t, o ≠ .insert t := by
    rintro t rfl
    obtain ⟨s, inp, M, rfl, -⟩ := hcall.insert_inv
    exact hjs _ (List.mem_of_getElem? hj) s inp rfl
  exact (exec_facts D hins c S.world p).trans hsame

/-- While no order is created, an order that was found was there at the start. -/
theorem found_at_start {w : World} {js : List Job} (hjs : ∀ j ∈ js, ∀ s inp, j ≠ .create s inp)
    (xs : List (Nat × Choice)) :
    ∀ i o order, (Op.getByOrderIDAny o).gave (.ok order) ∈ callsOf i (System.run D w js xs).hist →
      ValidOrderID o ∧ ∃ p r, p < D.router.pools ∧ D.router.forIndex order.shardIndex = .ok p ∧
        r ∈ w.pools p ∧ D.collation.eq r.orderID o = true ∧ order.merchantID = r.merchantID ∧
        order.orderID = r.orderID ∧ order.amount = r.amount.toInt64 := by
  intro i o order hmem
  obtain ⟨c, he⟩ := exists_event hmem
  obtain ⟨ys, -, -, -, -, hans⟩ := System.happened D w js he
  obtain ⟨hv, p, r, t', x, hp, hr, heq, hscan, rfl, hx⟩ := D.getByOrderIDAny_ok hans.symm
  -- the row of this answer was there at the start, as far as its facts go
  have hfacts : r.facts ∈ (w.pools p).map Row.facts := by
    rw [← facts_kept hjs ys p]
    exact List.mem_map_of_mem hr
  obtain ⟨r₀, hr₀, hfacts⟩ := List.mem_map.mp hfacts
  have hm₀ : r₀.merchantID = r.merchantID := congrArg Facts.merchantID hfacts
  have ho₀ : r₀.orderID = r.orderID := congrArg Facts.orderID hfacts
  have ha₀ : r₀.amount = r.amount := congrArg Facts.amount hfacts
  obtain ⟨hm, -, ho, ha, -⟩ := TransactionRepo.scanTransaction_ok hscan
  refine ⟨hv, p, r₀, hp, hx, hr₀, by rwa [ho₀], ?_, ?_, ?_⟩
  · rw [hm₀]
    exact hm
  · rw [ho₀]
    exact ho
  · rw [ha₀]
    exact ha

end

/-! ## The sample payments -/

theorem works_of_mem_steps {i n : Nat} {x : Nat × Choice} (hx : x ∈ steps i n) : x.2.Works := by
  rw [List.eq_of_mem_replicate hx]
  exact ⟨rfl, fun _ => rfl⟩

/-- A delivery, and a tick that is told the head and some logs. -/
theorem works_of_mem_told {i j l m n : Nat} {h : UInt64} {logs : List Log} {x : Nat × Choice}
    (hx : x ∈ steps i l ++ steps j m ++ [(j, { head := h }), (j, { logs := logs })] ++ steps j n) :
    x.2.Works := by
  simp only [List.mem_append, List.mem_pair] at hx
  rcases hx with ((hx | hx) | rfl | rfl) | hx
  · exact works_of_mem_steps hx
  · exact works_of_mem_steps hx
  · exact ⟨rfl, fun _ => rfl⟩
  · exact ⟨rfl, fun _ => rfl⟩
  · exact works_of_mem_steps hx

theorem exists_parsed {lg : Log} {o : Str}
    (h : (parsePaymentEvent lg).map ParsedPaymentEvent.orderID = .ok o) :
    ∃ parsed, parsePaymentEvent lg = .ok parsed ∧ parsed.orderID = o := by
  cases hparse : parsePaymentEvent lg with
  | error e =>
    rw [hparse] at h
    cases h
  | ok parsed =>
    rw [hparse] at h
    exact ⟨parsed, rfl, Except.ok.inj h⟩

theorem parse_firstPayment : ∃ parsed, parsePaymentEvent firstPayment = .ok parsed ∧
    parsed.orderID = bytes "o-1" := exists_parsed (by decide +kernel)

theorem parse_otherPayment : ∃ parsed, parsePaymentEvent otherPayment = .ok parsed ∧
    parsed.orderID = bytes "o-2" := exists_parsed (by decide +kernel)

/-- The two payments are told apart by their hashes. -/
theorem apart_of_hash {lg lg' : Log} (h : lg = firstPayment ∨ lg = otherPayment)
    (h' : lg' = firstPayment ∨ lg' = otherPayment) (heq : lg'.txHash = lg.txHash) : lg' = lg := by
  have hne : firstPayment.txHash ≠ otherPayment.txHash := by decide +kernel
  rcases h with rfl | rfl <;> rcases h' with rfl | rfl
  · rfl
  · exact absurd heq.symm hne
  · exact absurd heq hne
  · rfl

/-- Each pays an order that is there. -/
theorem pays_apart {lg : Log} (h : lg = firstPayment ∨ lg = otherPayment)
    {parsed : ParsedPaymentEvent} (hparse : parsePaymentEvent lg = .ok parsed) :
    World.twoOrders.Pays (Deployment.sample .asciiCI) lg parsed := by
  refine ⟨hparse, ?_⟩
  rcases h with rfl | rfl
  · obtain ⟨parsed', hparse', horder⟩ := parse_firstPayment
    cases hparse.symm.trans hparse'
    rw [horder]
    exact ⟨by decide, 0, by decide, Row.sample, by decide, by decide⟩
  · obtain ⟨parsed', hparse', horder⟩ := parse_otherPayment
    cases hparse.symm.trans hparse'
    rw [horder]
    exact ⟨by decide, 0, by decide, Row.another, by decide, by decide⟩

theorem storable_apart {lg : Log} (h : lg = firstPayment ∨ lg = otherPayment)
    {parsed : ParsedPaymentEvent} (hparse : parsePaymentEvent lg = .ok parsed) :
    Storable ChainConfig.sample lg parsed := by
  have hamount : (parsePaymentEvent lg).map ParsedPaymentEvent.amount = .ok 100 := by
    rcases h with rfl | rfl
    · decide +kernel
    · decide +kernel
  rw [hparse] at hamount
  have hamount : parsed.amount = 100 := Except.ok.inj hamount
  refine ⟨?_, by rw [hamount]; decide, by decide⟩
  rcases h with rfl | rfl
  · decide
  · decide

end EasyPay
