import EasyPay.Onchain.Recording

/-!
# The windows of a backfill tick

A tick reads the blocks from its start up to the chain head window by window, and moves the
block cursor to the end of each window it has read.

* `Tiles`: windows that follow one another from a first block to a last, each starting at the
  block the one before ends with.  `Tiles.covers`: they leave no block out.
* `BackfillScanner.scan_tiles`, by the rounds of the loop: what a tick has queried is such a
  sequence, and what it has written are the ends of the windows it got the logs of.
* `BackfillScanner.tick_covers`: so a tick that gets all its logs leaves the cursor at the head,
  and after one that does not the next tick starts with the window that is missing.
-/

namespace EasyPay

open GoStrings Ports

/-- Windows of at most `size` blocks and one, each starting where the one before ends. -/
inductive Tiles (size : Nat) (a : UInt64) : UInt64 → List (UInt64 × UInt64) → Prop
  | nil : Tiles size a a []
  | snoc {b c : UInt64} {ws : List (UInt64 × UInt64)} :
      Tiles size a b ws → b < c → c.toNat - b.toNat ≤ size → Tiles size a c (ws ++ [(b, c)])

section
variable {size : Nat} {a c : UInt64} {ws : List (UInt64 × UInt64)}

/-- The last window ends with the last block. -/
theorem Tiles.getLast? (h : Tiles size a c ws) (hlt : a < c) :
    (ws.map Prod.snd).getLast? = some c := by
  cases h with
  | nil => exact absurd hlt (UInt64.lt_irrefl _)
  | snoc _ _ _ => simp

/-- **No block is left out.** -/
theorem Tiles.covers (h : Tiles size a c ws) (hlt : a < c) {block : UInt64} (hlo : a ≤ block)
    (hhi : block ≤ c) : ∃ w ∈ ws, w.1 ≤ block ∧ block ≤ w.2 := by
  induction h with
  | nil => exact absurd hlt (UInt64.lt_irrefl _)
  | @snoc b c ws h hbc hsize ih =>
    by_cases hb : b ≤ block
    · exact ⟨(b, c), List.mem_concat_self, hb, hhi⟩
    · have hblock : block < b := UInt64.not_le.mp hb
      obtain ⟨w, hw, hin⟩ := ih (UInt64.lt_of_le_of_lt hlo hblock) (UInt64.le_of_lt hblock)
      exact ⟨w, List.mem_append_left _ hw, hin⟩

end

/-! ## What a tick has queried and written -/

/-- A query for logs, with its answer. -/
def logsQueried : Prog.Step gateway → Option (FilterQuery × Res (List Log))
  | ⟨.filterLogs q, a⟩ => some (q, a)
  | _ => none

/-- A block the cursor was moved to. -/
def cursorWritten : Prog.Step gateway → Option UInt64
  | ⟨.cursorSet _ n, .ok _⟩ => some n
  | _ => none

def queries (t : Calls) : List (FilterQuery × Res (List Log)) := t.filterMap logsQueried

def cursors (t : Calls) : List UInt64 := t.filterMap cursorWritten

theorem queries_append (t u : Calls) : queries (t ++ u) = queries t ++ queries u :=
  List.filterMap_append

theorem cursors_append (t u : Calls) : cursors (t ++ u) = cursors t ++ cursors u :=
  List.filterMap_append

/-- Persisting logs adds nothing to a list of other calls. -/
theorem Persisted.filterMap {β : Type} {f : Prog.Step gateway → Option β}
    (hf : ∀ s, s.1.isPersist = true → f s = none) {t t' : Calls} (h : Persisted t t') :
    t'.filterMap f = t.filterMap f := by
  obtain ⟨u, rfl, hu⟩ := h
  have hnone : u.filterMap f = [] := List.filterMap_eq_nil_iff.mpr fun s hs => hf s (hu s hs)
  rw [List.filterMap_append, hnone, List.append_nil]

theorem logsQueried_of_isPersist {s : Prog.Step gateway} (h : s.1.isPersist = true) :
    logsQueried s = none := by
  obtain ⟨o, a⟩ := s
  cases o <;> first | rfl | cases h

theorem cursorWritten_of_isPersist {s : Prog.Step gateway} (h : s.1.isPersist = true) :
    cursorWritten s = none := by
  obtain ⟨o, a⟩ := s
  cases o <;> first | rfl | cases h

/-- The windows `ws` from `start` up to `fromBlock` are read: the logs of each were queried and
answered, and the cursor was moved to the end of each. -/
structure WindowsRead (b : BackfillScanner) (start fromBlock : UInt64)
    (qs : List (FilterQuery × Res (List Log))) (ns : List UInt64) (ws : List (UInt64 × UInt64)) :
    Prop where
  tiles : Tiles b.batchSize.toNat start fromBlock ws
  queried : qs.map Prod.fst = ws.map fun w => b.cfg.window w.1 w.2
  answered : ∀ x ∈ qs, x.2.isOk = true
  written : ns = ws.map Prod.snd

/-- How the loop ends: at the head, or with the first query that fails. -/
inductive ScanEnd (b : BackfillScanner) (start head : UInt64) (t : Calls) :
    Option (Res Unit) → Prop
  | done {ws : List (UInt64 × UInt64)} :
      WindowsRead b start head (queries t) (cursors t) ws → ScanEnd b start head t (some (.ok ()))
  | failed {qs : List (FilterQuery × Res (List Log))} {ws : List (UInt64 × UInt64)}
      {fromBlock toBlock : UInt64} {e : Err} :
      WindowsRead b start fromBlock qs (cursors t) ws →
      queries t = qs ++ [(b.cfg.window fromBlock toBlock, .error e)] →
      fromBlock < toBlock → toBlock ≤ head →
      toBlock.toNat - fromBlock.toNat ≤ b.batchSize.toNat →
      ScanEnd b start head t (some (.error (e.wrap (bytes "filter logs: "))))

section
variable {b : BackfillScanner} {start head fromBlock toBlock cursor : UInt64} {t : Calls}
  {qs : List (FilterQuery × Res (List Log))} {ns : List UInt64} {ws : List (UInt64 × UInt64)}

/-- A window is queried and answered, and the cursor is moved to its end. -/
theorem WindowsRead.advance (h : WindowsRead b start fromBlock qs ns ws) (hlt : fromBlock < toBlock)
    (hsize : toBlock.toNat - fromBlock.toNat ≤ b.batchSize.toNat) (logs : List Log) :
    WindowsRead b start toBlock (qs ++ [(b.cfg.window fromBlock toBlock, .ok logs)])
      (ns ++ [toBlock]) (ws ++ [(fromBlock, toBlock)]) := by
  constructor
  · exact .snoc h.tiles hlt hsize
  · rw [List.map_append, h.queried, List.map_append]
    rfl
  · intro x hx
    rcases List.mem_append.mp hx with hx | hx
    · exact h.answered x hx
    · rw [List.mem_singleton.mp hx]
      rfl
  · rw [h.written, List.map_append]
    rfl

/-- The next tick starts where the windows that were read end. -/
theorem WindowsRead.scanStart_getLast
    (h : WindowsRead b (b.scanStart cursor) fromBlock qs ns ws) :
    b.scanStart (ns.getLast?.getD cursor) = fromBlock := by
  obtain ⟨htiles, -, -, hwritten⟩ := h
  rw [hwritten]
  cases htiles with
  | nil => rfl
  | snoc _ hlt _ =>
    have hpos : fromBlock ≠ 0 := fun h0 => by
      rw [h0] at hlt
      exact UInt64.not_lt_zero hlt
    simp [BackfillScanner.scanStart, hpos]

/-- A query that failed comes right after those of the windows that were read. -/
theorem WindowsRead.length_of_failed (h : WindowsRead b start fromBlock qs ns ws)
    {q q' : FilterQuery} {e e' : Err} {j : Nat}
    (hj : (qs ++ [(q, .error e)])[j]? = some (q', .error e')) : ws.length = j ∧ e = e' := by
  have hlen : qs.length = ws.length := by
    have hmap := congrArg List.length h.queried
    rwa [List.length_map, List.length_map] at hmap
  by_cases hlt : j < qs.length
  · rw [List.getElem?_append_left hlt] at hj
    cases h.answered _ (List.mem_of_getElem? hj)
  · rw [List.getElem?_append_right (Nat.not_lt.mp hlt)] at hj
    obtain ⟨hzero, hq⟩ := List.getElem?_eq_some_iff.mp hj
    have hj' : ws.length = j := by
      simp at hzero
      omega
    simp only [hj', hlen, Nat.sub_self, List.getElem_cons_zero] at hq
    cases hq
    exact ⟨hj', rfl⟩

/-! ## The loop -/

/-- A window spans at most the batch size. -/
theorem BackfillScanner.windowEnd_sub_le (hmax : head.toNat + b.batchSize.toNat < 2 ^ 64)
    (h : fromBlock < head) :
    (b.windowEnd head fromBlock).toNat - fromBlock.toNat ≤ b.batchSize.toNat := by
  have hsum := toNat_add_batchSize hmax h
  unfold windowEnd
  split
  · next hgt =>
    have hgt' := UInt64.lt_iff_toNat_lt.mp hgt
    omega
  · omega

/-- What one round adds to the queries and to the cursors. -/
theorem calls_of_round {logs : List Log} {t' : Calls}
    (h : Persisted (t ++ [(Op.filterLogs (b.cfg.window fromBlock toBlock)).gave (.ok logs)]) t') :
    queries (t' ++ [(Op.cursorSet b.cfg.chainID toBlock).gave (.ok ())]) =
        queries t ++ [(b.cfg.window fromBlock toBlock, .ok logs)] ∧
      cursors (t' ++ [(Op.cursorSet b.cfg.chainID toBlock).gave (.ok ())]) =
        cursors t ++ [toBlock] := by
  have hqueries : queries t' = queries (t ++ [(Op.filterLogs (b.cfg.window fromBlock toBlock)).gave
      (.ok logs)]) := h.filterMap fun _ => logsQueried_of_isPersist
  have hcursors : cursors t' = cursors (t ++ [(Op.filterLogs (b.cfg.window fromBlock toBlock)).gave
      (.ok logs)]) := h.filterMap fun _ => cursorWritten_of_isPersist
  constructor
  · rw [queries_append, hqueries, queries_append]
    exact List.append_nil _
  · rw [cursors_append, hcursors, cursors_append]
    exact congrArg (· ++ [toBlock]) (List.append_nil _)

/-- **The loop**, by its rounds: however its queries are answered, it ends. -/
theorem BackfillScanner.scan_tiles (addressHex : Address → Str) (hb : 0 < b.batchSize)
    (hmax : head.toNat + b.batchSize.toNat < 2 ^ 64) {answer : Calls → (o : Op) → o.Ans}
    (hset : ∀ t n, n ≤ head → answer t (.cursorSet b.cfg.chainID n) = .ok ()) {n : Nat}
    (hn : head.toNat - fromBlock.toNat < n) (hle : fromBlock ≤ head)
    (h : WindowsRead b start fromBlock (queries t) (cursors t) ws) :
    ScanEnd b start head (Prog.play (P := gateway) answer (b.scan addressHex head n fromBlock) t).1
      (Prog.play (P := gateway) answer (b.scan addressHex head n fromBlock) t).2 := by
  induction n generalizing fromBlock t ws with
  | zero => omega
  | succ n ih =>
    unfold scan
    split
    · next hlt =>
      obtain ⟨hgt, hend⟩ := lt_windowEnd hb hmax hlt
      have hsize := windowEnd_sub_le hmax hlt
      have hgt' : fromBlock < b.windowEnd head fromBlock := UInt64.lt_iff_toNat_lt.mpr hgt
      have hend' : b.windowEnd head fromBlock ≤ head := UInt64.le_iff_toNat_le.mpr hend
      rw [Svc.play_ask]
      cases answer t (.filterLogs (b.cfg.window fromBlock (b.windowEnd head fromBlock))) with
      | error e =>
        have hsame : cursors (t ++ [(Op.filterLogs (b.cfg.window fromBlock
            (b.windowEnd head fromBlock))).gave (.error e)]) = cursors t :=
          (cursors_append _ _).trans (List.append_nil _)
        rw [← hsame] at h
        exact .failed h (queries_append _ _) hgt' hend' hsize
      | ok logs =>
        have hpers := ((b.persistAll_handled addressHex logs (t ++ [(Op.filterLogs (b.cfg.window
          fromBlock (b.windowEnd head fromBlock))).gave (.ok logs)])).play answer).1
        obtain ⟨hqueries, hcursors⟩ := calls_of_round hpers
        have hnext := h.advance hgt' hsize logs
        rw [← hqueries, ← hcursors] at hnext
        simp only
        rw [Prog.play_bind, Svc.play_ask, hset _ _ hend']
        exact ih (by omega) hend' hnext
    · next hge =>
      -- the windows have come to the head, and not past it
      have heq : fromBlock = head := UInt64.le_antisymm hle (UInt64.not_lt.mp hge)
      subst heq
      exact .done h

end

/-- A tick that reads the cursor and the head goes into the loop. -/
theorem BackfillScanner.play_tick (addressHex : Address → Str) {b : BackfillScanner}
    {cursor head : UInt64} (hlt : b.scanStart cursor < head) {answer : Calls → (o : Op) → o.Ans}
    (hcursor : ∀ t, answer t (.cursorGet b.cfg.chainID) = .ok cursor)
    (hhead : ∀ t, answer t .blockNumber = .ok head) (fuel : Nat) :
    Prog.play (P := gateway) answer (b.tick addressHex fuel) [] =
      Prog.play (P := gateway) answer (b.scan addressHex head fuel (b.scanStart cursor))
        [(Op.cursorGet b.cfg.chainID).gave (.ok cursor), Op.blockNumber.gave (.ok head)] := by
  unfold tick
  rw [Svc.play_ask, hcursor]
  simp only
  rw [Svc.play_ask, hhead]
  simp only
  rw [if_neg (UInt64.not_le.mpr hlt)]
  rfl

section
variable {b : BackfillScanner} {cursor head : UInt64} {t : Calls} {r : Option (Res Unit)}

/-- The loop got the logs of all its windows... -/
theorem ScanEnd.of_answered (h : ScanEnd b (b.scanStart cursor) head t r)
    (hlt : b.scanStart cursor < head) (hall : ∀ x ∈ queries t, x.2.isOk = true) :
    r = some (.ok ()) ∧ (cursors t).getLast? = some head ∧
      ∃ ws, Tiles b.batchSize.toNat (b.scanStart cursor) head ws ∧
        (queries t).map Prod.fst = ws.map (fun w => b.cfg.window w.1 w.2) ∧
        ∀ block, b.scanStart cursor ≤ block → block ≤ head → ∃ w ∈ ws, w.1 ≤ block ∧ block ≤ w.2 := by
  cases h with
  | done h =>
    refine ⟨rfl, ?_, _, h.tiles, h.queried, fun block => h.tiles.covers hlt⟩
    rw [h.written]
    exact h.tiles.getLast? hlt
  | failed h hqs _ _ _ =>
    rw [hqs] at hall
    cases hall _ List.mem_concat_self

/-- ... or the query for one of them failed, and was the last. -/
theorem ScanEnd.of_failed (h : ScanEnd b (b.scanStart cursor) head t r) {j : Nat} {q : FilterQuery}
    {e : Err} (hj : (queries t)[j]? = some (q, .error e)) :
    r = some (.error (e.wrap (bytes "filter logs: "))) ∧
      ∃ ws fromBlock toBlock, ws.length = j ∧ toBlock ≤ head ∧
        Tiles b.batchSize.toNat (b.scanStart cursor) toBlock (ws ++ [(fromBlock, toBlock)]) ∧
        (queries t).map Prod.fst =
          (ws ++ [(fromBlock, toBlock)]).map (fun w => b.cfg.window w.1 w.2) ∧
        (cursors t).getLast? = (ws.map Prod.snd).getLast? ∧
        b.scanStart ((cursors t).getLast?.getD cursor) = fromBlock := by
  cases h with
  | done h => cases h.answered _ (List.mem_of_getElem? hj)
  | @failed qs ws fromBlock toBlock e h hqs hgt hle hsize =>
    rw [hqs] at hj
    obtain ⟨hlen, rfl⟩ := h.length_of_failed hj
    refine ⟨rfl, ws, fromBlock, toBlock, hlen, hle, .snoc h.tiles hgt hsize, ?_, ?_,
      h.scanStart_getLast⟩
    · rw [hqs, List.map_append, List.map_append, h.queried]
      rfl
    · rw [h.written]

end

/-- **A tick reads every block.**  However the queries for logs are answered, the tick returns.
If none fails, the cursor is at the head; if one does, the next tick starts with that window. -/
theorem BackfillScanner.tick_covers (addressHex : Address → Str) {b : BackfillScanner}
    (hb : 1 ≤ b.batchSize) (cursor head : UInt64)
    (hmax : head.toNat + b.batchSize.toNat < 2 ^ 64) (hlt : b.scanStart cursor < head)
    (answer : Calls → (o : Op) → o.Ans)
    (hcursor : ∀ t, answer t (.cursorGet b.cfg.chainID) = .ok cursor)
    (hhead : ∀ t, answer t .blockNumber = .ok head)
    (hset : ∀ t n, n ≤ head → answer t (.cursorSet b.cfg.chainID n) = .ok ()) (fuel : Nat)
    (hfuel : head.toNat - (b.scanStart cursor).toNat < fuel) {t : Calls} {r : Option (Res Unit)}
    (hplay : Prog.play (P := gateway) answer (b.tick addressHex fuel) [] = (t, r)) :
    ((∀ x ∈ queries t, x.2.isOk = true) →
      r = some (.ok ()) ∧ (cursors t).getLast? = some head ∧
      ∃ ws, Tiles b.batchSize.toNat (b.scanStart cursor) head ws ∧
        (queries t).map Prod.fst = ws.map (fun w => b.cfg.window w.1 w.2) ∧
        ∀ block, b.scanStart cursor ≤ block → block ≤ head → ∃ w ∈ ws, w.1 ≤ block ∧ block ≤ w.2) ∧
    ∀ j q e, (queries t)[j]? = some (q, .error e) →
      r = some (.error (e.wrap (bytes "filter logs: "))) ∧
      ∃ ws fromBlock toBlock, ws.length = j ∧ toBlock ≤ head ∧
        Tiles b.batchSize.toNat (b.scanStart cursor) toBlock (ws ++ [(fromBlock, toBlock)]) ∧
        (queries t).map Prod.fst =
          (ws ++ [(fromBlock, toBlock)]).map (fun w => b.cfg.window w.1 w.2) ∧
        (cursors t).getLast? = (ws.map Prod.snd).getLast? ∧
        b.scanStart ((cursors t).getLast?.getD cursor) = fromBlock := by
  have hstart : WindowsRead b (b.scanStart cursor) (b.scanStart cursor)
      (queries [(Op.cursorGet b.cfg.chainID).gave (.ok cursor), Op.blockNumber.gave (.ok head)])
      (cursors [(Op.cursorGet b.cfg.chainID).gave (.ok cursor), Op.blockNumber.gave (.ok head)])
      [] := ⟨.nil, rfl, fun _ hx => (List.not_mem_nil hx).elim, rfl⟩
  have hend := scan_tiles addressHex (UInt64.lt_of_lt_of_le (by decide) hb) hmax hset hfuel
    (UInt64.le_of_lt hlt) hstart
  rw [← play_tick addressHex hlt hcursor hhead, hplay] at hend
  exact ⟨hend.of_answered hlt, fun j q e => hend.of_failed⟩

/-- Block 6 is the head, and the second query for logs fails. -/
def secondQueryFails (t : Calls) (o : Op) : o.Ans :=
  match o with
  | .blockNumber => .ok 6
  | .filterLogs _ => if (queries t).length = 1 then .error (.new (bytes "timeout")) else .ok []
  | .cursorSet _ _ => .ok ()
  | o => (exec (Deployment.sample .binary) o {} World.oneOrder).1

theorem tick_resumes_at_third :
    ∃ ws fromBlock toBlock, ws.length = 1 ∧ toBlock ≤ 6 ∧
      Tiles 2 1 toBlock (ws ++ [(fromBlock, toBlock)]) ∧
      (queries (Prog.play (P := gateway) secondQueryFails
        (BackfillScanner.tick (fun _ => []) ⟨ChainConfig.sample, 2⟩ 6) []).1).map Prod.fst =
          (ws ++ [(fromBlock, toBlock)]).map (fun w => ChainConfig.sample.window w.1 w.2) ∧
      (cursors (Prog.play (P := gateway) secondQueryFails
        (BackfillScanner.tick (fun _ => []) ⟨ChainConfig.sample, 2⟩ 6) []).1).getLast? =
          (ws.map Prod.snd).getLast? ∧
      (BackfillScanner.mk ChainConfig.sample 2).scanStart ((cursors (Prog.play (P := gateway)
        secondQueryFails (BackfillScanner.tick (fun _ => []) ⟨ChainConfig.sample, 2⟩ 6)
          []).1).getLast?.getD 0) = fromBlock := by
  have h := (BackfillScanner.tick_covers (fun _ => []) (b := ⟨ChainConfig.sample, 2⟩) (by decide) 0 6
    (by decide) (by decide) secondQueryFails (fun _ => rfl) (fun _ => rfl) (fun _ _ _ => rfl) 6
    (by decide) rfl).2 1 _ _ rfl
  exact h.2

end EasyPay
