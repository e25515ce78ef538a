import EasyPay.Provider.PaymentEvent
import EasyPay.Repository.TransactionRepo

/-!
# On-chain transaction repository

`internal/repository/onchain_tx_repo.go` over `onchain_transactions`, a table of the
control-plane pool.  Its `tx_hash` is unique.

The amount goes into the table and comes back as decimal text.  MySQL refuses a number that
is out of the range of its column: BIGINT for the block and the confirmations, DECIMAL(65, 0)
for the amount.  The texts the listener stores are all within their columns.

`Create` has one lemma that says all it can do, `createOnchainTx_cases`.
-/

namespace EasyPay

open GoStrings Tables

/-! ## Columns -/

/-- `tx.Amount.String()`, or `"0"` for a nil amount. -/
def amountText : Option Int → Str
  | none => bytes "0"
  | some a => formatInt a

/-- What `scanOnchainTx` makes of the text. -/
def scanAmount (amt : Str) : Int := if amt = [] then 0 else (parseSigned amt).getD 0

/-- An amount is read back as it was written. -/
theorem scanAmount_amountText (a : Int) : scanAmount (amountText (some a)) = a := by
  have hne : amountText (some a) ≠ [] := by
    intro h
    have hparse := parseSigned_formatInt a
    rw [show formatInt a = [] from h] at hparse
    cases hparse
  unfold scanAmount
  rw [if_neg hne, amountText, parseSigned_formatInt]
  rfl

/-- What MySQL reports for a number that does not fit its column. -/
def outOfRange (column : Str) : Str :=
  bytes "Error 1264 (22003): Out of range value for column '" ++ column ++ bytes "' at row 1"

/-- A number a signed BIGINT can hold. -/
def fitsBigint (n : UInt64) : Bool := n.toNat < 2 ^ 63

/-- The first column a value is out of the range of. -/
def outOfRangeColumn (tx : OnchainTransaction) : Option Str :=
  if fitsBigint tx.blockNumber = false then some (bytes "block_number")
  else if (scanAmount (amountText tx.amount)).natAbs ≥ 10 ^ 65 then some (bytes "amount")
  else if fitsBigint tx.confirmations = false then some (bytes "confirmations")
  else if fitsBigint tx.requiredConfirm = false then some (bytes "required_confirm")
  else none

/-- The columns no statement changes once the row is stored: all but the confirmations and the
status. -/
def OnchainTransaction.facts (tx : OnchainTransaction) : OnchainTransaction :=
  { tx with confirmations := 0, status := .pending }

/-- The row of a transaction. -/
def storedTx (tx : OnchainTransaction) : OnchainTransaction :=
  { tx with amount := some (scanAmount (amountText tx.amount)) }

/-! ## Hashes -/

/-- Two hashes compare equal only if they are the same. -/
def Collation.SeparatesHashes (C : Collation) : Prop :=
  ∀ a b : Hash, C.eq a.hex b.hex = true → a = b

/-- The text of a hash is in lower case, so that ignoring the case makes no difference. -/
theorem Collation.asciiCI_separatesHashes : asciiCI.SeparatesHashes := by
  intro a b h
  have hlower : ∀ c : Hash, c.hex.map lowerByte = c.hex := by
    intro c
    unfold Hash.hex
    rw [List.map_append, map_lowerByte_hexEncode]
    rfl
  rw [asciiCI_eq, hlower, hlower] at h
  exact Hash.hex_injective h

/-- No two rows have the same hash. -/
def DistinctHashes (txs : List OnchainTransaction) : Prop :=
  ∀ x ∈ txs, ∀ y ∈ txs, x.txHash = y.txHash → x = y

/-! ## Statements -/

/-- What MySQL reports for a taken `tx_hash`. -/
def duplicateTxHash : Str :=
  bytes "Error 1062 (23000): Duplicate entry for key 'onchain_transactions.tx_hash'"

/-- The statement of `onchainTxRepo.Create`. -/
def createOnchainTx (C : Collation) (fault : Option Fault) (tx : OnchainTransaction)
    (txs : List OnchainTransaction) : Res Unit × List OnchainTransaction :=
  match fault with
  | some f => (.error (.wrap (bytes "insert onchain_tx: ") (.new f.msg)), txs)
  | none =>
    match outOfRangeColumn tx with
    | some column => (.error (.wrap (bytes "insert onchain_tx: ") (.new (outOfRange column))), txs)
    | none =>
      if txs.any fun t => C.eq t.txHash tx.txHash then
        (.error (.wrap (bytes "insert onchain_tx: ") (.new duplicateTxHash)), txs)
      else (.ok (), txs ++ [storedTx tx])

def getByTxHash (C : Collation) (fault : Option Fault) (txHash : Str)
    (txs : List OnchainTransaction) : Res OnchainTransaction :=
  match fault with
  | some f => .error (.wrap (bytes "scan onchain_tx: ") (.new f.msg))
  | none =>
    match txs.find? fun t => C.eq t.txHash txHash with
    | some t => .ok t
    | none => .error (.of .onchainTxNotFound)

/-- `ListPendingByChain`: oldest block first, ties in any order. -/
def listPending (ties : List Nat) (chainID : Int64) (limit : Int)
    (txs : List OnchainTransaction) : List OnchainTransaction :=
  ((shuffle ties (txs.filter fun t => t.chainID = chainID ∧ t.status = .pending)).insertionSort
    fun a b => a.blockNumber ≤ b.blockNumber).take limit.toNat

/-- The statement of `onchainTxRepo.UpdateConfirmations`. -/
def setConfirmations (C : Collation) (fault : Option Fault) (txHash : Str)
    (confirmations : UInt64) (status : OnchainTxStatus) (txs : List OnchainTransaction) :
    Res Unit × List OnchainTransaction :=
  match fault with
  | some f => (.error (.wrap (bytes "update onchain_tx: ") (.new f.msg)), txs)
  | none =>
    if txs.any fun t => C.eq t.txHash txHash then
      if fitsBigint confirmations then
        (.ok (), updateWhere (fun t => C.eq t.txHash txHash)
          (fun t => { t with confirmations := confirmations, status := status }) txs)
      else
        (.error (.wrap (bytes "update onchain_tx: ") (.new (outOfRange (bytes "confirmations")))),
          txs)
    else (.error (.of .onchainTxNotFound), txs)

/-! ## What the statements can do -/

section
variable (C : Collation)

/-- **Create** appends its row, or finds the hash taken, or fails for another reason; only the
first changes the table. -/
theorem createOnchainTx_cases (fault : Option Fault) (tx : OnchainTransaction)
    (txs : List OnchainTransaction) :
    (fault = none ∧ outOfRangeColumn tx = none ∧ (∀ t ∈ txs, C.eq t.txHash tx.txHash = false) ∧
      createOnchainTx C fault tx txs = (.ok (), txs ++ [storedTx tx])) ∨
    (fault = none ∧ outOfRangeColumn tx = none ∧ (∃ t ∈ txs, C.eq t.txHash tx.txHash = true) ∧
      createOnchainTx C fault tx txs =
        (.error (.wrap (bytes "insert onchain_tx: ") (.new duplicateTxHash)), txs)) ∨
    ((fault ≠ none ∨ outOfRangeColumn tx ≠ none) ∧
      ∃ e, createOnchainTx C fault tx txs = (.error e, txs)) := by
  unfold createOnchainTx
  cases fault with
  | some f => exact .inr (.inr ⟨.inl (by simp), _, rfl⟩)
  | none =>
    cases hcol : outOfRangeColumn tx with
    | some column => exact .inr (.inr ⟨.inr (by simp), _, rfl⟩)
    | none =>
      by_cases hany : (txs.any fun t => C.eq t.txHash tx.txHash) = true
      · refine .inr (.inl ⟨rfl, rfl, List.any_eq_true.mp hany, ?_⟩)
        simp only [hany, if_true]
      · refine .inl ⟨rfl, rfl, ?_, ?_⟩
        · simpa using hany
        · simp only [hany, Bool.false_eq_true, if_false]

/-- What is stored was in range. -/
theorem outOfRangeColumn_of_created {C : Collation} {fault : Option Fault} {tx : OnchainTransaction}
    {txs stored : List OnchainTransaction} (h : createOnchainTx C fault tx txs = (.ok (), stored)) :
    outOfRangeColumn tx = none := by
  rcases createOnchainTx_cases C fault tx txs with ⟨-, hcol, -⟩ | ⟨-, hcol, -⟩ | ⟨-, e, he⟩
  · exact hcol
  · exact hcol
  · rw [he] at h
    cases h

/-- The two refusals are told apart by their numbers. -/
theorem outOfRange_ne_duplicateTxHash (column : Str) : outOfRange column ≠ duplicateTxHash := by
  intro h
  have hnumber : bytes "Error 1264" = bytes "Error 1062" := congrArg (List.take 10) h
  exact absurd hnumber (by decide)

/-- So is what went through or found its hash taken. -/
theorem outOfRangeColumn_of_taken {C : Collation} {tx : OnchainTransaction}
    {txs : List OnchainTransaction}
    (h : ∀ e, (createOnchainTx C none tx txs).1 = .error e →
      e = .wrap (bytes "insert onchain_tx: ") (.new duplicateTxHash)) :
    outOfRangeColumn tx = none := by
  cases hcol : outOfRangeColumn tx with
  | none => rfl
  | some column =>
    have hrefused : (createOnchainTx C none tx txs).1 =
        .error (.wrap (bytes "insert onchain_tx: ") (.new (outOfRange column))) := by
      simp only [createOnchainTx, hcol]
    have hmsg := congrArg Err.msg (h _ hrefused)
    exact absurd (List.append_cancel_left hmsg) (outOfRange_ne_duplicateTxHash column)

/-- A lookup that does not fail tells whether the hash is there. -/
theorem getByTxHash_cases (fault : Option Fault) (txHash : Str) (txs : List OnchainTransaction) :
    (∃ t ∈ txs, C.eq t.txHash txHash = true ∧ getByTxHash C fault txHash txs = .ok t) ∨
    (fault = none ∧ (∀ t ∈ txs, C.eq t.txHash txHash = false) ∧
      getByTxHash C fault txHash txs = .error (.of .onchainTxNotFound)) ∨
    (∃ f, fault = some f ∧ getByTxHash C fault txHash txs =
      .error (.wrap (bytes "scan onchain_tx: ") (.new f.msg))) := by
  unfold getByTxHash
  cases fault with
  | some f => exact .inr (.inr ⟨f, rfl, rfl⟩)
  | none =>
    cases hfind : txs.find? fun t => C.eq t.txHash txHash with
    | some t =>
      have heq : C.eq t.txHash txHash = true :=
        List.find?_some (p := fun t : OnchainTransaction => C.eq t.txHash txHash) hfind
      exact .inl ⟨t, List.mem_of_find?_eq_some hfind, heq, rfl⟩
    | none => exact .inr (.inl ⟨rfl, by simpa using hfind, rfl⟩)

/-- **UpdateConfirmations** changes the rows of the hash, at least one, or nothing at all. -/
theorem setConfirmations_cases (fault : Option Fault) (txHash : Str) (n : UInt64)
    (st : OnchainTxStatus) (txs : List OnchainTransaction) :
    (fault = none ∧ (∃ t ∈ txs, C.eq t.txHash txHash = true) ∧
      setConfirmations C fault txHash n st txs =
        (.ok (), updateWhere (fun t => C.eq t.txHash txHash)
          (fun t => { t with confirmations := n, status := st }) txs)) ∨
    (∃ e, setConfirmations C fault txHash n st txs = (.error e, txs)) := by
  unfold setConfirmations
  cases fault with
  | some f => exact .inr ⟨_, rfl⟩
  | none =>
    by_cases hany : (txs.any fun t => C.eq t.txHash txHash) = true
    · by_cases hfits : fitsBigint n = true
      · refine .inl ⟨rfl, List.any_eq_true.mp hany, ?_⟩
        simp only [hany, hfits, if_true]
      · refine .inr ⟨.wrap (bytes "update onchain_tx: ")
          (.new (outOfRange (bytes "confirmations"))), ?_⟩
        simp only [hany, hfits, if_true, Bool.false_eq_true, if_false]
    · refine .inr ⟨.of .onchainTxNotFound, ?_⟩
      simp only [hany, Bool.false_eq_true, if_false]

/-- It changes them exactly if the count fits its column and the call does not fail. -/
theorem setConfirmations_ok_iff {fault : Option Fault} {txHash : Str} {n : UInt64}
    {st : OnchainTxStatus} {txs : List OnchainTransaction} :
    (setConfirmations C fault txHash n st txs).1 = .ok () ↔
      fault = none ∧ fitsBigint n = true ∧ ∃ t ∈ txs, C.eq t.txHash txHash = true := by
  have hany : (txs.any fun t => C.eq t.txHash txHash) = true ↔
      ∃ t ∈ txs, C.eq t.txHash txHash = true := List.any_eq_true
  unfold setConfirmations
  cases fault with
  | some f => simp
  | none =>
    rw [← hany]
    cases txs.any fun t => C.eq t.txHash txHash <;> cases fitsBigint n <;> simp

end

/-- The listed rows are pending rows of the table. -/
theorem mem_listPending {ties : List Nat} {chainID : Int64} {limit : Int}
    {txs : List OnchainTransaction} {p : OnchainTransaction}
    (h : p ∈ listPending ties chainID limit txs) :
    p ∈ txs ∧ p.chainID = chainID ∧ p.status = .pending := by
  have hsort := List.mem_of_mem_take h
  rw [List.mem_insertionSort] at hsort
  have hfilter := (shuffle_perm _ _).mem_iff.mp hsort
  simpa using hfilter

end EasyPay
