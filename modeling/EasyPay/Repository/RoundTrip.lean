import EasyPay.Repository.TransactionRepo

/-!
# Rows read back

`Insert` writes a transaction as integers and bytes, `scanTransaction` reads them back.  Nothing a
payment depends on is lost on the way (`row_reads_back`): the ids, the amount, the status and
Stripe's ids come back as they were, up to the letter case of the transaction id, and writing what
was read gives the same columns again.

The two TIMESTAMP columns are not assumed to come back as they were written.
-/

namespace EasyPay

open GoStrings

/-- The columns of integers and bytes are the same. -/
structure Row.SameData (r r' : Row) : Prop where
  facts : r'.facts = r.facts
  status : r'.status = r.status
  stripePiID : r'.stripePiID = r.stripePiID
  stripeSession : r'.stripeSession = r.stripeSession

/-- An empty string is stored as NULL, and read back from it. -/
@[simp] theorem stringOf_nullBytes (s : Str) : stringOf (nullBytes s) = s := by
  unfold nullBytes
  split
  · next h => exact h.symm
  · rfl

namespace TransactionRepo

variable {R : TransactionRepo} {now now' : Time} {t t' : Transaction} {r r' : Row}

/-- Two transactions are stored as the same data if they say the same. -/
theorem Stored.sameData (h : R.Stored now t r) (h' : R.Stored now' t' r')
    (htxn : decodeHex16 t'.transactionID = decodeHex16 t.transactionID)
    (hm : t'.merchantID = t.merchantID) (ho : t'.orderID = t.orderID) (ha : t'.amount = t.amount)
    (hcur : encodeCurrency R.unicode t'.currency = encodeCurrency R.unicode t.currency)
    (hst : t'.status = t.status)
    (hpm : encodeMethod R.unicode t'.paymentMethod = encodeMethod R.unicode t.paymentMethod)
    (hpi : t'.stripePaymentIntentID = t.stripePaymentIntentID)
    (hsess : t'.stripeSessionID = t.stripeSessionID) : r.SameData r' := by
  have hid : r.transactionID = r'.transactionID := by
    have heq := h'.transactionID
    rw [htxn, h.transactionID] at heq
    exact Except.ok.inj heq
  have hcode : r.currencyCode = r'.currencyCode := by
    have heq := h'.currency
    rw [hcur, h.currency] at heq
    exact Except.ok.inj heq
  constructor
  · unfold Row.facts
    rw [hid, hcode, h.merchantID, h'.merchantID, hm, h.orderID, h'.orderID, ho, h.amount, h'.amount, ha,
      h.paymentMethod, h'.paymentMethod, hpm]
  · rw [h.status, h'.status, hst]
  · rw [h.stripePiID, h'.stripePiID, hpi]
  · rw [h.stripeSession, h'.stripeSession, hsess]

theorem scanTransaction_createdAt (h : scanTransaction r = .ok t) : t.createdAt = r.createdAt := by
  unfold scanTransaction at h
  split at h
  · cases h
  split at h
  · cases h
  cases h
  rfl

/-- What is read back from the columns of a stored transaction, field by field. -/
theorem Stored.scanned (h : R.Stored now t r) (hsame : r.SameData r')
    (hscan : scanTransaction r' = .ok t') :
    t'.merchantID = t.merchantID ∧ t'.orderID = t.orderID ∧ t'.amount = t.amount ∧
      t'.status = t.status ∧ t'.stripePaymentIntentID = t.stripePaymentIntentID ∧
      t'.stripeSessionID = t.stripeSessionID ∧
      t'.transactionID = toLower R.unicode t.transactionID ∧
      t'.currency = toUpper R.unicode t.currency ∧
      t'.paymentMethod = decodeMethod (encodeMethod R.unicode t.paymentMethod) := by
  obtain ⟨hm, htxn, ho, ha, hcur, hst, hpm, hsess, hpi⟩ := scanTransaction_ok hscan
  have hf : ∀ {β : Type} (f : Facts → β), f r'.facts = f r.facts := fun f => congrArg f hsame.facts
  have hm' : r'.merchantID = r.merchantID := hf Facts.merchantID
  have ho' : r'.orderID = r.orderID := hf Facts.orderID
  have ha' : r'.amount = r.amount := hf Facts.amount
  have htxn' : r'.transactionID = r.transactionID := hf Facts.transactionID
  have hcur' : r'.currencyCode = r.currencyCode := hf Facts.currencyCode
  have hpm' : r'.paymentMethod = r.paymentMethod := hf Facts.paymentMethod
  refine ⟨?_, ?_, ?_, ?_, ?_, ?_, ?_, ?_, ?_⟩
  · rw [hm, hm', h.merchantID]
  · rw [ho, ho', h.orderID]
  · rw [ha, ha', h.amount, Int64.toInt64_toUInt64]
  · rw [hsame.status, h.status, decodeStatus_encodeStatus] at hst
    exact (Except.ok.inj hst).symm
  · rw [hpi, hsame.stripePiID, h.stripePiID, stringOf_nullBytes]
  · rw [hsess, hsame.stripeSession, h.stripeSession, stringOf_nullBytes]
  · rw [htxn, htxn', hexLower_eq]
    exact hexEncode_of_decodeHex16 h.transactionID R.unicode
  · rw [hcur', decodeCurrency_encodeCurrency h.currency] at hcur
    exact (Except.ok.inj hcur).symm
  · rw [hpm, hpm', h.paymentMethod]

end TransactionRepo

open TransactionRepo

/-- **The row codec loses nothing.**  A transaction whose columns `r` reach the statement is read back
from any row with the same data, and stored again it gives that data again. -/
theorem row_reads_back (R : TransactionRepo) {now : Time} {t : Transaction} {r : Row}
    (h : R.row now t = .ok r) {r' : Row} (hsame : r.SameData r') :
    ∃ t', scanTransaction r' = .ok t' ∧
      t'.merchantID = t.merchantID ∧ t'.orderID = t.orderID ∧ t'.amount = t.amount ∧
      t'.status = t.status ∧ t'.stripePaymentIntentID = t.stripePaymentIntentID ∧
      t'.stripeSessionID = t.stripeSessionID ∧
      t'.transactionID = toLower R.unicode t.transactionID ∧
      t'.currency = toUpper R.unicode t.currency ∧
      t'.paymentMethod = (if toLower R.unicode t.paymentMethod ∈ methodToCode.map Prod.fst then
        toLower R.unicode t.paymentMethod else bytes "unknown") ∧
      ∀ now', ∃ r'', R.row now' t' = .ok r'' ∧ r.SameData r'' ∧ r''.updatedAt = now' ∧
        (r'.createdAt ≠ 0 → r''.createdAt = r'.createdAt) := by
  have hs := R.row_stored h
  obtain ⟨t', hscan⟩ := exists_scanTransaction r'
  obtain ⟨hm, ho, ha, hst, hpi, hsess, htxn, hcur, hpm⟩ := hs.scanned hsame hscan
  refine ⟨t', hscan, hm, ho, ha, hst, hpi, hsess, htxn, hcur, ?_, fun now' => ?_⟩
  · rw [hpm, decodeMethod_encodeMethod]
  -- what was read passes the checks again, and is encoded to the same codes
  have htxn' : decodeHex16 t'.transactionID = .ok r.transactionID := by
    rw [htxn, ← hexEncode_of_decodeHex16 hs.transactionID]
    exact decodeHex16_hexEncode _ r.transactionID_length
  have hcur' : encodeCurrency R.unicode t'.currency = .ok r.currencyCode := by
    rw [hcur]
    exact encodeCurrency_decodeCurrency hs.currency (decodeCurrency_encodeCurrency hs.currency)
  have hshort : t'.merchantID.length ≤ 16 := by
    rw [hm, ← hs.merchantID]
    exact r.merchantID_length
  obtain ⟨r'', hr''⟩ := R.exists_row_of_nonneg now' hshort htxn' (ho ▸ hs.valid) (ha ▸ hs.nonneg) hcur'
  have hs'' := R.row_stored hr''
  refine ⟨r'', hr'', ?_, hs''.updatedAt, fun hne => ?_⟩
  · refine hs.sameData hs'' (htxn'.trans hs.transactionID.symm) hm ho ha
      (hcur'.trans hs.currency.symm) hst ?_ hpi hsess
    rw [hpm, encodeMethod_decodeMethod_encodeMethod]
  · have hcreated : t'.createdAt = r'.createdAt := scanTransaction_createdAt hscan
    rw [hs''.createdAt, hcreated, if_neg hne]

/-- A transaction spelled otherwise than it reads back. -/
def Transaction.spelled : Transaction :=
  { merchantID := bytes "m1"
    transactionID := bytes "ABCDEF00112233445566778899AABBCC"
    orderID := bytes "o-1"
    amount := 1500
    currency := bytes "eur"
    status := .pending
    paymentMethod := bytes "Klarna"
    stripeSessionID := []
    stripePaymentIntentID := bytes "pi_1"
    createdAt := 0
    updatedAt := 0
    shardIndex := 0 }

theorem row_reads_back_spelled :
    ∃ r t', (TransactionRepo.mk .ascii .binary .single).row 7 Transaction.spelled = .ok r ∧
      scanTransaction r = .ok t' ∧ t'.transactionID = bytes "abcdef00112233445566778899aabbcc" ∧
      t'.currency = bytes "EUR" ∧ t'.paymentMethod = bytes "klarna" ∧ t'.amount = 1500 := by
  have htxn : decodeHex16 Transaction.spelled.transactionID = .ok
      [0xAB, 0xCD, 0xEF, 0, 0x11, 0x22, 0x33, 0x44, 0x55, 0x66, 0x77, 0x88, 0x99, 0xAA, 0xBB, 0xCC] := by
    decide +kernel
  have hcur : encodeCurrency .ascii Transaction.spelled.currency = .ok 978 := by decide +kernel
  obtain ⟨r, hr⟩ := (TransactionRepo.mk .ascii .binary .single).exists_row_of_nonneg 7 (by decide) htxn
    (by decide) (by decide) hcur
  obtain ⟨t', hscan, -, -, ha, -, -, -, htxn, hcur, hpm, -⟩ := row_reads_back _ hr ⟨rfl, rfl, rfl, rfl⟩
  exact ⟨r, t', hr, hscan, htxn.trans (by decide), hcur.trans (by decide), hpm.trans (by decide), ha⟩

end EasyPay
