import EasyPay.Domain

/-!
# Row codec

`internal/repository/codec.go`: status, payment method and currency are stored
as integers, the transaction id as sixteen bytes.

The unknown-status branch of `encodeStatus` has no counterpart: the type of a
status has the six constants only.
-/

namespace EasyPay

open GoStrings

/-! ## Status -/

def statusCreated : UInt8 := 0
def statusPending : UInt8 := 1
def statusPaid : UInt8 := 2
def statusFailed : UInt8 := 3
def statusExpired : UInt8 := 4
def statusRefunded : UInt8 := 5

def encodeStatus : TransactionStatus → UInt8
  | .created => statusCreated
  | .pending => statusPending
  | .paid => statusPaid
  | .failed => statusFailed
  | .expired => statusExpired
  | .refunded => statusRefunded

def decodeStatus (v : UInt8) : Res TransactionStatus :=
  if v = statusCreated then .ok .created
  else if v = statusPending then .ok .pending
  else if v = statusPaid then .ok .paid
  else if v = statusFailed then .ok .failed
  else if v = statusExpired then .ok .expired
  else if v = statusRefunded then .ok .refunded
  else .error (.new (bytes "decode status: unknown " ++ formatInt v.toNat))

@[simp] theorem decodeStatus_encodeStatus (s : TransactionStatus) :
    decodeStatus (encodeStatus s) = .ok s := by
  cases s <;> rfl

/-- A status that can be read has one code. -/
theorem encodeStatus_of_decodeStatus {v : UInt8} {s : TransactionStatus}
    (h : decodeStatus v = .ok s) : v = encodeStatus s := by
  unfold decodeStatus at h
  repeat'
    first
      | split at h
      | cases h
  all_goals assumption

theorem eq_encodeStatus_iff {v : UInt8} {s : TransactionStatus} (h : decodeStatus v = .ok s)
    (s' : TransactionStatus) : v = encodeStatus s' ↔ s = s' := by
  constructor
  · rintro rfl
    rw [decodeStatus_encodeStatus] at h
    exact (Except.ok.inj h).symm
  · rintro rfl
    exact encodeStatus_of_decodeStatus h

/-! ## Amount

An `int64` goes into an unsigned column, and back. -/

/-- An amount that is not negative takes the lower half of the column. -/
theorem toUInt64_lt {a : Int64} (h : 0 ≤ a) : a.toUInt64.toNat < 2 ^ 63 := by
  have hle : (0 : Int64).toInt ≤ a.toInt := Int64.le_iff_toInt_le.mp h
  have hzero : (0 : Int64).toInt = 0 := rfl
  have hint : a.toInt = a.toBitVec.toInt := rfl
  have hnat : a.toUInt64.toNat = a.toBitVec.toNat := rfl
  rw [hnat]
  rw [hint, BitVec.toInt_eq_toNat_cond] at hle
  split at hle <;> omega

/-- What is stored there is read as it is. -/
theorem toInt_toInt64 {n : UInt64} (h : n.toNat < 2 ^ 63) : n.toInt64.toInt = n.toNat := by
  have hint : n.toInt64.toInt = n.toBitVec.toInt := rfl
  have hnat : n.toNat = n.toBitVec.toNat := rfl
  rw [hint, BitVec.toInt_eq_toNat_cond, if_pos (by omega), hnat]

/-! ## Payment method -/

def methodUnknown : UInt8 := 9

def methodToCode : List (Str × UInt8) :=
  [(bytes "card", 0), (bytes "crypto_eth", 1), (bytes "wallet", 2), (bytes "bank_transfer", 3),
   (bytes "klarna", 4), (bytes "afterpay", 5), (bytes "affirm", 6), (bytes "sepa_debit", 7),
   (bytes "us_bank_account", 8)]

def codeToMethod : List (UInt8 × Str) :=
  [(0, bytes "card"), (1, bytes "crypto_eth"), (2, bytes "wallet"), (3, bytes "bank_transfer"),
   (4, bytes "klarna"), (5, bytes "afterpay"), (6, bytes "affirm"), (7, bytes "sepa_debit"),
   (8, bytes "us_bank_account"), (methodUnknown, bytes "unknown")]

def encodeMethod (U : Unicode) (s : Str) : UInt8 :=
  (methodToCode.lookup (toLower U s)).getD methodUnknown

def decodeMethod (v : UInt8) : Str := (codeToMethod.lookup v).getD (bytes "unknown")

/-- Of the stored methods only `crypto_eth` reads back with the prefix `crypto`. -/
theorem hasPrefix_decodeMethod_encodeMethod (U : Unicode) (s : Str) :
    hasPrefix (decodeMethod (encodeMethod U s)) (bytes "crypto") =
      decide (toLower U s = bytes "crypto_eth") := by
  unfold encodeMethod
  by_cases h : toLower U s = bytes "crypto_eth"
  · rw [h]
    rfl
  · rw [decide_eq_false h]
    -- every other code reads back as one of nine names, none of which starts with `crypto`
    have hcodes : ∀ l : List (Str × UInt8), (∀ p ∈ l, p.1 ≠ bytes "crypto_eth" →
        hasPrefix (decodeMethod p.2) (bytes "crypto") = false) →
        hasPrefix (decodeMethod ((l.lookup (toLower U s)).getD methodUnknown)) (bytes "crypto") =
          false := by
      intro l
      induction l with
      | nil => intro _; rfl
      | cons p l ih =>
        intro hl
        rw [List.lookup_cons]
        split
        · next heq =>
          have hp : toLower U s = p.1 := by simpa using heq
          exact hl p List.mem_cons_self fun e => h (hp.trans e)
        · exact ih fun q hq => hl q (List.mem_cons_of_mem _ hq)
    exact hcodes methodToCode (by decide)

theorem lookup_mem {α β : Type} [BEq α] [LawfulBEq α] {l : List (α × β)} {a : α} {b : β}
    (h : l.lookup a = some b) : (a, b) ∈ l := by
  obtain ⟨l₁, l₂, rfl, -⟩ := List.lookup_eq_some_iff.mp h
  simp

/-- The code of a method reads back as its name, which has the one code. -/
theorem decodeMethod_of_mem : ∀ p ∈ methodToCode,
    decodeMethod p.2 = p.1 ∧ isASCII p.1 = true ∧ p.1.map lowerByte = p.1 := by
  decide

/-- A stored method reads back lower-cased if it is known, and as `unknown` otherwise. -/
theorem decodeMethod_encodeMethod (U : Unicode) (s : Str) :
    decodeMethod (encodeMethod U s) =
      if toLower U s ∈ methodToCode.map Prod.fst then toLower U s else bytes "unknown" := by
  unfold encodeMethod
  cases h : methodToCode.lookup (toLower U s) with
  | none =>
    rw [if_neg]
    · rfl
    · intro hmem
      obtain ⟨p, hp, heq⟩ := List.mem_map.mp hmem
      have hne := List.lookup_eq_none_iff.mp h p hp
      rw [heq] at hne
      simp at hne
  | some v =>
    have hmem := lookup_mem h
    rw [if_pos (List.mem_map.mpr ⟨_, hmem, rfl⟩)]
    exact (decodeMethod_of_mem _ hmem).1

/-- What a method reads back as has the code it was read from. -/
theorem encodeMethod_decodeMethod_encodeMethod (U : Unicode) (s : Str) :
    encodeMethod U (decodeMethod (encodeMethod U s)) = encodeMethod U s := by
  have hlower : ∀ p ∈ methodToCode, toLower U p.1 = p.1 := by
    intro p hp
    obtain ⟨-, hascii, hmap⟩ := decodeMethod_of_mem p hp
    unfold toLower
    rw [if_pos hascii, hmap]
  rw [decodeMethod_encodeMethod]
  split
  · next hmem =>
    obtain ⟨p, hp, heq⟩ := List.mem_map.mp hmem
    unfold encodeMethod
    rw [← heq, hlower p hp]
  · next hnot =>
    unfold encodeMethod
    have hnone : methodToCode.lookup (toLower U s) = none := by
      rw [List.lookup_eq_none_iff]
      intro p hp
      rw [bne_iff_ne]
      intro heq
      exact hnot (List.mem_map.mpr ⟨p, hp, heq.symm⟩)
    rw [hnone]
    rfl

/-! ## Currency -/

def currencyToCode : List (Str × UInt16) :=
  [(bytes "USD", 840), (bytes "EUR", 978), (bytes "GBP", 826), (bytes "JPY", 392),
   (bytes "CNY", 156), (bytes "AUD", 36), (bytes "CAD", 124), (bytes "CHF", 756),
   (bytes "HKD", 344), (bytes "IDR", 360), (bytes "INR", 356), (bytes "KRW", 410),
   (bytes "MYR", 458), (bytes "NZD", 554), (bytes "PHP", 608), (bytes "SGD", 702),
   (bytes "THB", 764), (bytes "TWD", 901), (bytes "VND", 704)]

def codeToCurrency : List (UInt16 × Str) := currencyToCode.map fun p => (p.2, p.1)

def encodeCurrency (U : Unicode) (s : Str) : Res UInt16 :=
  match currencyToCode.lookup (toUpper U s) with
  | some v => .ok v
  | none => .error (.new (bytes "encode currency: unknown " ++ quote U s))

def decodeCurrency (v : UInt16) : Res Str :=
  match codeToCurrency.lookup v with
  | some s => .ok s
  | none => .error (.new (bytes "decode currency: unknown numeric " ++ formatInt v.toNat))

/-- Every currency code reads back as its currency, which is upper-case ASCII. -/
theorem decodeCurrency_of_mem : ∀ p ∈ currencyToCode,
    decodeCurrency p.2 = .ok p.1 ∧ isASCII p.1 = true ∧ p.1.map upperByte = p.1 := by
  decide

/-- A stored currency reads back upper-cased. -/
theorem decodeCurrency_encodeCurrency {U : Unicode} {s : Str} {v : UInt16}
    (h : encodeCurrency U s = .ok v) : decodeCurrency v = .ok (toUpper U s) := by
  unfold encodeCurrency at h
  split at h
  · next hl =>
    obtain rfl := Except.ok.inj h
    exact (decodeCurrency_of_mem _ (lookup_mem hl)).1
  · cases h

/-- What a currency reads back as has the code it was read from. -/
theorem encodeCurrency_decodeCurrency {U : Unicode} {s s' : Str} {v : UInt16}
    (h : encodeCurrency U s = .ok v) (h' : decodeCurrency v = .ok s') :
    encodeCurrency U s' = .ok v := by
  rw [decodeCurrency_encodeCurrency h] at h'
  cases h'
  unfold encodeCurrency at h ⊢
  rw [toUpper_idem]
  split at h
  · exact h
  · cases h

/-- A supported currency is upper-case ASCII once upper-cased. -/
theorem encodeCurrency_ascii {U : Unicode} {s : Str} {v : UInt16}
    (h : encodeCurrency U s = .ok v) : (toUpper U s, v) ∈ currencyToCode := by
  unfold encodeCurrency at h
  split at h
  · next hl =>
    obtain rfl := Except.ok.inj h
    exact lookup_mem hl
  · cases h

/-- No two currencies differ in letter case only. -/
theorem currency_fold_injective : ∀ p ∈ currencyToCode, ∀ q ∈ currencyToCode,
    p.1.map lowerByte = q.1.map lowerByte → p.1 = q.1 := by
  decide

/-! ## Transaction ids -/

def decodeHex16 (s : Str) : Res Str :=
  if s.length ≠ 32 then .error (.new (bytes "hex16: want 32 chars, got " ++ formatInt s.length))
  else
    match hexDecode s with
    | some b => .ok b
    | none => .error (.new (bytes "hex16: " ++ hexError s))

theorem decodeHex16_length {s b : Str} (h : decodeHex16 s = .ok b) : b.length = 16 := by
  unfold decodeHex16 at h
  split at h
  · cases h
  next hlen =>
  split at h
  · next hd =>
    cases h
    have := hexDecode_length hd
    omega
  · cases h

/-- What is read is the id in lower case. -/
theorem hexEncode_of_decodeHex16 {s b : Str} (h : decodeHex16 s = .ok b) (U : Unicode) :
    hexEncode b = toLower U s := by
  unfold decodeHex16 at h
  split at h
  · cases h
  split at h
  · next hd =>
    cases h
    unfold toLower
    rw [if_pos (isASCII_of_hexDecode hd)]
    exact hexEncode_of_hexDecode hd
  · cases h

theorem decodeHex16_hexEncode (b : Str) (h : b.length = 16) :
    decodeHex16 (hexEncode b) = .ok b := by
  unfold decodeHex16
  rw [if_neg (by rw [hexEncode_length, h]; decide), hexDecode_hexEncode]

end EasyPay
