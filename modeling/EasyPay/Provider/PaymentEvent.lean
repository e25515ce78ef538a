import EasyPay.Domain

/-!
# Payment events

The logs of the payment contract: `internal/provider/blockchain/parser.go`, and the types
the chain client of `client.go` takes and returns.

A `PaymentReceived` log carries the order id (a `bytes32`) and the payer in its topics, the
token and the amount in its data.  The text of a transaction hash determines the hash
(`Hash.hex_injective`); which order ids a topic can carry says `exists_carries_iff`.
-/

namespace EasyPay

open GoStrings

/-- `common.Hash`. -/
structure Hash where
  data : Str
  length_eq : data.length = 32
  deriving DecidableEq, Repr

namespace Hash

def zero : Hash := ⟨List.replicate 32 0, by decide⟩

/-- `Hash.Hex`. -/
def hex (h : Hash) : Str := bytes "0x" ++ hexEncode h.data

theorem hex_injective {a b : Hash} (h : a.hex = b.hex) : a = b := by
  obtain ⟨a, ha⟩ := a
  obtain ⟨b, hb⟩ := b
  have hdata : a = b := hexEncode_injective (List.append_cancel_left h)
  subst hdata
  rfl

end Hash

/-- `common.Address`. -/
structure Address where
  data : Str
  length_eq : data.length = 20
  deriving DecidableEq, Repr

/-- `common.BytesToAddress`: the last 20 bytes, with zeros in front of a shorter text. -/
def bytesToAddress (b : Str) : Address where
  data := List.replicate (20 - b.length) 0 ++ b.drop (b.length - 20)
  length_eq := by
    rw [List.length_append, List.length_replicate, List.length_drop]
    omega

/-- The part of `types.Log` the listener reads. -/
structure Log where
  address : Address
  topics : List Hash
  data : Str
  blockNumber : UInt64
  txHash : Hash
  deriving DecidableEq, Repr

structure ChainConfig where
  chainID : Int64
  contractAddress : Address
  requiredConfirmations : UInt64
  startBlock : UInt64
  /-- Zero: every log of the contract. -/
  eventTopic : Hash
  deriving DecidableEq, Repr

/-- `ethereum.FilterQuery` with one address and one topic at most; both ends of the range
belong to it. -/
structure FilterQuery where
  fromBlock : UInt64
  toBlock : UInt64
  address : Address
  topic : Option Hash
  deriving DecidableEq, Repr

/-- The logs of the contract the listener asks for. -/
def ChainConfig.selects (cfg : ChainConfig) (lg : Log) : Bool :=
  lg.address = cfg.contractAddress &&
    (cfg.eventTopic = Hash.zero || lg.topics.head? = some cfg.eventTopic)

/-- The query of one window of the backfill. -/
def ChainConfig.window (cfg : ChainConfig) (fromBlock toBlock : UInt64) : FilterQuery :=
  { fromBlock := fromBlock
    toBlock := toBlock
    address := cfg.contractAddress
    topic := if cfg.eventTopic = Hash.zero then none else some cfg.eventTopic }

/-- What a node answers a query with. -/
def FilterQuery.accepts (q : FilterQuery) (lg : Log) : Bool :=
  decide (q.fromBlock ≤ lg.blockNumber) && decide (lg.blockNumber ≤ q.toBlock) &&
    decide (lg.address = q.address) &&
    match q.topic with
    | none => true
    | some topic => lg.topics.head? = some topic

theorem ChainConfig.window_accepts {cfg : ChainConfig} {fromBlock toBlock : UInt64} {lg : Log} :
    (cfg.window fromBlock toBlock).accepts lg = true ↔
      fromBlock ≤ lg.blockNumber ∧ lg.blockNumber ≤ toBlock ∧ cfg.selects lg = true := by
  unfold FilterQuery.accepts ChainConfig.window ChainConfig.selects
  by_cases h : cfg.eventTopic = Hash.zero
  · simp [h, and_assoc]
  · simp [h, and_assoc]

structure ParsedPaymentEvent where
  orderID : Str
  payer : Address
  token : Address
  amount : Nat
  deriving DecidableEq, Repr

def trimZero (b : Str) : Str := b.dropWhile (· = 0)

/-- `big.Int.SetBytes`: the bytes are a big-endian number. -/
def setBytes (b : Str) : Nat := b.foldl (fun n c => n * 256 + c.toNat) 0

def parsePaymentEvent (lg : Log) : Res ParsedPaymentEvent :=
  match lg.topics with
  | _ :: orderID :: payer :: _ =>
    if lg.data.length < 64 then .error (.of .unexpectedLog)
    else
      .ok
        { orderID := trimZero orderID.data
          payer := bytesToAddress payer.data
          token := bytesToAddress ((lg.data.take 32).drop 12)
          amount := setBytes ((lg.data.take 64).drop 32) }
  | _ => .error (.of .unexpectedLog)

/-! ## Which order ids a topic can carry -/

/-- Every well-formed log with this `orderId` topic is read as a payment of `o`. -/
def Carries (topic : Hash) (o : Str) : Prop :=
  ∀ lg : Log, 3 ≤ lg.topics.length → lg.topics[1]? = some topic → 64 ≤ lg.data.length →
    ∃ ev, parsePaymentEvent lg = .ok ev ∧ ev.orderID = o

theorem parsePaymentEvent_of_topic {lg : Log} {topic : Hash} (htopics : 3 ≤ lg.topics.length)
    (htopic : lg.topics[1]? = some topic) (hdata : 64 ≤ lg.data.length) :
    ∃ ev, parsePaymentEvent lg = .ok ev ∧ ev.orderID = trimZero topic.data := by
  unfold parsePaymentEvent
  split
  · next a orderID payer rest heq =>
    rw [heq] at htopic
    obtain rfl : orderID = topic := by simpa using htopic
    rw [if_neg (by omega)]
    exact ⟨_, rfl, rfl⟩
  · next hshort =>
    match hlist : lg.topics with
    | [] | [_] | [_, _] =>
      rw [hlist] at htopics
      simp at htopics
    | a :: b :: c :: rest => exact absurd hlist (hshort a b c rest)

theorem carries_iff {topic : Hash} {o : Str} : Carries topic o ↔ trimZero topic.data = o := by
  constructor
  · intro h
    let lg : Log := ⟨bytesToAddress [], [topic, topic, topic], List.replicate 64 0, 0, topic⟩
    have htopics : 3 ≤ lg.topics.length := Nat.le_refl 3
    have htopic : lg.topics[1]? = some topic := rfl
    have hdata : 64 ≤ lg.data.length := Nat.le_of_eq List.length_replicate.symm
    obtain ⟨ev, hev, ho⟩ := h lg htopics htopic hdata
    obtain ⟨ev', hev', ho'⟩ := parsePaymentEvent_of_topic htopics htopic hdata
    cases hev.symm.trans hev'
    exact ho'.symm.trans ho
  · rintro rfl lg htopics htopic hdata
    exact parsePaymentEvent_of_topic htopics htopic hdata

/-- Trimming drops zeros only. -/
theorem trimZero_append {n : Nat} {o : Str} (h : o.head? ≠ some 0) :
    trimZero (List.replicate n 0 ++ o) = o := by
  unfold trimZero
  induction n with
  | zero =>
    cases o with
    | nil => rfl
    | cons c o =>
      rw [List.replicate_zero, List.nil_append, List.dropWhile_cons_of_neg]
      simpa using h
  | succ n ih =>
    rw [List.replicate_succ, List.cons_append, List.dropWhile_cons_of_pos (by simp)]
    exact ih

theorem head?_trimZero (b : Str) : (trimZero b).head? ≠ some 0 := by
  unfold trimZero
  intro h
  have hnot := List.head?_dropWhile_not (fun c : UInt8 => decide (c = 0)) b
  rw [h] at hnot
  simp at hnot

/-- **An order id fits a topic** if it has at most 32 bytes and does not start with a zero. -/
theorem exists_carries_iff {o : Str} :
    (∃ topic, Carries topic o) ↔ o.length ≤ 32 ∧ o.head? ≠ some 0 := by
  constructor
  · rintro ⟨topic, h⟩
    rw [carries_iff] at h
    subst h
    refine ⟨?_, head?_trimZero topic.data⟩
    have hsub : (trimZero topic.data).Sublist topic.data := List.dropWhile_sublist _
    exact Nat.le_trans hsub.length_le (Nat.le_of_eq topic.length_eq)
  · rintro ⟨hle, hhead⟩
    refine ⟨⟨List.replicate (32 - o.length) 0 ++ o, ?_⟩, carries_iff.mpr (trimZero_append hhead)⟩
    rw [List.length_append, List.length_replicate]
    omega

/-! ## What the contract emits is read back -/

/-- `width` bytes with `b` at the end, zeros in front of it. -/
def leftPad (width : Nat) (b : Str) : Str := List.replicate (width - b.length) 0 ++ b

/-- A number as `width` bytes, the most significant first. -/
def bigEndian : (width : Nat) → (n : Nat) → Str
  | 0, _ => []
  | width + 1, n => bigEndian width (n / 256) ++ [(n % 256).toUInt8]

theorem length_leftPad {width : Nat} {b : Str} (h : b.length ≤ width) :
    (leftPad width b).length = width := by
  unfold leftPad
  rw [List.length_append, List.length_replicate]
  omega

theorem length_bigEndian (width n : Nat) : (bigEndian width n).length = width := by
  induction width generalizing n with
  | zero => rfl
  | succ width ih => rw [bigEndian, List.length_append, ih, List.length_singleton]

theorem setBytes_concat (b : Str) (c : UInt8) : setBytes (b ++ [c]) = setBytes b * 256 + c.toNat := by
  unfold setBytes
  rw [List.foldl_append]
  rfl

/-- Reading a number of at most `width` bytes back. -/
theorem setBytes_bigEndian {width n : Nat} (h : n < 256 ^ width) : setBytes (bigEndian width n) = n := by
  induction width generalizing n with
  | zero =>
    rw [Nat.pow_zero] at h
    have hzero : n = 0 := by omega
    rw [hzero]
    rfl
  | succ width ih =>
    have hrest : n / 256 < 256 ^ width := by
      rw [Nat.pow_succ] at h
      exact Nat.div_lt_of_lt_mul (by omega)
    have hbyte : (n % 256).toUInt8.toNat = n % 256 := by
      rw [Nat.toUInt8_eq, UInt8.toNat_ofNat']
      omega
    rw [bigEndian, setBytes_concat, ih hrest, hbyte]
    omega

/-- An order id as a `bytes32` topic. -/
def orderTopic (o : Str) (h : o.length ≤ 32) : Hash := ⟨leftPad 32 o, length_leftPad h⟩

theorem Address.length_le (a : Address) : a.data.length ≤ 32 := by
  rw [a.length_eq]
  decide

/-- An address as a topic. -/
def addressTopic (a : Address) : Hash := ⟨leftPad 32 a.data, length_leftPad a.length_le⟩

theorem bytesToAddress_leftPad (a : Address) : bytesToAddress (leftPad 32 a.data) = a := by
  have hlen : (leftPad 32 a.data).length = 32 := length_leftPad a.length_le
  have hdrop : (leftPad 32 a.data).drop 12 = a.data := by
    unfold leftPad
    rw [a.length_eq]
    exact List.drop_left' List.length_replicate
  obtain ⟨data, hdata⟩ := a
  unfold bytesToAddress
  simp only [hlen, Address.mk.injEq]
  exact hdrop

theorem bytesToAddress_data (a : Address) : bytesToAddress a.data = a := by
  obtain ⟨data, hdata⟩ := a
  unfold bytesToAddress
  simp [hdata]

/-- A `PaymentReceived` log as `parser.go` documents it, with whatever may follow. -/
structure EncodesPayment (lg : Log) (o : Str) (payer token : Address) (amount : Nat) : Prop where
  topics : ∃ (h : o.length ≤ 32) (signature : Hash) (more : List Hash),
    lg.topics = signature :: orderTopic o h :: addressTopic payer :: more
  data : ∃ more, lg.data = leftPad 32 token.data ++ bigEndian 32 amount ++ more

theorem EncodesPayment.parsed {lg : Log} {o : Str} {payer token : Address} {amount : Nat}
    (h : EncodesPayment lg o payer token amount) (ho : validateOrderID o = .ok ())
    (hamount : amount < 2 ^ 256) : parsePaymentEvent lg = .ok ⟨o, payer, token, amount⟩ := by
  obtain ⟨hlen, signature, moreTopics, htopics⟩ := h.topics
  obtain ⟨more, hdata⟩ := h.data
  have htoken : (leftPad 32 token.data).length = 32 := length_leftPad token.length_le
  have hbig : (bigEndian 32 amount).length = 32 := length_bigEndian 32 amount
  -- a valid order id does not start with a zero
  have hhead : o.head? ≠ some 0 := by
    intro hzero
    have hbyte := ((validateOrderID_ok_iff o).mp ho).2.2 0 (List.mem_of_head? hzero)
    cases hbyte
  have hfirst : (lg.data.take 32).drop 12 = token.data := by
    rw [hdata, List.append_assoc, List.take_left' htoken]
    unfold leftPad
    rw [token.length_eq]
    exact List.drop_left' List.length_replicate
  have hsecond : (lg.data.take 64).drop 32 = bigEndian 32 amount := by
    rw [hdata, List.take_left' (by rw [List.length_append, htoken, hbig]), List.drop_left' htoken]
  have hlong : ¬ lg.data.length < 64 := by
    rw [hdata, List.length_append, List.length_append, htoken, hbig]
    omega
  unfold parsePaymentEvent
  rw [htopics]
  simp only
  rw [if_neg hlong, hfirst, hsecond, setBytes_bigEndian hamount, bytesToAddress_data]
  unfold orderTopic addressTopic
  simp only
  rw [bytesToAddress_leftPad]
  unfold leftPad
  rw [trimZero_append hhead]

/-- `b[lo:hi]`; `none` is the panic of a slice out of range. -/
def slice (lo hi : Nat) (b : Str) : Option Str :=
  if lo ≤ hi ∧ hi ≤ b.length then some ((b.take hi).drop lo) else none

/-- `ParsePaymentEvent` with the bounds checks of its indices and slices; `none` is a panic. -/
def parseInBounds (lg : Log) : Option (Res ParsedPaymentEvent) :=
  if lg.topics.length < 3 then some (.error (.of .unexpectedLog))
  else if lg.data.length < 64 then some (.error (.of .unexpectedLog))
  else
    match lg.topics[1]?, lg.topics[2]?, slice 12 32 lg.data, slice 32 64 lg.data with
    | some orderID, some payer, some token, some amount =>
      some (.ok
        { orderID := trimZero orderID.data
          payer := bytesToAddress payer.data
          token := bytesToAddress token
          amount := setBytes amount })
    | _, _, _, _ => none

/-- No index is out of range. -/
theorem parseInBounds_eq (lg : Log) : parseInBounds lg = some (parsePaymentEvent lg) := by
  unfold parseInBounds parsePaymentEvent
  match htopics : lg.topics with
  | [] | [_] | [_, _] => rfl
  | a :: orderID :: payer :: rest =>
    rw [if_neg (by simp)]
    simp only
    split
    · rfl
    next hlong =>
    unfold slice
    rw [if_pos ⟨by omega, by omega⟩, if_pos ⟨by omega, by omega⟩]
    rfl

theorem parsePaymentEvent_error_iff (lg : Log) :
    (∃ e, parsePaymentEvent lg = .error e) ↔ lg.topics.length < 3 ∨ lg.data.length < 64 := by
  unfold parsePaymentEvent
  match htopics : lg.topics with
  | [] | [_] | [_, _] => simp
  | a :: orderID :: payer :: rest =>
    simp only
    split
    · next hshort => simp [hshort]
    · next hlong => simp [hlong]

/-- **Parsing inverts the encoding** of a payment, for every order id that fits a topic, and fails just
for the logs that are too short; it never reads outside the log. -/
theorem parsePaymentEvent_inverts :
    (∀ (lg : Log) (o : Str) (payer token : Address) (amount : Nat), validateOrderID o = .ok () →
      o.length ≤ 32 → amount < 2 ^ 256 → EncodesPayment lg o payer token amount →
      parsePaymentEvent lg = .ok ⟨o, payer, token, amount⟩) ∧
    ∀ lg : Log, parseInBounds lg = some (parsePaymentEvent lg) ∧
      ((∃ e, parsePaymentEvent lg = .error e) ↔ lg.topics.length < 3 ∨ lg.data.length < 64) :=
  ⟨fun _ _ _ _ _ ho _ hamount h => h.parsed ho hamount,
    fun lg => ⟨parseInBounds_eq lg, parsePaymentEvent_error_iff lg⟩⟩

/-- A payment of 1500 for the order `o-1`, with a topic and a byte more than there need be. -/
def loggedPayment : Log where
  address := bytesToAddress []
  topics := [⟨List.replicate 32 7, rfl⟩, orderTopic (bytes "o-1") (by decide),
    addressTopic (bytesToAddress [1]), ⟨List.replicate 32 8, rfl⟩]
  data := leftPad 32 (bytesToAddress [2]).data ++ bigEndian 32 1500 ++ [9]
  blockNumber := 0
  txHash := ⟨List.replicate 32 0, rfl⟩

theorem parsePaymentEvent_inverts_logged :
    parsePaymentEvent loggedPayment =
        .ok ⟨bytes "o-1", bytesToAddress [1], bytesToAddress [2], 1500⟩ ∧
      ∃ e, parsePaymentEvent { loggedPayment with data := loggedPayment.data.take 63 } = .error e := by
  obtain ⟨hinverts, hbounds⟩ := parsePaymentEvent_inverts
  have hencodes : EncodesPayment loggedPayment (bytes "o-1") (bytesToAddress [1])
      (bytesToAddress [2]) 1500 :=
    ⟨⟨by decide, _, _, rfl⟩, ⟨_, rfl⟩⟩
  refine ⟨hinverts _ _ _ _ _ (by decide) (by decide) (by decide) hencodes, ?_⟩
  exact (hbounds _).2.mpr (.inr (by decide))

end EasyPay
