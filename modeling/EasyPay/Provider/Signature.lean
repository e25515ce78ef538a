import EasyPay.Domain

/-!
# Webhook signatures

`internal/provider/stripe/signature.go`: the `Stripe-Signature` header is a comma-separated
list of `key=value` entries; the entry `t` is the time of signing and each entry `v1` the hex
of `HMAC(secret, t.payload)`.  A delivery is accepted if one of the `v1` entries is right and
the time is not too far away.

The HMAC and the JSON decoder of the event are parameters.

* `verifyWithTolerance_signPayload`: what `SignPayload` signs is accepted, and the answer is
  the decoded payload.
* `foldlM_parseEntry_ok_iff`: what the loop over the entries finds.
* `verify_complete_sound`: which headers are accepted.
-/

namespace EasyPay

open GoStrings

/-- A verified Stripe event; `data` is the JSON of its object. -/
structure StripeEvent where
  id : Str
  type : Str
  data : Str
  deriving DecidableEq, Repr

/-- What the loop over the entries has found. -/
structure SigHeader where
  ts : Int64
  v1Sigs : List Str
  deriving DecidableEq, Repr

def parseEntry (h : SigHeader) (part : Str) : Res SigHeader :=
  match cut 61 (trimSpace part) with
  | none => .error (.of .signatureFormat)
  | some (k, v) =>
    if k = bytes "t" then
      match parseInt v with
      | none => .error (.of .signatureFormat)
      | some n => .ok { h with ts := n }
    else if k = bytes "v1" then .ok { h with v1Sigs := h.v1Sigs ++ [v] }
    else .ok h

/-- The entries of a header, one after another; a later `t` replaces an earlier one. -/
def parseHeader (sigHeader : Str) : Res SigHeader :=
  (sigHeader.splitOn 44).foldlM parseEntry ⟨0, []⟩

/-- `-v` wraps at the least `int64`. -/
def abs64 (v : Int64) : Int64 := if v < 0 then -v else v

theorem toInt_abs64 (v : Int64) :
    (abs64 v).toInt = if v.toInt = -2 ^ 63 then -2 ^ 63 else (v.toInt.natAbs : Int) := by
  have hlo := Int64.le_toInt v
  have hhi := Int64.toInt_lt v
  unfold abs64
  by_cases hneg : v < 0
  · have hneg' : v.toInt < 0 := Int64.lt_iff_toInt_lt.mp hneg
    rw [if_pos hneg, Int64.toInt_neg, Int.bmod_def]
    split <;> split <;> omega
  · have hpos : 0 ≤ v.toInt := Int64.le_iff_toInt_le.mp (Int64.not_lt.mp hneg)
    rw [if_neg hneg, if_neg (by omega)]
    omega

/-- **The distance of two times**, as the code computes it: it wraps where they are 2^63 apart or
more. -/
theorem abs64_sub_le_iff {now ts d : Int64} (hd : 0 ≤ d) :
    abs64 (now - ts) ≤ d ↔
      ((now.toInt - ts.toInt).natAbs : Int) ≤ d.toInt ∨
        (now.toInt - ts.toInt).natAbs = 2 ^ 63 ∨
        2 ^ 64 - d.toInt ≤ ((now.toInt - ts.toInt).natAbs : Int) := by
  have hd' : 0 ≤ d.toInt := Int64.le_iff_toInt_le.mp hd
  have hnlo := Int64.le_toInt now
  have hnhi := Int64.toInt_lt now
  have htlo := Int64.le_toInt ts
  have hthi := Int64.toInt_lt ts
  have hdhi := Int64.toInt_lt d
  rw [Int64.le_iff_toInt_le, toInt_abs64, Int64.toInt_sub, Int.bmod_def]
  split <;> split <;> omega

/-- `"%d.%s"`. -/
def signedPayload (ts : Int64) (payload : Str) : Str := formatInt ts.toInt ++ 46 :: payload

/-- Five minutes, in seconds. -/
def defaultTolerance : Int64 := 300

section
variable (hmac : (secret msg : Str) → Str) (decode : Str → Res StripeEvent)

/-- `now` and `tolerance` as the code compares them, in seconds. -/
def verifyWithTolerance (payload sigHeader secret : Str) (tolerance now : Int64) :
    Res StripeEvent :=
  if sigHeader = [] then .error (.of .signatureMissing)
  else if secret = [] then .error (.new (bytes "stripe webhook secret not configured"))
  else
    match parseHeader sigHeader with
    | .error e => .error e
    | .ok h =>
      if h.ts = 0 ∨ h.v1Sigs = [] then .error (.of .signatureFormat)
      else if abs64 (now - h.ts) > tolerance then .error (.of .signatureExpired)
      else if ∀ sig ∈ h.v1Sigs, hexDecode sig ≠ some (hmac secret (signedPayload h.ts payload)) then
        .error (.of .signatureMismatch)
      else
        match decode payload with
        | .error e => .error (e.wrap (bytes "decode event: "))
        | .ok event => .ok event

def verifyAndConstructEvent (now : Time) (payload sigHeader secret : Str) : Res StripeEvent :=
  verifyWithTolerance hmac decode payload sigHeader secret defaultTolerance (unix now)

def signPayload (payload secret : Str) (ts : Int64) : Str :=
  bytes "t=" ++ formatInt ts.toInt ++ bytes ",v1=" ++
    hexEncode (hmac secret (signedPayload ts payload))

end

/-! ## What is signed is accepted -/

theorem parseEntry_of_graphic {h : SigHeader} {k v : Str} (hk : 61 ∉ k)
    (hgraphic : ∀ c ∈ k ++ 61 :: v, isGraphic c = true) :
    parseEntry h (k ++ 61 :: v) =
      if k = bytes "t" then
        match parseInt v with
        | none => .error (.of .signatureFormat)
        | some n => .ok { h with ts := n }
      else if k = bytes "v1" then .ok { h with v1Sigs := h.v1Sigs ++ [v] }
      else .ok h := by
  unfold parseEntry
  rw [trimSpace_graphic hgraphic, cut_append _ _ _ hk]

/-- A byte that neither ends an entry nor is trimmed off one. -/
def isEntryByte (c : UInt8) : Bool := isGraphic c ∧ c ≠ 44

theorem isEntryByte_graphic {c : UInt8} (h : isEntryByte c = true) : isGraphic c = true :=
  (of_decide_eq_true h).1

theorem isEntryByte_formatInt (n : Int) : ∀ c ∈ formatInt n, isEntryByte c = true := by
  have hdigit : ∀ c : UInt8, isDigit c = true ∨ c = 45 → isEntryByte c = true := by
    unfold isDigit isEntryByte isGraphic
    grind
  intro c hc
  exact hdigit c (formatInt_chars n c hc)

theorem isEntryByte_hexEncode (b : Str) : ∀ c ∈ hexEncode b, isEntryByte c = true := by
  have hdigit : ∀ c : UInt8, (hexVal c).isSome = true → isEntryByte c = true := by
    unfold hexVal isEntryByte isGraphic
    grind
  intro c hc
  exact hdigit c (hexEncode_chars b c hc)

theorem isEntryByte_entry {k v : Str} (hk : ∀ c ∈ k, isEntryByte c = true)
    (hv : ∀ c ∈ v, isEntryByte c = true) : ∀ c ∈ k ++ 61 :: v, isEntryByte c = true := by
  intro c hc
  rcases List.mem_append.mp hc with hc | hc
  · exact hk c hc
  rcases List.mem_cons.mp hc with rfl | hc
  · rfl
  · exact hv c hc

section
variable (hmac : (secret msg : Str) → Str)

theorem signPayload_eq (payload secret : Str) (ts : Int64) :
    signPayload hmac payload secret ts =
      [44].intercalate [bytes "t" ++ 61 :: formatInt ts.toInt,
        bytes "v1" ++ 61 :: hexEncode (hmac secret (signedPayload ts payload))] := by
  have ht : bytes "t=" = bytes "t" ++ [61] := rfl
  have hv : bytes ",v1=" = [44] ++ bytes "v1" ++ [61] := rfl
  unfold signPayload
  rw [ht, hv]
  simp [List.intercalate]

/-- The entries of a signed header are its time and its signature. -/
theorem parseHeader_signPayload (payload secret : Str) (ts : Int64) :
    parseHeader (signPayload hmac payload secret ts) =
      .ok ⟨ts, [hexEncode (hmac secret (signedPayload ts payload))]⟩ := by
  set mac := hmac secret (signedPayload ts payload)
  have ht := isEntryByte_entry (k := bytes "t") (List.all_eq_true.mp (by decide))
    (isEntryByte_formatInt ts.toInt)
  have hv := isEntryByte_entry (k := bytes "v1") (List.all_eq_true.mp (by decide))
    (isEntryByte_hexEncode mac)
  have hsplit : (signPayload hmac payload secret ts).splitOn 44 =
      [bytes "t" ++ 61 :: formatInt ts.toInt, bytes "v1" ++ 61 :: hexEncode mac] := by
    rw [signPayload_eq]
    refine List.splitOn_intercalate 44 ?_ (by simp)
    intro l hl hmem
    rcases List.mem_cons.mp hl with rfl | hl
    · cases ht 44 hmem
    · rw [List.mem_singleton.mp hl] at hmem
      cases hv 44 hmem
  have htime : parseEntry ⟨0, []⟩ (bytes "t" ++ 61 :: formatInt ts.toInt) = pure ⟨ts, []⟩ := by
    rw [parseEntry_of_graphic (by decide) fun c hc => isEntryByte_graphic (ht c hc), if_pos rfl,
      parseInt_formatInt]
    rfl
  have hsig : parseEntry ⟨ts, []⟩ (bytes "v1" ++ 61 :: hexEncode mac) =
      pure ⟨ts, [hexEncode mac]⟩ := by
    rw [parseEntry_of_graphic (by decide) fun c hc => isEntryByte_graphic (hv c hc),
      if_neg (by decide), if_pos rfl]
    rfl
  unfold parseHeader
  rw [hsplit, List.foldlM_cons, htime, pure_bind, List.foldlM_cons, hsig, pure_bind, List.foldlM_nil]
  rfl

/-- When a delivery is accepted. -/
theorem verifyWithTolerance_ok_iff {decode : Str → Res StripeEvent} {payload sigHeader secret : Str}
    {tolerance now : Int64} {e : StripeEvent} :
    verifyWithTolerance hmac decode payload sigHeader secret tolerance now = .ok e ↔
      secret ≠ [] ∧ ∃ h, parseHeader sigHeader = .ok h ∧ h.ts ≠ 0 ∧ abs64 (now - h.ts) ≤ tolerance ∧
        (∃ sig ∈ h.v1Sigs, hexDecode sig = some (hmac secret (signedPayload h.ts payload))) ∧
        decode payload = .ok e := by
  unfold verifyWithTolerance
  constructor
  · intro h
    split at h
    · cases h
    split at h
    · cases h
    next hsecret =>
    split at h
    · cases h
    next hd hparse =>
    split at h
    · cases h
    next hfound =>
    split at h
    · cases h
    next hnow =>
    split at h
    · cases h
    next hmatch =>
    split at h
    · cases h
    next ev hev =>
    cases h
    have hsig : ∃ sig ∈ hd.v1Sigs, hexDecode sig = some (hmac secret (signedPayload hd.ts payload)) := by
      by_contra hno
      exact hmatch fun sig hsig heq => hno ⟨sig, hsig, heq⟩
    exact ⟨hsecret, hd, hparse, fun hz => hfound (.inl hz), Int64.not_lt.mp hnow, hsig, hev⟩
  · rintro ⟨hsecret, hd, hparse, hts, hnow, ⟨sig, hsig, hmac'⟩, he⟩
    have hne : sigHeader ≠ [] := by
      rintro rfl
      cases hparse
    have hsigs : hd.v1Sigs ≠ [] := List.ne_nil_of_mem hsig
    rw [if_neg hne, if_neg hsecret, hparse]
    simp only
    rw [if_neg (by simp [hts, hsigs]), if_neg (Int64.not_lt.mpr hnow),
      if_neg (fun hall => hall sig hsig hmac'), he]

/-- **A signed payload** is accepted while its time is within the tolerance. -/
theorem verifyWithTolerance_signPayload (decode : Str → Res StripeEvent) (payload : Str)
    {secret : Str} (hsecret : secret ≠ []) {ts tolerance now : Int64} (hts : ts ≠ 0)
    (hnow : abs64 (now - ts) ≤ tolerance) {e : StripeEvent} (he : decode payload = .ok e) :
    verifyWithTolerance hmac decode payload (signPayload hmac payload secret ts) secret tolerance
      now = .ok e :=
  (verifyWithTolerance_ok_iff hmac).mpr ⟨hsecret, _, parseHeader_signPayload hmac payload secret ts, hts,
    hnow, ⟨_, List.mem_cons_self, hexDecode_hexEncode _⟩, he⟩

end

/-! ## Any header -/

/-- The key and the value of an entry. -/
def entry (part : Str) : Option (Str × Str) := cut 61 (trimSpace part)

/-- The time of a `t` entry. -/
def entryTime (part : Str) : Option Int64 :=
  match entry part with
  | some (k, v) => if k = bytes "t" then parseInt v else none
  | none => none

/-- The signature of a `v1` entry. -/
def entrySig (part : Str) : Option Str :=
  match entry part with
  | some (k, v) => if k = bytes "v1" then some v else none
  | none => none

/-- The entry has a key, and if that is `t` then its value is a number. -/
def WellFormed (part : Str) : Prop :=
  ∃ k v, entry part = some (k, v) ∧ (k = bytes "t" → ∃ n, parseInt v = some n)

/-- One round of the loop. -/
theorem parseEntry_ok_iff {h h' : SigHeader} {part : Str} :
    parseEntry h part = .ok h' ↔ WellFormed part ∧ h'.ts = (entryTime part).getD h.ts ∧
      h'.v1Sigs = h.v1Sigs ++ (entrySig part).toList := by
  unfold parseEntry WellFormed entryTime entrySig entry
  obtain ⟨ts, sigs⟩ := h
  obtain ⟨ts', sigs'⟩ := h'
  cases hcut : cut 61 (trimSpace part) with
  | none => simp
  | some kv =>
    obtain ⟨k, v⟩ := kv
    by_cases ht : k = bytes "t"
    · have hne : bytes "t" ≠ bytes "v1" := by decide
      subst ht
      cases hn : parseInt v with
      | none => simp [hn]
      | some n =>
        simp [hn, hne, eq_comm]
    · by_cases hv : k = bytes "v1"
      · subst hv
        simp [ht, eq_comm]
      · simp [ht, hv, eq_comm]

/-- **The loop over the entries.**  Every entry must be well formed; the last time counts, and all
signatures. -/
theorem foldlM_parseEntry_ok_iff {h h' : SigHeader} {parts : List Str} :
    parts.foldlM parseEntry h = .ok h' ↔ (∀ part ∈ parts, WellFormed part) ∧
      h'.ts = (parts.filterMap entryTime).getLast?.getD h.ts ∧
      h'.v1Sigs = h.v1Sigs ++ parts.filterMap entrySig := by
  induction parts generalizing h with
  | nil =>
    obtain ⟨ts, sigs⟩ := h
    obtain ⟨ts', sigs'⟩ := h'
    simp [pure, Except.pure, eq_comm]
  | cons part parts ih =>
    have htime : ((part :: parts).filterMap entryTime).getLast?.getD h.ts =
        (parts.filterMap entryTime).getLast?.getD ((entryTime part).getD h.ts) := by
      rw [List.filterMap_cons]
      cases entryTime part with
      | none => rfl
      | some n => rw [List.getLast?_cons]; rfl
    have hsig : (part :: parts).filterMap entrySig =
        (entrySig part).toList ++ parts.filterMap entrySig := by
      rw [List.filterMap_cons]
      cases entrySig part with
      | none => rfl
      | some v => rfl
    rw [List.foldlM_cons, htime, hsig, ← List.append_assoc, List.forall_mem_cons]
    constructor
    · intro hrun
      cases hp : parseEntry h part with
      | error e =>
        rw [hp] at hrun
        cases hrun
      | ok h₁ =>
        rw [hp] at hrun
        obtain ⟨hwf, hts, hsigs⟩ := parseEntry_ok_iff.mp hp
        obtain ⟨hall, hts', hsigs'⟩ := ih.mp hrun
        exact ⟨⟨hwf, hall⟩, by rw [hts', hts], by rw [hsigs', hsigs]⟩
    · rintro ⟨⟨hwf, hall⟩, hts, hsigs⟩
      have hp : parseEntry h part =
          .ok ⟨(entryTime part).getD h.ts, h.v1Sigs ++ (entrySig part).toList⟩ :=
        parseEntry_ok_iff.mpr ⟨hwf, rfl, rfl⟩
      rw [hp]
      exact ih.mpr ⟨hall, hts, hsigs⟩

/-- `part` is the entry `e` with blanks around it. -/
def Padded (part e : Str) : Prop := ∃ p q, IsBlank p ∧ IsBlank q ∧ part = p ++ e ++ q

/-- An entry that may stand beside the two of `SignPayload`. -/
def Further (e : Str) : Prop :=
  ∃ k v, e = k ++ 61 :: v ∧ BlankFree k ∧ 44 ∉ k ∧ 61 ∉ k ∧ k ≠ bytes "t" ∧ 44 ∉ v

/-- Blanks bring no comma. -/
theorem Padded.comma {part e : Str} (h : Padded part e) (he : 44 ∉ e) : 44 ∉ part := by
  obtain ⟨p, q, hp, hq, rfl⟩ := h
  have hgraphic : isGraphic 44 = true := by decide
  intro hmem
  rcases List.mem_append.mp hmem with hmem | hmem
  · rcases List.mem_append.mp hmem with hmem | hmem
    · exact hp.notMem hgraphic hmem
    · exact he hmem
  · exact hq.notMem hgraphic hmem

theorem Padded.entry_eq {part k v : Str} (h : Padded part (k ++ 61 :: v)) (hk : 61 ∉ k)
    (hgraphic : ∀ c ∈ k ++ 61 :: v, isGraphic c = true) : entry part = some (k, v) := by
  obtain ⟨p, q, hp, hq, rfl⟩ := h
  unfold entry
  rw [trimSpace_blank hp hq (by simp) hgraphic, cut_append _ _ _ hk]

/-- A further entry has no comma, and the loop passes it without a time. -/
theorem Further.passed {part e : Str} (he : Further e) (h : Padded part e) :
    44 ∉ part ∧ WellFormed part ∧ entryTime part = none := by
  obtain ⟨k, v, rfl, hblank, hcomma, heq, ht, hv⟩ := he
  have hno : 44 ∉ k ++ 61 :: v := by
    intro hmem
    rcases List.mem_append.mp hmem with hmem | hmem
    · exact hcomma hmem
    · rcases List.mem_cons.mp hmem with hmem | hmem
      · revert hmem
        decide
      · exact hv hmem
  have hentry : ∃ v', entry part = some (k, v') := by
    obtain ⟨p, q, hp, -, rfl⟩ := h
    obtain ⟨v', hv'⟩ := trimSpace_entry hp hblank (show isGraphic 61 = true by decide) (v ++ q)
    refine ⟨v', ?_⟩
    unfold entry
    have hassoc : p ++ (k ++ 61 :: v) ++ q = p ++ k ++ 61 :: (v ++ q) := by simp
    rw [hassoc, hv', cut_append _ _ _ heq]
  obtain ⟨v', hv'⟩ := hentry
  refine ⟨h.comma hno, ⟨k, v', hv', fun hk => absurd hk ht⟩, ?_⟩
  unfold entryTime
  rw [hv']
  simp only
  rw [if_neg ht]

/-- The timestamp's entry, with blanks around it: no comma, well formed, and read as written. -/
theorem Padded.passed_time {t : Str} {ts : Int64}
    (h : Padded t (bytes "t" ++ 61 :: formatInt ts.toInt)) :
    44 ∉ t ∧ WellFormed t ∧ entryTime t = some ts := by
  have hbytes := isEntryByte_entry (k := bytes "t") (List.all_eq_true.mp (by decide))
    (isEntryByte_formatInt ts.toInt)
  have hentry := h.entry_eq (by decide) fun c hc => isEntryByte_graphic (hbytes c hc)
  refine ⟨h.comma fun hmem => ?_, ⟨_, _, hentry, fun _ => ⟨ts, parseInt_formatInt ts⟩⟩, ?_⟩
  · cases hbytes 44 hmem
  · unfold entryTime
    rw [hentry]
    exact parseInt_formatInt ts

/-- The same of a signature's entry. -/
theorem Padded.passed_v1 {v1 mac : Str} (h : Padded v1 (bytes "v1" ++ 61 :: hexEncode mac)) :
    44 ∉ v1 ∧ WellFormed v1 ∧ entryTime v1 = none ∧ entrySig v1 = some (hexEncode mac) := by
  have hbytes := isEntryByte_entry (k := bytes "v1") (List.all_eq_true.mp (by decide))
    (isEntryByte_hexEncode mac)
  have hentry := h.entry_eq (by decide) fun c hc => isEntryByte_graphic (hbytes c hc)
  refine ⟨h.comma fun hmem => ?_, ⟨_, _, hentry, fun ht => absurd ht (by decide)⟩, ?_, ?_⟩
  · cases hbytes 44 hmem
  · unfold entryTime
    rw [hentry]
    rfl
  · unfold entrySig
    rw [hentry]
    rfl

section
variable (hmac : (secret msg : Str) → Str)

/-- A header made of the two entries of `SignPayload` and any further ones, in any order and with
blanks around each. -/
def ExtendsSigned (payload secret : Str) (ts : Int64) (sigHeader : Str) : Prop :=
  ∃ (t v1 : Str) (further parts : List Str),
    Padded t (bytes "t" ++ 61 :: formatInt ts.toInt) ∧
    Padded v1 (bytes "v1" ++ 61 :: hexEncode (hmac secret (signedPayload ts payload))) ∧
    (∀ part ∈ further, ∃ e, Padded part e ∧ Further e) ∧
    parts.Perm (t :: v1 :: further) ∧ sigHeader = [44].intercalate parts

/-- A signed header with nothing added to it. -/
theorem extendsSigned_signPayload (payload secret : Str) (ts : Int64) :
    ExtendsSigned hmac payload secret ts (signPayload hmac payload secret ts) := by
  refine ⟨_, _, [], _, ⟨[], [], isBlank_nil, isBlank_nil, ?_⟩, ⟨[], [], isBlank_nil, isBlank_nil, ?_⟩,
    fun _ h => absurd h List.not_mem_nil, .refl _, signPayload_eq hmac payload secret ts⟩
  · simp
  · simp

/-- What the loop finds in such a header. -/
theorem ExtendsSigned.parseHeader {payload secret sigHeader : Str} {ts : Int64}
    (h : ExtendsSigned hmac payload secret ts sigHeader) :
    ∃ sigs, parseHeader sigHeader = .ok ⟨ts, sigs⟩ ∧
      hexEncode (hmac secret (signedPayload ts payload)) ∈ sigs := by
  obtain ⟨t, v1, further, parts, ht, hv1, hfurther, hperm, rfl⟩ := h
  obtain ⟨htcomma, htwell, httime⟩ := ht.passed_time
  obtain ⟨hvcomma, hvwell, hvtime, hvsig⟩ := hv1.passed_v1
  have hparts : ∀ part ∈ parts, 44 ∉ part ∧ WellFormed part := by
    intro part hpart
    rcases List.mem_cons.mp (hperm.mem_iff.mp hpart) with rfl | hpart
    · exact ⟨htcomma, htwell⟩
    rcases List.mem_cons.mp hpart with rfl | hpart
    · exact ⟨hvcomma, hvwell⟩
    · obtain ⟨e, he, hf⟩ := hfurther part hpart
      exact ⟨(hf.passed he).1, (hf.passed he).2.1⟩
  have hne : parts ≠ [] := by
    rintro rfl
    exact absurd hperm.length_eq (by simp)
  -- of the times there is one only
  have htimes : parts.filterMap entryTime = [ts] := by
    have hnone : further.filterMap entryTime = [] := by
      rw [List.filterMap_eq_nil_iff]
      intro part hpart
      obtain ⟨e, he, hf⟩ := hfurther part hpart
      exact (hf.passed he).2.2
    have hone := hperm.filterMap entryTime
    rw [List.filterMap_cons_some httime, List.filterMap_cons_none hvtime, hnone] at hone
    exact List.perm_singleton.mp hone
  refine ⟨parts.filterMap entrySig, ?_, ?_⟩
  · unfold EasyPay.parseHeader
    rw [List.splitOn_intercalate 44 (fun l hl => (hparts l hl).1) hne]
    refine foldlM_parseEntry_ok_iff.mpr ⟨fun part hpart => (hparts part hpart).2, ?_, rfl⟩
    rw [htimes]
    rfl
  · exact List.mem_filterMap.mpr ⟨v1, hperm.mem_iff.mpr (by simp), hvsig⟩

end

theorem entry_of_entrySig {part sig : Str} (h : entrySig part = some sig) :
    entry part = some (bytes "v1", sig) := by
  unfold entrySig at h
  split at h
  · next k v hkv =>
    split at h
    · next hk =>
      cases h
      rw [hkv, hk]
    · cases h
  · cases h

theorem entry_of_entryTime {part : Str} {ts : Int64} (h : entryTime part = some ts) :
    ∃ v, entry part = some (bytes "t", v) ∧ parseInt v = some ts := by
  unfold entryTime at h
  split at h
  · next k v hkv =>
    split at h
    · next hk => exact ⟨v, by rw [hkv, hk], h⟩
    · cases h
  · cases h

theorem WellFormed.time {part v : Str} (h : WellFormed part) (ht : entry part = some (bytes "t", v)) :
    ∃ n, parseInt v = some n ∧ entryTime part = some n := by
  obtain ⟨k, v', hkv, hn⟩ := h
  rw [ht] at hkv
  obtain ⟨rfl, rfl⟩ := Prod.mk.inj (Option.some.inj hkv)
  obtain ⟨n, hn⟩ := hn rfl
  refine ⟨n, hn, ?_⟩
  unfold entryTime
  rw [ht]
  exact hn

/-- A well-formed entry has a `=`. -/
theorem WellFormed.mem {part : Str} (h : WellFormed part) : 61 ∈ part := by
  obtain ⟨k, v, hkv, -⟩ := h
  obtain ⟨htrim, -⟩ := cut_some hkv
  apply mem_of_mem_trimSpace
  rw [htrim]
  exact List.mem_append_right _ List.mem_cons_self

/-- What a parsed header says: its time is that of its last `t` entry. -/
theorem parseHeader_ok {sigHeader : Str} {h : SigHeader} (hparse : parseHeader sigHeader = .ok h) :
    (∀ part ∈ sigHeader.splitOn 44, WellFormed part) ∧
      (∀ sig ∈ h.v1Sigs, ∃ part ∈ sigHeader.splitOn 44, entry part = some (bytes "v1", sig)) ∧
      (h.ts ≠ 0 → ∃ pre t post v, sigHeader.splitOn 44 = pre ++ t :: post ∧
        entry t = some (bytes "t", v) ∧ parseInt v = some h.ts ∧
        ∀ part ∈ post, ∀ v, entry part ≠ some (bytes "t", v)) := by
  obtain ⟨hall, hts, hsigs⟩ := foldlM_parseEntry_ok_iff.mp hparse
  refine ⟨hall, fun sig hsig => ?_, fun hne => ?_⟩
  · rw [hsigs, List.nil_append] at hsig
    obtain ⟨part, hpart, heq⟩ := List.mem_filterMap.mp hsig
    exact ⟨part, hpart, entry_of_entrySig heq⟩
  · rw [List.getLast?_filterMap] at hts
    cases hlast : (sigHeader.splitOn 44).reverse.findSome? entryTime with
    | none =>
      rw [hlast] at hts
      exact absurd hts hne
    | some n =>
      rw [hlast] at hts
      obtain ⟨post, t, pre, heq, htime, hpost⟩ := List.findSome?_eq_some_iff.mp hlast
      obtain ⟨v, hv, hn⟩ := entry_of_entryTime htime
      have hparts : sigHeader.splitOn 44 = pre.reverse ++ t :: post.reverse := by
        rw [← List.reverse_reverse (sigHeader.splitOn 44), heq]
        simp
      refine ⟨pre.reverse, t, post.reverse, v, hparts, hv, by rw [hn, hts]; rfl,
        fun part hpart v' ht => ?_⟩
      have hmem : part ∈ sigHeader.splitOn 44 := by
        rw [hparts]
        exact List.mem_append_right _ (List.mem_cons_of_mem _ hpart)
      obtain ⟨m, -, hm⟩ := (hall part hmem).time ht
      rw [hpost part (List.mem_reverse.mp hpart)] at hm
      cases hm

/-- **Verification is complete and sound**, for every header: the entries of `SignPayload` are accepted
among any others, and what is accepted carries a right signature for the last time in it. -/
theorem verify_complete_sound (hmac : (secret msg : Str) → Str) (decode : Str → Res StripeEvent)
    (payload secret sigHeader : Str) (tolerance now : Int64) :
    (∀ ts e, decode payload = .ok e → secret ≠ [] → ts ≠ 0 →
      ((now.toInt - ts.toInt).natAbs : Int) ≤ tolerance.toInt →
      ExtendsSigned hmac payload secret ts sigHeader →
      verifyWithTolerance hmac decode payload sigHeader secret tolerance now = .ok e) ∧
    (∀ e, verifyWithTolerance hmac decode payload sigHeader secret tolerance now = .ok e →
      (∀ part ∈ sigHeader.splitOn 44, 61 ∈ part) ∧
      (∀ part ∈ sigHeader.splitOn 44, ∀ v, entry part = some (bytes "t", v) →
        ∃ n, parseInt v = some n) ∧
      ∃ pre t post v ts, sigHeader.splitOn 44 = pre ++ t :: post ∧ entry t = some (bytes "t", v) ∧
        parseInt v = some ts ∧ (∀ part ∈ post, ∀ v, entry part ≠ some (bytes "t", v)) ∧
        ∃ part ∈ sigHeader.splitOn 44, ∃ sig, entry part = some (bytes "v1", sig) ∧
          hexDecode sig = some (hmac secret (signedPayload ts payload))) ∧
    ((∀ part ∈ sigHeader.splitOn 44, ∀ sig, entry part ≠ some (bytes "v1", sig)) →
      ∀ e, verifyWithTolerance hmac decode payload sigHeader secret tolerance now ≠ .ok e) := by
  refine ⟨?_, ?_, ?_⟩
  · intro ts e he hsecret hts hnow hext
    obtain ⟨sigs, hparse, hmem⟩ := hext.parseHeader
    have htol : 0 ≤ tolerance := Int64.le_iff_toInt_le.mpr (Int.le_trans (Int.natCast_nonneg _) hnow)
    exact (verifyWithTolerance_ok_iff hmac).mpr ⟨hsecret, _, hparse, hts,
      (abs64_sub_le_iff htol).mpr (.inl hnow), ⟨_, hmem, hexDecode_hexEncode _⟩, he⟩
  · intro e hok
    obtain ⟨-, h, hparse, hts, -, ⟨sig, hsig, hdec⟩, -⟩ := (verifyWithTolerance_ok_iff hmac).mp hok
    obtain ⟨hall, hsigs, htime⟩ := parseHeader_ok hparse
    obtain ⟨pre, t, post, v, hparts, hentry, hv, hpost⟩ := htime hts
    obtain ⟨part, hpart, hpsig⟩ := hsigs sig hsig
    refine ⟨fun part hpart => (hall part hpart).mem, fun part hpart v hv => ?_, pre, t, post, v, h.ts,
      hparts, hentry, hv, hpost, part, hpart, sig, hpsig, hdec⟩
    obtain ⟨n, hn, -⟩ := (hall part hpart).time hv
    exact ⟨n, hn⟩
  · intro hno e hok
    obtain ⟨-, h, hparse, -, -, ⟨sig, hsig, -⟩, -⟩ := (verifyWithTolerance_ok_iff hmac).mp hok
    obtain ⟨part, hpart, hpsig⟩ := (parseHeader_ok hparse).2.1 sig hsig
    exact hno part hpart sig hpsig

end EasyPay
