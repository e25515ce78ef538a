import EasyPay.Cache.InProcess
import EasyPay.Repository.MerchantRepo

/-!
# Merchant lookups

`GetByAPIKey` and `GetByMerchantID` of `internal/repository/merchant_repo.go` ask the merchant cache
before the table.  In the gateway's model `getByMerchantID` is the query alone.

Rows of the merchants table are added and never changed, and the two kinds of lookup have keys of
their own in the cache.  So the cache answers what the query would, and every answer of a lookup is
one the gateway's model has (`lookup_refines`).
-/

namespace EasyPay

open GoStrings Ports Tables Cached

inductive MerchantLookup
  | byAPIKey (apiKey : Str)
  | byMerchantID (merchantID : Str)
  deriving DecidableEq, Repr

namespace MerchantLookup

/-- The key in the merchant cache. -/
def cacheKey : MerchantLookup → Str
  | byAPIKey apiKey => bytes "api:" ++ apiKey
  | byMerchantID merchantID => bytes "mid:" ++ merchantID

/-- The WHERE clause. -/
def selects (C : Collation) : MerchantLookup → Merchant → Bool
  | byAPIKey apiKey, m => C.eq m.apiKey apiKey
  | byMerchantID merchantID, m => C.eq m.merchantID merchantID

/-- `QueryRowContext` and `scanMerchant`. -/
def query (C : Collation) (fault : Option Fault) (q : MerchantLookup) (t : List Merchant) :
    Res Merchant :=
  match fault with
  | some f => .error (.wrap (bytes "query merchant: ") (.new f.msg))
  | none =>
    match t.find? (q.selects C) with
    | some m => .ok m
    | none => .error (.of .merchantNotFound)

/-- `GetByAPIKey` and `GetByMerchantID`: the clock is read by the cache, for `get` and for `put`. -/
def lookup (C : Collation) (now later : Now) (order : List Nat) (fault : Option Fault)
    (q : MerchantLookup) (t : List Merchant) (c : LruCache) : Res Merchant × LruCache :=
  match c.get now.time q.cacheKey with
  | (some m, c) => (.ok m, c)
  | (none, c) =>
    match query C fault q t with
    | .error e => (.error e, c)
    | .ok m => (.ok m, c.put later.time order q.cacheKey m)

theorem cacheKey_injective {q q' : MerchantLookup} (h : q.cacheKey = q'.cacheKey) : q = q' := by
  cases q with
  | byAPIKey a =>
    cases q' with
    | byAPIKey b => rw [List.append_cancel_left h]
    | byMerchantID b => cases h
  | byMerchantID a =>
    cases q' with
    | byAPIKey b => cases h
    | byMerchantID b => rw [List.append_cancel_left h]

/-- A row that was found is one of the table. -/
theorem mem_of_query {C : Collation} {fault : Option Fault} {q : MerchantLookup} {t : List Merchant}
    {m : Merchant} (h : query C fault q t = .ok m) : m ∈ t := by
  unfold query at h
  cases fault with
  | some f => cases h
  | none =>
    simp only at h
    split at h
    · next m' hm' =>
      cases h
      exact List.mem_of_find?_eq_some hm'
    · cases h

/-- A row that was found is found in the longer table. -/
theorem query_append {C : Collation} {q : MerchantLookup} {t : List Merchant} {m : Merchant}
    (h : query C none q t = .ok m) (t' : List Merchant) : query C none q (t ++ t') = .ok m := by
  unfold query at h ⊢
  simp only at h ⊢
  split at h
  · next m' hm' =>
    rw [List.find?_append, hm']
    exact h
  · cases h

/-! ## The cache agrees with the table -/

/-- What is cached for a lookup is what the query finds. -/
def Agrees (C : Collation) (t : List Merchant) (c : LruCache) : Prop :=
  ∀ (q : MerchantLookup) e, c.data.lookup q.cacheKey = some e → query C none q t = .ok e.value

theorem Agrees.append {C : Collation} {t : List Merchant} {c : LruCache} (h : Agrees C t c)
    (t' : List Merchant) : Agrees C (t ++ t') c :=
  fun q e he => query_append (h q e he) t'

theorem Agrees.forget {C : Collation} {t : List Merchant} {c c' : LruCache} (h : Agrees C t c)
    (hc : Forgets c.data c'.data) : Agrees C t c' :=
  fun q e he => h q e (hc _ _ he)

theorem Agrees.put {C : Collation} {t : List Merchant} {c : LruCache} (h : Agrees C t c)
    {q : MerchantLookup} {m : Merchant} (hm : query C none q t = .ok m) (now : Now)
    (order : List Nat) : Agrees C t (c.put now.time order q.cacheKey m) := by
  intro q' e he
  obtain ⟨d, hd, hput⟩ := c.follows_step (.put now order q.cacheKey m)
  have he : (c.step (.put now order q.cacheKey m)).data.lookup q'.cacheKey = some e := he
  rw [hput] at he
  by_cases hq : q'.cacheKey = q.cacheKey
  · cases cacheKey_injective hq
    rw [AList.lookup_insert] at he
    cases he
    exact hm
  · rw [AList.lookup_insert_ne hq] at he
    exact h q' e (hd _ _ he)

/-- The answer is that of the query, and the cache agrees with the table afterwards. -/
theorem lookup_spec {C : Collation} {t : List Merchant} {c : LruCache} (h : Agrees C t c)
    (now later : Now) (order : List Nat) (fault : Option Fault) (q : MerchantLookup) :
    (∃ fault', (lookup C now later order fault q t c).1 = query C fault' q t) ∧
      Agrees C t (lookup C now later order fault q t c).2 := by
  have hforget : Agrees C t (c.get now.time q.cacheKey).2 :=
    h.forget (c.follows_step (.get now q.cacheKey))
  unfold lookup
  split
  · next m c' hget =>
    obtain ⟨e, he, rfl, -⟩ := LruCache.get_some (congrArg Prod.fst hget)
    rw [hget] at hforget
    exact ⟨⟨none, (h q e he).symm⟩, hforget⟩
  · next c' hget =>
    rw [hget] at hforget
    cases hquery : query C fault q t with
    | error e => exact ⟨⟨fault, hquery.symm⟩, hforget⟩
    | ok m =>
      refine ⟨⟨fault, hquery.symm⟩, hforget.put ?_ later order⟩
      cases fault with
      | some f => cases hquery
      | none => exact hquery

/-! ## Runs -/

/-- Lookups, and inserts of the repository. -/
inductive Step (D : Deployment) (r : MerchantRepo) : World × LruCache → World × LruCache → Prop
  | lookup (now later : Now) (order : List Nat) (fault : Option Fault) (q : MerchantLookup)
      (w : World) (c : LruCache) :
      Step D r (w, c) (w, (q.lookup D.collation now later order fault w.merchants c).2)
  | insert {w w' : World} (c : LruCache) : r.Inserts D w w' → Step D r (w, c) (w', c)

theorem Step.agrees {D : Deployment} {r : MerchantRepo} {s s' : World × LruCache}
    (h : Step D r s s') (hs : Agrees D.collation s.1.merchants s.2) :
    Agrees D.collation s'.1.merchants s'.2 := by
  cases h with
  | lookup now later order fault q w c => exact (lookup_spec hs now later order fault q).2
  | insert c hins =>
    obtain ⟨m, res, hins⟩ := hins
    rcases r.executes_insert hins with ⟨-, hsame⟩ | ⟨i, -, -, hadd⟩
    · rw [hsame]
      exact hs
    · rw [hadd]
      exact hs.append _

/-- **Lookups through the cache** answer like the gateway's model, which has none: in every state
that lookups and inserts lead to, a lookup by merchant id gets an answer that the call
`getByMerchantID` can have. -/
theorem lookup_refines {D : Deployment} {r : MerchantRepo} {w w' : World} {cap : Nat} {ttl : Int64}
    {c : LruCache} (hrun : Relation.ReflTransGen (Step D r) (w, .new cap ttl) (w', c))
    (now later : Now) (order : List Nat) (fault : Option Fault) (merchantID : Str) :
    ∃ choice, (lookup D.collation now later order fault (.byMerchantID merchantID) w'.merchants c).1 =
      (exec D (.getByMerchantID merchantID) choice w').1 := by
  have hagrees : ∀ s, Relation.ReflTransGen (Step D r) (w, .new cap ttl) s →
      Agrees D.collation s.1.merchants s.2 := by
    intro s hrun
    induction hrun with
    | refl =>
      intro q e he
      cases he
    | tail _ hstep ih => exact hstep.agrees ih
  obtain ⟨⟨fault', hans⟩, -⟩ :=
    lookup_spec (hagrees _ hrun) now later order fault (.byMerchantID merchantID)
  exact ⟨{ fault := fault' }, hans⟩

end MerchantLookup

end EasyPay
