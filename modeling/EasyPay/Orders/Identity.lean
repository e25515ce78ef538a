import EasyPay.Orders
import EasyPay.Service.MerchantService

/-!
# Which rows are an order's

Two notions of "the same order" meet in the table.  A row is stored under a hash of the
bytes of its merchant id and order id; it is read and updated by SQL comparison of the two
columns.

* `order_isolated_iff`: under a case-insensitive collation, the statements for an order
  touch and return no other order exactly when no order in the pool differs from it in
  letter case only.
* `orders_separate_iff`: the hash tells two orders apart exactly when moving the separator
  does not turn one into the other.
-/

namespace EasyPay

open GoStrings Tables Ports

/-! ## Reading and updating by SQL comparison -/

/-- The row of this order, byte for byte. -/
def Row.isOrder (r : Row) (m o : Str) : Prop := r.merchantID = m ∧ r.orderID = o

/-- From `db` to `db'` only rows of the order have changed. -/
def OnlyOrder (m o : Str) (db db' : Pools) : Prop :=
  ∀ p, List.Forall₂ (fun r r' => r' = r ∨ r.isOrder m o) (db p) (db' p)

/-- The statements for an order touch and return that order only. -/
structure Isolated (R : TransactionRepo) (db : Pools) (i : UInt8) (m o : Str) : Prop where
  updateStatus : ∀ now fault st pi, OnlyOrder m o db (R.updateStatus now fault i m o st pi db).2
  updateCheckout : ∀ now fault sess pi,
    OnlyOrder m o db (R.updateCheckout now fault i m o sess pi db).2
  getByMerchantOrderID : ∀ fault pick t, R.getByMerchantOrderID fault pick i m o db = .ok t →
    t.merchantID = m ∧ t.orderID = o

theorem OnlyOrder.refl (m o : Str) (db : Pools) : OnlyOrder m o db db := by
  intro p
  rw [List.forall₂_same]
  intro r _
  exact .inl rfl

section
variable {R : TransactionRepo} {db : Pools} {i : UInt8} {m o : Str}

/-- An update touches that order only, if the rows SQL takes for it are its own. -/
theorem onlyOrder_updateOrder {op : Str} {fault : Option Fault} {f : Row → Row}
    (h : ∀ p, R.router.forIndex i = .ok p → ∀ r ∈ db p, R.ofOrder m o r = true → r.isOrder m o) :
    OnlyOrder m o db (R.updateOrder op fault i m o f db).2 := by
  rcases R.updateOrder_cases op fault i m o f db with ⟨p, hp, -, -, -, he⟩ | ⟨e, he⟩
  · rw [he]
    intro q
    show List.Forall₂ _ (db q) (Function.update db p _ q)
    by_cases hq : q = p
    · subst hq
      rw [Function.update_self, forall₂_updateWhere]
      intro r hr
      by_cases hw : R.ofOrder m o r = true
      · exact .inr (h q hp r hr hw)
      · rw [if_neg hw]
        exact .inl rfl
    · rw [Function.update_of_ne hq]
      exact OnlyOrder.refl m o db q
  · rw [he]
    exact OnlyOrder.refl m o db

/-- **Isolation in one table.** -/
theorem isolated_iff :
    Isolated R db i m o ↔ ∀ p, R.router.forIndex i = .ok p → ValidOrderID o →
      ∀ r ∈ db p, R.ofOrder m o r = true → r.isOrder m o := by
  constructor
  · intro h p hp ho r hr hw
    -- the update at a later time changes the row
    have hstep := h.updateStatus (r.updatedAt + 1) none .paid [] p
    have hpools : (R.updateStatus (r.updatedAt + 1) none i m o .paid [] db).2 p =
        updateWhere (R.ofOrder m o) (TransactionRepo.setStatus (r.updatedAt + 1) .paid [])
          (db p) := by
      unfold TransactionRepo.updateStatus TransactionRepo.updateOrder
      rw [(validateOrderID_ok_iff o).mpr ho, hp]
      simp only
      rw [if_pos (List.any_eq_true.mpr ⟨r, hr, hw⟩)]
      exact Function.update_self p _ db
    rw [hpools, forall₂_updateWhere] at hstep
    rcases hstep r hr with heq | hord
    · rw [if_pos hw] at heq
      exact absurd (congrArg Row.updatedAt heq) (Int.lt_succ r.updatedAt).ne'
    · exact hord
  · intro h
    by_cases ho : ValidOrderID o
    · refine ⟨fun now fault st pi => ?_, fun now fault sess pi => ?_, fun fault pick t ht => ?_⟩
      · exact onlyOrder_updateOrder fun p hp => h p hp ho
      · exact onlyOrder_updateOrder fun p hp => h p hp ho
      · obtain ⟨p, r, t', hp, -, hr, hw, hs, rfl⟩ := R.getByMerchantOrderID_ok ht
        obtain ⟨hm', -, ho', -⟩ := TransactionRepo.scanTransaction_ok hs
        obtain ⟨hm, ho⟩ := h p hp ho r hr hw
        exact ⟨hm'.trans hm, ho'.trans ho⟩
    · -- an order id that is not valid reaches no statement
      obtain ⟨e, he⟩ : ∃ e, validateOrderID o = .error e := by
        rcases validateOrderID_cases o with ⟨hv, -⟩ | ⟨-, he⟩
        · exact absurd hv ho
        · exact he
      have hupd : ∀ op fault f, R.updateOrder op fault i m o f db = (.error e, db) := by
        intro op fault f
        unfold TransactionRepo.updateOrder
        rw [he]
      refine ⟨fun now fault st pi => ?_, fun now fault sess pi => ?_, fun fault pick t ht => ?_⟩
      · rw [TransactionRepo.updateStatus, hupd]
        exact OnlyOrder.refl m o db
      · rw [TransactionRepo.updateCheckout, hupd]
        exact OnlyOrder.refl m o db
      · obtain ⟨-, -, -, -, hv, -⟩ := R.getByMerchantOrderID_ok ht
        exact absurd hv ho

end

/-- Equal up to the case of ASCII letters. -/
def SameLetters (a b : Str) : Prop := a.map lowerByte = b.map lowerByte

theorem orderIDByte_lowerByte : ∀ b, orderIDByte (lowerByte b) = orderIDByte b := by
  unfold orderIDByte lowerByte
  grind

/-- Letter case does not matter to `ValidateOrderID`. -/
theorem ValidOrderID.of_sameLetters {a b : Str} (h : SameLetters a b) (ha : ValidOrderID a) :
    ValidOrderID b := by
  obtain ⟨hne, hlen, hbytes⟩ := ha
  have hl : a.length = b.length := by
    have := congrArg List.length h
    rwa [List.length_map, List.length_map] at this
  refine ⟨?_, hl ▸ hlen, ?_⟩
  · rintro rfl
    exact hne (List.length_eq_zero_iff.mp hl)
  · intro c hc
    have hmem : lowerByte c ∈ a.map lowerByte := by
      rw [h]
      exact List.mem_map_of_mem hc
    obtain ⟨d, hd, hdc⟩ := List.mem_map.mp hmem
    rw [← orderIDByte_lowerByte, ← hdc, orderIDByte_lowerByte]
    exact hbytes d hd

/-- **Isolation in a run.**  With case-insensitive columns, in every state of every run from
empty tables: the statements for an order touch and return that order only, exactly when no
stored order of its pool differs from it in letter case only. -/
theorem order_isolated_iff (D : Deployment) (hD : D.collation = .asciiCI) {w : World}
    (hw : ∀ p, w.pools p = []) (js : List Job) (xs : List (Nat × Choice)) (i : UInt8) (m o : Str) :
    Isolated D.toTransactionRepo (System.run D w js xs).world.pools i m o ↔
      ∀ k s inp M, Won D js (System.run D w js xs).hist k s inp M →
        D.router.forIndex M.shardIndex = D.router.forIndex i →
        SameLetters M.merchantID m → SameLetters inp.orderID o →
        M.merchantID = m ∧ inp.orderID = o := by
  have hO := orders_invariant D js hw xs
  have hof : ∀ r : Row, D.ofOrder m o r = true ↔
      SameLetters r.merchantID m ∧ SameLetters r.orderID o := by
    intro r
    unfold TransactionRepo.ofOrder SameLetters
    rw [hD, Bool.and_eq_true, Collation.asciiCI_eq, Collation.asciiCI_eq]
  rw [isolated_iff]
  constructor
  · intro h k s inp M hwon hsame hm ho
    obtain ⟨p, code, hp, -, hf⟩ := hO.row_of_won k s inp M hwon
    obtain ⟨r, hr, hrf⟩ := List.mem_map.mp hf
    have hrm : r.merchantID = M.merchantID := congrArg Facts.merchantID hrf
    have hro : r.orderID = inp.orderID := congrArg Facts.orderID hrf
    rw [← hrm, ← hro]
    apply h p (hsame ▸ hp) (r.orderID_valid.of_sameLetters (hro ▸ ho)) r hr
    rw [hof, hrm, hro]
    exact ⟨hm, ho⟩
  · intro h p hp _ r hr hwhere
    obtain ⟨k, s, inp, M, code, hwon, hp', -, hrf⟩ := hO.winner_of_row hr
    have hrm : r.merchantID = M.merchantID := congrArg Facts.merchantID hrf
    have hro : r.orderID = inp.orderID := congrArg Facts.orderID hrf
    rw [hof, hrm, hro] at hwhere
    unfold Row.isOrder
    rw [hrm, hro]
    exact h k s inp M hwon (hp'.trans hp.symm) hwhere.1 hwhere.2

/-- Two payments of one merchant, one after the other. -/
def twoOrders (o o' : Str) : List Job :=
  [.create (.mode true) (.card (.named (bytes "m1")) o 100),
   .create (.mode true) (.card (.named (bytes "m1")) o' 200)]

def twoOrdersRun (o o' : Str) : System :=
  System.run (Deployment.sample .asciiCI) (World.fresh []) (twoOrders o o') [(0, {}), (1, {})]

/-- `ABC` and `abc` are two orders in the table, and one order for the statements: marking
`abc` as paid marks both. -/
theorem order_not_isolated :
    ((twoOrdersRun (bytes "ABC") (bytes "abc")).world.pools 0).map Row.orderID =
        [bytes "ABC", bytes "abc"] ∧
      (((Deployment.sample .asciiCI).updateStatus 2 none 0 (bytes "m1") (bytes "abc") .paid []
        (twoOrdersRun (bytes "ABC") (bytes "abc")).world.pools).2 0).map Row.status =
        [statusPaid, statusPaid] ∧
      ¬ Isolated (Deployment.sample .asciiCI).toTransactionRepo
        (twoOrdersRun (bytes "ABC") (bytes "abc")).world.pools 0 (bytes "m1") (bytes "abc") := by
  refine ⟨by decide +kernel, by decide +kernel, ?_⟩
  intro h
  have hrow : ∀ r ∈ (twoOrdersRun (bytes "ABC") (bytes "abc")).world.pools 0,
      r.isOrder (bytes "m1") (bytes "abc") := by
    intro r hr
    refine isolated_iff.mp h 0 rfl (by decide) r hr ?_
    revert r
    decide +kernel
  have hne : ∃ r ∈ (twoOrdersRun (bytes "ABC") (bytes "abc")).world.pools 0,
      r.orderID ≠ bytes "abc" := by
    decide +kernel
  obtain ⟨r, hr, hro⟩ := hne
  exact hro (hrow r hr).2

/-- Orders that differ in more than letter case are told apart. -/
theorem order_isolated_sample :
    Isolated (Deployment.sample .asciiCI).toTransactionRepo
      (twoOrdersRun (bytes "o-1") (bytes "o-2")).world.pools 0 (bytes "m1") (bytes "o-2") := by
  refine (order_isolated_iff (Deployment.sample .asciiCI) rfl (fun _ => rfl)
    (twoOrders (bytes "o-1") (bytes "o-2")) [(0, {}), (1, {})] 0 (bytes "m1") (bytes "o-2")).mpr ?_
  rintro k s inp M ⟨hj, ⟨hM, -⟩, -⟩ - hm ho
  have hmem := List.mem_of_getElem? hj
  simp only [twoOrders, List.mem_cons, List.not_mem_nil, or_false, Job.create.injEq] at hmem
  rcases hmem with ⟨-, rfl⟩ | ⟨-, rfl⟩
  · unfold SameLetters at ho
    exact absurd ho (by decide)
  · cases hM
    exact ⟨rfl, rfl⟩

/-! ## Storing under a hash -/

theorem deriveTransactionID_eq_iff {D : Deployment} {m o m' o' : Str}
    (hinj : D.hash16 (hashInput m o) = D.hash16 (hashInput m' o') →
      hashInput m o = hashInput m' o') :
    deriveTransactionID D m o = deriveTransactionID D m' o' ↔
      (m = m' ∧ o = o') ∨ Shifted 58 m o m' o' ∨ Shifted 58 m' o' m o := by
  rw [← join_eq_join_iff]
  unfold deriveTransactionID
  constructor
  · intro h
    exact hinj (hexEncode_injective h)
  · intro h
    exact congrArg (fun s => hexEncode (D.hash16 s)) h

/-- Two requests for two orders in one pool, and what makes their inserts go through. -/
structure TwoOrders (D : Deployment) (s₁ s₂ : PaymentService) (in₁ in₂ : CreatePaymentInput)
    (M₁ M₂ : Merchant) : Prop where
  accepts₁ : PaymentService.Accepts in₁ M₁
  accepts₂ : PaymentService.Accepts in₂ M₂
  length₁ : M₁.merchantID.length ≤ 16
  length₂ : M₂.merchantID.length ≤ 16
  currency₁ : ∃ code, encodeCurrency D.unicode (s₁.normalizedCurrency D in₁) = .ok code
  currency₂ : ∃ code, encodeCurrency D.unicode (s₂.normalizedCurrency D in₂) = .ok code
  one_pool : ∃ p, D.router.forIndex M₁.shardIndex = .ok p ∧ D.router.forIndex M₂.shardIndex = .ok p
  distinct : ¬ (M₁.merchantID = M₂.merchantID ∧ in₁.orderID = in₂.orderID)
  /-- SHA-256, cut to 16 bytes, does not collide on the two messages. -/
  hash_injective : D.hash16 (hashInput M₁.merchantID in₁.orderID) =
      D.hash16 (hashInput M₂.merchantID in₂.orderID) →
    hashInput M₁.merchantID in₁.orderID = hashInput M₂.merchantID in₂.orderID

/-- The two orders do not get into each other's way, in any interleaving. -/
structure Separate (D : Deployment) (w : World) (s₁ s₂ : PaymentService)
    (in₁ in₂ : CreatePaymentInput) (M₁ M₂ : Merchant) : Prop where
  ids : deriveTransactionID D M₁.merchantID in₁.orderID ≠
    deriveTransactionID D M₂.merchantID in₂.orderID
  /-- An insert that reaches the database stores its row... -/
  inserted : ∀ xs, ∀ e ∈ (System.run D w [.create s₁ in₁, .create s₂ in₂] xs).hist, ∀ t,
    e.op = .insert t → e.choice.fault = none → e.step = (Op.insert t).gave (.ok ())
  /-- ... and none ever reports a duplicate. -/
  no_duplicate : ∀ xs i s inp M, ¬ Lost D [.create s₁ in₁, .create s₂ in₂]
    (System.run D w [.create s₁ in₁, .create s₂ in₂] xs).hist i s inp M

section
variable {D : Deployment} {w : World} {s₁ s₂ : PaymentService} {in₁ in₂ : CreatePaymentInput}
  {M₁ M₂ : Merchant}

theorem two_jobs {i : Nat} {s : PaymentService} {inp : CreatePaymentInput} {M : Merchant}
    (h : TwoOrders D s₁ s₂ in₁ in₂ M₁ M₂)
    (hj : [Job.create s₁ in₁, .create s₂ in₂][i]? = some (.create s inp))
    (hM : PaymentService.Accepts inp M) :
    (i = 0 ∧ s = s₁ ∧ inp = in₁ ∧ M = M₁) ∨ (i = 1 ∧ s = s₂ ∧ inp = in₂ ∧ M = M₂) := by
  match i with
  | 0 =>
    cases hj
    exact .inl ⟨rfl, rfl, rfl, hM.unique h.accepts₁⟩
  | 1 =>
    cases hj
    exact .inr ⟨rfl, rfl, rfl, hM.unique h.accepts₂⟩
  | i + 2 => cases hj

/-- With different transaction ids nobody loses. -/
theorem TwoOrders.not_lost (h : TwoOrders D s₁ s₂ in₁ in₂ M₁ M₂) (hw : ∀ p, w.pools p = [])
    (hids : D.hash16 (hashInput M₁.merchantID in₁.orderID) ≠
      D.hash16 (hashInput M₂.merchantID in₂.orderID))
    (xs : List (Nat × Choice)) (i : Nat) (s : PaymentService) (inp : CreatePaymentInput)
    (M : Merchant) :
    ¬ Lost D [.create s₁ in₁, .create s₂ in₂]
      (System.run D w [.create s₁ in₁, .create s₂ in₂] xs).hist i s inp M := by
  intro hlost
  have hO := orders_invariant D [.create s₁ in₁, .create s₂ in₂] hw xs
  obtain ⟨p, f, hf, -, hft⟩ := hO.row_of_lost i s inp M hlost
  obtain ⟨k, s', inp', M', code, hwon, -, -, rfl⟩ := hO.won_of_row p f hf
  have hhash : D.hash16 (hashInput M'.merchantID inp'.orderID) =
      D.hash16 (hashInput M.merchantID inp.orderID) := hft
  rcases two_jobs h hlost.1 hlost.2.1 with ⟨rfl, rfl, rfl, rfl⟩ | ⟨rfl, rfl, rfl, rfl⟩
  · rcases two_jobs h hwon.1 hwon.2.1 with ⟨rfl, rfl, rfl, rfl⟩ | ⟨rfl, rfl, rfl, rfl⟩
    · exact hwon.not_lost hlost
    · exact hids hhash.symm
  · rcases two_jobs h hwon.1 hwon.2.1 with ⟨rfl, rfl, rfl, rfl⟩ | ⟨rfl, rfl, rfl, rfl⟩
    · exact hids hhash
    · exact hwon.not_lost hlost

/-- The rows of both requests pass the checks of `Insert`. -/
theorem TwoOrders.exists_row (h : TwoOrders D s₁ s₂ in₁ in₂ M₁ M₂) {i : Nat} {s : PaymentService}
    {inp : CreatePaymentInput} {M : Merchant}
    (hj : [Job.create s₁ in₁, .create s₂ in₂][i]? = some (.create s inp))
    (hM : PaymentService.Accepts inp M) (now : Time) :
    ∃ r p, D.row now (s.newRow D M inp) = .ok r ∧ D.router.forIndex M.shardIndex = .ok p := by
  have hparts : M.merchantID.length ≤ 16 ∧
      (∃ code, encodeCurrency D.unicode (s.normalizedCurrency D inp) = .ok code) ∧
      ∃ p, D.router.forIndex M.shardIndex = .ok p := by
    obtain ⟨p, hp₁, hp₂⟩ := h.one_pool
    rcases two_jobs h hj hM with ⟨-, rfl, rfl, rfl⟩ | ⟨-, rfl, rfl, rfl⟩
    · exact ⟨h.length₁, h.currency₁, p, hp₁⟩
    · exact ⟨h.length₂, h.currency₂, p, hp₂⟩
  obtain ⟨hlen, ⟨code, hcode⟩, p, hp⟩ := hparts
  obtain ⟨r, hr⟩ := D.exists_row (t := s.newRow D M inp) now hlen
    (decodeHex16_deriveTransactionID D M.merchantID inp.orderID) hM.2.1 hM.2.2 hcode
  exact ⟨r, p, hr, hp⟩

/-- **Orders of one pool.**  Two orders keep out of each other's way exactly when neither is
the other with the separator moved. -/
theorem orders_separate_iff (h : TwoOrders D s₁ s₂ in₁ in₂ M₁ M₂) (hw : ∀ p, w.pools p = []) :
    Separate D w s₁ s₂ in₁ in₂ M₁ M₂ ↔
      ¬ Shifted 58 M₁.merchantID in₁.orderID M₂.merchantID in₂.orderID ∧
        ¬ Shifted 58 M₂.merchantID in₂.orderID M₁.merchantID in₁.orderID := by
  have hiff := deriveTransactionID_eq_iff h.hash_injective
  constructor
  · intro hsep
    constructor
    · intro hs
      exact hsep.ids (hiff.mpr (.inr (.inl hs)))
    · intro hs
      exact hsep.ids (hiff.mpr (.inr (.inr hs)))
  · rintro ⟨hs₁, hs₂⟩
    have hids : deriveTransactionID D M₁.merchantID in₁.orderID ≠
        deriveTransactionID D M₂.merchantID in₂.orderID := by
      intro heq
      rcases hiff.mp heq with hd | hs | hs
      · exact h.distinct hd
      · exact hs₁ hs
      · exact hs₂ hs
    have hlost := h.not_lost hw (fun heq => hids (congrArg hexEncode heq))
    refine ⟨hids, ?_, hlost⟩
    intro xs e he t hop hfault
    obtain ⟨s, inp, M, rest, hj, hM, rfl, -⟩ := insert_first D w _ xs he hop
    have hmem : e.step ∈ callsOf e.pid (System.run D w [.create s₁ in₁, .create s₂ in₂] xs).hist :=
      mem_callsOf.mpr ⟨e, he, rfl, rfl⟩
    obtain ⟨w', hans⟩ := System.answered D w _ he
    obtain ⟨pid, c, op, ans⟩ := e
    simp only at hop hfault hj hmem hans
    subst hop
    obtain ⟨r, p, hr, hp⟩ := h.exists_row hj hM c.now
    have hins : ans = (D.insert c.now none (s.newRow D M inp) w'.pools).1 := by
      rw [hans, ← hfault]
      rfl
    rcases D.insert_ok_or_duplicate hr hp w'.pools with hok | hdup
    · exact Op.gave_inj.mpr (hins.trans hok)
    · refine absurd ⟨hj, hM, .of .duplicateTransaction, rfl, ?_⟩ (hlost xs pid s inp M)
      rw [← hdup, ← hins]
      exact hmem

end

theorem forIndex_sample (C : Collation) (m : Str) :
    (Deployment.sample C).router.forIndex (Merchant.named m).shardIndex = .ok 0 :=
  show Router.single.forIndex 0 = .ok 0 from rfl

theorem twoOrders_sample {m o m' o' : Str} (hm : m.length ≤ 16) (hm' : m'.length ≤ 16)
    (ho : ValidOrderID o) (ho' : ValidOrderID o') (hne : ¬ (m = m' ∧ o = o'))
    (hinj : (Deployment.sample .binary).hash16 (hashInput m o) =
      (Deployment.sample .binary).hash16 (hashInput m' o') → hashInput m o = hashInput m' o') :
    TwoOrders (Deployment.sample .binary) (.mode true) (.mode true) (.card (.named m) o 100)
      (.card (.named m') o' 100) (.named m) (.named m') where
  accepts₁ := ⟨rfl, ho, show (0 : Int64) < 100 by decide⟩
  accepts₂ := ⟨rfl, ho', show (0 : Int64) < 100 by decide⟩
  length₁ := hm
  length₂ := hm'
  currency₁ := ⟨840, rfl⟩
  currency₂ := ⟨840, rfl⟩
  one_pool := ⟨0, forIndex_sample _ m, forIndex_sample _ m'⟩
  distinct := hne
  hash_injective := hinj

/-- Order `b:c` of merchant `a` and order `c` of merchant `a:b` are one transaction id: the
second insert reports a duplicate, and its lookup finds no order of the merchant. -/
theorem orders_not_separate :
    TwoOrders (Deployment.sample .binary) (.mode true) (.mode true)
        (.card (.named (bytes "a")) (bytes "b:c") 100)
        (.card (.named (bytes "a:b")) (bytes "c") 100)
        (.named (bytes "a")) (.named (bytes "a:b")) ∧
      MerchantService.Accepted (newMerchantRepository 1) (bytes "a") ∧
      MerchantService.Accepted (newMerchantRepository 1) (bytes "a:b") ∧
      deriveTransactionID (Deployment.sample .binary) (bytes "a") (bytes "b:c") =
        deriveTransactionID (Deployment.sample .binary) (bytes "a:b") (bytes "c") ∧
      (System.run (Deployment.sample .binary) (World.fresh [])
        [.create (.mode true) (.card (.named (bytes "a")) (bytes "b:c") 100),
         .create (.mode true) (.card (.named (bytes "a:b")) (bytes "c") 100)]
        [(0, {}), (1, {}), (1, {})]).procs[1]? =
        some (.ret (.created (.error (.wrap (bytes "idem lookup: ") (.of .notFound))))) ∧
      ¬ Separate (Deployment.sample .binary) (World.fresh []) (.mode true) (.mode true)
        (.card (.named (bytes "a")) (bytes "b:c") 100)
        (.card (.named (bytes "a:b")) (bytes "c") 100)
        (.named (bytes "a")) (.named (bytes "a:b")) := by
  refine ⟨twoOrders_sample (by decide) (by decide) (by decide) (by decide) (by decide)
    fun _ => by decide, ?_, ?_, by decide +kernel, Prog.getElem?_of_result? (by decide +kernel), ?_⟩
  · exact (MerchantService.accepted_iff _ _).mpr ⟨⟨bytes "a", by decide⟩, by decide, by decide⟩
  · exact (MerchantService.accepted_iff _ _).mpr ⟨⟨bytes "a:b", by decide⟩, by decide, by decide⟩
  · intro h
    exact h.ids (by decide +kernel)

theorem orders_separate_sample :
    Separate (Deployment.sample .binary) (World.fresh []) (.mode true) (.mode true)
      (.card (.named (bytes "m1")) (bytes "o-1") 100)
      (.card (.named (bytes "m2")) (bytes "o-1") 100)
      (.named (bytes "m1")) (.named (bytes "m2")) := by
  refine (orders_separate_iff (twoOrders_sample (by decide) (by decide) (by decide) (by decide)
    (by decide) ?_) (fun _ => rfl)).mpr ⟨?_, ?_⟩
  · intro h
    exact absurd h (by decide +kernel)
  · intro h
    exact absurd h.length_lt (by decide)
  · intro h
    exact absurd h.length_lt (by decide)

end EasyPay
