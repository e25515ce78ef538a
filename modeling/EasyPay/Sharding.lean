import EasyPay.Lib.Simulation
import EasyPay.Orders
import EasyPay.Repository.Sharding

/-!
# Sharding does not show

The gateway on any number of pools, against the same gateway on one (`Deployment.unsharded`).  The
two run side by side: whatever the requests and the ticks of a sharded gateway do, in whatever
order, those of the unsharded one may do as well, call by call and with the same results
(`sharding_invisible`).

The programs do notice one thing, the shard index of a row that a query to all pools has found.
They hand it back with their updates, where it leads to the pool of the row.

What has to be so: a merchant's shard leads to one pool, and a transaction id is not used by orders
of two pools, for its unique key is one of a pool.
-/

namespace EasyPay

open GoStrings Tables Ports

/-- The same gateway on a single pool. -/
def Deployment.unsharded (D : Deployment) : Deployment :=
  { D with toTransactionRepo := D.toTransactionRepo.unsharded }

/-- The pool of each merchant, and of each transaction id. -/
structure Placement (D : Deployment) where
  pool : Str → Nat
  idPool : Str → Nat
  congr : ∀ m m', D.collation.eq m m' = true → pool m = pool m'

namespace Placement

variable {D : Deployment} (L : Placement D)

/-- The index leads to the pool of the merchant. -/
def Routes (i : UInt8) (m : Str) : Prop := D.router.forIndex i = .ok (L.pool m)

/-- The world `one` has in one pool what `w` has in all. -/
structure Sharded (w one : World) : Prop where
  rest : one = { w with pools := one.pools }
  split : Split (TransactionRepo.home L.pool) (one.pools 0) w.pools
  lt : ∀ r ∈ one.pools 0, TransactionRepo.home L.pool r < D.router.pools
  ids : ∀ r ∈ one.pools 0, L.idPool r.transactionID = TransactionRepo.home L.pool r
  merchants : ∀ M ∈ w.merchants, ∀ m, D.collation.eq M.merchantID m = true →
    L.Routes M.shardIndex m

/-! ## Calls -/

/-- The calls that have nothing to do with the shards. -/
def plain : Op → Bool
  | .insert _ | .getByTransactionID _ _ _ | .getByMerchantOrderID _ _ _ => false
  | .updateStatus _ _ _ _ _ | .updateCheckout _ _ _ _ _ => false
  | .getByOrderIDAny _ | .getByPaymentIntentID _ | .getPendingBefore _ _ => false
  | .getByMerchantID _ | .insertMerchant _ => false
  | _ => true

/-- The calls the two make together.  The index of the second need not be that of the first. -/
inductive SameCall : Op → Op → Prop
  | insert {t : Transaction} : L.Routes t.shardIndex t.merchantID →
      (∀ txn, decodeHex16 t.transactionID = .ok txn → L.idPool txn = L.pool t.merchantID) →
      SameCall (.insert t) (.insert t)
  | getByTransactionID {i : UInt8} {m txn : Str} : L.Routes i m →
      SameCall (.getByTransactionID i m txn) (.getByTransactionID i m txn)
  | getByMerchantOrderID {i i' : UInt8} {m o : Str} : L.Routes i m → i' < D.router.logicalCount →
      SameCall (.getByMerchantOrderID i m o) (.getByMerchantOrderID i' m o)
  | updateStatus {i i' : UInt8} {m o pi : Str} {st : TransactionStatus} : L.Routes i m →
      i' < D.router.logicalCount →
      SameCall (.updateStatus i m o st pi) (.updateStatus i' m o st pi)
  | updateCheckout {i i' : UInt8} {m o sess pi : Str} : L.Routes i m →
      i' < D.router.logicalCount →
      SameCall (.updateCheckout i m o sess pi) (.updateCheckout i' m o sess pi)
  | getByOrderIDAny {o : Str} : SameCall (.getByOrderIDAny o) (.getByOrderIDAny o)
  | getByPaymentIntentID {pi : Str} :
      SameCall (.getByPaymentIntentID pi) (.getByPaymentIntentID pi)
  | getPendingBefore {before : Time} {limit : Int} :
      SameCall (.getPendingBefore before limit) (.getPendingBefore before limit)
  | getByMerchantID {m : Str} : SameCall (.getByMerchantID m) (.getByMerchantID m)
  | plain {o : Op} : plain o = true → SameCall o o

/-- The answers they get. -/
inductive SameAnswer : (o o' : Op) → o.Ans → o'.Ans → Prop
  | insert {t : Transaction} {a a' : Res Unit} : a = a' → SameAnswer (.insert t) (.insert t) a a'
  | getByTransactionID {i : UInt8} {m txn : Str} {a a' : Res Transaction} : a = a' →
      SameAnswer (.getByTransactionID i m txn) (.getByTransactionID i m txn) a a'
  | getByMerchantOrderID {i i' : UInt8} {m o : Str} {a a' : Res Transaction} :
      TransactionRepo.SameRow a a' → (i = i' → a = a') →
      SameAnswer (.getByMerchantOrderID i m o) (.getByMerchantOrderID i' m o) a a'
  | updateStatus {i i' : UInt8} {m o pi : Str} {st : TransactionStatus} {a a' : Res Unit} :
      a = a' → SameAnswer (.updateStatus i m o st pi) (.updateStatus i' m o st pi) a a'
  | updateCheckout {i i' : UInt8} {m o sess pi : Str} {a a' : Res Unit} : a = a' →
      SameAnswer (.updateCheckout i m o sess pi) (.updateCheckout i' m o sess pi) a a'
  | getByOrderIDAny {o : Str} {a a' : Res Transaction} :
      TransactionRepo.Found D.toTransactionRepo L.pool a a' →
      SameAnswer (.getByOrderIDAny o) (.getByOrderIDAny o) a a'
  | getByPaymentIntentID {pi : Str} {a a' : Res Transaction} :
      TransactionRepo.Found D.toTransactionRepo L.pool a a' →
      SameAnswer (.getByPaymentIntentID pi) (.getByPaymentIntentID pi) a a'
  | getPendingBefore {before : Time} {limit : Int} {a a' : Res (List Transaction)} :
      TransactionRepo.SameList D.toTransactionRepo L.pool a a' →
      SameAnswer (.getPendingBefore before limit) (.getPendingBefore before limit) a a'
  | getByMerchantID {m : Str} {a a' : Res Merchant} : a = a' →
      (∀ M, a = .ok M → L.Routes M.shardIndex m) →
      SameAnswer (.getByMerchantID m) (.getByMerchantID m) a a'
  | plain {o : Op} {a a' : o.Ans} : Placement.plain o = true → a = a' → SameAnswer o o a a'

/-- Calls and answers of the two gateways. -/
def corr : Corr gateway gateway := ⟨L.SameCall, L.SameAnswer⟩

variable {L}

theorem Routes.lt {i : UInt8} {m : Str} (h : L.Routes i m) : i < D.router.logicalCount :=
  Router.lt_of_forIndex h

theorem zero_lt : 0 < D.router.logicalCount := by
  have hpos : 0 < D.router.logicalCount.toNat := D.router.pools_pos.trans_le D.router.pools_le
  exact UInt8.lt_iff_toNat_lt.mpr hpos

/-! ## One call -/

/-- A call that has nothing to do with the shards. -/
theorem exec_plain_eq {o : Op} (ho : plain o = true) (c : Choice) (w : World) (one : Pools) :
    exec D.unsharded o c { w with pools := one } =
      ((exec D o c w).1, { (exec D o c w).2 with pools := one }) := by
  cases o with
  | insert t => cases ho
  | getByTransactionID i m txn => cases ho
  | getByMerchantOrderID i m oid => cases ho
  | updateStatus i m oid st pi => cases ho
  | updateCheckout i m oid sess pi => cases ho
  | getByOrderIDAny oid => cases ho
  | getByPaymentIntentID pi => cases ho
  | getPendingBefore before limit => cases ho
  | getByMerchantID m => cases ho
  | insertMerchant m => cases ho
  | createCheckoutSession req key =>
    simp only [exec]
    split
    · rfl
    · rfl
  | _ =>
    cases hf : c.fault with
    | none => simp only [exec, hf] <;> rfl
    | some f => simp only [exec, hf] <;> rfl

theorem exec_plain {o : Op} (ho : plain o = true) (c : Choice) {w one : World}
    (h : L.Sharded w one) :
    (exec D.unsharded o c one).1 = (exec D o c w).1 ∧
      L.Sharded (exec D o c w).2 (exec D.unsharded o c one).2 := by
  have hpools : (exec D o c w).2.pools = w.pools := by
    refine exec_pools_same ?_ ?_ ?_ c w
    · rintro t rfl
      cases ho
    · rintro x m oid st pi rfl
      cases ho
    · rintro x m oid sess pi rfl
      cases ho
  have hmerchants : (exec D o c w).2.merchants = w.merchants := by
    refine exec_merchants D ?_ c w
    rintro m rfl
    cases ho
  rw [h.rest, exec_plain_eq ho]
  refine ⟨rfl, rfl, ?_, h.lt, h.ids, ?_⟩
  · rw [hpools]
    exact h.split
  · rw [hmerchants]
    exact h.merchants

/-- What changes the tables only, and there keeps them parts of one table. -/
theorem Sharded.of_pools {w one : World} (h : L.Sharded w one) {pools pools' : Pools}
    (hsplit : Split (TransactionRepo.home L.pool) (pools' 0) pools)
    (hrows : ∀ r ∈ pools' 0, TransactionRepo.home L.pool r < D.router.pools ∧
      L.idPool r.transactionID = TransactionRepo.home L.pool r) :
    L.Sharded { w with pools := pools } { one with pools := pools' } := by
  refine ⟨?_, hsplit, fun r hr => (hrows r hr).1, fun r hr => (hrows r hr).2, h.merchants⟩
  rw [h.rest]

/-- The rows that an update leaves are in the pools they were in. -/
theorem Sharded.rows_of_update {w one : World} (h : L.Sharded w one) {pools' : Pools} {f : Row → Row}
    (hf : ∀ r, (f r).facts = r.facts)
    (hrows : ∀ r' ∈ pools' 0, ∃ r ∈ one.pools 0, r' = r ∨ r' = f r) :
    ∀ r ∈ pools' 0, TransactionRepo.home L.pool r < D.router.pools ∧
      L.idPool r.transactionID = TransactionRepo.home L.pool r := by
  intro r' hr'
  obtain ⟨r, hr, hr'⟩ := hrows r' hr'
  have hfacts : r'.facts = r.facts := by
    rcases hr' with rfl | rfl
    · rfl
    · exact hf r
  have hm : r'.merchantID = r.merchantID := congrArg Facts.merchantID hfacts
  have hid : r'.transactionID = r.transactionID := congrArg Facts.transactionID hfacts
  have hlt := h.lt r hr
  have hids := h.ids r hr
  unfold TransactionRepo.home at *
  rw [hm, hid]
  exact ⟨hlt, hids⟩

/-- **Each call** can be answered alike by the one table. -/
theorem exec_follows {o o' : Op} (c : Choice) {w one : World} (h : L.Sharded w one)
    (ho : L.SameCall o o') :
    ∃ c', L.SameAnswer o o' (exec D o c w).1 (exec D.unsharded o' c' one).1 ∧
      L.Sharded (exec D o c w).2 (exec D.unsharded o' c' one).2 := by
  cases ho with
  | @insert t hi hid =>
    have htaken : ∀ row, D.row c.now t = .ok row → ∀ r ∈ one.pools 0,
        r.transactionID = row.transactionID →
        TransactionRepo.home L.pool r = TransactionRepo.home L.pool row := by
      intro row hrow r hr heq
      have hst := D.row_stored hrow
      rw [← h.ids r hr, heq, hid _ hst.transactionID]
      unfold TransactionRepo.home
      rw [hst.merchantID]
    obtain ⟨hans, hsplit, hrows⟩ := TransactionRepo.insert_split h.split hi c.now htaken c.fault
    refine ⟨c, .insert hans, h.of_pools hsplit fun r hr => ?_⟩
    rcases hrows r hr with hr | hrow
    · exact ⟨h.lt r hr, h.ids r hr⟩
    · have hst := D.row_stored hrow
      have hhome : TransactionRepo.home L.pool r = L.pool t.merchantID := by
        unfold TransactionRepo.home
        rw [hst.merchantID]
      rw [hhome]
      exact ⟨(Router.forIndex_ok hi).2, hid _ hst.transactionID⟩
  | @getByTransactionID i m txn hi =>
    have hans := TransactionRepo.getByTransactionID_split L.congr h.split hi c.fault (c.pick 0) txn
    exact ⟨c, .getByTransactionID hans, h⟩
  | @getByMerchantOrderID i i' m oid hi hi' =>
    obtain ⟨hsame, heq⟩ :=
      TransactionRepo.getByMerchantOrderID_split L.congr h.split hi hi' c.fault (c.pick 0) oid
    exact ⟨c, .getByMerchantOrderID hsame heq, h⟩
  | @updateStatus i i' m oid pi st hi hi' =>
    have hm : ∀ r, (TransactionRepo.setStatus c.now st pi r).merchantID = r.merchantID :=
      fun r => rfl
    obtain ⟨hans, hsplit, hrows⟩ := TransactionRepo.updateOrder_split L.congr h.split hi hi' hm
      (bytes "update status: ") c.fault oid
    exact ⟨c, .updateStatus hans, h.of_pools hsplit
      (h.rows_of_update (TransactionRepo.facts_setStatus c.now st pi) hrows)⟩
  | @updateCheckout i i' m oid sess pi hi hi' =>
    have hm : ∀ r, (TransactionRepo.setCheckout c.now sess pi r).merchantID = r.merchantID :=
      fun r => rfl
    obtain ⟨hans, hsplit, hrows⟩ := TransactionRepo.updateOrder_split L.congr h.split hi hi' hm
      (bytes "update checkout: ") c.fault oid
    exact ⟨c, .updateCheckout hans, h.of_pools hsplit
      (h.rows_of_update (TransactionRepo.facts_setCheckout c.now sess pi) hrows)⟩
  | @getByOrderIDAny oid =>
    obtain ⟨fault, pick, hfound⟩ := TransactionRepo.scatterFirst_split h.split h.lt c.faults c.pick
      c.arrival fun r => D.collation.eq r.orderID oid
    refine ⟨{ c with faults := fun _ => fault, pick := fun _ => pick, arrival := [] },
      .getByOrderIDAny ?_, h⟩
    show TransactionRepo.Found _ _ (D.getByOrderIDAny c.faults c.pick c.arrival oid w.pools)
      (D.unsharded.getByOrderIDAny (fun _ => fault) (fun _ => pick) [] oid one.pools)
    unfold TransactionRepo.getByOrderIDAny
    cases validateOrderID oid with
    | error e => exact .error e
    | ok _ => exact hfound
  | @getByPaymentIntentID pi =>
    obtain ⟨fault, pick, hfound⟩ := TransactionRepo.scatterFirst_split h.split h.lt c.faults c.pick
      c.arrival fun r => r.stripePiID == some pi
    refine ⟨{ c with faults := fun _ => fault, pick := fun _ => pick, arrival := [] },
      .getByPaymentIntentID ?_, h⟩
    show TransactionRepo.Found _ _ (D.getByPaymentIntentID c.faults c.pick c.arrival pi w.pools)
      (D.unsharded.getByPaymentIntentID (fun _ => fault) (fun _ => pick) [] pi one.pools)
    unfold TransactionRepo.getByPaymentIntentID
    split
    · exact .error _
    · exact hfound
  | @getPendingBefore before limit =>
    obtain ⟨fault, ties, hlist⟩ := TransactionRepo.getPendingBefore_split h.split h.lt c.faults c.ties
      c.arrival before limit
    exact ⟨{ c with faults := fun _ => fault, ties := fun _ => ties, arrival := [] },
      .getPendingBefore hlist, h⟩
  | @getByMerchantID m =>
    have hans : (exec D (.getByMerchantID m) c w).1 =
        (exec D.unsharded (.getByMerchantID m) c one).1 := by
      rw [h.rest]
      rfl
    refine ⟨c, .getByMerchantID hans fun M hM => ?_, h⟩
    have hM : getMerchant D.collation c.fault m w.merchants = .ok M := hM
    unfold getMerchant at hM
    split at hM
    · cases hM
    · split at hM
      · next M' hfind =>
        cases hM
        have heq := List.find?_some hfind
        exact h.merchants M (List.mem_of_find?_eq_some hfind) m heq
      · cases hM
  | plain hp =>
    obtain ⟨hans, hsharded⟩ := exec_plain hp c h
    exact ⟨c, .plain hp hans.symm, hsharded⟩

/-! ## Programs -/

/-- The two programs do the same, each on its own deployment. -/
abbrev Alike (L : Placement D) {α : Type} (T : α → α → Prop) (p q : Svc α) : Prop :=
  Prog.Sim (P := gateway) (Q := gateway) L.corr T p q

section
variable {α : Type} {T : α → α → Prop}

theorem SameAnswer.eq_of_plain {o : Op} {a a' : o.Ans} (h : L.SameAnswer o o a a')
    (ho : Placement.plain o = true) : a = a' := by
  cases h with
  | plain _ heq => exact heq
  | _ => cases ho

theorem alike_plain {o : Op} {f g : o.Ans → Svc α} (ho : plain o = true)
    (hf : ∀ a, L.Alike T (f a) (g a)) : L.Alike T (Svc.ask o >>= f) (Svc.ask o >>= g) := by
  refine Prog.sim_perform (P := gateway) (Q := gateway) (.plain ho) fun a a' haa' => ?_
  have heq : a = a' := haa'.eq_of_plain ho
  subst heq
  exact hf a

/-- The last call of a program. -/
theorem alike_ask (o : Op) (ho : plain o = true) : L.Alike Eq (Svc.ask o) (Svc.ask o) :=
  .call (.plain ho) fun _ _ haa' => .ret (haa'.eq_of_plain ho)

theorem alike_merchant {m : Str} {f g : Res Merchant → Svc α}
    (hf : ∀ a, (∀ M, a = .ok M → L.Routes M.shardIndex m) → L.Alike T (f a) (g a)) :
    L.Alike T (Svc.ask (.getByMerchantID m) >>= f) (Svc.ask (.getByMerchantID m) >>= g) := by
  refine Prog.sim_perform (P := gateway) (Q := gateway) .getByMerchantID fun a a' haa' => ?_
  cases haa' with
  | getByMerchantID heq hroutes =>
    subst heq
    exact hf a hroutes
  | plain ho _ => cases ho

/-- A read under the same index. -/
theorem alike_read {i : UInt8} {m o : Str} {f g : Res Transaction → Svc α} (hi : L.Routes i m)
    (hf : ∀ a, L.Alike T (f a) (g a)) :
    L.Alike T (Svc.ask (.getByMerchantOrderID i m o) >>= f)
      (Svc.ask (.getByMerchantOrderID i m o) >>= g) := by
  refine Prog.sim_perform (P := gateway) (Q := gateway) (.getByMerchantOrderID hi hi.lt)
    fun a a' haa' => ?_
  cases haa' with
  | getByMerchantOrderID _ heq =>
    cases heq rfl
    exact hf a
  | plain ho _ => cases ho

theorem alike_updateStatus {i i' : UInt8} {m o pi : Str} {st : TransactionStatus}
    {f g : Res Unit → Svc α} (hi : L.Routes i m) (hi' : i' < D.router.logicalCount)
    (hf : ∀ a, L.Alike T (f a) (g a)) :
    L.Alike T (Svc.ask (.updateStatus i m o st pi) >>= f)
      (Svc.ask (.updateStatus i' m o st pi) >>= g) := by
  refine Prog.sim_perform (P := gateway) (Q := gateway) (.updateStatus hi hi') fun a a' haa' => ?_
  cases haa' with
  | updateStatus heq =>
    subst heq
    exact hf a
  | plain ho _ => cases ho

theorem alike_updateCheckout {i : UInt8} {m o sess pi : Str} {f g : Res Unit → Svc α}
    (hi : L.Routes i m) (hf : ∀ a, L.Alike T (f a) (g a)) :
    L.Alike T (Svc.ask (.updateCheckout i m o sess pi) >>= f)
      (Svc.ask (.updateCheckout i m o sess pi) >>= g) := by
  refine Prog.sim_perform (P := gateway) (Q := gateway) (.updateCheckout hi hi.lt) fun a a' haa' => ?_
  cases haa' with
  | updateCheckout heq =>
    subst heq
    exact hf a
  | plain ho _ => cases ho

/-- A query to all pools. -/
theorem alike_orderIDAny {o : Str} {f g : Res Transaction → Svc α}
    (hf : ∀ a a', TransactionRepo.Found D.toTransactionRepo L.pool a a' → L.Alike T (f a) (g a')) :
    L.Alike T (Svc.ask (.getByOrderIDAny o) >>= f) (Svc.ask (.getByOrderIDAny o) >>= g) := by
  refine Prog.sim_perform (P := gateway) (Q := gateway) .getByOrderIDAny fun a a' haa' => ?_
  cases haa' with
  | getByOrderIDAny hfound => exact hf a a' hfound
  | plain ho _ => cases ho

end

/-! ### Create -/

theorem alike_create {s : PaymentService} {inp : CreatePaymentInput}
    (hM : ∀ M, PaymentService.Accepts inp M → L.Routes M.shardIndex M.merchantID ∧
      L.idPool (D.hash16 (hashInput M.merchantID inp.orderID)) = L.pool M.merchantID) :
    L.Alike Eq (s.create D inp) (s.create D inp) := by
  refine Prog.sim_self fun t o k hr => ?_
  obtain ⟨M, hacc, hcall⟩ := s.create_next D hr
  obtain ⟨hi, hid⟩ := hM M hacc
  cases hcall with
  | insert =>
    refine ⟨.insert hi fun txn htxn => ?_, fun a a' haa' => ?_⟩
    · cases htxn.symm.trans (decodeHex16_deriveTransactionID D M.merchantID inp.orderID)
      exact hid
    · cases haa' with
      | insert heq => exact heq
      | plain ho _ => cases ho
  | lookup e hd =>
    refine ⟨.getByTransactionID hi, fun a a' haa' => ?_⟩
    cases haa' with
    | getByTransactionID heq => exact heq
    | plain ho _ => cases ho
  | session _ _ => exact ⟨.plain rfl, fun a a' haa' => haa'.eq_of_plain rfl⟩
  | store sess _ _ =>
    refine ⟨.updateCheckout hi hi.lt, fun a a' haa' => ?_⟩
    cases haa' with
    | updateCheckout heq => exact heq
    | plain ho _ => cases ho
  | clock t => exact ⟨.plain rfl, fun a a' haa' => haa'.eq_of_plain rfl⟩

/-! ### Resolve -/

section
variable (r : CheckoutResolver) {i : UInt8} {m o : Str}

theorem alike_cacheURL {α : Type} (key url : Str) (a : α) :
    L.Alike Eq (do r.cacheURL key url; return a) (do r.cacheURL key url; return a) := by
  unfold CheckoutResolver.cacheURL
  split
  · exact alike_plain rfl fun _ => .ret rfl
  · exact .ret rfl

theorem alike_resolveAfterLock (hi : L.Routes i m) :
    L.Alike Eq (r.resolveAfterLock i m o) (r.resolveAfterLock i m o) := by
  unfold CheckoutResolver.resolveAfterLock
  refine alike_read hi fun a => ?_
  cases a with
  | error e => exact .ret rfl
  | ok order =>
    simp only
    split
    · exact alike_cacheURL r _ _ _
    · exact .ret rfl

theorem alike_openSession (hi : L.Routes i m) (order : Transaction) :
    L.Alike Eq (r.openSession D.unicode i m o order) (r.openSession D.unicode i m o order) := by
  unfold CheckoutResolver.openSession CheckoutResolver.createSession
  refine alike_plain rfl fun a => ?_
  cases a with
  | error e =>
    simp only
    split
    · exact .ret rfl
    · exact .ret rfl
  | ok session => exact alike_updateCheckout hi fun _ => alike_cacheURL r _ _ _

theorem alike_underLock (hi : L.Routes i m) (order : Transaction) :
    L.Alike Eq (r.underLock D.unicode i m o order) (r.underLock D.unicode i m o order) := by
  unfold CheckoutResolver.underLock
  refine alike_read hi fun again => ?_
  simp only
  split
  · exact alike_cacheURL r _ _ _
  · refine Prog.sim_bind (T := Eq) ?_ fun ok ok' hok => ?_
    · unfold CheckoutResolver.allowed
      split
      · refine alike_plain rfl fun a => ?_
        cases a with
        | error e => exact .ret rfl
        | ok _ => exact .ret rfl
      · exact .ret rfl
    · subst hok
      split
      · exact alike_openSession r hi order
      · exact .ret rfl

theorem alike_resolve : L.Alike Eq (r.resolve D.unicode m o) (r.resolve D.unicode m o) := by
  unfold CheckoutResolver.resolve
  refine Prog.sim_bind (T := Eq) ?_ fun url url' hurl => ?_
  · unfold CheckoutResolver.cachedURL
    split
    · exact alike_ask (.cacheGet r.pod (cacheKey m o)) rfl
    · exact .ret rfl
  subst hurl
  cases url with
  | some url => exact .ret rfl
  | none =>
    refine alike_merchant fun a hroutes => ?_
    cases a with
    | error e =>
      simp only
      split
      · exact .ret rfl
      · exact .ret rfl
    | ok M =>
      have hi : L.Routes M.shardIndex m := hroutes M rfl
      unfold CheckoutResolver.resolveOn
      refine alike_read hi fun a => ?_
      cases a with
      | error e =>
        simp only
        split
        · exact .ret rfl
        · exact .ret rfl
      | ok order =>
        simp only
        split
        · exact alike_cacheURL r _ _ _
        · unfold CheckoutResolver.openLazily
          refine alike_plain rfl fun a => ?_
          cases a with
          | error e => exact alike_resolveAfterLock r hi
          | ok lock =>
            refine Prog.sim_bind (T := Eq) (alike_underLock r hi order) fun res res' hres => ?_
            subst hres
            exact alike_plain rfl fun _ => .ret rfl

end

/-! ### Webhooks -/

/-- The event announces the order whatever its shard. -/
theorem confirmedEvent_withShard {t t' : Transaction}
    (h : TransactionRepo.withShard 0 t = TransactionRepo.withShard 0 t') (st : TransactionStatus)
    (now : Time) : confirmedEvent t st now = confirmedEvent t' st now := by
  show confirmedEvent (TransactionRepo.withShard 0 t) st now =
    confirmedEvent (TransactionRepo.withShard 0 t') st now
  rw [h]

theorem alike_announce {i i' : UInt8} {m o : Str} (hi : L.Routes i m)
    (hi' : i' < D.router.logicalCount) (st : TransactionStatus) :
    L.Alike Eq (announce i m o st) (announce i' m o st) := by
  unfold announce
  refine Prog.sim_perform (P := gateway) (Q := gateway) (.getByMerchantOrderID hi hi')
    fun a a' haa' => ?_
  have hsame : TransactionRepo.SameRow a a' := by
    cases haa' with
    | getByMerchantOrderID hsame _ => exact hsame
    | plain ho _ => cases ho
  cases hsame with
  | error e => exact .ret rfl
  | ok heq =>
    refine alike_plain rfl fun now => ?_
    rw [confirmedEvent_withShard heq]
    exact alike_ask (.publishPaymentConfirmed _) rfl

theorem alike_resolveShard (m : Str) :
    L.Alike (fun a a' => a = a' ∧ ∀ i, a = .ok i → L.Routes i m) (resolveShard m)
      (resolveShard m) := by
  unfold resolveShard
  refine alike_merchant fun a hroutes => ?_
  cases a with
  | error e =>
    refine .ret ⟨rfl, ?_⟩
    rintro i ⟨⟩
  | ok M =>
    refine .ret ⟨rfl, ?_⟩
    rintro i ⟨⟩
    exact hroutes M rfl

section
variable (s : WebhookService) (e : StripeEvent)

theorem alike_crossCheck (piID : Str) :
    L.Alike Eq (WebhookService.crossCheck piID) (WebhookService.crossCheck piID) := by
  unfold WebhookService.crossCheck
  split
  · exact .ret rfl
  · refine alike_plain rfl fun a => ?_
    cases a with
    | error err => exact .ret rfl
    | ok pi =>
      simp only
      split
      · exact .ret rfl
      · exact .ret rfl

theorem alike_handleSucceeded : L.Alike Eq (s.handleSucceeded e) (s.handleSucceeded e) := by
  unfold WebhookService.handleSucceeded
  cases s.decodeStripeObject e with
  | error err => exact .ret rfl
  | ok o =>
    simp only
    split
    · exact .ret rfl
    refine Prog.sim_bind (alike_crossCheck o.piID) fun a a' haa' => ?_
    subst haa'
    cases a with
    | error err => exact .ret rfl
    | ok _ =>
      refine Prog.sim_bind (alike_resolveShard o.merchantID) fun a a' ⟨haa', hroutes⟩ => ?_
      subst haa'
      cases a with
      | error err => exact .ret rfl
      | ok i =>
        have hi := hroutes i rfl
        refine alike_updateStatus hi hi.lt fun a => ?_
        cases a with
        | error err => exact .ret rfl
        | ok _ => exact alike_announce hi hi.lt .paid

theorem alike_handleFailed : L.Alike Eq (s.handleFailed e) (s.handleFailed e) := by
  unfold WebhookService.handleFailed
  cases s.decodeStripeObject e with
  | error err => exact .ret rfl
  | ok o =>
    simp only
    split
    · exact .ret rfl
    refine Prog.sim_bind (alike_resolveShard o.merchantID) fun a a' ⟨haa', hroutes⟩ => ?_
    subst haa'
    cases a with
    | error err => exact .ret rfl
    | ok i =>
      have hi := hroutes i rfl
      refine alike_updateStatus hi hi.lt fun a => ?_
      cases a with
      | error err => exact .ret rfl
      | ok _ => exact .ret rfl

/-- The order of a refund; its shard, if the payment intent has told it, leads to the order. -/
theorem alike_refundedOrder (o : StripeObject) :
    L.Alike (fun a a' => a.1 = a'.1 ∧ a.2.1 = a'.2.1 ∧
        ((a.2.2 = none ∧ a'.2.2 = none) ∨
          ∃ i, a.2.2 = some i ∧ a'.2.2 = some 0 ∧ L.Routes i a.2.1))
      (WebhookService.refundedOrder o) (WebhookService.refundedOrder o) := by
  unfold WebhookService.refundedOrder
  split
  · refine Prog.sim_perform (P := gateway) (Q := gateway) .getByPaymentIntentID fun a a' haa' => ?_
    have hfound : TransactionRepo.Found D.toTransactionRepo L.pool a a' := by
      cases haa' with
      | getByPaymentIntentID hfound => exact hfound
      | plain ho _ => cases ho
    cases hfound with
    | error err => exact .ret ⟨rfl, rfl, .inl ⟨rfl, rfl⟩⟩
    | ok hroute => exact .ret ⟨rfl, rfl, .inr ⟨_, rfl, rfl, hroute⟩⟩
  · exact .ret ⟨rfl, rfl, .inl ⟨rfl, rfl⟩⟩

theorem alike_refundShard {m : Str} {x x' : Option UInt8}
    (h : (x = none ∧ x' = none) ∨ ∃ i, x = some i ∧ x' = some 0 ∧ L.Routes i m) :
    L.Alike (fun a a' => (∃ err, a = .error err ∧ a' = .error err) ∨
        ∃ i i', a = .ok i ∧ a' = .ok i' ∧ L.Routes i m ∧ i' < D.router.logicalCount)
      (WebhookService.refundShard m x) (WebhookService.refundShard m x') := by
  rcases h with ⟨rfl, rfl⟩ | ⟨i, rfl, rfl, hi⟩
  · unfold WebhookService.refundShard resolveShard
    refine alike_merchant fun a hroutes => ?_
    cases a with
    | error err => exact .ret (.inl ⟨_, rfl, rfl⟩)
    | ok M =>
      have hi := hroutes M rfl
      exact .ret (.inr ⟨_, _, rfl, rfl, hi, hi.lt⟩)
  · exact .ret (.inr ⟨i, 0, rfl, rfl, hi, zero_lt⟩)

theorem alike_handleRefunded : L.Alike Eq (s.handleRefunded e) (s.handleRefunded e) := by
  unfold WebhookService.handleRefunded
  cases s.decodeStripeObject e with
  | error err => exact .ret rfl
  | ok o =>
    refine Prog.sim_bind (alike_refundedOrder o) ?_
    rintro ⟨orderID, merchantID, x⟩ ⟨orderID', merchantID', x'⟩ ⟨ho, hm, hx⟩
    obtain rfl : orderID = orderID' := ho
    obtain rfl : merchantID = merchantID' := hm
    simp only
    split
    · exact .ret rfl
    refine Prog.sim_bind (alike_refundShard hx) ?_
    rintro a a' (⟨err, rfl, rfl⟩ | ⟨i, i', rfl, rfl, hi, hi'⟩)
    · exact .ret rfl
    · refine alike_updateStatus hi hi' fun a => ?_
      cases a with
      | error err => exact .ret rfl
      | ok _ => exact alike_announce hi hi' .refunded

theorem alike_process (payload sig : Str) :
    L.Alike Eq (s.process payload sig) (s.process payload sig) := by
  unfold WebhookService.process
  cases s.verifyWebhookSignature payload sig s.webhookSecret with
  | error err => exact .ret rfl
  | ok e =>
    unfold WebhookService.processEvent
    refine alike_plain rfl fun a => ?_
    match a with
    | .error err => exact .ret rfl
    | .ok false => exact .ret rfl
    | .ok true =>
      show L.Alike Eq (s.handle e) (s.handle e)
      unfold WebhookService.handle
      cases e.kind with
      | succeeded => exact alike_handleSucceeded s e
      | failed => exact alike_handleFailed s e
      | refunded => exact alike_handleRefunded s e
      | dispute => exact .ret rfl
      | ignored => exact .ret rfl

end

/-! ### Ticks -/

theorem alike_reconcileOne {t : Transaction} (h : L.Routes t.shardIndex t.merchantID) :
    L.Alike (fun _ _ => True) (OrderReconciliation.reconcileOne t)
      (OrderReconciliation.reconcileOne (TransactionRepo.withShard 0 t)) := by
  unfold OrderReconciliation.reconcileOne
  rw [show (TransactionRepo.withShard 0 t).stripePaymentIntentID = t.stripePaymentIntentID from rfl]
  split
  · exact .ret trivial
  · refine alike_plain rfl fun a => ?_
    cases a with
    | error e => exact .ret trivial
    | ok pi =>
      simp only
      cases pi.verdict with
      | paid =>
        refine alike_updateStatus h zero_lt fun a => ?_
        cases a with
        | error e => exact .ret trivial
        | ok _ => exact alike_plain rfl fun now => alike_plain rfl fun _ => .ret trivial
      | failed => exact alike_updateStatus h zero_lt fun _ => .ret trivial
      | undecided => exact .ret trivial

/-- A tick that cannot list the orders names the pool in its error. -/
def SameTick (a a' : Res Unit) : Prop :=
  a = a' ∨ ∃ e e', a = .error e ∧ a' = .error e'

theorem alike_reconcile (r : OrderReconciliation) : L.Alike SameTick r.tick r.tick := by
  unfold OrderReconciliation.tick
  refine alike_plain rfl fun now => ?_
  refine Prog.sim_perform (P := gateway) (Q := gateway) .getPendingBefore fun a a' haa' => ?_
  have hlist : TransactionRepo.SameList D.toTransactionRepo L.pool a a' := by
    cases haa' with
    | getPendingBefore hlist => exact hlist
    | plain ho _ => cases ho
  cases hlist with
  | error e e' => exact .ret (.inr ⟨_, _, rfl, rfl⟩)
  | @ok ts hroutes =>
    refine Prog.sim_bind (T := fun _ _ => True) ?_ fun _ _ _ => .ret (.inl rfl)
    have hpairs : List.Forall₂ (fun t t' => L.Routes t.shardIndex t.merchantID ∧
        t' = TransactionRepo.withShard 0 t) ts (ts.map (TransactionRepo.withShard 0)) := by
      rw [List.forall₂_map_right_iff, List.forall₂_same]
      exact fun t ht => ⟨hroutes t ht, rfl⟩
    refine Prog.sim_loop (P := gateway) (Q := gateway) rfl rfl (fun _ _ => rfl) (fun _ _ => rfl)
      ?_ hpairs
    rintro t _ ⟨ht, rfl⟩
    exact alike_reconcileOne ht

theorem alike_confirmOrder (p : OnchainTransaction) (n : UInt64) :
    L.Alike (fun _ _ => True) (ConfirmationTracker.confirmOrder p n)
      (ConfirmationTracker.confirmOrder p n) := by
  unfold ConfirmationTracker.confirmOrder
  refine alike_orderIDAny fun a a' hfound => ?_
  cases hfound with
  | error e => exact .ret trivial
  | @ok order hroute =>
    have hstatus : (TransactionRepo.withShard 0 order).status = order.status := rfl
    have hamount : amountMismatch p (TransactionRepo.withShard 0 order) = amountMismatch p order := rfl
    simp only [hstatus, hamount]
    split
    · exact alike_plain rfl fun _ => .ret trivial
    split
    · exact alike_plain rfl fun _ => .ret trivial
    refine alike_plain rfl fun a => ?_
    cases a with
    | error e => exact .ret trivial
    | ok _ =>
      refine alike_updateStatus hroute zero_lt fun a => ?_
      cases a with
      | error e => exact .ret trivial
      | ok _ => exact alike_plain rfl fun now => alike_plain rfl fun _ => .ret trivial

theorem alike_processOne (latest : UInt64) (p : OnchainTransaction) :
    L.Alike (fun _ _ => True) (ConfirmationTracker.processOne p latest)
      (ConfirmationTracker.processOne p latest) := by
  unfold ConfirmationTracker.processOne
  refine alike_plain rfl fun a => ?_
  match a with
  | .error e => exact alike_plain rfl fun _ => .ret trivial
  | .ok none => exact alike_plain rfl fun _ => .ret trivial
  | .ok (some receipt) =>
    simp only
    unfold ConfirmationTracker.countConfirmations
    split
    · exact alike_plain rfl fun _ => .ret trivial
    split
    · exact .ret trivial
    simp only
    split
    · exact alike_plain rfl fun _ => .ret trivial
    · exact alike_confirmOrder p _

theorem alike_confirm (c : ConfirmationTracker) : L.Alike Eq c.tick c.tick := by
  unfold ConfirmationTracker.tick
  refine alike_plain rfl fun a => ?_
  cases a with
  | error e => exact .ret rfl
  | ok latest =>
    refine alike_plain rfl fun a => ?_
    cases a with
    | error e => exact .ret rfl
    | ok pendings =>
      refine Prog.sim_bind (T := fun _ _ => True) ?_ fun _ _ _ => .ret rfl
      exact Prog.sim_loop (P := gateway) (Q := gateway) rfl rfl (fun _ _ => rfl) (fun _ _ => rfl)
        (fun p _ hp => hp ▸ alike_processOne latest p) (List.forall₂_same.mpr fun _ _ => rfl)

/-! ### The listener -/

section
variable (hex : Address → Str)

theorem newOnchainTx_withShard (cfg : ChainConfig) (lg : Log) (parsed : ParsedPaymentEvent)
    (order : Transaction) : newOnchainTx hex cfg lg parsed (TransactionRepo.withShard 0 order) =
      newOnchainTx hex cfg lg parsed order := rfl

theorem alike_handleLog (s : Subscriber) (lg : Log) :
    L.Alike Eq (s.handleLog hex lg) (s.handleLog hex lg) := by
  unfold Subscriber.handleLog
  refine alike_plain rfl fun a => ?_
  cases a with
  | ok _ => exact .ret rfl
  | error e =>
    simp only
    split
    · cases parsePaymentEvent lg with
      | error e => exact .ret rfl
      | ok parsed =>
        refine alike_orderIDAny fun a a' hfound => ?_
        cases hfound with
        | error e =>
          simp only
          split
          · exact .ret rfl
          · exact .ret rfl
        | ok hroute =>
          simp only [newOnchainTx_withShard]
          refine alike_plain rfl fun a => ?_
          cases a with
          | error e => exact .ret rfl
          | ok _ => exact alike_plain rfl fun _ => .ret rfl
    · exact .ret rfl

theorem alike_persist (b : BackfillScanner) (lg : Log) :
    L.Alike (fun _ _ => True) (b.persist hex lg) (b.persist hex lg) := by
  unfold BackfillScanner.persist
  refine alike_plain rfl fun a => ?_
  cases a with
  | ok _ => exact .ret trivial
  | error e =>
    simp only
    cases parsePaymentEvent lg with
    | error e => exact .ret trivial
    | ok parsed =>
      refine alike_orderIDAny fun a a' hfound => ?_
      cases hfound with
      | error e => exact .ret trivial
      | ok hroute =>
        simp only [newOnchainTx_withShard]
        exact alike_plain rfl fun _ => .ret trivial

theorem alike_scan (b : BackfillScanner) (head : UInt64) (fuel : Nat) (fromBlock : UInt64) :
    L.Alike Eq (b.scan hex head fuel fromBlock) (b.scan hex head fuel fromBlock) := by
  induction fuel generalizing fromBlock with
  | zero => exact .ret rfl
  | succ fuel ih =>
    unfold BackfillScanner.scan
    split
    · refine alike_plain rfl fun a => ?_
      cases a with
      | error e => exact .ret rfl
      | ok logs =>
        refine Prog.sim_bind (T := fun _ _ => True) ?_ fun _ _ _ => alike_plain rfl fun _ => ih _
        exact Prog.sim_loop (P := gateway) (Q := gateway) rfl rfl (fun _ _ => rfl) (fun _ _ => rfl)
          (fun lg _ hlg => hlg ▸ alike_persist hex b lg) (List.forall₂_same.mpr fun _ _ => rfl)
    · exact .ret rfl

theorem alike_backfill (b : BackfillScanner) (fuel : Nat) :
    L.Alike Eq (b.tick hex fuel) (b.tick hex fuel) := by
  unfold BackfillScanner.tick
  refine alike_plain rfl fun a => ?_
  cases a with
  | error e => exact .ret rfl
  | ok cursor =>
    refine alike_plain rfl fun a => ?_
    cases a with
    | error e => exact .ret rfl
    | ok head =>
      simp only
      split
      · exact .ret rfl
      · exact alike_scan hex b head fuel _

theorem alike_recheck (p : OnchainTransaction) :
    L.Alike (fun _ _ => True) (Reconciler.recheck p) (Reconciler.recheck p) := by
  unfold Reconciler.recheck
  refine alike_plain rfl fun a => ?_
  match a with
  | .error e => exact alike_plain rfl fun _ => .ret trivial
  | .ok none => exact alike_plain rfl fun _ => .ret trivial
  | .ok (some receipt) =>
    simp only
    split
    · exact alike_plain rfl fun _ => .ret trivial
    · exact .ret trivial

theorem alike_reconciler (r : Reconciler) : L.Alike Eq r.tick r.tick := by
  unfold Reconciler.tick
  refine alike_plain rfl fun a => ?_
  cases a with
  | error e => exact .ret rfl
  | ok pendings =>
    refine Prog.sim_bind (T := fun _ _ => True) ?_ fun _ _ _ => .ret rfl
    exact Prog.sim_loop (P := gateway) (Q := gateway) rfl rfl (fun _ _ => rfl) (fun _ _ => rfl)
      (fun p _ hp => hp ▸ alike_recheck p) (List.forall₂_same.mpr fun _ _ => rfl)

end

/-! ## Runs -/

/-- The jobs place orders where they belong: each `Create` is of a merchant whose shard leads to the
merchant's pool, under an id of that pool. -/
def Placed (L : Placement D) (j : Job) : Prop :=
  ∀ s inp M, j = .create s inp → PaymentService.Accepts inp M →
    L.Routes M.shardIndex M.merchantID ∧
      L.idPool (D.hash16 (hashInput M.merchantID inp.orderID)) = L.pool M.merchantID

/-- The same outcome; an error of the order reconciler names the pool. -/
def SameOutcome (a a' : Outcome) : Prop :=
  a = a' ∨ ∃ e e', a = .reconciled (.error e) ∧ a' = .reconciled (.error e')

theorem alike_job {j : Job} (hj : L.Placed j) : L.Alike SameOutcome (j.prog D) (j.prog D) := by
  have hmap : ∀ {α : Type} {p : Svc α} (f : α → Outcome), L.Alike Eq p p →
      L.Alike SameOutcome (p >>= fun a => .ret (f a)) (p >>= fun a => .ret (f a)) := by
    intro α p f hp
    refine Prog.sim_bind hp fun a a' haa' => ?_
    subst haa'
    exact .ret (.inl rfl)
  cases j with
  | create s inp => exact hmap _ (alike_create fun M hM => hj s inp M rfl hM)
  | resolve r m o => exact hmap _ (alike_resolve r)
  | process s payload sig => exact hmap _ (alike_process s payload sig)
  | reconcile r =>
    refine Prog.sim_bind (alike_reconcile r) ?_
    rintro a a' (rfl | ⟨e, e', rfl, rfl⟩)
    · exact .ret (.inl rfl)
    · exact .ret (.inr ⟨e, e', rfl, rfl⟩)
  | confirm c => exact hmap _ (alike_confirm c)
  | listen l =>
    cases l with
    | handleLog s lg => exact hmap _ (by
        refine Prog.sim_bind (alike_handleLog D.addressHex s lg) fun a a' haa' => ?_
        subst haa'
        exact .ret rfl)
    | backfill b fuel => exact hmap _ (alike_backfill D.addressHex b fuel)
    | recheck r => exact hmap _ (by
        refine Prog.sim_bind (alike_reconciler r) fun a a' haa' => ?_
        subst haa'
        exact .ret rfl)

theorem startFlow_unsharded (s : PaymentService) (M : Merchant) (inp : CreatePaymentInput) :
    s.startFlow D.unsharded M inp = s.startFlow D M inp := by
  unfold PaymentService.startFlow
  refine if_congr Iff.rfl rfl (if_congr Iff.rfl rfl ?_)
  refine congrArg (Svc.ask _ >>= ·) (funext fun a => ?_)
  cases a with
  | error e => rfl
  | ok session =>
    refine congrArg (Svc.ask _ >>= ·) (funext fun a => ?_)
    cases a <;> rfl

theorem answerRetry_unsharded (s : PaymentService) (M : Merchant) (inp : CreatePaymentInput) :
    s.answerRetry D.unsharded M inp = s.answerRetry D M inp := by
  unfold PaymentService.answerRetry
  refine congrArg (Svc.ask _ >>= ·) (funext fun a => ?_)
  cases a <;> rfl

theorem create_unsharded (s : PaymentService) (inp : CreatePaymentInput) :
    s.create D.unsharded inp = s.create D inp := by
  unfold PaymentService.create
  cases inp.merchant with
  | none => rfl
  | some M =>
    simp only
    cases validateOrderID inp.orderID with
    | error e => rfl
    | ok _ =>
      refine if_congr Iff.rfl rfl (congrArg (Svc.ask _ >>= ·) (funext fun a => ?_))
      cases a with
      | error e => exact if_congr Iff.rfl rfl (answerRetry_unsharded s M inp)
      | ok _ => exact startFlow_unsharded s M inp

/-- A job does not know how many pools there are. -/
theorem prog_unsharded (j : Job) : j.prog D.unsharded = j.prog D := by
  cases j with
  | create s inp => exact congrArg (fun p => p >>= fun r => .ret (Outcome.created r)) (create_unsharded s inp)
  | resolve r m o => rfl
  | process s payload sig => rfl
  | reconcile r => rfl
  | confirm c => rfl
  | listen l => rfl

theorem run_alike {w one : World} {js : List Job} (hstart : L.Sharded w one)
    (hjs : ∀ j ∈ js, L.Placed j) (xs : List (Nat × Choice)) :
    ∃ xs' : List (Nat × Choice), xs'.map Prod.fst = xs.map Prod.fst ∧
      Sys.Follows L.corr SameOutcome L.Sharded (System.run D w js xs)
        (System.run D.unsharded one js xs') := by
  have : Nonempty Choice := ⟨{}⟩
  have hprogs : List.Forall₂ (L.Alike SameOutcome) (js.map (Job.prog D))
      (js.map (Job.prog D.unsharded)) := by
    rw [List.forall₂_map_left_iff, List.forall₂_map_right_iff, List.forall₂_same]
    intro j hj
    rw [prog_unsharded]
    exact alike_job (hjs j hj)
  have h0 : Sys.Follows L.corr SameOutcome L.Sharded
      (Sys.start (C := Choice) (P := gateway) w (js.map (Job.prog D)))
      (Sys.start (C := Choice) (P := gateway) one (js.map (Job.prog D.unsharded))) :=
    ⟨hstart, hprogs, .nil⟩
  exact Sys.run_follows (fun o o' c w one h ho => exec_follows c h ho) h0 xs

end Placement

/-- **Sharding does not show.**  Whatever a run of the gateway over several pools does, a run of the
gateway over one pool does under the same schedule: the same calls with the same answers, up to the
shard indices of rows found in all pools, and the same outcomes.  The worlds stay the same but for
the tables, and the pools stay the parts of the one table. -/
theorem sharding_invisible {D : Deployment} (L : Placement D) {w one : World} {js : List Job}
    (hstart : L.Sharded w one) (hjs : ∀ j ∈ js, L.Placed j) (xs : List (Nat × Choice)) :
    ∃ xs' : List (Nat × Choice), xs'.map Prod.fst = xs.map Prod.fst ∧
      L.Sharded (System.run D w js xs).world (System.run D.unsharded one js xs').world ∧
      List.Forall₂ (fun e e' => e.pid = e'.pid ∧ L.SameAnswer e.op e'.op e.ans e'.ans)
        (System.run D w js xs).hist (System.run D.unsharded one js xs').hist ∧
      ∀ (i : Nat) a, (System.run D w js xs).procs[i]?.bind (Prog.result? (P := gateway)) = some a →
        ∃ a', (System.run D.unsharded one js xs').procs[i]?.bind (Prog.result? (P := gateway)) = some a' ∧
          Placement.SameOutcome a a' := by
  obtain ⟨xs', hfst, hfollows⟩ := Placement.run_alike hstart hjs xs
  refine ⟨xs', hfst, hfollows.world, hfollows.hist, fun i a ha => ?_⟩
  obtain ⟨p, hp, hres⟩ := Option.bind_eq_some_iff.mp ha
  obtain ⟨q, hq, hsim⟩ := getElem?_of_forall₂ hfollows.procs hp
  rcases hsim.result with ⟨b, b', hb, hb', hsame⟩ | ⟨hnone, -⟩
  · cases hres.symm.trans hb
    exact ⟨b', by rw [hq]; exact hb', hsame⟩
  · cases hres.symm.trans hnone

/-- Two merchants, each in a pool of its own. -/
def Placement.pair : Placement .twoPools where
  pool m := if m = bytes "b" then 1 else 0
  idPool id := if id = Deployment.twoPools.hash16 (hashInput (bytes "b") (bytes "o")) then 1 else 0
  congr m m' h := by rw [eq_of_beq (show (m == m') = true from h)]

def pairJobs : List Job :=
  [.create (.mode true) (.card (.onShard (bytes "a") 0) (bytes "o") 100),
    .create (.mode true) (.card (.onShard (bytes "b") 1) (bytes "o") 250)]

theorem sharding_invisible_pair :
    let w := World.fresh [.onShard (bytes "a") 0, .onShard (bytes "b") 1]
    ∃ xs' : List (Nat × Choice),
      Placement.pair.Sharded (System.run .twoPools w pairJobs (steps 0 2 ++ steps 1 2)).world
        (System.run Deployment.twoPools.unsharded w pairJobs xs').world := by
  intro w
  have ha : Placement.pair.idPool (Deployment.twoPools.hash16 (hashInput (bytes "a") (bytes "o"))) =
      0 := by decide +kernel
  have hb : Placement.pair.idPool (Deployment.twoPools.hash16 (hashInput (bytes "b") (bytes "o"))) =
      1 := by decide +kernel
  have hstart : Placement.pair.Sharded w w := by
    refine ⟨rfl, ?_, by simp [w, World.fresh], by simp [w, World.fresh], ?_⟩
    · intro p
      rfl
    · intro M hM m hm
      rw [← eq_of_beq (show (M.merchantID == m) = true from hm)]
      rcases List.mem_pair.mp hM with rfl | rfl <;> rfl
  have hjs : ∀ j ∈ pairJobs, Placement.pair.Placed j := by
    intro j hj s inp M hjob hacc
    obtain ⟨hinp, -⟩ := hacc
    rcases List.mem_pair.mp hj with rfl | rfl
    · cases hjob
      cases hinp
      exact ⟨rfl, ha⟩
    · cases hjob
      cases hinp
      exact ⟨rfl, hb⟩
  obtain ⟨xs', -, hsharded, -⟩ := sharding_invisible Placement.pair hstart hjs (steps 0 2 ++ steps 1 2)
  exact ⟨xs', hsharded⟩

end EasyPay
