import EasyPay.System

/-!
# Acknowledged events

A delivery claims the dedupe key of its event before it does the work, and keeps it when the
work fails.  Later deliveries are answered as duplicates, with 200, so Stripe stops retrying.

* `handle_ended`: a handler gives up at the first call that does not go well, or has written
  and announced the new status.
* `dedup_invariant`: in every state of every run within the life of the key, at most one
  delivery has claimed it, and no other one does any work.
* `acknowledged_iff`: an acknowledged event has taken effect exactly when it can be resolved to
  an order and no call of its deliveries has failed.
-/

namespace EasyPay

open GoStrings Tables Ports

/-! ## How a handler ends -/

/-- The call has not gone well for the handler of an event. -/
def Op.Failed : (o : Op) → o.Ans → Prop
  | .getPaymentIntent _, a => ∀ pi, a = .ok pi → pi.status ≠ bytes "succeeded"
  | .getByPaymentIntentID _, a => ∀ tx, a = .ok tx → tx.orderID = [] ∨ tx.merchantID = []
  | .getByMerchantID _, a => ∃ e, a = .error e
  | .updateStatus _ _ _ _ _, a => ∃ e, a = .error e
  | .getByMerchantOrderID _ _ _, a => ∃ e, a = .error e
  | .publishPaymentConfirmed _, a => ∃ e, a = .error e
  | _, _ => False

/-- The last call of a handler that has had no failure. -/
def EventKind.Last (kind : EventKind) : Op → Prop
  | .updateStatus _ _ _ _ _ => kind = .failed
  | .publishPaymentConfirmed _ => kind ≠ .failed
  | _ => False

/-- The event names its order, or, if it is a refund, a payment intent to find it by. -/
def Resolvable (s : WebhookService) (e : StripeEvent) : Prop :=
  ∃ o, s.decodeStripeObject e = .ok o ∧
    ((o.orderID ≠ [] ∧ o.merchantID ≠ []) ∨ (e.kind = .refunded ∧ o.refundPiID ≠ []))

/-- The order of the event: the one its object names, or, if it is a refund, the one that was
found by its payment intent. -/
def Names (s : WebhookService) (e : StripeEvent) (made : Prog.Step gateway → Prop)
    (m o : Str) : Prop :=
  ∃ obj, s.decodeStripeObject e = .ok obj ∧
    ((m = obj.merchantID ∧ o = obj.orderID) ∨
      (e.kind = .refunded ∧ ∃ tx, made ((Op.getByPaymentIntentID obj.refundPiID).gave (.ok tx)) ∧
        m = tx.merchantID ∧ o = tx.orderID))

/-- Among the calls `made`, the new status of the event's order was written, and announced
unless the event is a failed payment. -/
def Effective (s : WebhookService) (e : StripeEvent) (made : Prog.Step gateway → Prop) : Prop :=
  ∃ i m o st pi, e.kind.status = some st ∧ Names s e made m o ∧
    made ((Op.updateStatus i m o st pi).gave (.ok ())) ∧
    (e.kind ≠ .failed → ∃ order now, made ((Op.getByMerchantOrderID i m o).gave (.ok order)) ∧
      made ((Op.publishPaymentConfirmed (confirmedEvent order st now)).gave (.ok ())))

/-- How a handler has ended. -/
inductive Ended (s : WebhookService) (e : StripeEvent) (t : Calls) : Prop
  | unresolved : ¬ Resolvable s e → t = [] → Ended s e t
  | gaveUp (pre : Calls) (o : Op) (a : o.Ans) : Resolvable s e → t = pre ++ [o.gave a] →
      o.Failed a → (∀ x ∈ pre, ¬ e.kind.Last x.1) → Ended s e t
  | done : Resolvable s e → (∀ x ∈ t, ¬ x.1.Failed x.2) → Effective s e (· ∈ t) →
      Ended s e t

/-- A call that went well, and that was not the last one. -/
def Passed (kind : EventKind) (x : Prog.Step gateway) : Prop := ¬ x.1.Failed x.2 ∧ ¬ kind.Last x.1

section
variable {s : WebhookService} {e : StripeEvent}

theorem not_resolvable_of_error {err : Err} (herr : s.decodeStripeObject e = .error err) :
    ¬ Resolvable s e := by
  rintro ⟨o, ho, -⟩
  cases herr.symm.trans ho

theorem resolvable_iff {o : StripeObject} (ho : s.decodeStripeObject e = .ok o) :
    Resolvable s e ↔
      (o.orderID ≠ [] ∧ o.merchantID ≠ []) ∨ (e.kind = .refunded ∧ o.refundPiID ≠ []) := by
  constructor
  · rintro ⟨o', ho', h⟩
    cases ho.symm.trans ho'
    exact h
  · intro h
    exact ⟨o, ho, h⟩

/-- An event that names no order, and is not one of a refund. -/
theorem not_resolvable_of_ids {o : StripeObject} (ho : s.decodeStripeObject e = .ok o)
    (hids : o.orderID = [] ∨ o.merchantID = []) (hk : e.kind ≠ .refunded) : ¬ Resolvable s e := by
  rw [resolvable_iff ho]
  rintro (⟨hord, hm⟩ | ⟨hk', -⟩)
  · exact hids.elim hord hm
  · exact hk hk'

theorem Names.imp {made made' : Prog.Step gateway → Prop} {m o : Str} (h : Names s e made m o)
    (himp : ∀ x, (∀ key value ttl, x.1 ≠ .setNX key value ttl) → made x → made' x) :
    Names s e made' m o := by
  obtain ⟨obj, ho, hids | ⟨hk, tx, hmade, hids⟩⟩ := h
  · exact ⟨obj, ho, .inl hids⟩
  · exact ⟨obj, ho, .inr ⟨hk, tx, himp _ (by rintro _ _ _ ⟨⟩) hmade, hids⟩⟩

/-- A claim of a key is no part of the effect of an event. -/
theorem Effective.imp {made made' : Prog.Step gateway → Prop} (h : Effective s e made)
    (himp : ∀ x, (∀ key value ttl, x.1 ≠ .setNX key value ttl) → made x → made' x) :
    Effective s e made' := by
  obtain ⟨i, m, o, st, pi, hst, hnames, hwrite, hann⟩ := h
  refine ⟨i, m, o, st, pi, hst, hnames.imp himp, himp _ (by rintro _ _ _ ⟨⟩) hwrite, ?_⟩
  intro hne
  obtain ⟨order, now, hread, hpublish⟩ := hann hne
  exact ⟨order, now, himp _ (by rintro _ _ _ ⟨⟩) hread, himp _ (by rintro _ _ _ ⟨⟩) hpublish⟩

/-- The status was written; what is left is to announce it. -/
theorem announce_ended (hres : Resolvable s e) {st : TransactionStatus}
    (hst : e.kind.status = some st) {pre : Calls}
    (hpre : ∀ x ∈ pre, Passed e.kind x) {i : UInt8} {m o pi : Str}
    (hnames : Names s e (· ∈ pre) m o)
    (hwrite : (Op.updateStatus i m o st pi).gave (.ok ()) ∈ pre) {t : Calls} {r : Res Unit}
    (h : Prog.Runs (announce i m o st) t (.ret r)) : Ended s e (pre ++ t) := by
  rcases announce_ret h with ⟨err, rfl⟩ | ⟨order, now, a, rfl, -⟩
  · exact .gaveUp pre (.getByMerchantOrderID i m o) (.error err) hres rfl ⟨err, rfl⟩
      fun x hx => (hpre x hx).2
  have hread : Passed e.kind ((Op.getByMerchantOrderID i m o).gave (.ok order)) := by
    refine ⟨?_, id⟩
    rintro ⟨err, hr⟩
    cases hr
  have hclock : Passed e.kind (Op.timeNow.gave now) := ⟨id, id⟩
  have hpre' : ∀ x ∈ pre ++ [(Op.getByMerchantOrderID i m o).gave (.ok order),
      Op.timeNow.gave now], Passed e.kind x := by
    intro x hx
    simp only [List.mem_append, List.mem_cons, List.not_mem_nil, or_false] at hx
    rcases hx with hx | rfl | rfl
    · exact hpre x hx
    · exact hread
    · exact hclock
  have hcalls : pre ++ [(Op.getByMerchantOrderID i m o).gave (.ok order), Op.timeNow.gave now,
      (Op.publishPaymentConfirmed (confirmedEvent order st now)).gave a] =
      (pre ++ [(Op.getByMerchantOrderID i m o).gave (.ok order), Op.timeNow.gave now]) ++
        [(Op.publishPaymentConfirmed (confirmedEvent order st now)).gave a] := by
    rw [List.append_assoc]
    rfl
  rw [hcalls]
  cases a with
  | error err =>
    exact .gaveUp _ (.publishPaymentConfirmed _) (.error err) hres rfl ⟨err, rfl⟩
      fun x hx => (hpre' x hx).2
  | ok u =>
    refine .done hres ?_ ⟨i, m, o, st, pi, hst, hnames.imp fun x _ hx => ?_, ?_,
      fun _ => ⟨order, now, ?_, ?_⟩⟩
    · intro x hx
      rcases List.mem_append.mp hx with hx | hx
      · exact (hpre' x hx).1
      · rw [List.mem_singleton.mp hx]
        rintro ⟨err, hr⟩
        cases hr
    · exact List.mem_append_left _ (List.mem_append_left _ hx)
    · exact List.mem_append_left _ (List.mem_append_left _ hwrite)
    · exact List.mem_append_left _ (List.mem_append_right _ List.mem_cons_self)
    · exact List.mem_append_right _ (List.mem_singleton.mpr rfl)

/-- Writing the status and announcing it, as the success and the refund handler end. -/
theorem write_ended (hres : Resolvable s e) {st : TransactionStatus}
    (hst : e.kind.status = some st) (hne : e.kind ≠ .failed) {pre : Calls}
    (hpre : ∀ x ∈ pre, Passed e.kind x) {i : UInt8} {m o pi : Str}
    (hnames : Names s e (· ∈ pre) m o) {t : Calls} {r : Res Unit} {f : Res Unit → Svc (Res Unit)}
    (h : Prog.Runs (Svc.ask (.updateStatus i m o st pi) >>= f) t (.ret r))
    (herr : ∀ err, ∃ r', f (.error err) = .ret r') (hok : f (.ok ()) = announce i m o st) :
    Ended s e (pre ++ t) := by
  rcases Svc.runs_ask.mp h with ⟨rfl, hq⟩ | ⟨u, t', rfl, h2⟩
  · cases hq
  cases u with
  | error err =>
    obtain ⟨r', hr'⟩ := herr err
    rw [hr'] at h2
    cases h2
    exact .gaveUp pre (.updateStatus i m o st pi) (.error err) hres rfl ⟨err, rfl⟩
      fun x hx => (hpre x hx).2
  | ok u =>
    have hcalls : pre ++ (Op.updateStatus i m o st pi).gave (.ok u) :: t' =
        (pre ++ [(Op.updateStatus i m o st pi).gave (.ok u)]) ++ t' := by
      rw [List.append_assoc]
      rfl
    have hwrite : (Op.updateStatus i m o st pi).gave (.ok u) ∈
        pre ++ [(Op.updateStatus i m o st pi).gave (.ok u)] :=
      List.mem_append_right _ (List.mem_singleton.mpr rfl)
    rw [hcalls]
    refine announce_ended hres hst ?_ (hnames.imp fun x _ => List.mem_append_left _) hwrite
      (hok ▸ h2)
    intro x hx
    rcases List.mem_append.mp hx with hx | hx
    · exact hpre x hx
    · rw [List.mem_singleton.mp hx]
      refine ⟨?_, hne⟩
      rintro ⟨err, hr⟩
      cases hr

/-- Finding the shard of the merchant, before anything else that is left. -/
theorem shard_ended (hres : Resolvable s e) {pre : Calls} (hpre : ∀ x ∈ pre, Passed e.kind x)
    {m : Str} {t : Calls} {r : Res Unit} {f : Res UInt8 → Svc (Res Unit)}
    (h : Prog.Runs (resolveShard m >>= f) t (.ret r))
    (herr : ∀ err, ∃ r', f (.error err) = .ret r')
    (hrest : ∀ i pre' t', (∀ x ∈ pre', Passed e.kind x) → Prog.Runs (f (.ok i)) t' (.ret r) →
      Ended s e (pre' ++ t')) : Ended s e (pre ++ t) := by
  rcases Prog.runs_bind h with ⟨o', k', -, hq⟩ | ⟨t₁, b, t₂, rfl, hb, h2⟩
  · cases hq
  rcases resolveShard_ret hb with ⟨M, rfl, rfl⟩ | ⟨err, err', rfl, rfl⟩
  · rw [← List.append_assoc]
    refine hrest M.shardIndex _ t₂ ?_ h2
    intro x hx
    rcases List.mem_append.mp hx with hx | hx
    · exact hpre x hx
    · rw [List.mem_singleton.mp hx]
      refine ⟨?_, id⟩
      rintro ⟨err, hr⟩
      cases hr
  · obtain ⟨r', hr'⟩ := herr err'
    rw [hr'] at h2
    cases h2
    exact .gaveUp pre (.getByMerchantID m) (.error err) hres (by simp) ⟨err, rfl⟩
      fun x hx => (hpre x hx).2

theorem handleSucceeded_ended (hk : e.kind = .succeeded) {t : Calls} {r : Res Unit}
    (h : Prog.Runs (s.handleSucceeded e) t (.ret r)) : Ended s e t := by
  unfold WebhookService.handleSucceeded at h
  split at h
  · next err herr =>
    cases h
    exact .unresolved (not_resolvable_of_error herr) rfl
  next o ho =>
  split at h
  · next hids =>
    cases h
    exact .unresolved (not_resolvable_of_ids ho hids (by rw [hk]; decide)) rfl
  next hids =>
  have hres : Resolvable s e := ⟨o, ho, .inl (not_or.mp hids)⟩
  rcases Prog.runs_bind h with ⟨o', k', -, hq⟩ | ⟨t₁, a, t₂, rfl, hc, h2⟩
  · cases hq
  rcases WebhookService.crossCheck_ret hc with ⟨rfl, hcc⟩ | ⟨err, a', rfl, rfl, hbad⟩
  · have hpre : ∀ x ∈ t₁, Passed e.kind x := by
      intro x hx
      rcases hcc with ⟨-, rfl⟩ | ⟨-, pi, rfl, hst⟩
      · cases hx
      · rw [List.mem_singleton.mp hx]
        exact ⟨fun hbad => hbad pi rfl hst, id⟩
    refine shard_ended hres hpre h2 (fun err => ⟨_, rfl⟩) fun i pre' t' hpre' h3 => ?_
    exact write_ended hres (by rw [hk]; rfl) (by rw [hk]; decide) hpre'
      ⟨o, ho, .inl ⟨rfl, rfl⟩⟩ h3 (fun err => ⟨_, rfl⟩) rfl
  · cases h2
    exact .gaveUp [] (.getPaymentIntent o.piID) a' hres rfl hbad fun x hx => by cases hx

theorem handleFailed_ended (hk : e.kind = .failed) {t : Calls} {r : Res Unit}
    (h : Prog.Runs (s.handleFailed e) t (.ret r)) : Ended s e t := by
  unfold WebhookService.handleFailed at h
  split at h
  · next err herr =>
    cases h
    exact .unresolved (not_resolvable_of_error herr) rfl
  next o ho =>
  split at h
  · next hids =>
    cases h
    exact .unresolved (not_resolvable_of_ids ho hids (by rw [hk]; decide)) rfl
  next hids =>
  have hres : Resolvable s e := ⟨o, ho, .inl (not_or.mp hids)⟩
  rw [← List.nil_append t]
  refine shard_ended hres (fun x hx => by cases hx) h (fun err => ⟨_, rfl⟩)
    fun i pre t' hpre h2 => ?_
  rcases Svc.runs_ask.mp h2 with ⟨rfl, hq⟩ | ⟨u, t', rfl, h3⟩
  · cases hq
  cases u with
  | error err =>
    cases h3
    exact .gaveUp pre (.updateStatus i o.merchantID o.orderID .failed o.piID) (.error err) hres rfl
      ⟨err, rfl⟩ fun x hx => (hpre x hx).2
  | ok u =>
    cases h3
    refine .done hres ?_ ⟨i, o.merchantID, o.orderID, .failed, o.piID, by rw [hk]; rfl,
      ⟨o, ho, .inl ⟨rfl, rfl⟩⟩, ?_, fun hne => absurd hk hne⟩
    · intro x hx
      rcases List.mem_append.mp hx with hx | hx
      · exact (hpre x hx).1
      · rw [List.mem_singleton.mp hx]
        rintro ⟨err, hr⟩
        cases hr
    · exact List.mem_append_right _ (List.mem_singleton.mpr rfl)

theorem handleRefunded_ended (hk : e.kind = .refunded) {t : Calls} {r : Res Unit}
    (h : Prog.Runs (s.handleRefunded e) t (.ret r)) : Ended s e t := by
  have hst : e.kind.status = some .refunded := by rw [hk]; rfl
  have hne : e.kind ≠ .failed := by rw [hk]; decide
  unfold WebhookService.handleRefunded at h
  split at h
  · next err herr =>
    cases h
    exact .unresolved (not_resolvable_of_error herr) rfl
  next o ho =>
  have hres := resolvable_iff ho
  rcases Prog.runs_bind h with ⟨o', k', -, hq⟩ | ⟨t₁, res, t₂, rfl, hfound, h2⟩
  · cases hq
  rcases WebhookService.refundedOrder_ret hfound with
    ⟨rfl, rfl, hpi⟩ | ⟨hpi, tx, rfl, rfl⟩ | ⟨hpi, hids, err, rfl, rfl⟩
  · simp only at h2
    split at h2
    · next hids =>
      cases h2
      refine .unresolved ?_ rfl
      rw [hres]
      rintro (⟨hord, hm⟩ | ⟨-, hpi'⟩)
      · exact hids.elim hord hm
      · exact hpi' (hpi hids)
    next hids =>
    have hres := hres.mpr (.inl (not_or.mp hids))
    refine shard_ended hres (fun x hx => by cases hx) h2 (fun err => ⟨_, rfl⟩)
      fun i pre t' hpre h3 => ?_
    exact write_ended hres hst hne hpre ⟨o, ho, .inl ⟨rfl, rfl⟩⟩ h3 (fun err => ⟨_, rfl⟩) rfl
  · have hres := hres.mpr (.inr ⟨hk, hpi⟩)
    simp only at h2
    split at h2
    · next hids =>
      cases h2
      refine .gaveUp [] (.getByPaymentIntentID o.refundPiID) (.ok tx) hres rfl ?_
        fun x hx => by cases hx
      rintro tx' ⟨⟩
      exact hids
    next hids =>
    refine write_ended hres hst hne ?_
      ⟨o, ho, .inr ⟨hk, tx, List.mem_singleton.mpr rfl, rfl, rfl⟩⟩ h2 (fun err => ⟨_, rfl⟩) rfl
    intro x hx
    rw [List.mem_singleton.mp hx]
    exact ⟨fun hbad => hids (hbad tx rfl), id⟩
  · have hres := hres.mpr (.inr ⟨hk, hpi⟩)
    simp only at h2
    rw [if_pos hids] at h2
    cases h2
    refine .gaveUp [] (.getByPaymentIntentID o.refundPiID) (.error err) hres rfl ?_
      fun x hx => by cases hx
    rintro tx ⟨⟩

/-- **How a handler ends**, in one of three ways. -/
theorem handle_ended (hst : e.kind.status ≠ none) {t : Calls} {r : Res Unit}
    (h : Prog.Runs (s.handle e) t (.ret r)) : Ended s e t := by
  unfold WebhookService.handle at h
  split at h
  · next hk => exact handleSucceeded_ended hk h
  · next hk => exact handleFailed_ended hk h
  · next hk => exact handleRefunded_ended hk h
  · next hk =>
    rw [hk] at hst
    exact absurd rfl hst
  · next hk =>
    rw [hk] at hst
    exact absurd rfl hst

theorem Ended.effective_iff {t : Calls} (h : Ended s e t) :
    Effective s e (· ∈ t) ↔ Resolvable s e ∧ ∀ x ∈ t, ¬ x.1.Failed x.2 := by
  cases h with
  | unresolved hres ht =>
    subst ht
    constructor
    · rintro ⟨_, _, _, _, _, -, -, hmem, -⟩
      cases hmem
    · rintro ⟨h, -⟩
      exact absurd h hres
  | gaveUp pre o a hres ht hbad hpre =>
    subst ht
    constructor
    · rintro ⟨i, m, oid, st, pi, -, -, hwrite, hann⟩
      exfalso
      -- the last call is neither among those before the failure, nor the failed one
      by_cases hk : e.kind = .failed
      · rcases List.mem_append.mp hwrite with hmem | hmem
        · exact hpre _ hmem hk
        · cases List.mem_singleton.mp hmem
          obtain ⟨err, hr⟩ := hbad
          cases hr
      · obtain ⟨order, now, -, hmem⟩ := hann hk
        rcases List.mem_append.mp hmem with hmem | hmem
        · exact hpre _ hmem hk
        · cases List.mem_singleton.mp hmem
          obtain ⟨err, hr⟩ := hbad
          cases hr
    · rintro ⟨-, h⟩
      exact absurd hbad (h _ (List.mem_append_right _ (List.mem_singleton.mpr rfl)))
  | done hres hgood heff => exact ⟨fun _ => ⟨hres, hgood⟩, fun _ => heff⟩

end

/-! ## Who holds the dedupe key -/

/-- Job `i` is a delivery of the event, to a service that decodes its object as `s` does. -/
def Delivery (js : List Job) (s : WebhookService) (e : StripeEvent) (i : Nat) : Prop :=
  ∃ s' payload sig, js[i]? = some (.process s' payload sig) ∧
    s'.verifyWebhookSignature payload sig s'.webhookSecret = .ok e ∧
    s'.decodeStripeObject e = s.decodeStripeObject e

/-- The event is new, its id is its own, and its dedupe key is claimed only within the life
of the key. -/
structure WithinTTL (w : World) (js : List Job) (hist : List CallEvent) (s : WebhookService)
    (e : StripeEvent) : Prop where
  fresh : AList.lookup (dedupKey e) w.redis = none
  same_event : ∀ s' payload sig e', .process s' payload sig ∈ js →
    s'.verifyWebhookSignature payload sig s'.webhookSecret = .ok e' → e'.id = e.id →
    e' = e ∧ s'.decodeStripeObject e = s.decodeStripeObject e
  one_day : ∃ t₀, ∀ ev ∈ hist, ev.op = .setNX (dedupKey e) (bytes "1") day →
    t₀ ≤ ev.choice.now ∧ ev.choice.now < t₀ + day

/-- The answer to the claim of the event's dedupe key. -/
abbrev claimed (e : StripeEvent) (b : Bool) : Prog.Step gateway :=
  (Op.setNX (dedupKey e) (bytes "1") day).gave (.ok b)

/-- Nobody has claimed the key, or exactly one job has. -/
def DedupInv (e : StripeEvent) (t₀ : Time) (S : System) : Prop :=
  (AList.lookup (dedupKey e) S.world.redis = none ∧ ∀ i b, claimed e b ∉ callsOf i S.hist) ∨
    ∃ i₀ entry, AList.lookup (dedupKey e) S.world.redis = some entry ∧
      t₀ + day ≤ entry.expiresAt ∧ claimed e true ∈ callsOf i₀ S.hist ∧
      ∀ i, claimed e true ∈ callsOf i S.hist → i = i₀

theorem dedupKey_ne_lock (e : StripeEvent) (key : Str) : dedupKey e ≠ bytes "lock:" ++ key := by
  intro h
  have hfirst : (dedupKey e).head? = (bytes "lock:" ++ key).head? := congrArg List.head? h
  exact absurd hfirst (show some _ ≠ some _ by decide)

theorem dedupKey_inj {e e' : StripeEvent} (h : dedupKey e = dedupKey e') : e.id = e'.id :=
  List.append_cancel_left h

section
variable {D : Deployment} {w : World} {js : List Job} {xs : List (Nat × Choice)}
  {s : WebhookService} {e : StripeEvent}

/-- Only a claim of it touches the dedupe key. -/
theorem lookup_dedupKey {ys : List (Nat × Choice)} {i : Nat} {c : Choice} {o : Op} {j : Job}
    (hcall : JobCall D j (callsOf i (System.run D w js ys).hist) o)
    (ho : ∀ value ttl, o ≠ .setNX (dedupKey e) value ttl) :
    AList.lookup (dedupKey e) (exec D o c (System.run D w js ys).world).2.redis =
      AList.lookup (dedupKey e) (System.run D w js ys).world.redis := by
  rcases exec_redis_cases D o c (System.run D w js ys).world with
    h | ⟨key, value, ttl, rfl, h⟩ | ⟨key, ttl, token, rfl, h⟩ | ⟨lock, rfl, h⟩
  · rw [h]
  · rw [h]
    apply Redis.lookup_setNX_ne
    rintro rfl
    exact ho value ttl rfl
  · rw [h]
    exact Redis.lookup_setNX_ne (dedupKey_ne_lock e key)
  · obtain ⟨key, ttl, hmem⟩ := hcall.release_inv
    obtain ⟨ev, -, -, -, w', hans⟩ := System.answered_of_mem D w js hmem
    rw [h]
    apply Redis.lookup_release_ne
    rw [exec_acquire_key hans.symm]
    exact dedupKey_ne_lock e key

/-- A call with another answer leaves the claims as they are. -/
theorem claimed_after {S : System} {i i' : Nat} {c : Choice} {o : Op} {k : o.Ans → Svc Outcome}
    {b : Bool} (hne : o.gave (exec D o c S.world).1 ≠ claimed e b) :
    claimed e b ∈ callsOf i' (S.after D i c o k).hist ↔ claimed e b ∈ callsOf i' S.hist := by
  rw [System.mem_callsOf_after]
  constructor
  · rintro (h | ⟨-, h⟩)
    · exact h
    · exact absurd h hne
  · exact .inl

theorem DedupInv.of_same {t₀ : Time} {S : System} (h : DedupInv e t₀ S) {i : Nat} {c : Choice}
    {o : Op} {k : o.Ans → Svc Outcome}
    (hredis : AList.lookup (dedupKey e) (exec D o c S.world).2.redis =
      AList.lookup (dedupKey e) S.world.redis)
    (hne : ∀ b, o.gave (exec D o c S.world).1 ≠ claimed e b) :
    DedupInv e t₀ (S.after D i c o k) := by
  rcases h with ⟨hnone, hno⟩ | ⟨i₀, entry, hsome, hexp, hclaim, huniq⟩
  · refine .inl ⟨hredis.trans hnone, fun i' b => ?_⟩
    rw [claimed_after (hne b)]
    exact hno i' b
  · refine .inr ⟨i₀, entry, hredis.trans hsome, hexp, (claimed_after (hne true)).mpr hclaim, ?_⟩
    intro i' hi'
    exact huniq i' ((claimed_after (hne true)).mp hi')

/-- A claim of the key within its life: granted to the first, refused to all others. -/
theorem DedupInv.claim {t₀ : Time} {S : System} (h : DedupInv e t₀ S) {i : Nat} {c : Choice}
    {k : Res Bool → Svc Outcome} (hlo : t₀ ≤ c.now) (hhi : c.now < t₀ + day) :
    DedupInv e t₀ (S.after D i c (.setNX (dedupKey e) (bytes "1") day) k) := by
  cases hf : c.fault with
  | some f =>
    have hexec : exec D (.setNX (dedupKey e) (bytes "1") day) c S.world =
        (.error (.new f.msg), S.world) := by
      simp only [exec, hf]
    refine h.of_same (by rw [hexec]) fun b hb => ?_
    rw [hexec] at hb
    cases Op.gave_inj.mp hb
  | none =>
    have hexec : exec D (.setNX (dedupKey e) (bytes "1") day) c S.world =
        (.ok (S.world.redis.setNX c.now (dedupKey e) (bytes "1") day).1,
          { S.world with
            redis := (S.world.redis.setNX c.now (dedupKey e) (bytes "1") day).2 }) := by
      simp only [exec, hf]
    rcases h with ⟨hnone, hno⟩ | ⟨i₀, entry, hsome, hexp, hclaim, huniq⟩
    · rw [Redis.setNX_of_lookup_none hnone] at hexec
      refine .inr ⟨i, ⟨bytes "1", c.now + day⟩, ?_, Int.add_le_add_right hlo day, ?_, ?_⟩
      · show AList.lookup (dedupKey e) (exec D _ c S.world).2.redis = _
        rw [hexec]
        exact AList.lookup_insert _
      · refine System.mem_callsOf_after.mpr (.inr ⟨rfl, ?_⟩)
        rw [hexec]
      · intro i' hi'
        rcases System.mem_callsOf_after.mp hi' with h | ⟨h, -⟩
        · exact absurd h (hno i' true)
        · exact h.symm
    · rw [Redis.setNX_of_live hsome (lt_of_lt_of_le hhi hexp)] at hexec
      have hne : (Op.setNX (dedupKey e) (bytes "1") day).gave
          (exec D (.setNX (dedupKey e) (bytes "1") day) c S.world).1 ≠ claimed e true := by
        rw [hexec]
        intro hb
        cases Op.gave_inj.mp hb
      refine .inr ⟨i₀, entry, ?_, hexp, (claimed_after hne).mpr hclaim, ?_⟩
      · show AList.lookup (dedupKey e) (exec D _ c S.world).2.redis = _
        rw [hexec]
        exact hsome
      · intro i' hi'
        exact huniq i' ((claimed_after hne).mp hi')

/-- **The dedupe key** is claimed by at most one job. -/
theorem dedup_invariant (hfresh : AList.lookup (dedupKey e) w.redis = none) {t₀ : Time}
    (htime : ∀ ev ∈ (System.run D w js xs).hist, ev.op = .setNX (dedupKey e) (bytes "1") day →
      t₀ ≤ ev.choice.now ∧ ev.choice.now < t₀ + day) :
    DedupInv e t₀ (System.run D w js xs) := by
  refine System.run_rule D w js
    (Q := fun S => (∀ ev ∈ S.hist, ev.op = .setNX (dedupKey e) (bytes "1") day →
      t₀ ≤ ev.choice.now ∧ ev.choice.now < t₀ + day) → DedupInv e t₀ S) ?_ ?_ xs htime
  · intro _
    refine .inl ⟨hfresh, fun i b h => ?_⟩
    cases h
  · intro ys i c o k j ih hj hcall hnow
    have hS := ih fun ev hev => hnow ev (System.mem_hist_after.mpr (.inl hev))
    have hc := hnow _ (System.mem_hist_after.mpr (.inr rfl))
    by_cases ho : ∃ value ttl, o = .setNX (dedupKey e) value ttl
    · obtain ⟨value, ttl, rfl⟩ := ho
      obtain ⟨_, _, _, _, -, -, -, rfl, rfl⟩ := hcall.setNX_inv
      obtain ⟨hlo, hhi⟩ := hc rfl
      exact hS.claim hlo hhi
    · have hne : ∀ value ttl, o ≠ .setNX (dedupKey e) value ttl :=
        fun value ttl h => ho ⟨value, ttl, h⟩
      refine hS.of_same (lookup_dedupKey hcall hne) fun b hb => ?_
      exact hne _ _ (congrArg Sigma.fst hb)

/-- What a delivery has done: nothing yet; or its claim failed, or was refused, and it has
returned; or it has the key, and its handler is at work or has ended. -/
theorem process_calls {s' : WebhookService} {payload sig : Str} {e' : StripeEvent} {i : Nat}
    (hj : js[i]? = some (.process s' payload sig))
    (he : s'.verifyWebhookSignature payload sig s'.webhookSecret = .ok e') :
    (callsOf i (System.run D w js xs).hist = [] ∧
        ∀ r, (System.run D w js xs).procs[i]? ≠ some (.ret r)) ∨
      (∃ err, callsOf i (System.run D w js xs).hist =
          [(Op.setNX (dedupKey e') (bytes "1") day).gave (.error err)] ∧
        (System.run D w js xs).procs[i]? =
          some (.ret (.processed (.error (err.wrap (bytes "dedup setnx: ")))))) ∨
      (callsOf i (System.run D w js xs).hist = [claimed e' false] ∧
        (System.run D w js xs).procs[i]? =
          some (.ret (.processed (.error (.of .webhookDuplicate))))) ∨
      ∃ t, callsOf i (System.run D w js xs).hist = claimed e' true :: t ∧
        ∀ r, (System.run D w js xs).procs[i]? = some (.ret (.processed r)) →
          Prog.Runs (s'.handle e') t (.ret r) := by
  obtain ⟨q, hq, hruns⟩ := System.run_runs D w js hj xs
  have hruns : Prog.Runs (s'.process payload sig >>= fun r => Prog.ret (Outcome.processed r))
    (callsOf i (System.run D w js xs).hist) q := hruns
  rw [WebhookService.process_verified he] at hruns
  rw [hq]
  rcases Prog.runs_bind hruns with ⟨o, k, hr, rfl⟩ | ⟨t₁, a, t₂, ht, hr, hret⟩
  · -- at a call: the claim, or one of the handler's
    rcases s'.processEvent_runs hr with ⟨ht, -⟩ | ⟨err, -, hbad⟩ | ⟨-, hbad⟩ | ⟨t, ht, -⟩
    · exact .inl ⟨ht, fun r h => by cases h⟩
    · cases hbad
    · cases hbad
    · exact .inr (.inr (.inr ⟨t, ht, fun r h => by cases h⟩))
  · obtain ⟨rfl, rfl⟩ := Prog.runs_ret.mp hret
    rw [List.append_nil] at ht
    rw [← ht] at hr
    rcases s'.processEvent_runs hr with ⟨-, hbad⟩ | ⟨err, ht, ha⟩ | ⟨ht, ha⟩ | ⟨t, ht, hrun⟩
    · cases hbad
    · cases ha
      exact .inr (.inl ⟨err, ht, rfl⟩)
    · cases ha
      exact .inr (.inr (.inl ⟨ht, rfl⟩))
    · refine .inr (.inr (.inr ⟨t, ht, fun r h => ?_⟩))
      cases h
      exact hrun

/-- A finished delivery: its claim failed, or was refused, or its handler has ended. -/
theorem delivery_calls {i : Nat} (hd : Delivery js s e i) {r : Res Unit}
    (hr : (System.run D w js xs).procs[i]? = some (.ret (.processed r))) :
    (∃ err, callsOf i (System.run D w js xs).hist =
        [(Op.setNX (dedupKey e) (bytes "1") day).gave (.error err)] ∧
      r = .error (err.wrap (bytes "dedup setnx: "))) ∨
    (callsOf i (System.run D w js xs).hist = [claimed e false] ∧
      r = .error (.of .webhookDuplicate)) ∨
    ∃ t, callsOf i (System.run D w js xs).hist = claimed e true :: t ∧
      Prog.Runs (s.handle e) t (.ret r) := by
  obtain ⟨s', payload, sig, hj, he, hs⟩ := hd
  rcases process_calls hj he with ⟨-, hnot⟩ | ⟨err, ht, hq⟩ | ⟨ht, hq⟩ | ⟨t, ht, hrun⟩
  · exact absurd hr (hnot _)
  · cases hr.symm.trans hq
    exact .inl ⟨err, ht, rfl⟩
  · cases hr.symm.trans hq
    exact .inr (.inl ⟨ht, rfl⟩)
  · have hrun := hrun r hr
    rw [WebhookService.handle_congr hs] at hrun
    exact .inr (.inr ⟨t, ht, hrun⟩)

/-- Whoever has claimed the key is a delivery of the event. -/
theorem delivery_of_claimed (h : WithinTTL w js (System.run D w js xs).hist s e) {i : Nat} {b : Bool}
    (hmem : claimed e b ∈ callsOf i (System.run D w js xs).hist) : Delivery js s e i := by
  obtain ⟨ev, hev, rfl, hstep⟩ := mem_callsOf.mp hmem
  obtain ⟨j, t, hj, hcall, -⟩ := System.job_call D w js hev
  have hop : ev.op = .setNX (dedupKey e) (bytes "1") day := congrArg Sigma.fst hstep
  rw [hop] at hcall
  obtain ⟨s', payload, sig, e', rfl, he', hkey, -, -⟩ := hcall.setNX_inv
  obtain ⟨rfl, hs⟩ := h.same_event s' payload sig e' (List.mem_of_getElem? hj) he'
    (dedupKey_inj hkey).symm
  exact ⟨s', payload, sig, hj, he', hs⟩

/-- A claim that fails is not answered with 200. -/
theorem claim_error_rejected {i : Nat} {err : Err}
    (hmem : (Op.setNX (dedupKey e) (bytes "1") day).gave (.error err) ∈
      callsOf i (System.run D w js xs).hist) :
    (webhookResponse (.error (err.wrap (bytes "dedup setnx: ")))).status ≠ 200 := by
  obtain ⟨ev, -, -, -, w', hans⟩ := System.answered_of_mem D w js hmem
  simp only [exec] at hans
  split at hans
  · cases hans
    show (400 : Nat) ≠ 200
    decide
  · cases hans

/-- The deliveries of an acknowledged event: one of them has claimed the key and its handler
has ended, the others have done nothing. -/
theorem acknowledged_calls (h : WithinTTL w js (System.run D w js xs).hist s e)
    (hdone : ∀ i, Delivery js s e i →
      ∃ r, (System.run D w js xs).procs[i]? = some (.ret (.processed r)))
    (hack : ∃ i r, Delivery js s e i ∧
      (System.run D w js xs).procs[i]? = some (.ret (.processed r)) ∧
      (webhookResponse r).status = 200) :
    ∃ i₀ t r, Delivery js s e i₀ ∧ (∀ x ∈ t, x ∈ callsOf i₀ (System.run D w js xs).hist) ∧
      Prog.Runs (s.handle e) t (.ret r) ∧
      ∀ i, Delivery js s e i → ∀ x ∈ callsOf i (System.run D w js xs).hist,
        (∃ a, x = (Op.setNX (dedupKey e) (bytes "1") day).gave a) ∨ x ∈ t := by
  obtain ⟨t₀, htime⟩ := h.one_day
  have hinv : DedupInv e t₀ (System.run D w js xs) := dedup_invariant h.fresh htime
  have hclaimed : ∃ i₀, claimed e true ∈ callsOf i₀ (System.run D w js xs).hist ∧
      ∀ i, claimed e true ∈ callsOf i (System.run D w js xs).hist → i = i₀ := by
    obtain ⟨i, r, hd, hr, h200⟩ := hack
    rcases hinv with ⟨-, hno⟩ | ⟨i₀, -, -, -, hclaim, huniq⟩
    · rcases delivery_calls hd hr with ⟨err, hcalls, rfl⟩ | ⟨hcalls, -⟩ | ⟨t, hcalls, -⟩
      · exact absurd h200 (claim_error_rejected (hcalls ▸ List.mem_singleton.mpr rfl))
      · exact absurd (hcalls ▸ List.mem_singleton.mpr rfl) (hno i false)
      · exact absurd (hcalls ▸ List.mem_cons_self) (hno i true)
    · exact ⟨i₀, hclaim, huniq⟩
  obtain ⟨i₀, hclaim, huniq⟩ := hclaimed
  have hd₀ := delivery_of_claimed h hclaim
  obtain ⟨r₀, hr₀⟩ := hdone i₀ hd₀
  rcases delivery_calls hd₀ hr₀ with ⟨err, hcalls, -⟩ | ⟨hcalls, -⟩ | ⟨t, hcalls, hrun⟩
  · rw [hcalls, List.mem_singleton, Op.gave_inj] at hclaim
    cases hclaim
  · rw [hcalls, List.mem_singleton, Op.gave_inj] at hclaim
    cases hclaim
  refine ⟨i₀, t, r₀, hd₀, fun x hx => hcalls ▸ List.mem_cons_of_mem _ hx, hrun, ?_⟩
  intro i hd x hx
  obtain ⟨r, hr⟩ := hdone i hd
  rcases delivery_calls hd hr with ⟨err, hcalls', -⟩ | ⟨hcalls', -⟩ | ⟨t', hcalls', -⟩
  · rw [hcalls', List.mem_singleton] at hx
    exact .inl ⟨_, hx⟩
  · rw [hcalls', List.mem_singleton] at hx
    exact .inl ⟨_, hx⟩
  · obtain rfl := huniq i (hcalls' ▸ List.mem_cons_self)
    rw [hcalls] at hx
    rcases List.mem_cons.mp hx with rfl | hx
    · exact .inl ⟨_, rfl⟩
    · exact .inr hx

/-- **Acknowledged events.**  An event that was answered with 200 and is no longer being
processed has taken effect if and only if its order can be resolved and no call of its deliveries
has failed. -/
theorem acknowledged_iff (h : WithinTTL w js (System.run D w js xs).hist s e)
    (hkind : e.kind.status ≠ none)
    (hdone : ∀ i, Delivery js s e i →
      ∃ r, (System.run D w js xs).procs[i]? = some (.ret (.processed r)))
    (hack : ∃ i r, Delivery js s e i ∧
      (System.run D w js xs).procs[i]? = some (.ret (.processed r)) ∧
      (webhookResponse r).status = 200) :
    Effective s e (fun x => ∃ i, Delivery js s e i ∧
        x ∈ callsOf i (System.run D w js xs).hist) ↔
      Resolvable s e ∧ ∀ i, Delivery js s e i → ∀ x ∈ callsOf i (System.run D w js xs).hist,
        ¬ x.1.Failed x.2 := by
  obtain ⟨i₀, t, r, hd₀, hsub, hrun, hothers⟩ := acknowledged_calls h hdone hack
  have heff : Effective s e (fun x => ∃ i, Delivery js s e i ∧
      x ∈ callsOf i (System.run D w js xs).hist) ↔ Effective s e (· ∈ t) := by
    constructor
    · intro heff
      refine heff.imp ?_
      rintro x hx ⟨i, hd, hmem⟩
      rcases hothers i hd x hmem with ⟨a, rfl⟩ | ht
      · exact absurd rfl (hx _ _ _)
      · exact ht
    · intro heff
      exact heff.imp fun x _ hx => ⟨i₀, hd₀, hsub x hx⟩
  rw [heff, (handle_ended hkind hrun).effective_iff]
  constructor
  · rintro ⟨hres, hgood⟩
    refine ⟨hres, fun i hd x hx => ?_⟩
    rcases hothers i hd x hx with ⟨a, rfl⟩ | ht
    · exact id
    · exact hgood x ht
  · rintro ⟨hres, hgood⟩
    exact ⟨hres, fun x hx => hgood i₀ hd₀ x (hsub x hx)⟩

end

/-! ## Two deliveries of one event -/

def succeededService : WebhookService := .live succeededEvent intentObject

def twoDeliveries : List Job :=
  [.deliver succeededEvent intentObject, .deliver succeededEvent intentObject]

theorem delivery_twoDeliveries {i : Nat} (h : Delivery twoDeliveries succeededService
    succeededEvent i) : i = 0 ∨ i = 1 := by
  obtain ⟨s, payload, sig, hj, -⟩ := h
  have hlt : i < twoDeliveries.length := (List.getElem?_eq_some_iff.mp hj).1
  simp only [twoDeliveries, List.length_cons, List.length_nil] at hlt
  omega

theorem withinTTL_twoDeliveries {hist : List CallEvent}
    (hnow : ∀ ev ∈ hist, 0 ≤ ev.choice.now ∧ ev.choice.now < 0 + day) :
    WithinTTL World.oneOrder twoDeliveries hist succeededService succeededEvent := by
  refine ⟨rfl, ?_, 0, fun ev hev _ => hnow ev hev⟩
  intro s' payload sig e' hmem he' _
  simp only [twoDeliveries, Job.deliver, List.mem_cons, List.not_mem_nil, or_false, or_self,
    Job.process.injEq] at hmem
  obtain ⟨rfl, rfl, rfl⟩ := hmem
  cases (WebhookService.verify_live _ _).symm.trans he'
  exact ⟨rfl, rfl⟩

/-- A run of the two deliveries, one call after another. -/
def deliveriesRun (xs : List (Nat × Choice)) : System :=
  System.run (Deployment.sample .binary) World.oneOrder twoDeliveries xs

theorem deliveriesRun_eq (xs : List (Nat × Choice)) :
    deliveriesRun xs = System.run (Deployment.sample .binary) World.oneOrder
      [.process (.decoded succeededEvent intentObject) [] [],
       .process (.decoded succeededEvent intentObject) [] []] xs := by
  refine System.run_congr ?_ xs
  simp only [twoDeliveries, List.map_cons, List.map_nil, Job.prog_deliver]

theorem withinTTL_deliveriesRun {xs : List (Nat × Choice)}
    (hxs : ∀ x ∈ xs, 0 ≤ x.2.now ∧ x.2.now < 0 + day) :
    WithinTTL World.oneOrder twoDeliveries (deliveriesRun xs).hist succeededService
      succeededEvent :=
  withinTTL_twoDeliveries fun _ hev => hxs _ (System.mem_schedule _ _ _ hev)

/-- The first delivery claims the key and fails to reach Stripe, the second is a duplicate. -/
def lostDelivery : List (Nat × Choice) :=
  steps 0 1 ++ [(0, { fault := some .badConnection })] ++ steps 1 1

/-- The event was acknowledged and is lost. -/
theorem acknowledged_lost :
    WithinTTL World.oneOrder twoDeliveries (deliveriesRun lostDelivery).hist succeededService
        succeededEvent ∧
      succeededEvent.kind = .succeeded ∧
      (∃ r₀ r₁, (deliveriesRun lostDelivery).procs[0]? = some (.ret (.processed r₀)) ∧
        (deliveriesRun lostDelivery).procs[1]? = some (.ret (.processed r₁)) ∧
        (webhookResponse r₀).status = 400 ∧ (webhookResponse r₁).status = 200) ∧
      ((deliveriesRun lostDelivery).world.pools 0).map Row.status = [statusPending] ∧
      (deliveriesRun lostDelivery).world.published = [] ∧
      ¬ Effective succeededService succeededEvent (fun x => ∃ i,
        Delivery twoDeliveries succeededService succeededEvent i ∧
          x ∈ callsOf i (deliveriesRun lostDelivery).hist) := by
  refine ⟨withinTTL_deliveriesRun (by decide), by decide, ?_⟩
  rw [deliveriesRun_eq]
  refine ⟨⟨_, _, rfl, rfl, by decide, by decide⟩, by decide, by decide, ?_⟩
  rintro ⟨i, m, o, st, pi, -, -, ⟨i', -, hmem⟩, -⟩
  obtain ⟨ev, hev, -, hstep⟩ := mem_callsOf.mp hmem
  have hop : Op.updateStatus i m o st pi ∈
      [.setNX (bytes "webhook:evt_1") (bytes "1") day, .getPaymentIntent (bytes "pi_1"),
       .setNX (bytes "webhook:evt_1") (bytes "1") day] := by
    have hop : ev.op = .updateStatus i m o st pi := congrArg Sigma.fst hstep
    rw [← hop]
    exact List.mem_map_of_mem (f := fun ev : CallEvent => ev.op) hev
  simp at hop

/-- The first delivery goes through, the second is a duplicate. -/
def goodDelivery : List (Nat × Choice) :=
  steps 0 1 ++ [(0, { intent := ⟨bytes "pi_1", bytes "succeeded"⟩ })] ++ steps 0 5 ++ steps 1 1

theorem goodDelivery_calls : ∃ order ev, callsOf 0 (deliveriesRun goodDelivery).hist =
    [claimed succeededEvent true,
     (Op.getPaymentIntent (bytes "pi_1")).gave (.ok ⟨bytes "pi_1", bytes "succeeded"⟩),
     (Op.getByMerchantID (bytes "m1")).gave (.ok (.named (bytes "m1"))),
     (Op.updateStatus 0 (bytes "m1") (bytes "o-1") .paid (bytes "pi_1")).gave (.ok ()),
     (Op.getByMerchantOrderID 0 (bytes "m1") (bytes "o-1")).gave (.ok order),
     Op.timeNow.gave 1, (Op.publishPaymentConfirmed ev).gave (.ok ())] := by
  rw [deliveriesRun_eq]
  exact ⟨_, _, rfl⟩

theorem acknowledged_effective :
    ((deliveriesRun goodDelivery).world.pools 0).map Row.status = [statusPaid] ∧
      (deliveriesRun goodDelivery).world.published.length = 1 ∧
      Effective succeededService succeededEvent (fun x => ∃ i,
        Delivery twoDeliveries succeededService succeededEvent i ∧
          x ∈ callsOf i (deliveriesRun goodDelivery).hist) := by
  have hd : Delivery twoDeliveries succeededService succeededEvent 0 :=
    ⟨_, _, _, rfl, WebhookService.verify_live _ _, rfl⟩
  have hret : ∀ i, i = 0 ∨ i = 1 → ∃ r,
      (deliveriesRun goodDelivery).procs[i]? = some (.ret (.processed r)) ∧
        (webhookResponse r).status = 200 := by
    rw [deliveriesRun_eq]
    rintro i (rfl | rfl)
    · exact ⟨_, rfl, rfl⟩
    · exact ⟨_, rfl, rfl⟩
  obtain ⟨r, hr, hok⟩ := hret 0 (.inl rfl)
  refine ⟨?_, ?_, (acknowledged_iff (withinTTL_deliveriesRun (by decide)) (by decide) ?_
    ⟨0, r, hd, hr, hok⟩).mpr ⟨?_, ?_⟩⟩
  · rw [deliveriesRun_eq]
    decide
  · rw [deliveriesRun_eq]
    decide
  · intro i hi
    obtain ⟨r, hr, -⟩ := hret i (delivery_twoDeliveries hi)
    exact ⟨r, hr⟩
  · exact ⟨_, WebhookService.decodeStripeObject_live _ _, .inl ⟨by decide, by decide⟩⟩
  · intro i hi x hx
    have hx : x ∈ callsOf i (deliveriesRun goodDelivery).hist := hx
    rcases delivery_twoDeliveries hi with rfl | rfl
    · obtain ⟨order, ev, hcalls⟩ := goodDelivery_calls
      rw [hcalls] at hx
      simp only [List.mem_cons, List.not_mem_nil, or_false] at hx
      rcases hx with rfl | rfl | rfl | rfl | rfl | rfl | rfl <;> simp [Op.Failed, Op.gave]
    · rw [deliveriesRun_eq] at hx
      cases List.mem_singleton.mp hx
      exact id

end EasyPay
