import EasyPay.Api.Mediation
import EasyPay.Service.MerchantService

/-!
# The keys of a new merchant

What `POST /admin/merchants` replies is enough to sign requests with.

* `create_stores`: the result of an onboarding is the row that was stored.
* `KeysApart`: no two merchants share an API key, by the comparison of the database.
* `onboarded_can_sign`: a request signed with the keys of the reply gets past `HMACAuth`, as the merchant.
-/

namespace EasyPay

open GoStrings Ports Tables

/-- The row of a merchant as the reply shows it. -/
def Merchant.shown (M : Merchant) : CreateMerchantResult :=
  ⟨M.merchantID, M.name, M.apiKey, M.secretKey, M.callbackURL, M.rateLimit, M.shardIndex⟩

/-! ## The row of an onboarding -/

namespace MerchantService

/-- The row of a merchant was stored, active and with a key that was drawn. -/
structure StoredRow (t : Calls) (M : Merchant) : Prop where
  stored : (Op.insertMerchant M).gave (.ok ()) ∈ t
  active : M.status = .active
  drawn : ∃ b, (Op.randRead 32).gave (.ok b) ∈ t ∧ M.apiKey = hexEncode b

/-- The result is a row that was stored. -/
def Stored (t : Calls) (r : Res CreateMerchantResult) : Prop :=
  ∀ res, r = .ok res → ∃ M : Merchant, StoredRow t M ∧ M.shown = res

variable (r : MerchantRepo)

theorem store_stores (mID name : Str) (inp : CreateMerchantInput) (b secretKey : Str) {t : Calls}
    (hdrawn : (Op.randRead 32).gave (.ok b) ∈ t) :
    Prog.Meets (P := gateway) (fun _ _ => True) Stored (store r mID name inp (hexEncode b) secretKey)
      t := by
  unfold store
  refine Prog.meets_bind (R := fun t' res => ∀ M : Merchant, res = .ok M → StoredRow t' M) ?_
    fun t' res hres => ?_
  · unfold MerchantRepo.insert
    refine Svc.meets_ask trivial fun a => ?_
    cases a with
    | error e => rintro M ⟨⟩
    | ok counts =>
      refine Svc.meets_ask trivial fun u => ?_
      cases u with
      | error e => rintro M ⟨⟩
      | ok u =>
        rintro M ⟨⟩
        exact ⟨List.mem_concat_self, rfl, b,
          List.mem_append_left _ (List.mem_append_left _ hdrawn), rfl⟩
  · cases res with
    | error e => rintro x ⟨⟩
    | ok M =>
      rintro x ⟨⟩
      exact ⟨M, hres M rfl, rfl⟩

theorem create_stores (inp : CreateMerchantInput) (t : Calls) :
    Prog.Meets (P := gateway) (fun _ _ => True) Stored (create r inp) t := by
  unfold create
  simp only
  split
  · rintro x ⟨⟩
  split
  · rintro x ⟨⟩
  unfold randomHex
  refine Svc.meets_ask trivial fun a => ?_
  cases a with
  | error e => rintro x ⟨⟩
  | ok a =>
    refine Svc.meets_ask trivial fun b => ?_
    cases b with
    | error e => rintro x ⟨⟩
    | ok b => exact store_stores r _ _ inp a _ (List.mem_append_left _ List.mem_concat_self)

end MerchantService

section
variable {D : Deployment} {S : Server}

/-- A reply with the keys of a merchant comes from an onboarding that went well. -/
theorem serve_stores {req : Request} {p : Web Reply} (h : S.serve D req = some p)
    (hroute : S.endpoint req = some .createMerchant) {t : List (Prog.Step web)} {reply : Reply}
    (hruns : Prog.Runs p t (.ret reply)) {res : CreateMerchantResult}
    (hbody : reply.body = .merchant res) :
    ∃ t' M, t = t'.map Prog.Step.inl ∧ MerchantService.StoredRow t' M ∧ M.shown = res := by
  unfold Server.serve at h
  rw [hroute] at h
  simp only [Option.bind_some, Server.respond] at h
  split at h
  · cases h
  split at h
  next denied hdenied =>
    cases h
    obtain ⟨rfl, heq⟩ := Prog.runs_ret.mp hruns
    cases heq
    unfold adminAuth at hdenied
    split at hdenied
    · cases hdenied
      cases hbody
    split at hdenied
    · cases hdenied
      cases hbody
    · cases hdenied
  cases h
  obtain ⟨t', q, rfl, hq, hruns⟩ := Prog.runs_inl hruns
  cases q with
  | call o k => cases hq
  | ret reply' =>
    cases hq
    have hmeets : Prog.Meets (P := gateway) (fun _ _ => True) (fun t reply => ∀ res,
        reply.body = .merchant res → ∃ M, MerchantService.StoredRow t M ∧ M.shown = res)
        (S.createMerchant req.body) [] := by
      unfold Server.createMerchant
      split
      · intro res hres
        cases hres
      next inp _ =>
      refine Prog.meets_bind (MerchantService.create_stores S.merchants inp []) fun t r hr => ?_
      intro res hres
      cases r with
      | ok res' =>
        cases hres
        exact hr _ rfl
      | error e =>
        unfold Server.merchantReply at hres
        simp only at hres
        split at hres
        · cases hres
        · cases hres
    obtain ⟨M, hrow, hshown⟩ := hmeets.ret hruns res hbody
    exact ⟨t', M, rfl, hrow, hshown⟩

/-! ## The merchants in a run -/

/-- No two merchants share an API key. -/
def KeysApart (C : Collation) (ms : List Merchant) : Prop :=
  ms.Pairwise fun x y => C.eq x.apiKey y.apiKey = false

theorem KeysApart.query {C : Collation} {ms : List Merchant} (h : KeysApart C ms) {M : Merchant}
    (hM : M ∈ ms) : MerchantLookup.query C none (.byAPIKey M.apiKey) ms = .ok M := by
  have hfind : ms.find? ((MerchantLookup.byAPIKey M.apiKey).selects C) = some M := by
    induction ms with
    | nil => cases hM
    | cons x ms ih =>
      obtain ⟨hx, hms⟩ := List.pairwise_cons.mp h
      rcases List.mem_cons.mp hM with rfl | hM
      · exact List.find?_cons_of_pos (C.refl _)
      · rw [List.find?_cons_of_neg]
        · exact ih hms hM
        · exact Bool.not_eq_true _ ▸ hx M hM
  unfold MerchantLookup.query
  simp only
  rw [hfind]

/-- The merchants that were stored are there, with keys of their own. -/
structure Onboards (C : Collation) (T : Serving) : Prop where
  apart : KeysApart C T.world.world.merchants
  stored : ∀ i M, Web.gave (.insertMerchant M) (.ok ()) ∈ callsOf i T.hist →
    M ∈ T.world.world.merchants

theorem insertMerchant_apart {C : Collation} {ms : List Merchant} (h : KeysApart C ms)
    (fault : Option Fault) (M : Merchant) : KeysApart C (insertMerchant C fault M ms).2 := by
  unfold insertMerchant
  split
  · exact h
  · split
    · exact h
    next hnew =>
    refine List.pairwise_append.mpr ⟨h, List.pairwise_singleton _ _, ?_⟩
    intro x hx y hy
    cases List.mem_singleton.mp hy
    rw [List.any_eq_true] at hnew
    by_contra hsame
    exact hnew ⟨x, hx, by rw [Bool.eq_true_of_not_eq_false hsame, Bool.or_true]⟩

theorem webExec_apart {w : WebWorld} (h : KeysApart D.collation w.world.merchants) (o : web.Op)
    (c : Choice) : KeysApart D.collation (webExec D o c w).2.world.merchants := by
  match o with
  | .inr (.getByAPIKey _) => exact h
  | .inr (.rateAllow _ _) => exact h
  | .inl o =>
    by_cases ho : ∃ M, o = .insertMerchant M
    · obtain ⟨M, rfl⟩ := ho
      exact insertMerchant_apart h c.fault M
    · show KeysApart D.collation (exec D o c w.world).2.merchants
      rw [exec_merchants D fun M hM => ho ⟨M, hM⟩]
      exact h

theorem mem_of_insertMerchant {C : Collation} {fault : Option Fault} {M : Merchant} {ms : List Merchant}
    (h : (insertMerchant C fault M ms).1 = .ok ()) : M ∈ (insertMerchant C fault M ms).2 := by
  unfold insertMerchant at h ⊢
  cases fault with
  | some f => cases h
  | none =>
    simp only at h ⊢
    split at h
    · cases h
    next hnew =>
    rw [if_neg hnew]
    exact List.mem_append_right _ (List.mem_singleton.mpr rfl)

/-- **A run of the server** keeps what it has stored. -/
theorem onboards_run {w : WebWorld} (hkeys : KeysApart D.collation w.world.merchants)
    (ps : List (Web Reply)) (xs : List (Nat × Choice)) :
    Onboards D.collation (Serving.run D w ps xs) := by
  refine Sys.run_induction (P := web) (webExec D) (Q := Onboards D.collation) w ps ?_ ?_ xs
  · refine ⟨hkeys, fun i M h => ?_⟩
    cases h
  · intro T i c o k p hT _ _ _
    refine ⟨webExec_apart hT.apart o c, fun j M hmem => ?_⟩
    rcases mem_callsOf_concat.mp hmem with hmem | ⟨-, h⟩
    · exact webExec_merchants_subset D o c T.world (hT.stored j M hmem)
    · obtain rfl : o = .inl (.insertMerchant M) := congrArg Sigma.fst h
      have hans : (insertMerchant D.collation c.fault M T.world.world.merchants).1 = .ok () :=
        eq_of_heq (Sigma.mk.inj_iff.mp h).2
      exact mem_of_insertMerchant hans

/-- As many bytes are drawn as were asked for. -/
theorem randRead_length {w : WebWorld} {ps : List (Web Reply)} {xs : List (Nat × Choice)} {i n : Nat}
    {b : Str} (h : Web.gave (.randRead n) (.ok b) ∈ callsOf i (Serving.run D w ps xs).hist) :
    b.length = n := by
  obtain ⟨c, ys, -, hans⟩ := Sys.answered_since (webExec D) (s := Sys.start w ps) rfl h
  have hread : (exec D (.randRead n) c (Serving.run D w ps ys).world.world).1 = .ok b := hans.symm
  simp only [exec] at hread
  split at hread
  · cases hread
  · cases hread
    simp

/-! ## A signed request -/

/-- A MAC has a length, and so has its signature. -/
theorem Hmac.sign_ne_nil (D : Deployment) (secret payload : Str) :
    Hmac.sign D.hmacSHA256 secret payload ≠ [] := by
  intro h
  have hlen := congrArg List.length h
  unfold Hmac.sign at hlen
  rw [hexEncode_length, D.hmacSHA256_length] at hlen
  cases hlen

section
variable {req : Request} {ts : Int64}

/-- With the headers there, the clock is read, and the key looked up if the time is near. -/
theorem hmacAuth_keyed (hkey : req.apiKey ≠ []) (hsig : req.signature ≠ [])
    (hts : parseInt req.timestamp = some ts) :
    Prog.Meets (fun _ _ => True) (fun t a => ∃ now, Web.gave .timeNow now ∈ t ∧
      (HMACAuth.abs (unix now - ts) ≤ S.hmacSkew → ∃ b, Web.edgeGave (.getByAPIKey req.apiKey) b ∈ t ∧
        ∀ M : Merchant, b = .ok M → M.status = .active → Hmac.verify D.hmacSHA256 M.secretKey
          (signedRequest req.timestamp req.body) req.signature = true → a = .next M))
      (hmacAuth D S.hmacSkew req.auth) [] := by
  have hthere : ¬ (req.auth.apiKey = [] ∨ req.auth.timestamp = [] ∨ req.auth.signature = []) := by
    rintro (h | h | h)
    · exact hkey h
    · have hnone : parseInt [] = none := by decide
      have h : req.timestamp = [] := h
      rw [h, hnone] at hts
      cases hts
    · exact hsig h
  have hparse : parseInt req.auth.timestamp = some ts := hts
  unfold hmacAuth HMACAuth.middleware
  rw [if_neg hthere, hparse]
  refine Prog.meets_perform (P := web) trivial fun now => ?_
  simp only
  split
  next hfar =>
    exact ⟨now, List.mem_singleton.mpr rfl, fun hnear => absurd hnear (Int64.not_le.mpr hfar)⟩
  refine Prog.meets_perform (P := web) (o := .inr (.getByAPIKey req.apiKey)) trivial fun b => ?_
  refine ⟨now, List.mem_append_left _ (List.mem_singleton.mpr rfl), fun _ => ⟨b,
    List.mem_append_right _ (List.mem_singleton.mpr rfl), fun M hb hactive hverify => ?_⟩⟩
  unfold HMACAuth.authenticate
  subst hb
  have hverify : Hmac.verify D.hmacSHA256 M.secretKey
    (signedRequest req.auth.timestamp req.auth.body) req.auth.signature = true := hverify
  simp [hactive, hverify]

/-- The handlers do not ask for authentication again. -/
def NotUnauthorized (_ : Calls) (reply : Reply) : Prop := reply.status ≠ 401

theorem createPayment_authorized (M : Merchant) :
    Prog.Meets (P := gateway) (fun _ _ => True) NotUnauthorized (S.createPayment D req M) [] := by
  unfold Server.createPayment
  split
  · exact fun h => by cases h
  · refine Prog.meets_bind (Prog.meets_true _ _) fun t r _ => ?_
    show (Server.paymentReply r).status ≠ 401
    unfold Server.paymentReply
    split
    · exact fun h => by cases h
    · split
      · exact fun h => by cases h
      · split <;> exact fun h => by cases h

theorem getPayment_authorized (id : Str) (M : Merchant) :
    Prog.Meets (P := gateway) (fun _ _ => True) NotUnauthorized (S.getPayment id M) [] := by
  unfold Server.getPayment
  split
  · exact fun h => by cases h
  · refine Svc.meets_ask trivial fun a => ?_
    cases a with
    | error e =>
      simp only
      split <;> exact fun h => by cases h
    | ok order => exact fun h => by cases h

theorem refundPayment_authorized (id : Str) (M : Merchant) :
    Prog.Meets (P := gateway) (fun _ _ => True) NotUnauthorized (S.refundPayment req id M) [] := by
  unfold Server.refundPayment
  refine Prog.meets_bind (R := fun _ r => ∀ code msg, r ≠ .unauthorized code msg) ?_ fun t r hr => ?_
  · unfold RefundHandler.create
    simp only
    split
    · exact fun _ _ h => by cases h
    · refine Prog.meets_bind (Prog.meets_true _ _) fun t r _ => ?_
      cases r with
      | error e => exact fun _ _ h => by cases h
      | ok res => exact fun _ _ h => by cases h
  · cases r with
    | unauthorized code msg => exact absurd rfl (hr code msg)
    | accepted res => exact fun h => by cases h
    | badRequest code msg => exact fun h => by cases h
    | internalError code msg => exact fun h => by cases h

/-- A request that is signed for the merchant of its key is not turned away as unauthorized. -/
def Recognised (D : Deployment) (S : Server) (req : Request) (ts : Int64) (t : List (Prog.Step web))
    (reply : Reply) : Prop :=
  ∃ now, Web.gave .timeNow now ∈ t ∧ (HMACAuth.abs (unix now - ts) ≤ S.hmacSkew →
    ∃ b, Web.edgeGave (.getByAPIKey req.apiKey) b ∈ t ∧ ∀ M : Merchant, b = .ok M →
      M.status = .active → Hmac.verify D.hmacSHA256 M.secretKey
        (signedRequest req.timestamp req.body) req.signature = true → reply.status ≠ 401)

theorem merchantAPI_recognised (hkey : req.apiKey ≠ []) (hsig : req.signature ≠ [])
    (hts : parseInt req.timestamp = some ts) {handler : Merchant → Svc Reply}
    (hhandler : ∀ M, Prog.Meets (P := gateway) (fun _ _ => True) NotUnauthorized (handler M) []) :
    Prog.Meets (fun _ _ => True) (Recognised D S req ts) (S.merchantAPI D req handler) [] := by
  unfold Server.merchantAPI
  refine Prog.meets_bind (hmacAuth_keyed hkey hsig hts) fun t a ha => ?_
  obtain ⟨now, hnow, hlookup⟩ := ha
  cases a with
  | unauthorized code msg =>
    refine ⟨now, hnow, fun hnear => ?_⟩
    obtain ⟨b, hb, hnext⟩ := hlookup hnear
    refine ⟨b, hb, fun M hM hactive hverify => ?_⟩
    cases hnext M hM hactive hverify
  | next M =>
    have hrest : ∀ {t' : List (Prog.Step web)} {reply : Reply}, t ⊆ t' → reply.status ≠ 401 →
        Recognised D S req ts t' reply := by
      intro t' reply hsub hne
      refine ⟨now, hsub hnow, fun hnear => ?_⟩
      obtain ⟨b, hb, -⟩ := hlookup hnear
      exact ⟨b, hsub hb, fun _ _ _ _ => hne⟩
    refine Prog.meets_bind (rateLimit_meets trivial) fun t' r hr => ?_
    obtain ⟨rate, allowed⟩ := r
    cases allowed with
    | false => exact hrest hr.1 fun h => by cases h
    | true =>
      refine Prog.meets_bind (R := fun u (reply : Reply) => t ⊆ u ∧ reply.status ≠ 401)
        (Prog.meets_inl (fun _ _ _ _ => trivial) fun u b hu => ?_) fun u b hb => ?_
      · exact ⟨List.Subset.trans hr.1 (List.subset_append_left _ _), (hhandler M).ret hu⟩
      · exact hrest hb.1 hb.2

theorem serve_recognised (hkey : req.apiKey ≠ []) (hsig : req.signature ≠ [])
    (hts : parseInt req.timestamp = some ts) {p : Web Reply} (h : S.serve D req = some p)
    (hapi : S.forAPI req) : Prog.Meets (fun _ _ => True) (Recognised D S req ts) p [] := by
  obtain ⟨e, he, hisapi⟩ := hapi
  unfold Server.serve at h
  rw [he] at h
  cases e with
  | createPayment =>
    cases h
    exact merchantAPI_recognised hkey hsig hts createPayment_authorized
  | getPayment id =>
    cases h
    exact merchantAPI_recognised hkey hsig hts (getPayment_authorized id)
  | refundPayment id =>
    cases h
    exact merchantAPI_recognised hkey hsig hts (refundPayment_authorized id)
  | createMerchant => cases hisapi
  | stripeWebhook => cases hisapi
  | pay m ord => cases hisapi

end

/-! ## The keys work -/

/-- The merchant of the reply has a row, from then on. -/
theorem onboarded_row {w : WebWorld} {reqs : List Request} {ps : List (Web Reply)}
    (hps : List.Forall₂ (fun req p => S.serve D req = some p) reqs ps)
    (hkeys : KeysApart D.collation w.world.merchants) {xs : List (Nat × Choice)} {i : Nat}
    {req : Request} {reply : Reply} {res : CreateMerchantResult} (hreq : reqs[i]? = some req)
    (hroute : S.endpoint req = some .createMerchant)
    (honboarded : (Serving.run D w ps xs).procs[i]? = some (.ret reply))
    (hbody : reply.body = .merchant res) :
    ∃ M : Merchant, M.shown = res ∧ M.status = .active ∧ M.apiKey ≠ [] ∧
      ∀ zs, M ∈ (Serving.run D w ps (xs ++ zs)).world.world.merchants := by
  obtain ⟨p, hp, hserve⟩ := getElem?_of_forall₂ hps hreq
  obtain ⟨q, hq, hruns⟩ := Sys.run_runs (P := web) (webExec D) w ps xs hp
  cases honboarded.symm.trans hq
  obtain ⟨t', M, hcalls, hrow, hshown⟩ := serve_stores hserve hroute hruns hbody
  have hcalled : ∀ {x : Prog.Step gateway}, x ∈ t' →
      x.inl ∈ callsOf i (Serving.run D w ps xs).hist := by
    intro x hx
    have hcalls : callsOf i (Serving.run D w ps xs).hist = t'.map Prog.Step.inl := hcalls
    rw [hcalls]
    exact List.mem_map_of_mem hx
  refine ⟨M, hshown, hrow.active, ?_, fun zs => ?_⟩
  · obtain ⟨b, hb, hdrawn⟩ := hrow.drawn
    have hlen : b.length = 32 := randRead_length (hcalled hb)
    intro h
    have hnil := congrArg List.length (hdrawn.symm.trans h)
    rw [hexEncode_length, hlen] at hnil
    cases hnil
  · obtain ⟨e, he, hpid, hstep⟩ := mem_callsOf.mp (hcalled hrow.stored)
    refine (onboards_run hkeys ps (xs ++ zs)).stored i M (mem_callsOf.mpr ⟨e, ?_, hpid, hstep⟩)
    rw [show Serving.run D w ps (xs ++ zs) = Sys.run (webExec D) (Serving.run D w ps xs) zs from
      Sys.run_append (P := web) (webExec D) _ xs zs]
    exact (Sys.run_hist_prefix (webExec D) _ zs).subset he

/-- **The keys of the reply are good.**  A request for one of the merchant's routes that is signed with them,
starts after the reply and meets no failure is recognised as the merchant's. -/
theorem onboarded_can_sign {w : WebWorld} {reqs : List Request} {ps : List (Web Reply)}
    (hps : List.Forall₂ (fun req p => S.serve D req = some p) reqs ps)
    (hkeys : KeysApart D.collation w.world.merchants) {xs ys : List (Nat × Choice)} {i g : Nat}
    {req get : Request} {reply reply' : Reply} {res : CreateMerchantResult} {ts : Int64}
    (hreq : reqs[i]? = some req) (hroute : S.endpoint req = some .createMerchant)
    (honboarded : (Serving.run D w ps xs).procs[i]? = some (.ret reply))
    (hbody : reply.body = .merchant res) (hget : reqs[g]? = some get) (hapi : S.forAPI get)
    (hkey : get.apiKey = res.apiKey) (hts : parseInt get.timestamp = some ts)
    (hsigned : get.signature =
      Hmac.sign D.hmacSHA256 res.secretKey (signedRequest get.timestamp get.body))
    (hlater : callsOf g (Serving.run D w ps xs).hist = [])
    (hok : ∀ c, (g, c) ∈ ys → c.fault = none ∧ HMACAuth.abs (unix c.now - ts) ≤ S.hmacSkew)
    (hdone : (Serving.run D w ps (xs ++ ys)).procs[g]? = some (.ret reply')) :
    reply'.status ≠ 401 ∧ ∃ M : Merchant, M.shown = res ∧
      Authenticated D S get (callsOf g (Serving.run D w ps (xs ++ ys)).hist) M := by
  have hrun : ∀ zs, Serving.run D w ps (xs ++ zs) = Sys.run (webExec D) (Serving.run D w ps xs) zs :=
    Sys.run_append (P := web) (webExec D) _ xs
  obtain ⟨M, rfl, hactive, hne, hthere⟩ := onboarded_row hps hkeys hreq hroute honboarded hbody
  -- what the signed request has done, it has done since
  obtain ⟨p', hp', hserve'⟩ := getElem?_of_forall₂ hps hget
  obtain ⟨q', hq', hruns'⟩ := Sys.run_runs (P := web) (webExec D) w ps (xs ++ ys) hp'
  cases hdone.symm.trans hq'
  have hsince : ∀ {o : web.Op} {a : web.Ans o}, (⟨o, a⟩ : Prog.Step web) ∈
      callsOf g (Serving.run D w ps (xs ++ ys)).hist → ∃ c ys₁, c.fault = none ∧
        HMACAuth.abs (unix c.now - ts) ≤ S.hmacSkew ∧
        a = (webExec D o c (Serving.run D w ps (xs ++ ys₁)).world).1 := by
    intro o a hmem
    rw [hrun] at hmem
    obtain ⟨c, ys₁, hc, hans⟩ := Sys.answered_since (webExec D) hlater hmem
    refine ⟨c, ys₁, (hok c hc).1, (hok c hc).2, ?_⟩
    rw [hrun]
    exact hans
  have hkey : get.apiKey = M.apiKey := hkey
  rw [← hkey] at hne
  have hsig : get.signature ≠ [] := hsigned ▸ Hmac.sign_ne_nil D _ _
  obtain ⟨now, hnow, hlookup⟩ := (serve_recognised hne hsig hts hserve' hapi).ret hruns'
  obtain ⟨c, _, -, hnear, hclock⟩ := hsince hnow
  have hnear : HMACAuth.abs (unix now - ts) ≤ S.hmacSkew := by
    rw [show now = c.now from hclock]
    exact hnear
  obtain ⟨b, hb, hauth⟩ := hlookup hnear
  obtain ⟨c', ys₁, hfault, -, hans⟩ := hsince hb
  -- the key finds the row
  have hfound : b = .ok M := by
    have hquery := (onboards_run hkeys ps (xs ++ ys₁)).apart.query (hthere ys₁)
    have hans : b = MerchantLookup.query D.collation c'.fault (.byAPIKey get.apiKey)
        (Serving.run D w ps (xs ++ ys₁)).world.world.merchants := hans
    rw [hans, hfault, hkey, hquery]
  have hverify : Hmac.verify D.hmacSHA256 M.secretKey (signedRequest get.timestamp get.body)
      get.signature = true := by
    rw [hsigned]
    exact Hmac.verify_iff.mpr (hexDecode_hexEncode _)
  refine ⟨hauth M hfound hactive hverify, M, rfl, ?_⟩
  subst hfound
  exact ⟨hb, hactive, hverify, now, ts, hnow, hts, hnear⟩

end

/-! ## A merchant that signs a payment -/

/-- A server with an admin key. -/
def Server.withAdmin : Server :=
  { Server.sample with
    adminAPIKey := bytes "admin"
    parseMerchant := fun _ => .ok ⟨bytes "m2", bytes "shop", [], 0⟩ }

def Request.onboard : Request :=
  { Request.payment with target := bytes "/admin/merchants", adminKey := bytes "admin" }

/-- What is drawn, for both keys. -/
def drawn : Str := List.replicate 32 1

/-- A payment signed with the keys. -/
def Request.ofNew : Request :=
  { Request.payment with
    apiKey := hexEncode drawn
    signature := Hmac.sign Sha256.hmac (hexEncode drawn) (signedRequest (bytes "0") []) }

def onboardingProgs : List (Web Reply) :=
  [Web.svc (Server.withAdmin.createMerchant []),
    Server.withAdmin.merchantAPI (.sample .binary) .ofNew
      (Server.withAdmin.createPayment (.sample .binary) .ofNew)]

theorem serve_onboarding :
    List.Forall₂ (fun req p => Server.withAdmin.serve (.sample .binary) req = some p)
      [.onboard, .ofNew] onboardingProgs := by
  have honboard : Server.withAdmin.endpoint .onboard = some .createMerchant := by decide
  have hpay : Server.withAdmin.endpoint .ofNew = some .createPayment := by decide
  refine .cons ?_ (.cons ?_ .nil)
  · unfold Server.serve
    rw [honboard]
    rfl
  · unfold Server.serve
    rw [hpay]
    rfl

def onboardSteps : List (Nat × Choice) := List.replicate 4 (0, { random := drawn })

def signedSteps : List (Nat × Choice) := List.replicate 8 (1, { now := unixEpoch })

def onboardingRun (xs : List (Nat × Choice)) : Serving :=
  Serving.run (.sample .binary) .sample onboardingProgs xs

/-- The keys a request was answered with. -/
def keysOf : Web Reply → Option (Str × Str)
  | .ret reply =>
    match reply.body with
    | .merchant res => some (res.apiKey, res.secretKey)
    | _ => none
  | .call _ _ => none

theorem exists_keys {p : Web Reply} {keys : Str × Str} (h : keysOf p = some keys) :
    ∃ reply res, p = .ret reply ∧ reply.body = .merchant res ∧ (res.apiKey, res.secretKey) = keys := by
  cases p with
  | call o k => cases h
  | ret reply =>
    unfold keysOf at h
    simp only at h
    split at h
    next res hbody => exact ⟨reply, res, rfl, hbody, Option.some.inj h⟩
    · cases h

theorem onboarded_can_sign_payment :
    ∃ reply, (onboardingRun (onboardSteps ++ signedSteps)).procs[1]? = some (.ret reply) ∧
      reply.status ≠ 401 ∧ ∃ M : Merchant, M.apiKey = hexEncode drawn ∧
        Authenticated (.sample .binary) .withAdmin .ofNew
          (callsOf 1 (onboardingRun (onboardSteps ++ signedSteps)).hist) M := by
  have hkeysOf : (onboardingRun onboardSteps).procs[0]?.bind keysOf =
      some (hexEncode drawn, hexEncode drawn) := by decide +kernel
  have hanswered : ((onboardingRun (onboardSteps ++ signedSteps)).procs[1]?.bind
      Prog.result?).isSome = true := by decide +kernel
  have hlater : (callsOf 1 (onboardingRun onboardSteps).hist).length = 0 := by decide +kernel
  have hroute : Server.withAdmin.endpoint .onboard = some .createMerchant := by decide
  have hpay : Server.withAdmin.endpoint .ofNew = some .createPayment := by decide
  have hts : parseInt Request.ofNew.timestamp = some 0 := by decide
  have hnear : HMACAuth.abs (unix unixEpoch - 0) ≤ Server.withAdmin.hmacSkew := by decide
  obtain ⟨p, hp, hkeys⟩ := Option.bind_eq_some_iff.mp hkeysOf
  obtain ⟨reply, res, rfl, hbody, heq⟩ := exists_keys hkeys
  obtain ⟨hapi, hsecret⟩ := Prod.mk.inj heq
  obtain ⟨reply', hres⟩ := Option.isSome_iff_exists.mp hanswered
  have hdone := Prog.getElem?_of_result? hres
  have hok : ∀ c, (1, c) ∈ signedSteps → c.fault = none ∧
      HMACAuth.abs (unix c.now - 0) ≤ Server.withAdmin.hmacSkew := by
    intro c hc
    cases List.eq_of_mem_replicate hc
    exact ⟨rfl, hnear⟩
  have hsigned : Request.ofNew.signature = Hmac.sign (Deployment.sample .binary).hmacSHA256
      res.secretKey (signedRequest Request.ofNew.timestamp Request.ofNew.body) := by
    have hhmac : (Deployment.sample .binary).hmacSHA256 = Sha256.hmac := rfl
    have htimestamp : Request.ofNew.timestamp = bytes "0" := rfl
    have hempty : Request.ofNew.body = [] := rfl
    rw [hsecret, hhmac, htimestamp, hempty]
    unfold Request.ofNew
    rfl
  have hapart : KeysApart (Deployment.sample .binary).collation WebWorld.sample.world.merchants :=
    List.pairwise_singleton _ _
  unfold onboardingRun at *
  obtain ⟨hstatus, M, hshown, hauth⟩ := onboarded_can_sign serve_onboarding hapart
    (i := 0) (g := 1) rfl hroute hp hbody rfl ⟨_, hpay, rfl⟩ hapi.symm hts hsigned
    (List.length_eq_zero_iff.mp hlater) hok hdone
  exact ⟨reply', hdone, hstatus, M, (congrArg CreateMerchantResult.apiKey hshown).trans hapi, hauth⟩

end EasyPay
