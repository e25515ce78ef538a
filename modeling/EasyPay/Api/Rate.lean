import EasyPay.Api.Mediation

/-!
# The rate limit of a merchant

The requests of a merchant share one window at the limiter, whatever order their calls come in.

The script of the limiter computes in doubles, which around the present times in nanoseconds are 256
apart.  A call may so leave its window early, but by no more than the three roundings it takes to tell
(`cutoff_lt`): the limit holds for a minute less 384 ns.

* `allowed_window_le`: in a run of the limiter, no such window holds more calls for a key than the largest
  of their limits.
* `Metered`: in a run of the server, the windows are those of the limiter after the calls in the history.
* `rate_limited`: of the requests the limiter has answered within a minute less 384 ns, no more than the
  limit get past it.

The limiter fails open: a request it could not answer is not counted.
-/

namespace EasyPay

open GoStrings Ports Tables

namespace RateLimiter

/-- The calls for `key` in the window that ends at `t`. -/
def upTo (key : Str) (W t : Int) (c : Call) : Bool := c.key = key ∧ t - W < c.now ∧ c.now ≤ t

theorem mem_of_mem_allowed {num : Int → Int} {cs : List Call} {d : Call}
    (h : d ∈ (served num cs).allowed) : d ∈ cs := by
  induction cs using List.reverseRecOn with
  | nil => cases h
  | append_singleton cs c ih =>
    rw [served_concat] at h
    rcases Served.mem_allowed_serve h with h | rfl
    · exact List.mem_append_left _ (ih h)
    · exact List.mem_concat_self

/-- **No window holds more calls** than the largest limit they were made with.  The window is shorter
by what rounding may cut off. -/
theorem allowed_window_le {num : Int → Int} (hnum : ∀ {m n : Int}, m ≤ n → num m ≤ num n)
    {key : Str} {W lag : Int} {L : Nat} {cs : List Call} (hlag : 0 ≤ lag)
    (hcutoff : ∀ c ∈ cs, ∀ d ∈ cs, c.now - (W - lag) < d.now → cutoff num c.now W < num d.now)
    (hwindow : ∀ d ∈ cs, d.key = key → d.window = W)
    (hlimit : ∀ d ∈ cs, d.key = key → num d.limit ≤ L)
    (horder : cs.Pairwise fun d d' => d.now ≤ d'.now ∧ (d.key = d'.key → d.now ≠ d'.now)) (t : Int) :
    (served num cs).allowed.countP (upTo key (W - lag) t) ≤ L := by
  induction cs using List.reverseRecOn with
  | nil => exact Nat.zero_le _
  | append_singleton cs c ih =>
    obtain ⟨hcs, -, -⟩ := List.pairwise_append.mp horder
    have hold : (served num cs).allowed.countP (upTo key (W - lag) t) ≤ L :=
      ih (fun d hd d' hd' => hcutoff d (List.mem_append_left _ hd) d' (List.mem_append_left _ hd'))
        (fun d hd => hwindow d (List.mem_append_left _ hd))
        (fun d hd => hlimit d (List.mem_append_left _ hd)) hcs
    rw [served_concat]
    by_cases hallowed : c.Allowed num (served num cs).sets
    · have heq : ((served num cs).serve num c).allowed = (served num cs).allowed ++ [c] :=
        if_pos hallowed
      rw [heq, List.countP_append, List.countP_singleton]
      by_cases hin : upTo key (W - lag) t c = true
      · -- the window that ends with the call has all that are in this one
        obtain ⟨hkey, hlt, hle⟩ := of_decide_eq_true hin
        have hW : c.window = W := hwindow c List.mem_concat_self hkey
        have hL : num c.limit ≤ L := hlimit c List.mem_concat_self hkey
        have hroom := countP_inWindow_lt hnum
          (fun d hd h => (hwindow d (List.mem_append_left _ hd) (h.trans hkey)).trans hW.symm)
          (horder.imp And.left) (fun ds d hpre _ => fresh_of_distinct (hcs.imp And.right) hpre)
          hallowed
        have hfewer : (served num cs).allowed.countP (upTo key (W - lag) t) ≤
            (served num cs).allowed.countP (inWindow num c.key c.window c.now) := by
          refine List.countP_mono_left fun d hd hdin => ?_
          obtain ⟨hdkey, hdlt, -⟩ := of_decide_eq_true hdin
          have hmem : d ∈ cs ++ [c] := List.mem_append_left _ (mem_of_mem_allowed hd)
          rw [hW]
          refine decide_eq_true ⟨hdkey.trans hkey.symm, by omega, ?_⟩
          exact hcutoff c List.mem_concat_self d hmem (by omega)
        rw [if_pos hin]
        omega
      · rw [if_neg hin]
        exact hold
    · rw [Served.allowed_of_not hallowed]
      exact hold

/-- Three roundings, each by 128 at most, tell whether a call has left the window of a minute. -/
theorem cutoff_lt {u t : Int} (hu : 0 ≤ u ∧ u < 2 ^ 61) (ht : 0 ≤ t ∧ t < 2 ^ 61)
    (h : t - (minute - 384) < u) : cutoff Double.round t minute < Double.round u := by
  have hminute : minute = 60000000000 := by decide
  have hexact : Double.round 60000000000 = 60000000000 := Double.round_of_lt (by decide)
  obtain ⟨hulo, -⟩ := Double.round_near (n := u) (by omega)
  obtain ⟨htlo, hthi⟩ := Double.round_near (n := t) (by omega)
  obtain ⟨-, hhi⟩ := Double.round_near (n := Double.round t - 60000000000) (by omega)
  unfold cutoff
  rw [hminute] at h ⊢
  rw [hexact]
  omega

/-! A call at 1700000000 s has left the window a nanosecond before the minute is over. -/

example : Double.round 1700000000000000000 ≤ cutoff Double.round 1700000059999999999 minute := by
  decide +kernel

end RateLimiter

/-! ## The calls of the limiter in a run -/

/-- The call of the limiter that `RateLimit` makes. -/
def limiterCall (c : Choice) (key : Str) (limit : Int) : RateLimiter.Call :=
  { key := key, limit := limit, window := minute, now := unixNano c.now, fault := c.fault,
    reached := c.reached }

/-- The call of an event, if it is one of the limiter. -/
def asLimiterCall : Event web Choice → Option RateLimiter.Call
  | ⟨_, c, .inr (.rateAllow key limit), _⟩ => some (limiterCall c key limit)
  | _ => none

/-- The call of an event that the limiter has let through. -/
def asAllowedCall : Event web Choice → Option RateLimiter.Call
  | ⟨_, c, .inr (.rateAllow key limit), .ok (true, _)⟩ => some (limiterCall c key limit)
  | _ => none

theorem asAllowedCall_ok (i : Nat) (c : Choice) {key : Str} {limit n : Int} {a : Res (Bool × Int)}
    (h : a = .ok (true, n)) :
    asAllowedCall ⟨i, c, .inr (.rateAllow key limit), a⟩ = some (limiterCall c key limit) := by
  rw [h]
  rfl

theorem asAllowedCall_none (i : Nat) (c : Choice) {key : Str} {limit : Int} {a : Res (Bool × Int)}
    (h : ∀ n, a ≠ .ok (true, n)) :
    asAllowedCall ⟨i, c, .inr (.rateAllow key limit), a⟩ = none := by
  match a with
  | .ok (true, n) => exact absurd rfl (h n)
  | .ok (false, n) => rfl
  | .error e => rfl

def limiterCalls (h : List (Event web Choice)) : List RateLimiter.Call := h.filterMap asLimiterCall

theorem window_of_mem {h : List (Event web Choice)} {c : RateLimiter.Call} (hc : c ∈ limiterCalls h) :
    c.window = minute := by
  obtain ⟨⟨i, x, o, a⟩, -, he⟩ := List.mem_filterMap.mp hc
  match o with
  | .inl _ => cases he
  | .inr (.getByAPIKey _) => cases he
  | .inr (.rateAllow key limit) =>
    cases he
    rfl

/-- The windows are those of the limiter after its calls, and the limits are those of merchants. -/
structure Metered (T : Serving) : Prop where
  windows : T.world.windows = (RateLimiter.served Double.round (limiterCalls T.hist)).sets
  allowed : (RateLimiter.served Double.round (limiterCalls T.hist)).allowed =
    T.hist.filterMap asAllowedCall
  found : ∀ i apiKey M, Web.edgeGave (.getByAPIKey apiKey) (.ok M) ∈ callsOf i T.hist →
    M ∈ T.world.world.merchants
  limits : ∀ c ∈ limiterCalls T.hist, ∃ M ∈ T.world.world.merchants,
    M.merchantID = c.key ∧ limitOf M = c.limit

section
variable {D : Deployment} {S : Server}

/-- A call of the limiter in the model of the server is one of the limiter's own model. -/
theorem Metered.after_limiter {T : Serving} (hT : Metered T) {M : Merchant}
    (hM : M ∈ T.world.world.merchants) {i : Nat} {c : Choice}
    {k : web.Ans (.inr (.rateAllow M.merchantID (limitOf M))) → Web Reply} :
    Metered (T.after (webExec D) i c (.inr (.rateAllow M.merchantID (limitOf M))) k) := by
  have hcalls : limiterCalls
      (T.after (webExec D) i c (.inr (.rateAllow M.merchantID (limitOf M))) k).hist =
        limiterCalls T.hist ++ [limiterCall c M.merchantID (limitOf M)] := List.filterMap_append
  refine ⟨?_, ?_, ?_, ?_⟩
  · rw [hcalls, RateLimiter.served_concat]
    show (RateLimiter.allow Double.round (limiterCall c M.merchantID (limitOf M)) T.world.windows).2 = _
    rw [hT.windows]
    rfl
  · rw [hcalls, RateLimiter.served_concat]
    show (if (limiterCall c M.merchantID (limitOf M)).Allowed Double.round _ then _ else _) =
      (T.hist ++ [(⟨i, c, .inr (.rateAllow M.merchantID (limitOf M)),
        (RateLimiter.allow Double.round (limiterCall c M.merchantID (limitOf M)) T.world.windows).1⟩ :
          Event web Choice)]).filterMap asAllowedCall
    rw [List.filterMap_append, ← hT.allowed, List.filterMap_cons, ← hT.windows]
    by_cases hallowed : (limiterCall c M.merchantID (limitOf M)).Allowed Double.round T.world.windows
    · rw [if_pos hallowed]
      obtain ⟨n, hn⟩ := hallowed
      rw [asAllowedCall_ok i c hn]
      rfl
    · rw [if_neg hallowed, asAllowedCall_none i c fun n hn => hallowed ⟨n, hn⟩]
      exact (List.append_nil _).symm
  · intro j apiKey M' hmem
    rcases mem_callsOf_concat.mp hmem with hmem | ⟨-, h⟩
    · exact hT.found j apiKey M' hmem
    · cases congrArg Sigma.fst h
  · rw [hcalls]
    intro d hd
    rcases List.mem_append.mp hd with hd | hd
    · exact hT.limits d hd
    · cases List.mem_singleton.mp hd
      exact ⟨M, hM, rfl, rfl⟩

/-- Other calls leave the windows alone. -/
theorem Metered.after_other {T : Serving} (hT : Metered T) {i : Nat} {c : Choice} {o : web.Op}
    {k : web.Ans o → Web Reply} (ho : ∀ key limit, o ≠ .inr (.rateAllow key limit)) :
    Metered (T.after (webExec D) i c o k) := by
  obtain ⟨hcall, hnone, hwindows⟩ : asLimiterCall ⟨i, c, o, (webExec D o c T.world).1⟩ = none ∧
      asAllowedCall ⟨i, c, o, (webExec D o c T.world).1⟩ = none ∧
      (webExec D o c T.world).2.windows = T.world.windows := by
    match o with
    | .inl _ => exact ⟨rfl, rfl, rfl⟩
    | .inr (.getByAPIKey _) => exact ⟨rfl, rfl, rfl⟩
    | .inr (.rateAllow key limit) => exact absurd rfl (ho key limit)
  have hsub := webExec_merchants_subset D o c T.world
  have hcalls : limiterCalls (T.after (webExec D) i c o k).hist = limiterCalls T.hist := by
    show (T.hist ++ [_]).filterMap asLimiterCall = _
    rw [List.filterMap_append, List.filterMap_cons, hcall]
    exact List.append_nil _
  refine ⟨?_, ?_, ?_, ?_⟩
  · rw [hcalls, ← hT.windows]
    exact hwindows
  · rw [hcalls, hT.allowed]
    show _ = (T.hist ++ [_]).filterMap asAllowedCall
    rw [List.filterMap_append, List.filterMap_cons, hnone]
    exact (List.append_nil _).symm
  · intro j apiKey M hmem
    rcases mem_callsOf_concat.mp hmem with hmem | ⟨-, h⟩
    · exact hsub (hT.found j apiKey M hmem)
    · -- the key is looked up in the table
      obtain rfl : o = .inr (.getByAPIKey apiKey) := congrArg Sigma.fst h
      have hans : MerchantLookup.query D.collation c.fault (.byAPIKey apiKey)
          T.world.world.merchants = .ok M := eq_of_heq (Sigma.mk.inj_iff.mp h).2
      exact MerchantLookup.mem_of_query hans
  · rw [hcalls]
    intro d hd
    obtain ⟨M, hM, h⟩ := hT.limits d hd
    exact ⟨M, hsub hM, h⟩

/-- The limiter is asked for a merchant who was authenticated, whatever the route. -/
theorem Mediated.limiter {req : Request} {t : List (Prog.Step web)} {e : Endpoint} {key : Str}
    {limit : Int} (h : Mediated D S req t e (.inr (.rateAllow key limit))) :
    ∃ M, Authenticated D S req t M ∧ key = M.merchantID ∧ limit = limitOf M := by
  have hcall : ∀ (h : MerchantCall D S req t (.inr (.rateAllow key limit))),
      ∃ M, Authenticated D S req t M ∧ key = M.merchantID ∧ limit = limitOf M := by
    intro h
    cases h with
    | limiter hauth => exact ⟨_, hauth, rfl, rfl⟩
  cases e with
  | createPayment => exact hcall h
  | getPayment id => exact hcall h
  | refundPayment id => exact hcall h
  | createMerchant =>
    obtain ⟨-, -, o, ho, -⟩ := h
    cases ho
  | pay m ord =>
    obtain ⟨o, ho, -⟩ := h
    cases ho
  | stripeWebhook =>
    obtain ⟨⟨o, ho⟩, -⟩ := h
    cases ho

theorem Metered.after {T : Serving} (hT : Metered T) {req : Request} {i : Nat} {c : Choice}
    {e : Endpoint} {o : web.Op} {k : web.Ans o → Web Reply}
    (hmed : Mediated D S req (callsOf i T.hist) e o) : Metered (T.after (webExec D) i c o k) := by
  by_cases ho : ∃ key limit, o = .inr (.rateAllow key limit)
  · obtain ⟨key, limit, rfl⟩ := ho
    obtain ⟨M, hauth, rfl, rfl⟩ := hmed.limiter
    exact hT.after_limiter (hT.found i _ _ hauth.found)
  · exact hT.after_other fun key limit h => ho ⟨key, limit, h⟩

/-- **The windows in a run** of the server. -/
theorem metered_run {w : WebWorld} (hw : w.windows = fun _ => none) {reqs : List Request}
    {ps : List (Web Reply)} (hps : List.Forall₂ (fun req p => S.serve D req = some p) reqs ps)
    (xs : List (Nat × Choice)) : Metered (Serving.run D w ps xs) := by
  refine Sys.run_induction (P := web) (webExec D) (Q := Metered) w ps ?_ ?_ xs
  · refine ⟨hw, rfl, ?_, ?_⟩
    · intro i apiKey M h
      cases h
    · intro c hc
      cases hc
  · intro T i c o k p hT hp _ hruns
    obtain ⟨req, -, hserve⟩ := getElem?_of_forall₂ hps.flip hp
    obtain ⟨e, -, hmeets⟩ := serve_meets hserve
    exact hT.after (hmeets.call hruns)

/-! ## What the limiter refuses -/

/-- The calls before the limiter. -/
def ofAuth (o : web.Op) : Prop := ∀ key limit, o ≠ .inr (.rateAllow key limit)

/-- The limiter has refused. -/
def Refuses (x : Prog.Step web) : Prop :=
  ∃ key limit n, x = Web.edgeGave (.rateAllow key limit) (.ok (false, n))

theorem not_refuses_of_ofAuth {x : Prog.Step web} (h : ofAuth x.1) : ¬ Refuses x := by
  rintro ⟨key, limit, n, rfl⟩
  exact h key limit rfl

theorem not_refuses_inl (x : Prog.Step gateway) : ¬ Refuses x.inl := by
  rintro ⟨key, limit, n, h⟩
  cases congrArg Sigma.fst h

theorem merchantAPI_refused {req : Request} {handler : Merchant → Svc Reply} :
    Prog.Meets (fun _ _ => True) (fun t reply => (∃ x ∈ t, Refuses x) → reply.status = 429)
      (S.merchantAPI D req handler) [] := by
  unfold Server.merchantAPI
  have hauth : Prog.Meets (fun _ o => ofAuth o)
      (fun t a => (∀ x ∈ t, ofAuth x.1) ∧ ∀ M, a = .next M → Authenticated D S req t M)
      (hmacAuth D S.hmacSkew req.auth) [] :=
    (hmacAuth_meets (fun _ _ h => by cases h) fun _ _ _ h => by cases h).steps fun x hx => by cases hx
  refine Prog.meets_bind (hauth.weaken fun _ _ _ => trivial) fun t a ha => ?_
  have hbefore : ∀ x ∈ t, ¬ Refuses x := fun x hx => not_refuses_of_ofAuth (ha.1 x hx)
  cases a with
  | unauthorized code msg =>
    rintro ⟨x, hx, hr⟩
    exact absurd hr (hbefore x hx)
  | next M =>
    unfold rateLimit
    refine Prog.meets_bind (R := fun t' r => r.2 = true → ∀ x ∈ t', ¬ Refuses x)
      (Prog.meets_perform (P := web) trivial fun a => ?_) fun t' r hr => ?_
    · match a with
      | .error e =>
        intro _ x hx
        rcases List.mem_append.mp hx with hx | hx
        · exact hbefore x hx
        · rw [List.mem_singleton.mp hx]
          rintro ⟨key, limit, n, h⟩
          cases h
      | .ok (allowed, remaining) =>
        intro hallowed x hx
        rcases List.mem_append.mp hx with hx | hx
        · exact hbefore x hx
        · rw [List.mem_singleton.mp hx]
          rintro ⟨key, limit, n, h⟩
          cases h
          cases hallowed
    · obtain ⟨rate, allowed⟩ := r
      cases allowed with
      | false => exact fun _ => rfl
      | true =>
        refine Prog.meets_bind (R := fun u _ => ∀ x ∈ u, ¬ Refuses x)
          (Prog.meets_inl (fun _ _ _ _ => trivial) fun u b _ x hx => ?_) fun u b hu => ?_
        · rcases List.mem_append.mp hx with hx | hx
          · exact hr rfl x hx
          · obtain ⟨y, -, rfl⟩ := List.mem_map.mp hx
            exact not_refuses_inl y
        · rintro ⟨x, hx, h⟩
          exact absurd h (hu x hx)

theorem serve_refused {req : Request} {p : Web Reply} (h : S.serve D req = some p)
    {t : List (Prog.Step web)} {reply : Reply} (hruns : Prog.Runs p t (.ret reply))
    (hr : ∃ x ∈ t, Refuses x) : reply.status = 429 := by
  have hsvc : ∀ {q : Svc Reply}, Prog.Runs (Web.svc q) t (.ret reply) → reply.status = 429 := by
    intro q hq
    obtain ⟨t', -, rfl, -, -⟩ := Prog.runs_inl hq
    obtain ⟨x, hx, h⟩ := hr
    obtain ⟨y, -, rfl⟩ := List.mem_map.mp hx
    exact absurd h (not_refuses_inl y)
  obtain ⟨e, -, he⟩ := Option.bind_eq_some_iff.mp h
  cases e with
  | createPayment =>
    cases he
    exact merchantAPI_refused.ret hruns hr
  | getPayment id =>
    cases he
    exact merchantAPI_refused.ret hruns hr
  | refundPayment id =>
    cases he
    exact merchantAPI_refused.ret hruns hr
  | createMerchant =>
    simp only [Server.respond] at he
    split at he
    · cases he
    split at he
    · cases he
      obtain ⟨rfl, -⟩ := Prog.runs_ret.mp hruns
      obtain ⟨x, hx, -⟩ := hr
      cases hx
    · cases he
      exact hsvc hruns
  | stripeWebhook =>
    cases he
    exact hsvc hruns
  | pay m ord =>
    cases he
    exact hsvc hruns

/-! ## The limit -/

/-- The request `i` came to the limiter within the minute, less 384 ns, up to `t`, for the merchant with
the id `key`; the limiter has answered, and the answer to the request was not that there are too many. -/
def GotPast (T : Serving) (key : Str) (t : Int) (i : Nat) : Prop :=
  ∃ reply c limit a, T.procs[i]? = some (.ret reply) ∧ reply.status ≠ 429 ∧
    ⟨i, c, .inr (.rateAllow key limit), .ok a⟩ ∈ T.hist ∧ t - (minute - 384) < c.now ∧ c.now ≤ t

/-- The limiter has let such a request through. -/
theorem gotPast_allowed {w : WebWorld} {reqs : List Request} {ps : List (Web Reply)}
    (hps : List.Forall₂ (fun req p => S.serve D req = some p) reqs ps) {xs : List (Nat × Choice)}
    {key : Str} {t : Int} {i : Nat} (h : GotPast (Serving.run D w ps xs) key t i) :
    ∃ c limit n, ⟨i, c, .inr (.rateAllow key limit), .ok (true, n)⟩ ∈ (Serving.run D w ps xs).hist ∧
      t - (minute - 384) < c.now ∧ c.now ≤ t := by
  obtain ⟨reply, c, limit, ⟨allowed, n⟩, hret, hstatus, hmem, hin⟩ := h
  cases allowed with
  | true => exact ⟨c, limit, n, hmem, hin⟩
  | false =>
    have hlt := (List.getElem?_eq_some_iff.mp hret).1
    rw [show (Serving.run D w ps xs).procs.length = ps.length from
      Sys.run_procs_length (P := web) (webExec D) w ps xs] at hlt
    have hp := List.getElem?_eq_getElem hlt
    obtain ⟨q, hq, hruns⟩ := Sys.run_runs (P := web) (webExec D) w ps xs hp
    cases hret.symm.trans hq
    obtain ⟨req, -, hserve⟩ := getElem?_of_forall₂ hps.flip hp
    have hrefused : Web.edgeGave (.rateAllow key limit) (.ok (false, n)) ∈
        callsOf i (Serving.run D w ps xs).hist := mem_callsOf.mpr ⟨_, hmem, rfl, rfl⟩
    exact absurd (serve_refused hserve hruns ⟨_, hrefused, key, limit, n, rfl⟩) hstatus

/-- **No more than the limit.**  However the requests of a merchant are interleaved with others, of those
that come to the limiter within a minute, less 384 ns, no more get past it than the limit of the merchant.
The readings of the clock have to be different, for the limiter counts two calls at one time as one; they
are of the years from 1970 to 2043, where doubles are at most 256 ns apart. -/
theorem rate_limited {w : WebWorld} (hw : w.windows = fun _ => none) {reqs : List Request}
    {ps : List (Web Reply)} (hps : List.Forall₂ (fun req p => S.serve D req = some p) reqs ps)
    {xs : List (Nat × Choice)} {key : Str} {L : Nat} (hL : L < 2 ^ 53)
    (hlimit : ∀ M ∈ (Serving.run D w ps xs).world.world.merchants, M.merchantID = key → limitOf M ≤ L)
    (hclock : (limiterCalls (Serving.run D w ps xs).hist).Pairwise fun c d =>
      c.now ≤ d.now ∧ (c.key = d.key → c.now ≠ d.now))
    (hyears : ∀ c ∈ limiterCalls (Serving.run D w ps xs).hist, 0 ≤ c.now ∧ c.now < 2 ^ 61)
    {t : Int} {ids : List Nat} (hdistinct : ids.Nodup)
    (hpast : ∀ i ∈ ids, GotPast (Serving.run D w ps xs) key t i) : ids.length ≤ L := by
  have hmetered := metered_run hw hps xs
  have hlet := fun i (hi : i ∈ ids) => gotPast_allowed hps (hpast i hi)
  generalize hT : Serving.run D w ps xs = T at *
  have hcount : (RateLimiter.served Double.round (limiterCalls T.hist)).allowed.countP
      (RateLimiter.upTo key (minute - 384) (unixNano t)) ≤ L := by
    refine RateLimiter.allowed_window_le Double.round_mono (by decide) ?_ ?_ ?_ hclock (unixNano t)
    · exact fun c hc d hd h => RateLimiter.cutoff_lt (hyears d hd) (hyears c hc) h
    · intro d hd _
      exact window_of_mem hd
    · intro d hd hkey
      obtain ⟨M, hM, hid, hlim⟩ := hmetered.limits d hd
      have hle : d.limit ≤ L := hlim ▸ hlimit M hM (hid.trans hkey)
      rw [← Double.round_of_lt (n := L) hL]
      exact Double.round_mono hle
  rw [hmetered.allowed, List.countP_filterMap, List.countP_eq_length_filter] at hcount
  refine Nat.le_trans ?_ hcount
  rw [← List.length_map (f := Event.pid)]
  refine (List.subperm_of_subset hdistinct fun i hi => ?_).length_le
  obtain ⟨c, limit, n, hmem, hlt, hle⟩ := hlet i hi
  refine List.mem_map.mpr ⟨_, List.mem_filter.mpr ⟨hmem, ?_⟩, rfl⟩
  refine decide_eq_true ⟨rfl, ?_, ?_⟩
  · show unixNano t - (minute - 384) < unixNano c.now
    unfold unixNano
    omega
  · show unixNano c.now ≤ unixNano t
    unfold unixNano
    omega

end

/-- A merchant with one request in a minute. -/
def Merchant.limited : Merchant := { Merchant.named (bytes "m1") with rateLimit := 1 }

/-- Two payments, one 59 s after the other. -/
def twoPaymentsRun : Serving :=
  Serving.run (.sample .binary) ⟨.fresh [.limited], fun _ => none⟩ [paymentProg, paymentProg]
    (List.replicate 8 (0, { now := unixEpoch }) ++ List.replicate 3 (1, { now := unixEpoch + 59 * second }))

def statuses (T : Serving) : List (Option Nat) := T.procs.map fun
  | .ret reply => some reply.status
  | .call _ _ => none

/-- The calls that were let through, by request. -/
def letThrough (T : Serving) : List (Nat × Str × Int) :=
  T.hist.filterMap fun e => (asAllowedCall e).map fun d => (e.pid, d.key, d.now)

theorem exists_event_of_letThrough {T : Serving} {i : Nat} {key : Str} {now : Int}
    (h : (i, key, now) ∈ letThrough T) : ∃ c limit n,
      ⟨i, c, .inr (.rateAllow key limit), .ok (true, n)⟩ ∈ T.hist ∧ unixNano c.now = now := by
  obtain ⟨⟨pid, c, o, a⟩, he, heq⟩ := List.mem_filterMap.mp h
  match o, a with
  | .inl _, _ => cases heq
  | .inr (.getByAPIKey _), _ => cases heq
  | .inr (.rateAllow _ _), .error _ => cases heq
  | .inr (.rateAllow _ _), .ok (false, _) => cases heq
  | .inr (.rateAllow _ limit), .ok (true, n) =>
    cases heq
    exact ⟨c, limit, n, he, rfl⟩

theorem exists_reply_of_statuses {T : Serving} {i status : Nat} (h : (statuses T)[i]? = some (some status)) :
    ∃ reply, T.procs[i]? = some (.ret reply) ∧ reply.status = status := by
  unfold statuses at h
  rw [List.getElem?_map] at h
  obtain ⟨p, hp, hst⟩ := Option.map_eq_some_iff.mp h
  cases p with
  | ret reply => exact ⟨reply, hp, Option.some.inj hst⟩
  | call o k => cases hst

/-- The first payment has got past the limiter, the second has not. -/
theorem rate_limited_pair :
    statuses twoPaymentsRun = [some 202, some 429] ∧
      GotPast twoPaymentsRun (bytes "m1") (unixEpoch + 59 * second) 0 ∧ [0].length ≤ 1 := by
  have hstatuses : statuses twoPaymentsRun = [some 202, some 429] := by decide +kernel
  have hlet : letThrough twoPaymentsRun = [(0, bytes "m1", 0)] := by decide +kernel
  have hmerchants : twoPaymentsRun.world.world.merchants = [.limited] := by decide +kernel
  have hclock : (limiterCalls twoPaymentsRun.hist).Pairwise fun c d =>
      c.now ≤ d.now ∧ (c.key = d.key → c.now ≠ d.now) := by decide +kernel
  have hyears : ∀ c ∈ limiterCalls twoPaymentsRun.hist, 0 ≤ c.now ∧ c.now < 2 ^ 61 := by
    decide +kernel
  have hpast : GotPast twoPaymentsRun (bytes "m1") (unixEpoch + 59 * second) 0 := by
    have hfirst : (statuses twoPaymentsRun)[0]? = some (some 202) := by
      rw [hstatuses]
      rfl
    obtain ⟨reply, hreply, h202⟩ := exists_reply_of_statuses hfirst
    obtain ⟨c, limit, n, hmem, hnow⟩ := exists_event_of_letThrough (T := twoPaymentsRun) (i := 0)
      (by rw [hlet]; exact List.mem_singleton.mpr rfl)
    have hepoch : c.now = unixEpoch := Int.sub_eq_zero.mp hnow
    refine ⟨reply, c, limit, (true, n), hreply, ?_, hmem, ?_, ?_⟩
    · rw [h202]
      decide
    · rw [hepoch]
      decide
    · rw [hepoch]
      decide
  have hserve : List.Forall₂ (fun req p => Server.sample.serve (.sample .binary) req = some p)
      [.payment, .payment] [paymentProg, paymentProg] := by
    cases serve_payment with
    | cons h _ => exact .cons h (.cons h .nil)
  have hlimit : ∀ M ∈ twoPaymentsRun.world.world.merchants, M.merchantID = bytes "m1" →
      limitOf M ≤ (1 : Nat) := by
    rw [hmerchants]
    intro M hM _
    cases List.mem_singleton.mp hM
    decide
  refine ⟨hstatuses, hpast, ?_⟩
  unfold twoPaymentsRun at hlimit hclock hyears hpast
  refine rate_limited rfl hserve (by decide) hlimit hclock hyears (List.nodup_singleton 0)
    (t := unixEpoch + 59 * second) ?_
  intro i hi
  cases List.mem_singleton.mp hi
  exact hpast

end EasyPay
