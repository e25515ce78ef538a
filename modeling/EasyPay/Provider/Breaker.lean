import EasyPay.Lib.CircuitBreaker
import EasyPay.System

/-!
# The circuit breaker in front of Stripe

`NewBreakerClient` puts a breaker of `gobreaker` before the Stripe client: 100 probes, an interval
of 10 s, a timeout of 30 s, and it trips on 20 requests of which more than half have failed.  A
declined card or a rejected request is no failure (`isSuccessful`); Stripe's 429 is one, for
`mapStripeError` files it under `rate_limit` whatever its type.

The breaker is that of the library, so it is a parameter `M` here, and `Documented breakerSettings M`
is all that is known of it.

* `trip_earned`, `probing`: what a run of the client shows, over any traffic.
* `guardedExec` is the gateway with the breaker in it.  While the breaker is open none of its jobs
  gets to Stripe (`stripe_shielded`).
-/

namespace EasyPay

open GoStrings Ports CircuitBreaker

/-! ## Errors of the client -/

/-- The types of error of `stripego` that the client tells apart. -/
inductive ErrorType
  | card
  | api
  | idempotency
  | invalidRequest
  | other
  deriving DecidableEq, Repr

/-- `stripego.Error`, with the text it prints. -/
structure StripeError where
  type : ErrorType
  httpStatusCode : Int
  text : Str
  deriving DecidableEq, Repr

/-- What a call of the SDK fails with: an answer of Stripe, or no answer. -/
inductive SDKError
  | stripe (serr : StripeError)
  | other (text : Str)
  deriving DecidableEq, Repr

def SDKError.text : SDKError → Str
  | stripe serr => serr.text
  | other text => text

inductive Category
  | card
  | api
  | idempotency
  | invalidRequest
  | rateLimit
  | network
  deriving DecidableEq, Repr

def Category.text : Category → Str
  | card => bytes "card"
  | api => bytes "api"
  | idempotency => bytes "idempotency"
  | invalidRequest => bytes "invalid_request"
  | rateLimit => bytes "rate_limit"
  | network => bytes "network"

structure ProviderError where
  op : Str
  category : Category
  err : SDKError
  deriving DecidableEq, Repr

def ProviderError.error (e : ProviderError) : Str :=
  e.op ++ bytes ": " ++ e.category.text ++ bytes ": " ++ e.err.text

def mapStripeError (op : Str) (err : SDKError) : ProviderError :=
  match err with
  | .stripe serr =>
    let cat : Category :=
      match serr.type with
      | .card => .card
      | .api => .api
      | .idempotency => .idempotency
      | .invalidRequest => .invalidRequest
      | .other => .api
    ⟨op, if serr.httpStatusCode = 429 then .rateLimit else cat, err⟩
  | .other _ => ⟨op, .network, err⟩

/-! ## The breaker -/

/-- `ReadyToTrip`.  The quotient of the two counts, as a `float64`, is above 0.5 just when twice the
failures exceed the requests: both are below 2^32. -/
def readyToTrip (c : Counts) : Bool := 20 ≤ c.requests && c.requests < 2 * c.totalFailures

/-- `IsSuccessful`, of an error of the client or of none. -/
def isSuccessful : Option ProviderError → Bool
  | none => true
  | some pe =>
    match pe.category with
    | .card | .invalidRequest => true
    | _ => false

/-- The settings of `NewBreakerClient`; durations in nanoseconds. -/
def breakerSettings : Settings (Option ProviderError) where
  maxRequests := 100
  interval := 10000000000
  timeout := 30000000000
  readyToTrip := readyToTrip
  isSuccessful := isSuccessful
  maxRequests_pos := by decide
  interval_pos := by decide

/-- `wrap`, given the verdict of the breaker and what the client returns. -/
def wrap {α : Type} (before : Except Refusal Nat) (fn : Except ProviderError α) : Res α :=
  match before with
  | .error _ => .error (.of .circuitOpen)
  | .ok _ =>
    match fn with
    | .error pe => .error (.new pe.error)
    | .ok v => .ok v

/-! ## Any traffic -/

section
variable {I : Type} [DecidableEq I] (M : Machine (Option ProviderError))

/-- The breaker from the start of the server on. -/
def breakerRun (now : Int) (es : List (CircuitBreaker.Event I (Option ProviderError))) :
    Traffic M.B I (Option ProviderError) :=
  Traffic.run M (Traffic.start M now) es

variable {M}

theorem breakerRun_inv (hM : Documented breakerSettings M) (now : Int)
    (es : List (CircuitBreaker.Event I (Option ProviderError))) :
    Traffic.Inv breakerSettings ((breakerRun M now es).seen M) :=
  Traffic.inv_run hM (Traffic.inv_start hM now) es

theorem breakerRun_stepped (hM : Documented breakerSettings M) (now : Int)
    (es : List (CircuitBreaker.Event I (Option ProviderError)))
    (e : CircuitBreaker.Event I (Option ProviderError)) :
    Traffic.Stepped breakerSettings ((breakerRun M now es).seen M) e
      ((breakerRun M now (es ++ [e])).seen M) := by
  rw [show breakerRun M now (es ++ [e]) = Traffic.step M (breakerRun M now es) e from
    Traffic.run_append M _ es [e]]
  exact Traffic.stepped hM (breakerRun_inv hM now es) e

variable (M)

/-- **A trip is earned.**  Whatever calls overlap, a closed breaker opens only when some window of
10 s, not yet over, has let at least 20 calls through and more than half of these have failed, and
not by a declined card or a rejected request. -/
theorem trip_earned (hM : Documented breakerSettings M) (now : Int)
    (es : List (CircuitBreaker.Event I (Option ProviderError)))
    (e : CircuitBreaker.Event I (Option ProviderError))
    (hclosed : (M.view (breakerRun M now es).breaker).state = .stateClosed)
    (hopen : (M.view (breakerRun M now (es ++ [e])).breaker).state = .stateOpen) :
    let log := (breakerRun M now (es ++ [e])).log
    ∃ g start, start ≤ (breakerRun M now (es ++ [e])).now ∧
      (breakerRun M now (es ++ [e])).now ≤ start + 10000000000 ∧
      (∀ x ∈ log, x.isAdmitted g = true → start ≤ x.time ∧ x.time ≤ start + 10000000000) ∧
      20 ≤ Traffic.admittedIn g log ∧
      Traffic.admittedIn g log < 2 * Traffic.failedIn breakerSettings g log := by
  intro log
  obtain ⟨g, counts, htrip, hwindow⟩ :=
    (breakerRun_stepped hM now es e).opens (breakerRun_inv hM now es) hclosed hopen
  obtain ⟨start, hle, hlt, hin⟩ := hwindow.window
  have hready : 20 ≤ counts.requests ∧ counts.requests < 2 * counts.totalFailures := by
    simpa [breakerSettings, readyToTrip] using htrip
  rw [hwindow.requests, hwindow.failures] at hready
  exact ⟨g, start, hle, hlt, hin, hready.1, hready.2⟩

/-- Calls come in and are not answered by Stripe. -/
def outage (calls failures : Nat) : List (CircuitBreaker.Event Nat (Option ProviderError)) :=
  (List.range calls).map (fun i => .call i 1000000) ++
    (List.range failures).map fun i =>
      .answer i 1000000 (some (mapStripeError (bytes "get payment intent") (.other (bytes "EOF"))))

theorem trip_earned_outage :
    let M := reference breakerSettings
    ∃ g, 20 ≤ Traffic.admittedIn g (breakerRun M 0 (outage 20 11)).log ∧
      Traffic.admittedIn g (breakerRun M 0 (outage 20 11)).log <
        2 * Traffic.failedIn breakerSettings g (breakerRun M 0 (outage 20 11)).log := by
  intro M
  let last : CircuitBreaker.Event Nat (Option ProviderError) :=
    .answer 10 1000000 (some (mapStripeError (bytes "get payment intent") (.other (bytes "EOF"))))
  have hlast : outage 20 11 = outage 20 10 ++ [last] := by decide +kernel
  have hopen : (M.view (breakerRun M 0 (outage 20 10 ++ [last])).breaker).state = .stateOpen := by
    decide +kernel
  obtain ⟨g, -, -, -, -, h⟩ := trip_earned M (documented_reference breakerSettings) 0 (outage 20 10)
    last (by decide +kernel) hopen
  rw [hlast]
  exact ⟨g, h⟩

/-- **Probing.**  A half-open breaker lets through at most 100 calls, turns further ones away only
while one of these is in flight, and closes on the success of all 100. -/
theorem probing (hM : Documented breakerSettings M) (now : Int)
    (es : List (CircuitBreaker.Event I (Option ProviderError))) :
    (∀ x ∈ (breakerRun M now es).log, ∀ g, x.isProbe g = true →
      Traffic.admittedIn g (breakerRun M now es).log ≤ 100) ∧
    (∀ id wait reason time t, t = breakerRun M now (es ++ [.call id wait]) →
      t.log.head? = some (.refused id reason time) → (M.view t.breaker).state = .stateHalfOpen →
        ∃ id', (id', (M.view t.breaker).generation) ∈ t.flying) ∧
    ∀ e, (M.view (breakerRun M now es).breaker).state = .stateHalfOpen →
      (M.view (breakerRun M now (es ++ [e])).breaker).state = .stateClosed →
      let g := (M.view (breakerRun M now es).breaker).generation
      let log := (breakerRun M now (es ++ [e])).log
      Traffic.admittedIn g log = 100 ∧ Traffic.succeededIn breakerSettings g log = 100 ∧
        Traffic.failedIn breakerSettings g log = 0 := by
  have hinv := breakerRun_inv hM now es
  refine ⟨hinv.probes, fun id wait reason time t ht hhead hhalf => ?_, fun e hhalf hclosed => ?_⟩
  · subst ht
    exact (breakerRun_stepped hM now es _).exists_flying hinv hhalf hhead
  · exact (breakerRun_stepped hM now es e).closes hinv hhalf hclosed

/-- After 30 s in the open state, calls come in and Stripe answers some of them. -/
def recovery (calls answers : Nat) : List (CircuitBreaker.Event Nat (Option ProviderError)) :=
  outage 20 11 ++ .call 100 30000000001 ::
    (List.range calls).map (fun i => .call (101 + i) 1000000) ++
      (List.range answers).map fun i => .answer (100 + i) 1000000 none

/-- A hundred probes are let through, one call more is turned away while they are in flight, and the
breaker closes when the last of them has succeeded. -/
theorem probing_recovery :
    let M := reference breakerSettings
    (∃ id', (id', (M.view (breakerRun M 0 (recovery 100 0)).breaker).generation) ∈
        (breakerRun M 0 (recovery 100 0)).flying) ∧
      let g := (M.view (breakerRun M 0 (recovery 100 99)).breaker).generation
      Traffic.admittedIn g (breakerRun M 0 (recovery 100 100)).log = 100 ∧
        Traffic.succeededIn breakerSettings g (breakerRun M 0 (recovery 100 100)).log = 100 := by
  intro M
  have hcall : recovery 99 0 ++ [.call 200 1000000] = recovery 100 0 := by decide +kernel
  have hanswer : recovery 100 99 ++ [.answer 199 1000000 none] = recovery 100 100 := by
    decide +kernel
  have hM := documented_reference breakerSettings
  obtain ⟨-, hrefused, -⟩ := probing M hM 0 (recovery 99 0)
  obtain ⟨-, -, hcloses⟩ := probing M hM 0 (recovery 100 99)
  have hcloses := hcloses (.answer 199 1000000 none) (by decide +kernel) (by decide +kernel)
  rw [hanswer] at hcloses
  refine ⟨?_, hcloses.1, hcloses.2.1⟩
  exact hrefused 200 1000000 .errTooManyRequests 30131000001 _ (congrArg _ hcall.symm)
    (by decide +kernel) (by decide +kernel)

end

/-! ## The gateway behind the breaker -/

/-- What `mapStripeError` is told of the calls the services make. -/
def stripeOp : Op → Option Str
  | .createCheckoutSession _ _ => some (bytes "create checkout session")
  | .getPaymentIntent _ => some (bytes "get payment intent")
  | .createRefund _ _ => some (bytes "create refund")
  | _ => none

/-- An error of the SDK; its text is not that of a duplicate key. -/
structure SDKFault where
  error : SDKError
  other : ∀ o op, stripeOp o = some op → isDuplicateKeyErr (mapStripeError op error).error = false

/-- Traffic of the client: the call at hand, and others of the same process. -/
abbrev StripeTraffic (M : Machine (Option ProviderError)) :=
  Traffic M.B (Option Nat) (Option ProviderError)

/-- What the environment decides about one call of the gateway.  Before the call, and while it is in
flight, other calls come and go. -/
structure GuardedChoice extends Choice where
  failure : Option SDKFault := none
  before : List (CircuitBreaker.Event Nat (Option ProviderError)) := []
  wait : Nat := 0
  during : List (CircuitBreaker.Event Nat (Option ProviderError)) := []
  delay : Nat := 0

def others (es : List (CircuitBreaker.Event Nat (Option ProviderError))) :
    List (CircuitBreaker.Event (Option Nat) (Option ProviderError)) :=
  es.map (·.mapId some)

namespace GuardedChoice

/-- The choice for a call of Stripe, once the breaker has decided. -/
def behind (g : GuardedChoice) {o : Op} {op : Str} (ho : stripeOp o = some op) (refused : Bool) :
    Choice :=
  { g.toChoice with
    refused := refused
    fault := g.failure.map fun f => ⟨(mapStripeError op f.error).error, f.other o op ho⟩ }

/-- What the breaker is told when the call comes back. -/
def result (g : GuardedChoice) (op : Str) : Option ProviderError :=
  g.failure.map fun f => mapStripeError op f.error

end GuardedChoice

section
variable (M : Machine (Option ProviderError))

/-- The breaker turns the call away. -/
def turnsAway (t : StripeTraffic M) (wait : Nat) : Bool :=
  !(M.before (t.now + wait) t.breaker).1.isOk

/-- What the breaker sees of a call of the gateway. -/
def traffic (o : Op) (g : GuardedChoice) (t : StripeTraffic M) :
    List (CircuitBreaker.Event (Option Nat) (Option ProviderError)) :=
  match stripeOp o with
  | none => others g.before
  | some op =>
    others g.before ++ .call none g.wait ::
      if turnsAway M (Traffic.run M t (others g.before)) g.wait then []
      else others g.during ++ [.answer none g.delay (g.result op)]

/-- The effect of one call, with the breaker in front of Stripe. -/
def guardedExec (D : Deployment) (o : Op) (g : GuardedChoice) (s : World × StripeTraffic M) :
    o.Ans × World × StripeTraffic M :=
  let c : Choice :=
    match ho : stripeOp o with
    | none => g.toChoice
    | some _ => g.behind ho (turnsAway M (Traffic.run M s.2 (others g.before)) g.wait)
  ((exec D o c s.1).1, (exec D o c s.1).2, Traffic.run M s.2 (traffic M o g s.2))

/-- The gateway's jobs, scheduled as `gs` says. -/
def guardedRun (D : Deployment) (w : World) (now : Int) (js : List Job)
    (gs : List (Nat × GuardedChoice)) :
    Sys gateway (World × StripeTraffic M) GuardedChoice Outcome :=
  Sys.run (guardedExec M D) (Sys.start (w, Traffic.start M now) (js.map (Job.prog D))) gs

end

/-- The answer to a call of Stripe is that of `wrap`. -/
theorem throughBreaker_behind {α : Type} (g : GuardedChoice) {o : Op} {op : Str}
    (ho : stripeOp o = some op) (before : Except Refusal Nat) (v : α) :
    throughBreaker (g.behind ho (!before.isOk)) v =
      wrap before (match g.result op with
        | some pe => .error pe
        | none => .ok v) := by
  cases before with
  | error reason => rfl
  | ok _ =>
    unfold GuardedChoice.behind GuardedChoice.result
    cases g.failure with
    | none => rfl
    | some f => rfl

/-! ### An open breaker -/

/-- A call of Stripe was turned away by the breaker. -/
def TurnedAway : Prog.Step gateway → Prop
  | ⟨.createCheckoutSession _ _, a⟩ => a = .error (.of .circuitOpen)
  | ⟨.getPaymentIntent _, a⟩ => a = .error (.of .circuitOpen)
  | ⟨.createRefund _ _, a⟩ => a = .error (.of .circuitOpen)
  | _ => True

section
variable {M : Machine (Option ProviderError)} (hM : Documented breakerSettings M)
include hM

/-- An open breaker turns a call away at any time before its timeout is over. -/
theorem turnsAway_of_open {t : StripeTraffic M} (hinv : Traffic.Inv breakerSettings (t.seen M))
    (hstate : (M.view t.breaker).state = .stateOpen) {o : Op} {op : Str}
    (ho : stripeOp o = some op) (g : GuardedChoice)
    (hle : (Traffic.run M t (traffic M o g t)).now ≤ (M.view t.breaker).since + 30000000000) :
    turnsAway M (Traffic.run M t (others g.before)) g.wait = true := by
  -- the call comes in before all else that is still to come
  have hcall : (Traffic.run M t (others g.before)).now + g.wait ≤
      (M.view t.breaker).since + 30000000000 := by
    unfold traffic at hle
    rw [ho] at hle
    simp only at hle
    rw [Traffic.run_append] at hle
    rw [← Traffic.step_call_now M _ none g.wait]
    exact (Traffic.run_now_le M _ _).trans hle
  have hnow := (Traffic.le_add_wait _ g.wait).trans hcall
  have hsame := (Traffic.run_open hM hinv hstate (others g.before) hnow).1
  have hopen : (M.view (Traffic.run M t (others g.before)).breaker).state = .stateOpen := by
    rw [hsame]
    exact hstate
  have hlook := View.looked breakerSettings ((Traffic.run M t (others g.before)).now + g.wait)
    (M.view (Traffic.run M t (others g.before)).breaker)
  have hcurrent := hlook.eq_of_not_expired ((View.not_expired_open hopen).mpr (by rw [hsame]; exact hcall))
  obtain ⟨b, hbefore, -⟩ := hM.errOpenState hcurrent hopen
  unfold turnsAway
  rw [hbefore]
  rfl

/-- A call made while the breaker is open. -/
theorem guardedExec_open (D : Deployment) (o : Op) (g : GuardedChoice)
    {s : World × StripeTraffic M} (hinv : Traffic.Inv breakerSettings (s.2.seen M))
    (hstate : (M.view s.2.breaker).state = .stateOpen)
    (hle : (guardedExec M D o g s).2.2.now ≤ (M.view s.2.breaker).since + 30000000000) :
    M.view (guardedExec M D o g s).2.2.breaker = M.view s.2.breaker ∧
      (guardedExec M D o g s).2.1.sessions = s.1.sessions ∧
      TurnedAway (o.gave (guardedExec M D o g s).1) := by
  refine ⟨(Traffic.run_open hM hinv hstate _ hle).1, ?_⟩
  have haway : ∀ op, stripeOp o = some op →
      turnsAway M (Traffic.run M s.2 (others g.before)) g.wait = true :=
    fun _ ho => turnsAway_of_open hM hinv hstate ho g hle
  unfold guardedExec
  simp only
  split
  · next ho =>
    refine ⟨?_, ?_⟩
    · rcases exec_sessions_cases D o g.toChoice s.1 with ⟨hsame, -⟩ | ⟨req, key, rfl, -, -⟩
      · exact hsame
      · cases ho
    · cases o with
      | createCheckoutSession req key => cases ho
      | getPaymentIntent id => cases ho
      | createRefund req key => cases ho
      | _ => trivial
  · next op ho =>
    rw [haway op ho]
    refine ⟨?_, ?_⟩
    · rcases exec_sessions_cases D o (g.behind ho true) s.1 with ⟨hsame, -⟩ | ⟨req, key, -, hreach, -⟩
      · exact hsame
      · exact absurd (.inl rfl) hreach
    · cases o with
      | createCheckoutSession req key => rfl
      | getPaymentIntent id => rfl
      | createRefund req key => rfl
      | _ => cases ho

end

section
variable (M : Machine (Option ProviderError)) (D : Deployment) (w : World) (now : Int)
  (js : List Job)

theorem guardedRun_concat (gs : List (Nat × GuardedChoice)) (x : Nat × GuardedChoice) :
    guardedRun M D w now js (gs ++ [x]) = (guardedRun M D w now js gs).step (guardedExec M D) x :=
  Sys.run_concat _ _ gs x

variable {M} in
theorem guardedRun_inv (hM : Documented breakerSettings M) (gs : List (Nat × GuardedChoice)) :
    Traffic.Inv breakerSettings ((guardedRun M D w now js gs).world.2.seen M) := by
  induction gs using List.reverseRecOn with
  | nil => exact Traffic.inv_start hM now
  | append_singleton gs x ih =>
    rw [guardedRun_concat]
    rcases Sys.step_cases (guardedExec M D) (guardedRun M D w now js gs) x with h | ⟨o, k, -, h⟩
    · rw [h]
      exact ih
    · rw [h]
      exact Traffic.inv_run hM ih _

/-- **Stripe is left alone.**  When the breaker is open, a failure of some time ago has opened it,
and for 30 s from then no job gets through: all their calls of Stripe are answered by the breaker,
and no session is made. -/
theorem stripe_shielded (hM : Documented breakerSettings M) (gs : List (Nat × GuardedChoice))
    (hopen : (M.view (guardedRun M D w now js gs).world.2.breaker).state = .stateOpen) :
    ∃ trip, Traffic.FailedAt breakerSettings trip (guardedRun M D w now js gs).world.2.log ∧
      ∀ gs', (guardedRun M D w now js (gs ++ gs')).world.2.now ≤ trip + 30000000000 →
        (guardedRun M D w now js (gs ++ gs')).world.1.sessions =
          (guardedRun M D w now js gs).world.1.sessions ∧
        ∃ later, (guardedRun M D w now js (gs ++ gs')).hist =
            (guardedRun M D w now js gs).hist ++ later ∧ ∀ e ∈ later, TurnedAway e.step := by
  have hinv := guardedRun_inv D w now js hM gs
  refine ⟨(M.view (guardedRun M D w now js gs).world.2.breaker).since, ?_, fun gs' hle => ?_⟩
  · cases hinv.stands with
    | closed h _ _ _ => cases hopen.symm.trans h
    | halfOpen h _ _ _ _ => cases hopen.symm.trans h
    | «open» _ _ htrip => exact htrip
  suffices h : M.view (guardedRun M D w now js (gs ++ gs')).world.2.breaker =
        M.view (guardedRun M D w now js gs).world.2.breaker ∧
      (guardedRun M D w now js (gs ++ gs')).world.1.sessions =
        (guardedRun M D w now js gs).world.1.sessions ∧
      ∃ later, (guardedRun M D w now js (gs ++ gs')).hist =
        (guardedRun M D w now js gs).hist ++ later ∧ ∀ e ∈ later, TurnedAway e.step from h.2
  induction gs' using List.reverseRecOn with
  | nil =>
    rw [List.append_nil]
    exact ⟨rfl, rfl, [], (List.append_nil _).symm, fun e he => by cases he⟩
  | append_singleton gs' x ih =>
    rw [← List.append_assoc, guardedRun_concat] at hle ⊢
    rcases Sys.step_cases (guardedExec M D) (guardedRun M D w now js (gs ++ gs')) x with
      h | ⟨o, k, -, h⟩
    · rw [h] at hle ⊢
      exact ih hle
    · rw [h] at hle ⊢
      obtain ⟨hbreaker, hsessions, later, hlater, haway⟩ := ih ((Traffic.run_now_le M _ _).trans hle)
      obtain ⟨hbreaker', hsessions', haway'⟩ := guardedExec_open hM D o x.2
        (guardedRun_inv D w now js hM (gs ++ gs')) (hbreaker ▸ hopen) (by rw [hbreaker]; exact hle)
      refine ⟨hbreaker'.trans hbreaker, hsessions'.trans hsessions,
        later ++ [⟨x.1, x.2, o, (guardedExec M D o x.2 (guardedRun M D w now js (gs ++ gs')).world).1⟩],
        ?_, ?_⟩
      · rw [← List.append_assoc, ← hlater]
        rfl
      · intro e he
        rcases List.mem_append.mp he with he | he
        · exact haway e he
        · cases List.mem_singleton.mp he
          exact haway'

end

/-- An eager checkout. -/
def eagerCheckout (gs : List (Nat × GuardedChoice)) :
    Sys gateway (World × StripeTraffic (reference breakerSettings)) GuardedChoice Outcome :=
  guardedRun (reference breakerSettings) (.sample .binary) (.fresh [.named (bytes "m")]) 0
    [.create (.mode false) (.card (.named (bytes "m")) (bytes "o") 100)] gs

/-- Its insert, in an outage. -/
def insertInOutage : List (Nat × GuardedChoice) := [(0, { before := outage 20 11 })]

/-- The call it makes next. -/
def callNext : List (Nat × GuardedChoice) := [(0, { wait := 1000000 })]

theorem stripe_shielded_checkout :
    (eagerCheckout (insertInOutage ++ callNext)).world.1.sessions =
        (eagerCheckout insertInOutage).world.1.sessions ∧
      ∃ later, (eagerCheckout (insertInOutage ++ callNext)).hist =
          (eagerCheckout insertInOutage).hist ++ later ∧ ∀ e ∈ later, TurnedAway e.step := by
  obtain ⟨trip, ⟨id, g, r, hmem, -⟩, h⟩ := stripe_shielded (reference breakerSettings)
    (.sample .binary) (.fresh [.named (bytes "m")]) 0
    [.create (.mode false) (.card (.named (bytes "m")) (bytes "o") 100)]
    (documented_reference breakerSettings) insertInOutage (by decide +kernel)
  have htimes : ∀ e ∈ (eagerCheckout insertInOutage).world.2.log, 0 ≤ e.time := by decide +kernel
  have hpos : 0 ≤ trip := htimes _ hmem
  have hnow : (eagerCheckout (insertInOutage ++ callNext)).world.2.now ≤ 30000000000 := by
    decide +kernel
  have hle : (0 : Int) + 30000000000 ≤ trip + 30000000000 := Int.add_le_add_right hpos _
  unfold eagerCheckout at hnow ⊢
  exact h callNext (Int.le_trans hnow hle)

end EasyPay
