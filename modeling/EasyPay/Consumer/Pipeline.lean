import EasyPay.Api.Auth
import EasyPay.Consumer.SettlementConsumer
import EasyPay.Lib.CommitLog
import EasyPay.Lib.Interp
import EasyPay.Lib.PortSum

/-!
# From the topic to the merchant

The batch consumer with the settlement consumer for its handler, several of them on one topic.  A
consumer may stop anywhere, and another take its partitions over and start at the offsets that are
committed; they may also run side by side for a while, each with its own position.

* `run_orderly`: what a batch consumer holds, hands over and commits.
* `committed_settled`: whatever consumers come and go, every message below a committed offset has met its
  fate with one of them, which is in its calls: the merchant was told, or why not.
* `run_truthful`: every callback is for a message of the topic, and goes to the merchant of its event;
  `verify_callback`: it verifies under the secret of the merchant.
-/

namespace EasyPay

open GoStrings Ports

/-! ## What a batch consumer holds -/

namespace BatchConsumer

/-- A fetch that fails drops what was fetched, unless it ran into the deadline of the batch. -/
def holdStep (out : List Message) : Prog.Step consumerPort → List Message
  | ⟨.fetchMessage _, .ok m⟩ => out ++ [m]
  | ⟨.fetchMessage _, .error err⟩ => if err = .deadlineExceeded then out else []
  | ⟨.commitMessages _, _⟩ => []
  | _ => out

/-- The messages that were fetched and not committed or dropped. -/
def holding (t : Handlings) : List Message := t.foldl holdStep []

theorem holding_concat (t : Handlings) (x : Prog.Step consumerPort) :
    holding (t ++ [x]) = holdStep (holding t) x := List.foldl_concat ..

/-- The message was handled, on its own or in a batch, or was sent to the dead-letter topic. -/
def Tried (t : Handlings) (m : Message) : Prop :=
  (∃ msgs, m ∈ msgs ∧ (ConsumerOp.handle msgs).gave (.ok ()) ∈ t) ∨
    (ConsumerOp.handleOne m).gave (.ok ()) ∈ t ∨
    ∃ cause a, (ConsumerOp.writeMessages m.key (marshalForDLQ m cause)).gave a ∈ t

theorem Tried.mono {t t' : Handlings} {m : Message} (h : Tried t m) (ht : t <+: t') : Tried t' m := by
  rcases h with ⟨msgs, hm, h⟩ | h | ⟨cause, a, h⟩
  · exact .inl ⟨msgs, hm, ht.subset h⟩
  · exact .inr (.inl (ht.subset h))
  · exact .inr (.inr ⟨cause, a, ht.subset h⟩)

/-- What is handed over and committed is what is held. -/
def Orderly (t : Handlings) : ConsumerOp → Prop
  | .handle msgs => msgs = holding t
  | .handleOne m => m ∈ holding t
  | .writeMessages key value => ∃ m ∈ holding t, ∃ cause, key = m.key ∧ value = marshalForDLQ m cause
  | .commitMessages msgs => msgs = holding t ∧ ∀ m ∈ msgs, Tried t m
  | _ => True

theorem fetchMore_orderly (n : Nat) {out : List Message} {t : Handlings} (h : holding t = out) :
    Prog.Meets (P := consumerPort) Orderly
      (fun t' r => holding t' = if r.2 = none then r.1 else []) (fetchMore n out) t := by
  induction n generalizing out t with
  | zero => exact h
  | succ n ih =>
    unfold fetchMore
    refine Consuming.meets_ask trivial fun a => ?_
    cases a with
    | ok msg =>
      refine ih ?_
      rw [holding_concat, h]
      rfl
    | error err =>
      have hheld : holding (t ++ [(ConsumerOp.fetchMessage (!out.isEmpty)).gave (.error err)]) =
          if err = .deadlineExceeded then out else [] := by
        rw [holding_concat, h]
        rfl
      simp only
      split
      · next hdeadline =>
        refine hheld.trans ?_
        rw [if_pos hdeadline.1]
        rfl
      · next hother =>
        refine hheld.trans ?_
        by_cases hd : err = .deadlineExceeded
        · have hempty : out = [] := by
            have : ¬ out.isEmpty = false := fun hf => hother ⟨hd, hf⟩
            simpa using this
          rw [if_pos hd, hempty]
          rfl
        · rw [if_neg hd]
          rfl

theorem fallback_orderly (msgs : List Message) {t : Handlings} (h : ∀ m ∈ msgs, m ∈ holding t) :
    Prog.Meets (P := consumerPort) Orderly
      (fun t' _ => holding t' = holding t ∧ t <+: t' ∧ ∀ m ∈ msgs, Tried t' m) (fallback msgs) t := by
  induction msgs generalizing t with
  | nil => exact ⟨rfl, List.prefix_rfl, by simp⟩
  | cons m msgs ih =>
    -- the calls `u` for the first message leave what is held alone
    have hrest : ∀ u : Handlings, holding (t ++ u) = holding t → Tried (t ++ u) m →
        Prog.Meets (P := consumerPort) Orderly
          (fun t' _ => holding t' = holding t ∧ t <+: t' ∧ ∀ m' ∈ m :: msgs, Tried t' m')
          (fallback msgs) (t ++ u) := by
      intro u hheld hfirst
      refine (ih (t := t ++ u) fun m' hm' => ?_).imp ?_
      · rw [hheld]
        exact h m' (List.mem_cons_of_mem _ hm')
      · rintro t' - ⟨hheld', hpre, hall⟩
        refine ⟨hheld'.trans hheld, (List.prefix_append t u).trans hpre, fun m' hm' => ?_⟩
        rcases List.mem_cons.mp hm' with rfl | hm'
        · exact hfirst.mono hpre
        · exact hall m' hm'
    unfold fallback
    refine Consuming.meets_ask (h m List.mem_cons_self) fun a => ?_
    cases a with
    | ok u =>
      refine hrest [(ConsumerOp.handleOne m).gave (.ok u)] ?_ ?_
      · rw [holding_concat]
        rfl
      · exact .inr (.inl (List.mem_append_right _ List.mem_cons_self))
    | error err =>
      have hone : holding (t ++ [(ConsumerOp.handleOne m).gave (.error err)]) = holding t := by
        rw [holding_concat]
        rfl
      refine Consuming.meets_ask ?_ fun a => ?_
      · refine ⟨m, ?_, err, rfl, rfl⟩
        rw [hone]
        exact h m List.mem_cons_self
      · have := hrest [(ConsumerOp.handleOne m).gave (.error err),
          (ConsumerOp.writeMessages m.key (marshalForDLQ m err)).gave a] ?_ ?_
        · rwa [List.append_assoc]
        · rw [List.append_cons, holding_concat, hone]
          rfl
        · exact .inr (.inr ⟨err, a, by simp⟩)

theorem handleBatch_orderly {msgs : List Message} {t : Handlings} (h : holding t = msgs) :
    Prog.Meets (P := consumerPort) Orderly (fun t' _ => holding t' = []) (handleBatch msgs) t := by
  have hcommit : ∀ (t' : Handlings) (a : Res Unit),
      holding (t' ++ [(ConsumerOp.commitMessages msgs).gave a]) = [] := by
    intro t' a
    rw [holding_concat]
    rfl
  have hheld : ∀ a, holding (t ++ [(ConsumerOp.handle msgs).gave a]) = msgs := by
    intro a
    rw [holding_concat, h]
    rfl
  unfold handleBatch
  refine Consuming.meets_ask h.symm fun a => ?_
  cases a with
  | ok u =>
    refine Consuming.meets_ask ⟨(hheld _).symm, fun m hm => ?_⟩ fun a => hcommit _ a
    exact .inl ⟨msgs, hm, List.mem_append_right _ List.mem_cons_self⟩
  | error err =>
    refine Prog.meets_bind (fallback_orderly msgs fun m hm => ?_) ?_
    · rw [hheld]
      exact hm
    · rintro t' - ⟨hheld', -, hall⟩
      exact Consuming.meets_ask ⟨((hheld'.trans (hheld _))).symm, hall⟩ fun a => hcommit _ a

/-- **A batch consumer** hands over what it holds, and commits what it has tried. -/
theorem run_orderly (c : BatchConsumer) (rounds : Nat) {t : Handlings} (h : holding t = []) :
    Prog.Meets (P := consumerPort) Orderly (fun _ _ => True) (c.run rounds) t := by
  induction rounds generalizing t with
  | zero => trivial
  | succ rounds ih =>
    unfold run
    refine Consuming.meets_ask trivial fun a => ?_
    cases a with
    | some err => trivial
    | none =>
      have hheld : holding (t ++ [ConsumerOp.ctxErr.gave none]) = [] := by
        rw [holding_concat, h]
        rfl
      refine Prog.meets_bind (fetchMore_orderly c.batchSize hheld) ?_
      rintro t' ⟨msgs, _ | _ | _ | err⟩ hr
      · simp only
        split
        · next hempty => exact ih (hr.trans hempty)
        · exact Prog.meets_bind (handleBatch_orderly hr) fun t'' _ hdone => ih hdone
      · trivial
      · trivial
      · exact ih hr

end BatchConsumer

/-! ## What an acknowledged message has led to -/

namespace SettlementConsumer

variable (s : SettlementConsumer)

/-- Why a message was acknowledged. -/
inductive Acknowledged (m : Message) (t : Attempts) : Prop
  /-- The merchant has answered the POST of the event with a 2xx status. -/
  | told {ev : PaymentConfirmedEvent} {M : Merchant} {body : Str} {now : Time}
      {resp : CallbackResponse} : s.unmarshal m.value = .ok ev →
      (SettlementOp.getByMerchantID ev.merchantID).gave (.ok M) ∈ t → s.marshal ev = .ok body →
      (SettlementOp.post (s.callback ⟨M.callbackURL, M.secretKey⟩ now body)).gave (.ok resp) ∈ t →
      resp.redirected = false → 200 ≤ resp.statusCode → resp.statusCode < 300 → Acknowledged m t
  /-- The POST was redirected, and a 2xx status met in following that. -/
  | redirected {ev : PaymentConfirmedEvent} {M : Merchant} {body : Str} {now : Time}
      {resp : CallbackResponse} : s.unmarshal m.value = .ok ev →
      (SettlementOp.getByMerchantID ev.merchantID).gave (.ok M) ∈ t → s.marshal ev = .ok body →
      (SettlementOp.post (s.callback ⟨M.callbackURL, M.secretKey⟩ now body)).gave (.ok resp) ∈ t →
      resp.redirected = true → 200 ≤ resp.statusCode → resp.statusCode < 300 → Acknowledged m t
  /-- The merchant has no callback URL. -/
  | noURL {ev : PaymentConfirmedEvent} {M : Merchant} : s.unmarshal m.value = .ok ev →
      (SettlementOp.getByMerchantID ev.merchantID).gave (.ok M) ∈ t → M.callbackURL = [] →
      Acknowledged m t
  /-- The query for the merchant has failed, or has found none. -/
  | lookupFailed {ev : PaymentConfirmedEvent} {err : Err} : s.unmarshal m.value = .ok ev →
      (SettlementOp.getByMerchantID ev.merchantID).gave (.error err) ∈ t → Acknowledged m t

/-- A POST is one for the event of the message. -/
def PostsFor (m : Message) (t : Attempts) (o : SettlementOp) : Prop :=
  ∀ req, o = .post req → ∃ ev M now body, s.unmarshal m.value = .ok ev ∧
    (SettlementOp.getByMerchantID ev.merchantID).gave (.ok M) ∈ t ∧ s.marshal ev = .ok body ∧
    req = s.callback ⟨M.callbackURL, M.secretKey⟩ now body

theorem Settling.meets_call {β : Type} {I : Attempts → SettlementOp → Prop} {R : Attempts → β → Prop}
    {o : SettlementOp} {f : o.Ans → Settling β} {t : Attempts} (ho : I t o)
    (hf : ∀ a, Prog.Meets (P := settlementPort) I R (f a) (t ++ [o.gave a])) :
    Prog.Meets (P := settlementPort) I R (Settling.ask o >>= f) t :=
  Prog.meets_perform (P := settlementPort) ho hf

theorem sendOnce_posts {I : Attempts → SettlementOp → Prop} {cb : MerchantCallback} {body : Str}
    {t : Attempts} (hquiet : ∀ t' o, (∀ req, o ≠ .post req) → I t' o)
    (hpost : ∀ t' now, t <+: t' → I t' (.post (s.callback cb now body))) :
    Prog.Meets (P := settlementPort) I (fun t' r => r = .ok () → ∃ now resp,
      (SettlementOp.post (s.callback cb now body)).gave (.ok resp) ∈ t' ∧ 200 ≤ resp.statusCode ∧
        resp.statusCode < 300)
      (s.sendOnce cb.url cb.secret body) t := by
  unfold sendOnce
  refine Settling.meets_call (hquiet _ _ fun _ h => by cases h) fun now => ?_
  simp only
  cases s.requestError cb.url with
  | some err => exact fun h => by cases h
  | none =>
    refine Settling.meets_call (hpost _ now (List.prefix_append _ _)) fun a => ?_
    cases a with
    | error err => exact fun h => by cases h
    | ok resp =>
      simp only
      split
      · exact fun h => by cases h
      · next hstatus =>
        refine fun _ => ⟨now, resp, List.mem_append_right _ List.mem_cons_self, ?_⟩
        omega

theorem attempts_posts {I : Attempts → SettlementOp → Prop} {cb : MerchantCallback} {body : Str}
    (left attempt : Nat) (err : Err) {t : Attempts}
    (hquiet : ∀ t' o, (∀ req, o ≠ .post req) → I t' o)
    (hpost : ∀ t' now, t <+: t' → I t' (.post (s.callback cb now body))) :
    Prog.Meets (P := settlementPort) I (fun t' r => r = .ok () → ∃ now resp,
      (SettlementOp.post (s.callback cb now body)).gave (.ok resp) ∈ t' ∧ 200 ≤ resp.statusCode ∧
        resp.statusCode < 300)
      (s.attempts cb body left attempt err) t := by
  induction left generalizing attempt err t with
  | zero => exact fun h => by cases h
  | succ left ih =>
    unfold attempts
    refine Prog.meets_bind (s.sendOnce_posts hquiet hpost).extend ?_
    rintro t₁ (err' | _) ⟨hpre, hsent⟩
    · refine Settling.meets_call (hquiet _ _ fun _ h => by cases h) fun a => ?_
      cases a with
      | some ctxErr => exact fun h => by cases h
      | none =>
        exact ih (attempt + 1) err' fun t' now ht => hpost t' now
          ((hpre.trans (List.prefix_append _ _)).trans ht)
    · exact hsent

/-- **One message.** -/
theorem handleOne_acknowledges (m : Message) (t : Attempts) :
    Prog.Meets (P := settlementPort) (s.PostsFor m) (fun t' r => r = .ok () → s.Acknowledged m t')
      (s.handleOne m) t := by
  have hquiet : ∀ t' o, (∀ req, o ≠ .post req) → s.PostsFor m t' o :=
    fun t' o ho req h => absurd h (ho req)
  unfold handleOne
  cases hev : s.unmarshal m.value with
  | error err => exact fun h => by cases h
  | ok ev =>
    refine Settling.meets_call (hquiet _ _ fun _ h => by cases h) fun a => ?_
    have hasked : (SettlementOp.getByMerchantID ev.merchantID).gave a ∈
        t ++ [(SettlementOp.getByMerchantID ev.merchantID).gave a] :=
      List.mem_append_right _ List.mem_cons_self
    cases a with
    | error err => exact fun _ => .lookupFailed hev hasked
    | ok M =>
      show Prog.Meets (P := settlementPort) _ _ (if M.callbackURL = [] then _ else _) _
      split
      · next hurl => exact fun _ => .noURL hev hasked hurl
      split
      · exact fun h => by cases h
      cases hbody : s.marshal ev with
      | error err => exact fun h => by cases h
      | ok body =>
        have hpost : ∀ t' now, t ++ [(SettlementOp.getByMerchantID ev.merchantID).gave (.ok M)] <+: t' →
            s.PostsFor m t' (.post (s.callback ⟨M.callbackURL, M.secretKey⟩ now body)) := by
          rintro t' now hpre req ⟨⟩
          exact ⟨ev, M, now, body, hev, hpre.subset hasked, hbody, rfl⟩
        refine (s.attempts_posts _ 1 nilError hquiet hpost).extend.imp ?_
        rintro t' r ⟨hpre, hsent⟩ hr
        obtain ⟨now, resp, hmem, hle, hlt⟩ := hsent hr
        cases hfollowed : resp.redirected with
        | false => exact .told hev (hpre.subset hasked) hbody hmem hfollowed hle hlt
        | true => exact .redirected hev (hpre.subset hasked) hbody hmem hfollowed hle hlt

theorem Acknowledged.mono {s : SettlementConsumer} {m : Message} {t t' : Attempts}
    (h : s.Acknowledged m t) (ht : t ⊆ t') : s.Acknowledged m t' := by
  cases h with
  | told hev hasked hbody hmem hown hle hlt =>
    exact .told hev (ht hasked) hbody (ht hmem) hown hle hlt
  | redirected hev hasked hbody hmem hfollowed hle hlt =>
    exact .redirected hev (ht hasked) hbody (ht hmem) hfollowed hle hlt
  | noURL hev hasked hurl => exact .noURL hev (ht hasked) hurl
  | lookupFailed hev hasked => exact .lookupFailed hev (ht hasked)

/-- **A batch.** -/
theorem handle_acknowledges (msgs : List Message) (t : Attempts) :
    Prog.Meets (P := settlementPort) (fun t o => ∀ req, o = .post req → ∃ m ∈ msgs, s.PostsFor m t o)
      (fun t' r => r = .ok () → ∀ m ∈ msgs, s.Acknowledged m t') (s.handle msgs) t := by
  induction msgs generalizing t with
  | nil => exact fun _ m hm => by cases hm
  | cons m msgs ih =>
    unfold handle
    refine Prog.meets_bind ((s.handleOne_acknowledges m t).weaken fun t o h req _ =>
      ⟨m, List.mem_cons_self, h⟩) ?_
    rintro t₁ (err | u) hone
    · exact fun h => by cases h
    · refine ((ih t₁).extend.imp ?_).weaken fun t o h req hreq => ?_
      · rintro t' r ⟨hpre, hall⟩ hr m' hm'
        rcases List.mem_cons.mp hm' with rfl | hm'
        · exact (hone rfl).mono hpre.subset
        · exact hall hr m' hm'
      · obtain ⟨m', hm', h⟩ := h req hreq
        exact ⟨m', List.mem_cons_of_mem _ hm', h⟩

end SettlementConsumer

/-! ## Consumers on a topic -/

/-- The calls of a consumer that go to the broker, and what else happens at the broker: a message is
published, a reader is given its partitions, or is given them again. -/
inductive BrokerOp
  | ctxErr
  | fetchMessage (reader : Nat) (withDeadline : Bool)
  | writeMessages (key : Str) (value : DLQEnvelope)
  | commitMessages (msgs : List Message)
  | publish (partition : Int) (key value : Str)
  | assign (reader : Nat)

@[reducible] def BrokerOp.Ans : BrokerOp → Type
  | ctxErr => Option Err
  | fetchMessage _ _ => Except FetchErr Message
  | writeMessages _ _ => Res Unit
  | commitMessages _ => Res Unit
  | publish _ _ _ => Res Unit
  | assign _ => Unit

abbrev brokerPort : Port := ⟨BrokerOp, BrokerOp.Ans⟩

abbrev pipelinePort : Port := settlementPort.sum brokerPort

abbrev Piping (α : Type) := Prog pipelinePort α

/-- A call to the broker. -/
def Piping.ask (o : BrokerOp) : Piping o.Ans := Prog.perform (P := pipelinePort) (.inr o)

/-- The calls made so far, with their answers. -/
abbrev Pipings := List (Prog.Step pipelinePort)

/-- A call to the broker, and its answer. -/
def BrokerOp.gave (o : BrokerOp) (a : o.Ans) : Prog.Step pipelinePort := ⟨.inr o, a⟩

/-- The place of a message in its topic. -/
def Message.slot (m : Message) : Int × Nat := (m.partition, m.offset.toInt.toNat)

namespace Pipeline

/-- The interfaces of a batch consumer: its reader and writer are the broker's, its handler is the
settlement consumer. -/
def deliver (reader : Nat) (s : SettlementConsumer) : (o : ConsumerOp) → Piping o.Ans
  | .ctxErr => Piping.ask .ctxErr
  | .fetchMessage withDeadline => Piping.ask (.fetchMessage reader withDeadline)
  | .handle msgs => Prog.inl (s.handle msgs)
  | .handleOne m => Prog.inl (s.handleOne m)
  | .writeMessages key value => Piping.ask (.writeMessages key value)
  | .commitMessages msgs => Piping.ask (.commitMessages msgs)

/-- A participant: a consumer, which runs for some rounds; the publisher of a message; the coordinator
of the group when it gives a reader the partitions. -/
inductive Participant
  | consumer (c : BatchConsumer) (rounds : Nat)
  | publisher (partition : Int) (key value : Str)
  | coordinator (reader : Nat)

/-- The program of the `i`-th participant; it is the reader of that number. -/
def Participant.prog (s : SettlementConsumer) (i : Nat) : Participant → Piping (Option (Res Unit))
  | .consumer c rounds => (c.run rounds).interp (deliver i s)
  | .publisher partition key value => do
    let r ← Piping.ask (.publish partition key value)
    return some r
  | .coordinator reader => do
    Piping.ask (.assign reader)
    return none

/-- A topic: its messages by partition, the offsets of the group, the position of each reader in each
partition, and the merchants. -/
structure Topic where
  name : Str
  log : Int → List Message
  committed : Int → Nat
  position : Nat → Int → Nat
  deadLetters : List DLQEnvelope
  merchants : List Merchant

/-- What the environment decides about one call. -/
structure Turn where
  /-- The context has ended. -/
  ended : Option Err := none
  /-- The partition the next message comes from, or what fetching fails with. -/
  fetch : Except FetchErr Int := .ok 0
  /-- A write or a commit fails. -/
  fault : Option Err := none
  /-- A failed commit has reached the broker, only its answer got lost. -/
  reached : Bool := false
  query : Option Fault := none
  now : Time := 1
  response : Res CallbackResponse := .ok ⟨200, false⟩

namespace Topic

variable (w : Topic)

/-- A new message gets the next offset, as long as there is one. -/
def append (p : Int) (key value : Str) : Topic :=
  if (w.log p).length < 2 ^ 63 then
    { w with log := Function.update w.log p (w.log p ++
        [⟨w.name, p, Int64.ofNat (w.log p).length, key, value⟩]) }
  else w

/-- `CommitMessages` commits the offset after the last message of each partition. -/
def commit (msgs : List Message) : Topic :=
  { w with committed := fun p =>
      (((msgs.filter fun m => m.partition = p).map fun m => m.slot.2 + 1).max?).getD (w.committed p) }

/-- The next message of a partition, if there is one. -/
def next (r : Nat) (p : Int) : Except FetchErr Message × Topic :=
  match (w.log p)[w.position r p]? with
  | none => (.error .deadlineExceeded, w)
  | some m =>
    (.ok m, { w with
      position := Function.update w.position r (Function.update (w.position r) p (w.position r p + 1)) })

end Topic

/-- The effect of one call.  Which partition a reader reads next is up to the environment, so that two
readers may have the same one. -/
def exec (C : Collation) : (o : pipelinePort.Op) → Turn → Topic → pipelinePort.Ans o × Topic
  | .inl (.getByMerchantID m), c, w => (getMerchant C c.query m w.merchants, w)
  | .inl .timeNow, c, w => (c.now, w)
  | .inl (.post _), c, w => (c.response, w)
  | .inl (.wait _), c, w => (c.ended, w)
  | .inr .ctxErr, c, w => (c.ended, w)
  | .inr (.fetchMessage r _), c, w =>
    match c.fetch with
    | .error err => (.error err, w)
    | .ok p => w.next r p
  | .inr (.writeMessages _ value), c, w =>
    match c.fault with
    | some err => (.error err, w)
    | none => (.ok (), { w with deadLetters := w.deadLetters ++ [value] })
  | .inr (.commitMessages msgs), c, w =>
    match c.fault with
    | some err => (.error err, if c.reached then w.commit msgs else w)
    | none => (.ok (), w.commit msgs)
  | .inr (.publish p key value), c, w =>
    match c.fault with
    | some err => (.error err, if c.reached then w.append p key value else w)
    | none => (.ok (), w.append p key value)
  | .inr (.assign r), _, w => ((), { w with position := Function.update w.position r w.committed })

/-- A topic without messages. -/
def Topic.fresh (name : Str) (merchants : List Merchant) : Topic :=
  ⟨name, fun _ => [], fun _ => 0, fun _ _ => 0, [], merchants⟩

abbrev Flow := Sys pipelinePort Topic Turn (Option (Res Unit))

/-- The state after the schedule `xs`. -/
def run (C : Collation) (s : SettlementConsumer) (w : Topic) (ps : List Participant)
    (xs : List (Nat × Turn)) : Flow :=
  Sys.run (exec C) (Sys.start w (ps.mapIdx fun i a => a.prog s i)) xs

/-! ## What a consumer has done -/

/-- The calls of the settlement consumer among those of a participant. -/
def settlings (T : Pipings) : Attempts := T.filterMap fun
  | ⟨.inl o, a⟩ => some (SettlementOp.gave o a)
  | ⟨.inr _, _⟩ => none

/-- `BatchConsumer.holdStep`, seen from the broker. -/
def holdStep (out : List Message) : Prog.Step pipelinePort → List Message
  | ⟨.inr (.fetchMessage _ _), .ok m⟩ => out ++ [m]
  | ⟨.inr (.fetchMessage _ _), .error err⟩ => if err = .deadlineExceeded then out else []
  | ⟨.inr (.commitMessages _), _⟩ => []
  | _ => out

/-- The messages a participant holds. -/
def holding (T : Pipings) : List Message := T.foldl holdStep []

/-- What has become of a message: it was acknowledged; it is on the dead-letter topic; it was to be there,
but the write failed; it was dropped when a later fetch failed. -/
inductive Fate (s : SettlementConsumer) (T : Pipings) (m : Message) : Prop
  | acknowledged : s.Acknowledged m (settlings T) → Fate s T m
  | deadLettered (cause : Err) :
      (BrokerOp.writeMessages m.key (marshalForDLQ m cause)).gave (.ok ()) ∈ T → Fate s T m
  | unwritten (cause err : Err) :
      (BrokerOp.writeMessages m.key (marshalForDLQ m cause)).gave (.error err) ∈ T → Fate s T m
  | dropped (T₁ T₂ : Pipings) (r : Nat) (d : Bool) (err : FetchErr) :
      T = T₁ ++ (BrokerOp.fetchMessage r d).gave (.error err) :: T₂ → m ∈ holding T₁ →
      err ≠ .deadlineExceeded → Fate s T m

section
variable {s : SettlementConsumer} {T T' : Pipings} {m : Message}

theorem holding_concat (T : Pipings) (x : Prog.Step pipelinePort) :
    holding (T ++ [x]) = holdStep (holding T) x := List.foldl_concat ..

theorem settlings_append (T T' : Pipings) : settlings (T ++ T') = settlings T ++ settlings T' :=
  List.filterMap_append

theorem settlings_map_inl (t : Attempts) :
    settlings (t.map (Prog.Step.inl (Q := brokerPort))) = t := by
  induction t with
  | nil => rfl
  | cons x t ih => exact congrArg (x :: ·) ih

theorem foldl_map_inl (t : Attempts) (out : List Message) :
    (t.map (Prog.Step.inl (Q := brokerPort))).foldl holdStep out = out := by
  induction t with
  | nil => rfl
  | cons x t ih => exact ih

theorem settlings_subset (h : T ⊆ T') : settlings T ⊆ settlings T' := by
  intro x hx
  obtain ⟨y, hy, hyx⟩ := List.mem_filterMap.mp hx
  exact List.mem_filterMap.mpr ⟨y, h hy, hyx⟩

theorem Fate.mono (h : Fate s T m) (hT : T <+: T') : Fate s T' m := by
  cases h with
  | acknowledged h => exact .acknowledged (h.mono (settlings_subset hT.subset))
  | deadLettered cause h => exact .deadLettered cause (hT.subset h)
  | unwritten cause err h => exact .unwritten cause err (hT.subset h)
  | dropped T₁ T₂ r d err hT₁ hm herr =>
    obtain ⟨U, rfl⟩ := hT
    subst hT₁
    exact .dropped T₁ (T₂ ++ U) r d err (by simp) hm herr

/-! ### The handler carried out -/

theorem runs_ask {o : BrokerOp} {u : Pipings} {a : o.Ans}
    (h : Prog.Runs (Piping.ask o) u (.ret a)) : u = [o.gave a] := by
  rcases Prog.runs_call.mp h with ⟨-, hq⟩ | ⟨b, t, rfl, hret⟩
  · cases hq
  · obtain ⟨rfl, hq⟩ := Prog.runs_ret.mp hret
    cases hq
    rfl

theorem runs_ask_call {o : BrokerOp} {u : Pipings} {o' : pipelinePort.Op}
    {k : pipelinePort.Ans o' → Piping o.Ans} (h : Prog.Runs (Piping.ask o) u (.call o' k)) :
    u = [] ∧ o' = .inr o := by
  rcases Prog.runs_call.mp h with ⟨rfl, hq⟩ | ⟨b, t, rfl, hret⟩
  · cases hq
    exact ⟨rfl, rfl⟩
  · obtain ⟨-, hq⟩ := Prog.runs_ret.mp hret
    cases hq

theorem runs_handler {α : Type} {p : Settling α} {u : Pipings} {a : α}
    (h : Prog.Runs (Prog.inl (Q := brokerPort) p) u (.ret a)) :
    ∃ t, u = t.map Prog.Step.inl ∧ Prog.Runs p t (.ret a) := by
  obtain ⟨t, q, rfl, hq, hr⟩ := Prog.runs_inl h
  cases q with
  | call o k => cases hq
  | ret b =>
    cases hq
    exact ⟨t, rfl, hr⟩

/-- What is held can be read off either way. -/
theorem holding_carried {i : Nat} {t : Handlings} (h : Prog.Carried (deliver i s) t T) :
    holding T = BatchConsumer.holding t := by
  refine h.foldl_eq (g := BatchConsumer.holdStep) (G := holdStep) ?_ []
  intro out o a u hr
  cases o with
  | ctxErr =>
    rw [runs_ask hr]
    rfl
  | fetchMessage d =>
    rw [runs_ask hr]
    cases a with
    | ok m => rfl
    | error err => rfl
  | handle msgs =>
    obtain ⟨t', rfl, -⟩ := runs_handler hr
    exact foldl_map_inl t' out
  | handleOne m =>
    obtain ⟨t', rfl, -⟩ := runs_handler hr
    exact foldl_map_inl t' out
  | writeMessages key value =>
    rw [runs_ask hr]
    rfl
  | commitMessages msgs =>
    rw [runs_ask hr]
    rfl

/-- What has been tried has had an outcome. -/
theorem fate_of_tried {i : Nat} {t : Handlings} (h : Prog.Carried (deliver i s) t T)
    (htried : BatchConsumer.Tried t m) : Fate s T m := by
  have hack : ∀ (u : Attempts), u.map (Prog.Step.inl (Q := brokerPort)) ⊆ T → s.Acknowledged m u →
      Fate s T m := by
    intro u hsub hack
    refine .acknowledged (hack.mono ?_)
    have hsettled := settlings_subset hsub
    rwa [settlings_map_inl] at hsettled
  rcases htried with ⟨msgs, hm, hmem⟩ | hmem | ⟨cause, a, hmem⟩
  · obtain ⟨u, hr, hsub⟩ := h.exists_runs hmem
    obtain ⟨u', rfl, hr'⟩ := runs_handler hr
    exact hack u' hsub ((s.handle_acknowledges msgs []).ret hr' rfl m hm)
  · obtain ⟨u, hr, hsub⟩ := h.exists_runs hmem
    obtain ⟨u', rfl, hr'⟩ := runs_handler hr
    exact hack u' hsub ((s.handleOne_acknowledges m []).ret hr' rfl)
  · obtain ⟨u, hr, hsub⟩ := h.exists_runs hmem
    rw [runs_ask hr] at hsub
    have hmem := hsub List.mem_cons_self
    cases a with
    | ok _ => exact .deadLettered cause hmem
    | error err => exact .unwritten cause err hmem

end

/-- The calls of a consumer, after the calls `T`. -/
inductive ConsumerCall (s : SettlementConsumer) (i : Nat) (T : Pipings) : pipelinePort.Op → Prop
  | ctxErr : ConsumerCall s i T (.inr .ctxErr)
  | fetch (d : Bool) : ConsumerCall s i T (.inr (.fetchMessage i d))
  | deadLetter (key : Str) (value : DLQEnvelope) : ConsumerCall s i T (.inr (.writeMessages key value))
  | commit : (∀ m ∈ holding T, Fate s T m) → ConsumerCall s i T (.inr (.commitMessages (holding T)))
  | handle {o : SettlementOp} :
      (∀ req, o = .post req → ∃ m ∈ holding T, s.PostsFor m (settlings T) o) →
      ConsumerCall s i T (.inl o)

/-- **The calls of a consumer.** -/
theorem consumer_next {s : SettlementConsumer} {i : Nat} {c : BatchConsumer} {rounds : Nat} {T : Pipings}
    {o : pipelinePort.Op} {k : pipelinePort.Ans o → Piping (Option (Res Unit))}
    (h : Prog.Runs ((c.run rounds).interp (deliver i s)) T (.call o k)) : ConsumerCall s i T o := by
  rcases Prog.runs_interp h with ⟨t, a, -, -, hq⟩ | ⟨t, T₁, u, o₁, k₁, o', k', rfl, hc, hr, hu, hq⟩
  · cases hq
  cases hq
  have horderly := (BatchConsumer.run_orderly c rounds (t := []) rfl).call hr
  have hheld := holding_carried hc
  -- in the middle of a handler
  have hinside : ∀ (msgs : List Message) {p : Settling (Res Unit)}
      {k : pipelinePort.Ans o → Piping (Res Unit)}, (∀ m ∈ msgs, m ∈ holding T₁) →
      Prog.Runs (Prog.inl (Q := brokerPort) p) u (.call o k) →
      Prog.Meets (P := settlementPort)
        (fun t o => ∀ req, o = .post req → ∃ m ∈ msgs, s.PostsFor m t o) (fun _ _ => True) p
        (settlings T₁) → ConsumerCall s i (T₁ ++ u) o := by
    intro msgs p k hsub hu hmeets
    obtain ⟨u', q, rfl, hq, hp⟩ := Prog.runs_inl hu
    cases q with
    | ret a => cases hq
    | call op k'' =>
      cases hq
      refine .handle fun req hreq => ?_
      obtain ⟨m, hm, hposts⟩ := hmeets.call hp req hreq
      refine ⟨m, ?_, ?_⟩
      · unfold holding
        rw [List.foldl_append, foldl_map_inl]
        exact hsub m hm
      · rwa [settlings_append, settlings_map_inl]
  cases o₁ with
  | ctxErr =>
    obtain ⟨-, rfl⟩ := runs_ask_call hu
    exact .ctxErr
  | fetchMessage d =>
    obtain ⟨-, rfl⟩ := runs_ask_call hu
    exact .fetch d
  | handle msgs =>
    have hmsgs : msgs = BatchConsumer.holding t := horderly
    refine hinside msgs ?_ hu ((s.handle_acknowledges msgs _).imp fun _ _ _ => trivial)
    intro m hm
    rwa [hheld, ← hmsgs]
  | handleOne m =>
    have hm : m ∈ BatchConsumer.holding t := horderly
    refine hinside [m] ?_ hu (((s.handleOne_acknowledges m _).imp
      fun _ _ _ => trivial).weaken fun t o hposts req _ => ⟨m, List.mem_cons_self, hposts⟩)
    intro m' hm'
    rw [List.mem_singleton.mp hm', hheld]
    exact hm
  | writeMessages key value =>
    obtain ⟨-, rfl⟩ := runs_ask_call hu
    exact .deadLetter key value
  | commitMessages msgs =>
    obtain ⟨rfl, rfl⟩ := runs_ask_call hu
    obtain ⟨rfl, htried⟩ : msgs = BatchConsumer.holding t ∧ ∀ m ∈ msgs, BatchConsumer.Tried t m :=
      horderly
    rw [List.append_nil, ← hheld]
    refine .commit fun m hm => fate_of_tried hc (htried m ?_)
    rwa [← hheld]

/-- The calls of a participant. -/
theorem participant_next {s : SettlementConsumer} {i : Nat} {a : Participant} {T : Pipings}
    {o : pipelinePort.Op} {k : pipelinePort.Ans o → Piping (Option (Res Unit))}
    (h : Prog.Runs (a.prog s i) T (.call o k)) :
    ConsumerCall s i T o ∨
      (∃ p key value, a = .publisher p key value ∧ o = .inr (.publish p key value)) ∨
      ∃ r, o = .inr (.assign r) := by
  cases a with
  | consumer c rounds => exact .inl (consumer_next h)
  | publisher p key value =>
    obtain ⟨k', h⟩ := Prog.runs_map_call h
    exact .inr (.inl ⟨p, key, value, rfl, (runs_ask_call h).2⟩)
  | coordinator r =>
    rcases Prog.runs_call.mp h with ⟨-, hq⟩ | ⟨_, t, -, hret⟩
    · cases hq
      exact .inr (.inr ⟨r, rfl⟩)
    · obtain ⟨-, hq⟩ := Prog.runs_ret.mp hret
      cases hq

/-! ## The topic as a log with committed offsets -/

/-- Done are the messages that have met their fate with some participant. -/
def view (s : SettlementConsumer) (S : Flow) : CommitLog.State Int Nat where
  committed := S.world.committed
  position := S.world.position
  held r := (holding (callsOf r S.hist)).map Message.slot
  done := { x | ∃ m i, (S.world.log x.1)[x.2]? = some m ∧ Fate s (callsOf i S.hist) m }

/-- Messages know their place, and what is held is there. -/
structure Sound (S : Flow) : Prop where
  slots : ∀ p (n : Nat) m, (S.world.log p)[n]? = some m → m.slot = (p, n)
  held : ∀ i, ∀ m ∈ holding (callsOf i S.hist), (S.world.log m.slot.1)[m.slot.2]? = some m

theorem toNat_ofNat {n : Nat} (h : n < 2 ^ 63) : (Int64.ofNat n).toInt.toNat = n := by
  rw [Int64.toInt_ofNat_of_lt h]
  exact Int.toNat_natCast n

theorem Topic.log_append (w : Topic) (p : Int) (key value : Str) (q : Int) :
    (w.append p key value).log q = w.log q ∨ ((w.log p).length < 2 ^ 63 ∧ q = p ∧
      (w.append p key value).log q =
        w.log p ++ [⟨w.name, p, Int64.ofNat (w.log p).length, key, value⟩]) := by
  unfold Topic.append
  split
  · next hfits =>
    by_cases hq : q = p
    · subst hq
      exact .inr ⟨hfits, rfl, Function.update_self ..⟩
    · exact .inl (Function.update_of_ne hq ..)
  · exact .inl rfl

/-- What a call does to the log: nothing, unless it publishes. -/
theorem exec_log (C : Collation) (o : pipelinePort.Op) (c : Turn) (w : Topic) (q : Int) :
    (exec C o c w).2.log q = w.log q ∨ ∃ key value, o = .inr (.publish q key value) ∧
      (w.log q).length < 2 ^ 63 ∧ (exec C o c w).2.log q =
        w.log q ++ [⟨w.name, q, Int64.ofNat (w.log q).length, key, value⟩] := by
  cases o with
  | inl o => cases o <;> exact .inl rfl
  | inr o =>
    cases o with
    | ctxErr => exact .inl rfl
    | fetchMessage r d =>
      left
      show (match c.fetch with | .error err => _ | .ok p => w.next r p).2.log q = _
      cases c.fetch with
      | error err => rfl
      | ok p =>
        show (w.next r p).2.log q = _
        unfold Topic.next
        split <;> rfl
    | writeMessages key value =>
      left
      simp only [exec]
      split <;> rfl
    | commitMessages msgs =>
      left
      simp only [exec]
      split
      · split <;> rfl
      · rfl
    | publish p key value =>
      have happend : (w.append p key value).log q = w.log q ∨ ∃ key' value',
          (Sum.inr (.publish p key value) : pipelinePort.Op) = .inr (.publish q key' value') ∧
          (w.log q).length < 2 ^ 63 ∧ (w.append p key value).log q =
            w.log q ++ [⟨w.name, q, Int64.ofNat (w.log q).length, key', value'⟩] := by
        refine (w.log_append p key value q).imp_right ?_
        rintro ⟨hfits, rfl, h⟩
        exact ⟨key, value, rfl, hfits, h⟩
      simp only [exec]
      split
      · split
        · exact happend
        · exact .inl rfl
      · exact happend
    | assign r => exact .inl rfl

theorem exec_log_grows (C : Collation) (o : pipelinePort.Op) (c : Turn) (w : Topic) (q : Int) :
    w.log q <+: (exec C o c w).2.log q := by
  rcases exec_log C o c w q with h | ⟨key, value, -, -, h⟩
  · exact ⟨[], (List.append_nil _).trans h.symm⟩
  · exact ⟨_, h.symm⟩

/-- What a fetch does. -/
theorem exec_fetch (C : Collation) (r : Nat) (d : Bool) (c : Turn) (w : Topic) :
    (∃ err, exec C (.inr (.fetchMessage r d)) c w = (.error err, w)) ∨
      ∃ p m, (w.log p)[w.position r p]? = some m ∧ exec C (.inr (.fetchMessage r d)) c w =
        (.ok m, { w with
          position := Function.update w.position r
            (Function.update (w.position r) p (w.position r p + 1)) }) := by
  simp only [exec]
  cases c.fetch with
  | error err => exact .inl ⟨err, rfl⟩
  | ok p =>
    simp only
    unfold Topic.next
    split
    · exact .inl ⟨_, rfl⟩
    · next m hm => exact .inr ⟨p, m, hm, rfl⟩

/-- What a commit does. -/
theorem exec_commit (C : Collation) (msgs : List Message) (c : Turn) (w : Topic) :
    (exec C (.inr (.commitMessages msgs)) c w).2 = w ∨
      (exec C (.inr (.commitMessages msgs)) c w).2 = w.commit msgs := by
  simp only [exec]
  split
  · split
    · exact .inr rfl
    · exact .inl rfl
  · exact .inr rfl

/-- Publishing a message moves no offset. -/
theorem exec_publish (C : Collation) (p : Int) (key value : Str) (c : Turn) (w : Topic) :
    (exec C (.inr (.publish p key value)) c w).2.committed = w.committed ∧
      (exec C (.inr (.publish p key value)) c w).2.position = w.position := by
  have happend : (w.append p key value).committed = w.committed ∧
      (w.append p key value).position = w.position := by
    unfold Topic.append
    split
    · exact ⟨rfl, rfl⟩
    · exact ⟨rfl, rfl⟩
  simp only [exec]
  split
  · split
    · exact happend
    · exact ⟨rfl, rfl⟩
  · exact happend

theorem Topic.committed_commit (w : Topic) (msgs : List Message) (p : Int) :
    (w.commit msgs).committed p = w.committed p ∨
      ∃ m ∈ msgs, m.slot.1 = p ∧ (w.commit msgs).committed p = m.slot.2 + 1 := by
  unfold Topic.commit
  simp only
  cases hmax : ((msgs.filter fun m => m.partition = p).map fun m => m.slot.2 + 1).max? with
  | none => exact .inl rfl
  | some n =>
    obtain ⟨m, hm, rfl⟩ := List.mem_map.mp (List.max?_mem hmax)
    obtain ⟨hm, hp⟩ := List.mem_filter.mp hm
    exact .inr ⟨m, hm, of_decide_eq_true hp, rfl⟩

section
variable {C : Collation} {s : SettlementConsumer} {S : Flow} {i : Nat} {c : Turn}
  {o : pipelinePort.Op} {k : pipelinePort.Ans o → Piping (Option (Res Unit))}

theorem callsOf_after_ne {r : Nat} (hr : r ≠ i) :
    callsOf r (S.after (exec C) i c o k).hist = callsOf r S.hist :=
  callsOf_concat_ne S.hist ⟨i, c, o, (exec C o c S.world).1⟩ (Ne.symm hr)

theorem holding_after_ne {r : Nat} (hr : r ≠ i) :
    holding (callsOf r (S.after (exec C) i c o k).hist) = holding (callsOf r S.hist) := by
  rw [callsOf_after_ne hr]

theorem callsOf_after_self : callsOf i (S.after (exec C) i c o k).hist =
    callsOf i S.hist ++ [⟨o, (exec C o c S.world).1⟩] :=
  callsOf_concat_self S.hist ⟨i, c, o, (exec C o c S.world).1⟩

theorem holding_after_self : holding (callsOf i (S.after (exec C) i c o k).hist) =
    holdStep (holding (callsOf i S.hist)) ⟨o, (exec C o c S.world).1⟩ := by
  rw [callsOf_after_self, holding_concat]

theorem callsOf_after_grows (r : Nat) :
    callsOf r S.hist <+: callsOf r (S.after (exec C) i c o k).hist := by
  by_cases hr : r = i
  · subst hr
    exact ⟨_, callsOf_after_self.symm⟩
  · exact ⟨[], (List.append_nil _).trans (callsOf_after_ne hr).symm⟩

/-- The world and the messages held after a call, as a view. -/
theorem view_after : view s (S.after (exec C) i c o k) =
    { committed := (exec C o c S.world).2.committed
      position := (exec C o c S.world).2.position
      held := Function.update (view s S).held i
        ((holdStep (holding (callsOf i S.hist)) ⟨o, (exec C o c S.world).1⟩).map Message.slot)
      done := (view s (S.after (exec C) i c o k)).done } := by
  have hheld : (view s (S.after (exec C) i c o k)).held = Function.update (view s S).held i
      ((holdStep (holding (callsOf i S.hist)) ⟨o, (exec C o c S.world).1⟩).map Message.slot) := by
    funext r
    by_cases hr : r = i
    · subst hr
      rw [Function.update_self]
      exact congrArg (List.map Message.slot) holding_after_self
    · rw [Function.update_of_ne hr]
      exact congrArg (List.map Message.slot) (holding_after_ne hr)
  rw [← hheld]
  rfl

/-- What is done stays done. -/
theorem done_after : (view s S).done ⊆ (view s (S.after (exec C) i c o k)).done := by
  rintro x ⟨m, j, hm, hfate⟩
  refine ⟨m, j, ?_, hfate.mono (callsOf_after_grows j)⟩
  obtain ⟨t, ht⟩ := exec_log_grows C o c S.world x.1
  show ((exec C o c S.world).2.log x.1)[x.2]? = some m
  rw [← ht, List.getElem?_append_left (List.getElem?_eq_some_iff.mp hm).1]
  exact hm

/-- A message that is held and has met its fate is done. -/
theorem held_done (hS : Sound S)
    (h : ∀ m ∈ holding (callsOf i S.hist), Fate s (callsOf i (S.after (exec C) i c o k).hist) m) :
    ∀ x ∈ (view s S).held i, x ∈ (view s (S.after (exec C) i c o k)).done := by
  intro x hx
  obtain ⟨m, hm, rfl⟩ := List.mem_map.mp hx
  refine ⟨m, i, ?_, h m hm⟩
  obtain ⟨t, ht⟩ := exec_log_grows C o c S.world m.slot.1
  have hin := hS.held i m hm
  show ((exec C o c S.world).2.log m.slot.1)[m.slot.2]? = some m
  rw [← ht, List.getElem?_append_left (List.getElem?_eq_some_iff.mp hin).1]
  exact hin

theorem Sound.after (hS : Sound S) : Sound (S.after (exec C) i c o k) := by
  have hkept : ∀ (x : Int × Nat) m, (S.world.log x.1)[x.2]? = some m →
      ((exec C o c S.world).2.log x.1)[x.2]? = some m := by
    intro x m hm
    obtain ⟨t, ht⟩ := exec_log_grows C o c S.world x.1
    rw [← ht, List.getElem?_append_left (List.getElem?_eq_some_iff.mp hm).1]
    exact hm
  refine ⟨fun p n m hm => ?_, fun r m hm => ?_⟩
  · have hm : ((exec C o c S.world).2.log p)[n]? = some m := hm
    rcases exec_log C o c S.world p with h | ⟨key, value, -, hfits, h⟩
    · rw [h] at hm
      exact hS.slots p n m hm
    · rw [h, List.getElem?_append] at hm
      split at hm
      · exact hS.slots p n m hm
      · next hlen =>
        obtain ⟨hlt, hm⟩ := List.getElem?_eq_some_iff.mp hm
        rw [List.length_singleton] at hlt
        have hn : n = (S.world.log p).length := by omega
        subst hn
        rw [List.getElem_singleton] at hm
        rw [← hm]
        exact congrArg (Prod.mk p) (toNat_ofNat hfits)
  · by_cases hr : r = i
    · subst hr
      rw [holding_after_self] at hm
      cases o with
      | inl o => exact hkept _ _ (hS.held r m hm)
      | inr o =>
        cases o with
        | fetchMessage r' d =>
          rcases exec_fetch C r' d c S.world with ⟨err, he⟩ | ⟨p, m', hm', he⟩
          · rw [he] at hm
            have hm : m ∈ if err = .deadlineExceeded then holding (callsOf r S.hist) else [] := hm
            split at hm
            · exact hkept _ _ (hS.held r m hm)
            · cases hm
          · rw [he] at hm
            rcases List.mem_append.mp hm with hm | hm
            · exact hkept _ _ (hS.held r m hm)
            · rw [List.mem_singleton.mp hm]
              refine hkept _ _ ?_
              rw [hS.slots p _ m' hm']
              exact hm'
        | commitMessages msgs => cases hm
        | ctxErr => exact hkept _ _ (hS.held r m hm)
        | writeMessages key value => exact hkept _ _ (hS.held r m hm)
        | publish p key value => exact hkept _ _ (hS.held r m hm)
        | assign r' => exact hkept _ _ (hS.held r m hm)
    · rw [holding_after_ne hr] at hm
      exact hkept _ _ (hS.held r m hm)

/-- A call that leaves the offsets and what is held alone. -/
theorem steps_of_quiet (hcommitted : (exec C o c S.world).2.committed = S.world.committed)
    (hposition : (exec C o c S.world).2.position = S.world.position)
    (hheld : holdStep (holding (callsOf i S.hist)) ⟨o, (exec C o c S.world).1⟩ =
      holding (callsOf i S.hist)) :
    CommitLog.Steps (view s S) (view s (S.after (exec C) i c o k)) := by
  rw [view_after, hcommitted, hposition, hheld]
  have hsame : Function.update (view s S).held i
      ((holding (callsOf i S.hist)).map Message.slot) = (view s S).held := Function.update_eq_self ..
  rw [hsame]
  exact .single (.settle (view s S) done_after)

/-- **One call** of a participant is a few steps of the log. -/
theorem steps_of_call (hS : Sound S) {a : Participant}
    (hruns : Prog.Runs (a.prog s i) (callsOf i S.hist) (.call o k)) :
    CommitLog.Steps (view s S) (view s (S.after (exec C) i c o k)) := by
  have hsettle := CommitLog.Step.settle (view s S) (done_after (s := s) (C := C) (S := S) (i := i)
    (c := c) (o := o) (k := k))
  rcases participant_next hruns with hcall | ⟨p, key, value, -, rfl⟩ | ⟨r, rfl⟩
  · cases hcall with
    | ctxErr => exact steps_of_quiet rfl rfl rfl
    | deadLetter key value =>
      refine steps_of_quiet ?_ ?_ rfl
      · simp only [exec]
        split <;> rfl
      · simp only [exec]
        split <;> rfl
    | @handle o _ => cases o <;> exact steps_of_quiet rfl rfl rfl
    | fetch d =>
      rcases exec_fetch C i d c S.world with ⟨err, he⟩ | ⟨p, m, hm, he⟩
      · by_cases hdeadline : err = .deadlineExceeded
        · refine steps_of_quiet ?_ ?_ ?_
          · rw [he]
          · rw [he]
          · rw [he]
            exact if_pos hdeadline
        · -- what was held is dropped
          have hdropped := held_done (s := s) (C := C) (c := c) (k := k) (i := i) hS fun m hm =>
            .dropped _ [] i d err (by rw [callsOf_after_self, he]; rfl) hm hdeadline
          refine .tail (.single hsettle) ?_
          rw [view_after, he]
          have hnone : holdStep (holding (callsOf i S.hist))
              ⟨.inr (.fetchMessage i d), .error err⟩ = [] := if_neg hdeadline
          rw [hnone]
          exact .release _ i hdropped
      · refine .tail (.single hsettle) ?_
        rw [view_after, he]
        have hslot : (holdStep (holding (callsOf i S.hist))
            ⟨.inr (.fetchMessage i d), .ok m⟩).map Message.slot =
            (view s S).held i ++ [(p, S.world.position i p)] := by
          rw [← hS.slots p _ m hm]
          exact List.map_append
        rw [hslot]
        exact .fetch _ i p
    | commit hfate =>
      have hdone := held_done (s := s) (C := C) (c := c) (k := k) (i := i) hS fun m hm =>
        (hfate m hm).mono (callsOf_after_grows i)
      have hposition : (exec C (.inr (.commitMessages (holding (callsOf i S.hist)))) c
          S.world).2.position = S.world.position := by
        rcases exec_commit C (holding (callsOf i S.hist)) c S.world with h | h
        · rw [h]
        · rw [h]
          rfl
      have hcommitted : ∀ p, (exec C (.inr (.commitMessages (holding (callsOf i S.hist)))) c
            S.world).2.committed p = S.world.committed p ∨
          ∃ n, (p, n) ∈ (view s S).held i ∧
            (exec C (.inr (.commitMessages (holding (callsOf i S.hist)))) c
              S.world).2.committed p = n + 1 := by
        intro p
        rcases exec_commit C (holding (callsOf i S.hist)) c S.world with h | h
        · rw [h]
          exact .inl rfl
        · rw [h]
          rcases S.world.committed_commit (holding (callsOf i S.hist)) p with h | ⟨m, hm, rfl, h⟩
          · exact .inl h
          · exact .inr ⟨m.slot.2, List.mem_map_of_mem hm, h⟩
      -- committed, then let go
      refine .tail (.tail (.single hsettle) (.commit _ i hdone hcommitted)) ?_
      rw [view_after, hposition]
      exact .release _ i hdone
  · obtain ⟨hcommitted, hposition⟩ := exec_publish C p key value c S.world
    exact steps_of_quiet hcommitted hposition rfl
  · refine .tail (.single hsettle) ?_
    rw [view_after]
    have hsame : Function.update (view s S).held i
        ((holding (callsOf i S.hist)).map Message.slot) = (view s S).held := Function.update_eq_self ..
    have hheld : holdStep (holding (callsOf i S.hist))
        ⟨.inr (.assign r), (exec C (.inr (.assign r)) c S.world).1⟩ = holding (callsOf i S.hist) := rfl
    rw [hheld, hsame]
    exact .assign _ r

end

section
variable (C : Collation) (s : SettlementConsumer) (name : Str) (merchants : List Merchant)
  (ps : List Participant) (xs : List (Nat × Turn))

/-- **The topic is a log with committed offsets**, all along. -/
theorem run_inv : Sound (run C s (.fresh name merchants) ps xs) ∧
    CommitLog.Inv (view s (run C s (.fresh name merchants) ps xs)) := by
  refine Sys.run_induction (P := pipelinePort) (exec C)
    (Q := fun S => Sound S ∧ CommitLog.Inv (view s S)) _ _ ⟨⟨?_, ?_⟩, ?_⟩ ?_ xs
  · intro p n m hm
    cases hm
  · intro i m hm
    cases hm
  · exact CommitLog.Inv.start (fun _ => rfl) (fun _ _ => rfl) fun _ => rfl
  · rintro S i c o k p ⟨hS, hinv⟩ hp - hruns
    rw [List.getElem?_mapIdx] at hp
    obtain ⟨a, -, rfl⟩ := Option.map_eq_some_iff.mp hp
    exact ⟨hS.after, (steps_of_call hS hruns).inv hinv⟩

/-- **Committed means settled.**  Whatever consumers come and go on the topic, a message below a
committed offset has met its fate with one of them. -/
theorem committed_settled {p : Int} {n : Nat} {m : Message}
    (hn : n < (run C s (.fresh name merchants) ps xs).world.committed p)
    (hm : ((run C s (.fresh name merchants) ps xs).world.log p)[n]? = some m) :
    ∃ i, Fate s (callsOf i (run C s (.fresh name merchants) ps xs).hist) m := by
  obtain ⟨m', i, hm', hfate⟩ := (run_inv C s name merchants ps xs).2.committed p n hn
  cases hm.symm.trans hm'
  exact ⟨i, hfate⟩

end

def turns (i n : Nat) : List (Nat × Turn) := List.replicate n (i, {})

/-- A consumer tells the merchant and stops before it commits.  Its partition goes to another, which tells
the merchant again. -/
def takeover : Flow :=
  run .asciiCI .live (.fresh (bytes "payment.confirmed") [SettlementConsumer.listening])
    [.publisher 0 (bytes "o-1") SettlementConsumer.confirmedJSON, .consumer ⟨50⟩ 1, .coordinator 3,
      .consumer ⟨50⟩ 1]
    (turns 0 1 ++ turns 1 6 ++ turns 2 1 ++ turns 3 7)

theorem committed_settled_takeover :
    takeover.world.committed 0 = 1 ∧
      ∃ m i, (takeover.world.log 0)[0]? = some m ∧ Fate .live (callsOf i takeover.hist) m := by
  have hcommitted : takeover.world.committed 0 = 1 := by decide +kernel
  have hlog : (takeover.world.log 0).length = 1 := by decide +kernel
  obtain ⟨m, hone⟩ := List.length_eq_one_iff.mp hlog
  have hm : (takeover.world.log 0)[0]? = some m := by
    rw [hone]
    rfl
  have hn : 0 < takeover.world.committed 0 := by
    rw [hcommitted]
    exact Nat.one_pos
  refine ⟨hcommitted, m, ?_⟩
  unfold takeover at hn hm ⊢
  obtain ⟨i, hfate⟩ := committed_settled _ _ _ _ _ _ hn hm
  exact ⟨i, hm, hfate⟩

/-! ## What merchants are told -/

section
variable {C : Collation} {s : SettlementConsumer} {w : Topic} {ps : List Participant}

theorem exec_merchants (C : Collation) (o : pipelinePort.Op) (c : Turn) (w : Topic) :
    (exec C o c w).2.merchants = w.merchants := by
  have happend : ∀ p key value, (w.append p key value).merchants = w.merchants := by
    intro p key value
    unfold Topic.append
    split <;> rfl
  cases o with
  | inl o => cases o <;> rfl
  | inr o =>
    cases o with
    | fetchMessage r d =>
      rcases exec_fetch C r d c w with ⟨err, he⟩ | ⟨p, m, -, he⟩
      · rw [he]
      · rw [he]
    | writeMessages key value =>
      simp only [exec]
      split <;> rfl
    | commitMessages msgs =>
      rcases exec_commit C msgs c w with h | h
      · rw [h]
      · rw [h]
        rfl
    | publish p key value =>
      simp only [exec]
      split
      · split
        · exact happend p key value
        · rfl
      · exact happend p key value
    | ctxErr => rfl
    | assign r => rfl

/-- The lookups have found the merchants there are, and what was posted is the event of a message of the
topic. -/
structure Truthful (C : Collation) (s : SettlementConsumer) (ms : List Merchant) (S : Flow) :
    Prop where
  sound : Sound S
  merchants : S.world.merchants = ms
  lookups : ∀ i id M, (SettlementOp.getByMerchantID id).gave (.ok M) ∈ settlings (callsOf i S.hist) →
    merchantRow C ms id = some M
  posts : ∀ i req a, (SettlementOp.post req).gave a ∈ settlings (callsOf i S.hist) →
    ∃ p, ∃ m ∈ S.world.log p, ∃ ev M now body, s.unmarshal m.value = .ok ev ∧
      merchantRow C ms ev.merchantID = some M ∧ s.marshal ev = .ok body ∧
      req = s.callback ⟨M.callbackURL, M.secretKey⟩ now body

theorem Truthful.after {ms : List Merchant} {S : Flow} (hS : Truthful C s ms S) {i : Nat}
    {c : Turn} {o : pipelinePort.Op} {k : pipelinePort.Ans o → Piping (Option (Res Unit))}
    {part : Participant} (hruns : Prog.Runs (part.prog s i) (callsOf i S.hist) (.call o k)) :
    Truthful C s ms (S.after (exec C) i c o k) := by
  -- a call of the handler is one of before, or the one that is made
  have hcases : ∀ r (x : Prog.Step settlementPort),
      x ∈ settlings (callsOf r (S.after (exec C) i c o k).hist) →
      x ∈ settlings (callsOf r S.hist) ∨
        ∃ o', o = .inl o' ∧ x ∈ settlings [⟨o, (exec C o c S.world).1⟩] := by
    intro r x hx
    by_cases hr : r = i
    · subst hr
      rw [callsOf_after_self, settlings_append] at hx
      refine (List.mem_append.mp hx).imp_right fun hx => ?_
      cases o with
      | inl o' => exact ⟨o', rfl, hx⟩
      | inr o' => cases hx
    · rw [callsOf_after_ne hr] at hx
      exact .inl hx
  refine ⟨hS.sound.after, (exec_merchants C o c S.world).trans hS.merchants, ?_, ?_⟩
  · intro r id M hmem
    rcases hcases r _ hmem with hmem | ⟨o', rfl, hmem⟩
    · exact hS.lookups r id M hmem
    · have heq := List.mem_singleton.mp hmem
      obtain rfl : o' = .getByMerchantID id := (congrArg Sigma.fst heq).symm
      have hans : getMerchant C c.query id S.world.merchants = .ok M :=
        (eq_of_heq (Sigma.mk.inj_iff.mp heq).2).symm
      rw [hS.merchants] at hans
      exact (getMerchant_ok_iff.mp hans).2
  · intro r req a hmem
    have hkept : ∀ {p : Int} {m : Message}, m ∈ S.world.log p → m ∈ (exec C o c S.world).2.log p :=
      fun hm => (exec_log_grows C o c S.world _).subset hm
    rcases hcases r _ hmem with hmem | ⟨o', rfl, hmem⟩
    · obtain ⟨p, m, hm, h⟩ := hS.posts r req a hmem
      exact ⟨p, m, hkept hm, h⟩
    · cases List.mem_singleton.mp hmem
      rcases participant_next hruns with hcall | ⟨_, _, _, -, h⟩ | ⟨_, h⟩
      · cases hcall with
        | handle hposts =>
          obtain ⟨m, hm, hposts⟩ := hposts req rfl
          obtain ⟨ev, M, now, body, hev, hfound, hbody, hreq⟩ := hposts req rfl
          exact ⟨_, m, hkept (List.mem_of_getElem? (hS.sound.held i m hm)), ev, M, now, body, hev,
            hS.lookups i _ M hfound, hbody, hreq⟩
      · cases h
      · cases h

/-- **What is posted** is the event of a message of the topic, to the URL of its merchant. -/
theorem run_truthful (name : Str) (ms : List Merchant) (xs : List (Nat × Turn)) :
    Truthful C s ms (run C s (.fresh name ms) ps xs) := by
  refine Sys.run_induction (P := pipelinePort) (exec C) (Q := Truthful C s ms) _ _ ?_ ?_ xs
  · refine ⟨⟨?_, ?_⟩, rfl, ?_, ?_⟩
    · intro p n m hm
      cases hm
    · intro i m hm
      cases hm
    · intro i id M hmem
      cases hmem
    · intro i req a hmem
      cases hmem
  · intro S i c o k p hS hp _ hruns
    rw [List.getElem?_mapIdx] at hp
    obtain ⟨part, -, rfl⟩ := Option.map_eq_some_iff.mp hp
    exact hS.after hruns

end

/-- What is on the topic has been published. -/
theorem published_of_log (C : Collation) (s : SettlementConsumer) (name : Str) (ms : List Merchant)
    (ps : List Participant) (xs : List (Nat × Turn)) (p : Int) :
    ∀ m ∈ (run C s (.fresh name ms) ps xs).world.log p, .publisher p m.key m.value ∈ ps := by
  refine Sys.run_induction (P := pipelinePort) (exec C)
    (Q := fun S => ∀ m ∈ S.world.log p, .publisher p m.key m.value ∈ ps) _ _ ?_ ?_ xs
  · intro m hm
    cases hm
  · intro S i c o k q hS hq _ hruns m hm
    rw [List.getElem?_mapIdx] at hq
    obtain ⟨part, hpart, rfl⟩ := Option.map_eq_some_iff.mp hq
    have hm : m ∈ (exec C o c S.world).2.log p := hm
    rcases exec_log C o c S.world p with h | ⟨key, value, rfl, -, h⟩
    · rw [h] at hm
      exact hS m hm
    · rw [h] at hm
      rcases List.mem_append.mp hm with hm | hm
      · exact hS m hm
      · rw [List.mem_singleton.mp hm]
        rcases participant_next hruns with hcall | ⟨p', key', value', rfl, ho⟩ | ⟨r, ho⟩
        · cases hcall
        · cases ho
          exact List.mem_of_getElem? hpart
        · cases ho

/-- The signature of a callback verifies. -/
theorem verify_callback (s : SettlementConsumer) (cb : MerchantCallback) (now : Time) (body : Str) :
    Hmac.verify s.hmacSHA256 cb.secret
      (signedRequest (s.callback cb now body).timestamp (s.callback cb now body).body)
      (s.callback cb now body).signature = true :=
  Hmac.verify_iff.mpr (hexDecode_hexEncode _)

end Pipeline

end EasyPay
