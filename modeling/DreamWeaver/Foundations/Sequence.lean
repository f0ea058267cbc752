import DreamWeaver.Foundations.Embedding

/-! # Calls one after the other

`Logs env s p log r s'` is a run of a procedure on its own, with the log of its events, and `Sequence` are
calls that come one after the other. `p.Upholds env ok Q s` says what the procedure does from a state of
the world: each of its steps meets the condition `ok` when it is taken, and it ends in `Q`. The steps of
calls that uphold a condition form a `Chain`, and what every step of a chain preserves, of the state and
of the log before it, the chain preserves.

`retrying pause p n k` runs `p`, and again as long as it rejects, up to `n` times, after a pause that may
depend on the number `k` of the attempt; the error of the last attempt is the result. What holds before an
attempt has to hold again when the attempt rejects, since the next one starts from there. -/

namespace DreamWeaver.Proc

variable {σ E O ι τ : Type} {R : E → Type} {α β : Type} {env : Env σ E R} {ok ok' : σ → E → Prop}
  {s s₁ s' : σ} {p : Proc E R α} {r : Except JsError α} {log log' : List (Event E R)}

/-! ## Runs with their log -/

/-- A run of a procedure, with its log. -/
inductive Logs (env : Env σ E R) : σ → Proc E R α → List (Event E R) → Except JsError α → σ → Prop
  | done {s : σ} {r : Except JsError α} : Logs env s (.done r) [] r s
  | await {s s₁ s' : σ} {e : E} {next : Except JsError (R e) → Proc E R α}
      {reply : Except JsError (R e)} {log : List (Event E R)} {r : Except JsError α}
      (hreply : env s e reply s₁) (hrest : Logs env s₁ (next reply) log r s') :
      Logs env s (.await e next) (⟨e, reply⟩ :: log) r s'

theorem logs_done_iff {r' : Except JsError α} :
    Logs env s (done r) log r' s' ↔ log = [] ∧ r' = r ∧ s' = s := by
  constructor
  · rintro ⟨⟩
    exact ⟨rfl, rfl, rfl⟩
  · rintro ⟨rfl, rfl, rfl⟩
    exact .done

theorem logs_await_iff {e : E} {next : Except JsError (R e) → Proc E R α} :
    Logs env s (await e next) log r s' ↔
      ∃ reply s₁ rest, log = ⟨e, reply⟩ :: rest ∧ env s e reply s₁ ∧ Logs env s₁ (next reply) rest r s' := by
  constructor
  · rintro ⟨⟩
    exact ⟨_, _, _, rfl, ‹_›, ‹_›⟩
  · rintro ⟨reply, s₁, rest, rfl, hreply, hrest⟩
    exact .await hreply hrest

/-- A run ends as the text of the procedure says. -/
theorem Logs.ended {Q : List (Event E R) → Except JsError α → Prop} {past : List (Event E R)}
    (h : Logs env s p log r s') (hends : p.Ends Q past) : Q (past ++ log) r := by
  induction h generalizing past with
  | done =>
    rw [List.append_nil]
    exact hends
  | @await s s₁ s' e next reply log r _ _ ih =>
    have hrest := ih (hends reply)
    rwa [List.append_assoc] at hrest

/-- **What a run awaits** is what the text of the procedure says. -/
theorem Logs.steps {P : List (Event E R) → E → Prop} {past : List (Event E R)} (h : Logs env s p log r s')
    (hsteps : p.Steps P past)
    {before after : List (Event E R)} {event : Event E R} (hlog : log = before ++ event :: after) :
    P (past ++ before) event.effect := by
  induction h generalizing past before with
  | done => exact absurd hlog.symm (List.append_ne_nil_of_right_ne_nil _ (List.cons_ne_nil _ _))
  | @await s s₁ s' e next reply log r _ _ ih =>
    cases before with
    | nil =>
      obtain ⟨rfl, -⟩ := List.cons.inj hlog
      rw [List.append_nil]
      exact hsteps.1
    | cons first before =>
      obtain ⟨rfl, hrest⟩ := List.cons.inj hlog
      rw [List.append_cons]
      exact ih (hsteps.2 reply) hrest

/-- A run begins in the state that it is started in. -/
theorem Logs.first {event : Event E R} (h : Logs env s p (event :: log) r s') :
    ∃ s₁, env s event.effect event.reply s₁ := by
  cases h with
  | await hreply _ => exact ⟨_, hreply⟩

/-- The run that a procedure makes where the replies are a function of the state. -/
def record (answer : (e : E) → σ → Except JsError (R e) × σ) :
    σ → Proc E R α → List (Event E R) × Except JsError α × σ
  | s, .done r => ([], r, s)
  | s, .await e next =>
    let rest := record answer (answer e s).2 (next (answer e s).1)
    (⟨e, (answer e s).1⟩ :: rest.1, rest.2)

theorem logs_record {answer : (e : E) → σ → Except JsError (R e) × σ}
    (hanswer : ∀ e s, env s e (answer e s).1 (answer e s).2) (s : σ) (p : Proc E R α) :
    Logs env s p (record answer s p).1 (record answer s p).2.1 (record answer s p).2.2 := by
  induction p generalizing s with
  | done r => exact .done
  | await e next ih => exact .await (hanswer e s) (ih _ _)

/-- The same where the world allows the answers to what the procedure awaits. -/
theorem logs_record_of_only {answer : (e : E) → σ → Except JsError (R e) × σ} {good : E → Prop}
    (hanswer : ∀ e s, good e → env s e (answer e s).1 (answer e s).2) (hp : p.Only fun event => good event.effect)
    (s : σ) : Logs env s p (record answer s p).1 (record answer s p).2.1 (record answer s p).2.2 := by
  induction p generalizing s with
  | done r => exact .done
  | await e next ih => exact .await (hanswer e s (hp (answer e s).1).1) (ih _ (hp _).2 _)

/-- The replies of such a run are those of the function. -/
theorem reply_of_record {answer : (e : E) → σ → Except JsError (R e) × σ} {event : Event E R}
    (h : event ∈ (record answer s p).1) : ∃ s₁, event.reply = (answer event.effect s₁).1 := by
  induction p generalizing s with
  | done r => cases h
  | await e next ih =>
    rcases List.mem_cons.mp h with rfl | hmem
    · exact ⟨s, rfl⟩
    · exact ih _ hmem

/-- A run whose events all meet a condition is a run in a world that gives no other replies. -/
theorem Logs.restrict {good : Event E R → Prop} (h : Logs env s p log r s')
    (hgood : ∀ event ∈ log, good event) :
    Logs (fun s e reply s' => env s e reply s' ∧ good ⟨e, reply⟩) s p log r s' := by
  induction h with
  | done => exact .done
  | await hreply _ ih =>
    exact .await ⟨hreply, hgood _ List.mem_cons_self⟩
      (ih fun event hmem => hgood event (List.mem_cons_of_mem _ hmem))

/-! ## Where every effect is answered -/

/-- Every effect was answered. -/
def AllAnswered (log : List (Event E R)) : Prop := ∀ event ∈ log, ∃ a, event.reply = .ok a

/-- Where every effect is answered, the procedure ends in `Q`. -/
def Resolves (Q : Except JsError α → Prop) : Proc E R α → Prop
  | .done r => Q r
  | .await _ next => ∀ a, Resolves Q (next (.ok a))

section Resolves

variable {Q : Except JsError α → Prop} {past : List (Event E R)} {e : E}

theorem not_allAnswered_after {error : JsError} (h : past ++ [⟨e, .error error⟩] <+: log) :
    ¬ AllAnswered log := by
  intro hanswered
  obtain ⟨a, ha⟩ := hanswered ⟨e, .error error⟩ (h.subset (List.mem_append_right _ (List.mem_singleton_self _)))
  cases ha

theorem resolves_done (h : Q r) : (done r : Proc E R α).Resolves Q := h

theorem resolves_pure {a : α} (h : Q (.ok a)) : (pure a : Proc E R α).Resolves Q := h

theorem resolves_perform {Q : Except JsError (R e) → Prop} (h : ∀ a, Q (.ok a)) : (perform e).Resolves Q := h

theorem Resolves.imp {Q' : Except JsError α → Prop} (h : p.Resolves Q) (himp : ∀ r, Q r → Q' r) :
    p.Resolves Q' := by
  induction p with
  | done r => exact himp r h
  | await e next ih => exact fun a => ih (.ok a) (h a)

/-- The rule for sequencing. -/
theorem Resolves.bind {f : α → Proc E R β} {Q : Except JsError β → Prop}
    (h : p.Resolves fun r => match r with
      | .ok a => (f a).Resolves Q
      | .error e => Q (.error e)) : (p >>= f).Resolves Q := by
  induction p with
  | done r =>
    cases r with
    | ok a => exact h
    | error e => exact h
  | await e next ih => exact fun a => ih (.ok a) (h a)

/-- The rule for `try` and `catch`. -/
theorem Resolves.catchWith {handler : JsError → Proc E R α}
    (h : p.Resolves fun r => match r with
      | .ok a => Q (.ok a)
      | .error e => (handler e).Resolves Q) : (p.catchWith handler).Resolves Q := by
  induction p with
  | done r =>
    cases r with
    | ok a => exact h
    | error e => exact h
  | await e next ih => exact fun a => ih (.ok a) (h a)

/-- Each path through the procedure ends so, or some effect on it was not answered. -/
theorem Resolves.ends (h : p.Resolves Q) (past : List (Event E R)) :
    p.Ends (fun past' r => AllAnswered past' → Q r) past := by
  induction p generalizing past with
  | done r => exact fun _ => h
  | await e next ih =>
    intro reply
    cases reply with
    | ok a => exact ih (.ok a) (h a) _
    | error error =>
      refine (ends_of_forall (Q := fun _ _ => True) fun _ _ => trivial).frame.imp ?_
      exact fun past' r hprefix hanswered => absurd hanswered (not_allAnswered_after hprefix.1)

/-- The steps of a procedure that does nothing but what is in `P`. -/
theorem Only.ends_steps {P : Event E R → Prop} (h : p.Only P) (past : List (Event E R)) :
    p.Ends (fun past' _ => ∃ steps, past' = past ++ steps ∧ ∀ event ∈ steps, P event) past := by
  induction p generalizing past with
  | done r => exact ⟨[], (List.append_nil _).symm, fun _ hmem => nomatch hmem⟩
  | await e next ih =>
    refine fun reply => (ih reply (h reply).2 _).imp ?_
    rintro past' r ⟨steps, rfl, hsteps⟩
    exact ⟨⟨e, reply⟩ :: steps, by simp, List.forall_mem_cons.mpr ⟨(h reply).1, hsteps⟩⟩

end Resolves

/-! ## Chains of steps -/

/-- Steps one after the other, each in a state that meets the condition. -/
inductive Chain (env : Env σ E R) (ok : σ → E → Prop) : σ → List (Event E R) → σ → Prop
  | nil {s : σ} : Chain env ok s [] s
  | cons {s s₁ s' : σ} {e : E} {reply : Except JsError (R e)} {log : List (Event E R)}
      (hok : ok s e) (hreply : env s e reply s₁) (hrest : Chain env ok s₁ log s') :
      Chain env ok s (⟨e, reply⟩ :: log) s'

/-- **The invariant rule for chains.** -/
theorem Chain.invariant {J : List (Event E R) → σ → Prop} {past : List (Event E R)}
    (h : Chain env ok s log s') (hinit : J past s)
    (hstep : ∀ past s e reply s', J past s → ok s e → env s e reply s' → J (past ++ [⟨e, reply⟩]) s') :
    J (past ++ log) s' := by
  induction h generalizing past with
  | nil =>
    rw [List.append_nil]
    exact hinit
  | cons hok hreply _ ih =>
    have hrest := ih (hstep _ _ _ _ _ hinit hok hreply)
    rwa [List.append_assoc] at hrest

/-- Every event of a chain was a step that met the condition. -/
theorem Chain.exists_step {event : Event E R} (h : Chain env ok s log s') (hmem : event ∈ log) :
    ∃ s₁, ok s₁ event.effect := by
  induction h with
  | nil => cases hmem
  | @cons s s₁ s' e reply log hok _ _ ih =>
    rcases List.mem_cons.mp hmem with rfl | hmem
    · exact ⟨s, hok⟩
    · exact ih hmem

/-! ## What a procedure upholds -/

/-- Every step from the state meets the condition, and the procedure ends in `Q`. -/
def Upholds (env : Env σ E R) (ok : σ → E → Prop) (Q : Except JsError α → σ → Prop) :
    Proc E R α → σ → Prop
  | .done r, s => Q r s
  | .await e next, s => ok s e ∧ ∀ reply s', env s e reply s' → Upholds env ok Q (next reply) s'

variable {Q Q' : Except JsError α → σ → Prop}

theorem upholds_pure {a : α} (h : Q (.ok a) s) : (pure a : Proc E R α).Upholds env ok Q s := h

theorem upholds_done (h : Q r s) : (done r : Proc E R α).Upholds env ok Q s := h

theorem upholds_perform {e : E} {Q : Except JsError (R e) → σ → Prop} (hok : ok s e)
    (h : ∀ reply s', env s e reply s' → Q reply s') : (perform e).Upholds env ok Q s := ⟨hok, h⟩

/-- The same, where nothing is asked of the steps. -/
theorem upholds_perform_true {e : E} {Q : Except JsError (R e) → σ → Prop}
    (h : ∀ reply s', env s e reply s' → Q reply s') : (perform e).Upholds env (fun _ _ => True) Q s :=
  ⟨trivial, h⟩

/-- Weaken what a procedure ends in. -/
theorem Upholds.imp (h : p.Upholds env ok Q s) (himp : ∀ r s, Q r s → Q' r s) :
    p.Upholds env ok Q' s := by
  induction p generalizing s with
  | done r => exact himp r s h
  | await e next ih => exact ⟨h.1, fun reply s' hreply => ih reply (h.2 reply s' hreply)⟩

/-- **The rule for what goes on with a result.** -/
theorem Upholds.settle {k : Except JsError α → Proc E R β} {Q : Except JsError β → σ → Prop}
    (h : p.Upholds env ok (fun r s => (k r).Upholds env ok Q s) s) :
    (p.settle k).Upholds env ok Q s := by
  induction p generalizing s with
  | done r => exact h
  | await e next ih => exact ⟨h.1, fun reply s' hreply => ih reply (h.2 reply s' hreply)⟩

/-- **The rule for sequencing.** -/
theorem Upholds.bind {f : α → Proc E R β} {Q : Except JsError β → σ → Prop}
    (h : p.Upholds env ok (fun r s => match r with
      | .ok a => (f a).Upholds env ok Q s
      | .error e => Q (.error e) s) s) : (p >>= f).Upholds env ok Q s := by
  rw [bind_eq_settle]
  refine Upholds.settle (h.imp fun r s hr => ?_)
  cases r with
  | ok a => exact hr
  | error e => exact hr

/-- The rule for `try` and `catch`. -/
theorem Upholds.catchWith {handler : JsError → Proc E R α}
    (h : p.Upholds env ok (fun r s => match r with
      | .ok a => Q (.ok a) s
      | .error e => (handler e).Upholds env ok Q s) s) : (p.catchWith handler).Upholds env ok Q s := by
  rw [catchWith_eq_settle]
  refine Upholds.settle (h.imp fun r s hr => ?_)
  cases r with
  | ok a => exact hr
  | error e => exact hr

/-- A procedure each of whose effects meets the condition in every state. -/
theorem Only.upholds (h : p.Only fun event => ∀ s, ok s event.effect) :
    p.Upholds env ok (fun _ _ => True) s := by
  induction p generalizing s with
  | done r => trivial
  | await e next ih =>
    exact ⟨(h (.error ⟨[], []⟩)).1 s, fun reply s' _ => ih reply (h reply).2⟩

/-- A procedure among others upholds what it upholds. -/
theorem Upholds.embed {F : Type} {S : F → Type} {f : E → F} {env : Env σ F S} {ok : σ → F → Prop}
    {p : Proc E (fun e => S (f e)) α}
    (h : p.Upholds (fun s e reply s' => env s (f e) reply s') (fun s e => ok s (f e)) Q s) :
    (p.embed f).Upholds env ok Q s := by
  induction p generalizing s with
  | done r => exact h
  | await e next ih => exact ⟨h.1, fun reply s' hreply => ih reply (h.2 reply s' hreply)⟩

/-- A procedure upholds in a larger world what it upholds in the part of it that its replies depend on. -/
theorem Upholds.view {τ : Type} {view : τ → σ} {env' : Env τ E R} {t : τ}
    (hview : ∀ t e reply t', env' t e reply t' → env (view t) e reply (view t'))
    (h : p.Upholds env ok Q (view t)) :
    p.Upholds env' (fun t e => ok (view t) e) (fun r t' => Q r (view t')) t := by
  induction p generalizing t with
  | done r => exact h
  | await e next ih =>
    exact ⟨h.1, fun reply t' hreply => ih reply (h.2 reply (view t') (hview t e reply t' hreply))⟩

/-- **What a run has of the text**: its result, and a chain of its steps. -/
theorem Logs.upheld (h : Logs env s p log r s') (hp : p.Upholds env ok Q s) :
    Q r s' ∧ Chain env ok s log s' := by
  induction h with
  | done => exact ⟨hp, .nil⟩
  | await hreply _ ih =>
    obtain ⟨hQ, hchain⟩ := ih (hp.2 _ _ hreply)
    exact ⟨hQ, .cons hp.1 hreply hchain⟩

/-! ## In interleavings -/

/-- The world of one procedure, of which only a stage is kept, that its own events lead on. -/
def follows (next : τ → Event E R → τ) : Env τ E R := fun stage e reply stage' => stage' = next stage ⟨e, reply⟩

/-- **In an interleaving** a procedure upholds what it does on its own, from the stage that its events have led
to. -/
theorem Runs.upholds [DecidableEq ι] {c c' : Pool ι σ E R α} {log : List (ι × Event E R)}
    {next : τ → Event E R → τ} {P : τ → E → Prop} {Q : Except JsError α → τ → Prop} {stage : τ} {i : ι}
    (h : Runs env ok c log c') (hinit : (c.procs i).Upholds (follows next) P Q stage) :
    (c'.procs i).Upholds (follows next) P Q ((eventsOf i log).foldl next stage) := by
  induction h with
  | start => exact hinit
  | @step log c₁ j e next' reply s' _ hproc _ _ ih =>
    dsimp only
    by_cases hij : j = i
    · subst hij
      rw [Function.update_self, eventsOf_concat_self, List.foldl_append]
      rw [hproc] at ih
      exact ih.2 reply _ rfl
    · rw [Function.update_of_ne (Ne.symm hij), eventsOf_concat_of_ne hij]
      exact ih

/-- A procedure goes on with another one after these events. -/
def Leads : List (Event E R) → Proc E R α → Proc E R α → Prop
  | [], p, q => p = q
  | event :: events, p, q => ∃ next, p = .await event.effect next ∧ Leads events (next event.reply) q

/-- The steps of one procedure are a run, which leaves the others where they are. -/
theorem Runs.of_leads [DecidableEq ι] {q : Proc E R α} (procs : ι → Proc E R α) (i : ι) (hchain : Chain env ok s log s')
    (h : Leads log (procs i) q) :
    Runs env ok ⟨s, procs⟩ (log.map fun event => (i, event)) ⟨s', Function.update procs i q⟩ := by
  induction hchain generalizing procs with
  | nil =>
    obtain rfl : procs i = q := h
    rw [Function.update_eq_self]
    exact .start
  | @cons s s₁ s' e reply log hok hreply _ ih =>
    obtain ⟨next, hproc, hrest⟩ := h
    have hone : Runs env ok ⟨s, procs⟩ [(i, ⟨e, reply⟩)] ⟨s₁, Function.update procs i (next reply)⟩ :=
      Runs.start.step hproc hreply hok
    have hlater := ih (Function.update procs i (next reply)) (by rwa [Function.update_self])
    rw [Function.update_idem] at hlater
    exact hone.append hlater

/-- A procedure none of whose events leads on stays at its stage. -/
theorem Only.upholds_follows {p : Proc E R α} {quiet : Event E R → Prop} {next : τ → Event E R → τ}
    {P : τ → E → Prop} {stage : τ} (h : p.Only quiet)
    (hsame : ∀ event, quiet event → P stage event.effect ∧ next stage event = stage) :
    p.Upholds (follows next) P (fun _ stage' => stage' = stage) stage := by
  induction p with
  | done r => rfl
  | await e next' ih =>
    refine ⟨(hsame _ (h (.error ⟨[], []⟩)).1).1, fun reply stage' hnext => ?_⟩
    obtain rfl : stage' = stage := hnext.trans (hsame _ (h reply).1).2
    exact ih reply (h reply).2

/-! ## A world that remembers its log -/

/-- The world with the log of what has been done in it. -/
def logged (env : Env σ E R) : Env (σ × List (Event E R)) E R :=
  fun t e reply t' => env t.1 e reply t'.1 ∧ t'.2 = t.2 ++ [⟨e, reply⟩]

/-- A run is one in the world that remembers it. -/
theorem Logs.logged (h : Logs env s p log r s') (past : List (Event E R)) :
    Logs (logged env) (s, past) p log r (s', past ++ log) := by
  induction h generalizing past with
  | done =>
    rw [List.append_nil]
    exact .done
  | @await s s₁ s' e next reply log r hreply _ ih =>
    have hrest := ih (past ++ [⟨e, reply⟩])
    rw [List.append_assoc] at hrest
    exact .await ⟨hreply, rfl⟩ hrest

/-- **What a run has of the text, with its log.** -/
theorem Logs.upheld_logged {ok : σ × List (Event E R) → E → Prop}
    {Q : Except JsError α → σ × List (Event E R) → Prop} (h : Logs env s p log r s')
    (hp : p.Upholds (Proc.logged env) ok Q (s, [])) : Q r (s', log) :=
  ((h.logged []).upheld hp).1

section Embedded

variable {F : Type} {S : F → Type} {f : E → F} {env : Env σ F S} {past : List (Event F S)}

/-- A procedure among others, in a world that remembers the log: it ends as in its own world, and the log
goes on with events of its own. -/
theorem Upholds.logged_embed {p : Proc E (fun e => S (f e)) α} {Q : Except JsError α → σ → Prop}
    (h : p.Upholds (fun s e reply s' => env s (f e) reply s') (fun _ _ => True) Q s) :
    (p.embed f).Upholds (logged env) (fun _ _ => True)
      (fun r t => Q r t.1 ∧ ∃ steps, t.2 = past ++ steps ∧ ∀ event ∈ steps, ∃ e, event.effect = f e)
      (s, past) := by
  induction p generalizing s past with
  | done r =>
    refine ⟨h, [], ?_, fun _ hmem => nomatch hmem⟩
    rw [List.append_nil]
  | await e next ih =>
    refine ⟨trivial, fun reply t hreply => ?_⟩
    obtain ⟨s₁, log⟩ := t
    obtain ⟨hreply, rfl⟩ := hreply
    have hnext := @ih reply s₁ (past ++ [⟨f e, reply⟩]) (h.2 reply s₁ hreply)
    refine hnext.imp fun r t hend => ?_
    obtain ⟨hQ, steps, hlog, hsteps⟩ := hend
    refine ⟨hQ, ⟨f e, reply⟩ :: steps, ?_, List.forall_mem_cons.mpr ⟨⟨e, rfl⟩, hsteps⟩⟩
    rw [hlog, List.append_assoc]
    rfl

/-- A procedure among others that leaves the world alone ends as its paths do. -/
theorem Ends.logged_embed {p : Proc E (fun e => S (f e)) α} {steps : List (Event E fun e => S (f e))}
    {Q : List (Event F S) → Except JsError α → Prop}
    (hkeep : ∀ s e reply s', env s (f e) reply s' → s' = s)
    (h : p.Ends (fun steps r => Q (past ++ steps.map (Event.embed f)) r) steps) :
    (p.embed f).Upholds (logged env) (fun _ _ => True) (fun r t => t.1 = s ∧ Q t.2 r)
      (s, past ++ steps.map (Event.embed f)) := by
  induction p generalizing steps with
  | done r => exact ⟨rfl, h⟩
  | await e next ih =>
    refine ⟨trivial, fun reply t hreply => ?_⟩
    obtain ⟨s₁, log⟩ := t
    obtain ⟨hreply, rfl⟩ := hreply
    obtain rfl : s₁ = s := hkeep _ _ _ _ hreply
    have hrest := ih reply (h reply)
    rw [List.map_append, ← List.append_assoc] at hrest
    exact hrest

end Embedded

/-! ## Sequences of calls -/

/-- A call: the operation, the state before it, what it did, and its result. -/
structure Call (O σ E : Type) (R : E → Type) (α : Type) where
  op : O
  before : σ
  events : List (Event E R)
  result : Except JsError α

/-- Calls one after the other. -/
inductive Sequence (env : Env σ E R) (task : O → Proc E R α) (s : σ) : List (Call O σ E R α) → σ → Prop
  | start : Sequence env task s [] s
  | call {calls : List (Call O σ E R α)} {s₁ s₂ : σ} {op : O} {log : List (Event E R)}
      {r : Except JsError α} (h : Sequence env task s calls s₁)
      (hrun : Logs env s₁ (task op) log r s₂) : Sequence env task s (calls ++ [⟨op, s₁, log, r⟩]) s₂

variable {task : O → Proc E R α} {calls : List (Call O σ E R α)}

/-- The events of calls, in their order. -/
def eventsOfCalls (calls : List (Call O σ E R α)) : List (Event E R) := calls.flatMap Call.events

theorem eventsOfCalls_concat (calls : List (Call O σ E R α)) (call : Call O σ E R α) :
    eventsOfCalls (calls ++ [call]) = eventsOfCalls calls ++ call.events := by
  rw [eventsOfCalls, List.flatMap_append, List.flatMap_singleton, eventsOfCalls]

/-- **The invariant rule for calls**, each of which meets a condition. -/
theorem Sequence.invariant {J : List (Call O σ E R α) → σ → Prop} {good : Call O σ E R α → Prop}
    (h : Sequence env task s calls s') (hgood : ∀ call ∈ calls, good call) (hinit : J [] s)
    (hcall : ∀ calls s₁ op log r s₂, J calls s₁ → good ⟨op, s₁, log, r⟩ →
      Logs env s₁ (task op) log r s₂ → J (calls ++ [⟨op, s₁, log, r⟩]) s₂) : J calls s' := by
  induction h with
  | start => exact hinit
  | call _ hrun ih =>
    have hbefore := ih fun call hmem => hgood call (List.mem_append_left _ hmem)
    exact hcall _ _ _ _ _ _ hbefore (hgood _ (by simp)) hrun

/-- **A call among others**: the calls before it, and its run. -/
theorem Sequence.split {earlier later : List (Call O σ E R α)} {call : Call O σ E R α}
    (h : Sequence env task s (earlier ++ call :: later) s') :
    Sequence env task s earlier call.before ∧
      ∃ s₁, Logs env call.before (task call.op) call.events call.result s₁ := by
  induction later using List.reverseRecOn generalizing s' with
  | nil =>
    generalize hcalls : earlier ++ [call] = calls at h
    cases h with
    | start => exact absurd hcalls (List.append_ne_nil_of_right_ne_nil _ (List.cons_ne_nil _ _))
    | call hbefore hrun =>
      obtain ⟨rfl, hcall⟩ := List.append_inj' hcalls rfl
      obtain rfl := List.head_eq_of_cons_eq hcall
      exact ⟨hbefore, _, hrun⟩
  | append_singleton later last ih =>
    rw [← List.cons_append, ← List.append_assoc] at h
    generalize hcalls : earlier ++ call :: later ++ [last] = calls at h
    cases h with
    | start => exact absurd hcalls (List.append_ne_nil_of_right_ne_nil _ (List.cons_ne_nil _ _))
    | call hbefore hrun =>
      obtain ⟨rfl, -⟩ := List.append_inj' hcalls rfl
      exact ih hbefore

/-- Every call was a run. -/
theorem Sequence.exists_logs {call : Call O σ E R α} (h : Sequence env task s calls s')
    (hmem : call ∈ calls) : ∃ s₁, Logs env call.before (task call.op) call.events call.result s₁ := by
  obtain ⟨earlier, later, rfl⟩ := List.append_of_mem hmem
  exact h.split.2

/-- The calls that a list of operations makes where the replies are a function of the state. -/
def recordCalls (task : O → Proc E R α) (answer : (e : E) → σ → Except JsError (R e) × σ) :
    List O → List (Call O σ E R α) → σ → List (Call O σ E R α) × σ
  | [], calls, s => (calls, s)
  | op :: ops, calls, s =>
    let run := record answer s (task op)
    recordCalls task answer ops (calls ++ [⟨op, s, run.1, run.2.1⟩]) run.2.2

theorem sequence_recordCalls {answer : (e : E) → σ → Except JsError (R e) × σ}
    (hanswer : ∀ e s, env s e (answer e s).1 (answer e s).2) (ops : List O)
    (h : Sequence env task s calls s') :
    Sequence env task s (recordCalls task answer ops calls s').1
      (recordCalls task answer ops calls s').2 := by
  induction ops generalizing calls s' with
  | nil => exact h
  | cons op ops ih => exact ih (h.call (logs_record hanswer s' (task op)))

/-- What every such call is. -/
theorem forall_recordCalls {answer : (e : E) → σ → Except JsError (R e) × σ} {P : Call O σ E R α → Prop}
    (hcall : ∀ op s, P ⟨op, s, (record answer s (task op)).1, (record answer s (task op)).2.1⟩)
    {ops : List O} (hcalls : ∀ call ∈ calls, P call) :
    ∀ call ∈ (recordCalls task answer ops calls s).1, P call := by
  induction ops generalizing calls s with
  | nil => exact hcalls
  | cons op ops ih =>
    refine ih fun call hmem => ?_
    rcases List.mem_append.mp hmem with hmem | hmem
    · exact hcalls call hmem
    · rw [List.mem_singleton.mp hmem]
      exact hcall op s

/-! ## Procedures that are tried again -/

section Retrying

variable {σ E : Type} {R : E → Type} {α : Type} {env : Env σ E R} {ok : σ → E → Prop}
  {pause : ℕ → Proc E R Unit} {p : Proc E R α}

/-- Run a procedure with so many attempts after the one numbered `attempt`. -/
def retrying (pause : ℕ → Proc E R Unit) (p : Proc E R α) : ℕ → ℕ → Proc E R α
  | 0, _ => p
  | n + 1, attempt => p.catchWith fun _ => do
    pause attempt
    retrying pause p n (attempt + 1)

/-- **The rule for attempts.** `J` holds before each of them. -/
theorem Upholds.retrying {J : σ → Prop} {Q : Except JsError α → σ → Prop}
    (hpause : ∀ attempt s, J s → (pause attempt).Upholds env ok (fun r s' => r = .ok () ∧ J s') s)
    (hp : ∀ s, J s → p.Upholds env ok (fun r s' => match r with
      | .ok a => Q (.ok a) s'
      | .error e => Q (.error e) s' ∧ J s') s) {s : σ} (h : J s) (n attempt : ℕ) :
    (Proc.retrying pause p n attempt).Upholds env ok Q s := by
  induction n generalizing s attempt with
  | zero =>
    refine (hp s h).imp fun r s' hr => ?_
    cases r with
    | ok a => exact hr
    | error e => exact hr.1
  | succ n ih =>
    refine Upholds.catchWith ((hp s h).imp fun r s' hr => ?_)
    cases r with
    | ok a => exact hr
    | error e =>
      refine Upholds.bind ((hpause attempt s' hr.2).imp fun r s'' hpaused => ?_)
      obtain ⟨rfl, hJ⟩ := hpaused
      exact ih hJ (attempt + 1)

/-- **Attempts that change nothing** when they reject are like one of them. -/
theorem upholds_retrying_of_unchanged {Q : Except JsError α → σ → Prop} {s : σ}
    (hpause : ∀ attempt, (pause attempt).Upholds env ok (fun r s' => r = .ok () ∧ s' = s) s)
    (hp : p.Upholds env ok (fun r s' => Q r s' ∧ ((∃ e, r = .error e) → s' = s)) s) (n attempt : ℕ) :
    (Proc.retrying pause p n attempt).Upholds env ok Q s := by
  refine @Upholds.retrying _ _ _ _ _ _ _ _ (fun s' => s' = s) Q ?_ ?_ s rfl n attempt
  · rintro attempt _ rfl
    exact hpause attempt
  · rintro _ rfl
    refine hp.imp fun r s' hr => ?_
    cases r with
    | ok a => exact hr.1
    | error e => exact ⟨hr.1, hr.2 ⟨e, rfl⟩⟩

/-- What an attempt that resolves has done and gives, all attempts together have. -/
theorem ends_retrying {Q : List (Event E R) → α → Prop}
    (hp : ∀ past, p.Ends (fun past' r => ∀ a, r = .ok a → Q past' a) past) (n attempt : ℕ) (past : List (Event E R)) :
    (retrying pause p n attempt).Ends (fun past' r => ∀ a, r = .ok a → Q past' a) past := by
  induction n generalizing attempt past with
  | zero => exact hp past
  | succ n ih =>
    refine Ends.catchWith ((hp past).imp fun past' r hr => ?_)
    cases r with
    | ok a => exact hr
    | error e => exact Ends.bind_any (fun _ past => ih (attempt + 1) past) fun _ _ _ h => nomatch h

/-- All attempts together do nothing but what each of them and the pauses do. -/
theorem Only.retrying {P : Event E R → Prop} (hpause : ∀ attempt, (pause attempt).Only P) (hp : p.Only P)
    (n attempt : ℕ) : (Proc.retrying pause p n attempt).Only P := by
  induction n generalizing attempt with
  | zero => exact hp
  | succ n ih => exact Only.catchWith hp fun _ => Only.bind (hpause attempt) fun _ => ih (attempt + 1)

end Retrying

end DreamWeaver.Proc
