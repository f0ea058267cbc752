import DreamWeaver.Foundations.Interleaving
import DreamWeaver.Gateway.World

/-! # Recording usage

What one call does to the totals. It asks the provider after it has checked both totals and before it has
written one; when the answer comes with usage it writes each total once, as what it has just read there and
that usage. Between two of its steps the other calls may do anything. -/

namespace DreamWeaver.Gateway

open Cache Proc GeminiAIGateway

/-- An effect of the gateway with its reply. -/
abbrev GatewayEvent := Event GatewayEffect GatewayEffect.Reply

/-! ## Events -/

/-- The usage that an event answers with. -/
def usageIn : GatewayEvent → Option UsageMetadata
  | ⟨.generateContent _, .ok response⟩ => response.usageMetadata
  | ⟨.streamResponse _, .ok usage⟩ => usage
  | _ => none

/-- The effect sets the value under a key. -/
def writes (key : Text) : GatewayEffect → Bool
  | .cache (.set written _ _) => written == key
  | _ => false

theorem writes_set (key text : Text) (ttl : Option ℚ) : writes key (.cache (.set key text ttl)) = true :=
  beq_self_eq_true key

/-- The effect asks the provider for content. -/
def asks : GatewayEffect → Bool
  | .generateContent _ => true
  | .generateContentStream _ => true
  | _ => false

/-- An effect that asks the provider nothing and changes no total. -/
def Aside : GatewayEffect → Prop
  | .cache (.get _) => True
  | .cache op => op.key ≠ tokensKey ∧ op.key ≠ costKey
  | .now => True
  | _ => False

variable {g : GeminiAIGateway} {past steps : List GatewayEvent} {effect : GatewayEffect} {key : Text}
  {usage : UsageMetadata}

theorem usageIn_of_aside {event : GatewayEvent} (h : Aside event.effect) : usageIn event = none := by
  obtain ⟨effect, reply⟩ := event
  cases effect with
  | cache op => rfl
  | now => rfl
  | generateContent request => exact h.elim
  | generateContentStream request => rfl
  | streamResponse request => exact h.elim

theorem Aside.writes_eq_false (h : Aside effect) :
    writes tokensKey effect = false ∧ writes costKey effect = false := by
  cases effect with
  | cache op =>
    cases op with
    | set written text ttl => exact ⟨beq_false_of_ne h.1, beq_false_of_ne h.2⟩
    | get written => exact ⟨rfl, rfl⟩
    | increment written ttl => exact ⟨rfl, rfl⟩
    | delete written => exact ⟨rfl, rfl⟩
  | now => exact ⟨rfl, rfl⟩
  | generateContent request => exact ⟨rfl, rfl⟩
  | generateContentStream request => exact ⟨rfl, rfl⟩
  | streamResponse request => exact ⟨rfl, rfl⟩

/-- The usage of the answer of a call, the first one. -/
def answered (past : List GatewayEvent) : Option UsageMetadata := past.findSome? usageIn

/-- **What a call has recorded** in a total: the usage of its answer, once it has written the total. -/
def recorded (key : Text) (past : List GatewayEvent) : Option UsageMetadata :=
  if past.any fun event => writes key event.effect then
    answered (past.takeWhile fun event => !writes key event.effect)
  else none

/-- Nothing in the events writes the total. -/
def Unwritten (key : Text) (past : List GatewayEvent) : Prop := ∀ event ∈ past, writes key event.effect = false

theorem answered_append (h : answered past = some usage) : answered (past ++ steps) = some usage := by
  rw [answered] at h
  rw [answered, List.findSome?_append, h, Option.some_or]

theorem answered_concat (h : answered past = none) (event : GatewayEvent) :
    answered (past ++ [event]) = usageIn event := by
  rw [answered] at h
  rw [answered, List.findSome?_append, h, Option.none_or]
  exact List.findSome?_singleton

theorem answered_append_aside (h : ∀ event ∈ steps, Aside event.effect) :
    answered (past ++ steps) = answered past := by
  have hnone : steps.findSome? usageIn = none :=
    List.findSome?_eq_none_iff.mpr fun event hmem => usageIn_of_aside (h event hmem)
  rw [answered, List.findSome?_append, hnone, Option.or_none, answered]

theorem Unwritten.any_eq_false (h : Unwritten key past) :
    (past.any fun event => writes key event.effect) = false := by
  rw [List.any_eq_false]
  intro event hmem
  rw [h event hmem]
  exact Bool.false_ne_true

theorem Unwritten.append (h : Unwritten key past) (h' : Unwritten key steps) : Unwritten key (past ++ steps) := by
  intro event hmem
  exact (List.mem_append.mp hmem).elim (h event) (h' event)

theorem Unwritten.takeWhile_append (h : Unwritten key past) :
    (past ++ steps).takeWhile (fun event => !writes key event.effect)
      = past ++ steps.takeWhile fun event => !writes key event.effect :=
  List.takeWhile_append_of_pos fun event hmem => by rw [h event hmem]; rfl

theorem recorded_of_unwritten (h : Unwritten key past) : recorded key past = none := by
  rw [recorded, h.any_eq_false, if_neg Bool.false_ne_true]

/-- The first write of a total records the usage answered before it. -/
theorem recorded_of_write {event : GatewayEvent} (h : Unwritten key past) (hwrite : writes key event.effect = true) :
    recorded key (past ++ event :: steps) = answered past := by
  have hany : ((past ++ event :: steps).any fun event => writes key event.effect) = true :=
    List.any_eq_true.mpr ⟨event, by simp, hwrite⟩
  rw [recorded, hany, if_pos rfl, h.takeWhile_append, List.takeWhile_cons_of_neg (by simp [hwrite]), List.append_nil]

/-- Events without a write split at the first write otherwise. -/
theorem unwritten_or_exists_write (key : Text) (past : List GatewayEvent) :
    Unwritten key past ∨ ∃ before event after, past = before ++ event :: after ∧ Unwritten key before ∧
      writes key event.effect = true := by
  induction past with
  | nil => exact .inl fun _ hmem => nomatch hmem
  | cons event past ih =>
    cases hwrite : writes key event.effect with
    | true => exact .inr ⟨[], event, past, rfl, (fun _ hmem => nomatch hmem), hwrite⟩
    | false =>
      rcases ih with hnone | ⟨before, write, after, rfl, hbefore, hwrites⟩
      · exact .inl (List.forall_mem_cons.mpr ⟨hwrite, hnone⟩)
      · exact .inr ⟨event :: before, write, after, rfl, List.forall_mem_cons.mpr ⟨hwrite, hbefore⟩, hwrites⟩

/-- What has been recorded stays recorded. -/
theorem recorded_append (h : recorded key past = some usage) : recorded key (past ++ steps) = some usage := by
  rcases unwritten_or_exists_write key past with hnone | ⟨before, event, after, rfl, hbefore, hwrite⟩
  · rw [recorded_of_unwritten hnone] at h
    cases h
  · rw [recorded_of_write hbefore hwrite] at h
    rwa [List.append_assoc, List.cons_append, recorded_of_write hbefore hwrite]

/-- An event that is no write records nothing. -/
theorem recorded_concat_of_not_writes {event : GatewayEvent} (h : writes key event.effect = false) :
    recorded key (past ++ [event]) = recorded key past := by
  rcases unwritten_or_exists_write key past with hnone | ⟨before, write, after, rfl, hbefore, hwrite⟩
  · rw [recorded_of_unwritten hnone, recorded_of_unwritten (hnone.append ?_)]
    exact fun other hmem => List.mem_singleton.mp hmem ▸ h
  · rw [List.append_assoc, List.cons_append, recorded_of_write hbefore hwrite, recorded_of_write hbefore hwrite]

/-! ## What a call awaits -/

/-- A call that has no answer yet, and has written no total. -/
structure Begun (past : List GatewayEvent) : Prop where
  answered : answered past = none
  tokens : Unwritten tokensKey past
  cost : Unwritten costKey past

/-- A call that has read both totals and found them below the thresholds. -/
structure PassedCheck (g : GeminiAIGateway) (past : List GatewayEvent) : Prop where
  cost : ∃ stored, ⟨.cache (.get costKey), .ok stored⟩ ∈ past ∧
    (readTotal parseFloat stored).atLeast g.costThresholdUsd = false
  tokens : ∃ stored, ⟨.cache (.get tokensKey), .ok stored⟩ ∈ past ∧
    (readTotal parseInt stored).atLeast g.tokenBudgetPerSession = false

/-- A call that has an answer with usage, and has not written a total. -/
structure Owes (key : Text) (past : List GatewayEvent) (usage : UsageMetadata) : Prop where
  answered : answered past = some usage
  unwritten : Unwritten key past

/-- A call that owes a total its usage and has just read it. -/
structure Adds (key : Text) (past : List GatewayEvent) (usage : UsageMetadata) (stored : Option Text) : Prop
    extends Owes key past usage where
  read : ∃ before, past = before ++ [⟨.cache (.get key), .ok stored⟩]

/-- The text of a new token total. -/
def tokensText (g : GeminiAIGateway) (usage : UsageMetadata) (stored : Option Text) : Text :=
  g.showNumber ((readTotal parseInt stored).add (.finite (estimateFinOpsCost usage).tokensTotal))

/-- The text of a new cost total. -/
def costText (g : GeminiAIGateway) (usage : UsageMetadata) (stored : Option Text) : Text :=
  toFixed g.showOther 6 ((readTotal parseFloat stored).add (.finite (estimateFinOpsCost usage).costEstimateUsd))

/-- **What a call awaits** after what it did. -/
def Expected (g : GeminiAIGateway) (past : List GatewayEvent) : GatewayEffect → Prop
  | .generateContent _ => Begun past ∧ PassedCheck g past
  | .generateContentStream _ => Begun past ∧ PassedCheck g past
  | .streamResponse _ => Begun past
  | .now => True
  | .cache (.get _) => True
  | .cache (.delete key) => key ≠ tokensKey ∧ key ≠ costKey
  | .cache (.increment key ttl) => key ≠ costKey ∧ (key = tokensKey → ttl = none)
  | .cache (.set key text ttl) =>
    (key = tokensKey → ttl = some retentionSec ∧
      ∃ usage stored, Adds tokensKey past usage stored ∧ text = tokensText g usage stored) ∧
    (key = costKey → ttl = some retentionSec ∧
      ∃ usage stored, Adds costKey past usage stored ∧ text = costText g usage stored)

/-- A call that has no usage to record, or has written both totals. -/
def Settled (past : List GatewayEvent) : Prop :=
  answered past = none ∨ ¬ Unwritten tokensKey past ∧ ¬ Unwritten costKey past

/-- A call that ends with a value has settled. -/
def Closes {α : Type} (past : List GatewayEvent) (r : Except JsError α) : Prop := ∀ a, r = .ok a → Settled past

theorem Aside.expected (h : Aside effect) : Expected g past effect := by
  cases effect with
  | cache op =>
    cases op with
    | get key => trivial
    | set key text ttl => exact ⟨fun heq => absurd heq h.1, fun heq => absurd heq h.2⟩
    | increment key ttl => exact ⟨h.2, fun heq => absurd heq h.1⟩
    | delete key => exact h
  | now => trivial
  | generateContent request => exact h.elim
  | generateContentStream request => exact h.elim
  | streamResponse request => exact h.elim

/-- Nobody asks without having passed the check. -/
theorem Expected.passedCheck (h : Expected g past effect) (hasks : asks effect = true) : PassedCheck g past := by
  cases effect with
  | generateContent request => exact h.2
  | generateContentStream request => exact h.2
  | cache op => cases hasks
  | now => cases hasks
  | streamResponse request => cases hasks

theorem Begun.append_aside (hbegun : Begun past) (h : ∀ event ∈ steps, Aside event.effect) : Begun (past ++ steps) where
  answered := (answered_append_aside h).trans hbegun.answered
  tokens := hbegun.tokens.append fun event hmem => (h event hmem).writes_eq_false.1
  cost := hbegun.cost.append fun event hmem => (h event hmem).writes_eq_false.2

theorem PassedCheck.append (h : PassedCheck g past) (steps : List GatewayEvent) : PassedCheck g (past ++ steps) where
  cost := h.cost.imp fun _ ⟨hmem, hbelow⟩ => ⟨List.mem_append_left _ hmem, hbelow⟩
  tokens := h.tokens.imp fun _ ⟨hmem, hbelow⟩ => ⟨List.mem_append_left _ hmem, hbelow⟩

theorem Settled.append_aside (hsettled : Settled past) (h : ∀ event ∈ steps, Aside event.effect) :
    Settled (past ++ steps) := by
  refine hsettled.imp (fun hnone => (answered_append_aside h).trans hnone) (And.imp ?_ ?_)
  · exact fun hwritten hnone => hwritten fun event hmem => hnone event (List.mem_append_left _ hmem)
  · exact fun hwritten hnone => hwritten fun event hmem => hnone event (List.mem_append_left _ hmem)

theorem Owes.concat (h : Owes key past usage) (event : GatewayEvent) (hevent : writes key event.effect = false) :
    Owes key (past ++ [event]) usage where
  answered := answered_append h.answered
  unwritten := h.unwritten.append fun _ hmem => List.mem_singleton.mp hmem ▸ hevent

/-- **A settled call has recorded its answer**, whatever it was. -/
theorem recorded_eq_answered (hkey : key = tokensKey ∨ key = costKey) (hsettled : Settled past)
    (hexpected : ∀ before event after, past = before ++ event :: after → Expected g before event.effect) :
    recorded key past = answered past := by
  rcases unwritten_or_exists_write key past with hnone | ⟨before, event, after, hpast, hbefore, hwrite⟩
  · rw [recorded_of_unwritten hnone]
    rcases hsettled with hanswered | ⟨htokens, hcost⟩
    · exact hanswered.symm
    · rcases hkey with rfl | rfl
      · exact absurd hnone htokens
      · exact absurd hnone hcost
  -- the first write was expected, so there was an answer before it
  · have hevent := hexpected before event after hpast
    have howes : ∃ usage, answered before = some usage := by
      obtain ⟨effect, reply⟩ := event
      cases effect with
      | cache op =>
        cases op with
        | set written text ttl =>
          obtain rfl : written = key := eq_of_beq hwrite
          rcases hkey with rfl | rfl
          · obtain ⟨-, usage, stored, hadds, -⟩ := hevent.1 rfl
            exact ⟨usage, hadds.answered⟩
          · obtain ⟨-, usage, stored, hadds, -⟩ := hevent.2 rfl
            exact ⟨usage, hadds.answered⟩
        | get written => cases hwrite
        | increment written ttl => cases hwrite
        | delete written => cases hwrite
      | now => cases hwrite
      | generateContent request => cases hwrite
      | generateContentStream request => cases hwrite
      | streamResponse request => cases hwrite
    obtain ⟨usage, husage⟩ := howes
    rw [hpast, recorded_of_write hbefore hwrite, husage, answered_append husage]

/-! ## The parts of a call -/

section Calls

variable {α β : Type}

/-- A procedure that does nothing but asides. -/
def OnlyAsides (p : GatewayProc α) : Prop := p.Only fun event => Aside event.effect

/-- Asides are always expected, and nothing else is done. -/
theorem OnlyAsides.obeys {p : GatewayProc α} (h : OnlyAsides p) : p.Obeys (Expected g)
    (fun past' _ => ∃ steps, past' = past ++ steps ∧ ∀ event ∈ steps, Aside event.effect) past := by
  induction p generalizing past with
  | done r => exact ⟨[], (List.append_nil _).symm, fun _ hmem => nomatch hmem⟩
  | await e next ih =>
    refine ⟨(h (.error notConfigured)).1.expected, fun reply => (ih reply (h reply).2).imp ?_⟩
    rintro past' r ⟨steps, rfl, hsteps⟩
    refine ⟨⟨e, reply⟩ :: steps, ?_, List.forall_mem_cons.mpr ⟨(h reply).1, hsteps⟩⟩
    rw [List.append_assoc, List.singleton_append]

/-- What does nothing but asides leaves a call settled. -/
theorem OnlyAsides.obeys_closes {p : GatewayProc α} (h : OnlyAsides p) (hsettled : Settled past) :
    p.Obeys (Expected g) Closes past :=
  h.obeys.imp fun _ _ ⟨_, hpast, hsteps⟩ _ _ => hpast ▸ hsettled.append_aside hsteps

theorem openKey_ne : openKey ≠ tokensKey ∧ openKey ≠ costKey := by decide

theorem failuresKey_ne : failuresKey ≠ tokensKey ∧ failuresKey ≠ costKey := by decide

theorem onlyAsides_openCircuit : OnlyAsides g.openCircuit := only_perform fun _ => openKey_ne

theorem onlyAsides_recordFailure : OnlyAsides g.recordFailure := by
  refine Only.bind (only_perform fun _ => failuresKey_ne) fun failures => ?_
  split
  · exact onlyAsides_openCircuit
  · exact only_pure

/-- The key of a story is the key of no total. -/
theorem hashPrompt_ne (prompt : Text) : hashPrompt prompt ≠ tokensKey ∧ hashPrompt prompt ≠ costKey := by
  have hfirst : (hashPrompt prompt).head? = some 115 := rfl
  constructor
  · intro h
    rw [h] at hfirst
    exact absurd hfirst (by decide)
  · intro h
    rw [h] at hfirst
    exact absurd hfirst (by decide)

theorem onlyAsides_validateStory (input : StoryInput) (prompt : Text) (response : ModelResponse) :
    OnlyAsides (g.validateStory input (hashPrompt prompt) response) := by
  refine Only.catchWith ?_ fun _ => only_done
  refine Only.bind only_done fun rawData => Only.bind only_done fun data => ?_
  exact Only.bind (only_perform fun _ => hashPrompt_ne prompt) fun _ => only_pure

theorem onlyAsides_streamChunks (startTime : ℕ) (chunks : List Text) :
    OnlyAsides (g.streamChunks startTime chunks) := by
  induction chunks with
  | nil => exact only_pure
  | cons chunk chunks ih =>
    refine Only.bind (only_perform fun _ => trivial) fun now => ?_
    split
    · exact only_done
    · exact ih

/-- **The check** reads both totals. -/
theorem obeys_checkCircuitBreaker (hbegun : Begun past) : g.checkCircuitBreaker.Obeys (Expected g)
    (fun past' r => r = .ok () → Begun past' ∧ PassedCheck g past') past := by
  have haside : ∀ {past : List GatewayEvent} {key : Text} {reply : Except JsError (Option Text)}, Begun past →
      Begun (past ++ [⟨.cache (.get key), reply⟩]) := fun hbegun =>
    hbegun.append_aside fun event hmem => by
      rw [List.mem_singleton.mp hmem]
      trivial
  -- a circuit that is opened throws
  have hopened : ∀ {past : List GatewayEvent} (error : JsError),
      (do g.openCircuit; Proc.throw error : GatewayProc Unit).Obeys (Expected g)
        (fun past' r => r = .ok () → Begun past' ∧ PassedCheck g past') past := by
    intro past error
    refine Obeys.bind (onlyAsides_openCircuit.obeys.imp fun past' r _ => ?_)
    cases r with
    | error e => exact fun h => nomatch h
    | ok _ => exact fun h => nomatch h
  refine Obeys.bind ⟨trivial, fun reply => ?_⟩
  have hopen := @haside _ openKey reply hbegun
  cases reply with
  | error e => exact fun h => nomatch h
  | ok isOpen =>
    dsimp only [Obeys]
    split
    · exact fun h => nomatch h
    refine Obeys.bind ⟨trivial, fun reply => ?_⟩
    have hcosts := @haside _ costKey reply hopen
    cases reply with
    | error e => exact fun h => nomatch h
    | ok cost =>
      dsimp only [Obeys]
      split
      · exact hopened _
      rename_i hcost
      refine Obeys.bind ⟨trivial, fun reply => ?_⟩
      have htokens := @haside _ tokensKey reply hcosts
      cases reply with
      | error e => exact fun h => nomatch h
      | ok tokens =>
        dsimp only [Obeys]
        split
        · exact hopened _
        rename_i htoken
        refine fun _ => ⟨htokens, ⟨cost, by simp, Bool.eq_false_of_not_eq_true hcost⟩, tokens, by simp, ?_⟩
        exact Bool.eq_false_of_not_eq_true htoken

/-- One operation of a recording; a call whose operation is rejected ends with an error. -/
theorem obeys_operation {op : CacheOp} {k : op.Reply → GatewayProc α} (hop : Expected g past (.cache op))
    (hk : ∀ value, (k value).Obeys (Expected g) Closes (past ++ [⟨.cache op, .ok value⟩])) :
    ((Proc.perform (GatewayEffect.cache op) : GatewayProc op.Reply) >>= k).Obeys (Expected g) Closes past := by
  refine Obeys.bind ⟨hop, fun reply => ?_⟩
  cases reply with
  | ok value => exact hk value
  | error e => exact fun _ h => nomatch h

/-- **The recording** of a usage: each total is read and written back once. -/
theorem obeys_recordUsage (htokens : Owes tokensKey past usage) (hcost : Owes costKey past usage) :
    (g.recordUsage (some usage)).Obeys (Expected g) Closes past := by
  refine obeys_operation failuresKey_ne fun _ => ?_
  replace htokens := htokens.concat ⟨.cache (.delete failuresKey), .ok ()⟩ rfl
  replace hcost := hcost.concat ⟨.cache (.delete failuresKey), .ok ()⟩ rfl
  refine obeys_operation ⟨by decide, fun _ => rfl⟩ fun count => ?_
  replace htokens := htokens.concat ⟨.cache (.increment tokensKey none), .ok count⟩ rfl
  replace hcost := hcost.concat ⟨.cache (.increment tokensKey none), .ok count⟩ rfl
  refine obeys_operation trivial fun tokens => ?_
  replace htokens := htokens.concat ⟨.cache (.get tokensKey), .ok tokens⟩ rfl
  replace hcost := hcost.concat ⟨.cache (.get tokensKey), .ok tokens⟩ rfl
  refine obeys_operation ⟨fun _ => ⟨rfl, usage, tokens, ⟨htokens, _, rfl⟩, rfl⟩, fun heq => absurd heq (by decide)⟩
    fun _ => ?_
  replace hcost := hcost.concat ⟨.cache (.set tokensKey (tokensText g usage tokens) (some retentionSec)), .ok ()⟩ rfl
  refine obeys_operation trivial fun cost => ?_
  replace hcost := hcost.concat ⟨.cache (.get costKey), .ok cost⟩ rfl
  refine ⟨⟨fun heq => absurd heq (by decide), fun _ => ⟨rfl, usage, cost, ⟨hcost, _, rfl⟩, rfl⟩⟩,
    fun reply _ _ => .inr ⟨fun hnone => ?_, fun hnone => ?_⟩⟩
  · have hunwritten := hnone ⟨.cache (.set tokensKey (tokensText g usage tokens) (some retentionSec)), .ok ()⟩
      (by simp [tokensText])
    exact Bool.false_ne_true (hunwritten.symm.trans (writes_set _ _ _))
  · have hunwritten := hnone _ (List.mem_append_right _ (List.mem_singleton_self _))
    exact Bool.false_ne_true (hunwritten.symm.trans (writes_set _ _ _))

/-- A recording and what is done with the response afterwards. -/
theorem obeys_recorded {answer : Option UsageMetadata} {finish : GatewayProc α} (hanswer : answered past = answer)
    (htokens : Unwritten tokensKey past) (hcost : Unwritten costKey past) (hfinish : OnlyAsides finish) :
    (g.recordUsage answer >>= fun _ => finish).Obeys (Expected g) Closes past := by
  cases answer with
  | none => exact hfinish.obeys_closes (.inl hanswer)
  | some usage =>
    refine Obeys.bind ((obeys_recordUsage ⟨hanswer, htokens⟩ ⟨hanswer, hcost⟩).imp fun past' r hsettled => ?_)
    cases r with
    | ok _ => exact hfinish.obeys_closes (hsettled () rfl)
    | error e => exact fun _ h => nomatch h

/-- A `try` that counts a failure and throws it again. -/
theorem obeys_guarded {body : GatewayProc α} (hbody : body.Obeys (Expected g) Closes past) :
    (body.catchWith fun error => do g.recordFailure; Proc.throw error).Obeys (Expected g) Closes past := by
  refine Obeys.catchWith (hbody.imp fun past' r hcloses => ?_)
  cases r with
  | ok a => exact hcloses
  | error e =>
    refine Obeys.bind (onlyAsides_recordFailure.obeys.imp fun past' r _ => ?_)
    cases r with
    | ok _ => exact fun _ h => nomatch h
    | error e => exact fun _ h => nomatch h

/-- Asking for content after the check. -/
theorem obeys_attempt {request : ModelRequest} {finish : ModelResponse → GatewayProc α} (hbegun : Begun past)
    (hpassed : PassedCheck g past) (hfinish : ∀ response, OnlyAsides (finish response)) :
    (g.attempt request finish).Obeys (Expected g) Closes past := by
  refine obeys_guarded (Obeys.bind ⟨⟨hbegun, hpassed⟩, fun reply => ?_⟩)
  cases reply with
  | error e => exact fun _ h => nomatch h
  | ok response =>
    refine obeys_recorded ?_ (hbegun.tokens.append ?_) (hbegun.cost.append ?_) (hfinish response)
    · exact answered_concat hbegun.answered _
    · exact fun event hmem => List.mem_singleton.mp hmem ▸ rfl
    · exact fun event hmem => List.mem_singleton.mp hmem ▸ rfl

/-- What is done once the check has been passed. -/
theorem obeys_checked {p : GatewayProc α} (hbegun : Begun past)
    (hp : ∀ past, Begun past → PassedCheck g past → p.Obeys (Expected g) Closes past) :
    (g.checkCircuitBreaker >>= fun _ => p).Obeys (Expected g) Closes past := by
  refine Obeys.bind ((obeys_checkCircuitBreaker hbegun).imp fun past' r hchecked => ?_)
  cases r with
  | ok _ => exact hp past' (hchecked rfl).1 (hchecked rfl).2
  | error e => exact fun _ h => nomatch h

/-- An event that the provider does not answer with usage leaves a call without an answer. -/
theorem Begun.concat (hbegun : Begun past) {event : GatewayEvent} (husage : usageIn event = none)
    (htokens : writes tokensKey event.effect = false) (hcost : writes costKey event.effect = false) :
    Begun (past ++ [event]) where
  answered := (answered_concat hbegun.answered event).trans husage
  tokens := hbegun.tokens.append fun _ hmem => List.mem_singleton.mp hmem ▸ htokens
  cost := hbegun.cost.append fun _ hmem => List.mem_singleton.mp hmem ▸ hcost

theorem obeys_generateStoryStream (input : StoryInput) (hbegun : Begun past) :
    (g.generateStoryStream input).Obeys (Expected g) Closes past := by
  unfold generateStoryStream
  split
  · refine obeys_checked hbegun fun past hbegun hpassed => ?_
    split
    · exact fun _ h => nomatch h
    refine Obeys.bind ⟨trivial, fun reply => ?_⟩
    cases reply with
    | error e => exact fun _ h => nomatch h
    | ok startTime =>
      replace hbegun := @Begun.concat _ hbegun ⟨.now, .ok startTime⟩ rfl rfl rfl
      refine obeys_guarded (Obeys.bind ⟨⟨hbegun, hpassed.append _⟩, fun reply => ?_⟩)
      cases reply with
      | error e => exact fun _ h => nomatch h
      | ok result =>
        replace hbegun := @Begun.concat _ hbegun ⟨.generateContentStream _, .ok result⟩ rfl rfl rfl
        -- the chunks, and then the response for its usage
        refine Obeys.bind ((onlyAsides_streamChunks startTime result.chunks).obeys.imp ?_)
        rintro past' r ⟨steps, rfl, hsteps⟩
        replace hbegun := hbegun.append_aside hsteps
        cases r with
        | error e => exact fun _ h => nomatch h
        | ok _ =>
          refine Obeys.bind ?_
          cases result.ending with
          | error e => exact fun _ h => nomatch h
          | ok _ =>
            refine Obeys.bind ⟨hbegun, fun reply => ?_⟩
            cases reply with
            | error e => exact fun _ h => nomatch h
            | ok answer =>
              refine obeys_recorded ?_ (hbegun.tokens.append ?_) (hbegun.cost.append ?_) only_pure
              · exact answered_concat hbegun.answered _
              · exact fun event hmem => List.mem_singleton.mp hmem ▸ rfl
              · exact fun event hmem => List.mem_singleton.mp hmem ▸ rfl
  · exact fun _ h => nomatch h

/-- **Every call does what is expected of it**, and has settled when it ends with a value. -/
theorem obeys_call (call : GatewayCall) : (call.run g).Obeys (Expected g) Closes [] := by
  have hbegun : Begun [] := ⟨rfl, (fun _ hmem => nomatch hmem), fun _ hmem => nomatch hmem⟩
  cases call with
  | generateStory input =>
    show (g.generateStory input).Obeys _ _ _
    unfold generateStory
    split
    · split
      · exact fun _ h => nomatch h
      rename_i prompt _
      refine Obeys.bind ⟨trivial, fun reply => ?_⟩
      cases reply with
      | error e => exact fun _ h => nomatch h
      | ok cachedJson =>
        replace hbegun := @Begun.concat _ hbegun ⟨.cache (.get (hashPrompt prompt)), .ok cachedJson⟩ rfl rfl rfl
        dsimp only [Obeys]
        split
        · exact fun _ _ => .inl hbegun.answered
        · exact obeys_checked hbegun fun past hbegun hpassed =>
            obeys_attempt hbegun hpassed (onlyAsides_validateStory input prompt)
    · exact fun _ h => nomatch h
  | generateStoryStream input => exact obeys_generateStoryStream input hbegun
  | generateAgentThought input =>
    show (g.generateAgentThought input).Obeys _ _ _
    unfold generateAgentThought
    split
    · exact obeys_checked hbegun fun past hbegun hpassed =>
        obeys_attempt hbegun hpassed fun _ => Only.bind only_done fun _ => only_done
    · exact fun _ h => nomatch h
  | generateStructured input =>
    show (g.generateStructured input).Obeys _ _ _
    unfold generateStructured
    split
    · exact obeys_checked hbegun fun past hbegun hpassed => obeys_attempt hbegun hpassed fun _ => only_done
    · exact fun _ h => nomatch h

/-- A call whose result nobody waits for. -/
def GatewayCall.task (g : GeminiAIGateway) (call : GatewayCall) : GatewayProc Unit := do
  let _ ← call.run g
  pure ()

theorem obeys_task (call : GatewayCall) : (call.task g).Obeys (Expected g) Closes [] := by
  refine Obeys.bind ((obeys_call call).imp fun past r hcloses => ?_)
  cases r with
  | ok a => exact fun _ _ => hcloses a rfl
  | error e => exact fun _ h => nomatch h

end Calls

end DreamWeaver.Gateway
