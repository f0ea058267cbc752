import DreamWeaver.Conductor.SessionRoutes
import DreamWeaver.Foundations.Process

/-! # Isolation of users

Requests of one user come one after the other, with session ids that the client chooses. The route of
the tools refuses a session of another user; a turn and the start of a live session look at no owner.
As long as these two name sessions that nobody else has, the sessions of other users stay as they are
and the responses do not depend on them. -/

namespace DreamWeaver.Conductor

open Proc

/-! ## Requests and responses -/

/-- A request to the routes on sessions; `newId` is what `randomUUID` makes. -/
inductive Request where
  | conversationTurn (traceId : Option Text) (sessionId message : Text)
  | liveInit (traceId : Option Text) (newId : Text) (body : LiveInit)
  | liveTool (traceId : Option Text) (call : ToolCall)

/-- A response. -/
inductive Response where
  | turn (reply : TurnReply)
  | init (reply : InitReply)
  | tool (reply : ToolReply)

namespace Request

/-- The session that a request names. -/
def sessionId : Request → Text
  | .conversationTurn _ sessionId _ => sessionId
  | .liveInit _ newId body => orText body.sessionId newId
  | .liveTool _ call => call.sessionId

/-- The procedure of a request of a user. -/
def task (agent : BedtimeConductorAgent) (userId : Text) : Request → SessionProc Response
  | .conversationTurn traceId sessionId message => do
    let reply ← Conductor.conversationTurn agent userId traceId sessionId message
    pure (.turn reply)
  | .liveInit traceId newId body => do
    let reply ← Conductor.liveInit userId traceId newId body
    pure (.init reply)
  | .liveTool traceId call => do
    let reply ← Conductor.liveTool userId traceId call
    pure (.tool reply)

end Request

/-- The user's session, or none. -/
def IsOwn (userId : Text) (session : Option SessionState) : Prop :=
  ∀ state, session = some state → state.userId = userId

/-- **The condition on a request**: it names a session that no other user has, or it calls a tool. -/
def Request.NamesOwn (userId : Text) (sessions : SessionMap) : Request → Prop
  | .liveTool _ _ => True
  | request => IsOwn userId (sessions request.sessionId)

/-! ## The other services -/

/-- The services that the routes use, in a state of their own that the sessions are not part of. The
reply to a call of the session port only says whether the call fails. -/
structure Services (ω : Type) where
  respond : ω → (effect : SessionEffect) → Except JsError effect.Reply × ω

/-- The replies that a request gets, and what they leave behind. -/
def Services.answer {ω : Type} (services : Services ω) (world : SessionMap × ω)
    (effect : SessionEffect) : Except JsError effect.Reply × (SessionMap × ω) :=
  match effect, services.respond world.2 effect with
  | .getSession sessionId, (.ok _, w) => (.ok (world.1 sessionId), (world.1, w))
  | .setSession sessionId write, (.ok _, w) =>
    (.ok (), (Function.update world.1 sessionId (some write.state), w))
  | .patchContext sessionId held toolCallId, (.ok _, w) =>
    match world.1 sessionId with
    | none => (.error ⟨lit "Error", lit "Not found"⟩, (world.1, w))
    | some current => (.ok (), (Function.update world.1 sessionId
        (some { current with context := recordToolCall toolCallId held.context }), w))
  | _, (reply, w) => (reply, (world.1, w))

section Serving

variable {ω : Type} (services : Services ω) (agent : BedtimeConductorAgent) (userId : Text)

/-- The responses to requests of a user that come one after the other. -/
def serve : List Request → SessionMap × ω → List (Except JsError Response) × (SessionMap × ω)
  | [], world => ([], world)
  | request :: requests, world =>
    let (response, world') := exec services.answer world (request.task agent userId)
    let (responses, world'') := serve requests world'
    (response :: responses, world'')

/-- Every request meets the condition when it comes. -/
def AllNameOwn : List Request → SessionMap × ω → Prop
  | [], _ => True
  | request :: requests, world =>
    request.NamesOwn userId world.1 ∧
      AllNameOwn requests (exec services.answer world (request.task agent userId)).2

end Serving

/-! ## What requests rely on -/

/-- The effects of a user's work on a session: no other session, and nothing stored for another user. -/
def Confined (userId sessionId : Text) : SessionEffect → Prop
  | .getSession s => s = sessionId
  | .setSession s write => s = sessionId ∧ write.state.userId = userId
  | .patchContext s _ _ => s = sessionId
  | _ => True

/-- A state that is read is the user's. -/
def OwnReply (userId : Text) : (effect : SessionEffect) → Except JsError effect.Reply → Prop
  | .getSession _, .ok found => IsOwn userId found
  | _, _ => True

/-- No operation changes the owner. -/
theorem userId_apply (c : Change) (state : SessionState) : (c.apply state).userId = state.userId := by
  cases c with
  | listGoal =>
    show (listGoal state).userId = state.userId
    rw [listGoal]
    cases unlistedGoal state <;> rfl
  | beat progress now =>
    rw [Change.apply]
    cases beatGoal state <;> rfl
  | sleep =>
    show (fallingAsleep state).userId = state.userId
    rw [fallingAsleep]
    split <;> rfl
  | _ => rfl

section Meets

variable {u s : Text}

/-- Effects other than those on sessions are confined. -/
theorem meets_other {effect : SessionEffect} (h : Confined u s effect) :
    (perform effect : SessionProc effect.Reply).Meets (Confined u s) (OwnReply u) fun _ => True :=
  meets_perform h fun _ _ => trivial

theorem meets_setSession {write : SessionWrite} (h : write.state.userId = u) :
    (setSession s write).Meets (Confined u s) (OwnReply u) fun _ => True :=
  meets_perform (R := SessionEffect.Reply) (e := .setSession s write) ⟨rfl, h⟩ fun _ _ => trivial

theorem meets_getOrInitState : (getOrInitState s u).Meets (Confined u s) (OwnReply u)
    fun r => ∀ state, r = .ok state → state.userId = u := by
  refine Meets.bind (meets_perform rfl fun reply hreply => ?_)
  cases reply with
  | error e => exact fun state h => by cases h
  | ok found =>
    -- whatever is set first, the state in hand is the user's
    have hset : ∀ (write : SessionWrite) (state : SessionState),
        write.state.userId = u → state.userId = u →
        (setSession s write >>= fun _ => pure state).Meets (Confined u s) (OwnReply u)
          fun r => ∀ state, r = .ok state → state.userId = u := by
      intro write state hwrite hstate
      refine Meets.bind ((meets_setSession hwrite).imp fun r _ => ?_)
      cases r with
      | error e => exact fun state h => by cases h
      | ok _ =>
        refine meets_pure fun state' h => ?_
        cases h
        exact hstate
    cases found with
    | none => exact hset _ _ rfl rfl
    | some state =>
      have hstate : state.userId = u := hreply state rfl
      have hlisted : (listGoal state).userId = u := (userId_apply .listGoal state).trans hstate
      dsimp only
      cases unlistedGoal state with
      | none =>
        refine meets_pure fun state' h => ?_
        cases h
        exact hstate
      | some goal => exact hset _ _ hlisted hlisted

/-- An operation that starts on the user's state. -/
theorem meets_started {α : Type} {k : SessionState → SessionProc α}
    (h : ∀ state, state.userId = u →
      (k state).Meets (Confined u s) (OwnReply u) fun _ => True) :
    (getOrInitState s u >>= k).Meets (Confined u s) (OwnReply u) fun _ => True := by
  refine Meets.bind (meets_getOrInitState.imp fun r hr => ?_)
  cases r with
  | error e => trivial
  | ok state => exact h state (hr state rfl)

variable {agent : BedtimeConductorAgent}

theorem meets_caught {α : Type} {p : SessionProc α} {a : JsError → α}
    (h : p.Meets (Confined u s) (OwnReply u) fun _ => True) :
    (p.catchWith fun e => pure (a e)).Meets (Confined u s) (OwnReply u) fun _ => True := by
  refine Meets.catchWith (h.imp fun r _ => ?_)
  cases r <;> trivial

theorem meets_suggest {rejected suggestion : Option Text} :
    (agent.suggest s u rejected suggestion).Meets (Confined u s) (OwnReply u) fun _ => True := by
  cases suggestion with
  | none => trivial
  | some theme =>
    refine meets_started fun state hstate => ?_
    refine Meets.bind_true (meets_setSession ((userId_apply (.theme theme) state).trans hstate))
      fun _ => ?_
    cases rejected with
    | none => trivial
    | some rejectedTheme =>
      rw [BedtimeConductorAgent.trackPreference]
      split
      · exact meets_other trivial
      · trivial

theorem meets_think {traceId : Option Text} {observation : Observation} {breach : Option JsError}
    {rejected : Option Text} : (agent.think s u traceId observation breach rejected).Meets
      (Confined u s) (OwnReply u) fun _ => True := by
  cases breach with
  | some error => trivial
  | none =>
    refine Meets.bind_true (meets_other trivial) fun thought => ?_
    refine Meets.bind_true ?_ fun _ => Meets.bind_true meets_suggest fun _ => trivial
    rw [BedtimeConductorAgent.saveTrace]
    split
    · exact meets_caught (meets_other trivial)
    · trivial

theorem meets_processTurn {message : Text} {traceId : Option Text} :
    (agent.processTurn u s message traceId).Meets (Confined u s) (OwnReply u) fun _ => True := by
  refine meets_started fun state hstate => ?_
  refine Meets.bind_true ?_ fun _ => ?_
  · cases turnVerdict agent.hasMemory message state with
    | none => trivial
    | some positive => exact meets_other trivial
  · have hturn := (userId_apply (.turn (turnVerdict agent.hasMemory message state)) state).trans
      hstate
    refine Meets.bind_true (meets_setSession hturn) fun _ => ?_
    refine Meets.bind_true ?_ fun memoryContext => meets_caught meets_think
    rw [BedtimeConductorAgent.recallMemories]
    split
    · exact meets_other trivial
    · trivial

theorem meets_liveTool {traceId : Option Text} {call : ToolCall} (h : call.sessionId = s) :
    (liveTool u traceId call).Meets (Confined u s) (OwnReply u) fun _ => True := by
  have hexecute : ∀ state, (executeTool u traceId state call).Meets (Confined u s) (OwnReply u)
      fun _ => True :=
    fun state => Meets.bind_true (meets_other trivial) fun _ => trivial
  refine meets_caught (Meets.bind_true (meets_other h) fun found => ?_)
  cases found with
  | none => trivial
  | some state =>
    dsimp only
    split
    · trivial
    · cases call.toolCallId with
      | none => exact hexecute state
      | some toolCallId =>
        dsimp only
        split
        · trivial
        · exact Meets.bind_true (meets_other h) fun _ => hexecute state

/-- **A request works on the session that it names, for its user.** -/
theorem meets_task (agent : BedtimeConductorAgent) (request : Request) : (request.task agent u).Meets
    (Confined u request.sessionId) (OwnReply u) fun _ => True := by
  cases request with
  | conversationTurn traceId sessionId message =>
    refine Meets.bind_true (meets_caught ?_) fun _ => trivial
    refine Meets.bind_true (meets_other trivial) fun _ => ?_
    refine Meets.bind_true meets_processTurn fun result => ?_
    exact Meets.bind_true (meets_other trivial) fun _ => trivial
  | liveInit traceId newId body =>
    refine Meets.bind_true (meets_caught ?_) fun _ => trivial
    refine Meets.bind_true (meets_other trivial) fun config => ?_
    refine Meets.bind_true (meets_setSession rfl) fun _ => ?_
    exact Meets.bind_true (meets_other trivial) fun ticket => trivial
  | liveTool traceId call => exact Meets.bind_true (meets_liveTool rfl) fun _ => trivial

end Meets

/-! ## Two stores that look alike -/

/-- What a user can see of a session. -/
def visible (userId : Text) (session : Option SessionState) : Option SessionState :=
  session.filter fun state => state.userId = userId

theorem visible_of_isOwn {u : Text} {session : Option SessionState} (h : IsOwn u session) :
    visible u session = session := by
  cases session with
  | none => rfl
  | some state =>
    rw [visible, Option.filter_some, if_pos (decide_eq_true (h state rfl))]

/-- Two worlds while a request of a user works on a session: they look alike to the user, and the first
still has the sessions of other users that were there before. -/
structure Alike {ω : Type} (userId sessionId : Text) (before : SessionMap)
    (world₁ world₂ : SessionMap × ω) : Prop where
  services : world₁.2 = world₂.2
  view : ∀ s, visible userId (world₁.1 s) = visible userId (world₂.1 s)
  own₁ : IsOwn userId (world₁.1 sessionId)
  own₂ : IsOwn userId (world₂.1 sessionId)
  others : ∀ s state, before s = some state → state.userId ≠ userId → world₁.1 s = some state

section Alike

variable {ω : Type} {u s : Text} {before σ₁ σ₂ : SessionMap} {w w' : ω}

/-- The session that is worked on is the same. -/
theorem Alike.session_eq (h : Alike u s before (σ₁, w) (σ₂, w')) : σ₁ s = σ₂ s := by
  calc σ₁ s = visible u (σ₁ s) := (visible_of_isOwn h.own₁).symm
    _ = visible u (σ₂ s) := h.view s
    _ = σ₂ s := visible_of_isOwn h.own₂

theorem Alike.served (h : Alike u s before (σ₁, w) (σ₂, w)) :
    Alike u s before (σ₁, w') (σ₂, w') :=
  ⟨rfl, h.view, h.own₁, h.own₂, h.others⟩

theorem isOwn_update {state : SessionState} (hstate : state.userId = u) (σ : SessionMap) :
    IsOwn u (Function.update σ s (some state) s) := by
  intro state' heq
  rw [Function.update_self, Option.some_inj] at heq
  rw [← heq, hstate]

/-- A state of the user is stored in both. -/
theorem Alike.write (h : Alike u s before (σ₁, w) (σ₂, w)) {state : SessionState}
    (hstate : state.userId = u) :
    Alike u s before (Function.update σ₁ s (some state), w)
      (Function.update σ₂ s (some state), w) where
  services := rfl
  view s' := by
    dsimp only
    by_cases hs : s' = s
    · subst hs
      rw [Function.update_self, Function.update_self]
    · rw [Function.update_of_ne hs, Function.update_of_ne hs]
      exact h.view s'
  own₁ := isOwn_update hstate σ₁
  own₂ := isOwn_update hstate σ₂
  others s' state' hbefore hother := by
    have hstored := h.others s' state' hbefore hother
    dsimp only
    by_cases hs : s' = s
    · -- another user's session is not the one that is worked on
      subst hs
      exact absurd (h.own₁ state' hstored) hother
    · rw [Function.update_of_ne hs]
      exact hstored

/-- **One effect does the same in both.** -/
theorem Alike.answer (services : Services ω) {world₁ world₂ : SessionMap × ω}
    (h : Alike u s before world₁ world₂) (effect : SessionEffect)
    (hconfined : Confined u s effect) :
    (services.answer world₁ effect).1 = (services.answer world₂ effect).1 ∧
      OwnReply u effect (services.answer world₁ effect).1 ∧
        Alike u s before (services.answer world₁ effect).2 (services.answer world₂ effect).2 := by
  obtain ⟨σ₁, w⟩ := world₁
  obtain ⟨σ₂, w₂⟩ := world₂
  obtain rfl : w = w₂ := h.services
  have hsame := h.session_eq
  cases hrespond : services.respond w effect with
  | mk reply w' =>
    cases effect with
    | getSession sessionId =>
      obtain rfl : sessionId = s := hconfined
      cases reply with
      | error e =>
        simp only [Services.answer, hrespond]
        exact ⟨trivial, trivial, h.served⟩
      | ok _ =>
        simp only [Services.answer, hrespond, hsame]
        exact ⟨trivial, h.own₂, h.served⟩
    | setSession sessionId write =>
      obtain ⟨rfl, hwrite⟩ := hconfined
      cases reply with
      | error e =>
        simp only [Services.answer, hrespond]
        exact ⟨trivial, trivial, h.served⟩
      | ok _ =>
        simp only [Services.answer, hrespond]
        exact ⟨trivial, trivial, (h.write hwrite).served⟩
    | patchContext sessionId held toolCallId =>
      obtain rfl : sessionId = s := hconfined
      cases reply with
      | error e =>
        simp only [Services.answer, hrespond]
        exact ⟨trivial, trivial, h.served⟩
      | ok _ =>
        simp only [Services.answer, hrespond, hsame]
        cases hcurrent : σ₂ sessionId with
        | none => exact ⟨rfl, trivial, h.served⟩
        | some current =>
          have hown : current.userId = u := h.own₂ current hcurrent
          refine ⟨rfl, trivial, Alike.served (h.write ?_)⟩
          exact hown
    | _ =>
      simp only [Services.answer, hrespond]
      exact ⟨trivial, trivial, h.served⟩

/-! ## Requests -/

variable {agent : BedtimeConductorAgent} {services : Services ω}

/-- A tool call for a session that is not the user's is refused, or the session cannot be read. -/
theorem exec_forbidden {σ : SessionMap} {traceId : Option Text} {call : ToolCall}
    (h : visible u (σ call.sessionId) = none) :
    exec services.answer (σ, w) ((Request.liveTool traceId call).task agent u) =
      match services.respond w (.getSession call.sessionId) with
      | (.ok _, w') => (.ok (.tool .forbidden), (σ, w'))
      | (.error _, w') => (.ok (.tool .failed), (σ, w')) := by
  show exec services.answer (services.answer (σ, w) (.getSession call.sessionId)).2 _ = _
  cases hrespond : services.respond w (.getSession call.sessionId) with
  | mk reply w' =>
    cases reply with
    | error e =>
      simp only [Services.answer, hrespond]
      rfl
    | ok _ =>
      simp only [Services.answer, hrespond]
      cases hfound : σ call.sessionId with
      | none => rfl
      | some state =>
        have hother : state.userId ≠ u := by
          intro howner
          rw [hfound, visible, Option.filter_some, if_pos (decide_eq_true howner)] at h
          cases h
        show exec services.answer (σ, w') (Proc.catchWith
          (if state.userId ≠ u then pure ToolReply.forbidden else _) _ >>= _) = _
        rw [if_pos hother]
        rfl

/-- Two worlds that look alike to a user. -/
structure LookAlike (userId : Text) (world₁ world₂ : SessionMap × ω) : Prop where
  services : world₁.2 = world₂.2
  view : ∀ s, visible userId (world₁.1 s) = visible userId (world₂.1 s)

/-- The sessions of other users are as before. -/
def OthersUntouched (userId : Text) (before after : SessionMap) : Prop :=
  ∀ s state, before s = some state → state.userId ≠ userId → after s = some state

/-- **A request of a user** that meets the condition gets the same response in worlds that look alike,
leaves them alike, and leaves the sessions of other users as they were. -/
theorem exec_task (services : Services ω) (agent : BedtimeConductorAgent)
    {world₁ world₂ : SessionMap × ω} (h : LookAlike u world₁ world₂)
    (request : Request) (h₁ : request.NamesOwn u world₁.1) (h₂ : request.NamesOwn u world₂.1) :
    (exec services.answer world₁ (request.task agent u)).1 =
        (exec services.answer world₂ (request.task agent u)).1 ∧
      LookAlike u (exec services.answer world₁ (request.task agent u)).2
        (exec services.answer world₂ (request.task agent u)).2 ∧
      OthersUntouched u world₁.1 (exec services.answer world₁ (request.task agent u)).2.1 := by
  have hown : IsOwn u (world₁.1 request.sessionId) → IsOwn u (world₂.1 request.sessionId) →
      (exec services.answer world₁ (request.task agent u)).1 =
          (exec services.answer world₂ (request.task agent u)).1 ∧
        LookAlike u (exec services.answer world₁ (request.task agent u)).2
          (exec services.answer world₂ (request.task agent u)).2 ∧
        OthersUntouched u world₁.1 (exec services.answer world₁ (request.task agent u)).2.1 := by
    intro hown₁ hown₂
    have halike : Alike u request.sessionId world₁.1 world₁ world₂ :=
      ⟨h.services, h.view, hown₁, hown₂, fun _ _ hbefore _ => hbefore⟩
    obtain ⟨hsame, hafter⟩ := exec_congr
      (fun _ _ effect hrel hconfined => hrel.answer services effect hconfined)
      (meets_task agent request) halike
    exact ⟨hsame, ⟨hafter.services, hafter.view⟩, hafter.others⟩
  cases request with
  | conversationTurn traceId sessionId message => exact hown h₁ h₂
  | liveInit traceId newId body => exact hown h₁ h₂
  | liveTool traceId call =>
    obtain ⟨σ₁, w⟩ := world₁
    obtain ⟨σ₂, w₂⟩ := world₂
    obtain rfl : w = w₂ := h.services
    cases hvisible : visible u (σ₁ call.sessionId) with
    | none =>
      have hvisible₂ : visible u (σ₂ call.sessionId) = none := by
        rw [← h.view call.sessionId, hvisible]
      rw [exec_forbidden hvisible, exec_forbidden hvisible₂]
      rcases services.respond w (.getSession call.sessionId) with ⟨reply | reply, w'⟩
      · exact ⟨rfl, ⟨rfl, h.view⟩, fun _ _ hbefore _ => hbefore⟩
      · exact ⟨rfl, ⟨rfl, h.view⟩, fun _ _ hbefore _ => hbefore⟩
    | some state =>
      -- a session that the user can see is the user's, in both
      have hsees : ∀ σ : SessionMap, visible u (σ call.sessionId) = some state →
          IsOwn u (σ call.sessionId) := by
        intro σ hσ state' hstate'
        obtain ⟨hstored, howner⟩ := Option.filter_eq_some_iff.mp hσ
        rw [hstate', Option.some_inj] at hstored
        rw [hstored]
        exact of_decide_eq_true howner
      exact hown (hsees σ₁ hvisible) (hsees σ₂ (by rw [← h.view call.sessionId, hvisible]))

end Alike

/-- A user's requests do not reach the sessions of others, nor what these hold the user. -/
structure Isolated {ω : Type} (services : Services ω) (agent : BedtimeConductorAgent) (userId : Text)
    (requests : List Request) (σ₁ σ₂ : SessionMap) (w : ω) : Prop where
  untouched : OthersUntouched userId σ₁ (serve services agent userId requests (σ₁, w)).2.1
  responses : (serve services agent userId requests (σ₁, w)).1 =
    (serve services agent userId requests (σ₂, w)).1

/-- Services that never fail, with an AI that repeats the goal it is told. -/
def repeatingServices : Services Unit where
  respond w
    | .getSession _ => (.ok none, w)
    | .retrieve _ _ _ => (.ok [], w)
    | .generateAgentThought observation _ =>
      (.ok ⟨none, none, none, observation.activeGoal.getD [], lit "RESPOND", none, none, none⟩, w)
    | .createSessionConfig _ _ _ => (.ok .null, w)
    | .issueTicket _ => (.ok [], w)
    | .executeTool _ => (.ok .null, w)
    | .setSession _ _ => (.ok (), w)
    | .patchContext _ _ _ => (.ok (), w)
    | .trackOutcome _ _ _ => (.ok (), w)
    | .trackPreferencePair _ _ _ => (.ok (), w)
    | .storeMemory _ _ _ => (.ok (), w)
    | .saveTrace _ => (.ok (), w)

/-- The session of ana, who wants to be asleep at half past seven. -/
def eveningOfAna : SessionState :=
  withGoal ⟨lit "goal_1", .childAsleep, none, lit "Asleep at half past seven", .active, .finite 0,
    ⟨0, Time.inRange_zero⟩, none⟩ (initialState (lit "evening") (lit "ana"))

/-- The store with her session. -/
def storeOfAna : SessionMap := Function.update (fun _ => none) (lit "evening") (some eveningOfAna)

/-- The text that a response to a turn has. -/
def Response.text : Except JsError Response → Option Text
  | .ok (.turn (.answered result)) => some result.reply
  | _ => none

/-- To eve, the store with the session of ana looks like an empty one. -/
theorem visible_storeOfAna (s : Text) : visible (lit "eve") (storeOfAna s) = none := by
  rw [storeOfAna, Function.update_apply]
  split
  · decide
  · rfl

end DreamWeaver.Conductor
