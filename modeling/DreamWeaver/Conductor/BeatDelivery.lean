import DreamWeaver.Conductor.AgentOperations
import DreamWeaver.Stories.Release

/-! # The delivery of beats

`GenerateStoryUseCase` gives the conductor the id of the request as the session, and publishes a beat for
each paragraph. The conductor finds the session of a beat in the payload, where the use case has not put
it, so that every beat goes to `session_default`. -/

namespace DreamWeaver.Conductor

open Proc
open Stories (DomainEvent EventPayload GenerateStoryRequest Collaborators)

/-! ## The payload of a beat -/

/-- What `handleStoryBeat` reads of `payload.context`. -/
structure BeatContext where
  sessionId : Option Text
  userId : Option Text

/-- What `handleStoryBeat` reads of a payload, which it takes for `any`. -/
structure BeatPayload where
  context : Option BeatContext
  sessionId : Option Text
  userId : Option Text
  beatIndex : JsNumber
  totalBeats : JsNumber

/-- `payload.context?.sessionId || payload.sessionId || 'session_default'` -/
def BeatPayload.sessionFor (payload : BeatPayload) : Text :=
  orText (payload.context.bind BeatContext.sessionId) (orText payload.sessionId (lit "session_default"))

/-- `payload.context?.userId || payload.userId || 'anon'` -/
def BeatPayload.userFor (payload : BeatPayload) : Text :=
  orText (payload.context.bind BeatContext.userId) (orText payload.userId (lit "anon"))

/-- The payload of a published event as `handleStoryBeat` reads it, if the event is a beat. -/
def beatPayload : EventPayload → Option BeatPayload
  | .storyBeatCompleted userId _ beatIndex totalBeats =>
    some ⟨none, none, some userId, .finite beatIndex, .finite totalBeats⟩
  | _ => none

/-- The session that the conductor is given for a request: `sessionId: request.requestId`. -/
def conductorSession (request : GenerateStoryRequest) (now : Time) : Text :=
  AgentContext.sessionFor { sessionId := request.requestId } now

/-- It is the id of the request. -/
theorem conductorSession_eq {request : GenerateStoryRequest} {id : Text} (now : Time)
    (hid : request.requestId = some id) (hne : id ≠ []) : conductorSession request now = id := by
  rw [conductorSession, AgentContext.sessionFor, hid]
  exact orText_some hne _

/-! ## The goals of a session -/

/-- The goals of a session: those of the list, or the only one of a session that has no list. -/
def goalList : Option SessionState → List ActiveGoalProps
  | none => []
  | some state =>
    match state.activeGoals with
    | some (goal :: rest) => goal :: rest
    | _ => state.activeGoal.toList

/-- What a beat is meant to make of the goals of its session: the first one, if it is active, has the
progress of the beat, or is achieved and gone. -/
def afterBeat (progress : JsNumber) : List ActiveGoalProps → List ActiveGoalProps
  | [] => []
  | goal :: rest =>
    if goal.status = .active then
      if progress.atLeast 100 then rest else ActiveGoal.updateProgress goal progress :: rest
    else goal :: rest

variable {s t u : Text} {i n : JsNumber} {now : Time} {sessions sessions' : SessionMap}

theorem goalList_listGoal (state : SessionState) :
    goalList (some (listGoal state)) = goalList (some state) := by
  rw [listGoal]
  cases hunlisted : unlistedGoal state with
  | none => rfl
  | some goal =>
    rw [unlistedGoal] at hunlisted
    cases hgoals : state.activeGoals with
    | none =>
      rw [hgoals] at hunlisted
      have hgoal : state.activeGoal = some goal := hunlisted
      simp [goalList, hgoals, hgoal]
    | some goals =>
      rw [hgoals] at hunlisted
      cases hunlisted

/-- The goal of a beat is the first one. -/
theorem hydrateActiveGoal_eq (state : SessionState) :
    hydrateActiveGoal state = (goalList (some state)).head? := by
  rw [hydrateActiveGoal, goalList]
  cases state.activeGoals with
  | none => cases state.activeGoal <;> rfl
  | some goals =>
    cases goals with
    | nil => cases state.activeGoal <;> rfl
    | cons goal rest => rfl

/-- The goals behind the first one. -/
theorem tail_activeGoals (state : SessionState) :
    (state.activeGoals.getD []).tail = (goalList (some state)).tail := by
  rw [goalList]
  cases state.activeGoals with
  | none => cases state.activeGoal <;> rfl
  | some goals =>
    cases goals with
    | nil => cases state.activeGoal <;> rfl
    | cons goal rest => rfl

/-- The list that a stack is stored as. -/
theorem goalList_stack {state : SessionState} {stack : List ActiveGoalProps}
    (hgoals : state.activeGoals = orUndefined stack) (hgoal : state.activeGoal = stack.head?) :
    goalList (some state) = stack := by
  rw [goalList, hgoals, hgoal]
  cases stack <;> rfl

/-- **The assignments of a beat** are what it is meant to make of the goals. -/
theorem goalList_beat (progress : JsNumber) (now : Time) (state : SessionState) :
    goalList (some ((Change.beat progress now).apply state)) = afterBeat progress (goalList (some state)) := by
  have hbeat : beatGoal state = ((goalList (some state)).head?).filter fun goal => goal.status = .active := by
    rw [beatGoal, hydrateActiveGoal_eq]
  rw [Change.apply, hbeat]
  cases hlist : goalList (some state) with
  | nil => exact hlist
  | cons goal rest =>
    by_cases hactive : goal.status = .active
    · have htail : (state.activeGoals.getD []).tail = rest := by rw [tail_activeGoals, hlist]; rfl
      rw [List.head?_cons, Option.filter_some, if_pos (decide_eq_true hactive), afterBeat, if_pos hactive]
      refine (goalList_stack rfl rfl).trans ?_
      rw [htail, updatedGoal]
      split <;> rfl
    · rw [List.head?_cons, Option.filter_some, if_neg (by simpa using hactive), afterBeat, if_neg hactive]
      exact hlist

/-- A session whose first goal is not active is left as it is. -/
theorem afterBeat_of_none {state : SessionState} (progress : JsNumber) (h : beatGoal state = none) :
    afterBeat progress (goalList (some state)) = goalList (some state) := by
  rw [← goalList_beat progress ⟨0, by decide⟩, Change.apply, h]

/-! ## What the handler does -/

/-- What a handler has done to the goals: nothing to those of other sessions, and to its own session
`change`. -/
def GoalsChanged (s : Text) (change : List ActiveGoalProps → List ActiveGoalProps)
    (sessions sessions' : SessionMap) : Prop :=
  goalList (sessions' s) = change (goalList (sessions s)) ∧
    ∀ t, t ≠ s → goalList (sessions' t) = goalList (sessions t)

theorem goalsChanged_refl (s : Text) (sessions : SessionMap) : GoalsChanged s id sessions sessions :=
  ⟨rfl, fun _ _ => rfl⟩

/-- A write of one session. -/
theorem goalsChanged_update {change : List ActiveGoalProps → List ActiveGoalProps} {state : SessionState}
    (h : goalList (some state) = change (goalList (sessions s))) :
    GoalsChanged s change sessions (Function.update sessions s (some state)) :=
  ⟨by rw [Function.update_self, h], fun t ht => by rw [Function.update_of_ne ht]⟩

/-- A change after a step that changed no goals. -/
theorem GoalsChanged.after {sessions₁ : SessionMap} {change : List ActiveGoalProps → List ActiveGoalProps}
    (hfirst : GoalsChanged s id sessions sessions₁) (h : GoalsChanged s change sessions₁ sessions') :
    GoalsChanged s change sessions sessions' :=
  ⟨by rw [h.1, hfirst.1]; rfl, fun t ht => (h.2 t ht).trans (hfirst.2 t ht)⟩

/-- The start of an operation changes no goals, and gives it the state that is stored. -/
theorem goalsChanged_getOrInitState (s u : Text) (sessions : SessionMap) :
    (getOrInitState s u).Upholds sessionEnv (fun _ _ => True)
      (fun r sessions' => GoalsChanged s id sessions sessions' ∧
        ∀ state, r = .ok state → sessions' s = some state) sessions := by
  refine Upholds.bind (upholds_perform_true fun reply sessions' hreply => ?_)
  obtain ⟨rfl, hfound⟩ : sessions' = sessions ∧ ∀ found, reply = .ok found → found = sessions s := hreply
  cases reply with
  | error e => exact ⟨goalsChanged_refl s sessions', fun state h => nomatch h⟩
  | ok found =>
    obtain rfl := hfound found rfl
    cases hs : sessions' s with
    | none =>
      refine Upholds.bind (upholds_perform_true fun reply sessions hreply => ?_)
      cases reply with
      | error e =>
        rw [show sessions = sessions' from hreply]
        exact ⟨goalsChanged_refl s sessions', fun state h => nomatch h⟩
      | ok _ =>
        rw [show sessions = _ from hreply]
        refine ⟨goalsChanged_update (by rw [hs]; rfl), fun state h => ?_⟩
        rw [Function.update_self, ← Except.ok.inj h]
        rfl
    | some held =>
      dsimp only
      cases hunlisted : unlistedGoal held with
      | none =>
        refine ⟨goalsChanged_refl s sessions', fun state h => ?_⟩
        rw [hs, Except.ok.inj h]
      | some goal =>
        refine Upholds.bind (upholds_perform_true fun reply sessions hreply => ?_)
        cases reply with
        | error e =>
          rw [show sessions = sessions' from hreply]
          exact ⟨goalsChanged_refl s sessions', fun state h => nomatch h⟩
        | ok _ =>
          rw [show sessions = _ from hreply]
          refine ⟨goalsChanged_update ?_, fun state h => ?_⟩
          · rw [hs]
            exact goalList_listGoal held
          · rw [Function.update_self, ← Except.ok.inj h]
            rfl

/-- **A handler that completes** has done to the goals of its session what the beat is meant to do. -/
theorem goalsChanged_handleStoryBeat (s u : Text) (i n : JsNumber) (now : Time) (sessions : SessionMap) :
    (handleStoryBeat s u i n now).Upholds sessionEnv (fun _ _ => True)
      (fun r sessions' => r = .ok () → GoalsChanged s (afterBeat (beatProgress i n)) sessions sessions')
      sessions := by
  refine Upholds.bind ((goalsChanged_getOrInitState s u sessions).imp fun r sessions₁ h => ?_)
  obtain ⟨hstart, hstate⟩ := h
  cases r with
  | error e => exact fun h => nomatch h
  | ok state =>
    have hstored := hstate state rfl
    dsimp only
    cases hgoal : beatGoal state with
    | none =>
      refine fun _ => ⟨?_, hstart.2⟩
      rw [hstored, ← afterBeat_of_none _ hgoal, ← hstored, hstart.1]
      rfl
    | some goal =>
      refine upholds_perform_true fun reply sessions' hreply hok => ?_
      subst hok
      rw [show sessions' = _ from hreply]
      refine hstart.after (goalsChanged_update ?_)
      rw [hstored]
      exact goalList_beat _ _ _

/-! ## The beats of requests -/

/-- A published beat that is handled at a time; `request` says which request it was published for. -/
structure PublishedBeat (κ : Type) where
  request : κ
  event : DomainEvent
  now : Time

variable {κ : Type}

/-- `handleStoryBeat` on a published event. -/
def PublishedBeat.handle (beat : PublishedBeat κ) : SessionProc Unit :=
  match beatPayload beat.event.payload with
  | none => pure ()
  | some payload =>
    handleStoryBeat payload.sessionFor payload.userFor payload.beatIndex payload.totalBeats beat.now

/-- The event is a beat that the use case has published for its request. -/
def PublishedBeat.FromUseCase (collaborators : κ → Collaborators) (requests : κ → GenerateStoryRequest)
    (beat : PublishedBeat κ) : Prop :=
  .published beat.event ∈
      (Stories.GenerateStoryUseCase.execute (collaborators beat.request) (requests beat.request)).trace ∧
    (beatPayload beat.event.payload).isSome = true

/-- The progress of a beat. -/
def PublishedBeat.progress (beat : PublishedBeat κ) : JsNumber :=
  match beatPayload beat.event.payload with
  | none => .nan
  | some payload => beatProgress payload.beatIndex payload.totalBeats

/-- A beat that is handled. -/
abbrev HandledBeat (κ : Type) := Call (PublishedBeat κ) SessionMap SessionEffect SessionEffect.Reply Unit

/-- **The beat reaches a session**: it changes the goals of that session and of no other. -/
def HandledBeat.Reaches (call : HandledBeat κ) (s : Text) : Prop :=
  ∀ sessions', Logs sessionEnv call.before call.op.handle call.events call.result sessions' →
    GoalsChanged s (afterBeat call.op.progress) call.before sessions'

/-- The beat has nothing to change in a session. -/
def HandledBeat.Idle (call : HandledBeat κ) (s : Text) : Prop :=
  afterBeat call.op.progress (goalList (call.before s)) = goalList (call.before s)

/-- No published beat says which session it is for. -/
theorem sessionFor_beatPayload {event : EventPayload} {payload : BeatPayload}
    (h : beatPayload event = some payload) : payload.sessionFor = lit "session_default" := by
  cases event with
  | storyBeatCompleted userId storyId beatIndex totalBeats =>
    cases h
    rfl
  | _ => cases h

/-- **Every beat goes to the same session**, whichever request it was published for. -/
theorem goalsChanged_handle {call : HandledBeat κ} (hbeat : (beatPayload call.op.event.payload).isSome = true)
    (hdone : call.result = .ok ())
    (hrun : Logs sessionEnv call.before call.op.handle call.events call.result sessions') :
    GoalsChanged (lit "session_default") (afterBeat call.op.progress) call.before sessions' := by
  obtain ⟨payload, hpayload⟩ := Option.isSome_iff_exists.mp hbeat
  rw [PublishedBeat.handle, hpayload] at hrun
  rw [PublishedBeat.progress, hpayload, ← sessionFor_beatPayload hpayload]
  exact (hrun.upheld (goalsChanged_handleStoryBeat _ _ _ _ _ _)).1 hdone

/-- A change of one session is the change of another one exactly when there is nothing to change in
either. -/
theorem GoalsChanged.iff_of_ne {change : List ActiveGoalProps → List ActiveGoalProps}
    (h : GoalsChanged s change sessions sessions') (hne : t ≠ s) :
    GoalsChanged t change sessions sessions' ↔
      change (goalList (sessions s)) = goalList (sessions s) ∧
        change (goalList (sessions t)) = goalList (sessions t) := by
  constructor
  · rintro ⟨hown, hothers⟩
    exact ⟨h.1.symm.trans (hothers s hne.symm), hown.symm.trans (h.2 t hne)⟩
  · rintro ⟨hfirst, hsecond⟩
    refine ⟨(h.2 t hne).trans hsecond.symm, fun other _ => ?_⟩
    by_cases hother : other = s
    · rw [hother, h.1, hfirst]
    · exact h.2 other hother

/-- **When a beat reaches its session**: when that is the default session, or when the beat has nothing to
change, neither in the default session nor in its own. -/
theorem beat_reaches_iff {call : HandledBeat κ}
    (hbeat : (beatPayload call.op.event.payload).isSome = true)
    (hdone : call.result = .ok ())
    (hrun : ∃ sessions', Logs sessionEnv call.before call.op.handle call.events call.result sessions') :
    call.Reaches s ↔
      s = lit "session_default" ∨ (call.Idle (lit "session_default") ∧ call.Idle s) := by
  by_cases hs : s = lit "session_default"
  · subst hs
    exact ⟨fun _ => .inl rfl, fun _ sessions' hlogs => goalsChanged_handle hbeat hdone hlogs⟩
  · rw [or_iff_right hs]
    constructor
    · intro h
      obtain ⟨sessions', hlogs⟩ := hrun
      exact ((goalsChanged_handle hbeat hdone hlogs).iff_of_ne hs).mp (h sessions' hlogs)
    · intro h sessions' hlogs
      exact ((goalsChanged_handle hbeat hdone hlogs).iff_of_ne hs).mpr h

/-- **The beats of requests**, in whatever order they are handled: each of them reaches the session that
the conductor was given for its request exactly when that session is the default one, or the beat has
nothing to change in either. -/
theorem beats_reach_iff (collaborators : κ → Collaborators) (requests : κ → GenerateStoryRequest)
    (conductedAt : κ → Time) {calls : List (HandledBeat κ)}
    (h : Sequence sessionEnv PublishedBeat.handle sessions calls sessions')
    (hpublished : ∀ call ∈ calls, call.op.FromUseCase collaborators requests) :
    (∀ call ∈ calls, call.result = .ok () →
        call.Reaches (conductorSession (requests call.op.request) (conductedAt call.op.request))) ↔
      ∀ call ∈ calls, call.result = .ok () →
        conductorSession (requests call.op.request) (conductedAt call.op.request) = lit "session_default" ∨
          (call.Idle (lit "session_default") ∧
            call.Idle (conductorSession (requests call.op.request) (conductedAt call.op.request))) := by
  refine forall₂_congr fun call hcall => forall_congr' fun hdone => ?_
  exact beat_reaches_iff (hpublished call hcall).2 hdone (h.exists_logs hcall)

/-- Collaborators that tell a story of one paragraph. -/
def tellingCollaborators : Collaborators :=
  { Stories.GenerateStoryUseCase.bloodStream with
    generateStoryStream := fun _ => ⟨[lit "The moon rises."], .ok ()⟩ }

/-- A request with an id, for a story about the moon. -/
def storyRequest (requestId : String) : GenerateStoryRequest :=
  { Stories.GenerateStoryUseCase.moonRequest with userId := some ana, requestId := some (lit requestId) }

/-- The beat of its story. -/
def onlyBeat (requestId : String) : PublishedBeat Unit where
  request := ()
  event := Stories.GenerateStoryUseCase.beatEvent tellingCollaborators (storyRequest requestId)
    (Stories.GenerateStoryUseCase.newStoryId tellingCollaborators) 1 0
  now := ⟨1, Time.inRange_one⟩

/-- A goal that is active. -/
def eveningGoal : ActiveGoalProps :=
  ActiveGoal.createNew (fun _ => []) ⟨0, Time.inRange_zero⟩ (lit "a") { type := .storyCompleted, targetMinutes := .finite 20 }

/-- Two sessions with that goal. -/
def twoSessions : SessionMap := fun s =>
  if s = lit "evening" ∨ s = lit "session_default" then some (withGoal eveningGoal (initialState s ana))
  else none

/-- The beat, handled with those sessions. -/
def handledBeats (requestId : String) : List (HandledBeat Unit) × SessionMap :=
  recordCalls PublishedBeat.handle (succeeding restful .null) [onlyBeat requestId] [] twoSessions

theorem sequence_handledBeats (requestId : String) : Sequence sessionEnv PublishedBeat.handle twoSessions
    (handledBeats requestId).1 (handledBeats requestId).2 :=
  sequence_recordCalls (fun e sessions => sessionEnv_succeeding restful .null e sessions) _ .start

/-- A handled beat was published for its request. -/
theorem fromUseCase_handledBeats {requestId : String}
    (hpublished : (Stories.GenerateStoryUseCase.execute tellingCollaborators (storyRequest requestId)).trace[2]? =
      some (.published (onlyBeat requestId).event)) :
    ∀ call ∈ (handledBeats requestId).1,
      call.op.FromUseCase (fun _ => tellingCollaborators) fun _ => storyRequest requestId := by
  intro call hcall
  have hop : call.op = onlyBeat requestId := by
    obtain rfl := List.mem_singleton.mp hcall
    rfl
  rw [hop]
  exact ⟨List.mem_of_getElem? hpublished, rfl⟩

/-- The beat of a request whose id is that of the default session reaches it. -/
theorem beats_reach_default : ∃ call, (handledBeats "session_default").1 = [call] ∧ call.result = .ok () ∧
    call.Reaches (conductorSession (storyRequest "session_default") ⟨0, by decide⟩) := by
  have hreach := (beats_reach_iff (fun _ => tellingCollaborators) (fun _ => storyRequest "session_default")
    (fun _ => ⟨0, by decide⟩) (sequence_handledBeats "session_default")
    (fromUseCase_handledBeats (by decide +kernel))).mpr fun _ _ _ => .inl (by decide)
  exact ⟨_, rfl, rfl, hreach _ (List.mem_singleton.mpr rfl) rfl⟩

/-- The beat of any other request takes the goal from the default session, and leaves the one that it is
about. -/
theorem beat_astray :
    Sequence sessionEnv PublishedBeat.handle twoSessions (handledBeats "evening").1 (handledBeats "evening").2 ∧
      (∀ call ∈ (handledBeats "evening").1,
        call.op.FromUseCase (fun _ => tellingCollaborators) (fun _ => storyRequest "evening") ∧
          call.result = .ok ()) ∧
      conductorSession (storyRequest "evening") ⟨0, by decide⟩ = lit "evening" ∧
      goalList ((handledBeats "evening").2 (lit "evening")) = [eveningGoal] ∧
      goalList ((handledBeats "evening").2 (lit "session_default")) = [] ∧
      ¬ ∀ call ∈ (handledBeats "evening").1,
        call.Reaches (conductorSession (storyRequest "evening") ⟨0, by decide⟩) := by
  have hpublished := @fromUseCase_handledBeats "evening" (by decide +kernel)
  have hgone : goalList ((handledBeats "evening").2 (lit "session_default")) = [] := by decide +kernel
  refine ⟨sequence_handledBeats "evening", fun call hcall => ⟨hpublished call hcall, ?_⟩,
    conductorSession_eq _ rfl (by decide), by decide +kernel, hgone, fun h => ?_⟩
  · obtain rfl := List.mem_singleton.mp hcall
    rfl
  · have hrun := logs_record (fun e sessions => sessionEnv_succeeding restful .null e sessions) twoSessions
      (onlyBeat "evening").handle
    -- the goal of the default session is not one that the beat may change
    have hkept : goalList ((handledBeats "evening").2 (lit "session_default")) =
        goalList (twoSessions (lit "session_default")) :=
      (h _ (List.mem_singleton.mpr rfl) _ hrun).2 (lit "session_default") (by decide)
    rw [hgone] at hkept
    cases hkept

end DreamWeaver.Conductor
