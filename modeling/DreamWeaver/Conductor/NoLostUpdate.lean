import DreamWeaver.Conductor.Operations
import DreamWeaver.Conductor.Replay

/-! # When no update is lost

In every interleaving of operations in which a session is still what the operation holds whenever it
stores it, the session is the one that the updates of the operations make, one after the other; every
operation that completes has made its update, every turn is counted, and the goals and the progress of
the beats are there. Two turns that read the session before either has stored it are counted once. -/

namespace DreamWeaver.Conductor

open Proc

/-! ## Updates of a run fit -/

/-- What the text of the operations guarantees for the updates. -/
def Regular : SessionEvent → Prop
  | ⟨.setSession _ (.literal state), .ok _⟩ => state.context.interactions = none
  | ⟨.setSession _ (.changed held (.beat _ _)), .ok _⟩ => (beatGoal held).isSome = true
  | _ => True

theorem usual_regular : Usual Regular where
  quiet event h := by
    obtain ⟨effect, reply⟩ := event
    cases effect with
    | setSession s write =>
      cases reply with
      | ok _ => cases write <;> cases h
      | error e =>
        cases write with
        | literal state => trivial
        | changed held c => cases c <;> trivial
    | _ => trivial
  start s u := rfl
  list s state := trivial

variable {agent : BedtimeConductorAgent} {sessions sessions' : SessionMap} {sessionId : Text}

theorem only_regular (op : Operation) : (op.task agent).Only Regular := by
  cases op with
  | processTurn u s message traceId =>
    exact Only.bind (only_processTurn usual_regular (fun _ _ => trivial) fun _ _ => trivial)
      fun _ => only_pure
  | handleStoryBeat s u beatIndex totalBeats now =>
    exact only_handleStoryBeat usual_regular fun _ hgoal => hgoal
  | handleSleepCueDetected s u => exact only_handleSleepCueDetected usual_regular fun _ => trivial
  | setGoal s u goal => exact only_setGoal usual_regular fun _ => trivial
  | liveTool u traceId call =>
    exact Only.bind (only_liveToolBody usual_regular fun _ _ => trivial) fun _ => only_pure

/-- An update whose step meets the condition fits. -/
theorem fits_of_fresh {event : SessionEvent} {update : Update} (hregular : Regular event)
    (hfresh : Fresh sessions event.effect) (h : updateTo sessionId event = some update) :
    update.Fits (sessions sessionId) := by
  rw [updateTo_eq_some_iff] at h
  obtain ⟨effect, reply⟩ := event
  cases effect with
  | setSession s write =>
    cases reply with
    | error e => cases write <;> cases h
    | ok _ =>
      cases write with
      | literal state =>
        cases h
        exact hregular
      | changed held c =>
        cases h
        rw [show sessions sessionId = some held from hfresh]
        cases c with
        | beat progress now => exact hregular
        | _ => rfl
  | patchContext s held toolCallId =>
    cases reply with
    | error e => cases h
    | ok _ =>
      cases h
      rw [show sessions sessionId = some held from hfresh]
      rfl
  | _ => cases h

/-- The events of a log that are turns are the turns among its updates. -/
theorem countP_updatesOf {ι : Type} (sessionId : Text) (log : List (ι × SessionEvent)) :
    (updatesOf sessionId log).countP Update.isTurn =
      log.countP fun entry => isTurnOf sessionId entry.2 := by
  induction log with
  | nil => rfl
  | cons entry log ih =>
    rw [List.countP_cons, ← ih, updatesOf, updatesOf, List.filterMap_cons, isTurnOf]
    cases updateTo sessionId entry.2 with
    | none => rfl
    | some update =>
      dsimp only
      rw [List.countP_cons]
      congr 1
      cases update with
      | change c => cases c <;> rfl
      | _ => rfl

variable {ι : Type} [DecidableEq ι] {ops : ι → Operation} {log : List (ι × SessionEvent)}
  {c : Pool ι SessionMap SessionEffect SessionEffect.Reply Unit}

/-- The operations, before their first step. -/
def started (agent : BedtimeConductorAgent) (sessions : SessionMap) (ops : ι → Operation) :
    Pool ι SessionMap SessionEffect SessionEffect.Reply Unit where
  state := sessions
  procs i := (ops i).task agent

theorem fitting_updatesOf (h : Runs sessionEnv Fresh (started agent sessions ops) log c)
    (sessionId : Text) : Fitting (sessions sessionId) (updatesOf sessionId log) := by
  -- one more step: the session is what the updates so far have made of it
  induction h with
  | start => trivial
  | @step log c₁ i effect next reply s' hruns hproc hreply hfresh ih =>
    rw [updatesOf_concat, fitting_append]
    refine ⟨ih, ?_⟩
    have hregular : Regular ⟨effect, reply⟩ := by
      have hprocs := (hruns.only (i := i) (only_regular (ops i))).1
      rw [hproc] at hprocs
      exact (hprocs reply).1
    rw [show sessions sessionId = (started agent sessions ops).state sessionId from rfl,
      ← replay_of_runs hruns sessionId]
    cases hupdate : updateTo sessionId ⟨effect, reply⟩ with
    | none => trivial
    | some update => exact ⟨fits_of_fresh hregular hfresh hupdate, trivial⟩

/-! ## Counting turns -/

/-- The operation is a turn of the session. -/
def Operation.isTurnOn (sessionId : Text) : Operation → Bool
  | .processTurn _ s _ _ => s = sessionId
  | _ => false

/-- Only a turn of the session is counted there. -/
theorem only_not_turn {op : Operation} (h : op.isTurnOn sessionId = false) :
    (op.task agent).Only fun event => isTurnOf sessionId event = false := by
  have husual := usual_isTurnOf sessionId
  have hchange : ∀ s state change, (Update.change change).isTurn = false →
      isTurnOf sessionId ⟨.setSession s (.changed state change), .ok ()⟩ = false := by
    intro s state change hchange
    rw [Bool.eq_false_iff]
    intro hturn
    obtain ⟨verdict, hupdate⟩ := isTurnOf_iff.mp hturn
    cases hupdate
    cases hchange
  cases op with
  | processTurn u s message traceId =>
    have hne : s ≠ sessionId := of_decide_eq_false h
    refine Only.bind (only_processTurn husual (fun state verdict => ?_) fun state theme => ?_)
      fun _ => only_pure
    · rw [Bool.eq_false_iff]
      intro hturn
      obtain ⟨verdict', hupdate⟩ := isTurnOf_iff.mp hturn
      cases hupdate
      exact hne rfl
    · exact hchange s state _ rfl
  | handleStoryBeat s u beatIndex totalBeats now =>
    exact only_handleStoryBeat husual fun state _ => hchange s state _ rfl
  | handleSleepCueDetected s u =>
    exact only_handleSleepCueDetected husual fun state => hchange s state _ rfl
  | setGoal s u goal => exact only_setGoal husual fun state => hchange s state _ rfl
  | liveTool u traceId call =>
    refine Only.bind (only_liveToolBody husual fun state toolCallId => ?_) fun _ => only_pure
    rw [Bool.eq_false_iff]
    intro hturn
    obtain ⟨verdict, hupdate⟩ := isTurnOf_iff.mp hturn
    cases hupdate

/-- A turn that has completed is counted once. -/
theorem ends_turn {op : Operation} (hturn : op.isTurnOn sessionId = true) :
    (op.task agent).Ends (fun past r =>
      r.isOk = true → past.countP (isTurnOf sessionId) = 1) [] := by
  cases op with
  | processTurn u s message traceId =>
    obtain rfl : s = sessionId := of_decide_eq_true hturn
    refine Ends.bind ((processTurn_turns u s message traceId).imp fun past r h => ?_)
    cases r with
    | error e => exact fun hok => by cases hok
    | ok result => exact ends_pure fun _ => h.2 result rfl
  | _ => cases hturn

/-! ## The result -/

section Result

variable [Fintype ι]

/-- The turns of a session that have completed. -/
def completedTurns (ops : ι → Operation)
    (c : Pool ι SessionMap SessionEffect SessionEffect.Reply Unit) (sessionId : Text) : Finset ι :=
  Finset.univ.filter fun i => (ops i).isTurnOn sessionId = true ∧ (c.procs i).succeeded = true

/-- No operation has lost an update of a session. -/
structure NothingLost (agent : BedtimeConductorAgent) (sessions : SessionMap) (ops : ι → Operation)
    (log : List (ι × SessionEvent)) (c : Pool ι SessionMap SessionEffect SessionEffect.Reply Unit)
    (sessionId : Text) : Prop where
  /-- No write takes back what another has done: the session is what all updates made of it, one after
  the other. -/
  replayed : c.state sessionId = replay (sessions sessionId) (updatesOf sessionId log)
  /-- An operation that has completed has made its update. -/
  performed : ∀ i, c.procs i = .done (.ok ()) → (ops i).Performed agent (eventsOf i log)
  /-- If every turn that has stored something has completed, the completed turns are counted. -/
  counted : (∀ i, (ops i).isTurnOn sessionId = true →
      (c.procs i).succeeded = true ∨ (eventsOf i log).countP (isTurnOf sessionId) = 0) →
    interactions (c.state sessionId) =
      countUp (completedTurns ops c sessionId).card (interactions (sessions sessionId))
  /-- A goal that was set is in the list, unless five others were set after it or a beat achieved one,
  and it is there unchanged if there was no beat. -/
  goals : ∀ before goal after,
    updatesOf sessionId log = before ++ .change (.goal goal) :: after →
      after.countP Update.isGoal < 5 → (∀ u ∈ after, u.achieves = false) →
        ∃ goal' ∈ goalsOf (c.state sessionId), goal'.id = goal.id ∧
          ((∀ u ∈ after, u.isBeat = false) → goal' = goal)
  /-- A beat had a goal. Unless the beat achieved it, the goal is in the list under the same condition,
  with the progress of the beat if there was no later one. -/
  beats : ∀ before progress now after,
    updatesOf sessionId log = before ++ .change (.beat progress now) :: after →
      ∃ goal, (replay (sessions sessionId) before).bind beatGoal = some goal ∧
        (progress.atLeast 100 = false → after.countP Update.isGoal < 5 →
          (∀ u ∈ after, u.achieves = false) → ∃ goal' ∈ goalsOf (c.state sessionId),
            goal'.id = goal.id ∧ ((∀ u ∈ after, u.isBeat = false) →
              goal' = updatedGoal progress now goal))

/-- The turns of a session are counted operation by operation. -/
theorem countP_turns (h : Runs sessionEnv Fresh (started agent sessions ops) log c)
    (hstored : ∀ i, (ops i).isTurnOn sessionId = true →
      (c.procs i).succeeded = true ∨ (eventsOf i log).countP (isTurnOf sessionId) = 0) :
    (updatesOf sessionId log).countP Update.isTurn = (completedTurns ops c sessionId).card := by
  -- each operation contributes one if it is a completed turn of the session, and nothing otherwise
  have hone : ∀ i, (eventsOf i log).countP (isTurnOf sessionId) =
      if (ops i).isTurnOn sessionId = true ∧ (c.procs i).succeeded = true then 1 else 0 := by
    intro i
    by_cases hturn : (ops i).isTurnOn sessionId = true
    · by_cases hdone : (c.procs i).succeeded = true
      · rw [if_pos ⟨hturn, hdone⟩]
        obtain ⟨a, ha⟩ := succeeded_iff.mp hdone
        have hended := h.ended (ends_turn hturn) ha
        exact hended rfl
      · rw [if_neg fun hboth => hdone hboth.2]
        exact (hstored i hturn).resolve_left hdone
    · rw [if_neg fun hboth => hturn hboth.1, List.countP_eq_zero]
      intro event hevent
      rw [Bool.not_eq_true]
      exact (h.only (only_not_turn (Bool.eq_false_iff.mpr hturn))).2 event hevent
  rw [countP_updatesOf, countP_eq_sum, completedTurns, Finset.card_filter]
  exact Finset.sum_congr rfl fun i _ => hone i

/-- **No update is lost**: in every interleaving of any operations in which, whenever a session is
written, it is still the state that the operation holds. -/
theorem no_lost_update (h : Runs sessionEnv Fresh (started agent sessions ops) log c)
    (sessionId : Text) : NothingLost agent sessions ops log c sessionId where
  replayed := replay_of_runs h sessionId
  performed i hdone := by
    have hended := h.ended (task_completes (ops i)) hdone
    exact hended rfl
  counted hstored := by
    rw [replay_of_runs h sessionId, ← countP_turns h hstored]
    exact interactions_replay (fitting_updatesOf h sessionId)
  goals before goal after hupdates hroom hachieves := by
    have hfits := fitting_updatesOf h sessionId
    rw [hupdates, fitting_append] at hfits
    -- the goal is first in the list when it is set, and moves down from there
    have hfirst := goalsOf_goal hfits.2.1 goal
    obtain ⟨goal', hat, hid, hsame⟩ := goalsOf_replay hfirst (by omega) hachieves
    have hfinal : c.state sessionId =
        replay ((Update.change (.goal goal)).apply (replay (sessions sessionId) before)) after := by
      rw [replay_of_runs h sessionId, hupdates, replay_append]
      rfl
    rw [hfinal]
    exact ⟨goal', List.mem_of_getElem? hat, hid, hsame⟩
  beats before progress now after hupdates := by
    have hfits := fitting_updatesOf h sessionId
    rw [hupdates, fitting_append] at hfits
    obtain ⟨goal, hgoal⟩ := Option.isSome_iff_exists.mp hfits.2.1
    refine ⟨goal, hgoal, fun hprogress hroom hachieves => ?_⟩
    have hfirst := goalsOf_beat now hgoal hprogress
    obtain ⟨goal', hat, hid, hsame⟩ := goalsOf_replay hfirst (by omega) hachieves
    have hfinal : c.state sessionId = replay ((Update.change (.beat progress now)).apply
        (replay (sessions sessionId) before)) after := by
      rw [replay_of_runs h sessionId, hupdates, replay_append]
      rfl
    rw [hfinal]
    exact ⟨goal', List.mem_of_getElem? hat, hid.trans (id_updatedGoal _ _ _), hsame⟩

end Result

/-- Two turns of one new session. -/
def twoTurns : Fin 2 → Operation := fun _ =>
  .processTurn (lit "ana") (lit "evening") (lit "hello") none

/-- A thought that suggests nothing. -/
def restful : Thought :=
  ⟨none, none, none, lit "All is calm.", lit "RESPOND", none, none, none⟩

/-- The two turns on an empty store, in the order of a schedule. -/
def runTurns (ok : SessionMap → SessionEffect → Prop) [∀ m e, Decidable (ok m e)]
    (schedule : List (Fin 2)) :
    List (Fin 2 × SessionEvent) × Pool (Fin 2) SessionMap SessionEffect SessionEffect.Reply Unit :=
  drive ok (succeeding restful .null) schedule [] (started plainConductor (fun _ => none) twoTurns)

/-- One turn after the other. -/
def oneByOne := runTurns Fresh [0, 0, 0, 0, 1, 1, 1]

/-- Both turns read the session before either has stored it. -/
def sideBySide := runTurns (fun _ _ => True) [0, 1, 0, 1, 0, 1, 0, 1]

theorem no_lost_update_oneByOne :
    NothingLost plainConductor (fun _ => none) twoTurns oneByOne.1 oneByOne.2 (lit "evening") ∧
      interactions (oneByOne.2.state (lit "evening")) = .finite 2 := by
  refine ⟨no_lost_update (drive_runs (fun e s _ => sessionEnv_succeeding restful .null e s) _ .start) _, ?_⟩
  decide +kernel

/-- Two turns side by side both complete, and they are counted once. -/
theorem twoTurns_countedOnce :
    Runs sessionEnv (fun _ _ => True) (started plainConductor (fun _ => none) twoTurns)
        sideBySide.1 sideBySide.2 ∧
      (∀ i, (sideBySide.2.procs i).succeeded = true) ∧
      interactions (sideBySide.2.state (lit "evening")) = .finite 1 ∧
      ¬ NothingLost plainConductor (fun _ => none) twoTurns sideBySide.1 sideBySide.2
        (lit "evening") := by
  have hdone : ∀ i, (sideBySide.2.procs i).succeeded = true := by decide +kernel
  have hone : interactions (sideBySide.2.state (lit "evening")) = .finite 1 := by decide +kernel
  refine ⟨drive_runs (fun e s _ => sessionEnv_succeeding restful .null e s) _ .start, hdone, hone, fun h => ?_⟩
  -- two turns have completed, so that two would be counted
  have hcard : (completedTurns twoTurns sideBySide.2 (lit "evening")).card = 2 := by
    rw [completedTurns, Finset.filter_true_of_mem fun i _ => ⟨rfl, hdone i⟩]
    rfl
  have htwo := h.counted fun i _ => Or.inl (hdone i)
  rw [hone, hcard] at htwo
  exact absurd htwo (by decide +kernel)

end DreamWeaver.Conductor
