import DreamWeaver.Conductor.LostUpdate
import Mathlib.Algebra.Order.BigOperators.Group.Finset

/-! # Tool calls run at most once

A request of `POST /live/tool` looks its `toolCallId` up in the session, records it there and executes
the tool: three steps, between which other requests take theirs, and the list of recorded ids keeps the
last 200. A call runs at most once as long as the session that a request records its id in is still the
one that it looked at, and an id comes again while its record is there. -/

namespace DreamWeaver.Conductor

open Proc

/-- A request of `POST /live/tool` by an authenticated user. -/
structure ToolRequest where
  userId : Text
  traceId : Option Text
  call : ToolCall

variable {ι : Type}

/-- Requests, before their first step. -/
def delivered (sessions : SessionMap) (requests : ι → ToolRequest) :
    Pool ι SessionMap SessionEffect SessionEffect.Reply ToolReply where
  state := sessions
  procs i := liveTool (requests i).userId (requests i).traceId (requests i).call

/-! ## Events -/

/-- The id that an event records in a session. -/
def recordsIn (sessionId : Text) (event : SessionEvent) : Option Text :=
  match updateTo sessionId event with
  | some (.toolCall toolCallId) => some toolCallId
  | _ => none

/-- The event is the execution of a call in a session. -/
def executes (sessionId toolCallId : Text) (event : SessionEvent) : Bool :=
  match event.effect with
  | .executeTool request => request.sessionId = sessionId ∧ request.toolCallId = some toolCallId
  | _ => false

/-- The recorded ids of a session. -/
def processedIn (session : Option SessionState) : List Text :=
  (session.map fun state => processedToolCalls state.context).getD []

@[simp] theorem processedIn_some (state : SessionState) :
    processedIn (some state) = processedToolCalls state.context := rfl

/-- The ids that a log has recorded in a session. -/
def recordedBy (sessionId : Text) (log : List (ι × SessionEvent)) : List Text :=
  log.filterMap fun entry => recordsIn sessionId entry.2

/-- The ids that have been recorded in a session, before a log and in it. -/
def recorded (sessions : SessionMap) (sessionId : Text) (log : List (ι × SessionEvent)) :
    List Text :=
  processedIn (sessions sessionId) ++ recordedBy sessionId log

theorem recordsIn_eq_some_iff {sessionId toolCallId : Text} {event : SessionEvent} :
    recordsIn sessionId event = some toolCallId ↔
      ∃ held, event = ⟨.patchContext sessionId held toolCallId, .ok ()⟩ := by
  have hupdate : recordsIn sessionId event = some toolCallId ↔
      updateTo sessionId event = some (.toolCall toolCallId) := by
    rw [recordsIn]
    split
    · rename_i id h
      simp [h]
    · rename_i h
      exact iff_of_false (by simp) fun hsome => h _ hsome
  rw [hupdate, updateTo_eq_some_iff]
  constructor
  · intro h
    obtain ⟨effect, reply⟩ := event
    cases effect with
    | patchContext s held id =>
      cases reply with
      | error e => cases h
      | ok _ =>
        cases h
        exact ⟨held, rfl⟩
    | setSession s write =>
      cases reply with
      | error e => cases write <;> cases h
      | ok _ => cases write <;> cases h
    | _ => cases h
  · rintro ⟨held, rfl⟩
    rfl

/-! ## What a request does -/

/-- What a request may await, after what it has done: it records its id once it has seen that it is not
there, and executes its call once, after it has recorded the id. -/
def Follows (request : ToolRequest) (past : List SessionEvent) : SessionEffect → Prop
  | .getSession sessionId => sessionId = request.call.sessionId ∧ past = []
  | .setSession _ _ => False
  | .patchContext sessionId held toolCallId =>
    sessionId = request.call.sessionId ∧ request.call.toolCallId = some toolCallId ∧
      past = [⟨.getSession sessionId, .ok (some held)⟩] ∧
      toolCallId ∉ processedToolCalls held.context
  | .executeTool toolCall =>
    toolCall.sessionId = request.call.sessionId ∧
      toolCall.toolCallId = request.call.toolCallId ∧
      ∀ toolCallId, request.call.toolCallId = some toolCallId → ∃ held,
        past = [⟨.getSession toolCall.sessionId, .ok (some held)⟩,
          ⟨.patchContext toolCall.sessionId held toolCallId, .ok ()⟩]
  | _ => True

theorem steps_liveTool (request : ToolRequest) :
    (liveTool request.userId request.traceId request.call).Steps (Follows request) [] := by
  -- executing a call is one step, at the end
  have hexecute : ∀ state past, (∀ toolCallId, request.call.toolCallId = some toolCallId →
      ∃ held, past = [⟨.getSession request.call.sessionId, .ok (some held)⟩,
        ⟨.patchContext request.call.sessionId held toolCallId, .ok ()⟩]) →
      (Proc.catchWith (executeTool request.userId request.traceId state request.call)
        fun _ => pure .failed).Steps (Follows request) past := by
    intro state past hpast
    refine ⟨⟨rfl, rfl, hpast⟩, fun reply => ?_⟩
    cases reply <;> trivial
  refine ⟨⟨rfl, rfl⟩, fun reply => ?_⟩
  cases reply with
  | error e => trivial
  | ok found =>
    cases found with
    | none => trivial
    | some state =>
      show (Proc.catchWith (if state.userId ≠ request.userId then pure .forbidden else _)
        fun _ => pure ToolReply.failed).Steps (Follows request) _
      by_cases hforbidden : state.userId ≠ request.userId
      · rw [if_pos hforbidden]
        trivial
      · rw [if_neg hforbidden]
        cases htool : request.call.toolCallId with
        | none =>
          apply hexecute state
          intro toolCallId h
          rw [htool] at h
          cases h
        | some toolCallId =>
          dsimp only
          by_cases hprocessed : toolCallId ∈ processedToolCalls state.context
          · rw [if_pos hprocessed]
            trivial
          · rw [if_neg hprocessed]
            refine ⟨⟨rfl, htool, rfl, hprocessed⟩, fun reply => ?_⟩
            cases reply with
            | error e => trivial
            | ok _ =>
              apply hexecute state
              intro id hid
              rw [htool, Option.some_inj] at hid
              exact ⟨state, by rw [hid]; rfl⟩

/-- A request whose id is there is answered without executing its call. -/
theorem ends_liveTool {request : ToolRequest} {toolCallId : Text}
    (htool : request.call.toolCallId = some toolCallId) :
    (liveTool request.userId request.traceId request.call).Ends (fun past r => ∀ state,
      ⟨.getSession request.call.sessionId, .ok (some state)⟩ ∈ past →
        toolCallId ∈ processedToolCalls state.context →
          r = .ok .duplicate ∨ r = .ok .forbidden) [] := by
  refine Ends.catchWith (Ends.bind (ends_perform fun reply => ?_))
  cases reply with
  | error e =>
    refine ends_pure fun state hmem => ?_
    simp at hmem
  | ok found =>
    cases found with
    | none =>
      refine ends_pure fun state hmem => ?_
      simp at hmem
    | some state =>
      dsimp only
      by_cases hforbidden : state.userId ≠ request.userId
      · rw [if_pos hforbidden]
        exact ends_pure fun _ _ _ => Or.inr rfl
      · rw [if_neg hforbidden, htool]
        dsimp only
        by_cases hprocessed : toolCallId ∈ processedToolCalls state.context
        · rw [if_pos hprocessed]
          exact ends_pure fun _ _ _ => Or.inl rfl
        · rw [if_neg hprocessed]
          -- what follows reads no other session
          have hnew : ∀ (rest : List SessionEvent) (r : Except JsError ToolReply),
              (∀ event ∈ rest, ∀ s, event.effect ≠ .getSession s) → ∀ state',
                ⟨.getSession request.call.sessionId, .ok (some state')⟩ ∈
                  (⟨.getSession request.call.sessionId, .ok (some state)⟩ :: rest :
                    List SessionEvent) →
                toolCallId ∈ processedToolCalls state'.context →
                  r = .ok .duplicate ∨ r = .ok .forbidden := by
            intro rest r hrest state' hmem hstate'
            rcases List.mem_cons.mp hmem with heq | hmem
            · cases heq
              exact absurd hstate' hprocessed
            · exact absurd rfl (hrest _ hmem request.call.sessionId)
          refine Ends.bind (ends_perform fun reply => ?_)
          cases reply with
          | error e => exact ends_pure (hnew [_] _ (by simp))
          | ok _ =>
            refine Ends.bind (ends_perform fun reply => ?_)
            cases reply with
            | error e => exact ends_pure (hnew [_, _] _ (by simp))
            | ok response => exact ends_pure (hnew [_, _] _ (by simp))

/-- A request executes its call once, after it has recorded the id. -/
theorem executes_le_records {request : ToolRequest} {events : List SessionEvent}
    (h : ∀ before event after, events = before ++ event :: after →
      Follows request before event.effect) (sessionId toolCallId : Text) :
    events.countP (executes sessionId toolCallId) ≤
      events.countP fun event => recordsIn sessionId event = some toolCallId := by
  by_cases hnone : ∀ event ∈ events, executes sessionId toolCallId event = false
  · rw [List.countP_eq_zero.mpr fun event hmem => by simp [hnone event hmem]]
    exact Nat.zero_le _
  · simp only [not_forall, Bool.not_eq_false] at hnone
    obtain ⟨event, hmem, hexecutes⟩ := hnone
    obtain ⟨before, after, rfl⟩ := List.append_of_mem hmem
    -- what an execution follows has two events, of which the second is the record
    have hfollows : ∀ event past, executes sessionId toolCallId event = true →
        Follows request past event.effect → ∃ held,
          past = [⟨.getSession sessionId, .ok (some held)⟩,
            ⟨.patchContext sessionId held toolCallId, .ok ()⟩] := by
      rintro ⟨effect, reply⟩ past hevent hpast
      cases effect with
      | executeTool toolCall =>
        obtain ⟨rfl, hid⟩ : toolCall.sessionId = sessionId ∧ toolCall.toolCallId = some toolCallId :=
          of_decide_eq_true hevent
        exact hpast.2.2 toolCallId (hpast.2.1.symm.trans hid)
      | _ => cases hevent
    obtain ⟨held, hbefore⟩ := hfollows event before hexecutes (h before event after rfl)
    have hafter : after.countP (executes sessionId toolCallId) = 0 := by
      rw [List.countP_eq_zero]
      intro event' hmem' hexecutes'
      obtain ⟨before', after', rfl⟩ := List.append_of_mem hmem'
      have hfollows' := h (before ++ event :: before') event' after' (by simp)
      obtain ⟨held', hpast⟩ := hfollows event' _ hexecutes' hfollows'
      have hlength := congrArg List.length hpast
      rw [hbefore] at hlength
      simp at hlength
    have hrecords : recordsIn sessionId ⟨.patchContext sessionId held toolCallId, .ok ()⟩ =
        some toolCallId := recordsIn_eq_some_iff.mpr ⟨held, rfl⟩
    subst hbefore
    rw [List.countP_append, List.countP_cons, List.countP_cons, List.countP_cons, hafter,
      List.countP_append, List.countP_cons, List.countP_cons, List.countP_nil, List.countP_nil]
    have hget : executes sessionId toolCallId ⟨.getSession sessionId, .ok (some held)⟩ = false := rfl
    have hpatch : executes sessionId toolCallId
        ⟨.patchContext sessionId held toolCallId, .ok ()⟩ = false := rfl
    simp only [hrecords, hexecutes, hget, hpatch, Bool.false_eq_true, if_false, if_true, decide_true]
    omega

/-! ## What is recorded -/

section Runs

variable {sessions sessions' : SessionMap} {sessionId : Text}

/-- The recorded ids after a step that meets the condition. -/
theorem processedIn_step {effect : SessionEffect} {reply : Except JsError effect.Reply}
    (h : sessionEnv sessions effect reply sessions') (hfresh : Fresh sessions effect)
    (hset : ∀ s write, effect ≠ .setSession s write) :
    processedIn (sessions' sessionId) = match recordsIn sessionId ⟨effect, reply⟩ with
      | none => processedIn (sessions sessionId)
      | some toolCallId => lastEntries 200 (processedIn (sessions sessionId) ++ [toolCallId]) := by
  rw [apply_of_fresh h hfresh, recordsIn]
  cases hupdate : updateTo sessionId ⟨effect, reply⟩ with
  | none => rfl
  | some update =>
    cases update with
    | toolCall toolCallId =>
      obtain ⟨held, heq⟩ := recordsIn_eq_some_iff.mp
        (show recordsIn sessionId ⟨effect, reply⟩ = some toolCallId by rw [recordsIn, hupdate])
      cases heq
      rw [show sessions sessionId = some held from hfresh]
      dsimp only [Update.apply, Option.map_some]
      rw [processedIn_some, processedIn_some, processedToolCalls_recordToolCall]
    | start state =>
      rw [updateTo_eq_some_iff] at hupdate
      cases effect with
      | setSession s write => exact absurd rfl (hset s write)
      | patchContext s held id => cases reply <;> cases hupdate
      | _ => cases hupdate
    | change c =>
      rw [updateTo_eq_some_iff] at hupdate
      cases effect with
      | setSession s write => exact absurd rfl (hset s write)
      | patchContext s held id => cases reply <;> cases hupdate
      | _ => cases hupdate

theorem recordedBy_concat (sessionId : Text) (log : List (ι × SessionEvent)) (i : ι)
    (event : SessionEvent) : recordedBy sessionId (log ++ [(i, event)]) =
      recordedBy sessionId log ++ (recordsIn sessionId event).toList := by
  rw [recordedBy, List.filterMap_append, ← recordedBy]
  dsimp only [List.filterMap]
  cases recordsIn sessionId event <;> rfl

/-! ### The recorded ids are the last ones -/

/-- The end of a list, of `n` entries at least if it is not the whole list. -/
def IsRecent {α : Type} (n : ℕ) (all kept : List α) : Prop :=
  ∃ dropped, dropped ++ kept = all ∧ (dropped = [] ∨ n ≤ kept.length)

theorem isRecent_lastEntries {α : Type} {n : ℕ} {all kept : List α} (h : IsRecent n all kept)
    (x : α) : IsRecent n (all ++ [x]) (lastEntries n (kept ++ [x])) := by
  obtain ⟨dropped, rfl, hlength⟩ := h
  have hlen : (kept ++ [x]).length = kept.length + 1 := by simp
  refine ⟨dropped ++ (kept ++ [x]).take ((kept ++ [x]).length - n), ?_, ?_⟩
  · rw [lastEntries, List.append_assoc, List.take_append_drop, List.append_assoc]
  · by_cases hfull : n < kept.length + 1
    · right
      rw [lastEntries, List.length_drop]
      omega
    · left
      have hzero : (kept ++ [x]).length - n = 0 := by omega
      rw [hzero, List.take_zero, List.append_nil]
      exact hlength.resolve_right (by omega)

/-- An entry with fewer than `n` after it is there. -/
theorem IsRecent.mem {α : Type} {n : ℕ} {earlier later kept : List α} {x : α}
    (h : IsRecent n (earlier ++ x :: later) kept) (hlater : later.length < n) : x ∈ kept := by
  obtain ⟨dropped, heq, hlength⟩ := h
  rcases List.append_eq_append_iff.mp heq with ⟨rest, rfl, rfl⟩ | ⟨rest, rfl, hrest⟩
  · simp
  · -- the entry would be dropped, and fewer than `n` kept
    cases rest with
    | nil =>
      rw [List.nil_append] at hrest
      rw [← hrest]
      exact List.mem_cons_self
    | cons y rest =>
      have hkept := congrArg List.length hrest
      rw [List.cons_append, List.length_cons, List.length_cons, List.length_append] at hkept
      rcases hlength with hnil | hn
      · simp at hnil
      · omega

theorem IsRecent.subset {α : Type} {n : ℕ} {all kept : List α} (h : IsRecent n all kept) :
    kept ⊆ all := by
  obtain ⟨dropped, rfl, -⟩ := h
  exact List.subset_append_right _ _

/-- The last entry of all is there. -/
theorem IsRecent.last_mem {α : Type} {n : ℕ} {all kept : List α} {x : α}
    (h : IsRecent n (all ++ [x]) kept) (hn : 0 < n) : x ∈ kept :=
  IsRecent.mem h (by simpa using hn)

/-- If the end of a list stays while entries are added that are all new, nothing is added. -/
theorem IsRecent.eq_nil {α : Type} {n : ℕ} {initial first rest kept : List α} (hn : 0 < n)
    (hbefore : IsRecent n (initial ++ first) kept)
    (hnow : IsRecent n (initial ++ (first ++ rest)) kept) (hnodup : (first ++ rest).Nodup)
    (hnew : ∀ x ∈ first ++ rest, x ∉ initial) : rest = [] := by
  rcases List.eq_nil_or_concat rest with hnil | ⟨rest, x, rfl⟩
  · exact hnil
  · exfalso
    rw [List.concat_eq_append] at hnow hnodup hnew
    rw [← List.append_assoc, ← List.append_assoc] at hnow
    -- the last entry was there before
    have hmem := hbefore.subset (hnow.last_mem hn)
    rcases List.mem_append.mp hmem with hmem | hmem
    · exact hnew x (by simp) hmem
    · exact (List.nodup_append.mp hnodup).2.2 x hmem x (by simp) rfl

variable {requests : ι → ToolRequest} {log : List (ι × SessionEvent)}

/-- **The condition on deliveries**: when a request looks its id up, fewer than 200 others have been
recorded after the last record of the id. -/
def InTime (sessions : SessionMap) (requests : ι → ToolRequest) (sessionId : Text)
    (log : List (ι × SessionEvent)) : Prop :=
  ∀ before i found after, log = before ++ (i, ⟨.getSession sessionId, .ok found⟩) :: after →
    ∀ toolCallId, (requests i).call.toolCallId = some toolCallId →
      ∀ earlier later, recorded sessions sessionId before = earlier ++ toolCallId :: later →
        later.length < 200

theorem InTime.of_append {log' : List (ι × SessionEvent)}
    (h : InTime sessions requests sessionId (log ++ log')) :
    InTime sessions requests sessionId log := by
  rintro before i found after rfl
  exact h before i found (after ++ log') (by simp)

theorem recordedBy_append (sessionId : Text) (before after : List (ι × SessionEvent)) :
    recordedBy sessionId (before ++ after) =
      recordedBy sessionId before ++ recordedBy sessionId after :=
  List.filterMap_append

/-- The records of an id are counted in the log. -/
theorem count_recordedBy (sessionId toolCallId : Text) (log : List (ι × SessionEvent)) :
    (recordedBy sessionId log).count toolCallId =
      log.countP fun entry => recordsIn sessionId entry.2 = some toolCallId := by
  rw [recordedBy, List.count_filterMap]
  refine List.countP_congr fun entry _ => ?_
  simp

/-- In a session with few records, every delivery is in time. -/
theorem inTime_of_length (h : (recorded sessions sessionId log).length ≤ 200) :
    InTime sessions requests sessionId log := by
  rintro before i found after rfl toolCallId - earlier later hsplit
  have hlength := congrArg List.length hsplit
  rw [recorded, recordedBy_append, List.length_append, List.length_append] at h
  rw [recorded, List.length_append, List.length_append, List.length_cons] at hlength
  omega

variable [DecidableEq ι] {c : Pool ι SessionMap SessionEffect SessionEffect.Reply ToolReply}

theorem isRecent_of_runs (h : Runs sessionEnv Fresh (delivered sessions requests) log c)
    (sessionId : Text) :
    IsRecent 200 (recorded sessions sessionId log) (processedIn (c.state sessionId)) := by
  induction h with
  | start => exact ⟨[], by simp [recorded, recordedBy, delivered], Or.inl rfl⟩
  | @step log c₁ i effect next reply s' hruns hproc hreply hfresh ih =>
    have hfollows := (hruns.steps (i := i) (steps_liveTool (requests i))).1
    rw [hproc] at hfollows
    have hset : ∀ s write, effect ≠ .setSession s write := by
      rintro s write rfl
      exact hfollows.1
    dsimp only
    rw [processedIn_step hreply hfresh hset, recorded, recordedBy_concat, ← List.append_assoc,
      ← recorded]
    cases recordsIn sessionId ⟨effect, reply⟩ with
    | none => simpa using ih
    | some toolCallId => exact isRecent_lastEntries ih toolCallId

/-! ### No id is recorded twice -/

/-- A request that looks up an id that has been recorded finds it. -/
theorem processed_of_recorded {before after : List (ι × SessionEvent)} {i : ι}
    {found : Option SessionState} {toolCallId : Text}
    (h : Runs sessionEnv Fresh (delivered sessions requests)
      (before ++ (i, ⟨.getSession sessionId, .ok found⟩) :: after) c)
    (hin : InTime sessions requests sessionId
      (before ++ (i, ⟨.getSession sessionId, .ok found⟩) :: after))
    (htool : (requests i).call.toolCallId = some toolCallId) :
    IsRecent 200 (recorded sessions sessionId before) (processedIn found) ∧
      (toolCallId ∈ recorded sessions sessionId before → toolCallId ∈ processedIn found) := by
  obtain ⟨c₁, s', hbefore, henv, -⟩ := h.step_of_log rfl
  have hfound : found = c₁.state sessionId := henv.2 found rfl
  have hrecent := isRecent_of_runs hbefore sessionId
  rw [← hfound] at hrecent
  refine ⟨hrecent, fun hmem => ?_⟩
  obtain ⟨earlier, later, hsplit⟩ := List.append_of_mem hmem
  rw [hsplit] at hrecent
  exact hrecent.mem (hin before i found after rfl toolCallId htool earlier later hsplit)

/-- **Every id is recorded once.** -/
theorem recordedBy_once (h : Runs sessionEnv Fresh (delivered sessions requests) log c)
    (hin : InTime sessions requests sessionId log) :
    (recordedBy sessionId log).Nodup ∧
      ∀ id ∈ recordedBy sessionId log, id ∉ processedIn (sessions sessionId) := by
  induction h with
  | start => simp [recordedBy]
  | @step log c₁ i effect next reply s' hruns hproc hreply hfresh ih =>
    obtain ⟨hnodup, hnew⟩ := ih hin.of_append
    rw [recordedBy_concat]
    cases hrecords : recordsIn sessionId ⟨effect, reply⟩ with
    | none => simpa using ⟨hnodup, hnew⟩
    | some toolCallId =>
      -- the request has looked its id up, in the state that is still there
      obtain ⟨held, heq⟩ := recordsIn_eq_some_iff.mp hrecords
      cases heq
      have hfollows := (hruns.steps (i := i) (steps_liveTool (requests i))).1
      rw [hproc] at hfollows
      obtain ⟨-, htool, hpast, hlooked⟩ := hfollows.1
      have hcurrent : processedIn (c₁.state sessionId) = processedToolCalls held.context := by
        rw [show c₁.state sessionId = some held from hfresh]
        rfl
      have hget : (i, (⟨.getSession sessionId, .ok (some held)⟩ : SessionEvent)) ∈ log :=
        mem_of_mem_eventsOf (by rw [hpast]; simp)
      obtain ⟨before, after, rfl⟩ := List.append_of_mem hget
      obtain ⟨hrecent, hfound⟩ := processed_of_recorded hruns hin.of_append htool
      rw [processedIn_some] at hrecent hfound
      -- nothing has been recorded in between
      have hnow := isRecent_of_runs hruns sessionId
      rw [hcurrent, recorded, recordedBy_append] at hnow
      rw [recordedBy_append] at hnodup hnew ⊢
      have hbetween := hrecent.eq_nil (by decide) hnow hnodup hnew
      rw [hbetween, List.append_nil] at hnodup hnew ⊢
      have hnot : toolCallId ∉ recorded sessions sessionId before :=
        fun hmem => hlooked (hfound hmem)
      rw [recorded, List.mem_append, not_or] at hnot
      constructor
      · rw [Option.toList_some, List.nodup_append]
        refine ⟨hnodup, List.nodup_singleton _, fun id hid id' hid' => ?_⟩
        rw [List.mem_singleton.mp hid']
        rintro rfl
        exact hnot.2 hid
      · intro id hid
        rcases List.mem_append.mp hid with hid | hid
        · exact hnew id hid
        · rw [Option.toList_some, List.mem_singleton] at hid
          rw [hid]
          exact hnot.1

/-! ### The result -/

/-- A tool call has run at most once in a session, and what is delivered again is answered without
running it. -/
structure RunOnce (sessions : SessionMap) (requests : ι → ToolRequest) (sessionId toolCallId : Text)
    (log : List (ι × SessionEvent)) (c : Pool ι SessionMap SessionEffect SessionEffect.Reply ToolReply) :
    Prop where
  executed : log.countP (fun entry => executes sessionId toolCallId entry.2) ≤ 1
  repeated : ∀ before i found after,
    log = before ++ (i, ⟨.getSession sessionId, .ok found⟩) :: after →
      (requests i).call.toolCallId = some toolCallId →
        toolCallId ∈ recorded sessions sessionId before →
          (eventsOf i log).countP (executes sessionId toolCallId) = 0 ∧
            ∀ r, c.procs i = .done r → r = .ok .duplicate ∨ r = .ok .forbidden

/-- A request that looks up a recorded id does not record it. -/
theorem records_eq_zero {events : List SessionEvent} {request : ToolRequest} {state : SessionState}
    {toolCallId : Text} (h : ∀ before event after, events = before ++ event :: after →
      Follows request before event.effect)
    (hget : ⟨.getSession sessionId, .ok (some state)⟩ ∈ events)
    (hprocessed : toolCallId ∈ processedToolCalls state.context) :
    (events.countP fun event => recordsIn sessionId event = some toolCallId) = 0 := by
  rw [List.countP_eq_zero]
  intro event hmem hrecords
  obtain ⟨held, rfl⟩ := recordsIn_eq_some_iff.mp (of_decide_eq_true hrecords)
  -- the look-up is the first event
  obtain ⟨before, after, rfl⟩ := List.append_of_mem hmem
  obtain ⟨-, -, rfl, hlooked⟩ := h before _ after rfl
  obtain ⟨before', after', heq⟩ := List.append_of_mem hget
  obtain ⟨-, rfl⟩ := h before' _ after' heq
  cases (List.cons.inj heq).1
  exact hlooked hprocessed

/-- **Tool calls run at most once**: in every interleaving of requests in which a session is still what
the request has looked at whenever it records its id, and deliveries come in time. -/
theorem toolCall_runs_once [Fintype ι]
    (h : Runs sessionEnv Fresh (delivered sessions requests) log c) (sessionId toolCallId : Text)
    (hin : InTime sessions requests sessionId log) :
    RunOnce sessions requests sessionId toolCallId log c where
  executed := by
    obtain ⟨hnodup, -⟩ := recordedBy_once h hin
    calc log.countP (fun entry => executes sessionId toolCallId entry.2)
        = ∑ i, (eventsOf i log).countP (executes sessionId toolCallId) := countP_eq_sum _ log
      _ ≤ ∑ i, (eventsOf i log).countP fun event =>
          recordsIn sessionId event = some toolCallId :=
        Finset.sum_le_sum fun i _ =>
          executes_le_records (h.steps (steps_liveTool (requests i))).2 sessionId toolCallId
      _ = (recordedBy sessionId log).count toolCallId := by
        rw [count_recordedBy, ← countP_eq_sum]
      _ ≤ 1 := List.nodup_iff_count_le_one.mp hnodup toolCallId
  repeated := by
    rintro before i found after rfl htool hrecorded
    obtain ⟨-, hfound⟩ := processed_of_recorded h hin htool
    have hprocessed := hfound hrecorded
    have hsteps := (h.steps (i := i) (steps_liveTool (requests i))).2
    cases found with
    | none => simp [processedIn] at hprocessed
    | some state =>
      have hget : ⟨.getSession sessionId, .ok (some state)⟩ ∈ eventsOf i
          (before ++ (i, ⟨.getSession sessionId, .ok (some state)⟩) :: after) := by
        simp [eventsOf]
      rw [processedIn_some] at hprocessed
      constructor
      · have hle := executes_le_records hsteps sessionId toolCallId
        rw [records_eq_zero hsteps hget hprocessed] at hle
        exact Nat.le_zero.mp hle
      · intro r hdone
        obtain ⟨before', after', heq⟩ := List.append_of_mem hget
        obtain ⟨rfl, -⟩ := hsteps before' _ after' heq
        exact h.ended (ends_liveTool htool) hdone state hget hprocessed

end Runs

/-- Two deliveries of one tool call. -/
def twoDeliveries : Fin 2 → ToolRequest := fun _ =>
  ⟨lit "ana", none, ⟨lit "evening", lit "save_memory", .null, some (lit "call-1"), none⟩⟩

/-- A store with one session of ana. -/
def oneSession : SessionMap := fun sessionId =>
  if sessionId = lit "evening" then some (initialState (lit "evening") (lit "ana")) else none

/-- The two deliveries, in the order of a schedule; every tool responds with `null`. -/
def deliver (ok : SessionMap → SessionEffect → Prop) [∀ m e, Decidable (ok m e)]
    (schedule : List (Fin 2)) : List (Fin 2 × SessionEvent) ×
      Pool (Fin 2) SessionMap SessionEffect SessionEffect.Reply ToolReply :=
  drive ok (succeeding ⟨none, none, none, [], [], none, none, none⟩ .null) schedule []
    (delivered oneSession twoDeliveries)

theorem toolCall_runs_once_twoDeliveries :
    RunOnce oneSession twoDeliveries (lit "evening") (lit "call-1")
        (deliver Fresh [0, 0, 0, 1]).1 (deliver Fresh [0, 0, 0, 1]).2 ∧
      (deliver Fresh [0, 0, 0, 1]).1.countP
        (fun entry => executes (lit "evening") (lit "call-1") entry.2) = 1 := by
  have hlength : (recorded oneSession (lit "evening") (deliver Fresh [0, 0, 0, 1]).1).length ≤ 200 := by
    decide +kernel
  refine ⟨toolCall_runs_once (drive_runs (fun e s _ => sessionEnv_succeeding _ _ e s) _ .start) _ _
    (inTime_of_length hlength), ?_⟩
  decide +kernel

/-- Two deliveries that look the id up one after the other before they record it: the call runs twice. -/
theorem sideBySide_runs_twice :
    Runs sessionEnv (fun _ _ => True) (delivered oneSession twoDeliveries)
        (deliver (fun _ _ => True) [0, 1, 0, 1, 0, 1]).1
        (deliver (fun _ _ => True) [0, 1, 0, 1, 0, 1]).2 ∧
      (deliver (fun _ _ => True) [0, 1, 0, 1, 0, 1]).1.countP
        (fun entry => executes (lit "evening") (lit "call-1") entry.2) = 2 := by
  refine ⟨drive_runs (fun e s _ => sessionEnv_succeeding _ _ e s) _ .start, ?_⟩
  decide +kernel

end DreamWeaver.Conductor
