import DreamWeaver.Foundations.UndoStack
import DreamWeaver.Sessions.Agreement

/-! # The history of a session

To `InMemorySessionState` a session is a bounded undo stack: its state, and the snapshots of the states
before it. `set` and `patch` are writes to the stack and `rollback` is a step back (`stackOf_set`,
`stackOf_patch`, `stackOf_rollback`), whatever calls came before. For a session that was written only,
the stack is its last ten earlier states. -/

namespace DreamWeaver.Sessions.InMemorySessionState

variable {store : Store} {s t : Text} {now : Time} {state previous current : SessionState} {n : ℕ}

/-- The undo stack of a session. -/
def stackOf (state : SessionState) : UndoStack SessionStateSnapshot :=
  ⟨state.toSessionStateSnapshot, state.history.getD []⟩

/-! ## What the calls do to the stack -/

/-- A call does nothing to the other sessions. -/
theorem perform_of_ne {op : SessionOp} (h : t ≠ op.sessionId) : perform store now op t = store t := by
  cases op with
  | get s => rfl
  | set s state =>
    show set store now s state t = store t
    unfold set
    cases store s with
    | none => exact Function.update_of_ne h _ _
    | some previous => exact Function.update_of_ne h _ _
  | patch s p =>
    show (patch store now s p).2 t = store t
    unfold patch
    cases hs : store s with
    | none => rfl
    | some current =>
      dsimp only
      unfold set
      rw [hs]
      exact Function.update_of_ne h _ _
  | rollback s steps =>
    show rollback store now s steps t = store t
    unfold rollback
    cases store s with
    | none => rfl
    | some current =>
      dsimp only
      split
      · rfl
      · rcases popSteps steps none (current.history.getD []) with ⟨_ | snapshot, rest⟩
        · rfl
        · exact Function.update_of_ne h _ _
  | delete s => exact Function.update_of_ne h _ _

/-- **`set` writes**: the state that was there joins the past. -/
theorem stackOf_set (hprevious : store s = some previous) :
    ∃ after, set store now s state s = some after ∧
      stackOf after = (stackOf previous).write 10 (state.touched now) := by
  unfold set
  rw [hprevious]
  refine ⟨_, Function.update_self .., ?_⟩
  rw [UndoStack.write, pushBounded_eq_drop (by decide)]
  rfl

/-- `patch` writes what is there with the changes of the patch. -/
theorem stackOf_patch {p : SessionStatePatch} (hcurrent : store s = some current) :
    ∃ after, (patch store now s p).2 s = some after ∧
      stackOf after = (stackOf current).write 10 ((current.patched p).touched now) := by
  unfold patch
  rw [hcurrent]
  exact stackOf_set hcurrent

/-- What `n` rounds of popping find, and what they leave. -/
theorem popSteps_eq {α : Type} {history : List α} (target : Option α) (h : n ≤ history.length) :
    popSteps n target history = ((history.rtake n).head?.or target, history.rdrop n) := by
  induction n generalizing history target with
  | zero => rw [popSteps, List.rtake_zero, List.rdrop_zero, List.head?_nil, Option.none_or]
  | succ n ih =>
    rcases List.eq_nil_or_concat history with rfl | ⟨earlier, last, rfl⟩
    · cases h
    rw [List.concat_eq_append] at h ⊢
    rw [List.length_append, List.length_singleton] at h
    rw [popSteps, List.getLast?_concat, List.dropLast_concat]
    dsimp only
    rw [ih _ (by omega), List.rtake_concat_succ, List.rdrop_concat_succ, List.head?_append]
    cases (List.rtake earlier n).head? with
    | none => rfl
    | some snapshot => rfl

/-- More rounds than there are snapshots find nothing. -/
theorem popSteps_of_lt {α : Type} {history : List α} (target : Option α) (h : history.length < n) :
    (popSteps n target history).1 = none := by
  induction n generalizing history target with
  | zero => cases h
  | succ n ih =>
    rcases List.eq_nil_or_concat history with rfl | ⟨earlier, last, rfl⟩
    · rw [popSteps, List.getLast?_nil]
    rw [List.concat_eq_append] at h ⊢
    rw [List.length_append, List.length_singleton] at h
    rw [popSteps, List.getLast?_concat, List.dropLast_concat]
    exact ih _ (by omega)

/-- **`rollback` steps back**, and marks the restored state with its time. -/
theorem stackOf_rollback (hcurrent : store s = some current) :
    ∃ after, rollback store now s n s = some after ∧
      stackOf after = (stackOf current).undo (fun snapshot => snapshot.touched now) n := by
  unfold rollback
  rw [hcurrent]
  dsimp only
  by_cases hempty : (current.history.getD []).isEmpty = true
  · -- without a history there is no step back
    rw [if_pos hempty]
    rw [List.isEmpty_iff] at hempty
    refine ⟨current, hcurrent, (UndoStack.undo_of_past_eq_nil ?_).symm⟩
    exact hempty
  · rw [if_neg hempty]
    by_cases hn : n ≤ (current.history.getD []).length
    · rw [popSteps_eq none hn, Option.or_none]
      by_cases hpos : 0 < n
      · obtain ⟨snapshot, hhead, hsnapshot⟩ := UndoStack.head?_rtake hn hpos
        rw [hhead]
        have hundo : (stackOf current).undo (fun snapshot => snapshot.touched now) n =
            ⟨snapshot.touched now, (stackOf current).past.rdrop n⟩ :=
          UndoStack.undo_eq hsnapshot hn hpos
        exact ⟨_, Function.update_self .., hundo.symm⟩
      · obtain rfl : n = 0 := by omega
        rw [List.rtake_zero]
        exact ⟨current, hcurrent, UndoStack.undo_zero.symm⟩
    · have hnone := popSteps_of_lt (none : Option SessionStateSnapshot) (not_le.mp hn)
      rcases hpop : popSteps n none (current.history.getD []) with ⟨target, rest⟩
      rw [hpop] at hnone
      obtain rfl : target = none := hnone
      exact ⟨current, hcurrent, (UndoStack.undo_of_lt (not_le.mp hn)).symm⟩

/-! ## Sessions that are written only -/

/-- The state that a call of `set` or `patch` writes over a snapshot. -/
def written (now : Time) (current : SessionStateSnapshot) : SessionOp → Option SessionStateSnapshot
  | .set _ state => some (state.touched now)
  | .patch _ p => some ((current.patched p).touched now)
  | _ => none

/-- The call writes to a session. -/
def writesTo (s : Text) : SessionOp → Bool
  | .set t _ | .patch t _ => t = s
  | _ => false

/-- The states that calls give a session one after the other, from the one that it has. -/
def statesAfter (s : Text) : SessionStateSnapshot → List (Time × SessionOp) → List SessionStateSnapshot
  | _, [] => []
  | current, (now, op) :: calls =>
    match if op.sessionId = s then written now current op else none with
    | none => statesAfter s current calls
    | some next => next :: statesAfter s next calls

/-- No call takes a state of the session back. -/
def OnlyWritten (s : Text) (calls : List (Time × SessionOp)) : Prop :=
  ∀ call ∈ calls, call.2 ≠ .delete s ∧ ∀ steps, call.2 ≠ .rollback s steps

/-- Every call that writes gives the session a state. -/
theorem length_statesAfter (s : Text) (snapshot : SessionStateSnapshot) (calls : List (Time × SessionOp)) :
    (statesAfter s snapshot calls).length = calls.countP fun call => writesTo s call.2 := by
  induction calls generalizing snapshot with
  | nil => rfl
  | cons call calls ih =>
    obtain ⟨now, op⟩ := call
    rw [List.countP_cons]
    by_cases hs : op.sessionId = s
    · cases op with
      | set t state =>
        obtain rfl : t = s := hs
        simp [statesAfter, written, writesTo, SessionOp.sessionId, ih]
      | patch t p =>
        obtain rfl : t = s := hs
        simp [statesAfter, written, writesTo, SessionOp.sessionId, ih]
      | _ => simp [statesAfter, written, writesTo, ih]
    · have hwrites : writesTo s op = false := by
        cases op with
        | set t state => exact decide_eq_false hs
        | patch t p => exact decide_eq_false hs
        | _ => rfl
      simp [statesAfter, hs, hwrites, ih]

/-- **Run lemma**: the stack of the session after calls that write it is the one after writes of its
states. -/
theorem stackOf_run {calls : List (Time × SessionOp)} (hcalls : OnlyWritten s calls)
    (hcurrent : store s = some current) : ∃ after, run store calls s = some after ∧
      stackOf after =
        (stackOf current).writes 10 (statesAfter s current.toSessionStateSnapshot calls) := by
  induction calls generalizing store current with
  | nil => exact ⟨current, hcurrent, rfl⟩
  | cons call calls ih =>
    obtain ⟨now, op⟩ := call
    have hrest : OnlyWritten s calls := fun c hc => hcalls c (List.mem_cons_of_mem _ hc)
    obtain ⟨hdelete, hrollback⟩ := hcalls _ List.mem_cons_self
    have hstay : perform store now op s = some current →
        statesAfter s current.toSessionStateSnapshot ((now, op) :: calls) =
          statesAfter s current.toSessionStateSnapshot calls → ∃ after,
        run store ((now, op) :: calls) s = some after ∧ stackOf after =
          (stackOf current).writes 10
            (statesAfter s current.toSessionStateSnapshot ((now, op) :: calls)) := by
      intro hsame hstates
      rw [hstates]
      exact ih hrest hsame
    have hwrite : ∀ next after, perform store now op s = some after →
        stackOf after = (stackOf current).write 10 next →
        statesAfter s current.toSessionStateSnapshot ((now, op) :: calls) =
          next :: statesAfter s next calls → ∃ after',
        run store ((now, op) :: calls) s = some after' ∧ stackOf after' =
          (stackOf current).writes 10
            (statesAfter s current.toSessionStateSnapshot ((now, op) :: calls)) := by
      intro next after hafter hstack hstates
      obtain ⟨last, hlast, hstack'⟩ := ih hrest hafter
      refine ⟨last, hlast, ?_⟩
      have hnext : after.toSessionStateSnapshot = next := congrArg UndoStack.present hstack
      rw [hstack', hstack, hnext, hstates]
      rfl
    by_cases hs : op.sessionId = s
    · cases op with
      | get t => exact hstay hcurrent (by simp [statesAfter, written])
      | set t state =>
        obtain rfl : t = s := hs
        obtain ⟨after, hafter, hstack⟩ := stackOf_set hcurrent
        exact hwrite _ after hafter hstack (by simp [statesAfter, written, SessionOp.sessionId])
      | patch t p =>
        obtain rfl : t = s := hs
        obtain ⟨after, hafter, hstack⟩ := stackOf_patch hcurrent
        exact hwrite _ after hafter hstack (by simp [statesAfter, written, SessionOp.sessionId])
      | rollback t steps =>
        obtain rfl : t = s := hs
        exact absurd rfl (hrollback steps)
      | delete t =>
        obtain rfl : t = s := hs
        exact absurd rfl hdelete
    · have hsame : perform store now op s = some current := by
        rw [perform_of_ne (Ne.symm hs)]
        exact hcurrent
      exact hstay hsame (by simp [statesAfter, hs])

/-! ## The law of the history -/

/-- Two states of a session are the same but for the `updatedAt` of the present one. -/
def SameButUpdatedAt (a b : Option SessionState) : Prop :=
  ∃ x ∈ a, ∃ y ∈ b, (∀ key, key ≠ lit "updatedAt" → x.fields.get? key = y.fields.get? key) ∧
    x.history.getD [] = y.history.getD []

/-- Stacks whose values are marked with different times. -/
theorem sameButUpdatedAt_of_undo {a b : Option SessionState} {x y : SessionState}
    {u : UndoStack SessionStateSnapshot} {t₁ t₂ : Time} (hx : a = some x) (hy : b = some y)
    (hux : stackOf x = u.undo (fun snapshot => snapshot.touched t₁) n)
    (huy : stackOf y = u.undo (fun snapshot => snapshot.touched t₂) n) : SameButUpdatedAt a b := by
  refine ⟨x, hx, y, hy, fun key hkey => ?_, ?_⟩
  · have hpresent : ∀ z t, stackOf z = u.undo (fun snapshot => snapshot.touched t) n →
        z.fields.get? key = (u.undo id n).present.fields.get? key := by
      intro z t hz
      have hz' : z.toSessionStateSnapshot = (stackOf z).present := rfl
      rw [hz', hz]
      unfold UndoStack.undo
      split
      · split
        · exact SessionStateSnapshot.get?_touched _ _ hkey
        · rfl
      · rfl
    rw [hpresent x t₁ hux, hpresent y t₂ huy]
  · have hpast : ∀ z t, stackOf z = u.undo (fun snapshot => snapshot.touched t) n →
        z.history.getD [] = (u.undo id n).past := by
      intro z t hz
      have hz' : z.history.getD [] = (stackOf z).past := rfl
      rw [hz', hz]
      unfold UndoStack.undo
      split
      · split <;> rfl
      · rfl
    rw [hpast x t₁ hux, hpast y t₂ huy]

/-- **Steps back add up**, from every state of a session. -/
theorem rollback_rollback {m : ℕ} {t₁ t₂ t₃ : Time} (hcurrent : store s = some current)
    (hmn : m + n ≤ (current.history.getD []).length) :
    SameButUpdatedAt (rollback (rollback store t₁ s m) t₂ s n s) (rollback store t₃ s (m + n) s) := by
  obtain ⟨x, hx, hux⟩ := @stackOf_rollback store s t₁ current m hcurrent
  obtain ⟨y, hy, huy⟩ := @stackOf_rollback _ s t₂ x n hx
  obtain ⟨z, hz, huz⟩ := @stackOf_rollback store s t₃ current (m + n) hcurrent
  by_cases hpos : 0 < n
  · rw [hux, UndoStack.undo_undo hmn hpos] at huy
    exact sameButUpdatedAt_of_undo hy hz huy huz
  · obtain rfl : n = 0 := by omega
    rw [UndoStack.undo_zero, hux] at huy
    exact sameButUpdatedAt_of_undo hy hz huy huz

/-- A session has a state, and its history is what the states before it say: it holds the ten most recent
ones, in order. A step back by `n` restores the state `n` writes ago, but for `updatedAt`, and leaves the
history before it, and steps back add up. -/
structure HistoryOf (store : Store) (s : Text) (earlier : List SessionStateSnapshot)
    (current : SessionState) : Prop where
  present : store s = some current
  history : current.history.getD [] = earlier.rtake 10
  length : (current.history.getD []).length = min earlier.length 10
  restores : ∀ n now, 1 ≤ n → n ≤ (current.history.getD []).length → ∃ target restored,
    earlier[earlier.length - n]? = some target ∧ rollback store now s n s = some restored ∧
      restored.toSessionStateSnapshot = target.touched now ∧
      restored.history.getD [] = (current.history.getD []).rdrop n
  adds : ∀ m n t₁ t₂ t₃, m + n ≤ (current.history.getD []).length →
    SameButUpdatedAt (rollback (rollback store t₁ s m) t₂ s n s) (rollback store t₃ s (m + n) s)

/-- A session whose stack is the end of its earlier states has them as its history. -/
theorem historyOf_of_stackOf {earlier : List SessionStateSnapshot} (hcurrent : store s = some current)
    (hpast : (stackOf current).past = earlier.rtake 10) : HistoryOf store s earlier current := by
  have hhistory : current.history.getD [] = earlier.rtake 10 := hpast
  have hlength : (current.history.getD []).length = min earlier.length 10 := by
    rw [hhistory, List.rtake, List.length_drop]
    omega
  refine ⟨hcurrent, hhistory, hlength, fun n now hpos hn => ?_,
    fun m n t₁ t₂ t₃ hmn => rollback_rollback hcurrent hmn⟩
  obtain ⟨target, -, htarget⟩ := UndoStack.head?_rtake hn hpos
  obtain ⟨restored, hrestored, hundo⟩ := @stackOf_rollback _ s now current n hcurrent
  rw [UndoStack.undo_eq htarget hn hpos] at hundo
  refine ⟨target, restored, ?_, hrestored, congrArg UndoStack.present hundo,
    congrArg UndoStack.past hundo⟩
  have hn10 : n ≤ 10 := by omega
  have hnall : n ≤ earlier.length := by omega
  rw [← UndoStack.getElem?_rtake hn10 hnall, ← hhistory]
  exact htarget

/-- **The undo stack of a session**: for a session that is set without a history, and then written by
calls of `set` and `patch`, among any calls for other sessions, the history is what its earlier states
say; and no call changes another session. -/
theorem undo_stack_law (store : Store) (s : Text) (created : Time) (first : SessionState)
    (calls : List (Time × SessionOp)) (hnew : store s = none) (hfirst : first.history = none)
    (hcalls : OnlyWritten s calls) :
    (∃ earlier current, earlier ++ [current.toSessionStateSnapshot] =
        first.touched created :: statesAfter s (first.touched created) calls ∧
      earlier.length = calls.countP (fun call => writesTo s call.2) ∧
      HistoryOf (run (set store created s first) calls) s earlier current) ∧
    ∀ store' now op other, op.sessionId = s → other ≠ s →
      perform store' now op other = store' other := by
  have hset : set store created s first s = some { first.touched created with history := none } := by
    unfold set
    rw [hnew, hfirst]
    exact Function.update_self ..
  obtain ⟨current, hcurrent, hstack⟩ := stackOf_run hcalls hset
  obtain ⟨states, hstates⟩ : ∃ states, states = statesAfter s (first.touched created) calls :=
    ⟨_, rfl⟩
  have hstates' : stackOf current = (⟨first.touched created, []⟩ : UndoStack _).writes 10 states := by
    rw [hstates]
    exact hstack
  obtain ⟨hpast, hpresent⟩ := @UndoStack.writes_eq _ 10 ⟨first.touched created, []⟩ (by decide) []
    (List.rtake_nil 10).symm states
  rw [← hstates', List.nil_append] at hpast
  rw [← hstates'] at hpresent
  refine ⟨⟨(first.touched created :: states).dropLast, current, ?_, ?_,
    historyOf_of_stackOf hcurrent hpast⟩, fun store' now op other hop hother => ?_⟩
  · rw [← hstates]
    exact List.dropLast_append_getLast? _ hpresent
  · rw [List.length_dropLast, List.length_cons, Nat.add_sub_cancel, hstates, length_statesAfter]
  · exact perform_of_ne (hop ▸ hother)

/-- A session is patched twice, and another one is set meanwhile. -/
def twoPatches : List (Time × SessionOp) :=
  [(⟨1, Time.inRange_one⟩, .patch (lit "evening") RedisSessionState.asleep),
   (⟨2, Time.inRange_two⟩, .set (lit "morning") (RedisSessionState.idleState (lit "ana") (lit "morning"))),
   (⟨3, Time.inRange_three⟩, .patch (lit "evening") RedisSessionState.asleep)]

/-- Its history holds the two earlier states. -/
theorem undo_stack_law_twoPatches : ∃ earlier current, earlier.length = 2 ∧
    HistoryOf (run (set (fun _ => none) ⟨0, by decide⟩ (lit "evening")
      (RedisSessionState.idleState (lit "ana") (lit "evening"))) twoPatches) (lit "evening") earlier current := by
  have hcalls : OnlyWritten (lit "evening") twoPatches := by
    intro call hcall
    simp only [twoPatches, List.mem_cons, List.not_mem_nil, or_false] at hcall
    rcases hcall with rfl | rfl | rfl
    all_goals exact ⟨(fun h => by cases h), (fun steps h => by cases h)⟩
  obtain ⟨⟨earlier, current, -, hlength, hhistory⟩, -⟩ := undo_stack_law (fun _ => none)
    (lit "evening") ⟨0, by decide⟩ (RedisSessionState.idleState (lit "ana") (lit "evening")) twoPatches
    rfl rfl hcalls
  exact ⟨earlier, current, hlength, hhistory⟩

end DreamWeaver.Sessions.InMemorySessionState
