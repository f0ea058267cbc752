import DreamWeaver.Foundations.Process
import Mathlib.Algebra.BigOperators.Group.Finset.Piecewise
import Mathlib.Data.Fintype.BigOperators

/-! # Interleavings with a log

`Runs env ok c log c'` are the interleavings of a pool whose steps meet a condition on the state
before the step, with the log of what was done: by whom, which effect, with which reply. What the log
says about one procedure follows from its text alone: `p.Ends Q done` says that every path through
`p`, after the events `done`, ends with events and a result in `Q`. -/

namespace DreamWeaver

/-- A pool of two processes has a first one. -/
instance neZero_two : NeZero 2 := ⟨by decide⟩

/-- What is never done twice in a row of events is done at most once. -/
theorem countP_le_one {α : Type} {f : α → Bool} {l : List α}
    (h : ∀ before a after, l = before ++ a :: after → f a = true → before.countP f = 0) :
    l.countP f ≤ 1 := by
  induction l using List.reverseRecOn with
  | nil => exact Nat.zero_le 1
  | append_singleton l a ih =>
    rw [List.countP_append, List.countP_singleton]
    by_cases ha : f a = true
    · rw [h l a [] rfl ha, if_pos ha]
    · rw [if_neg ha]
      refine ih fun before b after heq hb => h before b (after ++ [a]) ?_ hb
      rw [heq, List.append_assoc, List.cons_append]

namespace Proc

variable {ι σ E : Type} {R : E → Type} {α β : Type}

/-- An effect with its reply. -/
structure Event (E : Type) (R : E → Type) where
  effect : E
  reply : Except JsError (R effect)

/-! ## Paths through a procedure -/

/-- Every path through the procedure ends in `Q`, counting what was done before it. -/
def Ends (Q : List (Event E R) → Except JsError α → Prop) : Proc E R α → List (Event E R) → Prop
  | .done r, past => Q past r
  | .await e next, past => ∀ reply, Ends Q (next reply) (past ++ [⟨e, reply⟩])

variable {Q Q' : List (Event E R) → Except JsError α → Prop} {past : List (Event E R)}
  {p : Proc E R α}

theorem ends_done {r : Except JsError α} (h : Q past r) : (done r : Proc E R α).Ends Q past := h

theorem ends_pure {a : α} (h : Q past (.ok a)) : (pure a : Proc E R α).Ends Q past := h

theorem ends_perform {e : E} {Q : List (Event E R) → Except JsError (R e) → Prop}
    (h : ∀ reply, Q (past ++ [⟨e, reply⟩]) reply) : (perform e).Ends Q past := h

/-- Weaken what a procedure ends in. -/
theorem Ends.imp (h : p.Ends Q past) (himp : ∀ past r, Q past r → Q' past r) : p.Ends Q' past := by
  induction p generalizing past with
  | done r => exact himp past r h
  | await e next ih => exact fun reply => ih reply (h reply)

/-- What was done before stays done. -/
theorem Ends.frame (h : p.Ends Q past) : p.Ends (fun past' r => past <+: past' ∧ Q past' r) past := by
  induction p generalizing past with
  | done r => exact ⟨List.prefix_rfl, h⟩
  | await e next ih =>
    refine fun reply => (ih reply (h reply)).imp ?_
    rintro past' r ⟨hextends, hQ⟩
    exact ⟨(List.prefix_append past _).trans hextends, hQ⟩

/-- What a procedure ends in, twice. -/
theorem Ends.and (h : p.Ends Q past) (h' : p.Ends Q' past) :
    p.Ends (fun past r => Q past r ∧ Q' past r) past := by
  induction p generalizing past with
  | done r => exact ⟨h, h'⟩
  | await e next ih => exact fun reply => ih reply (h reply) (h' reply)

/-- What every ending is in. -/
theorem ends_of_forall (h : ∀ past r, Q past r) : p.Ends Q past := by
  induction p generalizing past with
  | done r => exact h past r
  | await e next ih => exact fun reply => ih reply

/-- **The rule for sequencing.** -/
theorem Ends.bind {f : α → Proc E R β} {Q : List (Event E R) → Except JsError β → Prop}
    (h : p.Ends (fun past r => match r with
      | .ok a => (f a).Ends Q past
      | .error e => Q past (.error e)) past) : (p >>= f).Ends Q past := by
  induction p generalizing past with
  | done r =>
    cases r with
    | ok a => exact h
    | error e => exact h
  | await e next ih => exact fun reply => ih reply (h reply)

/-- The rule for `try` and `catch`. -/
theorem Ends.catchWith {handler : JsError → Proc E R α}
    (h : p.Ends (fun past r => match r with
      | .ok a => Q past (.ok a)
      | .error e => (handler e).Ends Q past) past) : (p.catchWith handler).Ends Q past := by
  induction p generalizing past with
  | done r =>
    cases r with
    | ok a => exact h
    | error e => exact h
  | await e next ih => exact fun reply => ih reply (h reply)

/-- A sequence whose first part does not matter. -/
theorem Ends.bind_any {f : α → Proc E R β} {Q : List (Event E R) → Except JsError β → Prop}
    (hf : ∀ a past, (f a).Ends Q past) (herror : ∀ e past, Q past (.error e)) :
    (p >>= f).Ends Q past := by
  induction p generalizing past with
  | done r =>
    cases r with
    | ok a => exact hf a past
    | error e => exact herror e past
  | await e next ih => exact fun reply => ih reply

/-- A procedure can end: with an error, if everything it awaits fails. -/
theorem Ends.exists_end (h : p.Ends Q past) : ∃ rest r, Q (past ++ rest) r := by
  induction p generalizing past with
  | done r => exact ⟨[], r, by rw [List.append_nil]; exact h⟩
  | await e next ih =>
    obtain ⟨rest, r, hrest⟩ := ih (.error ⟨[], []⟩) (h _)
    exact ⟨_ :: rest, r, by rwa [List.append_assoc] at hrest⟩

/-- Everything that the procedure can do, with any reply, is in `P`. -/
def Only (P : Event E R → Prop) : Proc E R α → Prop
  | .done _ => True
  | .await e next => ∀ reply, P ⟨e, reply⟩ ∧ Only P (next reply)

variable {P : Event E R → Prop}

theorem only_done {r : Except JsError α} : (done r : Proc E R α).Only P := trivial

theorem only_pure {a : α} : (pure a : Proc E R α).Only P := trivial

theorem only_perform {e : E} (h : ∀ reply, P ⟨e, reply⟩) : (perform e).Only P :=
  fun reply => ⟨h reply, trivial⟩

theorem Only.imp {P' : Event E R → Prop} (h : p.Only P) (himp : ∀ event, P event → P' event) : p.Only P' := by
  induction p with
  | done r => trivial
  | await e next ih => exact fun reply => ⟨himp _ (h reply).1, ih reply (h reply).2⟩

theorem Only.bind {f : α → Proc E R β} (hp : p.Only P) (hf : ∀ a, (f a).Only P) :
    (p >>= f).Only P := by
  induction p with
  | done r =>
    cases r with
    | ok a => exact hf a
    | error e => exact trivial
  | await e next ih => exact fun reply => ⟨(hp reply).1, ih reply (hp reply).2⟩

theorem Only.catchWith {handler : JsError → Proc E R α} (hp : p.Only P)
    (hh : ∀ e, (handler e).Only P) : (p.catchWith handler).Only P := by
  induction p with
  | done r =>
    cases r with
    | ok a => exact trivial
    | error e => exact hh e
  | await e next ih => exact fun reply => ⟨(hp reply).1, ih reply (hp reply).2⟩

theorem Only.settle {k : Except JsError α → Proc E R β} (hp : p.Only P)
    (hk : ∀ r, (k r).Only P) : (p.settle k).Only P := by
  induction p with
  | done r => exact hk r
  | await e next ih => exact fun reply => ⟨(hp reply).1, ih reply (hp reply).2⟩

/-- A procedure that does nothing of a kind leaves its count as it is. -/
theorem Only.ends_countP {f : Event E R → Bool} (h : p.Only fun event => f event = false)
    (past : List (Event E R)) : p.Ends (fun past' _ => past'.countP f = past.countP f) past := by
  induction p generalizing past with
  | done r => exact rfl
  | await e next ih =>
    intro reply
    refine (ih reply (h reply).2 (past ++ [⟨e, reply⟩])).imp fun past' _ hcount => ?_
    rw [hcount, List.countP_append, List.countP_singleton, (h reply).1,
      if_neg Bool.false_ne_true, Nat.add_zero]

/-- A first part that does nothing of a kind. -/
theorem Only.bind_ends {f : Event E R → Bool} {k : α → Proc E R β}
    {Q : List (Event E R) → Except JsError β → Prop} (hp : p.Only fun event => f event = false)
    (hk : ∀ a past', past'.countP f = past.countP f → (k a).Ends Q past')
    (herror : ∀ e past', past'.countP f = past.countP f → Q past' (.error e)) :
    (p >>= k).Ends Q past := by
  refine Ends.bind ((hp.ends_countP past).imp fun past' r hcount => ?_)
  cases r with
  | ok a => exact hk a past' hcount
  | error e => exact herror e past' hcount

/-- Every effect that the procedure awaits, after the events before it, is in `P`. -/
def Steps (P : List (Event E R) → E → Prop) : Proc E R α → List (Event E R) → Prop
  | .done _, _ => True
  | .await e next, past => P past e ∧ ∀ reply, Steps P (next reply) (past ++ [⟨e, reply⟩])

/-- The rule for what a sequence awaits. -/
theorem Steps.bind {P : List (Event E R) → E → Prop} {f : α → Proc E R β} (h : p.Steps P past)
    (hf : p.Ends (fun past r => match r with
      | .ok a => (f a).Steps P past
      | .error _ => True) past) : (p >>= f).Steps P past := by
  induction p generalizing past with
  | done r =>
    cases r with
    | ok a => exact hf
    | error e => trivial
  | await e next ih => exact ⟨h.1, fun reply => ih reply (h.2 reply) (hf reply)⟩

/-- The rule for what is awaited within `try` and `catch`. -/
theorem Steps.catchWith {P : List (Event E R) → E → Prop} {handler : JsError → Proc E R α}
    (h : p.Steps P past) (hh : ∀ e past, (handler e).Steps P past) :
    (p.catchWith handler).Steps P past := by
  induction p generalizing past with
  | done r =>
    cases r with
    | ok a => trivial
    | error e => exact hh e past
  | await e next ih => exact ⟨h.1, fun reply => ih reply (h.2 reply)⟩

/-- Every effect that the procedure awaits is in `P`, and every path through it ends in `Q`, counting what
was done before it. -/
def Obeys (P : List (Event E R) → E → Prop) (Q : List (Event E R) → Except JsError α → Prop) :
    Proc E R α → List (Event E R) → Prop
  | .done r, past => Q past r
  | .await e next, past => P past e ∧ ∀ reply, Obeys P Q (next reply) (past ++ [⟨e, reply⟩])

section Obeys

variable {P : List (Event E R) → E → Prop}

theorem Obeys.imp (h : p.Obeys P Q past) (himp : ∀ past r, Q past r → Q' past r) :
    p.Obeys P Q' past := by
  induction p generalizing past with
  | done r => exact himp past r h
  | await e next ih => exact ⟨h.1, fun reply => ih reply (h.2 reply)⟩

/-- **The rule for sequencing**, for what is awaited and how it ends. -/
theorem Obeys.bind {f : α → Proc E R β} {Q : List (Event E R) → Except JsError β → Prop}
    (h : p.Obeys P (fun past r => match r with
      | .ok a => (f a).Obeys P Q past
      | .error e => Q past (.error e)) past) : (p >>= f).Obeys P Q past := by
  induction p generalizing past with
  | done r =>
    cases r with
    | ok a => exact h
    | error e => exact h
  | await e next ih => exact ⟨h.1, fun reply => ih reply (h.2 reply)⟩

/-- The rule for `try` and `catch`, for what is awaited and how it ends. -/
theorem Obeys.catchWith {handler : JsError → Proc E R α}
    (h : p.Obeys P (fun past r => match r with
      | .ok a => Q past (.ok a)
      | .error e => (handler e).Obeys P Q past) past) : (p.catchWith handler).Obeys P Q past := by
  induction p generalizing past with
  | done r =>
    cases r with
    | ok a => exact h
    | error e => exact h
  | await e next ih => exact ⟨h.1, fun reply => ih reply (h.2 reply)⟩

/-- What was done before stays done. -/
theorem Obeys.frame (h : p.Obeys P Q past) :
    p.Obeys P (fun past' r => past <+: past' ∧ Q past' r) past := by
  induction p generalizing past with
  | done r => exact ⟨List.prefix_rfl, h⟩
  | await e next ih =>
    refine ⟨h.1, fun reply => (ih reply (h.2 reply)).imp ?_⟩
    rintro past' r ⟨hextends, hQ⟩
    exact ⟨(List.prefix_append past _).trans hextends, hQ⟩

/-- A procedure whose effects are all good ones. -/
theorem Only.obeys {P : List (Event E R) → E → Prop} {good : Event E R → Prop} (h : p.Only good)
    (hgood : ∀ past event, good event → P past event.effect) (past : List (Event E R)) :
    p.Obeys P (fun past' _ => ∃ steps, past' = past ++ steps ∧ ∀ event ∈ steps, good event) past := by
  induction p generalizing past with
  | done r => exact ⟨[], (List.append_nil past).symm, fun _ hmem => nomatch hmem⟩
  | await e next ih =>
    refine ⟨hgood past _ (h (.error ⟨[], []⟩)).1, fun reply => (ih reply (h reply).2 _).imp ?_⟩
    rintro past' r ⟨steps, rfl, hsteps⟩
    exact ⟨⟨e, reply⟩ :: steps, by simp, List.forall_mem_cons.mpr ⟨(h reply).1, hsteps⟩⟩

/-- A procedure awaits what its good effects are allowed to be after the events before it. -/
theorem Only.steps {good : Event E R → Prop} (h : p.Only good)
    (hgood : ∀ rest event, good event → P (past ++ rest) event.effect) : p.Steps P past := by
  induction p generalizing past with
  | done r => trivial
  | await e next ih =>
    have hnow := hgood [] _ (h (.error ⟨[], []⟩)).1
    rw [List.append_nil] at hnow
    refine ⟨hnow, fun reply => ih reply (h reply).2 fun rest event hevent => ?_⟩
    rw [List.append_assoc]
    exact hgood _ event hevent

theorem Obeys.steps (h : p.Obeys P Q past) : p.Steps P past := by
  induction p generalizing past with
  | done r => trivial
  | await e next ih => exact ⟨h.1, fun reply => ih reply (h.2 reply)⟩

theorem Obeys.ends (h : p.Obeys P Q past) : p.Ends Q past := by
  induction p generalizing past with
  | done r => exact h
  | await e next ih => exact fun reply => ih reply (h.2 reply)

end Obeys

/-- The procedure has ended with a value. -/
def succeeded : Proc E R α → Bool
  | .done (.ok _) => true
  | _ => false

theorem succeeded_iff : p.succeeded = true ↔ ∃ a, p = .done (.ok a) := by
  cases p with
  | await e next => simp [succeeded]
  | done r => cases r <;> simp [succeeded]

/-! ## Runs -/

variable [DecidableEq ι]

/-- Interleaved steps, each in a state that meets the condition, with their log. -/
inductive Runs (env : Env σ E R) (ok : σ → E → Prop) (c : Pool ι σ E R α) :
    List (ι × Event E R) → Pool ι σ E R α → Prop
  | start : Runs env ok c [] c
  | step {log : List (ι × Event E R)} {c₁ : Pool ι σ E R α} {i : ι} {e : E}
      {next : Except JsError (R e) → Proc E R α} {reply : Except JsError (R e)} {s' : σ}
      (h : Runs env ok c log c₁) (hproc : c₁.procs i = .await e next)
      (hreply : env c₁.state e reply s') (hok : ok c₁.state e) :
      Runs env ok c (log ++ [(i, ⟨e, reply⟩)]) ⟨s', Function.update c₁.procs i (next reply)⟩

/-- What one procedure did. -/
def eventsOf (i : ι) (log : List (ι × Event E R)) : List (Event E R) :=
  (log.filter fun entry => entry.1 = i).map Prod.snd

theorem eventsOf_concat_self {i : ι} {log : List (ι × Event E R)} {event : Event E R} :
    eventsOf i (log ++ [(i, event)]) = eventsOf i log ++ [event] := by
  simp [eventsOf, List.filter_append]

theorem eventsOf_concat_of_ne {i j : ι} {log : List (ι × Event E R)} {event : Event E R}
    (h : i ≠ j) : eventsOf j (log ++ [(i, event)]) = eventsOf j log := by
  simp [eventsOf, List.filter_append, h]

theorem eventsOf_append (i : ι) (log log' : List (ι × Event E R)) :
    eventsOf i (log ++ log') = eventsOf i log ++ eventsOf i log' := by
  rw [eventsOf, List.filter_append, List.map_append, eventsOf, eventsOf]

/-- Where the last event of a procedure is in the log. -/
theorem exists_split_of_eventsOf {i : ι} {past : List (Event E R)} {event : Event E R}
    {log : List (ι × Event E R)} (h : eventsOf i log = past ++ [event]) : ∃ before after,
      log = before ++ (i, event) :: after ∧ eventsOf i before = past ∧ ∀ entry ∈ after, entry.1 ≠ i := by
  induction log using List.reverseRecOn with
  | nil => simp [eventsOf] at h
  | append_singleton log entry ih =>
    obtain ⟨j, last⟩ := entry
    by_cases hji : j = i
    · subst hji
      rw [eventsOf_concat_self] at h
      obtain ⟨hpast, hlast⟩ := List.append_inj' h rfl
      exact ⟨log, [], by rw [(List.cons.inj hlast).1], hpast, fun _ hmem => nomatch hmem⟩
    · rw [eventsOf_concat_of_ne hji] at h
      obtain ⟨before, after, rfl, hbefore, hafter⟩ := ih h
      refine ⟨before, after ++ [(j, last)], by simp, hbefore, fun entry hmem => ?_⟩
      rcases List.mem_append.mp hmem with hmem | hmem
      · exact hafter entry hmem
      · rw [List.mem_singleton.mp hmem]
        exact hji

/-- An entry of a longer log is the new one or one of before. -/
theorem split_concat {τ : Type} {log before after : List τ} {entry last : τ}
    (h : log ++ [last] = before ++ entry :: after) :
    before = log ∧ entry = last ∨ ∃ after', log = before ++ entry :: after' := by
  rcases List.eq_nil_or_concat after with rfl | ⟨after', final, rfl⟩
  · obtain ⟨hbefore, hentry⟩ := List.append_inj' h rfl
    exact .inl ⟨hbefore.symm, (List.cons.inj hentry).1.symm⟩
  · rw [List.concat_eq_append, ← List.cons_append, ← List.append_assoc] at h
    exact .inr ⟨after', (List.append_inj' h rfl).1⟩

theorem mem_of_mem_eventsOf {i : ι} {event : Event E R} {log : List (ι × Event E R)}
    (h : event ∈ eventsOf i log) : (i, event) ∈ log := by
  obtain ⟨⟨j, event'⟩, hmem, rfl⟩ := List.mem_map.mp h
  obtain ⟨hlog, hj⟩ := List.mem_filter.mp hmem
  obtain rfl : j = i := of_decide_eq_true hj
  exact hlog

/-- What a procedure has done, it has done after it began. -/
theorem exists_split_of_begins {i : ι} {event : Event E R} {before log : List (ι × Event E R)}
    (hpre : before <+: log) (hbegins : eventsOf i before = []) (h : event ∈ eventsOf i log) :
    ∃ later after, log = before ++ later ++ (i, event) :: after := by
  obtain ⟨rest, rfl⟩ := hpre
  rw [eventsOf_append, hbegins, List.nil_append] at h
  obtain ⟨later, after, rfl⟩ := List.append_of_mem (mem_of_mem_eventsOf h)
  exact ⟨later, after, by rw [List.append_assoc]⟩

variable {env : Env σ E R} {ok : σ → E → Prop} {c c' : Pool ι σ E R α}
  {log : List (ι × Event E R)}

/-- **What a procedure does**: its events of the log, and then the rest of its text. -/
theorem Runs.ends {Q : List (Event E R) → Except JsError α → Prop} {i : ι}
    (h : Runs env ok c log c') (hinit : (c.procs i).Ends Q []) :
    (c'.procs i).Ends Q (eventsOf i log) := by
  induction h with
  | start => exact hinit
  | @step log c₁ j e next reply s' _ hproc _ _ ih =>
    dsimp only
    by_cases hij : j = i
    · subst hij
      rw [Function.update_self, eventsOf_concat_self]
      rw [hproc] at ih
      exact ih reply
    · rw [Function.update_of_ne (Ne.symm hij), eventsOf_concat_of_ne hij]
      exact ih

/-- A procedure that has ended ended as its text says. -/
theorem Runs.ended {Q : List (Event E R) → Except JsError α → Prop} {i : ι}
    {r : Except JsError α} (h : Runs env ok c log c') (hinit : (c.procs i).Ends Q [])
    (hdone : c'.procs i = .done r) : Q (eventsOf i log) r := by
  have hends := h.ends hinit
  rwa [hdone] at hends

/-- What a procedure has done is something that its text can do, and so is what it does next. -/
theorem Runs.only {i : ι} (h : Runs env ok c log c') (hinit : (c.procs i).Only P) :
    (c'.procs i).Only P ∧ ∀ event ∈ eventsOf i log, P event := by
  induction h with
  | start => exact ⟨hinit, by simp [eventsOf]⟩
  | @step log c₁ j e next reply s' _ hproc _ _ ih =>
    obtain ⟨honly, hlog⟩ := ih
    dsimp only
    by_cases hij : j = i
    · subst hij
      rw [hproc] at honly
      obtain ⟨hevent, hnext⟩ := honly reply
      rw [Function.update_self, eventsOf_concat_self]
      refine ⟨hnext, fun event hmem => ?_⟩
      rcases List.mem_append.mp hmem with hmem | hmem
      · exact hlog event hmem
      · rw [List.mem_singleton.mp hmem]
        exact hevent
    · rw [Function.update_of_ne (Ne.symm hij), eventsOf_concat_of_ne hij]
      exact ⟨honly, hlog⟩

/-- What a procedure awaits is what its text says after its events of the log, and so it was for each
of them. -/
theorem Runs.steps {P : List (Event E R) → E → Prop} {i : ι} (h : Runs env ok c log c')
    (hinit : (c.procs i).Steps P []) :
    (c'.procs i).Steps P (eventsOf i log) ∧ ∀ before event after,
      eventsOf i log = before ++ event :: after → P before event.effect := by
  induction h with
  | start => exact ⟨hinit, fun before event after heq => by simp [eventsOf] at heq⟩
  | @step log c₁ j e next reply s' _ hproc _ _ ih =>
    obtain ⟨hnow, hlog⟩ := ih
    dsimp only
    by_cases hij : j = i
    · subst hij
      rw [hproc] at hnow
      rw [Function.update_self, eventsOf_concat_self]
      refine ⟨hnow.2 reply, fun before event after heq => ?_⟩
      -- the event is the one of this step, or one before
      rcases split_concat heq with ⟨rfl, rfl⟩ | ⟨after', heq⟩
      · exact hnow.1
      · exact hlog before event after' heq
    · rw [Function.update_of_ne (Ne.symm hij), eventsOf_concat_of_ne hij]
      exact ⟨hnow, hlog⟩

/-- An event of the log was a step of the run. -/
theorem Runs.step_of_log (h : Runs env ok c log c') {before after : List (ι × Event E R)} {i : ι}
    {event : Event E R} (hlog : log = before ++ (i, event) :: after) :
    ∃ c₁ s', Runs env ok c before c₁ ∧ env c₁.state event.effect event.reply s' ∧
      ok c₁.state event.effect := by
  induction h generalizing after with
  | start => simp at hlog
  | @step log c₁ j e next reply s' hruns hproc hreply hok ih =>
    rcases split_concat hlog with ⟨rfl, hentry⟩ | ⟨after', heq⟩
    · obtain ⟨rfl, rfl⟩ := Prod.mk.inj hentry
      exact ⟨c₁, s', hruns, hreply, hok⟩
    · exact @ih after' heq

/-- The parts of a run are runs. -/
theorem Runs.split {before after : List (ι × Event E R)} (h : Runs env ok c (before ++ after) c') :
    ∃ c₁, Runs env ok c before c₁ ∧ Runs env ok c₁ after c' := by
  generalize hlog : before ++ after = log at h
  induction h generalizing after with
  | start =>
    obtain ⟨rfl, rfl⟩ := List.append_eq_nil_iff.mp hlog
    exact ⟨c, .start, .start⟩
  | @step log c₁ i e next reply s' hruns hproc hreply hok ih =>
    rcases List.eq_nil_or_concat' after with rfl | ⟨after', last, rfl⟩
    · rw [List.append_nil] at hlog
      subst hlog
      exact ⟨_, hruns.step hproc hreply hok, .start⟩
    · rw [← List.append_assoc] at hlog
      obtain ⟨rfl, hlast⟩ := List.append_inj' hlog rfl
      obtain rfl := (List.cons.inj hlast).1
      obtain ⟨c₂, hbefore, hafter⟩ := ih rfl
      exact ⟨c₂, hbefore, hafter.step hproc hreply hok⟩

/-- Runs one after the other are a run. -/
theorem Runs.append {c₁ : Pool ι σ E R α} {before after : List (ι × Event E R)} (h : Runs env ok c before c₁)
    (h' : Runs env ok c₁ after c') : Runs env ok c (before ++ after) c' := by
  induction h' with
  | start =>
    rw [List.append_nil]
    exact h
  | step _ hproc hreply hok ih =>
    rw [← List.append_assoc]
    exact ih.step hproc hreply hok

/-- A run of one step. -/
theorem Runs.single {i : ι} {event : Event E R} (h : Runs env ok c [(i, event)] c') :
    env c.state event.effect event.reply c'.state := by
  generalize hlog : [(i, event)] = log at h
  cases h with
  | start => cases hlog
  | step hnone _ hreply _ =>
    cases hnone with
    | start =>
      cases hlog
      exact hreply
    | step =>
      have hlength := congrArg List.length hlog
      simp at hlength

/-- The first step of a run, and the run after it. -/
theorem Runs.first {i : ι} {event : Event E R} (h : Runs env ok c ((i, event) :: log) c') :
    ∃ c₁, Runs env ok c [(i, event)] c₁ ∧ env c.state event.effect event.reply c₁.state ∧ Runs env ok c₁ log c' := by
  obtain ⟨c₁, hone, hrest⟩ := @Runs.split _ _ _ _ _ _ _ _ _ _ [(i, event)] log h
  exact ⟨c₁, hone, hone.single, hrest⟩

/-- What no step of a run changes. -/
theorem Runs.unchanged {β : Type} {f : σ → β} (h : Runs env ok c log c')
    (hsame : ∀ entry ∈ log, ∀ s s', env s entry.2.effect entry.2.reply s' → f s' = f s) :
    f c'.state = f c.state := by
  induction h with
  | start => rfl
  | step _ _ hreply _ ih =>
    have hlast := hsame _ (List.mem_append_right _ (List.mem_singleton_self _)) _ _ hreply
    exact hlast.trans (ih fun entry hmem => hsame entry (List.mem_append_left _ hmem))

/-- **The invariant rule for interleavings.** -/
theorem Runs.invariant {J : σ → Prop} (h : Runs env ok c log c') (hinit : J c.state)
    (hstep : ∀ s e reply s', J s → ok s e → env s e reply s' → J s') : J c'.state := by
  induction h with
  | start => exact hinit
  | step _ _ hreply hok ih => exact hstep _ _ _ _ ih hok hreply

/-- The run that a schedule makes, where the replies are a function of the state: a procedure whose turn
it is takes its step, if that meets the condition. -/
def drive (ok : σ → E → Prop) [∀ s e, Decidable (ok s e)]
    (answer : (e : E) → σ → Except JsError (R e) × σ) :
    List ι → List (ι × Event E R) → Pool ι σ E R α → List (ι × Event E R) × Pool ι σ E R α
  | [], log, c => (log, c)
  | i :: schedule, log, c =>
    match c.procs i with
    | .done _ => drive ok answer schedule log c
    | .await e next =>
      if ok c.state e then
        drive ok answer schedule (log ++ [(i, ⟨e, (answer e c.state).1⟩)])
          ⟨(answer e c.state).2, Function.update c.procs i (next (answer e c.state).1)⟩
      else drive ok answer schedule log c

/-- What a schedule makes is a run. -/
theorem drive_runs [∀ s e, Decidable (ok s e)]
    {answer : (e : E) → σ → Except JsError (R e) × σ}
    (hanswer : ∀ e s, ok s e → env s e (answer e s).1 (answer e s).2) (schedule : List ι)
    (h : Runs env ok c log c') :
    Runs env ok c (drive ok answer schedule log c').1 (drive ok answer schedule log c').2 := by
  induction schedule generalizing log c' with
  | nil => exact h
  | cons i schedule ih =>
    rw [drive]
    cases hproc : c'.procs i with
    | done r => exact ih h
    | await e next =>
      dsimp only
      split
      · rename_i hok
        exact ih (h.step hproc (hanswer e c'.state hok) hok)
      · exact ih h

/-- What is counted in the log is counted procedure by procedure. -/
theorem countP_eq_sum [Fintype ι] (f : Event E R → Bool) (log : List (ι × Event E R)) :
    log.countP (fun entry => f entry.2) = ∑ i, (eventsOf i log).countP f := by
  induction log using List.reverseRecOn with
  | nil => simp [eventsOf]
  | append_singleton log entry ih =>
    obtain ⟨j, event⟩ := entry
    have hone : ∀ i, (eventsOf i (log ++ [(j, event)])).countP f =
        (eventsOf i log).countP f + if j = i then [event].countP f else 0 := by
      intro i
      by_cases hij : j = i
      · subst hij
        rw [eventsOf_concat_self, List.countP_append, if_pos rfl]
      · rw [eventsOf_concat_of_ne hij, if_neg hij, Nat.add_zero]
    rw [List.countP_append, ih, Finset.sum_congr rfl fun i _ => hone i, Finset.sum_add_distrib,
      Finset.sum_ite_eq, if_pos (Finset.mem_univ j)]
    rfl

end Proc

end DreamWeaver
