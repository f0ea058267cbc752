import DreamWeaver.Foundations.JsValue
import Mathlib.Logic.Relation
import Mathlib.Logic.Function.Basic

/-! # Asynchronous procedures

A procedure `p : Proc E R α` has ended, or it awaits the reply to an effect `e : E`, which is an
error or a value in `R e`. An environment says which replies a state of the world allows and what
the state is afterwards. `Run` executes one procedure on its own; `Step` lets one procedure of a
pool take its next reply, so that its closure ranges over all interleavings at the awaits. Triples
`Triple env P p Q` follow the shape of a procedure, and invariants of steps carry over to everything
reachable.

`p.Meets pre good Q` says what a procedure relies on and what it guarantees, by its text alone: it awaits
only effects in `pre`, as long as all replies are `good`, and it ends in `Q` then. In worlds that answer
by themselves, a procedure that meets such a contract does the same from two related states, if related
states give the same good replies to the effects in `pre`. -/

namespace DreamWeaver

/-- An asynchronous procedure with effects in `E` and replies in `R`. -/
inductive Proc (E : Type) (R : E → Type) (α : Type) where
  /-- The procedure has resolved or rejected. -/
  | done (result : Except JsError α)
  /-- The procedure awaits a reply and continues with it. -/
  | await (e : E) (next : Except JsError (R e) → Proc E R α)

namespace Proc

variable {E : Type} {R : E → Type} {α β : Type}

/-! ## Building procedures -/

/-- Continue with the value of a procedure, unless it rejects. -/
protected def bind (p : Proc E R α) (f : α → Proc E R β) : Proc E R β :=
  match p with
  | .done (.ok a) => f a
  | .done (.error e) => .done (.error e)
  | .await e next => .await e fun reply => (next reply).bind f

instance : Monad (Proc E R) where
  pure a := .done (.ok a)
  bind := Proc.bind

/-- Await one effect. -/
def perform (e : E) : Proc E R (R e) := .await e .done

/-- `throw error` -/
def throw (error : JsError) : Proc E R α := .done (.error error)

/-- `try { p } catch (e) { handler e }` -/
def catchWith (p : Proc E R α) (handler : JsError → Proc E R α) : Proc E R α :=
  match p with
  | .done (.ok a) => .done (.ok a)
  | .done (.error e) => handler e
  | .await e next => .await e fun reply => (next reply).catchWith handler

/-- Continue with the result of a procedure, whether it resolved or rejected. -/
def settle (p : Proc E R α) (k : Except JsError α → Proc E R β) : Proc E R β :=
  match p with
  | .done r => k r
  | .await e next => .await e fun reply => (next reply).settle k

@[simp] theorem done_ok_bind (a : α) (f : α → Proc E R β) :
    (done (.ok a) : Proc E R α) >>= f = f a := rfl

@[simp] theorem pure_bind (a : α) (f : α → Proc E R β) : (pure a : Proc E R α) >>= f = f a := rfl

@[simp] theorem done_error_bind (e : JsError) (f : α → Proc E R β) :
    (done (.error e) : Proc E R α) >>= f = done (.error e) := rfl

@[simp] theorem await_bind (e : E) (next : Except JsError (R e) → Proc E R α)
    (f : α → Proc E R β) : await e next >>= f = await e fun reply => next reply >>= f := rfl

/-- Sequencing continues with a value and passes an error on. -/
theorem bind_eq_settle (p : Proc E R α) (f : α → Proc E R β) :
    p >>= f = p.settle fun r => match r with
      | .ok a => f a
      | .error e => .done (.error e) := by
  induction p with
  | done r => cases r <;> rfl
  | await e next ih =>
    rw [await_bind, settle]
    exact congrArg (await e) (funext ih)

/-- `try` and `catch` passes a value on and continues with an error. -/
theorem catchWith_eq_settle (p : Proc E R α) (handler : JsError → Proc E R α) :
    p.catchWith handler = p.settle fun r => match r with
      | .ok a => .done (.ok a)
      | .error e => handler e := by
  induction p with
  | done r => cases r <;> rfl
  | await e next ih =>
    rw [catchWith, settle]
    exact congrArg (await e) (funext ih)

/-! ## Sequential runs -/

/-- Which replies the world gives to an effect, and the state it is in afterwards. -/
abbrev Env (σ E : Type) (R : E → Type) := σ → (e : E) → Except JsError (R e) → σ → Prop

variable {σ : Type} {env : Env σ E R}

/-- `Run env s p r s'`: started in `s`, the procedure ends with `r` in `s'`. -/
inductive Run (env : Env σ E R) : σ → Proc E R α → Except JsError α → σ → Prop
  | done {s : σ} {r : Except JsError α} : Run env s (.done r) r s
  | await {s s₁ s' : σ} {e : E} {next : Except JsError (R e) → Proc E R α}
      {reply : Except JsError (R e)} {r : Except JsError α}
      (hreply : env s e reply s₁) (hrest : Run env s₁ (next reply) r s') :
      Run env s (.await e next) r s'

theorem run_done_iff {s s' : σ} {r r' : Except JsError α} :
    Run env s (done r) r' s' ↔ r' = r ∧ s' = s := by
  constructor
  · rintro ⟨⟩
    exact ⟨rfl, rfl⟩
  · rintro ⟨rfl, rfl⟩
    exact .done

theorem run_pure_iff {s s' : σ} {a : α} {r : Except JsError α} :
    Run env s (pure a) r s' ↔ r = .ok a ∧ s' = s := run_done_iff

theorem run_await_iff {s s' : σ} {e : E} {next : Except JsError (R e) → Proc E R α}
    {r : Except JsError α} :
    Run env s (await e next) r s' ↔
      ∃ reply s₁, env s e reply s₁ ∧ Run env s₁ (next reply) r s' := by
  constructor
  · rintro ⟨⟩
    exact ⟨_, _, ‹_›, ‹_›⟩
  · rintro ⟨reply, s₁, hreply, hrest⟩
    exact .await hreply hrest

theorem run_perform_iff {s s' : σ} {e : E} {r : Except JsError (R e)} :
    Run env s (perform e) r s' ↔ env s e r s' := by
  rw [perform, run_await_iff]
  simp only [run_done_iff]
  constructor
  · rintro ⟨_, _, h, rfl, rfl⟩
    exact h
  · intro h
    exact ⟨_, _, h, rfl, rfl⟩

/-- **A run of a sequence** runs the first part, and the second if the first resolved. -/
theorem run_bind_iff {s s' : σ} {p : Proc E R α} {f : α → Proc E R β} {r : Except JsError β} :
    Run env s (p >>= f) r s' ↔
      (∃ a s₁, Run env s p (.ok a) s₁ ∧ Run env s₁ (f a) r s') ∨
        ∃ e, Run env s p (.error e) s' ∧ r = .error e := by
  induction p generalizing s with
  | done result =>
    cases result with
    | ok a => simp [run_done_iff]
    | error e =>
      simp only [done_error_bind, run_done_iff]
      aesop
  | await e next ih =>
    simp only [await_bind, run_await_iff, ih]
    constructor
    · rintro ⟨reply, s₁, henv, ⟨a, s₂, h₁, h₂⟩ | ⟨err, h₁, h₂⟩⟩
      · exact Or.inl ⟨a, s₂, ⟨reply, s₁, henv, h₁⟩, h₂⟩
      · exact Or.inr ⟨err, ⟨reply, s₁, henv, h₁⟩, h₂⟩
    · rintro (⟨a, s₂, ⟨reply, s₁, henv, h₁⟩, h₂⟩ | ⟨err, ⟨reply, s₁, henv, h₁⟩, h₂⟩)
      · exact ⟨reply, s₁, henv, Or.inl ⟨a, s₂, h₁, h₂⟩⟩
      · exact ⟨reply, s₁, henv, Or.inr ⟨err, h₁, h₂⟩⟩

/-- **A run of a guarded procedure** runs it, and the handler if it rejected. -/
theorem run_catchWith_iff {s s' : σ} {p : Proc E R α} {handler : JsError → Proc E R α}
    {r : Except JsError α} :
    Run env s (p.catchWith handler) r s' ↔
      (∃ a, Run env s p (.ok a) s' ∧ r = .ok a) ∨
        ∃ e s₁, Run env s p (.error e) s₁ ∧ Run env s₁ (handler e) r s' := by
  induction p generalizing s with
  | done result =>
    cases result with
    | ok a =>
      simp only [catchWith, run_done_iff]
      aesop
    | error e => simp [catchWith, run_done_iff]
  | await e next ih =>
    simp only [catchWith, run_await_iff, ih]
    constructor
    · rintro ⟨reply, s₁, henv, ⟨a, h₁, h₂⟩ | ⟨err, s₂, h₁, h₂⟩⟩
      · exact Or.inl ⟨a, ⟨reply, s₁, henv, h₁⟩, h₂⟩
      · exact Or.inr ⟨err, s₂, ⟨reply, s₁, henv, h₁⟩, h₂⟩
    · rintro (⟨a, ⟨reply, s₁, henv, h₁⟩, h₂⟩ | ⟨err, s₂, ⟨reply, s₁, henv, h₁⟩, h₂⟩)
      · exact ⟨reply, s₁, henv, Or.inl ⟨a, h₁, h₂⟩⟩
      · exact ⟨reply, s₁, henv, Or.inr ⟨err, s₂, h₁, h₂⟩⟩

/-- What every reply preserves, every run preserves. -/
theorem Run.invariant {I : σ → Prop} {s s' : σ} {p : Proc E R α} {r : Except JsError α}
    (h : Run env s p r s') (hstep : ∀ s₁ e reply s₂, I s₁ → env s₁ e reply s₂ → I s₂) (hs : I s) :
    I s' := by
  induction h with
  | done => exact hs
  | await hreply _ ih => exact ih (hstep _ _ _ _ hs hreply)

/-- Run a procedure in a world that answers by itself. -/
def exec (answer : σ → (e : E) → Except JsError (R e) × σ) :
    σ → Proc E R α → Except JsError α × σ
  | s, .done r => (r, s)
  | s, .await e next => exec answer (answer s e).2 (next (answer s e).1)

/-- A procedure runs as it executes, when the world allows the answers. -/
theorem run_exec {answer : σ → (e : E) → Except JsError (R e) × σ}
    (h : ∀ s e, env s e (answer s e).1 (answer s e).2) (s : σ) (p : Proc E R α) :
    Run env s p (exec answer s p).1 (exec answer s p).2 := by
  induction p generalizing s with
  | done r => exact .done
  | await e next ih => exact .await (h s e) (ih _ _)

/-! ## Triples -/

/-- From a state in `P`, every run of the procedure ends with a result and a state in `Q`. -/
def Triple (env : Env σ E R) (P : σ → Prop) (p : Proc E R α) (Q : Except JsError α → σ → Prop) :
    Prop :=
  ∀ s r s', P s → Run env s p r s' → Q r s'

variable {P : σ → Prop} {p : Proc E R α}

/-- Strengthen the precondition, weaken the postcondition. -/
theorem Triple.conseq {P' : σ → Prop} {Q Q' : Except JsError α → σ → Prop}
    (h : Triple env P p Q) (hP : ∀ s, P' s → P s) (hQ : ∀ r s, Q r s → Q' r s) :
    Triple env P' p Q' :=
  fun s r s' hs hrun => hQ r s' (h s r s' (hP s hs) hrun)

theorem triple_done {Q : Except JsError α → σ → Prop} {r : Except JsError α}
    (h : ∀ s, P s → Q r s) : Triple env P (done r) Q := by
  intro s r' s' hs hrun
  obtain ⟨rfl, rfl⟩ := run_done_iff.mp hrun
  exact h s' hs

theorem triple_perform {e : E} {Q : Except JsError (R e) → σ → Prop}
    (h : ∀ s reply s', P s → env s e reply s' → Q reply s') : Triple env P (perform e) Q :=
  fun s reply s' hs hrun => h s reply s' hs (run_perform_iff.mp hrun)

/-- **The rule for sequencing.** -/
theorem Triple.bind {f : α → Proc E R β} {M : α → σ → Prop} {Q : Except JsError β → σ → Prop}
    (hp : Triple env P p fun r s => match r with
      | .ok a => M a s
      | .error e => Q (.error e) s)
    (hf : ∀ a, Triple env (M a) (f a) Q) : Triple env P (p >>= f) Q := by
  intro s r s' hs hrun
  rcases run_bind_iff.mp hrun with ⟨a, s₁, h₁, h₂⟩ | ⟨e, h₁, rfl⟩
  · exact hf a s₁ r s' (hp s _ s₁ hs h₁) h₂
  · exact hp s _ s' hs h₁

/-- The rule for `try` and `catch`. -/
theorem Triple.catchWith {handler : JsError → Proc E R α} {M : JsError → σ → Prop}
    {Q : Except JsError α → σ → Prop}
    (hp : Triple env P p fun r s => match r with
      | .ok a => Q (.ok a) s
      | .error e => M e s)
    (hh : ∀ e, Triple env (M e) (handler e) Q) : Triple env P (p.catchWith handler) Q := by
  intro s r s' hs hrun
  rcases run_catchWith_iff.mp hrun with ⟨a, h₁, rfl⟩ | ⟨e, s₁, h₁, h₂⟩
  · exact hp s _ s' hs h₁
  · exact hh e s₁ r s' (hp s _ s₁ hs h₁) h₂

/-- The effects of a procedure keep an invariant. -/
def Keeps (env : Env σ E R) (I : σ → Prop) (p : Proc E R α) : Prop :=
  Triple env I p fun _ s => I s

variable {I : σ → Prop}

theorem keeps_done (r : Except JsError α) : Keeps env I (done r : Proc E R α) :=
  triple_done fun _ hs => hs

theorem keeps_perform {e : E} (h : ∀ s reply s', I s → env s e reply s' → I s') :
    Keeps env I (perform e) :=
  triple_perform h

theorem Keeps.bind {f : α → Proc E R β} (hp : Keeps env I p) (hf : ∀ a, Keeps env I (f a)) :
    Keeps env I (p >>= f) :=
  Triple.bind (M := fun _ => I) (hp.conseq (fun _ h => h) fun r _ h => by cases r <;> exact h) hf

theorem Keeps.catchWith {handler : JsError → Proc E R α} (hp : Keeps env I p)
    (hh : ∀ e, Keeps env I (handler e)) : Keeps env I (p.catchWith handler) :=
  Triple.catchWith (M := fun _ => I) (hp.conseq (fun _ h => h) fun r _ h => by cases r <;> exact h)
    hh

/-! ## Interleavings -/

variable {ι : Type} [DecidableEq ι]

/-- A state of the world and the procedures that share it. -/
structure Pool (ι σ E : Type) (R : E → Type) (α : Type) where
  state : σ
  procs : ι → Proc E R α

/-- One procedure of the pool takes its next reply. -/
inductive Step (env : Env σ E R) : Pool ι σ E R α → Pool ι σ E R α → Prop
  | reply {c : Pool ι σ E R α} {i : ι} {e : E} {next : Except JsError (R e) → Proc E R α}
      {reply : Except JsError (R e)} {s' : σ} (hproc : c.procs i = .await e next)
      (hreply : env c.state e reply s') :
      Step env c ⟨s', Function.update c.procs i (next reply)⟩

/-- Reachable by any number of steps, in any order. -/
def Reachable (env : Env σ E R) : Pool ι σ E R α → Pool ι σ E R α → Prop :=
  Relation.ReflTransGen (Step env)

/-- Procedure `i` takes its turn in a world that answers by itself. -/
def Pool.turn (answer : σ → (e : E) → Except JsError (R e) × σ) (c : Pool ι σ E R α) (i : ι) :
    Pool ι σ E R α :=
  match c.procs i with
  | .done _ => c
  | .await e next =>
    ⟨(answer c.state e).2, Function.update c.procs i (next (answer c.state e).1)⟩

/-- Turns are steps. -/
theorem reachable_turns {answer : σ → (e : E) → Except JsError (R e) × σ}
    (h : ∀ s e, env s e (answer s e).1 (answer s e).2) (c : Pool ι σ E R α) (turns : List ι) :
    Reachable env c (turns.foldl (Pool.turn answer) c) := by
  induction turns generalizing c with
  | nil => exact .refl
  | cons i turns ih =>
    refine .trans ?_ (ih (c.turn answer i))
    unfold Pool.turn
    split
    · exact .refl
    · rename_i e next hproc
      exact .single (.reply hproc (h c.state e))

/-- **The invariant rule**: what every step preserves holds of everything reachable. -/
theorem Reachable.invariant {J : Pool ι σ E R α → Prop} {c c' : Pool ι σ E R α}
    (h : Reachable env c c') (hinit : J c) (hstep : ∀ c₁ c₂, J c₁ → Step env c₁ c₂ → J c₂) :
    J c' := by
  induction h with
  | refl => exact hinit
  | tail _ hlast ih => exact hstep _ _ ih hlast

/-! ## Two runs of one procedure -/

section TwoRuns

variable {E : Type} {R : E → Type} {α β : Type}

/-- The contract of a procedure. -/
def Meets (pre : E → Prop) (good : (e : E) → Except JsError (R e) → Prop)
    (Q : Except JsError α → Prop) : Proc E R α → Prop
  | .done r => Q r
  | .await e next => pre e ∧ ∀ reply, good e reply → Meets pre good Q (next reply)

variable {pre : E → Prop} {good : (e : E) → Except JsError (R e) → Prop}
  {Q Q' : Except JsError α → Prop} {p : Proc E R α}

theorem meets_done {r : Except JsError α} (h : Q r) : (done r : Proc E R α).Meets pre good Q := h

theorem meets_pure {a : α} (h : Q (.ok a)) : (pure a : Proc E R α).Meets pre good Q := h

theorem meets_perform {e : E} {Q : Except JsError (R e) → Prop} (hpre : pre e)
    (h : ∀ reply, good e reply → Q reply) : (perform e).Meets pre good Q := ⟨hpre, h⟩

/-- Weaken what a procedure guarantees. -/
theorem Meets.imp (h : p.Meets pre good Q) (himp : ∀ r, Q r → Q' r) : p.Meets pre good Q' := by
  induction p with
  | done r => exact himp r h
  | await e next ih => exact ⟨h.1, fun reply hreply => ih reply (h.2 reply hreply)⟩

/-- **The rule for sequencing.** -/
theorem Meets.bind {f : α → Proc E R β} {Q : Except JsError β → Prop}
    (h : p.Meets pre good fun r => match r with
      | .ok a => (f a).Meets pre good Q
      | .error e => Q (.error e)) : (p >>= f).Meets pre good Q := by
  induction p with
  | done r =>
    cases r with
    | ok a => exact h
    | error e => exact h
  | await e next ih => exact ⟨h.1, fun reply hreply => ih reply (h.2 reply hreply)⟩

/-- The rule for `try` and `catch`. -/
theorem Meets.catchWith {handler : JsError → Proc E R α}
    (h : p.Meets pre good fun r => match r with
      | .ok a => Q (.ok a)
      | .error e => (handler e).Meets pre good Q) : (p.catchWith handler).Meets pre good Q := by
  induction p with
  | done r =>
    cases r with
    | ok a => exact h
    | error e => exact h
  | await e next ih => exact ⟨h.1, fun reply hreply => ih reply (h.2 reply hreply)⟩

/-- A procedure whose result does not matter. -/
theorem Meets.bind_true {f : α → Proc E R β} (hp : p.Meets pre good fun _ => True)
    (hf : ∀ a, (f a).Meets pre good fun _ => True) : (p >>= f).Meets pre good fun _ => True := by
  refine Meets.bind (hp.imp fun r _ => ?_)
  cases r with
  | ok a => exact hf a
  | error e => trivial

/-- **Two runs from related states do the same.** -/
theorem exec_congr {σ : Type} {answer : σ → (e : E) → Except JsError (R e) × σ}
    {Rel : σ → σ → Prop} (hanswer : ∀ s₁ s₂ e, Rel s₁ s₂ → pre e →
      (answer s₁ e).1 = (answer s₂ e).1 ∧ good e (answer s₁ e).1 ∧
        Rel (answer s₁ e).2 (answer s₂ e).2)
    (hmeets : p.Meets pre good Q) {s₁ s₂ : σ} (h : Rel s₁ s₂) :
    (exec answer s₁ p).1 = (exec answer s₂ p).1 ∧
      Rel (exec answer s₁ p).2 (exec answer s₂ p).2 := by
  induction p generalizing s₁ s₂ with
  | done r => exact ⟨rfl, h⟩
  | await e next ih =>
    obtain ⟨hsame, hgood, hrel⟩ := hanswer s₁ s₂ e h hmeets.1
    rw [exec, exec, ← hsame]
    exact ih (answer s₁ e).1 (hmeets.2 _ hgood) hrel

end TwoRuns

end Proc

end DreamWeaver
