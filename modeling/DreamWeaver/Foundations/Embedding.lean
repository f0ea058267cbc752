import DreamWeaver.Foundations.Interleaving
import DreamWeaver.Foundations.Process

/-! # Procedures inside procedures with more effects

`p.embed f` is the procedure `p` where more effects can be awaited: every effect of `p` is one of them
through `f`. What is known of `p` is known of it there: its paths, its contract and its runs. Contracts
are also a rule for interleavings: what every step preserves that keeps to the contract holds in every
state reached (`Runs.keeps`). -/

namespace DreamWeaver.Proc

variable {E F : Type} {S : F → Type} {α β : Type} (f : E → F)

/-- The procedure with its effects among others. -/
def embed : Proc E (fun e => S (f e)) α → Proc F S α
  | .done r => .done r
  | .await e next => .await (f e) fun reply => (next reply).embed

variable {f}

/-- Sequencing comes before or after. -/
theorem embed_bind (p : Proc E (fun e => S (f e)) α) (k : α → Proc E (fun e => S (f e)) β) :
    (p >>= k).embed f = p.embed f >>= fun a => (k a).embed f := by
  induction p with
  | done r => cases r <;> rfl
  | await e next ih =>
    show await (f e) _ = await (f e) _
    congr 1
    funext reply
    exact ih reply

variable {p : Proc E (fun e => S (f e)) α}

/-- An event among others. -/
def Event.embed (f : E → F) (event : Event E fun e => S (f e)) : Event F S := ⟨f event.effect, event.reply⟩

/-- A procedure among others does nothing but its own effects. -/
theorem only_embed : (p.embed f).Only fun event => ∃ e, event.effect = f e := by
  induction p with
  | done r => trivial
  | await e next ih => exact fun reply => ⟨⟨e, rfl⟩, ih reply⟩

/-- **The paths through an embedded procedure** are its own. -/
theorem Ends.embed {Q : List (Event F S) → Except JsError α → Prop} {before : List (Event F S)}
    {past : List (Event E fun e => S (f e))}
    (h : p.Ends (fun past' r => Q (before ++ past'.map (Event.embed f)) r) past) :
    (p.embed f).Ends Q (before ++ past.map (Event.embed f)) := by
  induction p generalizing past with
  | done r => exact h
  | await e next ih =>
    intro reply
    have hnext := ih reply (h reply)
    rwa [List.map_append, ← List.append_assoc] at hnext

theorem Ends.embed_nil {Q : List (Event F S) → Except JsError α → Prop}
    (h : p.Ends (fun past r => Q (past.map (Event.embed f)) r) []) : (p.embed f).Ends Q [] :=
  @Ends.embed _ _ _ _ f p Q [] [] h

theorem Only.embed {P : Event F S → Prop}
    (h : p.Only fun event => P (event.embed f)) : (p.embed f).Only P := by
  induction p with
  | done r => trivial
  | await e next ih => exact fun reply => ⟨(h reply).1, ih reply (h reply).2⟩

/-- A procedure among others obeys what it obeys. -/
theorem Obeys.embed {P : List (Event F S) → F → Prop}
    {Q : List (Event F S) → Except JsError α → Prop} {past : List (Event E fun e => S (f e))}
    (h : p.Obeys (fun past e => P (past.map (Event.embed f)) (f e))
      (fun past r => Q (past.map (Event.embed f)) r) past) :
    (p.embed f).Obeys P Q (past.map (Event.embed f)) := by
  induction p generalizing past with
  | done r => exact h
  | await e next ih =>
    refine ⟨h.1, fun reply => ?_⟩
    have hnext := ih reply (h.2 reply)
    rwa [List.map_append] at hnext

theorem Obeys.embed_nil {P : List (Event F S) → F → Prop}
    {Q : List (Event F S) → Except JsError α → Prop}
    (h : p.Obeys (fun past e => P (past.map (Event.embed f)) (f e))
      (fun past r => Q (past.map (Event.embed f)) r) []) : (p.embed f).Obeys P Q [] := Obeys.embed h

theorem Steps.imp {R : E → Type} {P P' : List (Event E R) → E → Prop} {p : Proc E R α} {past : List (Event E R)}
    (h : p.Steps P past) (himp : ∀ past e, P past e → P' past e) : p.Steps P' past := by
  induction p generalizing past with
  | done r => trivial
  | await e next ih => exact ⟨himp past e h.1, fun reply => ih reply (h.2 reply)⟩

/-- What an embedded procedure awaits. -/
theorem Steps.embed {P : List (Event F S) → F → Prop} {past : List (Event E fun e => S (f e))}
    (h : p.Steps (fun past e => P (past.map (Event.embed f)) (f e)) past) :
    (p.embed f).Steps P (past.map (Event.embed f)) := by
  induction p generalizing past with
  | done r => trivial
  | await e next ih =>
    refine ⟨h.1, fun reply => ?_⟩
    have hnext := ih reply (h.2 reply)
    rwa [List.map_append] at hnext

/-- The contract of an embedded procedure. -/
theorem Meets.embed {pre : F → Prop} {good : (e : F) → Except JsError (S e) → Prop}
    {Q : Except JsError α → Prop}
    (h : p.Meets (fun e => pre (f e)) (fun e => good (f e)) Q) : (p.embed f).Meets pre good Q := by
  induction p with
  | done r => exact h
  | await e next ih => exact ⟨h.1, fun reply hreply => ih reply (h.2 reply hreply)⟩

/-! ## Contracts of what goes on with a result -/

section Contracts

variable {R : E → Type} {pre : E → Prop} {good : (e : E) → Except JsError (R e) → Prop}
  {q : Proc E R α}

theorem Meets.settle {k : Except JsError α → Proc E R β} {Q : Except JsError β → Prop}
    (h : q.Meets pre good fun r => (k r).Meets pre good Q) : (q.settle k).Meets pre good Q := by
  induction q with
  | done r => exact h
  | await e next ih => exact ⟨h.1, fun reply hreply => ih reply (h.2 reply hreply)⟩

theorem Ends.settle {k : Except JsError α → Proc E R β} {past : List (Event E R)}
    {Q : List (Event E R) → Except JsError β → Prop}
    (h : q.Ends (fun past' r => (k r).Ends Q past') past) : (q.settle k).Ends Q past := by
  induction q generalizing past with
  | done r => exact h
  | await e next ih => exact fun reply => ih reply (h reply)

/-- **The rule for interleavings**: where every step from a good state that keeps to the contracts gets a
good reply and leads to a good state, the run stays in good states. -/
theorem Runs.keeps {ι σ : Type} [DecidableEq ι] {env : Env σ E R} {ok : σ → E → Prop}
    {c c' : Pool ι σ E R α} {log : List (ι × Event E R)} {I : σ → Prop}
    (hstep : ∀ s e reply s', I s → pre e → env s e reply s' → good e reply ∧ I s')
    (hinit : I c.state) (hmeets : ∀ i, (c.procs i).Meets pre good fun _ => True)
    (h : Runs env ok c log c') : I c'.state ∧ ∀ i, (c'.procs i).Meets pre good fun _ => True := by
  induction h with
  | start => exact ⟨hinit, hmeets⟩
  | @step log c₁ i e next reply s' _ hproc hreply _ ih =>
    obtain ⟨hgood, hprocs⟩ := ih
    have hnow := hprocs i
    rw [hproc] at hnow
    obtain ⟨hgoodreply, hnext⟩ := hstep _ _ _ _ hgood hnow.1 hreply
    refine ⟨hnext, fun j => ?_⟩
    dsimp only
    by_cases hij : j = i
    · rw [hij, Function.update_self]
      exact hnow.2 reply hgoodreply
    · rw [Function.update_of_ne hij]
      exact hprocs j

end Contracts

end DreamWeaver.Proc
