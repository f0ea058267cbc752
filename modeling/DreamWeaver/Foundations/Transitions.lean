import Mathlib.Data.List.Basic

/-! # Partial transition systems

`step s a` is the state after an action, if the action can happen. `runFrom` makes a run of a list of
actions, `Along` says that every action of it meets a condition on the state before it, and `outputs`
collects what the actions put out, as an observer of the run sees it. What one step preserves, of the
state and of what was put out before it, a whole run preserves. -/

namespace DreamWeaver.Transitions

variable {σ α β : Type}

/-- The state after actions, if they can happen one after the other. -/
def runFrom (step : σ → α → Option σ) : σ → List α → Option σ
  | s, [] => some s
  | s, a :: as => (step s a).bind fun s' => runFrom step s' as

/-- Every action of a run meets a condition on the state before it. -/
def Along (step : σ → α → Option σ) (ok : σ → α → Prop) : σ → List α → Prop
  | _, [] => True
  | s, a :: as => ok s a ∧ ∀ s', step s a = some s' → Along step ok s' as

/-- What the actions of a run put out. -/
def outputs (step : σ → α → Option σ) (out : σ → α → List β) : σ → List α → List β
  | _, [] => []
  | s, a :: as => out s a ++ (step s a).elim [] fun s' => outputs step out s' as

variable {step : σ → α → Option σ} {ok : σ → α → Prop} {out : σ → α → List β} {s s' : σ} {a : α}
  {as bs : List α}

theorem runFrom_cons : runFrom step s (a :: as) = (step s a).bind fun s' => runFrom step s' as := rfl

theorem runFrom_of_step (h : step s a = some s') : runFrom step s (a :: as) = runFrom step s' as := by
  rw [runFrom_cons, h, Option.bind_some]

/-- A run of one action after another has a state in between. -/
theorem runFrom_append (h : runFrom step s (as ++ bs) = some s') :
    ∃ s₁, runFrom step s as = some s₁ ∧ runFrom step s₁ bs = some s' := by
  induction as generalizing s with
  | nil => exact ⟨s, rfl, h⟩
  | cons a as ih =>
    rw [List.cons_append, runFrom_cons, Option.bind_eq_some_iff] at h
    obtain ⟨s₁, hstep, hrest⟩ := h
    obtain ⟨s₂, hfirst, hsecond⟩ := ih hrest
    refine ⟨s₂, ?_, hsecond⟩
    rw [runFrom_cons, hstep]
    exact hfirst

/-- The condition holds along both parts of a run. -/
theorem Along.split (h : Along step ok s (as ++ bs)) :
    Along step ok s as ∧ ∀ s', runFrom step s as = some s' → Along step ok s' bs := by
  induction as generalizing s with
  | nil =>
    refine ⟨trivial, fun s' hs => ?_⟩
    obtain rfl := Option.some.inj hs
    exact h
  | cons a as ih =>
    obtain ⟨hok, hrest⟩ := h
    refine ⟨⟨hok, fun s₁ hstep => (ih (hrest s₁ hstep)).1⟩, fun s' hs => ?_⟩
    rw [runFrom_cons, Option.bind_eq_some_iff] at hs
    obtain ⟨s₁, hstep, hrun⟩ := hs
    exact (ih (hrest s₁ hstep)).2 s' hrun

/-- What is put out by one part of a run after another. -/
theorem outputs_append {s₁ : σ} (h : runFrom step s as = some s₁) :
    outputs step out s (as ++ bs) = outputs step out s as ++ outputs step out s₁ bs := by
  induction as generalizing s with
  | nil =>
    obtain rfl := Option.some.inj h
    rfl
  | cons a as ih =>
    rw [runFrom_cons, Option.bind_eq_some_iff] at h
    obtain ⟨s₂, hstep, hrest⟩ := h
    rw [List.cons_append, outputs, outputs, hstep, Option.elim_some, Option.elim_some, ih hrest,
      List.append_assoc]

/-- **The invariant rule.** -/
theorem run_invariant {I : σ → Prop}
    (hkeep : ∀ s a s', I s → ok s a → step s a = some s' → I s') (hI : I s)
    (hok : Along step ok s as) (hrun : runFrom step s as = some s') : I s' := by
  induction as generalizing s with
  | nil =>
    obtain rfl := Option.some.inj hrun
    exact hI
  | cons a as ih =>
    rw [runFrom_cons, Option.bind_eq_some_iff] at hrun
    obtain ⟨s₁, hstep, hrest⟩ := hrun
    exact ih (hkeep s a s₁ hI hok.1 hstep) (hok.2 s₁ hstep) hrest

/-- **The invariant rule with outputs**: the invariant speaks of what was put out before, too. -/
theorem run_outputs {I : List β → σ → Prop} {past : List β}
    (hkeep : ∀ past s a s', I past s → ok s a → step s a = some s' → I (past ++ out s a) s')
    (hI : I past s) (hok : Along step ok s as) (hrun : runFrom step s as = some s') :
    I (past ++ outputs step out s as) s' := by
  induction as generalizing s past with
  | nil =>
    obtain rfl := Option.some.inj hrun
    rw [outputs, List.append_nil]
    exact hI
  | cons a as ih =>
    rw [runFrom_cons, Option.bind_eq_some_iff] at hrun
    obtain ⟨s₁, hstep, hrest⟩ := hrun
    rw [outputs, hstep, Option.elim_some, ← List.append_assoc]
    exact ih (hkeep past s a s₁ hI hok.1 hstep) (hok.2 s₁ hstep) hrest

/-- A condition on actions alone. -/
theorem along_of_forall {p : α → Prop} (h : ∀ a ∈ as, p a) : Along step (fun _ a => p a) s as := by
  induction as generalizing s with
  | nil => exact trivial
  | cons a as ih => exact ⟨h a List.mem_cons_self, fun _ _ => ih fun b hb => h b (List.mem_cons_of_mem a hb)⟩

/-- What follows from an invariant holds along a run that keeps it. -/
theorem Along.of_invariant {I : σ → Prop} {good : σ → α → Prop}
    (hkeep : ∀ s a s', I s → ok s a → step s a = some s' → I s') (hgood : ∀ s a, I s → good s a) (hI : I s)
    (hok : Along step ok s as) : Along step good s as := by
  induction as generalizing s with
  | nil => trivial
  | cons a as ih =>
    exact ⟨hgood s a hI, fun s' hstep => ih (hkeep s a s' hI hok.1 hstep) (hok.2 s' hstep)⟩

/-- Two conditions that are the same where an invariant holds are the same along a run. -/
theorem along_iff {I : σ → Prop} {good : σ → α → Prop} (hkeep : ∀ s a s', I s → step s a = some s' → I s')
    (hiff : ∀ s a, I s → (good s a ↔ ok s a)) (hI : I s) : Along step good s as ↔ Along step ok s as := by
  induction as generalizing s with
  | nil => exact Iff.rfl
  | cons a as ih =>
    refine and_congr (hiff s a hI) ⟨fun h s' hstep => ?_, fun h s' hstep => ?_⟩
    · exact (ih (hkeep s a s' hI hstep)).1 (h s' hstep)
    · exact (ih (hkeep s a s' hI hstep)).2 (h s' hstep)

/-- Every action of a run meets the trivial condition. -/
theorem along_true : Along step (fun _ _ => True) s as := along_of_forall fun _ _ => trivial

/-- What actions put out whatever the state is. -/
theorem outputs_eq_flatMap {put : α → List β} (hrun : runFrom step s as = some s') :
    outputs step (fun _ => put) s as = as.flatMap put := by
  induction as generalizing s with
  | nil => rfl
  | cons a as ih =>
    rw [runFrom_cons, Option.bind_eq_some_iff] at hrun
    obtain ⟨s₁, hstep, hrest⟩ := hrun
    rw [outputs, hstep, Option.elim_some, List.flatMap_cons, ih hrest]

/-- A run goes on behind an action that can happen and meets the condition. -/
theorem exists_run_cons {s₁ : σ} (hstep : step s a = some s₁) (hok : ok s a)
    (h : ∃ s', runFrom step s₁ as = some s' ∧ Along step ok s₁ as) :
    ∃ s', runFrom step s (a :: as) = some s' ∧ Along step ok s (a :: as) := by
  obtain ⟨s', hrun, halong⟩ := h
  refine ⟨s', (runFrom_of_step hstep).trans hrun, hok, fun s₂ hstep₂ => ?_⟩
  obtain rfl := Option.some.inj (hstep.symm.trans hstep₂)
  exact halong

/-- The condition on a run can be computed. -/
def decideAlong [∀ s a, Decidable (ok s a)] : ∀ s as, Decidable (Along step ok s as)
  | _, [] => isTrue trivial
  | s, a :: as =>
    haveI : Decidable (∀ s', step s a = some s' → Along step ok s' as) :=
      match step s a with
      | none => isTrue fun _ h => nomatch h
      | some s₁ =>
        haveI := decideAlong s₁ as
        decidable_of_iff (Along step ok s₁ as)
          ⟨fun h _ heq => Option.some.inj heq ▸ h, fun h => h s₁ rfl⟩
    inferInstanceAs (Decidable (ok s a ∧ _))

instance [∀ s a, Decidable (ok s a)] : Decidable (Along step ok s as) := decideAlong s as

/-! ## Observers -/

variable {τ γ : Type}

/-- An observer of a system: what it sees of a state follows from what concerns it in the actions. -/
structure Observes (step : σ → α → Option σ) (follow : τ → γ → Option τ) (view : σ → τ)
    (concern : α → Option γ) : Prop where
  unseen : ∀ {s a s'}, step s a = some s' → concern a = none → view s' = view s
  seen : ∀ {s a s' c}, step s a = some s' → concern a = some c → follow (view s) c = some (view s')

variable {follow : τ → γ → Option τ} {view : σ → τ} {concern : α → Option γ}

/-- **The rule of observers**: what is seen of a run follows from what concerns the observer in it. -/
theorem Observes.run (h : Observes step follow view concern) (hrun : runFrom step s as = some s') :
    runFrom follow (view s) (as.filterMap concern) = some (view s') := by
  induction as generalizing s with
  | nil =>
    obtain rfl := Option.some.inj hrun
    rfl
  | cons a as ih =>
    rw [runFrom_cons, Option.bind_eq_some_iff] at hrun
    obtain ⟨s₁, hfirst, hrest⟩ := hrun
    cases hconcern : concern a with
    | none =>
      rw [List.filterMap_cons_none hconcern, ← h.unseen hfirst hconcern]
      exact ih hrest
    | some c =>
      rw [List.filterMap_cons_some hconcern, runFrom_of_step (h.seen hfirst hconcern)]
      exact ih hrest

/-- Two runs in which the same concerns an observer look the same to it. -/
theorem Observes.view_eq {s₁ s₂ s₁' s₂' : σ} (h : Observes step follow view concern)
    (h₁ : runFrom step s₁ as = some s₁') (h₂ : runFrom step s₂ bs = some s₂')
    (hview : view s₁ = view s₂) (hconcern : as.filterMap concern = bs.filterMap concern) :
    view s₁' = view s₂' := by
  have hrun₁ := h.run h₁
  have hrun₂ := h.run h₂
  rw [hview, hconcern] at hrun₁
  exact Option.some.inj (hrun₁.symm.trans hrun₂)

end DreamWeaver.Transitions
