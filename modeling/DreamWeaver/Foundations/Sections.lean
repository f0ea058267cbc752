import DreamWeaver.Foundations.Interleaving

/-! # Procedures with sections

A section of a procedure begins with one of certain effects and lasts until its progress is idle again.
Where a section begins only when no other is under way, the progress of the procedure in its section is that
of all procedures together: what is awaited next fits what was done, whoever did it. -/

namespace DreamWeaver.Proc

variable {ι σ G E : Type} {R : E → Type} {α : Type}

/-- Sections: how their progress follows from the events, and what is awaited at a progress. -/
structure Sections (G E : Type) (R : E → Type) where
  idle : G
  track : G → Event E R → G
  /-- A section begins with the effect. -/
  begins : E → Prop
  /-- The effect belongs to no section. -/
  outside : E → Prop
  /-- A procedure with this progress awaits the effect. -/
  awaits : G → E → Prop
  track_outside : ∀ {g e}, outside e → ∀ reply, track g ⟨e, reply⟩ = g
  awaits_idle : ∀ {e}, awaits idle e → begins e ∨ outside e

namespace Sections

variable (S : Sections G E R)

/-- The progress of a procedure after what it did. -/
def progress (past : List (Event E R)) : G := past.foldl S.track S.idle

theorem progress_concat (past : List (Event E R)) (event : Event E R) :
    S.progress (past ++ [event]) = S.track (S.progress past) event := by
  rw [progress, List.foldl_append, List.foldl_cons, List.foldl_nil, progress]

/-- The environment, with the progress of all procedures together. -/
def tracked (env : Env σ E R) : Env (σ × G) E R := fun s e reply s' =>
  env s.1 e reply s'.1 ∧ s'.2 = S.track s.2 ⟨e, reply⟩

/-- The condition lets a section begin only when no other is under way. -/
def Excluded (ok : σ × G → E → Prop) : Prop := ∀ s e, ok s e → S.begins e → s.2 = S.idle

variable {S} [DecidableEq ι] {env : Env σ E R} {ok : σ × G → E → Prop}
  {own : ι → List (Event E R) → E → Prop} {c c' : Pool ι (σ × G) E R α} {log : List (ι × Event E R)}

/-- **Exclusion**: at most one procedure is in a section, and its progress is that of all together. -/
theorem exclusion (hexcluded : S.Excluded ok) (hown : ∀ i past e, own i past e → S.awaits (S.progress past) e)
    (hsteps : ∀ i, (c.procs i).Steps (own i) []) (h : Runs (S.tracked env) ok c log c') (i : ι) :
    S.progress (eventsOf i log) = S.idle ∨
      (S.progress (eventsOf i log) = c'.state.2 ∧ ∀ j, j ≠ i → S.progress (eventsOf j log) = S.idle) := by
  induction h generalizing i with
  | start => exact .inl rfl
  | @step log c₁ j e next reply s' hruns hproc hreply hok ih =>
    have hawaits : S.awaits (S.progress (eventsOf j log)) e := by
      have hnow := (hruns.steps (hsteps j)).1
      rw [hproc] at hnow
      exact hown j _ e hnow.1
    have htrack : s'.2 = S.track c₁.state.2 ⟨e, reply⟩ := hreply.2
    by_cases houtside : S.outside e
    · -- nothing changes
      have hsame : ∀ k, S.progress (eventsOf k (log ++ [(j, ⟨e, reply⟩)])) = S.progress (eventsOf k log) := by
        intro k
        by_cases hjk : j = k
        · subst hjk
          rw [eventsOf_concat_self, progress_concat, S.track_outside houtside]
        · rw [eventsOf_concat_of_ne hjk]
      simp only [hsame, htrack, S.track_outside houtside]
      exact ih i
    · -- the procedure is in its section, or begins one
      have hunder : S.progress (eventsOf j log) = c₁.state.2 ∧
          ∀ k, k ≠ j → S.progress (eventsOf k log) = S.idle := by
        by_cases hidle : S.progress (eventsOf j log) = S.idle
        · rw [hidle] at hawaits
          have hbegins := (S.awaits_idle hawaits).resolve_right houtside
          have hall := hexcluded _ _ hok hbegins
          refine ⟨hidle.trans hall.symm, fun k _ => ?_⟩
          exact (ih k).elim id fun hk => hk.1.trans hall
        · exact (ih j).resolve_left hidle
      by_cases hji : j = i
      · subst hji
        refine .inr ⟨?_, fun k hk => ?_⟩
        · rw [eventsOf_concat_self, progress_concat, hunder.1, htrack]
        · rw [eventsOf_concat_of_ne hk.symm]
          exact hunder.2 k hk
      · rw [eventsOf_concat_of_ne hji]
        exact .inl (hunder.2 i (Ne.symm hji))

/-- **The invariant rule of exclusion**: what a procedure awaits fits its own past, and, if it belongs to
a section, the progress of all procedures together. -/
theorem invariant (hexcluded : S.Excluded ok) (hown : ∀ i past e, own i past e → S.awaits (S.progress past) e)
    (hsteps : ∀ i, (c.procs i).Steps (own i) []) {I : List (ι × Event E R) → σ × G → Prop}
    (hkeep : ∀ log s i e reply s', I log s → own i (eventsOf i log) e → (S.awaits s.2 e ∨ S.outside e) →
      ok s e → S.tracked env s e reply s' → I (log ++ [(i, ⟨e, reply⟩)]) s')
    (hstart : I [] c.state) (h : Runs (S.tracked env) ok c log c') : I log c'.state := by
  induction h with
  | start => exact hstart
  | @step log c₁ i e next reply s' hruns hproc hreply hok ih =>
    have hnow := (hruns.steps (hsteps i)).1
    rw [hproc] at hnow
    refine hkeep log c₁.state i e reply s' ih hnow.1 ?_ hok hreply
    have hawaits := hown i _ e hnow.1
    by_cases hidle : S.progress (eventsOf i log) = S.idle
    · rw [hidle] at hawaits
      rcases S.awaits_idle hawaits with hbegins | houtside
      · exact .inl (hexcluded _ _ hok hbegins ▸ hawaits)
      · exact .inr houtside
    · have hunder := (exclusion hexcluded hown hsteps hruns i).resolve_left hidle
      exact .inl (hunder.1 ▸ hawaits)

end Sections

end DreamWeaver.Proc
