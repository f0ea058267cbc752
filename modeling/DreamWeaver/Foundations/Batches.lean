import DreamWeaver.Foundations.Interleaving

/-! # Procedures in batches

A list of procedures is carried out batch by batch: the procedures of a batch interleave, and the next batch starts
when every procedure of the batch has settled. `Settles env procs w batches log results w'` are the runs of this,
with the log of what was done and the results. Each procedure is carried out once and as a whole, whatever the
others do, and there is always a way to the end. -/

namespace DreamWeaver

namespace Proc

variable {ι σ E : Type} {R : E → Type} {α : Type}

/-! ## Whole executions -/

/-- The events of an execution of a procedure from its beginning to its end, which is `r`. -/
inductive Performs : Proc E R α → List (Event E R) → Except JsError α → Prop
  | done {r : Except JsError α} : Performs (.done r) [] r
  | await {e : E} {next : Except JsError (R e) → Proc E R α} {reply : Except JsError (R e)} {events : List (Event E R)}
      {r : Except JsError α} (h : Performs (next reply) events r) : Performs (.await e next) (⟨e, reply⟩ :: events) r

/-- An execution ends in what every path ends in. -/
theorem Performs.ends {p : Proc E R α} {events : List (Event E R)} {r : Except JsError α} (h : Performs p events r)
    {Q : List (Event E R) → Except JsError α → Prop} {past : List (Event E R)} (hends : p.Ends Q past) :
    Q (past ++ events) r := by
  induction h generalizing past with
  | done => rwa [List.append_nil]
  | await h ih =>
    have hnext := ih (hends _)
    rwa [List.append_assoc, List.singleton_append] at hnext

variable [DecidableEq ι] {env : Env σ E R} {ok : σ → E → Prop} {c c' c₁ : Pool ι σ E R α} {log : List (ι × Event E R)}

/-- The events of a procedure in a log lead from its beginning to where it is. -/
theorem Runs.performs {i : ι} (h : Runs env ok c log c') {events : List (Event E R)} {r : Except JsError α}
    (hrest : Performs (c'.procs i) events r) : Performs (c.procs i) (eventsOf i log ++ events) r := by
  induction h generalizing events with
  | start => exact hrest
  | @step log c₁ j e next reply s' _ hproc _ _ ih =>
    by_cases hij : j = i
    · subst hij
      rw [eventsOf_concat_self, List.append_assoc]
      refine ih ?_
      rw [hproc]
      dsimp only at hrest
      rw [Function.update_self] at hrest
      exact .await hrest
    · rw [eventsOf_concat_of_ne hij]
      dsimp only at hrest
      rw [Function.update_of_ne (Ne.symm hij)] at hrest
      exact ih hrest

/-- A procedure that has settled was carried out as a whole. -/
theorem Runs.performs_of_done {i : ι} {r : Except JsError α} (h : Runs env ok c log c') (hdone : c'.procs i = .done r) :
    Performs (c.procs i) (eventsOf i log) r := by
  have hwhole : Performs (c.procs i) (eventsOf i log ++ []) r := h.performs (by rw [hdone]; exact .done)
  rwa [List.append_nil] at hwhole

/-- A procedure that has ended does nothing more. -/
theorem Runs.idle {i : ι} {r : Except JsError α} (h : Runs env ok c log c') (hdone : c.procs i = .done r) :
    eventsOf i log = [] := by
  have honly := h.only (P := fun _ => False) (i := i) (by rw [hdone]; exact only_done)
  exact List.eq_nil_iff_forall_not_mem.mpr honly.2

/-! ## Batches -/

/-- The procedures that are not in a batch do nothing. -/
def inBatch (procs : ι → Proc E R α) (batch : List ι) (i : ι) : Proc E R α :=
  if i ∈ batch then procs i else .done (.error ⟨[], []⟩)

theorem inBatch_of_mem {procs : ι → Proc E R α} {batch : List ι} {i : ι} (h : i ∈ batch) :
    inBatch procs batch i = procs i := if_pos h

theorem inBatch_of_not_mem {procs : ι → Proc E R α} {batch : List ι} {i : ι} (h : i ∉ batch) :
    inBatch procs batch i = .done (.error ⟨[], []⟩) := if_neg h

/-- `for (batch of batches) await Promise.allSettled(batch.map(procs))`, with the results in order. -/
inductive Settles (env : Env σ E R) (procs : ι → Proc E R α) :
    σ → List (List ι) → List (ι × Event E R) → List (ι × Except JsError α) → σ → Prop
  | nil {w : σ} : Settles env procs w [] [] [] w
  | cons {w w' : σ} {batch : List ι} {batches : List (List ι)} {c : Pool ι σ E R α} {log rest : List (ι × Event E R)}
      {result : ι → Except JsError α} {results : List (ι × Except JsError α)}
      (hruns : Runs env (fun _ _ => True) ⟨w, inBatch procs batch⟩ log c)
      (hsettled : ∀ i ∈ batch, c.procs i = .done (result i))
      (hrest : Settles env procs c.state batches rest results w') :
      Settles env procs w (batch :: batches) (log ++ rest) ((batch.map fun i => (i, result i)) ++ results) w'

variable {procs : ι → Proc E R α} {w w' : σ} {batches : List (List ι)} {results : List (ι × Except JsError α)}

/-- **Each procedure is carried out once**, as a whole, and has its result; no other does anything. -/
theorem Settles.performs (h : Settles env procs w batches log results w') (hnodup : batches.flatten.Nodup) :
    ∃ result : ι → Except JsError α, results = (batches.flatten.map fun i => (i, result i)) ∧
      (∀ i ∈ batches.flatten, Performs (procs i) (eventsOf i log) (result i)) ∧
        ∀ i ∉ batches.flatten, eventsOf i log = [] := by
  induction h with
  | nil => exact ⟨fun _ => .error ⟨[], []⟩, rfl, by simp, fun _ _ => rfl⟩
  | @cons w w' batch batches c log rest result results hruns hsettled _ ih =>
    rw [List.flatten_cons, List.nodup_append] at hnodup
    obtain ⟨-, hrest, hdisjoint⟩ := hnodup
    obtain ⟨later, rfl, hlater, hothers⟩ := ih hrest
    have hidle : ∀ i ∉ batch, eventsOf i log = [] := fun i hi => hruns.idle (inBatch_of_not_mem hi)
    have hwhole : ∀ i ∈ batch, Performs (procs i) (eventsOf i log) (result i) := fun i hi => by
      have hperforms : Performs (inBatch procs batch i) (eventsOf i log) (result i) :=
        hruns.performs_of_done (hsettled i hi)
      rwa [inBatch_of_mem hi] at hperforms
    -- the batches are disjoint, so a procedure has its result from the only batch that has it
    refine ⟨fun i => if i ∈ batch then result i else later i, ?_, fun i hi => ?_, fun i hi => ?_⟩
    · rw [List.flatten_cons, List.map_append]
      congr 1
      · exact List.map_congr_left fun i hi => Prod.ext rfl (if_pos hi).symm
      · exact List.map_congr_left fun i hi => Prod.ext rfl (if_neg fun h => hdisjoint i h i hi rfl).symm
    · rw [eventsOf_append]
      dsimp only
      by_cases hbatch : i ∈ batch
      · rw [if_pos hbatch, hothers i fun h => hdisjoint i hbatch i h rfl, List.append_nil]
        exact hwhole i hbatch
      · rw [if_neg hbatch, hidle i hbatch, List.nil_append]
        exact hlater i ((List.mem_append.mp hi).resolve_left hbatch)
    · rw [List.flatten_cons, List.mem_append, not_or] at hi
      rw [eventsOf_append, hidle i hi.1, hothers i hi.2, List.append_nil]

/-! ## Going on to the end -/

/-- A procedure can be carried on to its end, and leaves the others where they are. -/
theorem Runs.finish (htotal : ∀ s e, ∃ reply s', env s e reply s') (i : ι)
    (h : Runs env (fun _ _ => True) c log c₁) :
    ∃ log' c₂, Runs env (fun _ _ => True) c log' c₂ ∧ (∃ r, c₂.procs i = .done r) ∧
      ∀ j ≠ i, c₂.procs j = c₁.procs j := by
  generalize hp : c₁.procs i = p
  induction p generalizing log c₁ with
  | done r => exact ⟨log, c₁, h, ⟨r, hp⟩, fun _ _ => rfl⟩
  | await e next ih =>
    obtain ⟨reply, s', hreply⟩ := htotal c₁.state e
    obtain ⟨log', c₂, hruns, hdone, hothers⟩ := ih reply (.step h hp hreply trivial) (Function.update_self _ _ _)
    exact ⟨log', c₂, hruns, hdone, fun j hj => (hothers j hj).trans (Function.update_of_ne hj _ _)⟩

/-- **A batch can be carried on to its end**, from wherever it is. -/
theorem Runs.settle (htotal : ∀ s e, ∃ reply s', env s e reply s') (batch : List ι)
    (h : Runs env (fun _ _ => True) c log c₁) :
    ∃ log' c₂, Runs env (fun _ _ => True) c log' c₂ ∧ ∀ i ∈ batch, ∃ r, c₂.procs i = .done r := by
  induction batch with
  | nil => exact ⟨log, c₁, h, by simp⟩
  | cons i batch ih =>
    obtain ⟨log', c₂, hruns, hsettled⟩ := ih
    obtain ⟨log'', c₃, hruns, hdone, hothers⟩ := hruns.finish htotal i
    refine ⟨log'', c₃, hruns, fun j hj => ?_⟩
    by_cases hij : j = i
    · rw [hij]
      exact hdone
    · rw [hothers j hij]
      exact hsettled j ((List.mem_cons.mp hj).resolve_left hij)

/-- All batches can be carried out. -/
theorem exists_settles (htotal : ∀ s e, ∃ reply s', env s e reply s') (procs : ι → Proc E R α) (w : σ)
    (batches : List (List ι)) : ∃ log results w', Settles env procs w batches log results w' := by
  induction batches generalizing w with
  | nil => exact ⟨[], [], w, .nil⟩
  | cons batch batches ih =>
    obtain ⟨log, c, hruns, hsettled⟩ := Runs.settle htotal batch (Runs.start (c := ⟨w, inBatch procs batch⟩))
    obtain ⟨rest, results, w', hrest⟩ := ih c.state
    have hresult : ∀ i, ∃ r, i ∈ batch → c.procs i = .done r := fun i => by
      by_cases hi : i ∈ batch
      · obtain ⟨r, hr⟩ := hsettled i hi
        exact ⟨r, fun _ => hr⟩
      · exact ⟨.error ⟨[], []⟩, fun h => absurd h hi⟩
    choose result hresult using hresult
    exact ⟨_, _, w', .cons hruns hresult hrest⟩

end Proc

end DreamWeaver
