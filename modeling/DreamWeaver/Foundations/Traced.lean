import DreamWeaver.Foundations.JsValue

/-! # Computations that leave a trace

`Traced ε α` is an asynchronous procedure run on its own: the list of effects it has on the world,
in order, and the value it resolves with or the error it rejects with. Effects before a rejection
stay. `Keeps P before x` says that every effect of `x` is allowed by `P` in view of the effects that
precede it, `before` being the history at the start; the `keeps_…` rules follow the shape of the
computation, in both directions. -/

namespace DreamWeaver

/-- A computation with a trace of effects that resolves or rejects. -/
structure Traced (ε α : Type) where
  trace : List ε
  result : Except JsError α

namespace Traced

variable {ε α β : Type}

/-- Resolve at once. -/
protected def pure (a : α) : Traced ε α := ⟨[], .ok a⟩

/-- Continue with the value of a computation, unless it rejects. -/
protected def bind (x : Traced ε α) (f : α → Traced ε β) : Traced ε β :=
  match x.result with
  | .ok a => ⟨x.trace ++ (f a).trace, (f a).result⟩
  | .error e => ⟨x.trace, .error e⟩

instance : Monad (Traced ε) where
  pure := Traced.pure
  bind := Traced.bind

/-- One effect. -/
def emit (e : ε) : Traced ε Unit := ⟨[e], .ok ()⟩

/-- The answer of a collaborator. -/
def lift (r : Except JsError α) : Traced ε α := ⟨[], r⟩

/-- `try { x } catch (e) { handler e }` -/
def catchWith (x : Traced ε α) (handler : JsError → Traced ε α) : Traced ε α :=
  match x.result with
  | .ok a => ⟨x.trace, .ok a⟩
  | .error e => ⟨x.trace ++ (handler e).trace, (handler e).result⟩

@[simp] theorem trace_pure (a : α) : (pure a : Traced ε α).trace = [] := rfl

@[simp] theorem result_pure (a : α) : (pure a : Traced ε α).result = .ok a := rfl

@[simp] theorem trace_emit (e : ε) : (emit e).trace = [e] := rfl

@[simp] theorem result_emit (e : ε) : (emit e).result = .ok () := rfl

@[simp] theorem trace_lift (r : Except JsError α) : (lift r : Traced ε α).trace = [] := rfl

@[simp] theorem result_lift (r : Except JsError α) : (lift r : Traced ε α).result = r := rfl

/-- Continuing after a computation that resolves. -/
theorem bind_of_ok {x : Traced ε α} {a : α} (h : x.result = .ok a) (f : α → Traced ε β) :
    x >>= f = ⟨x.trace ++ (f a).trace, (f a).result⟩ := by
  show Traced.bind x f = _
  rw [Traced.bind, h]

/-- A rejection ends the computation. -/
theorem bind_of_error {x : Traced ε α} {e : JsError} (h : x.result = .error e)
    (f : α → Traced ε β) : x >>= f = ⟨x.trace, .error e⟩ := by
  show Traced.bind x f = _
  rw [Traced.bind, h]

@[simp] theorem pure_bind (a : α) (f : α → Traced ε β) : (pure a : Traced ε α) >>= f = f a := by
  rw [bind_of_ok (result_pure a)]
  rfl

@[simp] theorem lift_ok_bind (a : α) (f : α → Traced ε β) :
    (lift (.ok a) : Traced ε α) >>= f = f a := by
  rw [bind_of_ok (result_lift _)]
  rfl

@[simp] theorem lift_error_bind (e : JsError) (f : α → Traced ε β) :
    (lift (.error e) : Traced ε α) >>= f = lift (.error e) := by
  rw [bind_of_error (result_lift _)]
  rfl

/-- Sequencing can be regrouped. -/
theorem bind_assoc {γ : Type} (x : Traced ε α) (f : α → Traced ε β) (g : β → Traced ε γ) :
    (x >>= f) >>= g = x >>= fun a => f a >>= g := by
  cases hx : x.result with
  | error e => rw [bind_of_error hx, bind_of_error hx, bind_of_error rfl]
  | ok a =>
    rw [bind_of_ok hx, bind_of_ok hx]
    cases hf : (f a).result with
    | error e => rw [bind_of_error rfl, bind_of_error hf]
    | ok b => rw [bind_of_ok rfl, bind_of_ok hf, List.append_assoc]

/-- What a resolving sequence did: both parts resolved. -/
theorem bind_result_eq_ok {x : Traced ε α} {f : α → Traced ε β} {b : β}
    (h : (x >>= f).result = .ok b) : ∃ a, x.result = .ok a ∧ (f a).result = .ok b := by
  cases hx : x.result with
  | ok a => exact ⟨a, rfl, by rwa [bind_of_ok hx] at h⟩
  | error e => rw [bind_of_error hx] at h; cases h

/-- What the first part of a sequence did stays done. -/
theorem mem_trace_bind_left {x : Traced ε α} {f : α → Traced ε β} {e : ε} (h : e ∈ x.trace) :
    e ∈ (x >>= f).trace := by
  cases hx : x.result with
  | error _ => rwa [bind_of_error hx]
  | ok a =>
    rw [bind_of_ok hx]
    exact List.mem_append_left _ h

/-- What the second part of a sequence does, after a first part that resolves. -/
theorem mem_trace_bind_right {x : Traced ε α} {f : α → Traced ε β} {a : α} {e : ε} (hx : x.result = .ok a)
    (h : e ∈ (f a).trace) : e ∈ (x >>= f).trace := by
  rw [bind_of_ok hx]
  exact List.mem_append_right _ h

/-- A sequence resolves when both parts do. -/
theorem bind_resolves {x : Traced ε α} {f : α → Traced ε β} {a : α} {b : β} (hx : x.result = .ok a)
    (hf : (f a).result = .ok b) : (x >>= f).result = .ok b := by
  rw [bind_of_ok hx]
  exact hf

/-! ## Rules for what a trace may contain -/

/-- Every effect of a list is allowed in view of the ones before it. -/
def AllAllowed (P : List ε → ε → Prop) : List ε → List ε → Prop
  | _, [] => True
  | before, e :: rest => P before e ∧ AllAllowed P (before ++ [e]) rest

/-- The effects of a sequence are allowed when those of its parts are. -/
theorem allAllowed_append {P : List ε → ε → Prop} {before s t : List ε} :
    AllAllowed P before (s ++ t) ↔ AllAllowed P before s ∧ AllAllowed P (before ++ s) t := by
  induction s generalizing before with
  | nil => simp [AllAllowed]
  | cons e s ih => simp [AllAllowed, ih, and_assoc]

/-- Every effect of a computation is allowed in view of the history at its start. -/
def Keeps (P : List ε → ε → Prop) (before : List ε) (x : Traced ε α) : Prop :=
  AllAllowed P before x.trace

variable {P : List ε → ε → Prop} {before : List ε}

/-- Where the history does not matter, every effect of the trace is allowed for itself. -/
theorem keeps_forall {p : ε → Prop} {x : Traced ε α} :
    Keeps (fun _ => p) before x ↔ ∀ e ∈ x.trace, p e := by
  rw [Keeps]
  generalize x.trace = trace
  induction trace generalizing before with
  | nil => exact iff_of_true trivial fun _ h => nomatch h
  | cons e trace ih => rw [AllAllowed, ih, List.forall_mem_cons]

/-- What keeps a property of effects has it in every effect of its trace. -/
theorem forall_of_keeps {p : ε → Prop} {x : Traced ε α} (h : Keeps (fun _ => p) [] x) : ∀ e ∈ x.trace, p e :=
  keeps_forall.mp h

/-- A computation without effects keeps to everything. -/
theorem keeps_of_trace_eq_nil {x : Traced ε α} (h : x.trace = []) : Keeps P before x := by
  rw [Keeps, h]
  trivial

@[simp] theorem keeps_pure (a : α) : Keeps P before (pure a : Traced ε α) :=
  keeps_of_trace_eq_nil rfl

@[simp] theorem keeps_lift (r : Except JsError α) : Keeps P before (lift r : Traced ε α) :=
  keeps_of_trace_eq_nil rfl

@[simp] theorem keeps_emit (e : ε) : Keeps P before (emit e) ↔ P before e := by
  simp [Keeps, AllAllowed]

/-- **The rule for sequencing.** -/
theorem keeps_bind {x : Traced ε α} {f : α → Traced ε β} :
    Keeps P before (x >>= f) ↔
      Keeps P before x ∧ ∀ a, x.result = .ok a → Keeps P (before ++ x.trace) (f a) := by
  cases hx : x.result with
  | ok a => simp [Keeps, bind_of_ok hx, allAllowed_append]
  | error e => simp [Keeps, bind_of_error hx]

/-- The rule for `try` and `catch`. -/
theorem keeps_catchWith {x : Traced ε α} {handler : JsError → Traced ε α} :
    Keeps P before (catchWith x handler) ↔
      Keeps P before x ∧ ∀ e, x.result = .error e → Keeps P (before ++ x.trace) (handler e) := by
  cases hx : x.result with
  | ok a => simp [Keeps, catchWith, hx]
  | error e => simp [Keeps, catchWith, hx, allAllowed_append]

end Traced

end DreamWeaver
