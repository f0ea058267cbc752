import DreamWeaver.Foundations.JsArithmetic
import DreamWeaver.Foundations.Traced
import DreamWeaver.Foundations.Transitions

/-! # Tickets that are used once

What a `TicketStorePort` (`api/src/application/ports/TicketStorePort.ts`) is for, whatever keeps the
tickets: a ticket stands for the user it was issued to, until it is used or has expired. The history of
a store is the list of its `TicketEvent`s; `SingleUse` is what a history should be, and `Keeps` is the
relation between a history and the tickets that are still open, from which it follows. -/

namespace DreamWeaver.Tickets

/-! ## Histories -/

/-- What a ticket store does. Times are in milliseconds. -/
inductive TicketEvent where
  | issued (ticket owner : Text) (expiresAt : JsNumber)
  /-- `validate` has resolved with a user id or with `null`. -/
  | validated (ticket : Text) (now : ℤ) (answer : Option Text)
  /-- The ticket is consumed, and `validate` rejects: the answer was lost on its way. -/
  | lost (ticket : Text)
  deriving DecidableEq

/-- The event takes a ticket out of use. -/
def TicketEvent.consumes (ticket : Text) : TicketEvent → Bool
  | .validated t _ (some _) => t = ticket
  | .lost t => t = ticket
  | _ => false

/-- The event accepts a ticket. -/
def TicketEvent.accepts (ticket : Text) : TicketEvent → Bool
  | .validated t _ (some _) => t = ticket
  | _ => false

/-- The event issues a ticket. -/
def TicketEvent.issues (ticket : Text) : TicketEvent → Bool
  | .issued t _ _ => t = ticket
  | _ => false

/-- Nothing has taken the ticket out of use. -/
def Unused (ticket : Text) (events : List TicketEvent) : Prop :=
  ∀ event ∈ events, event.consumes ticket = false

/-- What an event may be after the events before it, where `same owner user` says that `user` is the
user to whose id `owner` a ticket was issued. -/
def Proper (same : Text → Text → Prop) (before : List TicketEvent) : TicketEvent → Prop
  | .issued ticket _ _ => ∀ event ∈ before, event.issues ticket = false
  | .validated ticket now (some user) => Unused ticket before ∧ ∃ owner expiresAt,
      .issued ticket owner expiresAt ∈ before ∧ same owner user ∧ expiresAt.lt now = false
  | .validated ticket now none => ∀ owner expiresAt,
      .issued ticket owner expiresAt ∈ before → Unused ticket before → expiresAt.exceeds now = false
  | .lost ticket => Unused ticket before ∧ ∃ owner expiresAt, .issued ticket owner expiresAt ∈ before

/-- **Single use**: what the history of a ticket store should be. -/
structure SingleUse (same : Text → Text → Prop) (events : List TicketEvent) : Prop where
  /-- A ticket is accepted at most once in total. -/
  once : ∀ ticket, events.countP (TicketEvent.accepts ticket) ≤ 1
  /-- It is accepted while its expiry time has not passed, and yields the user it was issued to. -/
  entitled : ∀ before ticket (now : ℤ) user after,
    events = before ++ .validated ticket now (some user) :: after →
      ∃ owner expiresAt, .issued ticket owner expiresAt ∈ before ∧ same owner user ∧
        expiresAt.lt now = false
  /-- A ticket that was issued and is not used is accepted strictly before its expiry. -/
  kept : ∀ before ticket (now : ℤ) answer after owner expiresAt,
    events = before ++ .validated ticket now answer :: after →
      .issued ticket owner expiresAt ∈ before → Unused ticket before →
        expiresAt.exceeds now = true → ∃ user, answer = some user ∧ same owner user

variable {same : Text → Text → Prop} {events before past : List TicketEvent} {ticket owner user : Text}
  {expiresAt : JsNumber} {now clock : ℤ}

/-- An acceptance takes the ticket out of use. -/
theorem TicketEvent.consumes_of_accepts {event : TicketEvent} (h : event.accepts ticket = true) :
    event.consumes ticket = true := by
  cases event with
  | validated t now answer =>
    cases answer with
    | none => cases h
    | some user => exact h
  | _ => cases h

theorem unused_append {after : List TicketEvent} :
    Unused ticket (before ++ after) ↔ Unused ticket before ∧ Unused ticket after := by
  simp only [Unused, List.mem_append, or_imp, forall_and]

/-- A proper history accepts every ticket at most once, and not after it was used. -/
theorem count_accepts_of_allAllowed (h : Traced.AllAllowed (Proper same) before events) :
    events.countP (TicketEvent.accepts ticket) ≤ 1 ∧
      (¬ Unused ticket before → events.countP (TicketEvent.accepts ticket) = 0) := by
  induction events generalizing before with
  | nil => exact ⟨Nat.zero_le 1, fun _ => rfl⟩
  | cons event events ih =>
    obtain ⟨hevent, hrest⟩ := h
    obtain ⟨hle, hused⟩ := ih hrest
    rw [List.countP_cons]
    by_cases haccepts : event.accepts ticket = true
    · -- the ticket is in use before, and no longer afterwards
      have hnot : ¬ Unused ticket (before ++ [event]) := fun hunused =>
        absurd ((unused_append.mp hunused).2 event (List.mem_singleton_self _))
          (by rw [TicketEvent.consumes_of_accepts haccepts]; exact Bool.noConfusion)
      have hbefore : Unused ticket before := by
        cases event with
        | validated t now answer =>
          cases answer with
          | none => cases haccepts
          | some user =>
            obtain rfl : t = ticket := of_decide_eq_true haccepts
            exact hevent.1
        | _ => cases haccepts
      rw [hused hnot, if_pos haccepts]
      exact ⟨le_rfl, fun hno => absurd hbefore hno⟩
    · rw [if_neg haccepts]
      refine ⟨hle, fun hno => hused fun hunused => hno (unused_append.mp hunused).1⟩

/-- An event of a proper history is proper after the events before it. -/
theorem proper_of_allAllowed {event : TicketEvent} {after : List TicketEvent}
    (h : Traced.AllAllowed (Proper same) [] (before ++ event :: after)) : Proper same before event := by
  have hsecond := (Traced.allAllowed_append.mp h).2
  rw [List.nil_append] at hsecond
  exact hsecond.1

/-- In a proper history a ticket is issued once. -/
theorem eq_of_issued {owner' : Text} {expiresAt' : JsNumber}
    (h : Traced.AllAllowed (Proper same) before events)
    (hissued : .issued ticket owner expiresAt ∈ events)
    (hissued' : .issued ticket owner' expiresAt' ∈ events) :
    owner = owner' ∧ expiresAt = expiresAt' := by
  have hlater : ∀ before events, Traced.AllAllowed (Proper same) before events →
      (∃ event ∈ before, event.issues ticket = true) →
        ∀ owner expiresAt, .issued ticket owner expiresAt ∉ events := by
    intro before events h hbefore
    induction events generalizing before with
    | nil => exact fun _ _ => List.not_mem_nil
    | cons event events ih =>
      intro owner expiresAt hmem
      obtain ⟨event', hevent', hissues⟩ := hbefore
      rcases List.mem_cons.mp hmem with rfl | hmem
      · have hfresh := h.1 event' hevent'
        rw [hissues] at hfresh
        cases hfresh
      · exact ih _ h.2 ⟨event', List.mem_append_left _ hevent', hissues⟩ owner expiresAt hmem
  induction events generalizing before with
  | nil => cases hissued
  | cons event events ih =>
    have hnone : ∀ owner expiresAt, event = .issued ticket owner expiresAt →
        ∀ owner expiresAt, .issued ticket owner expiresAt ∉ events := by
      rintro o e rfl
      exact hlater _ _ h.2 ⟨.issued ticket o e, List.mem_append_right _ (List.mem_singleton_self _),
        decide_eq_true rfl⟩
    rcases List.mem_cons.mp hissued with hhead | htail
    · rcases List.mem_cons.mp hissued' with hhead' | htail'
      · rw [← hhead] at hhead'
        cases hhead'
        exact ⟨rfl, rfl⟩
      · exact absurd htail' (hnone _ _ hhead.symm _ _)
    · rcases List.mem_cons.mp hissued' with hhead' | htail'
      · exact absurd htail (hnone _ _ hhead'.symm _ _)
      · exact ih h.2 htail htail'

/-- A number that exceeds a bound is not below it. -/
theorem not_lt_of_exceeds {x : JsNumber} {bound : ℚ} (h : x.exceeds bound = true) :
    x.lt bound = false := by
  cases x with
  | finite value =>
    have hle : bound ≤ value := of_decide_eq_true (Bool.and_eq_true_iff.mp h).1
    exact decide_eq_false (not_lt.mpr hle)
  | negInfinity => cases h
  | _ => rfl

/-- **What a proper history is worth.** -/
theorem singleUse_of_allAllowed (h : Traced.AllAllowed (Proper same) [] events) :
    SingleUse same events where
  once ticket := (count_accepts_of_allAllowed h).1
  entitled before ticket now user after heq := by
    rw [heq] at h
    exact (proper_of_allAllowed h).2
  kept before ticket now answer after owner expiresAt heq hissued hunused hexceeds := by
    rw [heq] at h
    have hproper := proper_of_allAllowed h
    cases answer with
    | none =>
      rw [hproper owner expiresAt hissued hunused] at hexceeds
      cases hexceeds
    | some user =>
      obtain ⟨-, owner', expiresAt', hissued', hsame, -⟩ := hproper
      obtain ⟨rfl, -⟩ := eq_of_issued (Traced.allAllowed_append.mp h).1 hissued hissued'
      exact ⟨user, rfl, hsame⟩

/-! ## The tickets that are open -/

/-- A ticket that can be used: the user it was issued to, and when it expires. -/
structure Grant where
  owner : Text
  expiresAt : JsNumber
  deriving DecidableEq

/-- **The invariant**: the history is proper, and the open tickets are those that were issued and have
not been used; a ticket may be missing when it has expired. -/
structure Keeps (same : Text → Text → Prop) (clock : ℤ) (past : List TicketEvent)
    (granted : Text → Option Grant) : Prop where
  proper : Traced.AllAllowed (Proper same) [] past
  issued : ∀ ticket grant, granted ticket = some grant →
    .issued ticket grant.owner grant.expiresAt ∈ past ∧ Unused ticket past
  unused : ∀ ticket owner expiresAt, .issued ticket owner expiresAt ∈ past → Unused ticket past →
    granted ticket = some ⟨owner, expiresAt⟩ ∨ expiresAt.lt clock = true

/-- A ticket that was not issued was not used. -/
theorem unused_of_fresh (h : Traced.AllAllowed (Proper same) [] events)
    (hfresh : ∀ event ∈ events, event.issues ticket = false) : Unused ticket events := by
  intro event hmem
  rw [Bool.eq_false_iff]
  intro hconsumes
  obtain ⟨before, after, rfl⟩ := List.append_of_mem hmem
  have hissued : ∃ owner expiresAt, .issued ticket owner expiresAt ∈ before := by
    have hproper := proper_of_allAllowed h
    cases event with
    | issued t owner expiresAt => cases hconsumes
    | lost t =>
      obtain rfl : t = ticket := of_decide_eq_true hconsumes
      exact hproper.2
    | validated t now answer =>
      cases answer with
      | none => cases hconsumes
      | some user =>
        obtain rfl : t = ticket := of_decide_eq_true hconsumes
        obtain ⟨-, owner, expiresAt, hissued, -⟩ := hproper
        exact ⟨owner, expiresAt, hissued⟩
  obtain ⟨owner, expiresAt, hissued⟩ := hissued
  have hnot := hfresh _ (List.mem_append_left _ hissued)
  rw [TicketEvent.issues, decide_eq_true rfl] at hnot
  cases hnot

/-- What is below a time is below a later time. -/
theorem lt_of_lt_of_le {x : JsNumber} (h : x.lt clock = true) (hle : clock ≤ now) :
    x.lt now = true := by
  cases x with
  | finite value =>
    have hlt : value < clock := of_decide_eq_true h
    exact decide_eq_true (hlt.trans_le (Int.cast_le.mpr hle))
  | negInfinity => rfl
  | _ => cases h

namespace Keeps

variable {granted granted' : Text → Option Grant} {grant : Grant}

theorem start : Keeps same clock [] fun _ => none :=
  ⟨trivial, fun _ _ h => (nomatch h), fun _ _ _ h => (nomatch h)⟩

/-- Time goes by. -/
theorem later (h : Keeps same clock past granted) (hle : clock ≤ now) :
    Keeps same now past granted where
  proper := h.proper
  issued := h.issued
  unused ticket owner expiresAt hissued hunused :=
    (h.unused ticket owner expiresAt hissued hunused).imp_right fun hlt => lt_of_lt_of_le hlt hle

/-- A proper event that uses no ticket. -/
theorem concat (h : Keeps same clock past granted) {event : TicketEvent}
    (hproper : Proper same past event) :
    Traced.AllAllowed (Proper same) [] (past ++ [event]) :=
  Traced.allAllowed_append.mpr ⟨h.proper, hproper, trivial⟩

/-- **The rule for issuing** a ticket with a new name. -/
theorem issue (h : Keeps same clock past granted)
    (hfresh : ∀ event ∈ past, event.issues ticket = false) :
    Keeps same clock (past ++ [.issued ticket owner expiresAt])
      (Function.update granted ticket (some ⟨owner, expiresAt⟩)) := by
  have hunchanged : ∀ t, Unused t past → Unused t (past ++ [.issued ticket owner expiresAt]) :=
    fun t hunused => unused_append.mpr ⟨hunused, fun event hevent => by
      rw [List.mem_singleton.mp hevent]
      rfl⟩
  refine ⟨h.concat hfresh, fun t g hg => ?_, fun t o e hissued hunused => ?_⟩
  · by_cases ht : t = ticket
    · subst ht
      rw [Function.update_self] at hg
      obtain rfl := Option.some.inj hg
      exact ⟨List.mem_append_right _ (List.mem_singleton_self _),
        hunchanged t (unused_of_fresh h.proper hfresh)⟩
    · rw [Function.update_of_ne ht] at hg
      obtain ⟨hissued, hunused⟩ := h.issued t g hg
      exact ⟨List.mem_append_left _ hissued, hunchanged t hunused⟩
  · rcases List.mem_append.mp hissued with hold | hnew
    · have ht : t ≠ ticket := by
        rintro rfl
        have hnot := hfresh _ hold
        rw [TicketEvent.issues, decide_eq_true rfl] at hnot
        cases hnot
      rw [Function.update_of_ne ht]
      exact h.unused t o e hold (unused_append.mp hunused).1
    · cases List.mem_singleton.mp hnew
      rw [Function.update_self]
      exact Or.inl rfl

/-- **The rule for consuming** an open ticket. -/
theorem consume (h : Keeps same clock past granted) (hgrant : granted ticket = some grant)
    {event : TicketEvent} (hproper : Proper same past event)
    (hconsumes : ∀ t, event.consumes t = decide (ticket = t)) :
    Keeps same clock (past ++ [event]) (Function.update granted ticket none) := by
  have hissues : ∀ t o e, event ≠ .issued t o e := by
    rintro t o e rfl
    have hself := hconsumes ticket
    rw [decide_eq_true rfl] at hself
    cases hself
  have hother : ∀ t, t ≠ ticket → Unused t past → Unused t (past ++ [event]) := by
    intro t ht hunused
    refine unused_append.mpr ⟨hunused, fun event' hevent' => ?_⟩
    rw [List.mem_singleton.mp hevent', hconsumes]
    exact decide_eq_false (Ne.symm ht)
  refine ⟨h.concat hproper, fun t g hg => ?_, fun t o e hissued hunused => ?_⟩
  · by_cases ht : t = ticket
    · rw [ht, Function.update_self] at hg
      cases hg
    · rw [Function.update_of_ne ht] at hg
      obtain ⟨hissued, hunused⟩ := h.issued t g hg
      exact ⟨List.mem_append_left _ hissued, hother t ht hunused⟩
  · obtain ⟨hbefore, hlast⟩ := unused_append.mp hunused
    have ht : t ≠ ticket := by
      rintro rfl
      have hself := hlast event (List.mem_singleton_self _)
      rw [hconsumes, decide_eq_true rfl] at hself
      cases hself
    rw [Function.update_of_ne ht]
    rcases List.mem_append.mp hissued with hold | hnew
    · exact h.unused t o e hold hbefore
    · exact absurd (List.mem_singleton.mp hnew).symm (hissues t o e)

/-- The rule for accepting an open ticket that has not expired. -/
theorem accept (h : Keeps same clock past granted) (hgrant : granted ticket = some grant)
    (hsame : same grant.owner user) (hnow : grant.expiresAt.lt now = false) :
    Keeps same clock (past ++ [.validated ticket now (some user)])
      (Function.update granted ticket none) := by
  obtain ⟨hissued, hunused⟩ := h.issued ticket grant hgrant
  exact h.consume hgrant ⟨hunused, grant.owner, grant.expiresAt, hissued, hsame, hnow⟩ fun _ => rfl

/-- The rule for an answer that is lost. -/
theorem lose (h : Keeps same clock past granted) (hgrant : granted ticket = some grant) :
    Keeps same clock (past ++ [.lost ticket]) (Function.update granted ticket none) := by
  obtain ⟨hissued, hunused⟩ := h.issued ticket grant hgrant
  exact h.consume hgrant ⟨hunused, grant.owner, grant.expiresAt, hissued⟩ fun _ => rfl

/-- **The rule for refusing** a ticket that is not open, or whose time is over. -/
theorem refuse (h : Keeps same clock past granted) (hle : clock ≤ now)
    (hover : ∀ grant, granted ticket = some grant → grant.expiresAt.exceeds now = false) :
    Keeps same clock (past ++ [.validated ticket now none]) granted := by
  have hproper : Proper same past (.validated ticket now none) := by
    intro o e hissued hunused
    rcases h.unused ticket o e hissued hunused with hopen | hlt
    · exact hover _ hopen
    · rw [Bool.eq_false_iff]
      intro hexceeds
      have hnot := not_lt_of_exceeds hexceeds
      rw [lt_of_lt_of_le hlt hle] at hnot
      cases hnot
  have hunchanged : ∀ t, Unused t past → Unused t (past ++ [.validated ticket now none]) :=
    fun t hunused => unused_append.mpr ⟨hunused, fun event hevent => by
      rw [List.mem_singleton.mp hevent]
      rfl⟩
  refine ⟨h.concat hproper, fun t g hg => ?_, fun t o e hissued hunused => ?_⟩
  · obtain ⟨hissued, hunused⟩ := h.issued t g hg
    exact ⟨List.mem_append_left _ hissued, hunchanged t hunused⟩
  · rcases List.mem_append.mp hissued with hold | hnew
    · exact h.unused t o e hold (unused_append.mp hunused).1
    · cases List.mem_singleton.mp hnew

/-- **The rule for forgetting** tickets that have expired. -/
theorem forget (h : Keeps same clock past granted)
    (hkept : ∀ t g, granted' t = some g → granted t = some g)
    (hexpired : ∀ t g, granted t = some g → granted' t = some g ∨ g.expiresAt.lt clock = true) :
    Keeps same clock past granted' where
  proper := h.proper
  issued t g hg := h.issued t g (hkept t g hg)
  unused t o e hissued hunused := by
    rcases h.unused t o e hissued hunused with hopen | hlt
    · exact hexpired t ⟨o, e⟩ hopen
    · exact Or.inr hlt

end Keeps

end DreamWeaver.Tickets
