import DreamWeaver.Tickets.TicketStore
import DreamWeaver.Foundations.JsData

/-! # Tickets in memory

`InMemoryTicketStore` (`api/src/infrastructure/memory/InMemoryTicketStore.ts`): a map from tickets to
users and expiry times. A ticket is deleted when it is used, when it is found to have expired, and by the
sweep that a timer starts. The methods await nothing, so that a run is a list of calls. -/

namespace DreamWeaver.Tickets

open Transitions

/-! ## The store -/

/-- `{ userId: string, expiresAt: number }` -/
structure StoredTicket where
  userId : Text
  expiresAt : JsNumber
  deriving DecidableEq

/-- `InMemoryTicketStore` -/
structure InMemoryTicketStore where
  store : Record StoredTicket := []

namespace InMemoryTicketStore

/-- `issue`, with the ticket that `randomUUID` has drawn. -/
def issue (s : InMemoryTicketStore) (ticketId userId : Text) (ttlSeconds : JsNumber) (now : ℤ) :
    InMemoryTicketStore :=
  { store := s.store.spread [(ticketId, {
      userId := userId
      expiresAt := (JsNumber.finite now).add (ttlSeconds.mul (.finite 1000)) })] }

/-- `validate` -/
def validate (s : InMemoryTicketStore) (ticketId : Text) (now : ℤ) :
    Option Text × InMemoryTicketStore :=
  match s.store.get? ticketId with
  | none => (none, s)
  | some ticket =>
    if ticket.expiresAt.lt now then (none, { store := s.store.without ticketId })
    else (some ticket.userId, { store := s.store.without ticketId })

/-- `cleanup` -/
def cleanup (s : InMemoryTicketStore) (now : ℤ) : InMemoryTicketStore :=
  { store := s.store.filter fun entry => !entry.2.expiresAt.lt now }

/-- The tickets of the map. -/
def granted (s : InMemoryTicketStore) (ticketId : Text) : Option Grant :=
  (s.store.get? ticketId).map fun ticket => ⟨ticket.userId, ticket.expiresAt⟩

end InMemoryTicketStore

/-! ## Runs -/

/-- The calls on a ticket store, each at a time. -/
inductive TicketCall where
  | issue (ticketId userId : Text) (ttlSeconds : JsNumber) (now : ℤ)
  | validate (ticketId : Text) (now : ℤ)
  | cleanup (now : ℤ)
  deriving DecidableEq

/-- When the call is made. -/
def TicketCall.now : TicketCall → ℤ
  | .issue _ _ _ now => now
  | .validate _ now => now
  | .cleanup now => now

/-- The store in its process: the time of the last call, and the tickets that were drawn. -/
structure TicketProcess where
  tickets : InMemoryTicketStore
  clock : ℤ
  drawn : List Text

namespace TicketProcess

/-- A process that starts at a time. -/
def started (clock : ℤ) : TicketProcess := ⟨{}, clock, []⟩

/-- The process after a call, if it can happen: time does not go back, and no ticket is drawn twice. -/
def step (p : TicketProcess) (call : TicketCall) : Option TicketProcess :=
  if call.now < p.clock then none
  else
    match call with
    | .issue ticketId userId ttlSeconds now =>
      if ticketId ∈ p.drawn then none
      else some ⟨p.tickets.issue ticketId userId ttlSeconds now, now, ticketId :: p.drawn⟩
    | .validate ticketId now => some ⟨(p.tickets.validate ticketId now).2, now, p.drawn⟩
    | .cleanup now => some ⟨p.tickets.cleanup now, now, p.drawn⟩

/-- What a call adds to the history. -/
def events (p : TicketProcess) : TicketCall → List TicketEvent
  | .issue ticketId userId ttlSeconds now =>
    [.issued ticketId userId ((JsNumber.finite now).add (ttlSeconds.mul (.finite 1000)))]
  | .validate ticketId now => [.validated ticketId now (p.tickets.validate ticketId now).1]
  | .cleanup _ => []

/-- **The invariant**: the map keeps the history, and no ticket of the history can be drawn again. -/
structure Kept (past : List TicketEvent) (p : TicketProcess) : Prop where
  keeps : Keeps Eq p.clock past p.tickets.granted
  drawn : ∀ ticketId ∉ p.drawn, ∀ event ∈ past, event.issues ticketId = false
  distinct : p.tickets.store.keys.Nodup

end TicketProcess

/-! ## Steps -/

namespace InMemoryTicketStore

variable {s : InMemoryTicketStore} {ticketId userId : Text} {ttlSeconds : JsNumber} {now : ℤ}

theorem granted_issue : (s.issue ticketId userId ttlSeconds now).granted =
    Function.update s.granted ticketId
      (some ⟨userId, (JsNumber.finite now).add (ttlSeconds.mul (.finite 1000))⟩) := by
  funext t
  rw [granted, issue, Record.get?_spread_singleton]
  by_cases ht : t = ticketId
  · rw [if_pos ht, ht, Function.update_self, Option.map_some]
  · rw [if_neg ht, Function.update_of_ne ht, granted]

/-- A ticket that is deleted is not granted. -/
theorem granted_without : granted ⟨s.store.without ticketId⟩ = Function.update s.granted ticketId none := by
  funext t
  rw [granted, Record.get?_without]
  by_cases ht : t = ticketId
  · rw [if_pos ht, ht, Function.update_self, Option.map_none]
  · rw [if_neg ht, Function.update_of_ne ht, granted]

/-- The sweep leaves the tickets that have not expired. -/
theorem granted_cleanup (hdistinct : s.store.keys.Nodup) (t : Text) (g : Grant) :
    (s.cleanup now).granted t = some g ↔ s.granted t = some g ∧ g.expiresAt.lt now = false := by
  have hnodup : (s.cleanup now).store.keys.Nodup := hdistinct.sublist (List.filter_sublist.map _)
  constructor
  · intro h
    obtain ⟨ticket, hticket, rfl⟩ := Option.map_eq_some_iff.mp h
    obtain ⟨hmem, hkeep⟩ := List.mem_filter.mp (Record.mem_of_get? hticket)
    refine ⟨?_, by simpa using hkeep⟩
    rw [granted, Record.get?_of_mem hdistinct hmem, Option.map_some]
  · rintro ⟨h, hkeep⟩
    obtain ⟨ticket, hticket, rfl⟩ := Option.map_eq_some_iff.mp h
    have hmem : (t, ticket) ∈ (s.cleanup now).store :=
      List.mem_filter.mpr ⟨Record.mem_of_get? hticket, by simpa using hkeep⟩
    rw [granted, Record.get?_of_mem hnodup hmem, Option.map_some]

end InMemoryTicketStore

namespace TicketProcess

variable {p p' : TicketProcess} {past : List TicketEvent} {call : TicketCall}

/-- The process moves on to a later time. -/
theorem step_cases : p.step call = some p' → p.clock ≤ call.now ∧
    match call with
      | .issue ticketId userId ttlSeconds now => ticketId ∉ p.drawn ∧
          p' = ⟨p.tickets.issue ticketId userId ttlSeconds now, now, ticketId :: p.drawn⟩
      | .validate ticketId now => p' = ⟨(p.tickets.validate ticketId now).2, now, p.drawn⟩
      | .cleanup now => p' = ⟨p.tickets.cleanup now, now, p.drawn⟩ := by
  intro h
  unfold step at h
  by_cases htime : call.now < p.clock
  · rw [if_pos htime] at h
    cases h
  · rw [if_neg htime] at h
    refine ⟨not_lt.mp htime, ?_⟩
    cases call with
    | issue ticketId userId ttlSeconds now =>
      by_cases hdrawn : ticketId ∈ p.drawn
      · simp [hdrawn] at h
      · simp only [hdrawn, if_false, Option.some.injEq] at h
        exact ⟨hdrawn, h.symm⟩
    | validate ticketId now => exact (Option.some.inj h).symm
    | cleanup now => exact (Option.some.inj h).symm

/-- **One call** keeps the history. -/
theorem Kept.step (h : Kept past p) (hstep : p.step call = some p') :
    Kept (past ++ p.events call) p' := by
  obtain ⟨htime, hcases⟩ := step_cases hstep
  have hkeeps := h.keeps.later htime
  cases call with
  | issue ticketId userId ttlSeconds now =>
    obtain ⟨hdrawn, rfl⟩ := hcases
    have hfresh := h.drawn ticketId hdrawn
    refine ⟨?_, fun t ht event hevent => ?_, Record.nodup_spread h.distinct Record.nodup_singleton⟩
    · rw [InMemoryTicketStore.granted_issue]
      exact hkeeps.issue hfresh
    · rw [List.mem_cons, not_or] at ht
      rcases List.mem_append.mp hevent with hold | hnew
      · exact h.drawn t ht.2 event hold
      · rw [List.mem_singleton.mp hnew]
        exact decide_eq_false (Ne.symm ht.1)
  | cleanup now =>
    obtain rfl := hcases
    rw [events, List.append_nil]
    refine ⟨hkeeps.forget (fun t g hg => ?_) fun t g hg => ?_, h.drawn,
      h.distinct.sublist (List.filter_sublist.map _)⟩
    · exact ((InMemoryTicketStore.granted_cleanup h.distinct t g).mp hg).1
    · by_cases hexpired : g.expiresAt.lt now = true
      · exact Or.inr hexpired
      · left
        rw [Bool.not_eq_true] at hexpired
        exact (InMemoryTicketStore.granted_cleanup h.distinct t g).mpr ⟨hg, hexpired⟩
  | validate ticketId now =>
    obtain rfl := hcases
    have hdrawn : ∀ answer, ∀ t ∉ p.drawn,
        ∀ event ∈ past ++ [TicketEvent.validated ticketId now answer], event.issues t = false := by
      intro answer t ht event hevent
      rcases List.mem_append.mp hevent with hold | hnew
      · exact h.drawn t ht event hold
      · rw [List.mem_singleton.mp hnew]
        rfl
    rw [events, InMemoryTicketStore.validate]
    cases hget : p.tickets.store.get? ticketId with
    | none =>
      refine ⟨hkeeps.refuse le_rfl fun grant hgrant => ?_, hdrawn none, h.distinct⟩
      rw [InMemoryTicketStore.granted, hget] at hgrant
      cases hgrant
    | some ticket =>
      have hgrant : p.tickets.granted ticketId = some ⟨ticket.userId, ticket.expiresAt⟩ := by
        rw [InMemoryTicketStore.granted, hget, Option.map_some]
      dsimp only
      by_cases hexpired : ticket.expiresAt.lt now = true
      · -- the ticket is deleted because its time is over
        rw [if_pos hexpired]
        refine ⟨?_, hdrawn none, Record.nodup_without h.distinct⟩
        have hover : ∀ grant, p.tickets.granted ticketId = some grant →
            grant.expiresAt.exceeds now = false := by
          intro grant hgrant'
          rw [hgrant, Option.some_inj] at hgrant'
          rw [← hgrant', Bool.eq_false_iff]
          intro hexceeds
          have hnot : ticket.expiresAt.lt now = false := not_lt_of_exceeds hexceeds
          rw [hexpired] at hnot
          cases hnot
        refine (hkeeps.refuse le_rfl hover).forget (fun t g hg => ?_) fun t g hg => ?_
        · rw [InMemoryTicketStore.granted_without] at hg
          by_cases ht : t = ticketId
          · rw [ht, Function.update_self] at hg
            cases hg
          · rwa [Function.update_of_ne ht] at hg
        · rw [InMemoryTicketStore.granted_without]
          by_cases ht : t = ticketId
          · right
            rw [ht, hgrant, Option.some_inj] at hg
            rw [← hg]
            exact hexpired
          · left
            rwa [Function.update_of_ne ht]
      · rw [if_neg hexpired]
        rw [Bool.not_eq_true] at hexpired
        refine ⟨?_, hdrawn _, Record.nodup_without h.distinct⟩
        rw [InMemoryTicketStore.granted_without]
        exact hkeeps.accept hgrant rfl hexpired

/-- The history of a run that starts at a time. -/
def history (clock : ℤ) (calls : List TicketCall) : List TicketEvent :=
  outputs step events (started clock) calls

/-- **Every run keeps its history.** -/
theorem kept_of_run {clock : ℤ} {calls : List TicketCall}
    (hrun : runFrom step (started clock) calls = some p) : Kept (history clock calls) p := by
  have hinit : Kept [] (started clock) := ⟨Keeps.start, fun _ _ _ h => (nomatch h), List.nodup_nil⟩
  exact run_outputs (fun _ _ _ _ h _ hstep => Kept.step h hstep) hinit along_true hrun

end TicketProcess

end DreamWeaver.Tickets
