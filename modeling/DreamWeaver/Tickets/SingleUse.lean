import DreamWeaver.Tickets.SupabaseTicketStore

/-! # Tickets are used once

Both stores refine the ticket of `TicketStore`: whatever is issued, validated and swept, in whatever
order, and however the statements of the table interleave with the calls. They differ at the very time of
expiry only, at which the one in memory still accepts a ticket. -/

namespace DreamWeaver.Tickets

open Transitions

/-- **Single use of tickets**, for the store in memory and the table: a ticket is accepted at most once,
not after its expiry and for the user it was issued to, and strictly before its expiry it is accepted as
long as it is not used. -/
theorem single_use (db : TicketDatabase) (clock : ℤ) :
    (∀ calls p, runFrom TicketProcess.step (.started clock) calls = some p →
      SingleUse Eq (TicketProcess.history clock calls)) ∧
    (∀ actions s, runFrom (TicketTable.step db) (.started clock) actions = some s →
      SingleUse (TicketTable.SameUser db) (TicketTable.history db clock actions)) := by
  constructor
  · intro calls p hrun
    exact singleUse_of_allAllowed (TicketProcess.kept_of_run hrun).keeps.proper
  · intro actions s hrun
    obtain ⟨granted, hkeeps, -⟩ := (TicketTable.kept_of_run hrun).keeps
    exact singleUse_of_allAllowed hkeeps.proper

/-- A database with one user, which reads times in the ISO format. -/
def anaDatabase : TicketDatabase where
  user? text := if text = lit "ana" then some text else none
  user?_ne_nil text h := by
    split at h
    · rename_i hana
      rw [Option.some.injEq, hana] at h
      cases h
    · cases h
  timestamptz text := (parseIso text).map Time.ms
  timestamptz_toISOString t ms h := by
    rw [parseIso_toISOString, Option.map_some, Option.some.injEq] at h
    exact h.symm

/-- A ticket for 90 seconds that is presented twice, and one that is swept. -/
def ticketCalls : List TicketCall :=
  [.issue (lit "t1") (lit "ana") (.finite 90) 1000, .issue (lit "t2") (lit "ana") (.finite 1) 1000,
    .cleanup 61000, .validate (lit "t1") 90999, .validate (lit "t1") 91000]

/-- The same ticket, presented before its row is there, and twice after it. -/
def ticketActions : List TicketAction :=
  [.issue (lit "t1") (lit "ana") (.finite 90) 1000, .validate (lit "t1") 1001 .answered,
    .insert 0 1002 .answered, .validate (lit "t1") 90999 .answered,
    .validate (lit "t1") 90999 .answered]

theorem single_use_ana :
    SingleUse Eq (TicketProcess.history 0 ticketCalls) ∧
      SingleUse (TicketTable.SameUser anaDatabase) (TicketTable.history anaDatabase 0 ticketActions) ∧
      TicketProcess.history 0 ticketCalls =
        [.issued (lit "t1") (lit "ana") (.finite 91000), .issued (lit "t2") (lit "ana") (.finite 2000),
          .validated (lit "t1") 90999 (some (lit "ana")), .validated (lit "t1") 91000 none] ∧
      TicketTable.history anaDatabase 0 ticketActions =
        [.validated (lit "t1") 1001 none, .issued (lit "t1") (lit "ana") (.finite 91000),
          .validated (lit "t1") 90999 (some (lit "ana")), .validated (lit "t1") 90999 none] := by
  have hcalls : (runFrom TicketProcess.step (.started 0) ticketCalls).isSome = true := by
    decide +kernel
  have hactions : (runFrom (TicketTable.step anaDatabase) (.started 0) ticketActions).isSome = true := by
    decide +kernel
  obtain ⟨p, hp⟩ := Option.isSome_iff_exists.mp hcalls
  obtain ⟨s, hs⟩ := Option.isSome_iff_exists.mp hactions
  refine ⟨(single_use anaDatabase 0).1 _ p hp, (single_use anaDatabase 0).2 _ s hs, ?_, ?_⟩
  · decide +kernel
  · decide +kernel

end DreamWeaver.Tickets
