import DreamWeaver.Tickets.InMemoryTicketStore
import DreamWeaver.Foundations.IsoDate

/-! # Tickets in a table

`SupabaseTicketStore` (`api/src/infrastructure/tickets/SupabaseTicketStore.ts`) keeps the tickets in the
table `ws_tickets` (`supabase/migrations/20260128000003_ws_tickets.sql`): `issue` inserts a row, and
`validate` calls the function `consume_ws_ticket`. Each is one statement, which happens at one time or
not at all, and whose answer may be lost. Between the call of `issue` and its statement other things
happen. -/

namespace DreamWeaver.Tickets

open Transitions

/-! ## The table -/

/-- What the columns of the table depend on. -/
structure TicketDatabase where
  /-- The user that a text denotes, by the id that the table `auth.users` has for it. -/
  user? : Text → Option Text
  user?_ne_nil : ∀ text, user? text ≠ some []
  /-- The instant that a text denotes. -/
  timestamptz : Text → Option ℤ
  /-- A text in the ISO format denotes no other time than the one it was written for. -/
  timestamptz_toISOString : ∀ t ms, timestamptz (toISOString t) = some ms → ms = t.ms

/-- A row of `ws_tickets`, without its key and the time it was made. -/
structure TicketRow where
  userId : Text
  expiresAt : ℤ
  consumedAt : Option ℤ
  deriving DecidableEq

/-- The rows of the table, by their key. -/
abbrev WsTickets := Text → Option TicketRow

/-- `INSERT INTO ws_tickets`, `none` if a column or the key refuses the row. -/
def WsTickets.insert (db : TicketDatabase) (rows : WsTickets) (ticket userId expiresAt : Text) :
    Option WsTickets :=
  match rows ticket, db.user? userId, db.timestamptz expiresAt with
  | none, some user, some instant => some (Function.update rows ticket (some ⟨user, instant, none⟩))
  | _, _, _ => none

/-- `consume_ws_ticket` -/
def WsTickets.consume (rows : WsTickets) (ticket : Text) (now : ℤ) : Option Text × WsTickets :=
  match rows ticket with
  | none => (none, rows)
  | some row =>
    if row.consumedAt = none ∧ now < row.expiresAt then
      (some row.userId, Function.update rows ticket (some { row with consumedAt := some now }))
    else (none, rows)

/-! ## The store -/

/-- The row that `issue` inserts. -/
structure TicketInsert where
  ticket : Text
  userId : Text
  expiresAt : Time

/-- `issue` up to its statement, with the ticket that `randomUUID` has drawn; `toISOString` throws for an
invalid date. -/
def ticketInsert (ticket userId : Text) (ttlSeconds : JsNumber) (now : ℤ) : Option TicketInsert :=
  ((JsNumber.finite now).add (ttlSeconds.mul (.finite 1000))).toDate.map fun expiresAt =>
    ⟨ticket, userId, expiresAt⟩

/-- `typeof data === 'string' && data.length > 0 ? data : null` -/
def ticketAnswer (data : Option Text) : Option Text := data.filter fun text => !text.isEmpty

/-- What becomes of a statement: the database makes it and answers, the answer is lost, or it is not
made. -/
inductive Delivery where
  | answered
  | lost
  | failed
  deriving DecidableEq

/-- What happens to the tickets. -/
inductive TicketAction where
  /-- A call of `issue`. -/
  | issue (ticket userId : Text) (ttlSeconds : JsNumber) (now : ℤ)
  /-- The statement of the call at a position. -/
  | insert (position : ℕ) (now : ℤ) (delivery : Delivery)
  /-- The statement of a call of `validate`. -/
  | validate (ticket : Text) (now : ℤ) (delivery : Delivery)
  deriving DecidableEq

/-- When it happens. -/
def TicketAction.now : TicketAction → ℤ
  | .issue _ _ _ now => now
  | .insert _ now _ => now
  | .validate _ now _ => now

/-- The table, the calls of `issue` whose statement is still to come, the time of the last action, and the
tickets that were drawn. -/
structure TicketTable where
  rows : WsTickets
  inserting : List TicketInsert
  clock : ℤ
  drawn : List Text

namespace TicketTable

/-- An empty table at a time. -/
def started (clock : ℤ) : TicketTable := ⟨fun _ => none, [], clock, []⟩

/-- The rows after the statement of a call of `issue`, if it is made. -/
def insertRow (db : TicketDatabase) (s : TicketTable) (row : TicketInsert) : Delivery → Option WsTickets
  | .failed => none
  | _ => s.rows.insert db row.ticket row.userId (toISOString row.expiresAt)

/-- The table after an action, if it can happen: time does not go back, and no ticket is drawn twice. -/
def step (db : TicketDatabase) (s : TicketTable) (a : TicketAction) : Option TicketTable :=
  if a.now < s.clock then none
  else
    match a with
    | .issue ticket userId ttlSeconds now =>
      if ticket ∈ s.drawn then none
      else some { s with
        inserting := s.inserting ++ (ticketInsert ticket userId ttlSeconds now).toList
        clock := now
        drawn := ticket :: s.drawn }
    | .insert position now delivery => s.inserting[position]?.map fun row => { s with
        rows := (s.insertRow db row delivery).getD s.rows
        inserting := s.inserting.eraseIdx position
        clock := now }
    | .validate ticket now delivery => some { s with
        rows := if delivery = .failed then s.rows else (s.rows.consume ticket now).2
        clock := now }

/-- What an action adds to the history. -/
def events (db : TicketDatabase) (s : TicketTable) : TicketAction → List TicketEvent
  | .issue _ _ _ _ => []
  | .insert position _ delivery =>
    match s.inserting[position]? with
    | none => []
    | some row =>
      if (s.insertRow db row delivery).isSome then
        [.issued row.ticket row.userId (.finite row.expiresAt.ms)]
      else []
  | .validate ticket now .answered =>
    [.validated ticket now (ticketAnswer (s.rows.consume ticket now).1)]
  | .validate ticket now .lost => if (s.rows.consume ticket now).1.isSome then [.lost ticket] else []
  | .validate _ _ .failed => []

/-- A user id of the table is that of the user to whose id a ticket was issued. -/
def SameUser (db : TicketDatabase) (owner user : Text) : Prop := db.user? owner = some user

/-- The open ticket of a row. -/
def Grants (db : TicketDatabase) : Option TicketRow → Option Grant → Prop
  | some ⟨userId, expiresAt, none⟩, grant => ∃ owner,
      grant = some ⟨owner, .finite expiresAt⟩ ∧ SameUser db owner userId
  | _, grant => grant = none

/-- **The invariant**: the rows that are not consumed keep the history, and no ticket whose statement is
still to come was issued. -/
structure Kept (db : TicketDatabase) (past : List TicketEvent) (s : TicketTable) : Prop where
  keeps : ∃ granted, Keeps (SameUser db) s.clock past granted ∧ ∀ t, Grants db (s.rows t) (granted t)
  drawn : ∀ ticket ∉ s.drawn, ∀ event ∈ past, event.issues ticket = false
  coming : ∀ row ∈ s.inserting, row.ticket ∈ s.drawn ∧ ∀ event ∈ past, event.issues row.ticket = false
  distinct : (s.inserting.map TicketInsert.ticket).Nodup

/-! ## Steps -/

variable {db : TicketDatabase} {s s' : TicketTable} {past : List TicketEvent} {a : TicketAction}

/-- What an action that happens does. -/
theorem step_cases : s.step db a = some s' → s.clock ≤ a.now ∧
    match a with
    | .issue ticket userId ttlSeconds now => ticket ∉ s.drawn ∧ s' = { s with
        inserting := s.inserting ++ (ticketInsert ticket userId ttlSeconds now).toList
        clock := now
        drawn := ticket :: s.drawn }
    | .insert position now delivery => ∃ row, s.inserting[position]? = some row ∧ s' = { s with
        rows := (s.insertRow db row delivery).getD s.rows
        inserting := s.inserting.eraseIdx position
        clock := now }
    | .validate ticket now delivery => s' = { s with
        rows := if delivery = .failed then s.rows else (s.rows.consume ticket now).2
        clock := now } := by
  intro h
  unfold step at h
  by_cases htime : a.now < s.clock
  · rw [if_pos htime] at h
    cases h
  · rw [if_neg htime] at h
    refine ⟨not_lt.mp htime, ?_⟩
    cases a with
    | issue ticket userId ttlSeconds now =>
      by_cases hdrawn : ticket ∈ s.drawn
      · simp [hdrawn] at h
      · simp only [hdrawn, if_false, Option.some.injEq] at h
        exact ⟨hdrawn, h.symm⟩
    | insert position now delivery =>
      obtain ⟨row, hrow, heq⟩ := Option.map_eq_some_iff.mp h
      exact ⟨row, hrow, heq.symm⟩
    | validate ticket now delivery => exact (Option.some.inj h).symm

/-- What an insert that succeeds has done. -/
theorem insert_cases {rows rows' : WsTickets} {ticket userId expiresAt : Text}
    (h : rows.insert db ticket userId expiresAt = some rows') :
    ∃ user instant, db.user? userId = some user ∧ db.timestamptz expiresAt = some instant ∧
      rows' = Function.update rows ticket (some ⟨user, instant, none⟩) := by
  rw [WsTickets.insert] at h
  split at h
  · rename_i user instant _ huser hinstant
    exact ⟨user, instant, huser, hinstant, (Option.some.inj h).symm⟩
  · cases h

/-- The row of a ticket that is granted is not consumed. -/
theorem row_of_grants {row : Option TicketRow} {grant : Grant} (h : Grants db row (some grant)) :
    ∃ userId expiresAt, row = some ⟨userId, expiresAt, none⟩ ∧ grant.expiresAt = .finite expiresAt ∧
      SameUser db grant.owner userId := by
  cases row with
  | none => cases h
  | some row =>
    obtain ⟨userId, expiresAt, consumedAt⟩ := row
    cases consumedAt with
    | some time => cases h
    | none =>
      obtain ⟨owner, hgrant, hsame⟩ := h
      cases hgrant
      exact ⟨userId, expiresAt, rfl, rfl, hsame⟩

/-- What consuming a ticket that is granted, and whose time is not over, does; another ticket is not
consumed. -/
theorem consume_cases {rows : WsTickets} {ticket : Text} {grant : Option Grant}
    (h : Grants db (rows ticket) grant) (now : ℤ) :
    (∃ g user row, grant = some g ∧ SameUser db g.owner user ∧ g.expiresAt.lt now = false ∧
      row.consumedAt = some now ∧
        rows.consume ticket now = (some user, Function.update rows ticket (some row))) ∨
      (rows.consume ticket now = (none, rows) ∧
        ∀ g, grant = some g → g.expiresAt.exceeds now = false) := by
  rw [WsTickets.consume]
  cases hrow : rows ticket with
  | none =>
    rw [hrow] at h
    right
    refine ⟨rfl, fun g hg => ?_⟩
    rw [show grant = none from h] at hg
    cases hg
  | some row =>
    dsimp only
    rw [hrow] at h
    by_cases hopen : row.consumedAt = none ∧ now < row.expiresAt
    · left
      obtain ⟨userId, expiresAt, consumedAt⟩ := row
      obtain ⟨rfl, hnow⟩ := hopen
      obtain ⟨owner, rfl, hsame⟩ := h
      rw [if_pos ⟨rfl, hnow⟩]
      refine ⟨_, userId, _, rfl, hsame, ?_, rfl, rfl⟩
      exact decide_eq_false (not_lt.mpr (Int.cast_le.mpr hnow.le))
    · right
      rw [if_neg hopen]
      refine ⟨rfl, fun g hg => ?_⟩
      rw [hg] at h
      obtain ⟨userId, expiresAt, hrow', hexpires, -⟩ := row_of_grants h
      obtain rfl := Option.some.inj hrow'
      have hle : expiresAt ≤ now := not_lt.mp fun hlt => hopen ⟨rfl, hlt⟩
      rw [hexpires]
      by_cases heq : expiresAt = now
      · rw [JsNumber.exceeds, heq]
        simp
      · rw [JsNumber.exceeds, JsNumber.atLeast, decide_eq_false, Bool.false_and]
        rw [Int.cast_le]
        omega

/-- A row that is consumed grants nothing. -/
theorem grants_consumed {row : TicketRow} {now : ℤ} (h : row.consumedAt = some now) :
    Grants db (some row) none := by
  obtain ⟨userId, expiresAt, consumedAt⟩ := row
  obtain rfl : consumedAt = some now := h
  exact rfl

/-- Rows and grants that are changed for one ticket. -/
theorem grants_update {rows : WsTickets} {granted : Text → Option Grant} {ticket : Text}
    {row : Option TicketRow} {grant : Option Grant} (h : ∀ t, Grants db (rows t) (granted t))
    (hticket : Grants db row grant) (t : Text) :
    Grants db (Function.update rows ticket row t) (Function.update granted ticket grant t) := by
  by_cases ht : t = ticket
  · rw [ht, Function.update_self, Function.update_self]
    exact hticket
  · rw [Function.update_of_ne ht, Function.update_of_ne ht]
    exact h t

/-- An action that issues nothing. -/
theorem Kept.of_keeps (h : Kept db past s) {more : List TicketEvent} {rows : WsTickets} {now : ℤ}
    (hkeeps : ∃ granted, Keeps (SameUser db) now (past ++ more) granted ∧ ∀ t, Grants db (rows t) (granted t))
    (hmore : ∀ event ∈ more, ∀ ticket, event.issues ticket = false) :
    Kept db (past ++ more) { s with rows := rows, clock := now } where
  keeps := hkeeps
  drawn ticket hticket event hevent := by
    rcases List.mem_append.mp hevent with hold | hnew
    · exact h.drawn ticket hticket event hold
    · exact hmore event hnew ticket
  coming row hrow := by
    refine ⟨(h.coming row hrow).1, fun event hevent => ?_⟩
    rcases List.mem_append.mp hevent with hold | hnew
    · exact (h.coming row hrow).2 event hold
    · exact hmore event hnew row.ticket
  distinct := h.distinct

/-- The statement of a call of `validate`. -/
theorem Kept.validate (h : Kept db past s) {ticket : Text} {now : ℤ} (hle : s.clock ≤ now)
    (delivery : Delivery) : Kept db (past ++ s.events db (.validate ticket now delivery)) { s with
      rows := if delivery = .failed then s.rows else (s.rows.consume ticket now).2
      clock := now } := by
  obtain ⟨granted, hkeeps, hgrants⟩ := h.keeps
  have hlater := hkeeps.later hle
  cases delivery with
  | failed =>
    refine h.of_keeps ⟨granted, ?_, hgrants⟩ fun event hevent => (nomatch hevent)
    rw [events, List.append_nil]
    exact hlater
  | answered =>
    refine h.of_keeps ?_ fun event hevent t => by rw [List.mem_singleton.mp hevent]; rfl
    rw [if_neg (by decide), events]
    rcases consume_cases (hgrants ticket) now with
      ⟨g, user, row, hgrant, hsame, hnow, hconsumed, heq⟩ | ⟨heq, hover⟩
    · have hanswer : ticketAnswer (some user) = some user := by
        rw [ticketAnswer, Option.filter_some, if_pos]
        have hne : user ≠ [] := fun hnil => db.user?_ne_nil g.owner (hnil ▸ hsame)
        simpa using hne
      rw [heq, hanswer]
      exact ⟨_, hlater.accept hgrant hsame hnow, grants_update hgrants (grants_consumed hconsumed)⟩
    · rw [heq]
      exact ⟨granted, hlater.refuse le_rfl hover, hgrants⟩
  | lost =>
    refine h.of_keeps ?_ fun event hevent t => ?_
    · rw [if_neg (by decide), events]
      rcases consume_cases (hgrants ticket) now with
        ⟨g, user, row, hgrant, hsame, hnow, hconsumed, heq⟩ | ⟨heq, hover⟩
      · rw [heq, Option.isSome_some, if_pos rfl]
        exact ⟨_, hlater.lose hgrant, grants_update hgrants (grants_consumed hconsumed)⟩
      · rw [heq, Option.isSome_none, if_neg Bool.false_ne_true, List.append_nil]
        exact ⟨granted, hlater, hgrants⟩
    · rw [events] at hevent
      split at hevent
      · rw [List.mem_singleton.mp hevent]
        rfl
      · cases hevent

/-- The statement of a call of `issue`. -/
theorem Kept.insert (h : Kept db past s) {position : ℕ} {row : TicketInsert} {now : ℤ}
    (hle : s.clock ≤ now) (hrow : s.inserting[position]? = some row) (delivery : Delivery) :
    Kept db (past ++ s.events db (.insert position now delivery)) { s with
      rows := (s.insertRow db row delivery).getD s.rows
      inserting := s.inserting.eraseIdx position
      clock := now } := by
  obtain ⟨granted, hkeeps, hgrants⟩ := h.keeps
  have hlater := hkeeps.later hle
  have hmem : row ∈ s.inserting := List.mem_of_getElem? hrow
  -- the other calls have other tickets
  have hothers : ∀ row' ∈ s.inserting.eraseIdx position, row'.ticket ≠ row.ticket := by
    intro row' hrow' heq
    obtain ⟨j, hj, hget⟩ := List.mem_eraseIdx_iff_getElem?.mp hrow'
    have hsame : (s.inserting.map TicketInsert.ticket)[j]? =
        (s.inserting.map TicketInsert.ticket)[position]? := by
      rw [List.getElem?_map, List.getElem?_map, hget, hrow, Option.map_some, Option.map_some, heq]
    have hlt : j < (s.inserting.map TicketInsert.ticket).length := by
      rw [List.length_map]
      exact (List.getElem?_eq_some_iff.mp hget).1
    exact hj ((List.getElem?_inj hlt h.distinct).mp hsame)
  have hdistinct : ((s.inserting.eraseIdx position).map TicketInsert.ticket).Nodup :=
    h.distinct.sublist ((List.eraseIdx_sublist _ _).map _)
  cases hinsert : s.insertRow db row delivery with
  | none =>
    have hevents : s.events db (.insert position now delivery) = [] := by
      rw [events, hrow]
      dsimp only
      rw [hinsert]
      rfl
    rw [hevents, List.append_nil]
    exact ⟨⟨granted, hlater, hgrants⟩, h.drawn, fun row' hrow' =>
      h.coming row' (List.mem_of_mem_eraseIdx hrow'), hdistinct⟩
  | some rows' =>
    have hevents : s.events db (.insert position now delivery) =
        [.issued row.ticket row.userId (.finite row.expiresAt.ms)] := by
      rw [events, hrow]
      dsimp only
      rw [hinsert]
      rfl
    have hmade : s.rows.insert db row.ticket row.userId (toISOString row.expiresAt) = some rows' := by
      cases delivery with
      | failed => cases hinsert
      | _ => exact hinsert
    obtain ⟨user, instant, huser, hinstant, rfl⟩ := insert_cases hmade
    obtain rfl := db.timestamptz_toISOString _ _ hinstant
    obtain ⟨hdrawn, hfresh⟩ := h.coming row hmem
    rw [hevents, Option.getD_some]
    refine ⟨⟨_, hlater.issue hfresh, grants_update hgrants ⟨row.userId, rfl, huser⟩⟩, ?_, ?_, hdistinct⟩
    · intro ticket hticket event hevent
      rcases List.mem_append.mp hevent with hold | hnew
      · exact h.drawn ticket hticket event hold
      · rw [List.mem_singleton.mp hnew]
        refine decide_eq_false ?_
        rintro rfl
        exact hticket hdrawn
    · intro row' hrow'
      obtain ⟨hdrawn', hfresh'⟩ := h.coming row' (List.mem_of_mem_eraseIdx hrow')
      refine ⟨hdrawn', fun event hevent => ?_⟩
      rcases List.mem_append.mp hevent with hold | hnew
      · exact hfresh' event hold
      · rw [List.mem_singleton.mp hnew]
        exact decide_eq_false (Ne.symm (hothers row' hrow'))

/-- A call of `issue`, up to its statement. -/
theorem Kept.issue (h : Kept db past s) {ticket userId : Text} {ttlSeconds : JsNumber} {now : ℤ}
    (hle : s.clock ≤ now) (hdrawn : ticket ∉ s.drawn) : Kept db past { s with
      inserting := s.inserting ++ (ticketInsert ticket userId ttlSeconds now).toList
      clock := now
      drawn := ticket :: s.drawn } := by
  obtain ⟨granted, hkeeps, hgrants⟩ := h.keeps
  have hnew : ∀ row ∈ (ticketInsert ticket userId ttlSeconds now).toList, row.ticket = ticket := by
    intro row hrow
    rw [Option.mem_toList, ticketInsert] at hrow
    obtain ⟨expiresAt, -, rfl⟩ := Option.map_eq_some_iff.mp hrow
    rfl
  refine ⟨⟨granted, hkeeps.later hle, hgrants⟩, fun t ht => ?_, fun row hrow => ?_, ?_⟩
  · exact h.drawn t fun hmem => ht (List.mem_cons_of_mem _ hmem)
  · rcases List.mem_append.mp hrow with hold | hlast
    · obtain ⟨hin, hfresh⟩ := h.coming row hold
      exact ⟨List.mem_cons_of_mem _ hin, hfresh⟩
    · rw [hnew row hlast]
      exact ⟨List.mem_cons_self, h.drawn ticket hdrawn⟩
  · rw [List.map_append, List.nodup_append]
    refine ⟨h.distinct, ?_, fun t ht t' ht' heq => ?_⟩
    · cases ticketInsert ticket userId ttlSeconds now with
      | none => exact List.nodup_nil
      | some row => exact List.nodup_singleton _
    · obtain ⟨row, hrow, rfl⟩ := List.mem_map.mp ht
      obtain ⟨row', hrow', rfl⟩ := List.mem_map.mp ht'
      rw [hnew row' hrow'] at heq
      exact hdrawn (heq ▸ (h.coming row hrow).1)

/-- **One action** keeps the history. -/
theorem Kept.step (h : Kept db past s) (hstep : s.step db a = some s') :
    Kept db (past ++ s.events db a) s' := by
  obtain ⟨htime, hcases⟩ := step_cases hstep
  cases a with
  | issue ticket userId ttlSeconds now =>
    obtain ⟨hdrawn, rfl⟩ := hcases
    rw [events, List.append_nil]
    exact h.issue htime hdrawn
  | insert position now delivery =>
    obtain ⟨row, hrow, rfl⟩ := hcases
    exact h.insert htime hrow delivery
  | validate ticket now delivery =>
    obtain rfl := hcases
    exact h.validate htime delivery

/-- The history of a run that starts with an empty table at a time. -/
def history (db : TicketDatabase) (clock : ℤ) (actions : List TicketAction) : List TicketEvent :=
  outputs (step db) (events db) (started clock) actions

/-- **Every run keeps its history.** -/
theorem kept_of_run {clock : ℤ} {actions : List TicketAction}
    (hrun : runFrom (step db) (started clock) actions = some s) :
    Kept db (history db clock actions) s := by
  have hinit : Kept db [] (started clock) :=
    ⟨⟨fun _ => none, Keeps.start, fun _ => rfl⟩, fun _ _ _ h => (nomatch h), fun _ h => (nomatch h),
      List.nodup_nil⟩
  exact run_outputs (fun _ _ _ _ h _ hstep => Kept.step h hstep) hinit along_true hrun

end TicketTable

end DreamWeaver.Tickets
