import DreamWeaver.Sessions.RoundTrip
import DreamWeaver.Sessions.Expiry
import Mathlib.Data.List.Forall2

/-! # The two session stores

`InMemorySessionState` and `RedisSessionState` answer alike as long as every state survives the trip
through Redis, a session stays with its user, no patch removes a value and no rollback goes back
through the whole history. `Mirrors` relates the two stores, each operation preserves it, and
related stores give the same answers, up to `updatedAt`. -/

namespace DreamWeaver.Sessions

open RedisSessionState

variable {otherFormats : Text → Option Time}

/-! ## Documents that represent states -/

/-- The document of a snapshot: it reads back as the snapshot, up to `updatedAt`, and recoding does
not change its entries. -/
structure Represents (otherFormats : Text → Option Time) (document : Record Json)
    (s : SessionStateSnapshot) : Prop where
  reads : ∀ key, key ≠ lit "updatedAt" → key ≠ lit "history" →
    (document.get? key).map (revive otherFormats (some key)) =
      (s.fields.get? key).bind JsData.defined
  stable : ∀ key, key ≠ lit "history" → (document.get? key).map Json.recode = document.get? key

/-- An element of a history represents a snapshot. -/
def ItemRepresents (otherFormats : Text → Option Time) (item : Json) (s : SessionStateSnapshot) :
    Prop :=
  ∃ document, item = .obj document ∧ Represents otherFormats document s

/-- The history of a document: none, or a proper array of the snapshots of a history. -/
def HistoryRepresents (otherFormats : Text → Option Time) (document : Record Json) :
    Option (List SessionStateSnapshot) → Prop
  | none => document.get? (lit "history") = none
  | some history => history ≠ [] ∧ ∃ items, document.get? (lit "history") = some (.arr items) ∧
      List.Forall₂ (ItemRepresents otherFormats) items history

section

variable {document other : Record Json} {s : SessionStateSnapshot} {item : Json}

/-- Only the entries outside the history count. -/
theorem Represents.congr (h : Represents otherFormats document s)
    (hsame : ∀ key, key ≠ lit "history" → other.get? key = document.get? key) :
    Represents otherFormats other s where
  reads key hupdated hhistory := by
    rw [hsame key hhistory]
    exact h.reads key hupdated hhistory
  stable key hhistory := by
    rw [hsame key hhistory]
    exact h.stable key hhistory

/-- A document stands for a touched state as for the state itself. -/
theorem Represents.touched (h : Represents otherFormats document s) (now : Time) :
    Represents otherFormats document (s.touched now) where
  reads key hupdated hhistory := by
    rw [SessionStateSnapshot.get?_touched _ _ hupdated]
    exact h.reads key hupdated hhistory
  stable := h.stable

/-- A document that represents a snapshot is written as it is. -/
theorem Represents.recode (h : Represents otherFormats document s) :
    Represents otherFormats (recodeFields document) s :=
  h.congr fun key hhistory => by rw [get?_recodeFields, h.stable key hhistory]

theorem ItemRepresents.recode (h : ItemRepresents otherFormats item s) :
    ItemRepresents otherFormats item.recode s := by
  obtain ⟨document, rfl, hdocument⟩ := h
  exact ⟨recodeFields document, by rw [Json.recode], hdocument.recode⟩

/-- A history with an element is written as an array. -/
theorem recode_arr {items : List Json} (hne : items ≠ []) :
    (Json.arr items).recode = .arr (items.map Json.recode) := by
  cases items with
  | nil => exact absurd rfl hne
  | cons j js => rw [Json.recode, recodeItems_eq_map, List.map_cons]

/-- The written history represents the same snapshots. -/
theorem forall₂_recode {items : List Json} {history : List SessionStateSnapshot}
    (h : List.Forall₂ (ItemRepresents otherFormats) items history) :
    List.Forall₂ (ItemRepresents otherFormats) (items.map Json.recode) history := by
  rw [List.forall₂_map_left_iff]
  exact h.imp fun _ _ => ItemRepresents.recode

/-- The elements of the history of a document represent those of the state. -/
theorem HistoryRepresents.forall₂ {history : Option (List SessionStateSnapshot)}
    (h : HistoryRepresents otherFormats document history) :
    List.Forall₂ (ItemRepresents otherFormats) (historyOf document) (history.getD []) := by
  cases history with
  | none =>
    rw [historyOf, show document.get? (lit "history") = none from h]
    exact .nil
  | some history =>
    obtain ⟨-, items, hitems, hforall⟩ := h
    rw [historyOf, hitems]
    exact hforall

/-- Joining the history keeps the two histories alike. -/
theorem forall₂_pushHistory {history : Option (List SessionStateSnapshot)}
    (hdocument : Represents otherFormats document s)
    (hhistory : HistoryRepresents otherFormats document history) :
    List.Forall₂ (ItemRepresents otherFormats) (pushHistory document)
      ((if 10 ≤ (history.getD []).length then (history.getD []).drop 1 else history.getD []) ++
        [s]) := by
  have hforall := hhistory.forall₂
  have hlength := hforall.length_eq
  have hcurrent : ItemRepresents otherFormats (.obj (document.without (lit "history"))) s :=
    ⟨_, rfl, hdocument.congr fun key hkey => by rw [Record.get?_without, if_neg hkey]⟩
  have hjoined : List.Forall₂ (ItemRepresents otherFormats)
      (historyOf document ++ [.obj (document.without (lit "history"))]) (history.getD [] ++ [s]) :=
    List.rel_append hforall (.cons hcurrent .nil)
  rw [pushHistory, List.length_append, List.length_singleton, hlength]
  by_cases hfull : 10 ≤ (history.getD []).length
  · rw [if_pos (Nat.lt_succ_of_le hfull), if_pos hfull,
      ← List.drop_append_of_le_length (by omega)]
    exact List.forall₂_drop 1 hjoined
  · rw [if_neg (by omega), if_neg hfull]
    exact hjoined

/-- The history after a join is not empty. -/
theorem pushHistory_ne_nil : pushHistory document ≠ [] := by
  intro h
  have hlength := congrArg List.length h
  rw [pushHistory] at hlength
  split at hlength
  · rename_i hlong
    rw [List.length_drop, List.length_nil] at hlength
    omega
  · simp at hlength

/-- A document written with the history of the one before it. -/
theorem historyRepresents_push {history : Option (List SessionStateSnapshot)}
    {newState : Record Json} (hdocument : Represents otherFormats document s)
    (hhistory : HistoryRepresents otherFormats document history) :
    HistoryRepresents otherFormats (recodeFields (withHistory (some document) newState))
      (some ((if 10 ≤ (history.getD []).length then (history.getD []).drop 1
        else history.getD []) ++ [s])) := by
  refine ⟨by simp, (pushHistory document).map Json.recode, ?_, ?_⟩
  · rw [get?_recodeFields, withHistory, Record.get?_spread_singleton, if_pos rfl, Option.map_some,
      recode_arr pushHistory_ne_nil]
  · exact forall₂_recode (forall₂_pushHistory hdocument hhistory)

/-- The payload of `set` represents a state whose values survive. -/
theorem represents_setPayload {state : SessionState} (setAt : Time)
    (h : ∀ e ∈ state.fields, e.1 ≠ lit "updatedAt" → EntrySurvives otherFormats e) :
    Represents otherFormats (setPayload setAt state) state.toSessionStateSnapshot where
  reads key hupdated _ := (setPayload_entry setAt h hupdated).2
  stable key _ := by
    by_cases hupdated : key = lit "updatedAt"
    · subst hupdated
      rw [setPayload, get?_fieldsToJson (state.touched setAt).nodup,
        SessionStateSnapshot.touched, Record.get?_spread_singleton, if_pos rfl]
      rfl
    · exact (setPayload_entry setAt h hupdated).1

/-- The entries of the patch survive, and it has an `undefined` one only where the state has no value
that it would have to remove. -/
def PatchSurvives (otherFormats : Text → Option Time) (s : SessionStateSnapshot)
    (p : SessionStatePatch) : Prop :=
  ∀ e ∈ p.fields, EntrySurvives otherFormats e ∧
    (e.2 = .undefined → (s.fields.get? e.1).bind JsData.defined = none)

/-- The payload of a patch, under a key. -/
theorem get?_patchPayload {p : SessionStatePatch} {now : Time} {key : Text}
    (hupdated : key ≠ lit "updatedAt") :
    (patchPayload now p).get? key = (p.fields.get? key).bind JsData.toJson := by
  rw [patchPayload, get?_fieldsToJson (Record.nodup_spread p.nodup Record.nodup_singleton),
    Record.get?_spread_singleton, if_neg hupdated]

/-- The script reads a patch whose entries survive. -/
theorem fieldsReadable_patchPayload {p : SessionStatePatch} {now : Time}
    (h : PatchSurvives otherFormats s p) : fieldsReadable (patchPayload now p) = true := by
  have hsurvive : FieldsSurvive otherFormats
      (p.fields.spread [(lit "updatedAt", .date (some now))]) := by
    rw [fieldsSurvive_iff]
    intro e he
    rcases List.mem_append.mp he with he | he
    · rw [List.mem_singleton.mp he]
      exact ⟨by decide, show isDateKey (some (lit "updatedAt")) = true by decide⟩
    · exact (h e (List.mem_of_mem_filter he)).1
  exact hsurvive.spec.1

/-- A patched document represents the patched state. -/
theorem represents_patch {p : SessionStatePatch} (now : Time)
    (hdocument : Represents otherFormats document s) (h : PatchSurvives otherFormats s p) :
    Represents otherFormats (document.spread (patchPayload now p)) (s.patched p) where
  reads key hupdated hhistory := by
    have hreads := hdocument.reads key hupdated hhistory
    rw [Record.get?_spread, SessionStateSnapshot.get?_patched, get?_patchPayload hupdated]
    cases hv : p.fields.get? key with
    | none => exact hreads
    | some v =>
      obtain ⟨hentry, hundefined⟩ := h _ (Record.mem_of_get? hv)
      by_cases hdefined : v = .undefined
      · subst hdefined
        exact hreads.trans (hundefined rfl)
      · obtain ⟨j, hj⟩ := exists_toJson hdefined
        obtain ⟨-, -, hrevive⟩ := ((entrySurvives_iff hdefined).mp hentry).2.spec hj
        rw [Option.bind_some, hj, Option.some_or, Option.some_or, Option.map_some, hrevive,
          Option.bind_some, defined_of_ne hdefined]
  stable key hhistory := by
    rw [Record.get?_spread]
    by_cases hupdated : key = lit "updatedAt"
    · subst hupdated
      rw [patchPayload, get?_fieldsToJson (Record.nodup_spread p.nodup Record.nodup_singleton),
        Record.get?_spread_singleton, if_pos rfl]
      rfl
    · have hstable := hdocument.stable key hhistory
      rw [get?_patchPayload hupdated]
      cases hv : p.fields.get? key with
      | none => exact hstable
      | some v =>
        obtain ⟨hentry, -⟩ := h _ (Record.mem_of_get? hv)
        by_cases hdefined : v = .undefined
        · subst hdefined
          exact hstable
        · obtain ⟨j, hj⟩ := exists_toJson hdefined
          obtain ⟨-, hrecode, -⟩ := ((entrySurvives_iff hdefined).mp hentry).2.spec hj
          rw [Option.bind_some, hj, Option.some_or, Option.map_some, hrecode]

end

/-! ## Going back -/

/-- The last elements of two related lists. -/
theorem forall₂_concat {α β : Type} {R : α → β → Prop} {xs : List α} {ys : List β} {y : β}
    (h : List.Forall₂ R xs (ys ++ [y])) : ∃ xs' x, xs = xs' ++ [x] ∧ List.Forall₂ R xs' ys ∧ R x y := by
  have hrev := List.forall₂_reverse_iff.mpr h
  rw [List.reverse_append, List.reverse_singleton, List.singleton_append] at hrev
  obtain ⟨x, xs', hxy, hrest, heq⟩ := List.forall₂_cons_right_iff.mp hrev
  refine ⟨xs'.reverse, x, ?_, ?_, hxy⟩
  · rw [← List.reverse_reverse xs, heq, List.reverse_cons]
  · rw [← List.forall₂_reverse_iff, List.reverse_reverse]
    exact hrest

/-- Fewer steps than there are snapshots lead to related snapshots and leave some. -/
theorem rollbackSteps_rel {steps : ℕ} {items : List Json} {history : List SessionStateSnapshot}
    {item : Option Json} {snapshot : Option SessionStateSnapshot}
    (h : List.Forall₂ (ItemRepresents otherFormats) items history) (hsteps : steps < history.length)
    (htarget : Option.Rel (ItemRepresents otherFormats) item snapshot) :
    Option.Rel (ItemRepresents otherFormats) (rollbackSteps steps item items).1
        (popSteps steps snapshot history).1 ∧
      List.Forall₂ (ItemRepresents otherFormats) (rollbackSteps steps item items).2
        (popSteps steps snapshot history).2 ∧
      (popSteps steps snapshot history).2 ≠ [] ∧
      ∀ s, s ∈ (popSteps steps snapshot history).1 ∨ s ∈ (popSteps steps snapshot history).2 →
        s ∈ snapshot ∨ s ∈ history := by
  induction steps generalizing items history item snapshot with
  | zero => exact ⟨htarget, h, List.ne_nil_of_length_pos hsteps, fun s hs => hs⟩
  | succ steps ih =>
    obtain rfl | ⟨rest, last, rfl⟩ := List.eq_nil_or_concat history
    · exact absurd hsteps (by simp)
    · rw [List.concat_eq_append] at h hsteps ⊢
      obtain ⟨rest', last', rfl, hrest, hlast⟩ := forall₂_concat h
      rw [List.length_append, List.length_singleton] at hsteps
      have hleft : ¬ rest'.isEmpty = true := by
        rw [List.isEmpty_iff_length_eq_zero, hrest.length_eq]
        omega
      rw [rollbackSteps, popSteps, List.getLast?_concat, List.getLast?_concat]
      dsimp only
      rw [List.dropLast_concat, List.dropLast_concat, if_neg hleft]
      obtain ⟨htarget', hforall, hne, hmem⟩ := ih hrest (by omega) (.some hlast)
      refine ⟨htarget', hforall, hne, fun s hs => Or.inr ?_⟩
      rcases hmem s hs with hs | hs
      · cases hs
        exact List.mem_append_right _ (List.mem_singleton_self _)
      · exact List.mem_append_left _ hs

/-! ## Stores that mirror each other -/

/-- A document represents a state with its history, all of one user. -/
structure StateRepresents (otherFormats : Text → Option Time) (document : Record Json)
    (state : SessionState) : Prop where
  snapshot : Represents otherFormats document state.toSessionStateSnapshot
  history : HistoryRepresents otherFormats document state.history
  users : ∀ s ∈ state.history.getD [], s.userId = state.userId
  user : state.userId ≠ []

/-- The two stores hold the same sessions under the ids, each with one of the users that own it, as
long as nothing expires. -/
structure Mirrors (otherFormats : Text → Option Time) (ids : Text → Prop)
    (owned : Text → Text → Prop) (horizon : ℤ)
    (db : RedisStore) (store : InMemorySessionState.Store) : Prop where
  lookup : ∀ s, ids s → ∀ t : Time, t.ms ≤ horizon →
    db.lookups.read t (getLookupKey s) = (store s).map fun state => state.userId
  session : ∀ s state, ids s → store s = some state → ∃ document,
    StateRepresents otherFormats document state ∧
      ∀ t : Time, t.ms ≤ horizon →
        db.sessions.read t (getStrictKey state.userId s) = some document
  owner : ∀ s state, ids s → store s = some state → owned state.userId s
  absent : ∀ s u, ids s → owned u s → (∀ state, store s = some state → state.userId ≠ u) →
    ∀ t : Time, t.ms ≤ horizon → db.sessions.read t (getStrictKey u s) = none
  legacy : ∀ s, ids s → ∀ t : Time, t.ms ≤ horizon → db.sessions.read t (getLegacyKey s) = none

/-- The ids of the sessions and the pairs of a user and an id under which they are set: no two pairs
are joined to the same text, and no id is a joined pair. -/
structure KeysApart (ids : Text → Prop) (owned : Text → Text → Prop) : Prop where
  strict : ∀ {u s v t}, owned u s → owned v t → s ≠ t → u ++ 58 :: s ≠ v ++ 58 :: t
  legacy : ∀ {s v t}, ids s → owned v t → s ≠ v ++ 58 :: t

section

variable {ids : Text → Prop} {owned : Text → Text → Prop} {s t u v : Text}

theorem KeysApart.getStrictKey_ne (h : KeysApart ids owned) (hs : owned u s) (ht : owned v t)
    (hne : s ≠ t) : getStrictKey u s ≠ getStrictKey v t := fun heq =>
  h.strict hs ht hne (getStrictKey_eq_iff.mp heq)

theorem KeysApart.getLegacyKey_ne (h : KeysApart ids owned) (hs : ids s) (ht : owned v t) :
    getLegacyKey s ≠ getStrictKey v t := fun heq =>
  h.legacy hs ht (getLegacyKey_eq_getStrictKey_iff.mp heq)

end

section

variable {ids : Text → Prop} {owned : Text → Text → Prop} {horizon : ℤ} {db : RedisStore}
  {store : InMemorySessionState.Store} {s : Text} {now : Time} {state : SessionState}
  {document : Record Json}

/-- The empty stores mirror each other. -/
theorem mirrors_empty :
    Mirrors otherFormats ids owned horizon RedisSessionState.empty fun _ => none where
  lookup _ _ _ _ := rfl
  session _ _ _ h := by cases h
  owner _ _ _ h := by cases h
  absent _ _ _ _ _ _ _ := rfl
  legacy _ _ _ _ := rfl

/-- A session that is there is found under its key. -/
theorem Mirrors.resolveKey (h : Mirrors otherFormats ids owned horizon db store) (hs : ids s)
    (hnow : now.ms ≤ horizon) (hstate : store s = some state) :
    resolveKey db now s = getStrictKey state.userId s := by
  obtain ⟨document, hrep, -⟩ := h.session s state hs hstate
  exact resolveKey_eq_getStrictKey_iff.mpr ⟨hrep.user, by rw [h.lookup s hs now hnow, hstate]; rfl⟩

/-- A session that is not there resolves to its legacy key, under which there is nothing. -/
theorem Mirrors.resolveKey_none (h : Mirrors otherFormats ids owned horizon db store) (hs : ids s)
    (hnow : now.ms ≤ horizon) (hstate : store s = none) :
    RedisSessionState.resolveKey db now s = getLegacyKey s := by
  rw [RedisSessionState.resolveKey, h.lookup s hs now hnow, hstate]
  rfl

/-- **Writing a session** on both sides: a document that represents the new state. -/
theorem Mirrors.write (h : Mirrors otherFormats ids owned horizon db store) (hkeys : KeysApart ids owned)
    (hs : ids s) (hrep : StateRepresents otherFormats document state)
    (howned : owned state.userId s)
    (hsame : ∀ current, store s = some current → current.userId = state.userId)
    (hhorizon : horizon ≤ now.ms + ttl) {db' : RedisStore}
    (hsessions : db'.sessions = setEx db.sessions now (getStrictKey state.userId s) document)
    (hlookup : ∀ t : Time, t.ms ≤ horizon →
      db'.lookups.read t (getLookupKey s) = some state.userId)
    (hlookups : ∀ other, other ≠ s → ∀ t : Time,
      db'.lookups.read t (getLookupKey other) = db.lookups.read t (getLookupKey other)) :
    Mirrors otherFormats ids owned horizon db' (Function.update store s (some state)) where
  lookup other hother t ht := by
    by_cases heq : other = s
    · subst heq
      rw [Function.update_self, hlookup t ht]
      rfl
    · rw [Function.update_of_ne heq, hlookups other heq]
      exact h.lookup other hother t ht
  session other current hother hcurrent := by
    by_cases heq : other = s
    · subst heq
      rw [Function.update_self, Option.some_inj] at hcurrent
      subst hcurrent
      refine ⟨document, hrep, fun t ht => ?_⟩
      rw [hsessions, read_setEx_self, if_pos (ht.trans hhorizon)]
    · rw [Function.update_of_ne heq] at hcurrent
      obtain ⟨document', hrep', hread⟩ := h.session other current hother hcurrent
      refine ⟨document', hrep', fun t ht => ?_⟩
      rw [hsessions, read_setEx_of_ne
        (hkeys.getStrictKey_ne (h.owner other current hother hcurrent) howned heq)]
      exact hread t ht
  owner other current hother hcurrent := by
    by_cases heq : other = s
    · subst heq
      rw [Function.update_self, Option.some_inj] at hcurrent
      exact hcurrent ▸ howned
    · rw [Function.update_of_ne heq] at hcurrent
      exact h.owner other current hother hcurrent
  absent other u hother hu' hu t ht := by
    by_cases heq : other = s
    · subst heq
      have hne : state.userId ≠ u := hu state (Function.update_self ..)
      have hkey : getStrictKey u other ≠ getStrictKey state.userId other := fun hkey =>
        hne (List.append_cancel_right (getStrictKey_eq_iff.mp hkey)).symm
      rw [hsessions, read_setEx_of_ne hkey]
      exact h.absent other u hother hu' (fun current hcurrent =>
        (hsame current hcurrent).symm ▸ hne) t ht
    · rw [hsessions, read_setEx_of_ne (hkeys.getStrictKey_ne hu' howned heq)]
      refine h.absent other u hother hu' (fun current hcurrent => hu current ?_) t ht
      rw [Function.update_of_ne heq, hcurrent]
  legacy other hother t ht := by
    rw [hsessions, read_setEx_of_ne (hkeys.getLegacyKey_ne hother howned)]
    exact h.legacy other hother t ht

/-- What a step must meet: a state and a patch survive the trip, a patch removes no value, a session
stays with its user and starts without a history, and a rollback leaves some of it. -/
def Agreeable (otherFormats : Text → Option Time) (store : InMemorySessionState.Store) :
    SessionOp → Prop
  | .get _ => True
  | .set sessionId state => state.userId ≠ [] ∧
      (∀ e ∈ state.fields, e.1 ≠ lit "updatedAt" → EntrySurvives otherFormats e) ∧
      match store sessionId with
      | none => state.history = none
      | some current => current.userId = state.userId
  | .patch sessionId p =>
    match store sessionId with
    | none => True
    | some current => PatchSurvives otherFormats current.toSessionStateSnapshot p
  | .rollback sessionId steps =>
    match (store sessionId).bind SessionState.history with
    | none => True
    | some history => steps < history.length
  | .delete _ => True

/-- The lookup keys after a write of `set`. -/
theorem lookups_set (hhorizon : horizon ≤ now.ms + ttl) {u : Text} (t : Time)
    (ht : t.ms ≤ horizon) :
    (setEx db.lookups now (getLookupKey s) u).read t (getLookupKey s) = some u := by
  rw [read_setEx_self, if_pos (ht.trans hhorizon)]

/-- Appending to a history keeps it the user's own. -/
theorem users_push {history : Option (List SessionStateSnapshot)} {last : SessionStateSnapshot}
    {u : Text} (h : ∀ s ∈ history.getD [], s.userId = u) (hlast : last.userId = u) :
    ∀ s ∈ (if 10 ≤ (history.getD []).length then (history.getD []).drop 1 else history.getD []) ++
      [last], s.userId = u := by
  intro s hs
  rcases List.mem_append.mp hs with hs | hs
  · refine h s ?_
    split at hs
    · exact List.mem_of_mem_drop hs
    · exact hs
  · rw [List.mem_singleton.mp hs]
    exact hlast

/-- The history after the current state has joined it: `[...history, snapshot]`. -/
def pushed (current : SessionState) : List SessionStateSnapshot :=
  (if 10 ≤ (current.history.getD []).length then (current.history.getD []).drop 1
    else current.history.getD []) ++ [current.toSessionStateSnapshot]

/-- A new state written over the current one represents it with its history. -/
theorem StateRepresents.push (now : Time) {current : SessionState} {newState : Record Json}
    {next : SessionStateSnapshot} (h : StateRepresents otherFormats document current)
    (hnext : Represents otherFormats newState next) (huser : current.userId = next.userId) :
    StateRepresents otherFormats (recodeFields (withHistory (some document) newState))
      { next.touched now with history := some (pushed current) } where
  snapshot := (hnext.congr fun _ hkey => get?_withHistory hkey).recode.touched now
  history := historyRepresents_push h.snapshot h.history
  users := users_push (fun s hs => (h.users s hs).trans huser) huser
  user := fun hu => h.user (huser.trans hu)

/-- `set` keeps the stores alike. -/
theorem Mirrors.set (h : Mirrors otherFormats ids owned horizon db store) (hkeys : KeysApart ids owned)
    (hs : ids s) (howned : owned state.userId s) (hnow : now.ms ≤ horizon)
    (hhorizon : horizon ≤ now.ms + ttl) (hcond : Agreeable otherFormats store (.set s state)) :
    Mirrors otherFormats ids owned horizon (RedisSessionState.set db now s state).2
      (InMemorySessionState.set store now s state) := by
  obtain ⟨huser, hsurvive, hcurrent⟩ := hcond
  have hread := (fieldsSurvive_touched now hsurvive).spec.1
  have hpayload := represents_setPayload now hsurvive
  have hother : ∀ other, other ≠ s → ∀ t : Time,
      (setEx db.lookups now (getLookupKey s) state.userId).read t (getLookupKey other) =
        db.lookups.read t (getLookupKey other) :=
    fun other hne t => read_setEx_of_ne fun heq => hne (getLookupKey_eq_iff.mp heq)
  rw [set_of_readable hread, InMemorySessionState.set]
  cases hstore : store s with
  | none =>
    rw [hstore] at hcurrent
    dsimp only at hcurrent
    have hhistory : Record.get? (recodeFields (setPayload now state)) (lit "history") = none := by
      rw [get?_recodeFields, get?_setPayload (by decide), state.no_history]
      rfl
    have hstate : StateRepresents otherFormats (recodeFields (setPayload now state))
        { state.touched now with history := state.history } := by
      rw [hcurrent]
      exact ⟨hpayload.recode.touched now, hhistory, by simp, huser⟩
    rw [h.absent s state.userId hs howned (by simp [hstore]) now hnow]
    refine h.write hkeys hs hstate howned ?_ hhorizon ?_ ?_ ?_
    · simp [hstore]
    · rfl
    · exact lookups_set hhorizon
    · exact hother
  | some current =>
    rw [hstore] at hcurrent
    dsimp only at hcurrent
    obtain ⟨document, hrep, hdocument⟩ := h.session s current hs hstore
    rw [hcurrent] at hdocument
    rw [hdocument now hnow]
    refine h.write hkeys hs (hrep.push now hpayload hcurrent) howned ?_ hhorizon ?_ ?_ ?_
    · intro current' hcurrent'
      rw [hstore, Option.some_inj] at hcurrent'
      exact hcurrent' ▸ hcurrent
    · rfl
    · exact lookups_set hhorizon
    · exact hother

/-- `patch` keeps the stores alike. -/
theorem Mirrors.patch {p : SessionStatePatch} (h : Mirrors otherFormats ids owned horizon db store)
    (hkeys : KeysApart ids owned) (hs : ids s) (hnow : now.ms ≤ horizon)
    (hhorizon : horizon ≤ now.ms + ttl) (hcond : Agreeable otherFormats store (.patch s p)) :
    Mirrors otherFormats ids owned horizon (RedisSessionState.patch db now s p).2
      (InMemorySessionState.patch store now s p).2 := by
  rw [RedisSessionState.patch, InMemorySessionState.patch]
  rw [Agreeable] at hcond
  cases hstore : store s with
  | none =>
    rw [h.resolveKey_none hs hnow hstore, patchKey_eq_self (Or.inl (h.legacy s hs now hnow))]
    exact h
  | some current =>
    rw [hstore] at hcond
    dsimp only at hcond
    obtain ⟨document, hrep, hdocument⟩ := h.session s current hs hstore
    have hpatched := represents_patch now hrep.snapshot hcond
    rw [h.resolveKey hs hnow hstore,
      patchKey_of_readable (hdocument now hnow) (fieldsReadable_patchPayload hcond)]
    dsimp only
    rw [InMemorySessionState.set, hstore]
    refine h.write hkeys hs (hrep.push now hpatched rfl)
      (h.owner s current hs hstore) ?_ hhorizon ?_ ?_ ?_
    · intro current' hcurrent'
      rw [hstore, Option.some_inj] at hcurrent'
      exact hcurrent' ▸ rfl
    · rfl
    · intro t ht
      dsimp only
      rw [h.lookup s hs t ht, hstore]
      rfl
    · exact fun _ _ _ => rfl

/-- The document that the script writes for a snapshot represents the restored state. -/
theorem stateRepresents_restored (now : Time) {current : SessionState} {fields : Record Json}
    {snapshot : SessionStateSnapshot} {rest : List Json} {history : List SessionStateSnapshot}
    (hrep : StateRepresents otherFormats document current)
    (hfields : Represents otherFormats fields snapshot)
    (hrest : List.Forall₂ (ItemRepresents otherFormats) rest history) (hne : history ≠ [])
    (huser : snapshot.userId = current.userId)
    (husers : ∀ s ∈ history, s.userId = current.userId) {restored : Record Json}
    (hrestored : ∀ key, restored.get? key = if key = lit "updatedAt" then document.get? key
      else (fields.spread [(lit "history", .arr rest)]).get? key) :
    StateRepresents otherFormats (recodeFields restored)
      { snapshot.touched now with history := some history } where
  snapshot := by
    refine Represents.recode ⟨fun key hupdated hhistory => ?_, fun key hhistory => ?_⟩
    · rw [hrestored, if_neg hupdated, Record.get?_spread_singleton, if_neg hhistory,
        SessionStateSnapshot.get?_touched _ _ hupdated]
      exact hfields.reads key hupdated hhistory
    · rw [hrestored]
      by_cases hupdated : key = lit "updatedAt"
      · rw [if_pos hupdated]
        exact hrep.snapshot.stable key hhistory
      · rw [if_neg hupdated, Record.get?_spread_singleton, if_neg hhistory]
        exact hfields.stable key hhistory
  history := by
    have hrest' : rest ≠ [] := by
      rintro rfl
      exact hne (List.forall₂_nil_left_iff.mp hrest)
    refine ⟨hne, rest.map Json.recode, ?_, forall₂_recode hrest⟩
    rw [get?_recodeFields, hrestored, if_neg (by decide), Record.get?_spread_singleton,
      if_pos rfl, Option.map_some, recode_arr hrest']
  users s hs := (husers s hs).trans huser.symm
  user := fun hu => hrep.user (huser.symm.trans hu)

/-- Writing a restored snapshot back keeps the stores alike. -/
theorem Mirrors.restore {current : SessionState} {snapshot : SessionStateSnapshot}
    {history : List SessionStateSnapshot}
    (h : Mirrors otherFormats ids owned horizon db store) (hkeys : KeysApart ids owned) (hs : ids s)
    (hhorizon : horizon ≤ now.ms + ttl) (hstore : store s = some current)
    (huser : snapshot.userId = current.userId) {restored : Record Json}
    (hstate : StateRepresents otherFormats (recodeFields restored)
      { snapshot.touched now with history := some history }) :
    Mirrors otherFormats ids owned horizon
      { db with
        sessions := setEx db.sessions now (getStrictKey current.userId s) (recodeFields restored) }
      (Function.update store s (some { snapshot.touched now with history := some history })) := by
  have howned : owned snapshot.userId s := huser ▸ h.owner s current hs hstore
  refine h.write hkeys hs hstate howned ?_ hhorizon ?_ ?_ ?_
  · intro current' hcurrent'
    rw [hstore, Option.some_inj] at hcurrent'
    exact hcurrent' ▸ huser.symm
  · exact huser ▸ rfl
  · intro t ht
    dsimp only
    rw [h.lookup s hs t ht, hstore]
    exact congrArg some huser.symm
  · exact fun _ _ _ => rfl

/-- `rollback` keeps the stores alike. -/
theorem Mirrors.rollback {steps : ℕ} (h : Mirrors otherFormats ids owned horizon db store)
    (hkeys : KeysApart ids owned) (hs : ids s) (hnow : now.ms ≤ horizon)
    (hhorizon : horizon ≤ now.ms + ttl) (hcond : Agreeable otherFormats store (.rollback s steps)) :
    Mirrors otherFormats ids owned horizon (RedisSessionState.rollback db now s steps).2
      (InMemorySessionState.rollback store now s steps) := by
  rw [RedisSessionState.rollback, InMemorySessionState.rollback, rollbackKey]
  rw [Agreeable] at hcond
  cases hstore : store s with
  | none =>
    rw [h.resolveKey_none hs hnow hstore, h.legacy s hs now hnow]
    exact h
  | some current =>
    obtain ⟨document, hrep, hdocument⟩ := h.session s current hs hstore
    rw [h.resolveKey hs hnow hstore, hdocument now hnow]
    rw [hstore, Option.bind_some] at hcond
    have hforall := hrep.history.forall₂
    dsimp only
    cases hhistory : current.history with
    | none =>
      rw [hhistory] at hforall
      have hempty : historyOf document = [] := List.forall₂_nil_right_iff.mp hforall
      rw [rollbackScript, hempty]
      exact h
    | some history =>
      rw [hhistory] at hcond hforall
      dsimp only [Option.getD_some] at hcond hforall ⊢
      have hne : history ≠ [] := List.ne_nil_of_length_pos (by omega)
      have hne' : historyOf document ≠ [] := by
        intro hempty
        rw [hempty] at hforall
        exact hne (List.forall₂_nil_left_iff.mp hforall)
      obtain ⟨htarget, hrest, hleft, hmem⟩ := rollbackSteps_rel hforall hcond .none
      have husers : ∀ s, s ∈ (popSteps steps none history).1 ∨
          s ∈ (popSteps steps none history).2 → s.userId = current.userId := by
        intro snapshot hsnapshot
        refine hrep.users snapshot ?_
        rw [hhistory]
        exact (hmem snapshot hsnapshot).resolve_left (by simp)
      rw [rollbackScript, if_neg (by simpa using hne'), if_neg (by simpa using hne)]
      revert htarget hrest hleft husers
      generalize rollbackSteps steps none (historyOf document) = back
      generalize popSteps steps none history = popped
      obtain ⟨item, rest⟩ := back
      obtain ⟨snapshot, left⟩ := popped
      intro htarget hrest hleft husers
      cases htarget with
      | none => exact h
      | @some _ snapshot hitem =>
        obtain ⟨fields, rfl, hfields⟩ := hitem
        have huser : snapshot.userId = current.userId := husers snapshot (Or.inl rfl)
        have hrestored := fun restored => @stateRepresents_restored _ _ now _ _ _ _ _ hrep hfields
          hrest hleft huser (fun s hs => husers s (Or.inr hs)) restored
        dsimp only
        cases hupdated : document.get? (lit "updatedAt") with
        | none =>
          refine h.restore hkeys hs hhorizon hstore huser (hrestored _ fun key => ?_)
          rw [Record.get?_without]
          by_cases hkey : key = lit "updatedAt"
          · rw [if_pos hkey, if_pos hkey, hkey, hupdated]
          · rw [if_neg hkey, if_neg hkey]
        | some updatedAt =>
          refine h.restore hkeys hs hhorizon hstore huser (hrestored _ fun key => ?_)
          rw [Record.get?_spread_singleton]
          by_cases hkey : key = lit "updatedAt"
          · rw [if_pos hkey, if_pos hkey, hkey, hupdated]
          · rw [if_neg hkey, if_neg hkey]

/-- What is found after a key was deleted. -/
theorem read_del {V : Type} {space : KeySpace V} {key other : Text} :
    (space.del key).read now other = if other = key then none else space.read now other := by
  by_cases heq : other = key
  · rw [if_pos heq, heq, KeySpace.read_del_self]
  · rw [if_neg heq, KeySpace.read_del_of_ne heq]

/-- `delete` keeps the stores alike. -/
theorem Mirrors.delete (h : Mirrors otherFormats ids owned horizon db store) (hkeys : KeysApart ids owned)
    (hs : ids s) (hnow : now.ms ≤ horizon) :
    Mirrors otherFormats ids owned horizon (RedisSessionState.delete db now s)
      (InMemorySessionState.delete store s) where
  lookup other hother t ht := by
    rw [RedisSessionState.delete, InMemorySessionState.delete]
    dsimp only
    rw [read_del]
    by_cases heq : other = s
    · rw [if_pos (congrArg getLookupKey heq), heq, Function.update_self]
      rfl
    · rw [if_neg fun hkey => heq (getLookupKey_eq_iff.mp hkey), Function.update_of_ne heq]
      exact h.lookup other hother t ht
  session other current hother hcurrent := by
    rw [InMemorySessionState.delete] at hcurrent
    by_cases heq : other = s
    · rw [heq, Function.update_self] at hcurrent
      cases hcurrent
    · rw [Function.update_of_ne heq] at hcurrent
      obtain ⟨document, hrep, hread⟩ := h.session other current hother hcurrent
      refine ⟨document, hrep, fun t ht => ?_⟩
      rw [RedisSessionState.delete]
      dsimp only
      rw [read_del, if_neg, hread t ht]
      cases hstore : store s with
      | none =>
        rw [h.resolveKey_none hs hnow hstore]
        exact (hkeys.getLegacyKey_ne hs (h.owner other current hother hcurrent)).symm
      | some state =>
        rw [h.resolveKey hs hnow hstore]
        exact hkeys.getStrictKey_ne (h.owner other current hother hcurrent)
          (h.owner s state hs hstore) heq
  owner other current hother hcurrent := by
    rw [InMemorySessionState.delete] at hcurrent
    by_cases heq : other = s
    · rw [heq, Function.update_self] at hcurrent
      cases hcurrent
    · rw [Function.update_of_ne heq] at hcurrent
      exact h.owner other current hother hcurrent
  absent other u hother hu' hu t ht := by
    rw [RedisSessionState.delete]
    dsimp only
    rw [read_del]
    by_cases hkey : getStrictKey u other = RedisSessionState.resolveKey db now s
    · rw [if_pos hkey]
    · rw [if_neg hkey]
      refine h.absent other u hother hu' (fun state hstate => ?_) t ht
      by_cases heq : other = s
      · subst heq
        rintro rfl
        exact hkey (h.resolveKey hs hnow hstate).symm
      · refine hu state ?_
        rw [InMemorySessionState.delete, Function.update_of_ne heq, hstate]
  legacy other hother t ht := by
    rw [RedisSessionState.delete]
    dsimp only
    rw [read_del, h.legacy other hother t ht, ite_self]

/-- Every call that meets the condition keeps the stores alike. -/
theorem Mirrors.perform {op : SessionOp} (h : Mirrors otherFormats ids owned horizon db store)
    (hkeys : KeysApart ids owned) (hs : ids op.sessionId)
    (howned : ∀ s state, op = .set s state → owned state.userId s) (hnow : now.ms ≤ horizon)
    (hhorizon : horizon ≤ now.ms + ttl) (hcond : Agreeable otherFormats store op) :
    Mirrors otherFormats ids owned horizon (RedisSessionState.perform db now op)
      (InMemorySessionState.perform store now op) := by
  cases op with
  | get s => exact h
  | set s state => exact h.set hkeys hs (howned s state rfl) hnow hhorizon hcond
  | patch s p => exact h.patch hkeys hs hnow hhorizon hcond
  | rollback s steps => exact h.rollback hkeys hs hnow hhorizon hcond
  | delete s => exact h.delete hkeys hs hnow

/-! ## Answers -/

/-- The length of the history in an answer, if it has an array. -/
def historyLength (fields : Record JsData) : Option ℕ :=
  match fields.get? (lit "history") with
  | some (.arr items) => some items.length
  | _ => none

/-- The two answers to `get` are alike, up to `updatedAt`. -/
def SameAnswer : Option SessionState → Option (Record JsData) → Prop
  | none, none => True
  | some state, some fields =>
    (∀ key, key ≠ lit "updatedAt" → key ≠ lit "history" →
      fields.get? key = (state.fields.get? key).bind JsData.defined) ∧
    historyLength fields = state.history.map List.length
  | _, _ => False

/-- The elements of a read history are those of the document. -/
theorem length_reviveItems {items : List Json} :
    (reviveItems otherFormats items).length = items.length := by
  induction items with
  | nil => rfl
  | cons j js ih => rw [reviveItems, List.length_cons, List.length_cons, ih]

/-- The read document has a history of the same length. -/
theorem HistoryRepresents.historyLength {history : Option (List SessionStateSnapshot)}
    (h : HistoryRepresents otherFormats document history) :
    historyLength (reviveFields otherFormats document) = history.map List.length := by
  rw [Sessions.historyLength, get?_reviveFields]
  cases history with
  | none =>
    rw [show document.get? (lit "history") = none from h]
    rfl
  | some history =>
    obtain ⟨-, items, hitems, hforall⟩ := h
    rw [hitems, Option.map_some, revive]
    dsimp only
    rw [length_reviveItems, hforall.length_eq, Option.map_some]

/-- Stores that mirror each other answer alike. -/
theorem Mirrors.sameAnswer (h : Mirrors otherFormats ids owned horizon db store) (hs : ids s)
    (hnow : now.ms ≤ horizon) :
    SameAnswer (InMemorySessionState.get store s)
      (RedisSessionState.get otherFormats db now s) := by
  rw [InMemorySessionState.get, RedisSessionState.get, getKey]
  cases hstore : store s with
  | none =>
    rw [h.resolveKey_none hs hnow hstore, h.legacy s hs now hnow]
    trivial
  | some state =>
    obtain ⟨document, hrep, hread⟩ := h.session s state hs hstore
    rw [h.resolveKey hs hnow hstore, hread now hnow, Option.map_some]
    refine ⟨fun key hupdated hhistory => ?_, hrep.history.historyLength⟩
    rw [get?_reviveFields]
    exact hrep.snapshot.reads key hupdated hhistory

end

/-! ## Runs -/

/-- The map after a sequence of calls, each at its time. -/
def InMemorySessionState.run (store : Store) (calls : List (Time × SessionOp)) : Store :=
  calls.foldl (fun store call => perform store call.1 call.2) store

/-- The server after the same calls. -/
def RedisSessionState.run (db : RedisStore) (calls : List (Time × SessionOp)) : RedisStore :=
  calls.foldl (fun db call => perform db call.1 call.2) db

/-- Every call of a run meets its condition. -/
def AllAgreeable (otherFormats : Text → Option Time) :
    InMemorySessionState.Store → List (Time × SessionOp) → Prop
  | _, [] => True
  | store, call :: calls => Agreeable otherFormats store call.2 ∧
      AllAgreeable otherFormats (InMemorySessionState.perform store call.1 call.2) calls

/-- The sessions that the calls name, the users under which they are set, and the time to live in
which all of it happens, so that nothing expires. -/
structure RunWithin (ids : Text → Prop) (owned : Text → Text → Prop) (start : Time)
    (calls : List (Time × SessionOp)) : Prop where
  times : ∀ call ∈ calls, start.ms ≤ call.1.ms ∧ call.1.ms ≤ start.ms + ttl
  sessions : ∀ call ∈ calls, ids call.2.sessionId
  users : ∀ call ∈ calls, ∀ s state, call.2 = .set s state → owned state.userId s

section

variable {ids : Text → Prop} {owned : Text → Text → Prop} {start now : Time}
  {calls : List (Time × SessionOp)} {db : RedisStore} {store : InMemorySessionState.Store}
  {s : Text}

/-- The stores are alike after a run. -/
theorem Mirrors.run (h : Mirrors otherFormats ids owned (start.ms + ttl) db store)
    (hkeys : KeysApart ids owned) (hrun : RunWithin ids owned start calls)
    (hcond : AllAgreeable otherFormats store calls) :
    Mirrors otherFormats ids owned (start.ms + ttl) (RedisSessionState.run db calls)
      (InMemorySessionState.run store calls) := by
  induction calls generalizing db store with
  | nil => exact h
  | cons call calls ih =>
    have hmem : call ∈ call :: calls := List.mem_cons_self
    obtain ⟨hfrom, hto⟩ := hrun.times call hmem
    have hnext := h.perform hkeys (hrun.sessions call hmem) (hrun.users call hmem) hto
      (by omega) hcond.1
    refine ih hnext ⟨fun c hc => hrun.times c ?_, fun c hc => hrun.sessions c ?_,
      fun c hc => hrun.users c ?_⟩ hcond.2
    all_goals exact List.mem_cons_of_mem _ hc

/-- **The two stores agree** after every run whose calls meet their conditions, about every session
and at every moment before something expires. -/
theorem stores_agree (hkeys : KeysApart ids owned) (hrun : RunWithin ids owned start calls)
    (hcond : AllAgreeable otherFormats (fun _ => none) calls) (hs : ids s)
    (hnow : now.ms ≤ start.ms + ttl) :
    SameAnswer (InMemorySessionState.get (InMemorySessionState.run (fun _ => none) calls) s)
      (RedisSessionState.get otherFormats (RedisSessionState.run RedisSessionState.empty calls)
        now s) :=
  (mirrors_empty.run hkeys hrun hcond).sameAnswer hs hnow

end

/-- A session is set and patched twice, and the last patch is taken back. -/
def patchedTwice : List (Time × SessionOp) :=
  [(⟨0, Time.inRange_zero⟩, .set (lit "evening") (idleState (lit "ana") (lit "evening"))),
   (⟨1, Time.inRange_one⟩, .patch (lit "evening") asleep),
   (⟨2, Time.inRange_two⟩, .patch (lit "evening") asleep),
   (⟨3, Time.inRange_three⟩, .rollback (lit "evening") 1)]

/-- The patch survives over every state. -/
theorem asleep_survives (otherFormats : Text → Option Time) (s : SessionStateSnapshot) :
    PatchSurvives otherFormats s asleep := by
  intro e he
  rw [List.mem_singleton.mp he]
  exact ⟨⟨by decide, by decide, fun h => absurd h (by decide)⟩, fun h => by cases h⟩

/-- A new session survives. -/
theorem idleState_survives (otherFormats : Text → Option Time) :
    ∀ e ∈ (idleState (lit "ana") (lit "evening")).fields, EntrySurvives otherFormats e := by
  intro e he
  simp only [idleState, List.mem_cons, List.not_mem_nil, or_false] at he
  rcases he with rfl | rfl | rfl
  all_goals exact ⟨by decide, by decide, fun h => absurd h (by decide)⟩

/-- The stores agree about it. -/
theorem stores_agree_patchedTwice :
    SameAnswer
      (InMemorySessionState.get (InMemorySessionState.run (fun _ => none) patchedTwice)
        (lit "evening"))
      (RedisSessionState.get (fun _ => none)
        (RedisSessionState.run RedisSessionState.empty patchedTwice) ⟨4, by decide⟩
        (lit "evening")) := by
  refine @stores_agree (fun _ => none) (fun s => s = lit "evening")
    (fun u s => u = lit "ana" ∧ s = lit "evening") ⟨0, by decide⟩ _ _ _ ⟨?_, ?_⟩ ⟨?_, ?_, ?_⟩ ?_ rfl
    (by decide)
  · rintro u s v t ⟨-, rfl⟩ ⟨-, rfl⟩ hne
    exact absurd rfl hne
  · rintro s v t rfl ⟨rfl, rfl⟩
    decide
  · intro call hcall
    simp only [patchedTwice, List.mem_cons, List.not_mem_nil, or_false] at hcall
    rcases hcall with rfl | rfl | rfl | rfl <;> decide
  · intro call hcall
    simp only [patchedTwice, List.mem_cons, List.not_mem_nil, or_false] at hcall
    rcases hcall with rfl | rfl | rfl | rfl <;> rfl
  · intro call hcall s state hset
    simp only [patchedTwice, List.mem_cons, List.not_mem_nil, or_false] at hcall
    rcases hcall with rfl | rfl | rfl | rfl
    · cases hset
      exact ⟨rfl, rfl⟩
    all_goals cases hset
  · refine ⟨⟨by decide, fun e he _ => idleState_survives _ e he, rfl⟩,
      asleep_survives _ _, asleep_survives _ _, ?_, trivial⟩
    show 1 < 2
    decide

/-- The text under a key of an answer. -/
def textAt (fields : Record JsData) (key : Text) : Option Text :=
  match fields.get? key with
  | some (.str text) => some text
  | _ => none

/-- Answers that are alike have the same texts. -/
theorem SameAnswer.textAt {answer : Option SessionState} {answer' : Option (Record JsData)}
    (h : SameAnswer answer answer') {key : Text} (hupdated : key ≠ lit "updatedAt")
    (hhistory : key ≠ lit "history") :
    answer'.bind (fun fields => Sessions.textAt fields key) =
      answer.bind fun state => Sessions.textAt state.fields key := by
  rcases answer with _ | state <;> rcases answer' with _ | fields
  · rfl
  · exact h.elim
  · exact h.elim
  · rw [Option.bind_some, Option.bind_some, Sessions.textAt, Sessions.textAt,
      h.1 key hupdated hhistory]
    cases state.fields.get? key with
    | none => rfl
    | some v => cases v <;> rfl

/-- A session is set and patched, and two steps are taken back, of which it has one. -/
def rolledPast : List (Time × SessionOp) :=
  [(⟨0, Time.inRange_zero⟩, .set (lit "evening") (idleState (lit "ana") (lit "evening"))),
   (⟨1, Time.inRange_one⟩, .patch (lit "evening") asleep),
   (⟨2, Time.inRange_two⟩, .rollback (lit "evening") 2)]

/-- `InMemorySessionState` does nothing, the script goes back to the oldest snapshot. -/
theorem rolledPast_disagree :
    (InMemorySessionState.get (InMemorySessionState.run (fun _ => none) rolledPast)
      (lit "evening")).bind (fun state => textAt state.fields (lit "phase")) =
        some (lit "ASLEEP") ∧
    (RedisSessionState.get (fun _ => none) (RedisSessionState.run RedisSessionState.empty
      rolledPast) ⟨3, by decide⟩ (lit "evening")).bind (fun fields => textAt fields (lit "phase")) =
        some (lit "IDLE") ∧
    ¬ SameAnswer
      (InMemorySessionState.get (InMemorySessionState.run (fun _ => none) rolledPast)
        (lit "evening"))
      (RedisSessionState.get (fun _ => none) (RedisSessionState.run RedisSessionState.empty
        rolledPast) ⟨3, by decide⟩ (lit "evening")) := by
  have hmemory : (InMemorySessionState.get (InMemorySessionState.run (fun _ => none) rolledPast)
      (lit "evening")).bind (fun state => textAt state.fields (lit "phase")) =
        some (lit "ASLEEP") := by
    decide +kernel
  have hredis : (RedisSessionState.get (fun _ => none) (RedisSessionState.run
      RedisSessionState.empty rolledPast) ⟨3, by decide⟩ (lit "evening")).bind
        (fun fields => textAt fields (lit "phase")) = some (lit "IDLE") := by
    decide +kernel
  refine ⟨hmemory, hredis, fun h => ?_⟩
  have htexts := h.textAt (show lit "phase" ≠ lit "updatedAt" by decide) (by decide)
  rw [hmemory, hredis] at htexts
  exact absurd htexts (by decide)

end DreamWeaver.Sessions
