import DreamWeaver.Sessions.SessionState
import DreamWeaver.Foundations.Cjson
import Mathlib.Data.Finset.Insert

/-! # Sessions in Redis

`RedisSessionState` (`api/src/infrastructure/adapters/RedisSessionState.ts`) keeps a session as a
JSON document under a key made of its user and its id. A second key leads from the id to the user,
and a third one holds the set of a user's session ids. `set`, `patch` and `rollback` are Lua scripts
over the decoded document. The server is described by what is stored under the keys of each of these
three kinds, which begin differently, and by the moment at which an entry expires; a stored document
was written by `cjson`, so only the payload of a script can be refused. The client is the TCP one;
over HTTP the documents are read by `parseDates`, which does what `dateReviver` does. -/

namespace DreamWeaver.Sessions

/-- What is stored under a key, and the last moment at which it is there, if it expires. -/
structure Entry (V : Type) where
  value : V
  expireAt : Option ℤ

/-- The entry has not expired. -/
def Entry.isLive {V : Type} (e : Entry V) (now : Time) : Bool :=
  match e.expireAt with
  | none => true
  | some deadline => now.ms ≤ deadline

@[simp] theorem Entry.isLive_some {V : Type} (v : V) (deadline : ℤ) (now : Time) :
    Entry.isLive ⟨v, some deadline⟩ now = decide (now.ms ≤ deadline) := rfl

/-- The entries under keys of one kind. -/
abbrev KeySpace (V : Type) := Text → Option (Entry V)

namespace KeySpace

variable {V : Type}

/-- What a command finds under a key. -/
def read (space : KeySpace V) (now : Time) (key : Text) : Option V :=
  ((space key).filter fun e => e.isLive now).map Entry.value

/-- `DEL key` -/
def del (space : KeySpace V) (key : Text) : KeySpace V := Function.update space key none

variable {space : KeySpace V} {now : Time} {key other : Text} {e : Entry V}

@[simp] theorem read_del_self : (space.del key).read now key = none := by
  rw [read, del, Function.update_self, Option.filter_none, Option.map_none]

theorem read_congr {space' : KeySpace V} (h : space key = space' key) :
    space.read now key = space'.read now key := by
  rw [read, read, h]

theorem read_del_of_ne (h : other ≠ key) :
    (space.del key).read now other = space.read now other := by
  rw [del]
  exact read_congr (Function.update_of_ne h none space)

end KeySpace

/-- The keys of the server. -/
structure RedisStore where
  sessions : KeySpace (Record Json)
  lookups : KeySpace Text
  indices : Text → Finset Text

namespace RedisSessionState

/-! ## Keys -/

/-- `getLegacyKey` -/
def getLegacyKey (sessionId : Text) : Text := lit "dreamweaver:session:" ++ sessionId

/-- `getStrictKey` -/
def getStrictKey (userId sessionId : Text) : Text :=
  lit "dreamweaver:session:" ++ (userId ++ 58 :: sessionId)

/-- `getUserIndexKey` -/
def getUserIndexKey (userId : Text) : Text :=
  lit "dreamweaver:user:" ++ (userId ++ lit ":sessions")

/-- `getLookupKey` -/
def getLookupKey (sessionId : Text) : Text := lit "dreamweaver:lookup:" ++ sessionId

/-- `TTL_SECONDS`, in milliseconds. -/
def ttl : ℤ := 86400 * 1000

/-- `SET key value EX ttl` -/
def setEx {V : Type} (space : KeySpace V) (now : Time) (key : Text) (value : V) : KeySpace V :=
  Function.update space key (some ⟨value, some (now.ms + ttl)⟩)

/-- `resolveKey`; the reply to `EXISTS` changes nothing, the legacy key is returned either way. -/
def resolveKey (db : RedisStore) (now : Time) (sessionId : Text) : Text :=
  match db.lookups.read now (getLookupKey sessionId) with
  | some userId => if userId = [] then getLegacyKey sessionId else getStrictKey userId sessionId
  | none => getLegacyKey sessionId

/-! ## Scripts -/

/-- The error of a script that a Lua function refused. -/
def scriptError : JsError := ⟨lit "ReplyError", lit "ERR Error running script"⟩

/-- `cjson.decode(payload)` -/
def decode (payload : Record Json) : Except JsError (Record Json) :=
  if fieldsReadable payload then .ok payload else .error scriptError

/-- `state.history or {}`: the elements of the table. -/
def historyOf (document : Record Json) : List Json :=
  match document.get? (lit "history") with
  | some (.arr items) => items
  | _ => []

/-- The history after the current state has joined it; `maxHistory` is 10. -/
def pushHistory (current : Record Json) : List Json :=
  let history := historyOf current ++ [.obj (current.without (lit "history"))]
  if 10 < history.length then history.drop 1 else history

/-- The new state with the history of the current one, if there is one. -/
def withHistory (current : Option (Record Json)) (newState : Record Json) : Record Json :=
  match current with
  | none => newState
  | some current => newState.spread [(lit "history", .arr (pushHistory current))]

/-- `UPDATE_SESSION_SCRIPT`: the document that it writes. -/
def updateScript (current : Option (Record Json)) (payload : Record Json) :
    Except JsError (Record Json) :=
  (decode payload).map fun newState => recodeFields (withHistory current newState)

/-- `PATCH_SESSION_SCRIPT`: the document that it writes over the current one. The payload has an
`updatedAt` of its own. -/
def patchScript (current payload : Record Json) : Except JsError (Record Json) :=
  (decode payload).map fun partialState =>
    recodeFields (withHistory (some current) (current.spread partialState))

/-- The snapshot that `ROLLBACK_SESSION_SCRIPT` arrives at and what is left of the history: the
oldest snapshot when there are no more. -/
def rollbackSteps : ℕ → Option Json → List Json → Option Json × List Json
  | 0, target, history => (target, history)
  | steps + 1, _, history =>
    match history.getLast? with
    | none => (none, history)
    | some snapshot =>
      if history.dropLast.isEmpty then (some snapshot, history.dropLast)
      else rollbackSteps steps (some snapshot) history.dropLast

/-- `ROLLBACK_SESSION_SCRIPT`: the document that it writes over the current one, if any. -/
def rollbackScript (current : Record Json) (steps : ℕ) :
    Except JsError (Option (Record Json)) :=
  if (historyOf current).isEmpty then .ok none
  else
    match rollbackSteps steps none (historyOf current) with
    | (none, _) => .ok none
    | (some (.obj snapshot), history) =>
      let restored := Record.spread snapshot [(lit "history", .arr history)]
      match current.get? (lit "updatedAt") with
      | none => .ok (some (recodeFields (restored.without (lit "updatedAt"))))
      | some updatedAt =>
        .ok (some (recodeFields (restored.spread [(lit "updatedAt", updatedAt)])))
    | (some _, _) => .error scriptError

/-! ## Reading dates back -/

/-- The entries that hold dates. -/
def dateKeys : List Text :=
  [lit "updatedAt", lit "sessionStartTime", lit "targetTime", lit "createdAt", lit "achievedAt"]

/-- `dateReviver` reads the entry as a date. -/
def isDateKey (key : Option Text) : Bool := key.any (dateKeys.contains ·)

mutual

/-- `JSON.parse` with `dateReviver`. The key is that of the entry; an array index is none of the
names of `dateReviver`. -/
def revive (otherFormats : Text → Option Time) (key : Option Text) : Json → JsData
  | .null => .null
  | .bool b => .bool b
  | .num x => .num x
  | .str text =>
    if isDateKey key then
      match dateParse otherFormats text with
      | some time => .date (some time)
      | none => .str text
    else .str text
  | .arr items => .arr (reviveItems otherFormats items)
  | .obj fields => .obj (reviveFields otherFormats fields)

/-- The elements of an array. -/
def reviveItems (otherFormats : Text → Option Time) : List Json → List JsData
  | [] => []
  | j :: js => revive otherFormats none j :: reviveItems otherFormats js

/-- An entry of an object. -/
def reviveEntry (otherFormats : Text → Option Time) : Text × Json → Text × JsData
  | (key, j) => (key, revive otherFormats (some key) j)

/-- The entries of an object. -/
def reviveFields (otherFormats : Text → Option Time) : List (Text × Json) → List (Text × JsData)
  | [] => []
  | e :: fields => reviveEntry otherFormats e :: reviveFields otherFormats fields

end

/-- What is under a key is revived in its place. -/
@[simp] theorem get?_reviveFields (otherFormats : Text → Option Time) (fields : Record Json)
    (key : Text) : Record.get? (reviveFields otherFormats fields) key =
      (fields.get? key).map (revive otherFormats (some key)) := by
  induction fields with
  | nil => rfl
  | cons e fields ih =>
    obtain ⟨k, j⟩ := e
    rw [reviveFields, reviveEntry, Record.get?_cons_mk, Record.get?_cons_mk, ih]
    by_cases h : k = key
    · rw [if_pos h, if_pos h, Option.map_some, h]
    · rw [if_neg h, if_neg h]

/-! ## Operations -/

/-- What `get` returns once it has resolved the key. -/
def getKey (otherFormats : Text → Option Time) (db : RedisStore) (now : Time) (key : Text) :
    Option (Record JsData) :=
  (db.sessions.read now key).map (reviveFields otherFormats)

/-- `get` -/
def get (otherFormats : Text → Option Time) (db : RedisStore) (now : Time) (sessionId : Text) :
    Option (Record JsData) :=
  getKey otherFormats db now (resolveKey db now sessionId)

/-- The payload of `set`: the state without its history. -/
def setPayload (now : Time) (state : SessionState) : Record Json :=
  fieldsToJson (state.touched now).fields

/-- `set`: the payload goes through the script, which updates the indices too. -/
def set (db : RedisStore) (now : Time) (sessionId : Text) (state : SessionState) :
    Except JsError Unit × RedisStore :=
  let key := getStrictKey state.userId sessionId
  match updateScript (db.sessions.read now key) (setPayload now state) with
  | .error e => (.error e, db)
  | .ok document =>
    (.ok (), {
      sessions := setEx db.sessions now key document
      indices := Function.update db.indices (getUserIndexKey state.userId)
        (insert sessionId (db.indices (getUserIndexKey state.userId)))
      lookups := setEx db.lookups now (getLookupKey sessionId) state.userId })

/-- The payload of `patch`. -/
def patchPayload (now : Time) (partialState : SessionStatePatch) : Record Json :=
  fieldsToJson (partialState.fields.spread [(lit "updatedAt", .date (some now))])

/-- What `patch` does once it has resolved the key. -/
def patchKey (db : RedisStore) (now : Time) (key sessionId : Text)
    (partialState : SessionStatePatch) : Except JsError Unit × RedisStore :=
  match db.sessions.read now key with
  | none =>
    (.error ⟨lit "Error", lit "Failed to patch session " ++ sessionId ++ lit ": Not found"⟩, db)
  | some current =>
    match patchScript current (patchPayload now partialState) with
    | .error e => (.error e, db)
    | .ok document => (.ok (), { db with sessions := setEx db.sessions now key document })

/-- `patch` -/
def patch (db : RedisStore) (now : Time) (sessionId : Text) (partialState : SessionStatePatch) :
    Except JsError Unit × RedisStore :=
  patchKey db now (resolveKey db now sessionId) sessionId partialState

/-- What `rollback` does once it has resolved the key. -/
def rollbackKey (db : RedisStore) (now : Time) (key : Text) (steps : ℕ) :
    Except JsError Unit × RedisStore :=
  match db.sessions.read now key with
  | none => (.ok (), db)
  | some current =>
    match rollbackScript current steps with
    | .error e => (.error e, db)
    | .ok none => (.ok (), db)
    | .ok (some document) => (.ok (), { db with sessions := setEx db.sessions now key document })

/-- `rollback` -/
def rollback (db : RedisStore) (now : Time) (sessionId : Text) (steps : ℕ) :
    Except JsError Unit × RedisStore :=
  rollbackKey db now (resolveKey db now sessionId) steps

/-- The user that `delete` reads off a key: its third part, if it has four. -/
def indexedUser (key : Text) : Text :=
  let parts := key.splitOn 58
  if parts.length = 4 then parts.getD 2 [] else []

/-- `delete` -/
def delete (db : RedisStore) (now : Time) (sessionId : Text) : RedisStore :=
  let key := resolveKey db now sessionId
  let userId := indexedUser key
  { sessions := db.sessions.del key
    lookups := db.lookups.del (getLookupKey sessionId)
    indices :=
      if userId = [] then db.indices
      else Function.update db.indices (getUserIndexKey userId)
        ((db.indices (getUserIndexKey userId)).erase sessionId) }

/-! ## What the operations write -/

/-- What was set is there until it expires. -/
theorem read_setEx_self {V : Type} {space : KeySpace V} {now t : Time} {key : Text} {v : V} :
    (setEx space now key v).read t key = if t.ms ≤ now.ms + ttl then some v else none := by
  rw [KeySpace.read, setEx, Function.update_self, Option.filter_some, Entry.isLive_some]
  by_cases h : t.ms ≤ now.ms + ttl
  · rw [decide_eq_true h, if_pos rfl, if_pos h, Option.map_some]
  · rw [decide_eq_false h, if_neg Bool.false_ne_true, if_neg h, Option.map_none]

theorem read_setEx_of_ne {V : Type} {space : KeySpace V} {now t : Time} {key other : Text} {v : V}
    (h : other ≠ key) : (setEx space now key v).read t other = space.read t other :=
  KeySpace.read_congr (Function.update_of_ne h _ space)

section Writes

variable {db : RedisStore} {now : Time} {key sessionId : Text} {current : Record Json}
  {state : SessionState} {p : SessionStatePatch}

/-- A state that the script can read is written with the history of the one before it. -/
theorem set_of_readable (h : fieldsReadable (setPayload now state) = true) :
    set db now sessionId state = (.ok (), {
      sessions := setEx db.sessions now (getStrictKey state.userId sessionId) (recodeFields
        (withHistory (db.sessions.read now (getStrictKey state.userId sessionId))
          (setPayload now state)))
      indices := Function.update db.indices (getUserIndexKey state.userId)
        (insert sessionId (db.indices (getUserIndexKey state.userId)))
      lookups := setEx db.lookups now (getLookupKey sessionId) state.userId }) := by
  rw [set, updateScript, decode, if_pos h]
  rfl

/-- Any other state is refused. -/
theorem set_of_not_readable (h : fieldsReadable (setPayload now state) = false) :
    set db now sessionId state = (.error scriptError, db) := by
  rw [set, updateScript, decode, if_neg (by simp [h])]
  rfl

/-- `set` resolves exactly for the states that the script can read. -/
theorem set_ok_iff :
    (set db now sessionId state).1 = .ok () ↔ fieldsReadable (setPayload now state) = true := by
  by_cases h : fieldsReadable (setPayload now state) = true
  · rw [set_of_readable h]
    exact iff_of_true rfl h
  · rw [set_of_not_readable (Bool.eq_false_iff.mpr h)]
    exact iff_of_false (by simp) h

theorem patchKey_of_readable (hcurrent : db.sessions.read now key = some current)
    (h : fieldsReadable (patchPayload now p) = true) :
    patchKey db now key sessionId p = (.ok (), { db with
      sessions := setEx db.sessions now key
        (recodeFields (withHistory (some current) (current.spread (patchPayload now p)))) }) := by
  rw [patchKey, hcurrent]
  dsimp only
  rw [patchScript, decode, if_pos h]
  rfl

/-- A patch that the script cannot read, or of a session that is not there, changes nothing. -/
theorem patchKey_eq_self (h : db.sessions.read now key = none ∨
    fieldsReadable (patchPayload now p) = false) : (patchKey db now key sessionId p).2 = db := by
  rw [patchKey]
  cases hcurrent : db.sessions.read now key with
  | none => rfl
  | some current =>
    have hread : fieldsReadable (patchPayload now p) = false :=
      h.resolve_left (by rw [hcurrent]; exact Option.some_ne_none current)
    dsimp only
    rw [patchScript, decode, if_neg (by simp [hread])]
    rfl

/-- `patch` leaves the lookup keys alone. -/
theorem lookups_patchKey :
    (patchKey db now key sessionId p).2.lookups = db.lookups := by
  rw [patchKey]
  cases db.sessions.read now key with
  | none => rfl
  | some current =>
    dsimp only
    cases patchScript current (patchPayload now p) <;> rfl

/-- `rollback` leaves the lookup keys alone. -/
theorem lookups_rollbackKey {steps : ℕ} :
    (rollbackKey db now key steps).2.lookups = db.lookups := by
  rw [rollbackKey]
  cases db.sessions.read now key with
  | none => rfl
  | some current =>
    dsimp only
    cases rollbackScript current steps with
    | error e => rfl
    | ok result => cases result <;> rfl

/-- Outside the history the new state is what it was without one. -/
theorem get?_withHistory {current : Option (Record Json)} {newState : Record Json} {k : Text}
    (hk : k ≠ lit "history") : (withHistory current newState).get? k = newState.get? k := by
  cases current with
  | none => rfl
  | some current => rw [withHistory, Record.get?_spread_singleton, if_neg hk]

end Writes

/-! ## Runs -/

/-- The store after a call. -/
def perform (db : RedisStore) (now : Time) : SessionOp → RedisStore
  | .get _ => db
  | .set sessionId state => (set db now sessionId state).2
  | .patch sessionId partialState => (patch db now sessionId partialState).2
  | .rollback sessionId steps => (rollback db now sessionId steps).2
  | .delete sessionId => delete db now sessionId

/-- The server without any key. -/
def empty : RedisStore := ⟨fun _ => none, fun _ => none, fun _ => ∅⟩

/-- `Reachable calls now db`: the calls, one after the other, the last one no later than `now`, lead
from the empty server to `db`. -/
inductive Reachable : List (Time × SessionOp) → Time → RedisStore → Prop
  | empty (now : Time) : Reachable [] now RedisSessionState.empty
  | call {calls : List (Time × SessionOp)} {t now : Time} {db : RedisStore} (op : SessionOp)
      (h : Reachable calls t db) (hle : t.ms ≤ now.ms) :
      Reachable (calls ++ [(t, op)]) now (perform db t op)

end RedisSessionState

end DreamWeaver.Sessions
