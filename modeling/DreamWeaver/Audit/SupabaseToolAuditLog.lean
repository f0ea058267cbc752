import DreamWeaver.Foundations.JsonEquality
import DreamWeaver.Live.ToolExecutionRouter

/-! # The audit log of tool calls

`SupabaseToolAuditLog` (`api/src/infrastructure/audit/SupabaseToolAuditLog.ts`) writes a tool call to a table,
with hashes of its arguments and of its result. What is hashed is the text of the value with the keys of every
object sorted, so that the order of the keys does not matter. The hash function and the answer of the database
are parameters. -/

namespace DreamWeaver.Audit

open Live

/-! ## The text that is hashed -/

/-- `acc[k] = v[k]` on a fresh object, for every entry: the key `__proto__` sets the prototype, and makes no
entry. -/
def assignedEntries {α : Type} (entries : List (Text × α)) : List (Text × α) :=
  entries.filter fun e => e.1 != lit "__proto__"

mutual

/-- The value with every object rebuilt by the replacer: its keys sorted and assigned one by one. -/
def stableValue : Json → Json
  | .arr items => .arr (stableItems items)
  | .obj fields => .obj (assignedEntries (sortedEntries (stableFields fields)))
  | v => v

def stableItems : List Json → List Json
  | [] => []
  | v :: vs => stableValue v :: stableItems vs

def stableFields : List (Text × Json) → List (Text × Json)
  | [] => []
  | (key, v) :: fields => (key, stableValue v) :: stableFields fields

end

/-- `stableStringify` -/
def stableStringify (value : Json) : Text := stringify (stableValue value)

mutual

/-- What the text shows of a value: not the entries named `__proto__`, and not which number it is that is not
finite. -/
def shown : Json → Json
  | .num (.finite x) => .num (.finite x)
  | .num _ => .null
  | .arr items => .arr (shownItems items)
  | .obj fields => .obj (assignedEntries (shownFields fields))
  | v => v

def shownItems : List Json → List Json
  | [] => []
  | v :: vs => shown v :: shownItems vs

def shownFields : List (Text × Json) → List (Text × Json)
  | [] => []
  | (key, v) :: fields => (key, shown v) :: shownFields fields

end

/-! ## The log -/

/-- A row of `agent_tool_audit`, with the instant whose text is `occurred_at`. -/
structure AuditRow where
  occurredAt : ℕ
  userId : Text
  sessionId : Text
  requestId : Option Text
  traceId : Option Text
  toolName : Text
  toolCallId : Option Text
  allowed : Bool
  args : Json
  result : Json
  error : Option Text
  argsHash : Text
  resultHash : Text

/-- `SupabaseToolAuditLog`: the hash function, and what the database answers to an insertion, `some` for an
error that it reports. -/
structure SupabaseToolAuditLog where
  sha256Hex : Text → Text
  insert : AuditRow → Except JsError (Option JsError)

namespace SupabaseToolAuditLog

variable (log : SupabaseToolAuditLog)

/-- The row of a record. -/
def row (record : ToolAuditRecord) : AuditRow :=
  let argsJson := record.args.getD .null
  { occurredAt := record.occurredAt
    userId := record.userId
    sessionId := record.sessionId
    requestId := record.requestId
    traceId := record.traceId
    toolName := record.toolName
    toolCallId := record.toolCallId
    allowed := record.allowed
    args := argsJson
    result := record.result
    error := record.error
    argsHash := log.sha256Hex (stableStringify argsJson)
    resultHash := log.sha256Hex (stableStringify record.result) }

/-- `write`: an error is logged, be it reported or thrown. -/
def write (record : ToolAuditRecord) : Except JsError Unit :=
  match log.insert (log.row record) with
  | .ok _ => .ok ()
  | .error _ => .ok ()

/-- **The log never throws.** -/
theorem write_eq_ok (record : ToolAuditRecord) : log.write record = .ok () := by
  rw [write]
  split <;> rfl

end SupabaseToolAuditLog

/-! ## The text identifies what it shows -/

section Stable

variable {v w : Json}

theorem stableItems_eq (items : List Json) : stableItems items = items.map stableValue := by
  induction items with
  | nil => rfl
  | cons v vs ih => rw [stableItems, ih, List.map_cons]

theorem stableFields_eq (fields : List (Text × Json)) :
    stableFields fields = fields.map fun e => (e.1, stableValue e.2) := by
  induction fields with
  | nil => rfl
  | cons e fields ih => rw [stableFields, ih, List.map_cons]

theorem stableValue_arr (items : List Json) : stableValue (.arr items) = .arr (items.map stableValue) := by
  rw [stableValue, stableItems_eq]

theorem stableValue_obj (fields : List (Text × Json)) : stableValue (.obj fields)
    = .obj (assignedEntries (sortedEntries (fields.map fun e => (e.1, stableValue e.2)))) := by
  rw [stableValue, stableFields_eq]

theorem shownItems_eq (items : List Json) : shownItems items = items.map shown := by
  induction items with
  | nil => rfl
  | cons v vs ih => rw [shownItems, ih, List.map_cons]

theorem shownFields_eq (fields : List (Text × Json)) :
    shownFields fields = fields.map fun e => (e.1, shown e.2) := by
  induction fields with
  | nil => rfl
  | cons e fields ih => rw [shownFields, ih, List.map_cons]

theorem shown_arr (items : List Json) : shown (.arr items) = .arr (items.map shown) := by
  rw [shown, shownItems_eq]

theorem shown_obj (fields : List (Text × Json)) :
    shown (.obj fields) = .obj ((assignedEntries fields).map fun e => (e.1, shown e.2)) := by
  rw [shown, shownFields_eq, assignedEntries, assignedEntries, List.filter_map]
  rfl

/-- **Alike values have the same text**: they are rebuilt as the same value. -/
theorem stableValue_eq_of_alike (hv : v.Proper) (h : v.Alike w) : stableValue v = stableValue w := by
  induction h with
  | null | bool | num | str => rfl
  | @arr vs ws hlength hitems ih =>
    cases hv with
    | arr hvs =>
      rw [stableValue_arr, stableValue_arr]
      refine congrArg Json.arr (List.ext_getElem (by simpa using hlength) fun i hi hi' => ?_)
      rw [List.getElem_map, List.getElem_map]
      have hi : i < vs.length := by simpa using hi
      have hi' : i < ws.length := by simpa using hi'
      exact ih i _ _ (List.getElem?_eq_getElem hi) (List.getElem?_eq_getElem hi') (hvs _ (List.getElem_mem hi))
  | @obj fs gs hkeys hvalues ih =>
    cases hv with
    | obj hnodup hfs =>
      rw [stableValue_obj, stableValue_obj]
      refine congrArg (fun es => Json.obj (assignedEntries es)) (sortedEntries_eq_of_perm ?_ ?_)
      · rwa [List.map_map]
      · exact Json.map_perm_of_keys_perm stableValue hnodup hkeys fun key v w hv hw =>
          ih key v w hv hw (hfs _ hv)

theorem assignedEntries_sublist {α : Type} (entries : List (Text × α)) :
    (assignedEntries entries).Sublist entries := List.filter_sublist

theorem nodup_keys_assignedEntries {α : Type} {entries : List (Text × α)} (h : (entries.map Prod.fst).Nodup) :
    ((assignedEntries entries).map Prod.fst).Nodup :=
  h.sublist ((assignedEntries_sublist entries).map Prod.fst)

theorem proper_stableValue (h : v.Proper) : (stableValue v).Proper := by
  induction h with
  | null => exact .null
  | bool b => exact .bool b
  | num h => exact .num h
  | str s => exact .str s
  | arr h ih =>
    rw [stableValue_arr]
    refine .arr fun v hv => ?_
    obtain ⟨v', hv', rfl⟩ := List.mem_map.mp hv
    exact ih v' hv'
  | @obj fields hkeys h ih =>
    rw [stableValue_obj]
    refine .obj (nodup_keys_assignedEntries (nodup_keys_sortedEntries ?_)) fun e he => ?_
    · rwa [List.map_map]
    · obtain ⟨e', he', rfl⟩ := List.mem_map.mp
        ((sortedEntries_perm _).mem_iff.mp ((assignedEntries_sublist _).subset he))
      exact ih e' he'

theorem proper_shown (h : v.Proper) : (shown v).Proper := by
  induction h with
  | null => exact .null
  | bool b => exact .bool b
  | @num x h =>
    cases x with
    | finite x => exact .num h
    | _ => exact .null
  | str s => exact .str s
  | arr h ih =>
    rw [shown_arr]
    refine .arr fun v hv => ?_
    obtain ⟨v', hv', rfl⟩ := List.mem_map.mp hv
    exact ih v' hv'
  | @obj fields hkeys h ih =>
    rw [shown_obj]
    refine .obj ?_ fun e he => ?_
    · rw [List.map_map]
      exact nodup_keys_assignedEntries hkeys
    · obtain ⟨e', he', rfl⟩ := List.mem_map.mp he
      exact ih e' ((assignedEntries_sublist _).subset he')

theorem assignedEntries_map_values {α β : Type} (f : α → β) (entries : List (Text × α)) :
    assignedEntries (entries.map fun e => (e.1, f e.2)) = (assignedEntries entries).map fun e => (e.1, f e.2) := by
  rw [assignedEntries, assignedEntries, List.filter_map]
  rfl

/-- What is not assigned need not be sorted. -/
theorem assignedEntries_sortedEntries_assignedEntries {α : Type} {entries : List (Text × α)}
    (hkeys : (entries.map Prod.fst).Nodup) :
    assignedEntries (sortedEntries (assignedEntries entries)) = assignedEntries (sortedEntries entries) := by
  unfold assignedEntries
  rw [← filter_sortedEntries hkeys, List.filter_filter]
  simp only [Bool.and_self]

theorem stableStringify_arr (items : List Json) :
    stableStringify (.arr items) = 91 :: elementsText (items.map stableStringify) := by
  rw [stableStringify, stableValue_arr, stringify, stringifyItems_eq, List.map_map]
  rfl

theorem stableStringify_obj (fields : List (Text × Json)) : stableStringify (.obj fields)
    = objectText (ownOrder (assignedEntries (sortedEntries (fields.map fun e => (e.1, stableStringify e.2))))) := by
  have hmap : (fields.map fun e => (e.1, stableStringify e.2))
      = (fields.map fun e => (e.1, stableValue e.2)).map fun e => (e.1, stringify e.2) := by
    rw [List.map_map]
    rfl
  rw [stableStringify, stableValue_obj, stringify, stringifyFields_eq, ← assignedEntries_map_values,
    ← sortedEntries_map_values, ← hmap]

/-- What is not shown is not in the text. -/
theorem stableStringify_shown (h : v.Proper) : stableStringify (shown v) = stableStringify v := by
  induction h with
  | null | bool | str => rfl
  | @num x h => cases x <;> rfl
  | @arr items h ih =>
    rw [shown_arr, stableStringify_arr, stableStringify_arr, List.map_map]
    exact congrArg (fun texts => 91 :: elementsText texts) (List.map_congr_left ih)
  | @obj fields hkeys h ih =>
    have htexts : ((assignedEntries fields).map fun e => (e.1, shown e.2)).map (fun e => (e.1, stableStringify e.2))
        = assignedEntries (fields.map fun e => (e.1, stableStringify e.2)) := by
      rw [assignedEntries_map_values, List.map_map]
      exact List.map_congr_left fun e he => Prod.ext rfl (ih e ((assignedEntries_sublist _).subset he))
    have hnodup : ((fields.map fun e => (e.1, stableStringify e.2)).map Prod.fst).Nodup := by
      rwa [List.map_map]
    rw [shown_obj, stableStringify_obj, stableStringify_obj, htexts,
      assignedEntries_sortedEntries_assignedEntries hnodup]

/-- What is read from the text is alike what is shown. -/
theorem alike_shown_written (h : v.Proper) : (shown v).Alike (stableValue v).written := by
  induction h with
  | null => exact .null
  | bool b => exact .bool b
  | @num x h => cases x <;> constructor
  | str s => exact .str s
  | @arr items h ih =>
    rw [shown_arr, stableValue_arr, Json.written_arr, List.map_map]
    refine .arr (by simp) fun i a b ha hb => ?_
    rw [List.getElem?_map] at ha hb
    obtain ⟨v, hv, rfl⟩ := Option.map_eq_some_iff.mp ha
    obtain ⟨v', hv', rfl⟩ := Option.map_eq_some_iff.mp hb
    obtain rfl := Option.some.inj (hv.symm.trans hv')
    exact ih v (List.mem_of_getElem? hv)
  | @obj fields hkeys h ih =>
    rw [shown_obj, stableValue_obj, Json.written_obj]
    have hperm : (ownOrder (assignedEntries (sortedEntries (fields.map fun e => (e.1, stableValue e.2))))).Perm
        ((assignedEntries fields).map fun e => (e.1, stableValue e.2)) := by
      rw [← assignedEntries_map_values]
      exact (ownOrder_perm _).trans ((sortedEntries_perm _).filter _)
    refine .obj ?_ fun key a b ha hb => ?_
    · have hfst := (hperm.map Prod.fst).symm
      rw [List.map_map] at hfst
      rw [List.map_map, List.map_map]
      exact hfst
    · obtain ⟨⟨key, v⟩, hv, ha⟩ := List.mem_map.mp ha
      obtain ⟨e, he, hb⟩ := List.mem_map.mp hb
      obtain ⟨⟨key', v'⟩, hv', rfl⟩ := List.mem_map.mp (hperm.mem_iff.mp he)
      obtain ⟨rfl, rfl⟩ := Prod.mk.inj ha
      obtain ⟨rfl, rfl⟩ := Prod.mk.inj hb
      have hmem := (assignedEntries_sublist fields).subset hv
      obtain rfl := Json.eq_of_mem_of_mem hkeys hmem ((assignedEntries_sublist fields).subset hv')
      exact ih _ hmem

/-- **Two values have the same text** if and only if what is shown of them is alike. -/
theorem stableStringify_eq_iff (hv : v.Proper) (hw : w.Proper) :
    stableStringify v = stableStringify w ↔ (shown v).Alike (shown w) := by
  constructor
  · intro heq
    have hread := parseJson_stringify (proper_stableValue hv)
    rw [show stringify (stableValue v) = stringify (stableValue w) from heq,
      parseJson_stringify (proper_stableValue hw)] at hread
    have hwritten := alike_shown_written hv
    rw [← Except.ok.inj hread] at hwritten
    exact hwritten.trans (alike_shown_written hw).symm
  · intro h
    rw [← stableStringify_shown hv, ← stableStringify_shown hw, stableStringify, stableStringify,
      stableValue_eq_of_alike (proper_shown hv) h]

theorem alike_shown (hv : v.Proper) (hw : w.Proper) (h : v.Alike w) : (shown v).Alike (shown w) :=
  (stableStringify_eq_iff hv hw).mp (congrArg stringify (stableValue_eq_of_alike hv h))

/-- **When the hash identifies the arguments**: the texts of two values, and the hashes of two records with them,
agree exactly if the values are equal up to the order of keys, if and only if the values do not differ in what is
not shown of them alone. -/
theorem hash_identifies_iff (log : SupabaseToolAuditLog) {r r' : ToolAuditRecord} (hargs : r.args = some v)
    (hargs' : r'.args = some w) (hv : v.Proper) (hw : w.Proper)
    (hcollision : log.sha256Hex (stableStringify v) = log.sha256Hex (stableStringify w) →
      stableStringify v = stableStringify w) :
    ((stableStringify v = stableStringify w ↔ v.Alike w) ∧
      ((log.row r).argsHash = (log.row r').argsHash ↔ v.Alike w)) ↔
    ((shown v).Alike (shown w) → v.Alike w) := by
  have hhash : (log.row r).argsHash = (log.row r').argsHash ↔ stableStringify v = stableStringify w := by
    rw [SupabaseToolAuditLog.row, SupabaseToolAuditLog.row, hargs, hargs']
    exact ⟨hcollision, congrArg log.sha256Hex⟩
  rw [hhash, and_self, stableStringify_eq_iff hv hw]
  exact ⟨Iff.mp, fun h => ⟨h, alike_shown hv hw⟩⟩

/-- A log whose hash is the text itself. -/
def plainLog : SupabaseToolAuditLog := ⟨id, fun _ => .ok none⟩

/-- The record of a call of `save_memory` with the arguments. -/
def memoryRecord (args : Json) : ToolAuditRecord where
  userId := lit "ana"
  sessionId := lit "session"
  requestId := none
  traceId := none
  toolName := lit "save_memory"
  toolCallId := none
  allowed := false
  args := some args
  result := .null
  error := none
  occurredAt := 1700000000000

/-- Two members in either order have one hash. -/
theorem hash_of_two_members :
    (plainLog.row (memoryRecord (.obj [(lit "b", .null), (lit "a", .bool true)]))).argsHash
      = (plainLog.row (memoryRecord (.obj [(lit "a", .bool true), (lit "b", .null)]))).argsHash := by
  have hproper : ∀ e ∈ [(lit "b", Json.null), (lit "a", .bool true)], e.2.Proper :=
    List.forall_mem_cons.mpr ⟨.null, List.forall_mem_singleton.mpr (.bool true)⟩
  have hb : (Json.obj [(lit "b", .null), (lit "a", .bool true)]).Proper := .obj (by decide) hproper
  have ha : (Json.obj [(lit "a", .bool true), (lit "b", .null)]).Proper :=
    .obj (by decide) fun e he => hproper e ((List.Perm.swap _ _ _).mem_iff.mp he)
  have halike : (Json.obj [(lit "b", .null), (lit "a", .bool true)]).Alike
      (.obj [(lit "a", .bool true), (lit "b", .null)]) := by
    refine .obj (.swap _ _ _) fun key v w hv hw => ?_
    obtain rfl := Json.eq_of_mem_of_mem (by decide) hv ((List.Perm.swap _ _ _).mem_iff.mp hw)
    exact (hproper _ hv).alike_self
  exact ((hash_identifies_iff plainLog rfl rfl hb ha id).mpr fun _ => halike).2.mpr halike

/-- **A member named `__proto__` is not hashed**: an object with it has the text of the empty object. -/
theorem proto_is_not_hashed : ¬ ∀ v w : Json, v.Proper → w.Proper →
    (stableStringify v = stableStringify w ↔ v.Alike w) := by
  intro hclaim
  have hsame : stableStringify (.obj [(lit "__proto__", .bool true)]) = stableStringify (.obj []) := by
    decide
  have hempty : (Json.obj []).Proper := .obj (by decide) fun _ h => nomatch h
  have halike := (hclaim _ _ (Json.Proper.single (.bool true) _) hempty).mp hsame
  cases halike with
  | obj hkeys _ => exact absurd hkeys.length_eq (by decide)

end Stable

end DreamWeaver.Audit
