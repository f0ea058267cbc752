import DreamWeaver.Foundations.IsoDate

/-! # Objects and the data they hold

A record is an object with string keys; the order of its entries means nothing, so that two records
are compared through `get?`. `JsData` are the values that a program keeps in such objects: what JSON
can write, and also `undefined`, dates and the non-finite numbers. `toJson` is `JSON.stringify`,
which drops an `undefined` entry, writes a date as its ISO text and a number without a JSON form as
`null`; `prune` is a value without its `undefined` entries. -/

namespace DreamWeaver

/-! ## Records -/

/-- An object with string keys, as the list of its entries. -/
abbrev Record (V : Type) := List (Text × V)

namespace Record

variable {V W : Type}

/-- `record[key]` -/
def get? (r : Record V) (key : Text) : Option V := (r.find? fun e => e.1 == key).map Prod.snd

/-- The record without a key: `delete record[key]`. -/
def without (r : Record V) (key : Text) : Record V := r.filter fun e => e.1 != key

/-- `{ ...base, ...upper }` -/
def spread (base upper : Record V) : Record V :=
  upper ++ base.filter fun e => (upper.get? e.1).isNone

/-- The keys of a record. -/
def keys (r : Record V) : List Text := r.map Prod.fst

variable {r base upper : Record V} {key other : Text} {v : V}

@[simp] theorem get?_nil : get? ([] : Record V) key = none := rfl

@[simp] theorem get?_cons (e : Text × V) :
    get? (e :: r) key = if e.1 = key then some e.2 else r.get? key := by
  by_cases h : e.1 = key
  · simp [get?, h]
  · simp [get?, h]

theorem get?_cons_mk (k : Text) :
    get? ((k, v) :: r) key = if k = key then some v else r.get? key := get?_cons (k, v)

@[simp] theorem get?_append (r s : Record V) : get? (r ++ s) key = (r.get? key).or (s.get? key) := by
  rw [get?, List.find?_append, Option.map_or]
  rfl

/-- A record has a value under a key exactly when the key is one of its keys. -/
theorem get?_eq_none_iff : r.get? key = none ↔ key ∉ r.keys := by
  rw [get?, Option.map_eq_none_iff, List.find?_eq_none, keys, List.mem_map]
  constructor
  · rintro h ⟨e, he, rfl⟩
    exact h e he (by simp)
  · intro h e he hkey
    exact h ⟨e, he, by simpa using hkey⟩

/-- Filtering by the key does not change what is under a key that stays. -/
theorem get?_filter {p : Text → Bool} :
    get? (r.filter fun e => p e.1) key = if p key then r.get? key else none := by
  induction r with
  | nil => simp
  | cons e r ih =>
    by_cases hp : p e.1
    · rw [List.filter_cons, if_pos hp, get?_cons, get?_cons, ih]
      by_cases he : e.1 = key
      · rw [if_pos he, if_pos he, if_pos (he ▸ hp)]
      · rw [if_neg he, if_neg he]
    · rw [List.filter_cons, if_neg hp, ih, get?_cons]
      by_cases he : e.1 = key
      · rw [if_neg (he ▸ hp), if_neg (he ▸ hp)]
      · rw [if_neg he]

@[simp] theorem get?_without : (r.without key).get? other = if other = key then none else r.get? other := by
  rw [without, get?_filter (p := fun k => k != key)]
  by_cases h : other = key
  · simp [h]
  · simp [h]

/-- What is spread last counts. -/
@[simp] theorem get?_spread : (base.spread upper).get? key = (upper.get? key).or (base.get? key) := by
  rw [spread, get?_append, get?_filter (p := fun k => (upper.get? k).isNone)]
  cases upper.get? key with
  | none => rfl
  | some v => rfl

/-- `{ ...base, [key]: v }` changes the one entry. -/
theorem get?_spread_singleton :
    (base.spread [(key, v)]).get? other = if other = key then some v else base.get? other := by
  rw [get?_spread, get?_cons]
  by_cases h : other = key
  · rw [if_pos h.symm, if_pos h, Option.some_or]
  · rw [if_neg (Ne.symm h), if_neg h, get?_nil, Option.none_or]

/-- The entry of a record under a key is one of its entries. -/
theorem mem_of_get? (h : r.get? key = some v) : (key, v) ∈ r := by
  obtain ⟨e, he, rfl⟩ := Option.map_eq_some_iff.mp h
  have hkey : e.1 = key := by simpa using List.find?_some he
  exact hkey ▸ List.mem_of_find?_eq_some he

/-- In a record whose keys are distinct every entry is what is under its key. -/
theorem get?_of_mem (hnodup : r.keys.Nodup) (h : (key, v) ∈ r) : r.get? key = some v := by
  induction r with
  | nil => cases h
  | cons e r ih =>
    rw [keys, List.map_cons, List.nodup_cons] at hnodup
    rcases List.mem_cons.mp h with rfl | hmem
    · simp
    · have hne : e.1 ≠ key := by
        rintro rfl
        exact hnodup.1 (List.mem_map.mpr ⟨_, hmem, rfl⟩)
      rw [get?_cons, if_neg hne]
      exact ih hnodup.2 hmem

theorem nodup_singleton : (keys [(key, v)]).Nodup := List.nodup_singleton key

theorem nodup_without (h : r.keys.Nodup) : (r.without key).keys.Nodup :=
  h.sublist (List.filter_sublist.map _)

/-- Spreading keeps keys distinct. -/
theorem nodup_spread (hbase : base.keys.Nodup) (hupper : upper.keys.Nodup) :
    (base.spread upper).keys.Nodup := by
  rw [spread, keys, List.map_append, List.nodup_append]
  refine ⟨hupper, hbase.sublist (List.filter_sublist.map _), ?_⟩
  rintro key hupper other hbase rfl
  obtain ⟨e, he, rfl⟩ := List.mem_map.mp hbase
  have hnone := (List.mem_filter.mp he).2
  rw [Option.isNone_iff_eq_none, get?_eq_none_iff] at hnone
  exact hnone hupper

end Record

/-! ## Values -/

/-- A value of the language that is data. A `Date` without a time value is an invalid one. -/
inductive JsData where
  | undefined
  | null
  | bool (b : Bool)
  | num (value : JsNumber)
  | str (text : Text)
  | date (time : Option Time)
  | arr (items : List JsData)
  | obj (fields : List (Text × JsData))
  deriving Inhabited

mutual

/-- `JSON.stringify(value)`, up to the text that stands for the document; `none` is `undefined`. -/
def JsData.toJson : JsData → Option Json
  | .undefined => none
  | .null => some .null
  | .bool b => some (.bool b)
  | .num (.finite x) => some (.num (.finite x))
  | .num _ => some .null
  | .str text => some (.str text)
  | .date (some time) => some (.str (toISOString time))
  | .date none => some .null
  | .arr items => some (.arr (itemsToJson items))
  | .obj fields => some (.obj (fieldsToJson fields))

/-- The elements of an array; `undefined` is written as `null`. -/
def itemsToJson : List JsData → List Json
  | [] => []
  | v :: vs => v.toJson.getD .null :: itemsToJson vs

/-- An entry of an object; an `undefined` one is left out. -/
def entryToJson : Text × JsData → Option (Text × Json)
  | (key, v) => v.toJson.map fun j => (key, j)

/-- The entries of an object. -/
def fieldsToJson : Record JsData → Record Json
  | [] => []
  | e :: fields =>
    match entryToJson e with
    | none => fieldsToJson fields
    | some entry => entry :: fieldsToJson fields

end

mutual

/-- A value without the entries that are `undefined`. -/
def JsData.prune : JsData → JsData
  | .arr items => .arr (pruneItems items)
  | .obj fields => .obj (pruneFields fields)
  | v => v

/-- The elements without the entries that are `undefined`. -/
def pruneItems : List JsData → List JsData
  | [] => []
  | v :: vs => v.prune :: pruneItems vs

/-- An entry, unless it is `undefined`. -/
def pruneEntry : Text × JsData → Option (Text × JsData)
  | (_, .undefined) => none
  | (key, v) => some (key, v.prune)

/-- The entries that are not `undefined`. -/
def pruneFields : Record JsData → Record JsData
  | [] => []
  | e :: fields =>
    match pruneEntry e with
    | none => pruneFields fields
    | some entry => entry :: pruneFields fields

end

/-- What a field holds, up to `undefined` entries: an `undefined` field is like an absent one. -/
def JsData.defined : JsData → Option JsData
  | .undefined => none
  | v => some v.prune

/-- What is written under a key is what is there as JSON. -/
theorem get?_fieldsToJson {fields : Record JsData} (hnodup : fields.keys.Nodup) (key : Text) :
    (fieldsToJson fields).get? key = (fields.get? key).bind JsData.toJson := by
  induction fields with
  | nil => rfl
  | cons e fields ih =>
    obtain ⟨k, v⟩ := e
    rw [Record.keys, List.map_cons, List.nodup_cons] at hnodup
    rw [fieldsToJson, entryToJson, Record.get?_cons]
    by_cases hk : k = key
    · subst hk
      have hnone : Record.get? fields k = none := Record.get?_eq_none_iff.mpr hnodup.1
      cases hj : v.toJson with
      | none => simp [ih hnodup.2, hnone, hj]
      | some j => simp [hj]
    · cases hj : v.toJson with
      | none => simp [ih hnodup.2, hk]
      | some j => simp [ih hnodup.2, hk]

end DreamWeaver
