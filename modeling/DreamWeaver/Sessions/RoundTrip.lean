import DreamWeaver.Sessions.SessionKeys

/-! # What a session keeps in Redis

A state passes through `JSON.stringify`, a Lua table and `JSON.parse` with a date reviver. A value
*survives* under its key when nothing of this changes it: numbers have at most 14 digits, arrays are
not empty, dates are valid and stand under the date keys, and no other string there reads as a date.
A state comes back unchanged, also after patches of other fields, exactly when its values survive. -/

namespace DreamWeaver.Sessions.RedisSessionState

/-! ## Values that survive -/

mutual

/-- The value under the key is read back as it was written. -/
def Survives (otherFormats : Text → Option Time) (key : Option Text) : JsData → Prop
  | .undefined => False
  | .null => True
  | .bool _ => True
  | .num (.finite x) => double (significant 14 x) = x
  | .num _ => False
  | .str text =>
    isWellFormed text = true ∧ (isDateKey key = true → dateParse otherFormats text = none)
  | .date (some _) => isDateKey key = true
  | .date none => False
  | .arr [] => False
  | .arr (v :: vs) => Survives otherFormats none v ∧ ItemsSurvive otherFormats vs
  | .obj fields => FieldsSurvive otherFormats fields

/-- Every element survives. -/
def ItemsSurvive (otherFormats : Text → Option Time) : List JsData → Prop
  | [] => True
  | v :: vs => Survives otherFormats none v ∧ ItemsSurvive otherFormats vs

/-- The entry is undefined or survives. -/
def EntrySurvives (otherFormats : Text → Option Time) : Text × JsData → Prop
  | (_, .undefined) => True
  | (key, v) => isWellFormed key = true ∧ Survives otherFormats (some key) v

/-- Every entry that is not undefined survives. -/
def FieldsSurvive (otherFormats : Text → Option Time) : List (Text × JsData) → Prop
  | [] => True
  | e :: fields => EntrySurvives otherFormats e ∧ FieldsSurvive otherFormats fields

end

variable {otherFormats : Text → Option Time}

/-- An entry that is not undefined survives under a key that can be read. -/
theorem entrySurvives_iff {key : Text} {v : JsData} (hv : v ≠ .undefined) :
    EntrySurvives otherFormats (key, v) ↔
      isWellFormed key = true ∧ Survives otherFormats (some key) v := by
  cases v with
  | undefined => exact absurd rfl hv
  | _ => rfl

/-- Only `undefined` is not written. -/
theorem exists_toJson {v : JsData} (hv : v ≠ .undefined) : ∃ j, v.toJson = some j := by
  cases v with
  | undefined => exact absurd rfl hv
  | num x => cases x <;> exact ⟨_, rfl⟩
  | date time => cases time <;> exact ⟨_, rfl⟩
  | _ => exact ⟨_, rfl⟩

/-- The entry of a value that is not undefined is kept. -/
theorem pruneEntry_of_ne {key : Text} {v : JsData} (hv : v ≠ .undefined) :
    pruneEntry (key, v) = some (key, v.prune) := by
  cases v with
  | undefined => exact absurd rfl hv
  | _ => rfl

theorem Survives.ne_undefined {key : Option Text} {v : JsData} (h : Survives otherFormats key v) :
    v ≠ .undefined := by
  rintro rfl
  exact h

/-- The script reads the text of a time. -/
theorem isWellFormed_of_forall_lt {s : Text} (h : ∀ c ∈ s, c.toNat < 0xD800) :
    isWellFormed s = true := by
  have hplain : ∀ c : CodeUnit, c.toNat < 0xD800 →
      isHighSurrogate c = false ∧ isLowSurrogate c = false := by
    intro c hc
    simp only [isHighSurrogate, isLowSurrogate, Bool.and_eq_false_iff, decide_eq_false_iff_not,
      UInt16.le_iff_toNat_le, UInt16.reduceToNat]
    omega
  fun_induction isWellFormed s with
  | case1 => rfl
  | case2 c => simp [hplain c (h c (by simp))]
  | case3 c d s hhigh ih => simp [(hplain c (h c (by simp))).1] at hhigh
  | case4 c d s hhigh ih =>
    rw [(hplain c (h c (by simp))).2, ih fun c hc => h c (List.mem_cons_of_mem _ hc)]
    rfl

/-- The units of a field of digits are digits. -/
theorem lt_of_mem_fixedDigits {k n : ℕ} {c : CodeUnit} (hc : c ∈ fixedDigits k n) :
    c.toNat < 0xD800 := by
  have hdigit := List.all_eq_true.mp (all_isDigit_fixedDigits k n) c hc
  have hrange := isDigit_ten_iff.mp hdigit
  omega

/-- The script reads the text of a time. -/
theorem isWellFormed_toISOString (t : Time) : isWellFormed (toISOString t) = true := by
  refine isWellFormed_of_forall_lt fun c hc => ?_
  have hyear : ∀ c ∈ yearText (calendarDay (t.ms / 86400000)).year, c.toNat < 0xD800 := by
    intro c hc
    unfold yearText at hc
    split at hc
    · exact lt_of_mem_fixedDigits hc
    · rcases List.mem_cons.mp hc with rfl | hc
      · split <;> decide
      · exact lt_of_mem_fixedDigits hc
  have hunit : ∀ d ∈ [(45 : CodeUnit), 84, 58, 46, 90], d.toNat < 0xD800 := by simp
  simp only [toISOString, List.mem_append, List.mem_cons, List.not_mem_nil, or_false] at hc
  rcases hc with hc | rfl | hc | rfl | hc | rfl | hc | rfl | hc | rfl | hc | rfl | hc | rfl
  all_goals first
    | exact hyear _ hc
    | exact lt_of_mem_fixedDigits hc
    | exact hunit _ (by decide)

/-- A date under a date key is read back. -/
theorem revive_toISOString {key : Option Text} (hkey : isDateKey key = true) (t : Time) :
    revive otherFormats key (.str (toISOString t)) = .date (some t) := by
  rw [revive, if_pos hkey, dateParse, parseIso_toISOString]

mutual

/-- A value that survives is accepted by the script, left as it is and read back. -/
theorem Survives.spec {key : Option Text} : ∀ {v : JsData} {j : Json}, v.toJson = some j →
    Survives otherFormats key v →
      j.isReadable = true ∧ j.recode = j ∧ revive otherFormats key j = v.prune
  | .undefined, _, _, h => h.elim
  | .null, _, hj, _ => by
    cases hj
    exact ⟨rfl, rfl, rfl⟩
  | .bool b, _, hj, _ => by
    cases hj
    exact ⟨rfl, rfl, rfl⟩
  | .num .nan, _, _, h => h.elim
  | .num .posInfinity, _, _, h => h.elim
  | .num .negInfinity, _, _, h => h.elim
  | .num (.finite x), _, hj, h => by
    cases hj
    have hx : double (significant 14 x) = x := h
    refine ⟨rfl, ?_, rfl⟩
    rw [Json.recode, fourteenDigits, hx]
  | .str text, _, hj, h => by
    cases hj
    obtain ⟨hread, hdate⟩ := h
    refine ⟨hread, rfl, ?_⟩
    rw [revive]
    split
    · rename_i hkey
      rw [hdate hkey]
      rfl
    · rfl
  | .date none, _, _, h => h.elim
  | .date (some t), _, hj, h => by
    cases hj
    exact ⟨isWellFormed_toISOString t, rfl, revive_toISOString h t⟩
  | .arr [], _, _, h => h.elim
  | .arr (v :: vs), _, hj, h => by
    cases hj
    obtain ⟨hread, hrecode, hrevive⟩ := @ItemsSurvive.spec (v :: vs) h
    refine ⟨hread, ?_, ?_⟩
    · rw [itemsToJson] at hrecode ⊢
      rw [Json.recode]
      exact congrArg Json.arr hrecode
    · rw [revive, hrevive]
      rfl
  | .obj fields, _, hj, h => by
    cases hj
    obtain ⟨hread, hrecode, hrevive⟩ := @FieldsSurvive.spec fields h
    refine ⟨hread, ?_, ?_⟩
    · rw [Json.recode, hrecode]
    · rw [revive, hrevive]
      rfl

/-- Elements that survive. -/
theorem ItemsSurvive.spec : ∀ {vs : List JsData}, ItemsSurvive otherFormats vs →
    itemsReadable (itemsToJson vs) = true ∧ recodeItems (itemsToJson vs) = itemsToJson vs ∧
      reviveItems otherFormats (itemsToJson vs) = pruneItems vs
  | [], _ => ⟨rfl, rfl, rfl⟩
  | v :: vs, h => by
    obtain ⟨hv, hvs⟩ := h
    obtain ⟨j, hj⟩ := exists_toJson hv.ne_undefined
    obtain ⟨hread, hrecode, hrevive⟩ := Survives.spec hj hv
    obtain ⟨hreads, hrecodes, hrevives⟩ := ItemsSurvive.spec hvs
    rw [itemsToJson, hj, Option.getD_some]
    refine ⟨?_, ?_, ?_⟩
    · rw [itemsReadable, hread, hreads]
      rfl
    · rw [recodeItems, hrecode, hrecodes]
    · rw [reviveItems, hrevive, hrevives, pruneItems]

/-- Entries that survive. -/
theorem FieldsSurvive.spec : ∀ {fields : List (Text × JsData)},
    FieldsSurvive otherFormats fields → fieldsReadable (fieldsToJson fields) = true ∧
      recodeFields (fieldsToJson fields) = fieldsToJson fields ∧
      reviveFields otherFormats (fieldsToJson fields) = pruneFields fields
  | [], _ => ⟨rfl, rfl, rfl⟩
  | (key, v) :: fields, h => by
    obtain ⟨hv, hfields⟩ := h
    have ih := FieldsSurvive.spec hfields
    by_cases hundefined : v = .undefined
    · subst hundefined
      exact ih
    · obtain ⟨hkey, hsurvives⟩ := (entrySurvives_iff hundefined).mp hv
      obtain ⟨j, hj⟩ := exists_toJson hundefined
      obtain ⟨hread, hrecode, hrevive⟩ := Survives.spec hj hsurvives
      have hentry : entryToJson (key, v) = some (key, j) := by rw [entryToJson, hj, Option.map_some]
      rw [fieldsToJson, hentry, pruneFields, pruneEntry_of_ne hundefined]
      dsimp only
      refine ⟨?_, ?_, ?_⟩
      · rw [fieldsReadable, entryReadable, hkey, hread, ih.1]
        rfl
      · rw [recodeFields, recodeEntry, hrecode, ih.2.1]
      · rw [reviveFields, reviveEntry, hrevive, ih.2.2]

end

mutual

/-- A value that is accepted and read back unchanged survives. -/
theorem survives_of_revive {key : Option Text} : ∀ {v : JsData} {j : Json}, v.toJson = some j →
    j.isReadable = true → revive otherFormats key j.recode = v.prune →
      Survives otherFormats key v
  | .undefined, _, hj, _, _ => by cases hj
  | .null, _, _, _, _ => trivial
  | .bool _, _, _, _, _ => trivial
  | .num .nan, _, hj, _, h => by
    cases hj
    cases h
  | .num .posInfinity, _, hj, _, h => by
    cases hj
    cases h
  | .num .negInfinity, _, hj, _, h => by
    cases hj
    cases h
  | .num (.finite x), _, hj, _, h => by
    cases hj
    rw [Json.recode, fourteenDigits, revive] at h
    exact JsNumber.finite.inj (JsData.num.inj h)
  | .str text, _, hj, hread, h => by
    cases hj
    refine ⟨hread, fun hkey => ?_⟩
    rw [Json.recode, revive, if_pos hkey] at h
    · cases hparse : dateParse otherFormats text with
      | none => rfl
      | some t =>
        rw [hparse] at h
        cases h
    all_goals simp
  | .date none, _, hj, _, h => by
    cases hj
    cases h
  | .date (some t), _, hj, _, h => by
    cases hj
    show isDateKey key = true
    by_contra hkey
    rw [Json.recode, revive, if_neg hkey] at h
    · cases h
    all_goals simp
  | .arr [], _, hj, _, h => by
    cases hj
    cases h
  | .arr (v :: vs), _, hj, hread, h => by
    cases hj
    refine @itemsSurvive_of_revive (v :: vs) hread ?_
    rw [itemsToJson, Json.recode, revive] at h
    rw [itemsToJson, recodeItems]
    exact JsData.arr.inj h
  | .obj fields, _, hj, hread, h => by
    cases hj
    refine @fieldsSurvive_of_revive fields hread ?_
    rw [Json.recode, revive] at h
    exact JsData.obj.inj h

/-- Elements that are accepted and read back unchanged survive. -/
theorem itemsSurvive_of_revive : ∀ {vs : List JsData}, itemsReadable (itemsToJson vs) = true →
    reviveItems otherFormats (recodeItems (itemsToJson vs)) = pruneItems vs →
      ItemsSurvive otherFormats vs
  | [], _, _ => trivial
  | v :: vs, hread, h => by
    rw [itemsToJson, itemsReadable, Bool.and_eq_true] at hread
    rw [itemsToJson, recodeItems, reviveItems, pruneItems] at h
    obtain ⟨hhead, htail⟩ := List.cons.inj h
    refine ⟨?_, itemsSurvive_of_revive hread.2 htail⟩
    by_cases hundefined : v = .undefined
    · subst hundefined
      cases hhead
    · obtain ⟨j, hj⟩ := exists_toJson hundefined
      rw [hj, Option.getD_some] at hhead hread
      exact survives_of_revive hj hread.1 hhead

/-- Entries that are accepted and read back unchanged survive. -/
theorem fieldsSurvive_of_revive : ∀ {fields : List (Text × JsData)},
    fieldsReadable (fieldsToJson fields) = true →
    reviveFields otherFormats (recodeFields (fieldsToJson fields)) = pruneFields fields →
      FieldsSurvive otherFormats fields
  | [], _, _ => trivial
  | (key, v) :: fields, hread, h => by
    by_cases hundefined : v = .undefined
    · subst hundefined
      exact ⟨trivial, fieldsSurvive_of_revive hread h⟩
    · obtain ⟨j, hj⟩ := exists_toJson hundefined
      have hentry : entryToJson (key, v) = some (key, j) := by rw [entryToJson, hj, Option.map_some]
      rw [fieldsToJson, hentry] at hread h
      dsimp only at hread h
      rw [pruneFields, pruneEntry_of_ne hundefined, recodeFields, recodeEntry, reviveFields,
        reviveEntry] at h
      rw [fieldsReadable, entryReadable, Bool.and_eq_true, Bool.and_eq_true] at hread
      obtain ⟨hhead, htail⟩ := List.cons.inj h
      refine ⟨(entrySurvives_iff hundefined).mpr ⟨hread.1.1, ?_⟩,
        fieldsSurvive_of_revive hread.2 htail⟩
      exact survives_of_revive hj hread.1.2 (Prod.mk.inj hhead).2

end

/-! ## Round trips -/

/-- The patches of a session, one after the other. -/
def patchAll (db : RedisStore) (sessionId : Text) (patches : List (Time × SessionStatePatch)) :
    RedisStore :=
  patches.foldl (fun db p => (patch db p.1 sessionId p.2).2) db

section

variable {db : RedisStore} {setAt : Time} {userId sessionId key : Text} {j? : Option Json}

/-- As long as the keys that `set` wrote live, the id resolves to the key of the session, whose
document has the given value under an entry. -/
def Kept (db : RedisStore) (setAt : Time) (userId sessionId key : Text) (j? : Option Json) : Prop :=
  ∀ t : Time, setAt.ms ≤ t.ms → t.ms ≤ setAt.ms + ttl →
    resolveKey db t sessionId = getStrictKey userId sessionId ∧
      ∃ document, db.sessions.read t (getStrictKey userId sessionId) = some document ∧
        document.get? key = j?

/-- **Step lemma**: a patch of other fields keeps an entry that recoding does not change. -/
theorem Kept.patch {p : SessionStatePatch} {t : Time} (h : Kept db setAt userId sessionId key j?)
    (hstable : j?.map Json.recode = j?) (hupdated : key ≠ lit "updatedAt")
    (hhistory : key ≠ lit "history") (hp : p.fields.get? key = none) (hfrom : setAt.ms ≤ t.ms)
    (hto : t.ms ≤ setAt.ms + ttl) :
    Kept (patch db t sessionId p).2 setAt userId sessionId key j? := by
  obtain ⟨hresolve, current, hcurrent, hget⟩ := h t hfrom hto
  rw [RedisSessionState.patch, hresolve]
  by_cases hread : fieldsReadable (patchPayload t p) = true
  · intro t' hfrom' hto'
    have hlive : t'.ms ≤ t.ms + ttl := by omega
    have hpayload : (patchPayload t p).get? key = none := by
      rw [patchPayload, get?_fieldsToJson (Record.nodup_spread p.nodup Record.nodup_singleton),
        Record.get?_spread_singleton, if_neg hupdated, hp, Option.bind_none]
    have hdocument := get?_recodeFields
      (withHistory (some current) (current.spread (patchPayload t p))) key
    rw [get?_withHistory hhistory, Record.get?_spread, hpayload, Option.none_or, hget,
      hstable] at hdocument
    rw [patchKey_of_readable hcurrent hread]
    refine ⟨(h t' hfrom' hto').1, _, ?_, hdocument⟩
    dsimp only
    rw [read_setEx_self, if_pos hlive]
  · rw [patchKey_eq_self (Or.inr (Bool.eq_false_iff.mpr hread))]
    exact h

/-- Any number of patches of other fields keeps an entry that recoding does not change. -/
theorem Kept.patchAll {patches : List (Time × SessionStatePatch)}
    (h : Kept db setAt userId sessionId key j?) (hstable : j?.map Json.recode = j?)
    (hupdated : key ≠ lit "updatedAt") (hhistory : key ≠ lit "history")
    (hpatches : ∀ p ∈ patches, p.2.fields.get? key = none ∧ setAt.ms ≤ p.1.ms ∧
      p.1.ms ≤ setAt.ms + ttl) :
    Kept (patchAll db sessionId patches) setAt userId sessionId key j? := by
  induction patches generalizing db with
  | nil => exact h
  | cons p patches ih =>
    obtain ⟨hp, hrest⟩ := List.forall_mem_cons.mp hpatches
    exact ih (h.patch hstable hupdated hhistory hp.1 hp.2.1 hp.2.2) hrest

/-- `set` keeps every entry of a state of a user. -/
theorem kept_set (db : RedisStore) (sessionId : Text) {state : SessionState}
    (hread : fieldsReadable (setPayload setAt state) = true)
    (huser : state.userId ≠ []) (hhistory : key ≠ lit "history") :
    Kept (set db setAt sessionId state).2 setAt state.userId sessionId key
      (((setPayload setAt state).get? key).map Json.recode) := by
  intro t hfrom hto
  have hdocument := get?_recodeFields (withHistory
    (db.sessions.read setAt (getStrictKey state.userId sessionId)) (setPayload setAt state)) key
  rw [get?_withHistory hhistory] at hdocument
  rw [set_of_readable hread]
  refine ⟨resolveKey_eq_getStrictKey_iff.mpr ⟨huser, ?_⟩, _, ?_, hdocument⟩
  · dsimp only
    rw [read_setEx_self, if_pos hto]
  · dsimp only
    rw [read_setEx_self, if_pos hto]

end

/-- `get` after `set`, and after any patches of other fields while the keys live, returns the fields
of the state other than `updatedAt` and `history`. -/
def RoundTrips (otherFormats : Text → Option Time) (state : SessionState) : Prop :=
  ∀ db setAt sessionId patches (now : Time), setAt.ms ≤ now.ms → now.ms ≤ setAt.ms + ttl →
    (∀ p ∈ patches, setAt.ms ≤ p.1.ms ∧ p.1.ms ≤ now.ms) →
    (set db setAt sessionId state).1 = .ok () ∧
    ∃ fields, get otherFormats (patchAll (set db setAt sessionId state).2 sessionId patches) now
        sessionId = some fields ∧
      ∀ key, key ≠ lit "updatedAt" → key ≠ lit "history" →
        (∀ p ∈ patches, p.2.fields.get? key = none) →
        fields.get? key = (state.fields.get? key).bind JsData.defined

variable {state : SessionState}

/-- The payload of `set` has the fields of the state, as JSON. -/
theorem get?_setPayload {setAt : Time} {key : Text} (hupdated : key ≠ lit "updatedAt") :
    (setPayload setAt state).get? key = (state.fields.get? key).bind JsData.toJson := by
  rw [setPayload, get?_fieldsToJson (state.touched setAt).nodup,
    SessionStateSnapshot.get?_touched _ _ hupdated]

theorem fieldsSurvive_iff {fields : Record JsData} : FieldsSurvive otherFormats fields ↔
    ∀ e ∈ fields, EntrySurvives otherFormats e := by
  induction fields with
  | nil => exact iff_of_true trivial (by simp)
  | cons e fields ih => rw [FieldsSurvive, ih, List.forall_mem_cons]

/-- A state whose values survive is written as it is, but for its `updatedAt`. -/
theorem fieldsSurvive_touched (setAt : Time)
    (h : ∀ e ∈ state.fields, e.1 ≠ lit "updatedAt" → EntrySurvives otherFormats e) :
    FieldsSurvive otherFormats (state.touched setAt).fields := by
  rw [fieldsSurvive_iff]
  intro e he
  rcases List.mem_append.mp he with he | he
  · rw [List.mem_singleton.mp he]
    exact ⟨by decide, show isDateKey (some (lit "updatedAt")) = true by decide⟩
  · obtain ⟨he, hkey⟩ := List.mem_filter.mp he
    refine h e he ?_
    rintro heq
    rw [heq, Record.get?_cons_mk, if_pos rfl] at hkey
    cases hkey

/-- The value of an entry that comes back is a defined one. -/
theorem defined_of_ne {v : JsData} (hv : v ≠ .undefined) : v.defined = some v.prune := by
  cases v with
  | undefined => exact absurd rfl hv
  | _ => rfl

/-- What is written under a key of a state whose values survive is not changed by recoding and reads
back as the value. -/
theorem setPayload_entry (setAt : Time) {key : Text}
    (h : ∀ e ∈ state.fields, e.1 ≠ lit "updatedAt" → EntrySurvives otherFormats e)
    (hupdated : key ≠ lit "updatedAt") :
    ((setPayload setAt state).get? key).map Json.recode = (setPayload setAt state).get? key ∧
      ((setPayload setAt state).get? key).map (revive otherFormats (some key)) =
        (state.fields.get? key).bind JsData.defined := by
  rw [get?_setPayload hupdated]
  cases hv : state.fields.get? key with
  | none => exact ⟨rfl, rfl⟩
  | some v =>
    by_cases hundefined : v = .undefined
    · subst hundefined
      exact ⟨rfl, rfl⟩
    · obtain ⟨j, hj⟩ := exists_toJson hundefined
      have hentry := h _ (Record.mem_of_get? hv) hupdated
      obtain ⟨-, hrecode, hrevive⟩ := ((entrySurvives_iff hundefined).mp hentry).2.spec hj
      rw [Option.bind_some, hj, Option.map_some, Option.map_some, hrecode, hrevive,
        Option.bind_some, defined_of_ne hundefined]
      exact ⟨rfl, rfl⟩

/-- The values of a state that comes back survive. -/
theorem RoundTrips.survive (h : RoundTrips otherFormats state) : state.userId ≠ [] ∧
    ∀ e ∈ state.fields, e.1 ≠ lit "updatedAt" → EntrySurvives otherFormats e := by
  obtain ⟨hset, fields, hget, hfields⟩ := h empty ⟨0, by decide⟩ (lit "s") [] ⟨0, by decide⟩
    le_rfl (by decide) (by simp)
  have hread := set_ok_iff.mp hset
  have huser : state.userId ≠ [] := by
    intro hu
    have hkey := resolveKey_after_set ⟨0, by decide⟩ hset
    rw [if_neg fun h => h.1 hu] at hkey
    rw [patchAll, List.foldl_nil, get, hkey, getKey, set_of_readable hread] at hget
    dsimp only at hget
    rw [read_setEx_of_ne getLegacyKey_ne_getStrictKey] at hget
    cases hget
  refine ⟨huser, ?_⟩
  rintro ⟨key, v⟩ hmem hupdated
  by_cases hundefined : v = .undefined
  · subst hundefined
    exact trivial
  · have hv := Record.get?_of_mem state.nodup hmem
    have hhistory : key ≠ lit "history" := by
      rintro rfl
      rw [state.no_history] at hv
      cases hv
    obtain ⟨j, hj⟩ := exists_toJson hundefined
    have hpayload : (setPayload ⟨0, by decide⟩ state).get? key = some j := by
      rw [get?_setPayload hupdated, hv, Option.bind_some, hj]
    have hreads := fieldsReadable_iff.mp hread _ (Record.mem_of_get? hpayload)
    obtain ⟨hresolve, document, hdocument, hentry⟩ :=
      kept_set empty (lit "s") hread huser hhistory ⟨0, by decide⟩ le_rfl
        (by decide)
    rw [patchAll, List.foldl_nil, get, hresolve, getKey, hdocument, Option.map_some,
      Option.some_inj] at hget
    have hback := hfields key hupdated hhistory (by simp)
    rw [← hget, get?_reviveFields, hentry, hpayload, hv, Option.map_some, Option.map_some,
      Option.bind_some, defined_of_ne hundefined, Option.some_inj] at hback
    exact (entrySurvives_iff hundefined).mpr
      ⟨hreads.1, survives_of_revive hj hreads.2 hback⟩

/-- A state whose values survive comes back. -/
theorem roundTrips_of_survive (huser : state.userId ≠ [])
    (hsurvive : ∀ e ∈ state.fields, e.1 ≠ lit "updatedAt" → EntrySurvives otherFormats e) :
    RoundTrips otherFormats state := by
  intro db setAt sessionId patches now hfrom hto hpatches
  obtain ⟨hread, -, -⟩ := (fieldsSurvive_touched setAt hsurvive).spec
  have hwindow : ∀ key, (∀ p ∈ patches, p.2.fields.get? key = none) → ∀ p ∈ patches,
      p.2.fields.get? key = none ∧ setAt.ms ≤ p.1.ms ∧ p.1.ms ≤ setAt.ms + ttl :=
    fun key hother p hp => ⟨hother p hp, (hpatches p hp).1, (hpatches p hp).2.trans hto⟩
  -- What is under a key of the state that no patch touches is there at the end.
  have hkept : ∀ key, key ≠ lit "updatedAt" → key ≠ lit "history" →
      (∀ p ∈ patches, p.2.fields.get? key = none) →
      Kept (patchAll (set db setAt sessionId state).2 sessionId patches) setAt state.userId
        sessionId key ((setPayload setAt state).get? key) := by
    intro key hupdated hhistory hother
    obtain ⟨hstable, -⟩ := setPayload_entry setAt hsurvive hupdated
    have hset := kept_set db sessionId hread huser hhistory
    rw [hstable] at hset
    exact hset.patchAll hstable hupdated hhistory (hwindow key hother)
  refine ⟨set_ok_iff.mpr hread, ?_⟩
  obtain ⟨hresolve, document, hdocument, -⟩ := hkept (lit "userId") (by decide) (by decide)
    (fun p _ => p.2.allowed _ (by simp [unpatchable])) now hfrom hto
  refine ⟨reviveFields otherFormats document, ?_, fun key hupdated hhistory hother => ?_⟩
  · rw [get, hresolve, getKey, hdocument, Option.map_some]
  · obtain ⟨-, document', hdocument', hentry⟩ := hkept key hupdated hhistory hother now hfrom hto
    obtain rfl : document = document' := Option.some.inj (hdocument.symm.trans hdocument')
    rw [get?_reviveFields, hentry]
    exact (setPayload_entry setAt hsurvive hupdated).2

/-- **A state comes back unchanged exactly when its values survive**, and its user id is not
empty. -/
theorem roundTrips_iff : RoundTrips otherFormats state ↔ state.userId ≠ [] ∧
    ∀ e ∈ state.fields, e.1 ≠ lit "updatedAt" → EntrySurvives otherFormats e :=
  ⟨RoundTrips.survive, fun h => roundTrips_of_survive h.1 h.2⟩

/-- A state without goals: `{ userId: 'ana', activeGoals: [] }`. -/
def goalless : SessionState where
  fields := [(lit "userId", .str (lit "ana")), (lit "activeGoals", .arr [])]
  nodup := by decide
  userId := lit "ana"
  userId_eq := by rw [Record.get?_cons_mk, if_pos rfl]
  no_history := by
    rw [Record.get?_cons_mk, if_neg (by decide), Record.get?_cons_mk, if_neg (by decide),
      Record.get?_nil]
  history := none

/-- An empty array does not come back. -/
theorem goalless_not_roundTrips : ¬ RoundTrips (fun _ => none) goalless := by
  intro h
  have hentry := h.survive.2 (lit "activeGoals", .arr []) (by simp [goalless]) (by decide)
  exact hentry.2

end DreamWeaver.Sessions.RedisSessionState
