import DreamWeaver.Sessions.RedisSessionState

/-! # Which session an operation reaches

A strict key joins a user and a session id by the separator that ids may contain themselves, and the
legacy key of an id is that of a user and an id that are joined to it. Two ids are kept apart exactly
when neither ends with the separator and the other. -/

namespace DreamWeaver.Sessions.RedisSessionState

/-! ## Joined ids -/

/-- The id ends with the separator and the other id. -/
def EndsWith (id other : Text) : Prop := ∃ before, id = before ++ 58 :: other

variable {s t u v : Text}

/-- An id is longer than what it ends with. -/
theorem EndsWith.ne (h : EndsWith s t) : s ≠ t := by
  obtain ⟨w, rfl⟩ := h
  intro heq
  have hlength := congrArg List.length heq
  simp only [List.length_append, List.length_cons] at hlength
  omega

/-- Two ways of joining a user and an id: the same, or one id ends with the other. -/
theorem join_eq_join_iff :
    u ++ 58 :: s = v ++ 58 :: t ↔ (u = v ∧ s = t) ∨
      (∃ w, v = u ++ 58 :: w ∧ s = w ++ 58 :: t) ∨ ∃ w, u = v ++ 58 :: w ∧ t = w ++ 58 :: s := by
  rw [List.append_eq_append_iff]
  constructor
  · rintro (⟨w, rfl, hw⟩ | ⟨w, rfl, hw⟩)
    · cases w with
      | nil => exact Or.inl ⟨(List.append_nil u).symm, (List.cons.inj hw).2⟩
      | cons c w =>
        obtain ⟨rfl, rfl⟩ := List.cons.inj hw
        exact Or.inr (Or.inl ⟨w, rfl, rfl⟩)
    · cases w with
      | nil => exact Or.inl ⟨List.append_nil v, (List.cons.inj hw).2.symm⟩
      | cons c w =>
        obtain ⟨rfl, rfl⟩ := List.cons.inj hw
        exact Or.inr (Or.inr ⟨w, rfl, rfl⟩)
  · rintro (⟨rfl, rfl⟩ | ⟨w, rfl, rfl⟩ | ⟨w, rfl, rfl⟩)
    · exact Or.inl ⟨[], by simp⟩
    · exact Or.inl ⟨58 :: w, rfl, rfl⟩
    · exact Or.inr ⟨58 :: w, rfl, rfl⟩

/-! ## Keys -/

theorem getStrictKey_eq_iff : getStrictKey u s = getStrictKey v t ↔ u ++ 58 :: s = v ++ 58 :: t :=
  List.append_right_inj _

theorem getLegacyKey_eq_iff : getLegacyKey s = getLegacyKey t ↔ s = t := List.append_right_inj _

/-- A legacy key is the strict key of a user and an id that are joined to the session id. -/
theorem getLegacyKey_eq_getStrictKey_iff : getLegacyKey s = getStrictKey v t ↔ s = v ++ 58 :: t :=
  List.append_right_inj _

theorem getLookupKey_eq_iff : getLookupKey s = getLookupKey t ↔ s = t := List.append_right_inj _

theorem getUserIndexKey_eq_iff : getUserIndexKey u = getUserIndexKey v ↔ u = v := by
  rw [getUserIndexKey, getUserIndexKey, List.append_right_inj, List.append_left_inj]

/-- The keys of the three kinds begin differently. -/
theorem kinds_apart (key : Text) :
    ¬ (lit "dreamweaver:session:" <+: key ∧ lit "dreamweaver:lookup:" <+: key) ∧
      ¬ (lit "dreamweaver:session:" <+: key ∧ lit "dreamweaver:user:" <+: key) ∧
        ¬ (lit "dreamweaver:lookup:" <+: key ∧ lit "dreamweaver:user:" <+: key) := by
  refine ⟨?_, ?_, ?_⟩ <;>
  · rintro ⟨h₁, h₂⟩
    rcases List.prefix_or_prefix_of_prefix h₁ h₂ with h | h <;> exact absurd h (by decide)

/-- A session is never stored under its own legacy key by `set`. -/
theorem getLegacyKey_ne_getStrictKey : getLegacyKey s ≠ getStrictKey u s := fun h =>
  (EndsWith.ne ⟨u, getLegacyKey_eq_getStrictKey_iff.mp h⟩) rfl

/-- An id resolves to a strict key of its own or to its legacy key. -/
theorem resolveKey_cases (db : RedisStore) (now : Time) (sessionId : Text) :
    (∃ u, u ≠ [] ∧ db.lookups.read now (getLookupKey sessionId) = some u ∧
      resolveKey db now sessionId = getStrictKey u sessionId) ∨
        ((∀ u, u ≠ [] → db.lookups.read now (getLookupKey sessionId) ≠ some u) ∧
          resolveKey db now sessionId = getLegacyKey sessionId) := by
  unfold resolveKey
  cases h : db.lookups.read now (getLookupKey sessionId) with
  | none => exact Or.inr ⟨fun u _ hu => (by cases hu), rfl⟩
  | some u =>
    by_cases hu : u = []
    · subst hu
      exact Or.inr ⟨fun u hu heq => hu (Option.some.inj heq).symm, rfl⟩
    · exact Or.inl ⟨u, hu, rfl, if_neg hu⟩

/-- An id resolves to the strict key of a user exactly when its lookup key names the user. -/
theorem resolveKey_eq_getStrictKey_iff {db : RedisStore} {now : Time} :
    resolveKey db now s = getStrictKey u s ↔
      u ≠ [] ∧ db.lookups.read now (getLookupKey s) = some u := by
  rcases resolveKey_cases db now s with ⟨v, hv, hlookup, hkey⟩ | ⟨hnone, hkey⟩
  · rw [hkey, hlookup, getStrictKey_eq_iff, List.append_left_inj, Option.some_inj]
    exact ⟨fun h => ⟨h ▸ hv, h⟩, fun h => h.2⟩
  · rw [hkey]
    exact ⟨fun h => absurd h getLegacyKey_ne_getStrictKey, fun h => absurd h.2 (hnone u h.1)⟩

section

variable {db : RedisStore} {setAt now : Time} {sessionId : Text} {state : SessionState}

/-- The store after `set`, where the session has a document. -/
theorem set_ok (h : (set db setAt sessionId state).1 = .ok ()) :
    ∃ document, (set db setAt sessionId state).2 = {
      sessions := setEx db.sessions setAt (getStrictKey state.userId sessionId) document
      indices := Function.update db.indices (getUserIndexKey state.userId)
        (insert sessionId (db.indices (getUserIndexKey state.userId)))
      lookups := setEx db.lookups setAt (getLookupKey sessionId) state.userId } := by
  rw [set_of_readable (set_ok_iff.mp h)]
  exact ⟨_, rfl⟩

/-- After `set` the id resolves to the key of the session as long as this has not expired. -/
theorem resolveKey_after_set (now : Time) (h : (set db setAt sessionId state).1 = .ok ()) :
    resolveKey (set db setAt sessionId state).2 now sessionId =
      if state.userId ≠ [] ∧ now.ms ≤ setAt.ms + ttl then getStrictKey state.userId sessionId
      else getLegacyKey sessionId := by
  obtain ⟨document, hdb⟩ := set_ok h
  rw [hdb, resolveKey]
  dsimp only
  rw [read_setEx_self]
  by_cases hlive : now.ms ≤ setAt.ms + ttl
  · by_cases hu : state.userId = []
    · simp [hlive, hu]
    · simp [hlive, hu]
  · simp [hlive]

end

/-! ## What an operation touches -/

/-- The store with another entry under a session key. -/
def putSession (db : RedisStore) (key : Text) (entry : Option (Entry (Record Json))) : RedisStore :=
  { db with sessions := Function.update db.sessions key entry }

/-- `get`, `patch` and `rollback` of a session neither read nor write what is under a key. -/
def Ignores (db : RedisStore) (now : Time) (sessionId key : Text) : Prop :=
  ∀ entry,
    (∀ otherFormats, get otherFormats (putSession db key entry) now sessionId =
      get otherFormats db now sessionId) ∧
    (∀ p, patch (putSession db key entry) now sessionId p =
      ((patch db now sessionId p).1, putSession (patch db now sessionId p).2 key entry)) ∧
    ∀ steps, rollback (putSession db key entry) now sessionId steps =
      ((rollback db now sessionId steps).1,
        putSession (rollback db now sessionId steps).2 key entry)

section Frame

variable {db : RedisStore} {now : Time} {key other : Text} {entry : Option (Entry (Record Json))}

theorem read_putSession_of_ne (h : other ≠ key) :
    (putSession db key entry).sessions.read now other = db.sessions.read now other := by
  unfold putSession
  exact KeySpace.read_congr (Function.update_of_ne h entry db.sessions)

@[simp] theorem resolveKey_putSession :
    resolveKey (putSession db key entry) now s = resolveKey db now s := rfl

/-- Writing under one key commutes with putting an entry under another. -/
theorem setEx_putSession_of_ne (h : other ≠ key) (document : Record Json) :
    ({ putSession db key entry with
      sessions := setEx (putSession db key entry).sessions now other document } : RedisStore) =
        putSession { db with sessions := setEx db.sessions now other document } key entry := by
  rw [putSession, putSession, setEx, setEx]
  dsimp only
  rw [Function.update_comm h.symm]

/-- **Frame**: an operation ignores every key but the one it resolves to. -/
theorem ignores_of_ne (h : resolveKey db now s ≠ key) : Ignores db now s key := by
  intro entry
  refine ⟨fun otherFormats => ?_, fun p => ?_, fun steps => ?_⟩
  · rw [get, get, resolveKey_putSession, getKey, getKey, read_putSession_of_ne h]
  · rw [patch, patch, resolveKey_putSession, patchKey, patchKey, read_putSession_of_ne h]
    cases db.sessions.read now (resolveKey db now s) with
    | none => rfl
    | some current =>
      dsimp only
      cases patchScript current _ with
      | error e => rfl
      | ok document => exact congrArg _ (setEx_putSession_of_ne h document)
  · rw [rollback, rollback, resolveKey_putSession, rollbackKey, rollbackKey,
      read_putSession_of_ne h]
    cases db.sessions.read now (resolveKey db now s) with
    | none => rfl
    | some current =>
      dsimp only
      cases rollbackScript current steps with
      | error e => rfl
      | ok result =>
        cases result with
        | none => rfl
        | some document => exact congrArg _ (setEx_putSession_of_ne h document)

end Frame

/-- Sessions with the two ids are apart: in every reachable store the operations on the first ignore
whatever the second is stored under, and no key of the first is one of the second. -/
def Apart (s t : Text) : Prop :=
  (∀ calls now db, Reachable calls now db →
    (∀ v, Ignores db now s (getStrictKey v t)) ∧ Ignores db now s (getLegacyKey t)) ∧
  ∀ u v, getStrictKey u s ≠ getStrictKey v t ∧ getStrictKey u s ≠ getLegacyKey t ∧
    getLegacyKey s ≠ getStrictKey v t

/-- An id that ends with the other has a key in common with it. -/
theorem Apart.not_endsWith (h : Apart s t) : ¬ EndsWith s t ∧ ¬ EndsWith t s := by
  obtain ⟨-, hkeys⟩ := h
  refine ⟨?_, ?_⟩
  · rintro ⟨w, hs⟩
    exact (hkeys [] w).2.2 (getLegacyKey_eq_getStrictKey_iff.mpr hs)
  · rintro ⟨w, ht⟩
    exact (hkeys w []).2.1 (getLegacyKey_eq_getStrictKey_iff.mpr ht).symm

/-- **Sessions with different ids are apart exactly when neither id ends with the separator and the
other.** -/
theorem apart_iff (hne : s ≠ t) : Apart s t ↔ ¬ EndsWith s t ∧ ¬ EndsWith t s := by
  constructor
  · exact Apart.not_endsWith
  · rintro ⟨hs, ht⟩
    have hkeys : ∀ u v, getStrictKey u s ≠ getStrictKey v t ∧ getStrictKey u s ≠ getLegacyKey t ∧
        getLegacyKey s ≠ getStrictKey v t := by
      intro u v
      refine ⟨?_, ?_, ?_⟩
      · intro h
        rcases join_eq_join_iff.mp (getStrictKey_eq_iff.mp h) with h | ⟨w, -, h⟩ | ⟨w, -, h⟩
        · exact hne h.2
        · exact hs ⟨w, h⟩
        · exact ht ⟨w, h⟩
      · intro h
        exact ht ⟨u, getLegacyKey_eq_getStrictKey_iff.mp h.symm⟩
      · intro h
        exact hs ⟨v, getLegacyKey_eq_getStrictKey_iff.mp h⟩
    refine ⟨fun calls now db _ => ⟨fun v => ignores_of_ne ?_, ignores_of_ne ?_⟩, hkeys⟩
    · rcases resolveKey_cases db now s with ⟨u, -, -, hkey⟩ | ⟨-, hkey⟩
      · rw [hkey]
        exact (hkeys u v).1
      · rw [hkey]
        exact (hkeys [] v).2.2
    · rcases resolveKey_cases db now s with ⟨u, -, -, hkey⟩ | ⟨-, hkey⟩
      · rw [hkey]
        exact (hkeys u []).2.1
      · rw [hkey]
        exact fun h => hne (getLegacyKey_eq_iff.mp h)

/-- The ids `morning` and `evening` are apart. -/
theorem apart_morning_evening : Apart (lit "morning") (lit "evening") := by
  refine (apart_iff (by decide)).mpr ⟨?_, ?_⟩
  · rintro ⟨w, h⟩
    have hmem : (58 : CodeUnit) ∈ lit "morning" := by simp [h]
    exact absurd hmem (by decide)
  · rintro ⟨w, h⟩
    have hmem : (58 : CodeUnit) ∈ lit "evening" := by simp [h]
    exact absurd hmem (by decide)

/-- A new session of a user: `{ sessionId, userId, phase: 'IDLE' }`. -/
def idleState (userId sessionId : Text) : SessionState where
  fields := [(lit "sessionId", .str sessionId), (lit "userId", .str userId),
    (lit "phase", .str (lit "IDLE"))]
  nodup := by
    simp only [Record.keys, List.map_cons, List.map_nil]
    decide
  userId := userId
  userId_eq := by
    rw [Record.get?_cons_mk, if_neg (by decide), Record.get?_cons_mk, if_pos rfl]
  no_history := by
    rw [Record.get?_cons_mk, if_neg (by decide), Record.get?_cons_mk, if_neg (by decide),
      Record.get?_cons_mk, if_neg (by decide), Record.get?_nil]
  history := none

/-- User `u` has a session `t`; the id `u:t`, which nobody has used, leads to it. -/
theorem joined_id_reaches_session :
    ∃ calls now db, Reachable calls now db ∧
      db.lookups (getLookupKey (lit "u:t")) = none ∧
      (get (fun _ => none) db now (lit "t")).isSome = true ∧
      get (fun _ => none) db now (lit "u:t") = get (fun _ => none) db now (lit "t") ∧
      ¬ Apart (lit "u:t") (lit "t") := by
  have hread : fieldsReadable (setPayload ⟨0, by decide⟩ (idleState (lit "u") (lit "t"))) = true := by
    decide
  refine ⟨_, ⟨1, by decide⟩, _,
    .call (.set (lit "t") (idleState (lit "u") (lit "t"))) (.empty ⟨0, by decide⟩) (by decide), ?_⟩
  rw [perform, set_of_readable hread]
  have hlive : (1 : ℤ) ≤ 0 + ttl := by decide
  -- Both ids resolve to the one key: `t` by its lookup key, `u:t` as a legacy key.
  have hown : ∀ db : RedisStore, db.lookups.read ⟨1, by decide⟩ (getLookupKey (lit "t")) =
      some (lit "u") → resolveKey db ⟨1, by decide⟩ (lit "t") = getStrictKey (lit "u") (lit "t") :=
    fun db h => resolveKey_eq_getStrictKey_iff.mpr ⟨by decide, h⟩
  refine ⟨rfl, ?_, ?_, ?_⟩
  · rw [get, hown _ (by dsimp only; rw [read_setEx_self, if_pos hlive]; rfl), getKey]
    dsimp only
    rw [show (idleState (lit "u") (lit "t")).userId = lit "u" from rfl, read_setEx_self,
      if_pos hlive]
    rfl
  · rw [get, get, hown _ (by dsimp only; rw [read_setEx_self, if_pos hlive]; rfl)]
    rfl
  · intro h
    exact h.not_endsWith.1 ⟨lit "u", rfl⟩

end DreamWeaver.Sessions.RedisSessionState
