import DreamWeaver.Sessions.SessionKeys

/-! # Reaching a session while it lives

A session is reached through its lookup key. `set` gives both keys the same time to live; `patch` and
`rollback` renew the key of the session only, so that it can outlive its lookup key. -/

namespace DreamWeaver.Sessions.RedisSessionState

variable {calls : List (Time × SessionOp)} {now later : Time} {db : RedisStore} {s u : Text}

/-- No call is later than the present. -/
theorem Reachable.le_now (h : Reachable calls now db) : ∀ c ∈ calls, c.1.ms ≤ now.ms := by
  induction h with
  | empty now => simp
  | @call calls t now db op h hle ih =>
    intro c hc
    rcases List.mem_append.mp hc with hc | hc
    · exact (ih c hc).trans hle
    · rw [List.mem_singleton.mp hc]
      exact hle

/-- The session was set, with a state that the script can read, no longer ago than keys live. -/
def RecentlySet (calls : List (Time × SessionOp)) (now : Time) (sessionId : Text) : Prop :=
  ∃ t state, (t, .set sessionId state) ∈ calls ∧ fieldsReadable (setPayload t state) = true ∧
    now.ms ≤ t.ms + ttl

/-- The calls are of `set`, `get`, `patch` and `rollback`, and no two users share a session id. -/
structure OneUserEach (owner : Text → Text) (calls : List (Time × SessionOp)) : Prop where
  no_delete : ∀ t sessionId, (t, SessionOp.delete sessionId) ∉ calls
  user : ∀ t sessionId state, (t, SessionOp.set sessionId state) ∈ calls →
    state.userId = owner sessionId

theorem OneUserEach.of_append {owner : Text → Text} {c : Time × SessionOp}
    (h : OneUserEach owner (calls ++ [c])) : OneUserEach owner calls where
  no_delete t sessionId hmem := h.no_delete t sessionId (List.mem_append_left _ hmem)
  user t sessionId state hmem := h.user t sessionId state (List.mem_append_left _ hmem)

/-- Whether a session was recently set is decided by the calls of `set` for it. -/
theorem recentlySet_append_iff {t : Time} {op : SessionOp} :
    RecentlySet (calls ++ [(t, op)]) later s ↔ RecentlySet calls later s ∨
      ∃ state, op = .set s state ∧ fieldsReadable (setPayload t state) = true ∧
        later.ms ≤ t.ms + ttl := by
  constructor
  · rintro ⟨t', state, hmem, hread, hlive⟩
    rcases List.mem_append.mp hmem with hmem | hmem
    · exact Or.inl ⟨t', state, hmem, hread, hlive⟩
    · obtain ⟨rfl, rfl⟩ := Prod.mk.inj (List.mem_singleton.mp hmem)
      exact Or.inr ⟨state, rfl, hread, hlive⟩
  · rintro (⟨t', state, hmem, hread, hlive⟩ | ⟨state, rfl, hread, hlive⟩)
    · exact ⟨t', state, List.mem_append_left _ hmem, hread, hlive⟩
    · exact ⟨t, state, List.mem_append_right _ (List.mem_singleton_self _), hread, hlive⟩

/-- **Run lemma**: a lookup key names the user of the session as long as the session was recently
set. -/
theorem lookup_eq_some_iff {owner : Text → Text} (h : Reachable calls now db)
    (hcalls : OneUserEach owner calls) (hlater : now.ms ≤ later.ms) :
    db.lookups.read later (getLookupKey s) = some u ↔ u = owner s ∧ RecentlySet calls later s := by
  induction h generalizing later with
  | empty now =>
    refine iff_of_false (by simp [RedisSessionState.empty, KeySpace.read]) ?_
    rintro ⟨-, t, state, hmem, -⟩
    cases hmem
  | @call calls t now db op hreach hle ih =>
    have hprev := ih hcalls.of_append (hle.trans hlater)
    rw [recentlySet_append_iff]
    cases op with
    | get id =>
      rw [perform, hprev]
      simp
    | patch id p =>
      rw [perform, patch, lookups_patchKey, hprev]
      simp
    | rollback id steps =>
      rw [perform, rollback, lookups_rollbackKey, hprev]
      simp
    | delete id => exact absurd (by simp) (hcalls.no_delete t id)
    | set id state =>
      have huser : state.userId = owner id := hcalls.user t id state (by simp)
      rw [perform]
      by_cases hread : fieldsReadable (setPayload t state) = true
      · rw [set_of_readable hread]
        dsimp only
        by_cases hid : s = id
        · subst hid
          rw [read_setEx_self]
          by_cases hlive : later.ms ≤ t.ms + ttl
          · rw [if_pos hlive, Option.some_inj, huser]
            exact ⟨fun hu => ⟨hu.symm, Or.inr ⟨state, rfl, hread, hlive⟩⟩, fun hu => hu.1.symm⟩
          · rw [if_neg hlive]
            -- An earlier call of `set` is no more recent than this one.
            refine iff_of_false (by simp) ?_
            rintro ⟨-, ⟨t', state', hmem, -, hlive'⟩ | ⟨state', -, -, hlive'⟩⟩
            · have ht' := hreach.le_now _ hmem
              dsimp only at ht'
              omega
            · exact hlive hlive'
        · rw [read_setEx_of_ne fun heq => hid (getLookupKey_eq_iff.mp heq), hprev]
          refine and_congr_right fun _ => ⟨Or.inl, ?_⟩
          rintro (hrecent | ⟨state', heq, -⟩)
          · exact hrecent
          · exact absurd (SessionOp.set.inj heq).1.symm hid
      · rw [set_of_not_readable (Bool.eq_false_iff.mpr hread), hprev]
        refine and_congr_right fun _ => ⟨Or.inl, ?_⟩
        rintro (hrecent | ⟨state', heq, hread', -⟩)
        · exact hrecent
        · obtain ⟨rfl, rfl⟩ := SessionOp.set.inj heq
          exact absurd hread' hread

/-- While the key of a session lives, its id resolves to that key, and `get`, `patch` and `rollback`
see the state under it. -/
def Reaches (db : RedisStore) (now : Time) (userId sessionId : Text) : Prop :=
  ∀ document, db.sessions.read now (getStrictKey userId sessionId) = some document →
    resolveKey db now sessionId = getStrictKey userId sessionId ∧
    (∀ otherFormats, get otherFormats db now sessionId =
      some (reviveFields otherFormats document)) ∧
    (∀ p, patch db now sessionId p =
      patchKey db now (getStrictKey userId sessionId) sessionId p) ∧
    ∀ steps, rollback db now sessionId steps =
      rollbackKey db now (getStrictKey userId sessionId) steps

/-- A session is reached exactly when its id resolves to its key. -/
theorem reaches_iff_resolveKey : Reaches db now u s ↔
    db.sessions.read now (getStrictKey u s) = none ∨ resolveKey db now s = getStrictKey u s := by
  constructor
  · intro h
    cases hread : db.sessions.read now (getStrictKey u s) with
    | none => exact Or.inl rfl
    | some document => exact Or.inr (h document hread).1
  · rintro (hnone | hkey) document hread
    · rw [hnone] at hread
      cases hread
    · refine ⟨hkey, fun otherFormats => ?_, fun p => ?_, fun steps => ?_⟩
      · rw [get, hkey, getKey, hread, Option.map_some]
      · rw [patch, hkey]
      · rw [rollback, hkey]

/-- **In every timed run and at every instant a live session is reached exactly when it was set
within the time to live, by a user whose id is not empty.** -/
theorem reaches_iff {owner : Text → Text} (h : Reachable calls now db)
    (hcalls : OneUserEach owner calls) : Reaches db now (owner s) s ↔
      db.sessions.read now (getStrictKey (owner s) s) = none ∨
        owner s ≠ [] ∧ RecentlySet calls now s := by
  rw [reaches_iff_resolveKey, resolveKey_eq_getStrictKey_iff,
    lookup_eq_some_iff h hcalls (le_refl _)]
  simp only [true_and]

/-- The session `evening` of a user is reached an hour after it was set. -/
theorem reaches_evening :
    Reaches (perform empty ⟨0, by decide⟩ (.set (lit "evening") (idleState (lit "ana")
      (lit "evening")))) ⟨3600000, by decide⟩ (lit "ana") (lit "evening") := by
  refine (@reaches_iff _ _ _ _ (fun _ => lit "ana")
    (.call (.set (lit "evening") (idleState (lit "ana") (lit "evening"))) (.empty ⟨0, by decide⟩)
      (by decide)) ⟨?_, ?_⟩).mpr (Or.inr ⟨by decide, ⟨0, by decide⟩, _, List.mem_singleton_self _,
        by decide, by decide⟩)
  · intro t id hmem
    cases List.mem_singleton.mp hmem
  · intro t id state hmem
    cases List.mem_singleton.mp hmem
    rfl

/-- The patch `{ phase: 'ASLEEP' }`. -/
def asleep : SessionStatePatch where
  fields := [(lit "phase", .str (lit "ASLEEP"))]
  nodup := List.nodup_singleton _
  allowed := by
    intro key hkey
    rw [Record.get?_cons_mk, if_neg, Record.get?_nil]
    rintro rfl
    exact absurd hkey (by decide)

/-- Set, patched after 23 hours, asked for after 25: the session is there and is not found. -/
theorem patched_session_not_reached :
    ∃ calls now db, Reachable calls now db ∧ OneUserEach (fun _ => lit "ana") calls ∧
      (db.sessions.read now (getStrictKey (lit "ana") (lit "evening"))).isSome = true ∧
      get (fun _ => none) db now (lit "evening") = none ∧
      ¬ Reaches db now (lit "ana") (lit "evening") := by
  let set₀ : Time × SessionOp :=
    (⟨0, by decide⟩, .set (lit "evening") (idleState (lit "ana") (lit "evening")))
  let patch₂₃ : Time × SessionOp := (⟨82800000, by decide⟩, .patch (lit "evening") asleep)
  have hkeys : OneUserEach (fun _ => lit "ana") ([set₀] ++ [patch₂₃]) := by
    constructor
    · intro t id hmem
      simp [set₀, patch₂₃] at hmem
    · intro t id state hmem
      simp only [set₀, patch₂₃, List.cons_append, List.nil_append, List.mem_cons, Prod.mk.injEq,
        SessionOp.set.injEq, reduceCtorEq, and_false, List.not_mem_nil, or_false] at hmem
      rw [hmem.2.2]
      rfl
  have hlive : ((perform (perform empty set₀.1 set₀.2) patch₂₃.1 patch₂₃.2).sessions.read
      ⟨90000000, by decide⟩ (getStrictKey (lit "ana") (lit "evening"))).isSome = true := by
    decide +kernel
  have hkey : resolveKey (perform (perform empty set₀.1 set₀.2) patch₂₃.1 patch₂₃.2)
      ⟨90000000, by decide⟩ (lit "evening") = getLegacyKey (lit "evening") := by
    decide +kernel
  refine ⟨[set₀] ++ [patch₂₃], ⟨90000000, by decide⟩, _,
    .call patch₂₃.2 (.call set₀.2 (.empty ⟨0, by decide⟩) (by decide)) (by decide), hkeys, hlive,
    ?_, ?_⟩
  · rw [get, hkey, getKey, Option.map_eq_none_iff, ← Option.not_isSome_iff_eq_none]
    decide +kernel
  · intro hreaches
    obtain ⟨document, hdocument⟩ := Option.isSome_iff_exists.mp hlive
    have hstrict := (hreaches document hdocument).1
    rw [hkey] at hstrict
    exact absurd hstrict (by decide)

end DreamWeaver.Sessions.RedisSessionState
