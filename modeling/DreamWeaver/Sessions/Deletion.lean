import DreamWeaver.Sessions.SessionKeys

/-! # Deleting a session

`delete` takes the user off the key that the id resolves to, by splitting it at the separator that
the ids may contain. This file says when a session that was set and then deleted leaves nothing
behind and nothing else is changed. -/

namespace DreamWeaver.Sessions.RedisSessionState

/-! ## Taking keys apart -/

variable {s t u v : Text}

theorem length_splitOn_pos (x : Text) : 0 < (x.splitOn 58).length :=
  List.length_pos_of_ne_nil (List.splitOn_ne_nil 58 x)

/-- A text is one part exactly when the separator is not in it. -/
theorem length_splitOn_eq_one_iff {x : Text} : (x.splitOn 58).length = 1 ↔ 58 ∉ x := by
  constructor
  · intro h hmem
    obtain ⟨a, b, rfl⟩ := List.append_of_mem hmem
    rw [List.splitOn_append_cons_self, List.length_append] at h
    have ha := length_splitOn_pos a
    have hb := length_splitOn_pos b
    omega
  · intro h
    rw [List.splitOn_eq_singleton h, List.length_singleton]

/-- A text is two parts exactly when it is two texts joined by the one separator in it. -/
theorem splitOn_eq_pair_iff {x a b : Text} :
    x.splitOn 58 = [a, b] ↔ x = a ++ 58 :: b ∧ 58 ∉ a ∧ 58 ∉ b := by
  constructor
  · intro h
    have hx : x = a ++ 58 :: b := by
      rw [← @List.intercalate_splitOn _ x _ _ 58, h]
      simp [List.intercalate_cons_cons]
    have hlength := congrArg List.length h
    rw [hx, List.splitOn_append_cons_self, List.length_append, List.length_cons,
      List.length_singleton] at hlength
    have ha := length_splitOn_pos a
    have hb := length_splitOn_pos b
    exact ⟨hx, length_splitOn_eq_one_iff.mp (by omega), length_splitOn_eq_one_iff.mp (by omega)⟩
  · rintro ⟨rfl, ha, hb⟩
    rw [List.splitOn_append_cons_self_of_not_mem ha, List.splitOn_eq_singleton hb]

/-- The parts of a key begin with the two of its prefix. -/
theorem splitOn_getLegacyKey (s : Text) :
    (getLegacyKey s).splitOn 58 = lit "dreamweaver" :: lit "session" :: s.splitOn 58 := by
  have hkey : getLegacyKey s = lit "dreamweaver" ++ 58 :: (lit "session" ++ 58 :: s) := rfl
  rw [hkey, List.splitOn_append_cons_self_of_not_mem (by decide),
    List.splitOn_append_cons_self_of_not_mem (by decide)]

theorem getStrictKey_eq_getLegacyKey (u s : Text) :
    getStrictKey u s = getLegacyKey (u ++ 58 :: s) := rfl

/-- The user read off the legacy key of an id is the first of the two parts of the id. -/
theorem indexedUser_getLegacyKey (hu : u ≠ []) :
    indexedUser (getLegacyKey s) = u ↔ ∃ b, s = u ++ 58 :: b ∧ 58 ∉ u ∧ 58 ∉ b := by
  rw [indexedUser, splitOn_getLegacyKey]
  simp only [← splitOn_eq_pair_iff]
  constructor
  · intro h
    by_cases hlength : (s.splitOn 58).length = 2
    · obtain ⟨a, b, hab⟩ := List.length_eq_two.mp hlength
      rw [hab] at h ⊢
      exact ⟨b, by rw [← h]; rfl⟩
    · rw [if_neg (by simp only [List.length_cons]; omega)] at h
      exact absurd h.symm hu
  · rintro ⟨b, hb⟩
    rw [hb]
    rfl

/-- The user read off a strict key is its user exactly when neither id contains the separator. -/
theorem indexedUser_getStrictKey (hu : u ≠ []) :
    indexedUser (getStrictKey u s) = u ↔ 58 ∉ u ∧ 58 ∉ s := by
  rw [getStrictKey_eq_getLegacyKey, indexedUser_getLegacyKey hu]
  constructor
  · rintro ⟨b, hb, hu, hs⟩
    obtain rfl : s = b := (List.cons.inj (List.append_cancel_left hb)).2
    exact ⟨hu, hs⟩
  · rintro ⟨hu, hs⟩
    exact ⟨s, rfl, hu, hs⟩

/-! ## What is left of a session -/

/-- Nothing is left of the session at a time, and the keys and index entries of other sessions and
other users are what they would be without it. -/
structure NoTrace (db db' : RedisStore) (now : Time) (userId sessionId : Text) : Prop where
  session : db'.sessions.read now (getStrictKey userId sessionId) = none
  legacy : db'.sessions.read now (getLegacyKey sessionId) = none
  lookup : db'.lookups.read now (getLookupKey sessionId) = none
  index : sessionId ∉ db'.indices (getUserIndexKey userId)
  other_sessions : ∀ v t, ¬ (v = userId ∧ t = sessionId) →
    db'.sessions.read now (getStrictKey v t) = db.sessions.read now (getStrictKey v t)
  other_lookups : ∀ t, t ≠ sessionId →
    db'.lookups.read now (getLookupKey t) = db.lookups.read now (getLookupKey t)
  other_users : ∀ v, v ≠ userId → db'.indices (getUserIndexKey v) = db.indices (getUserIndexKey v)
  other_entries : ∀ t, t ≠ sessionId →
    (t ∈ db'.indices (getUserIndexKey userId) ↔ t ∈ db.indices (getUserIndexKey userId))

/-- The user id is there and not divided, no document is under the legacy key, and either the keys
of the session have not expired and the session id is not divided, or they have expired and the
session id is the user id joined to an undivided rest, with no document under the key of the session
before. -/
def DeletesCleanly (db : RedisStore) (setAt now : Time) (userId sessionId : Text) : Prop :=
  userId ≠ [] ∧ 58 ∉ userId ∧ db.sessions.read now (getLegacyKey sessionId) = none ∧
    (now.ms ≤ setAt.ms + ttl ∧ 58 ∉ sessionId ∨
      setAt.ms + ttl < now.ms ∧ (∃ b, sessionId = userId ++ 58 :: b ∧ 58 ∉ b) ∧
        db.sessions.read now (getStrictKey userId sessionId) = none)

section

variable {db : RedisStore} {setAt now : Time} {sessionId : Text} {state : SessionState}

/-- The index entry of a session goes exactly when the key names its user. -/
theorem not_mem_indices_iff {indices : Text → Finset Text} {user : Text}
    (hmem : sessionId ∈ indices (getUserIndexKey u)) :
    sessionId ∉ (if user = [] then indices
      else Function.update indices (getUserIndexKey user)
        ((indices (getUserIndexKey user)).erase sessionId)) (getUserIndexKey u) ↔
      user = u ∧ u ≠ [] := by
  by_cases huser : user = []
  · subst huser
    rw [if_pos rfl]
    exact iff_of_false (not_not_intro hmem) fun h => h.2 h.1.symm
  · rw [if_neg huser]
    by_cases heq : user = u
    · subst heq
      rw [Function.update_self]
      exact iff_of_true (Finset.notMem_erase _ _) ⟨rfl, huser⟩
    · rw [Function.update_of_ne fun h => heq (getUserIndexKey_eq_iff.mp h.symm)]
      exact iff_of_false (not_not_intro hmem) fun h => heq h.1

variable (h : (set db setAt sessionId state).1 = .ok ())
include h

/-- The index entry after `set` and `delete`. -/
theorem index_after_delete (now : Time) :
    sessionId ∉ (delete (set db setAt sessionId state).2 now sessionId).indices
        (getUserIndexKey state.userId) ↔
      indexedUser (resolveKey (set db setAt sessionId state).2 now sessionId) = state.userId ∧
        state.userId ≠ [] := by
  obtain ⟨document, hdb⟩ := set_ok h
  rw [delete]
  dsimp only
  refine not_mem_indices_iff ?_
  rw [hdb]
  dsimp only
  rw [Function.update_self]
  exact Finset.mem_insert_self _ _

/-- What is under a session key after `set` and `delete`, unless it is the key of the session. -/
theorem read_after_delete {key : Text} (hkey : key ≠ getStrictKey state.userId sessionId) :
    (delete (set db setAt sessionId state).2 now sessionId).sessions.read now key =
      if key = resolveKey (set db setAt sessionId state).2 now sessionId then none
      else db.sessions.read now key := by
  obtain ⟨document, hdb⟩ := set_ok h
  by_cases hresolve : key = resolveKey (set db setAt sessionId state).2 now sessionId
  · rw [if_pos hresolve, hresolve]
    exact KeySpace.read_del_self
  · rw [if_neg hresolve, delete]
    dsimp only
    rw [KeySpace.read_del_of_ne hresolve, hdb]
    dsimp only
    rw [read_setEx_of_ne hkey]

/-- The session itself is gone after `set` and `delete` when the id resolved to its key, or the key
has expired. -/
theorem read_own_after_delete :
    (delete (set db setAt sessionId state).2 now sessionId).sessions.read now
        (getStrictKey state.userId sessionId) = none ↔
      state.userId ≠ [] ∨ setAt.ms + ttl < now.ms := by
  obtain ⟨document, hdb⟩ := set_ok h
  have hkey := resolveKey_after_set now h
  by_cases hlive : now.ms ≤ setAt.ms + ttl
  · by_cases hu : state.userId = []
    · rw [if_neg fun h => h.1 hu] at hkey
      have hne : getStrictKey state.userId sessionId ≠
          resolveKey (set db setAt sessionId state).2 now sessionId := by
        rw [hkey]
        exact getLegacyKey_ne_getStrictKey.symm
      rw [delete]
      dsimp only
      rw [KeySpace.read_del_of_ne hne, hdb]
      dsimp only
      rw [read_setEx_self, if_pos hlive]
      exact iff_of_false (Option.some_ne_none _) fun h => h.elim (· hu) fun h => absurd hlive (not_le.mpr h)
    · rw [if_pos ⟨hu, hlive⟩] at hkey
      rw [delete]
      dsimp only
      rw [hkey, KeySpace.read_del_self]
      exact iff_of_true rfl (Or.inl hu)
  · rw [if_neg fun h => hlive h.2] at hkey
    have hne : getStrictKey state.userId sessionId ≠
        resolveKey (set db setAt sessionId state).2 now sessionId := by
      rw [hkey]
      exact getLegacyKey_ne_getStrictKey.symm
    rw [delete]
    dsimp only
    rw [KeySpace.read_del_of_ne hne, hdb]
    dsimp only
    rw [read_setEx_self, if_neg hlive]
    exact iff_of_true rfl (Or.inr (not_le.mp hlive))

/-- A session that is deleted without a trace is deleted cleanly. -/
theorem deletesCleanly_of_noTrace
    (trace : NoTrace db (delete (set db setAt sessionId state).2 now sessionId) now
      state.userId sessionId) : DeletesCleanly db setAt now state.userId sessionId := by
  have hkey := resolveKey_after_set now h
  obtain ⟨huser, hu⟩ := (index_after_delete h now).mp trace.index
  by_cases hlive : now.ms ≤ setAt.ms + ttl
  · rw [if_pos ⟨hu, hlive⟩] at hkey
    rw [hkey, indexedUser_getStrictKey hu] at huser
    have hlegacy := trace.legacy
    rw [read_after_delete h getLegacyKey_ne_getStrictKey, hkey,
      if_neg getLegacyKey_ne_getStrictKey] at hlegacy
    exact ⟨hu, huser.1, hlegacy, Or.inl ⟨hlive, huser.2⟩⟩
  · rw [if_neg fun h => hlive h.2] at hkey
    rw [hkey, indexedUser_getLegacyKey hu] at huser
    obtain ⟨b, hb, hcolon, hcolon'⟩ := huser
    have hbs : b ≠ sessionId := (EndsWith.ne ⟨state.userId, hb⟩).symm
    -- The legacy key of the id is the key of the session `b` of the same user.
    have hlegacyKey : getLegacyKey sessionId = getStrictKey state.userId b :=
      getLegacyKey_eq_getStrictKey_iff.mpr hb
    have hlegacy : db.sessions.read now (getLegacyKey sessionId) = none := by
      rw [hlegacyKey, ← trace.other_sessions state.userId b fun h => hbs h.2, ← hlegacyKey]
      exact trace.legacy
    -- The key of the session is also that of `b` and the user id joined to itself.
    have hstrictKey : getStrictKey state.userId sessionId =
        getStrictKey (state.userId ++ 58 :: state.userId) b := by
      rw [getStrictKey_eq_iff, hb, List.append_assoc, List.cons_append]
    have hstrict : db.sessions.read now (getStrictKey state.userId sessionId) = none := by
      rw [hstrictKey, ← trace.other_sessions _ b fun h => hbs h.2, ← hstrictKey]
      exact trace.session
    exact ⟨hu, hcolon, hlegacy, Or.inr ⟨not_le.mp hlive, ⟨b, hb, hcolon'⟩, hstrict⟩⟩

/-- In a clean deletion the key that the id resolves to names the user. -/
theorem DeletesCleanly.indexedUser_eq
    (clean : DeletesCleanly db setAt now state.userId sessionId) :
    indexedUser (resolveKey (set db setAt sessionId state).2 now sessionId) = state.userId := by
  obtain ⟨hu, hcolon, -, ⟨hlive, hs⟩ | ⟨hexpired, ⟨b, hb, hcolon'⟩, -⟩⟩ := clean
  · rw [resolveKey_after_set _ h, if_pos ⟨hu, hlive⟩]
    exact (indexedUser_getStrictKey hu).mpr ⟨hcolon, hs⟩
  · rw [resolveKey_after_set _ h, if_neg fun h => not_le.mpr hexpired h.2]
    exact (indexedUser_getLegacyKey hu).mpr ⟨b, hb, hcolon, hcolon'⟩

/-- A clean deletion changes nothing under the keys of other sessions. -/
theorem DeletesCleanly.other_sessions
    (clean : DeletesCleanly db setAt now state.userId sessionId) {v t : Text}
    (hne : ¬ (v = state.userId ∧ t = sessionId)) :
    (delete (set db setAt sessionId state).2 now sessionId).sessions.read now (getStrictKey v t) =
      db.sessions.read now (getStrictKey v t) := by
  have hkey := resolveKey_after_set now h
  obtain ⟨hu, hcolon, hlegacy, ⟨hlive, hs⟩ | ⟨hexpired, -, hstrict⟩⟩ := clean
  · have hkeys : getStrictKey v t ≠ getStrictKey state.userId sessionId := by
      intro heq
      rcases join_eq_join_iff.mp (getStrictKey_eq_iff.mp heq) with heq | ⟨w, heq, -⟩ | ⟨w, -, heq⟩
      · exact hne heq
      · exact hcolon (by simp [heq])
      · exact hs (by simp [heq])
    rw [if_pos ⟨hu, hlive⟩] at hkey
    rw [read_after_delete h hkeys, hkey, if_neg hkeys]
  · rw [if_neg fun h => not_le.mpr hexpired h.2] at hkey
    by_cases hkeys : getStrictKey v t = getStrictKey state.userId sessionId
    · rw [hkeys, hstrict]
      exact (read_own_after_delete h).mpr (Or.inr hexpired)
    · rw [read_after_delete h hkeys, hkey]
      by_cases hlegacyKey : getStrictKey v t = getLegacyKey sessionId
      · rw [if_pos hlegacyKey, hlegacyKey, hlegacy]
      · rw [if_neg hlegacyKey]

/-- **A deleted session leaves no trace exactly when it is deleted cleanly.** -/
theorem noTrace_iff : NoTrace db (delete (set db setAt sessionId state).2 now sessionId) now
    state.userId sessionId ↔ DeletesCleanly db setAt now state.userId sessionId := by
  refine ⟨deletesCleanly_of_noTrace h, fun clean => ?_⟩
  have huser := clean.indexedUser_eq h
  obtain ⟨document, hdb⟩ := set_ok h
  have hindices : (delete (set db setAt sessionId state).2 now sessionId).indices =
      Function.update (set db setAt sessionId state).2.indices (getUserIndexKey state.userId)
        (((set db setAt sessionId state).2.indices (getUserIndexKey state.userId)).erase
          sessionId) := by
    rw [delete]
    dsimp only
    rw [huser, if_neg clean.1]
  constructor
  case session => exact (read_own_after_delete h).mpr (Or.inl clean.1)
  case legacy =>
    rw [read_after_delete h getLegacyKey_ne_getStrictKey, clean.2.2.1, ite_self]
  case lookup => exact KeySpace.read_del_self
  case index => exact (index_after_delete h now).mpr ⟨huser, clean.1⟩
  case other_sessions => exact fun v t hne => clean.other_sessions h hne
  case other_lookups =>
    intro t ht
    have hne : getLookupKey t ≠ getLookupKey sessionId := fun heq =>
      ht (getLookupKey_eq_iff.mp heq)
    rw [delete]
    dsimp only
    rw [KeySpace.read_del_of_ne hne, hdb]
    dsimp only
    rw [read_setEx_of_ne hne]
  case other_users =>
    intro v hv
    have hne : getUserIndexKey v ≠ getUserIndexKey state.userId := fun heq =>
      hv (getUserIndexKey_eq_iff.mp heq)
    rw [hindices, Function.update_of_ne hne, hdb]
    dsimp only
    rw [Function.update_of_ne hne]
  case other_entries =>
    intro t ht
    rw [hindices, Function.update_self, hdb]
    dsimp only
    rw [Function.update_self, Finset.mem_erase, Finset.mem_insert]
    exact ⟨fun hmem => hmem.2.resolve_left ht, fun hmem => ⟨ht, Or.inr hmem⟩⟩

end

/-- The session `evening` of a user is deleted without a trace a second after it was set. -/
theorem noTrace_evening :
    NoTrace empty (delete (set empty ⟨0, by decide⟩ (lit "evening")
      (idleState (lit "ana") (lit "evening"))).2 ⟨1000, by decide⟩ (lit "evening")) ⟨1000, by decide⟩
      (lit "ana") (lit "evening") :=
  (@noTrace_iff _ _ _ _ (idleState (lit "ana") (lit "evening")) (set_ok_iff.mpr (by decide))).mpr
    ⟨by decide, by decide, rfl, Or.inl ⟨by decide, by decide⟩⟩

/-- The session id `a:b` stays in the index of its user when the session is deleted. -/
theorem divided_id_stays_indexed :
    (set empty ⟨0, by decide⟩ (lit "a:b") (idleState (lit "ana") (lit "a:b"))).1 = .ok () ∧
      ¬ NoTrace empty (delete (set empty ⟨0, by decide⟩ (lit "a:b")
        (idleState (lit "ana") (lit "a:b"))).2 ⟨1000, by decide⟩ (lit "a:b")) ⟨1000, by decide⟩
        (lit "ana") (lit "a:b") ∧
      lit "a:b" ∈ (delete (set empty ⟨0, by decide⟩ (lit "a:b")
        (idleState (lit "ana") (lit "a:b"))).2 ⟨1000, by decide⟩ (lit "a:b")).indices
          (getUserIndexKey (lit "ana")) := by
  have hset : (set empty ⟨0, by decide⟩ (lit "a:b") (idleState (lit "ana") (lit "a:b"))).1 =
      .ok () := set_ok_iff.mpr (by decide)
  have hmem : lit "a:b" ∈ (delete (set empty ⟨0, by decide⟩ (lit "a:b")
      (idleState (lit "ana") (lit "a:b"))).2 ⟨1000, by decide⟩ (lit "a:b")).indices
        (getUserIndexKey (lit "ana")) := by
    have hkey := resolveKey_after_set ⟨1000, by decide⟩ hset
    rw [if_pos (by decide)] at hkey
    refine not_not.mp fun hnot => ?_
    have huser := (index_after_delete hset ⟨1000, by decide⟩).mp hnot
    rw [hkey] at huser
    exact absurd huser.1 (by decide)
  exact ⟨hset, fun trace => trace.index hmem, hmem⟩

end DreamWeaver.Sessions.RedisSessionState
