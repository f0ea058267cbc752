import DreamWeaver.Digest.WeeklyCron

/-! # Whom the weekly digests reach

The limit of the query counts stories, and the digests are for users: a user is left out whose stories are none of
those that the database happens to give. Every user of the rows it gives is attempted once, whatever fails for the
others; so a run reaches all users of the week for certain exactly when of each of them fewer than 2000 stories of
the week are somebody else's. -/

namespace DreamWeaver.Digest

open Proc

/-! ## Distinct users -/

theorem nodup_distinct (texts : List Text) : (distinct texts).Nodup := by
  induction hlen : texts.length using Nat.strong_induction_on generalizing texts with
  | _ n ih =>
    cases texts with
    | nil => exact List.nodup_nil
    | cons text texts =>
      rw [distinct, List.eraseDups_cons, List.nodup_cons, List.mem_eraseDups]
      have hshorter := List.length_filter_le (fun other => !other == text) texts
      refine ⟨by simp, ih _ ?_ _ rfl⟩
      rw [List.length_cons] at hlen
      omega

theorem mem_userIdsOf {storyRows : List ActiveRow} {u : Text} :
    u ∈ userIdsOf storyRows ↔ u ≠ [] ∧ ∃ row ∈ storyRows, row.userId = u := by
  rw [userIdsOf, distinct, List.mem_eraseDups, List.mem_filter, List.mem_map, decide_eq_true_iff, and_comm]

/-- The slices from a position on. -/
theorem flatten_slices {xs : List Text} {count : ℕ} (h : xs.length ≤ batchSize * count) :
    ((List.range count).map fun k => (xs.drop (batchSize * k)).take batchSize).flatten = xs := by
  induction count generalizing xs with
  | zero => rw [List.length_eq_zero_iff.mp (Nat.le_zero.mp h)]; rfl
  | succ count ih =>
    rw [List.range_succ_eq_map, List.map_cons, List.flatten_cons, List.map_map, Nat.mul_zero, List.drop_zero]
    have hrest := @ih (xs.drop batchSize) (by rw [List.length_drop]; rw [Nat.mul_succ] at h; omega)
    have hslices : (List.range count).map ((fun k => (xs.drop (batchSize * k)).take batchSize) ∘ Nat.succ) =
        (List.range count).map fun k => ((xs.drop batchSize).drop (batchSize * k)).take batchSize :=
      List.map_congr_left fun k _ => by
        show (xs.drop (batchSize * (k + 1))).take batchSize = _
        rw [List.drop_drop, Nat.mul_succ, Nat.add_comm]
    rw [hslices, hrest, List.take_append_drop]

/-- **The batches are the users**, in order. -/
theorem flatten_batches (userIds : List Text) : (batches userIds).flatten = userIds :=
  flatten_slices (by rw [batchSize]; omega)

/-! ## Queries with a limit -/

/-- **When a query with a limit gives a row of a kind for certain**: the other rows do not reach the limit. -/
theorem limited_reaches_iff {α : Type} {rows : List α} (limit : ℕ) {p : α → Bool} (h : ∃ row ∈ rows, p row = true) :
    (∀ found, IsLimited rows limit found → ∃ row ∈ found, p row = true) ↔ rows.countP (fun row => !p row) < limit := by
  constructor
  · intro hall
    by_contra hmany
    -- the database may give the other rows first
    have hperm : ((rows.filter fun row => !p row) ++ rows.filter fun row => !!p row).Perm rows :=
      List.filter_append_perm (fun row => !p row) rows
    obtain ⟨row, hmem, hrow⟩ := hall _ ⟨_, hperm, rfl⟩
    rw [List.take_append_of_le_length (by rw [← List.countP_eq_length_filter]; omega)] at hmem
    have hnot := (List.mem_filter.mp (List.mem_of_mem_take hmem)).2
    rw [hrow] at hnot
    cases hnot
  · rintro hfew found ⟨order, hperm, rfl⟩
    by_contra hnone
    have hothers : ∀ row ∈ order.take limit, (!p row) = true := fun row hmem => by
      rw [Bool.not_eq_true']
      exact Bool.eq_false_iff.mpr fun hrow => hnone ⟨row, hmem, hrow⟩
    have hcount : (order.take limit).length ≤ rows.countP fun row => !p row := by
      rw [← List.countP_eq_length.mpr hothers, ← hperm.countP_eq]
      exact (List.take_sublist limit order).countP_le
    have hwhole : order.take limit = order := List.take_of_length_le (by rw [List.length_take] at hcount; omega)
    obtain ⟨row, hmem, hrow⟩ := h
    exact hnone ⟨row, by rw [hwhole]; exact hperm.mem_iff.mpr hmem, hrow⟩

/-! ## One user -/

variable {u : Text} {events : List CronEvent} {r : Except JsError CronResult}

/-- The entry of a user names the user. -/
theorem userId_entryOf (h : Performs (processUserDigest true u) events r) : (entryOf u r).userId = u := by
  have hends : (processUserDigest true u).Ends (fun _ r => (entryOf u r).userId = u) [] := by
    rw [processUserDigest, if_neg (by decide)]
    refine Ends.bind (ends_perform fun profile => ?_)
    cases profile with
    | error e => rfl
    | ok profile =>
      dsimp only
      split
      · exact ends_pure rfl
      · split
        · exact ends_pure rfl
        · refine Ends.bind (ends_perform fun prefs => ?_)
          cases prefs with
          | error e => rfl
          | ok prefs =>
            dsimp only
            split
            · exact ends_pure rfl
            · refine Ends.bind (ends_perform fun result => ?_)
              cases result with
              | error e => rfl
              | ok result => exact ends_pure rfl
  exact h.ends hends

/-- A user who is attempted is asked for. -/
theorem not_performs_nil : ¬ Performs (processUserDigest true u) [] r := nofun

/-! ## One run -/

variable {zone : LocalZone} {now : ℕ} {rows found : List ActiveRow} {log : List (Text × CronEvent)}

/-- The user owns a story that was created in the last seven days. -/
def IsActive (zone : LocalZone) (now : ℕ) (rows : List ActiveRow) (u : Text) : Prop :=
  u ≠ [] ∧ ∃ row ∈ weekOf zone now rows, row.userId = u

/-- **A run reaches everybody**: the digest of each user of the week is attempted once, from the beginning to the end,
with an entry of its own, and nothing is done for anybody else. -/
structure Covers (zone : LocalZone) (now : ℕ) (rows : List ActiveRow) (log : List (Text × CronEvent))
    (results : List CronResult) : Prop where
  attempted : ∀ u, IsActive zone now rows u → ∃ r, Performs (processUserDigest true u) (eventsOf u log) r ∧
    (results.filter fun result => result.userId = u) = [entryOf u r]
  others : ∀ u, ¬ IsActive zone now rows u → eventsOf u log = [] ∧ ∀ result ∈ results, result.userId ≠ u

/-- What a query with a limit gives is of the last week. -/
theorem isActive_of_mem (hfound : IsLimited (weekOf zone now rows) 2000 found) (h : u ∈ userIdsOf found) :
    IsActive zone now rows u := by
  obtain ⟨order, hperm, rfl⟩ := hfound
  obtain ⟨hne, row, hmem, hrow⟩ := mem_userIdsOf.mp h
  exact ⟨hne, row, hperm.mem_iff.mp (List.mem_of_mem_take hmem), hrow⟩

/-- The entry of one of several users. -/
theorem filter_entries {userIds : List Text} {entry : Text → CronResult} (hnodup : userIds.Nodup)
    (hentry : ∀ v ∈ userIds, (entry v).userId = v) (h : u ∈ userIds) :
    ((userIds.map entry).filter fun result => result.userId = u) = [entry u] := by
  have hsame : (userIds.filter fun v => (entry v).userId = u) = userIds.filter fun v => v = u :=
    List.filter_congr fun v hv => by rw [hentry v hv]
  rw [List.filter_map, Function.comp_def, hsame, List.filter_eq, List.count_eq_one_of_mem hnodup h]
  rfl

/-- **A run reaches everybody** exactly when the database gives a story of each user. -/
theorem covers_iff {settled : List (Text × Except JsError CronResult)}
    (hfound : IsLimited (weekOf zone now rows) 2000 found)
    (hsettles : Settles anyReply (processUserDigest true) () (batches (userIdsOf found)) log settled ()) :
    Covers zone now rows log (settled.map fun entry => entryOf entry.1 entry.2) ↔
      ∀ u, IsActive zone now rows u → u ∈ userIdsOf found := by
  have hnodup : (userIdsOf found).Nodup := nodup_distinct _
  -- each of the users found is processed once, as the batches are disjoint
  obtain ⟨result, rfl, hperforms, hothers⟩ := hsettles.performs (by rwa [flatten_batches])
  rw [flatten_batches] at hperforms hothers ⊢
  constructor
  · intro h u hactive
    by_contra hnot
    -- a user who is not found does nothing, but an attempt begins with a request
    obtain ⟨r, hr, -⟩ := h.attempted u hactive
    rw [hothers u hnot] at hr
    exact not_performs_nil hr
  · intro hall
    rw [List.map_map]
    have hentry : ∀ v ∈ userIdsOf found, (entryOf v (result v)).userId = v := fun v hv =>
      userId_entryOf (hperforms v hv)
    refine ⟨fun u hactive => ⟨result u, hperforms u (hall u hactive), filter_entries hnodup hentry (hall u hactive)⟩,
      fun u hidle => ⟨hothers u fun h => hidle (isActive_of_mem hfound h), fun entry hmem => ?_⟩⟩
    obtain ⟨v, hv, rfl⟩ := List.mem_map.mp hmem
    rw [Function.comp_apply, hentry v hv]
    rintro rfl
    exact hidle (isActive_of_mem hfound hv)

/-! ## Every run -/

theorem status_refusal {config : CronConfig} {authorization : Option Text} {response : CronResponse}
    (h : refusal config authorization = some response) : response.status ≠ 200 := by
  rw [refusal] at h
  split at h
  · cases h
    decide
  · split at h
    · cases h
      decide
    · cases h

theorem hasAdmin_of_refusal {config : CronConfig} {authorization : Option Text}
    (h : refusal config authorization = none) : config.hasAdmin = true := by
  rw [refusal] at h
  split at h
  · cases h
  · split at h
    · cases h
    · rename_i hadmin
      simpa using hadmin

/-- A run of the route is one over some of the stories, and its response has the entries. -/
theorem CronRuns.of_ok {config : CronConfig} {authorization : Option Text} {response : CronResponse}
    (h : CronRuns config authorization zone now rows log response) (hok : response.status = 200) :
    ∃ found settled, IsLimited (weekOf zone now rows) 2000 found ∧
      Settles anyReply (processUserDigest true) () (batches (userIdsOf found)) log settled () ∧
        response.results = settled.map fun entry => entryOf entry.1 entry.2 := by
  cases h with
  | refused h => exact absurd hok (status_refusal h)
  | failed message h => cases hok
  | processed h hfound hsettles =>
    rw [hasAdmin_of_refusal h] at hsettles
    exact ⟨_, _, hfound, hsettles, rfl⟩

/-- The configuration of a server that lets everybody through. -/
def openConfig : CronConfig := ⟨false, none, true⟩

/-- There is a run over any stories that the database may give. -/
theorem exists_cronRuns (hfound : IsLimited (weekOf zone now rows) 2000 found) :
    ∃ log settled, Settles anyReply (processUserDigest true) () (batches (userIdsOf found)) log settled () ∧
      CronRuns openConfig none zone now rows log
        ⟨200, some true, none, settled.map fun entry => entryOf entry.1 entry.2, some settled.length⟩ := by
  have htotal : ∀ s effect, ∃ reply s', anyReply s effect reply s' := fun _ _ => ⟨.error ⟨[], []⟩, (), trivial⟩
  obtain ⟨log, settled, ⟨⟩, hsettles⟩ :=
    exists_settles htotal (processUserDigest true) () (batches (userIdsOf found))
  exact ⟨log, settled, hsettles, .processed (by decide) hfound hsettles⟩

/-- **Whom the cron job reaches**: every run that is let through attempts the digest of each user of the week once,
and of nobody else, exactly when of every user fewer than 2000 stories of the week are somebody else's. -/
theorem cron_covers_iff (zone : LocalZone) (now : ℕ) (rows : List ActiveRow) :
    (∀ config authorization log response, CronRuns config authorization zone now rows log response →
      response.status = 200 → Covers zone now rows log response.results) ↔
    ∀ u, IsActive zone now rows u → (weekOf zone now rows).countP (fun row => row.userId ≠ u) < 2000 := by
  -- for one user: the rows of the others do not fill the limit
  have hreaches : ∀ u, IsActive zone now rows u → ((∀ found, IsLimited (weekOf zone now rows) 2000 found →
      u ∈ userIdsOf found) ↔ (weekOf zone now rows).countP (fun row => row.userId ≠ u) < 2000) := fun u hactive => by
    obtain ⟨hne, row, hmem, hrow⟩ := hactive
    have hlimited := limited_reaches_iff 2000 (p := fun row : ActiveRow => row.userId = u)
      ⟨row, hmem, decide_eq_true hrow⟩
    simp only [decide_not]
    rw [← hlimited]
    refine forall₂_congr fun found _ => ?_
    rw [mem_userIdsOf, and_iff_right hne]
    simp only [decide_eq_true_iff]
  constructor
  · intro h u hactive
    refine (hreaches u hactive).1 fun found hfound => ?_
    obtain ⟨log, settled, hsettles, hruns⟩ := exists_cronRuns hfound
    exact (covers_iff hfound hsettles).1 (h _ _ _ _ hruns rfl) u hactive
  · intro h config authorization log response hruns hok
    obtain ⟨found, settled, hfound, hsettles, hresults⟩ := hruns.of_ok hok
    rw [hresults]
    exact (covers_iff hfound hsettles).2 fun u hactive => (hreaches u hactive).2 (h u hactive) found hfound

/-! ## A user left out -/

/-- A busy user with 2000 stories of this evening, and another with one. -/
def busyWeek : List ActiveRow :=
  List.replicate 2000 ⟨lit "busy", 1000000000⟩ ++ [⟨lit "calm", 1000000000⟩]

/-- The other user is not reached. -/
theorem calm_not_reached : ¬ ∀ (zone : LocalZone) (now : ℕ) (rows : List ActiveRow) (config : CronConfig)
    (authorization : Option Text) (log : List (Text × CronEvent)) (response : CronResponse),
      CronRuns config authorization zone now rows log response → response.status = 200 →
        Covers zone now rows log response.results := by
  intro h
  have hweek : weekOf ⟨id, id⟩ 1000000000 busyWeek = busyWeek :=
    List.filter_eq_self.mpr fun row hmem => by
      rcases List.mem_append.mp hmem with hmem | hmem
      · rw [List.eq_of_mem_replicate hmem]
        decide
      · rw [List.mem_singleton.mp hmem]
        decide
  have hfound : IsLimited (weekOf ⟨id, id⟩ 1000000000 busyWeek) 2000
      (List.replicate 2000 ⟨lit "busy", 1000000000⟩) := by
    rw [hweek]
    refine ⟨busyWeek, .refl _, ?_⟩
    rw [busyWeek, List.take_left' List.length_replicate]
  obtain ⟨log, settled, hsettles, hruns⟩ := exists_cronRuns hfound
  have hactive : IsActive ⟨id, id⟩ 1000000000 busyWeek (lit "calm") := by
    refine ⟨by decide, ⟨lit "calm", 1000000000⟩, ?_, rfl⟩
    rw [hweek]
    exact List.mem_append_right _ (List.mem_singleton_self _)
  have hcalm := (covers_iff hfound hsettles).1 (h _ _ _ _ _ _ _ hruns rfl) _ hactive
  obtain ⟨-, row, hmem, hrow⟩ := mem_userIdsOf.mp hcalm
  rw [List.eq_of_mem_replicate hmem] at hrow
  exact absurd hrow (by decide)

end DreamWeaver.Digest
