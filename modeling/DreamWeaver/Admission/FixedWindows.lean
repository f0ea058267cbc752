import DreamWeaver.Admission.RateLimit

/-! # Fixed windows

Requests that come one after the other under their keys, over the store in memory. What the store says of
a request is determined by the times of the requests under the same key before it: the windows that the
store forgets are those that the next request of their key would restart anyhow. The windows are fixed:
one restarts at the first request more than a minute after its start, so that two bursts on either side
of a restart fall into one minute. -/

namespace DreamWeaver.Admission

open InMemoryRateLimitStore

/-- A request under a key, and when it comes. -/
structure RateRequest where
  key : Text
  now : ℤ

/-- What `verifyRateLimit` answers. -/
structure RateVerdict where
  success : Bool
  retryAfter : Option ℤ

/-- The verdict on a count. -/
def verdict (limit : RateCount) : RateVerdict :=
  if withinLimit limit then ⟨true, none⟩ else ⟨false, some limit.ttl⟩

/-- `verifyRateLimit`, over the store in memory -/
def verifyRateLimit (s : InMemoryRateLimitStore) (clientIp : Text) (now : ℤ) :
    RateVerdict × InMemoryRateLimitStore :=
  let limit := s.increment clientIp now
  (verdict limit.1, limit.2)

/-- `increment` of a store that never discards anything. -/
def InMemoryRateLimitStore.incrementKept (s : InMemoryRateLimitStore) (key : Text) (now : ℤ) :
    RateCount × InMemoryRateLimitStore :=
  let record := s.countIn key now
  (⟨record.count, ⌈((record.windowStart + windowMs - now : ℤ) : ℚ) / 1000⌉⟩,
    { requests := s.requests.spread [(key, record)] })

section Answers

variable {σ ρ : Type}

/-- What a store answers to requests one after the other. -/
def answers (serve : σ → Text → ℤ → ρ × σ) : σ → List RateRequest → List ρ
  | _, [] => []
  | s, r :: rs => (serve s r.key r.now).1 :: answers serve (serve s r.key r.now).2 rs

/-- The requests under a key, each as its time and its answer. -/
def underKey (key : Text) (rs : List RateRequest) (as : List ρ) : List (ℤ × ρ) :=
  (rs.zip as).filterMap fun p => if p.1.key = key then some (p.1.now, p.2) else none

/-- The times of the requests under a key. -/
def timesOf (key : Text) (rs : List RateRequest) : List ℤ :=
  rs.filterMap fun r => if r.key = key then some r.now else none

/-- The requests are in the order of their times. -/
def InOrder (rs : List RateRequest) : Prop := rs.Pairwise fun r later => r.now ≤ later.now

end Answers

/-! ## The windows of one key -/

/-- The window that a request at a time falls into, after the last one of the key. -/
def windowAt (last : Option RateWindow) (now : ℤ) : RateWindow :=
  match last with
  | none => ⟨1, now⟩
  | some record => if windowMs < now - record.windowStart then ⟨1, now⟩ else { record with
      count := record.count + 1 }

/-- What a store says of a request in a window. -/
def RateWindow.answer (record : RateWindow) (now : ℤ) : RateCount :=
  ⟨record.count, ⌈((record.windowStart + windowMs - now : ℤ) : ℚ) / 1000⌉⟩

/-- The requests of one key alone, each as its time and what a store says of it. -/
def ownAnswers : Option RateWindow → List ℤ → List (ℤ × RateCount)
  | _, [] => []
  | last, now :: times =>
    (now, (windowAt last now).answer now) :: ownAnswers (some (windowAt last now)) times

variable {s kept : InMemoryRateLimitStore} {key other : Text} {now later : ℤ} {rs : List RateRequest}
  {last : Option RateWindow} {record : RateWindow} {times : List ℤ}

theorem countIn_eq : s.countIn key now = windowAt (s.requests.get? key) now := rfl

/-- A window that is over restarts, like one that was never there. -/
theorem windowAt_of_over (h : windowMs < now - record.windowStart) :
    windowAt (some record) now = windowAt none now := if_pos h

theorem windowAt_of_young (h : now - record.windowStart ≤ windowMs) :
    windowAt (some record) now = { record with count := record.count + 1 } := if_neg (not_lt.mpr h)

/-! ## Forgetting -/

/-- A store may have forgotten what a window that was over for as long as a window is has counted. -/
structure Forgets (s kept : InMemoryRateLimitStore) (now : ℤ) : Prop where
  distinct : s.requests.keys.Nodup
  known : ∀ key, s.requests.get? key = kept.requests.get? key ∨
    s.requests.get? key = none ∧
      ∃ record, kept.requests.get? key = some record ∧ windowMs * 2 < now - record.windowStart

theorem forgets_nil : Forgets {} {} now := ⟨List.nodup_nil, fun _ => .inl rfl⟩

/-- What may be forgotten may be forgotten later. -/
theorem Forgets.mono (h : Forgets s kept now) (hle : now ≤ later) : Forgets s kept later := by
  refine ⟨h.distinct, fun key => (h.known key).imp_right ?_⟩
  rintro ⟨hnone, record, hrecord, hold⟩
  exact ⟨hnone, record, hrecord, by omega⟩

/-- A store that forgot a window restarts it, as one that has it does. -/
theorem Forgets.countIn (h : Forgets s kept now) : s.countIn key now = kept.countIn key now := by
  rw [countIn_eq, countIn_eq]
  rcases h.known key with hsame | ⟨hnone, record, hrecord, hold⟩
  · rw [hsame]
  · rw [hnone, hrecord, windowAt_of_over]
    rw [windowMs] at hold ⊢
    omega

/-- What a sweep leaves under a key. -/
theorem get?_sweep_eq {requests : Record RateWindow} (key : Text) (now : ℤ) (hdistinct : requests.keys.Nodup) :
    (sweep requests now).get? key = requests.get? key ∨
      (sweep requests now).get? key = none ∧
        ∃ record, requests.get? key = some record ∧ windowMs * 2 < now - record.windowStart := by
  cases hget : requests.get? key with
  | none =>
    refine .inl (Record.get?_eq_none_iff.mpr fun hmem => Record.get?_eq_none_iff.mp hget ?_)
    rw [sweep] at hmem
    split at hmem
    · exact (List.filter_sublist.map Prod.fst).subset hmem
    · exact hmem
  | some record =>
    by_cases hyoung : now - record.windowStart ≤ windowMs * 2
    · exact .inl (get?_sweep hdistinct hget hyoung)
    · -- an old window: it is there still if there are few, and gone if there are many
      by_cases hmany : 10000 < requests.length
      · refine .inr ⟨?_, record, rfl, not_le.mp hyoung⟩
        rw [sweep, if_pos hmany, Record.get?_eq_none_iff]
        intro hmem
        obtain ⟨⟨k, found⟩, hfound, rfl⟩ := List.mem_map.mp hmem
        obtain ⟨hin, hkeep⟩ := List.mem_filter.mp hfound
        obtain rfl : record = found := Option.some.inj (hget.symm.trans (Record.get?_of_mem hdistinct hin))
        simp only [Bool.not_eq_true', decide_eq_false_iff_not] at hkeep
        exact hkeep (not_le.mp hyoung)
      · rw [sweep, if_neg hmany]
        exact .inl hget

/-- **A request keeps what may be forgotten**: both stores say the same of it. -/
theorem Forgets.counted (h : Forgets s kept now) (key : Text) :
    (s.increment key now).1 = (kept.incrementKept key now).1 ∧
      Forgets (s.increment key now).2 (kept.incrementKept key now).2 now := by
  have hsame : s.countIn key now = kept.countIn key now := h.countIn
  have hdistinct : (s.requests.spread [(key, s.countIn key now)]).keys.Nodup :=
    Record.nodup_spread h.distinct Record.nodup_singleton
  refine ⟨?_, ?_, fun other => ?_⟩
  · rw [InMemoryRateLimitStore.increment, incrementKept, hsame]
  · rw [InMemoryRateLimitStore.increment, sweep]
    dsimp only
    split
    · exact hdistinct.sublist (List.filter_sublist.map _)
    · exact hdistinct
  · have hkept : (kept.incrementKept key now).2.requests.get? other
        = if other = key then some (s.countIn key now) else kept.requests.get? other := by
      rw [incrementKept, hsame]
      exact Record.get?_spread_singleton
    have hspread : (s.requests.spread [(key, s.countIn key now)]).get? other
        = if other = key then some (s.countIn key now) else s.requests.get? other :=
      Record.get?_spread_singleton
    rw [hkept]
    -- a window is in both stores, or the sweep has just discarded it, or it was discarded before
    rcases get?_sweep_eq other now hdistinct with hleft | ⟨hgone, record, hrecord, hold⟩
    · rw [show (s.increment key now).2.requests = sweep _ now from rfl, hleft, hspread]
      split
      · exact .inl rfl
      · exact h.known other
    · rw [hspread] at hrecord
      refine .inr ⟨hgone, record, ?_, hold⟩
      split at hrecord
      · rw [if_pos ‹_›]
        exact hrecord
      · rw [if_neg ‹_›]
        rcases h.known other with hsame | ⟨hnone, _⟩
        · rw [← hsame]
          exact hrecord
        · rw [hnone] at hrecord
          cases hrecord

/-- The first of requests in order is the earliest. -/
theorem start_le {r : RateRequest} (h : InOrder (r :: rs)) : ∀ later ∈ r :: rs, r.now ≤ later.now := by
  intro later hmem
  rcases List.mem_cons.mp hmem with rfl | hmem
  · exact le_rfl
  · exact (List.pairwise_cons.mp h).1 later hmem

/-- Stores that have forgotten no more than they may answer alike. -/
theorem Forgets.answers_eq (h : Forgets s kept now) (hstart : ∀ r ∈ rs, now ≤ r.now) (horder : InOrder rs) :
    answers increment s rs = answers incrementKept kept rs := by
  induction rs generalizing s kept now with
  | nil => rfl
  | cons r rs ih =>
    rw [InOrder, List.pairwise_cons] at horder
    obtain ⟨hanswer, hnext⟩ := (h.mono (hstart r List.mem_cons_self)).counted r.key
    rw [answers, answers, hanswer, ih hnext horder.1 horder.2]

/-! ## Each key for itself -/

theorem underKey_cons {ρ : Type} {r : RateRequest} {a : ρ} {as : List ρ} :
    underKey key (r :: rs) (a :: as)
      = if r.key = key then (r.now, a) :: underKey key rs as else underKey key rs as := by
  rw [underKey, List.zip_cons_cons, List.filterMap_cons]
  by_cases hkey : r.key = key
  · simp only [hkey, if_true]
    rfl
  · simp only [hkey, if_false]
    rfl

theorem timesOf_cons {r : RateRequest} :
    timesOf key (r :: rs) = if r.key = key then r.now :: timesOf key rs else timesOf key rs := by
  rw [timesOf, List.filterMap_cons]
  by_cases hkey : r.key = key
  · simp only [hkey, if_true]
    rfl
  · simp only [hkey, if_false]
    rfl

/-- A store that never discards anything counts each key for itself. -/
theorem underKey_answers_kept :
    underKey key rs (answers incrementKept kept rs)
      = ownAnswers (kept.requests.get? key) (timesOf key rs) := by
  induction rs generalizing kept with
  | nil => rfl
  | cons r rs ih =>
    have hget : (kept.incrementKept r.key r.now).2.requests.get? key
        = if key = r.key then some (kept.countIn r.key r.now) else kept.requests.get? key :=
      Record.get?_spread_singleton
    rw [answers, underKey_cons, timesOf_cons, ih, hget]
    by_cases hkey : r.key = key
    · obtain rfl := hkey
      rw [if_pos rfl, if_pos rfl, if_pos rfl]
      rfl
    · rw [if_neg hkey, if_neg hkey, if_neg (Ne.symm hkey)]

/-- So does the store that discards old windows, if the requests are in order. -/
theorem underKey_answers (horder : InOrder rs) :
    underKey key rs (answers increment {} rs) = ownAnswers none (timesOf key rs) := by
  cases rs with
  | nil => rfl
  | cons r rs =>
    rw [forgets_nil.answers_eq (start_le horder) horder]
    exact underKey_answers_kept

/-- **Pruning is invisible**: the store that discards old windows says the same of every request as the
same store that never discards anything, and what it says under a key is a function of the times of the
requests under that key. -/
theorem pruning_invisible (horder : InOrder rs) :
    answers increment {} rs = answers incrementKept {} rs ∧
      ∀ key, underKey key rs (answers increment {} rs) = ownAnswers none (timesOf key rs) := by
  refine ⟨?_, fun key => underKey_answers horder⟩
  cases rs with
  | nil => rfl
  | cons r rs => exact forgets_nil.answers_eq (start_le horder) horder

theorem pruning_invisible_two :
    InOrder [⟨lit "a", 0⟩, ⟨lit "b", 1⟩, ⟨lit "a", 2⟩] ∧
      underKey (lit "a") [⟨lit "a", 0⟩, ⟨lit "b", 1⟩, ⟨lit "a", 2⟩]
          (answers increment {} [⟨lit "a", 0⟩, ⟨lit "b", 1⟩, ⟨lit "a", 2⟩])
        = ownAnswers none [0, 2] := by
  have horder : InOrder [⟨lit "a", 0⟩, ⟨lit "b", 1⟩, ⟨lit "a", 2⟩] := by
    unfold InOrder
    decide
  exact ⟨horder, (pruning_invisible horder).2 (lit "a")⟩

/-! ## Requests in an interval -/

/-- A request at a time that is served, in the minute from `start`. -/
def servedIn (start : ℤ) (p : ℤ × RateCount) : Bool :=
  withinLimit p.2 && decide (start ≤ p.1 ∧ p.1 ≤ start + windowMs)

/-- How many of the requests under a key `verifyRateLimit` admits in the interval of a minute from
`start`, both ends included. -/
def admittedIn (start : ℤ) (key : Text) (rs : List RateRequest) : ℕ :=
  (underKey key rs (answers verifyRateLimit {} rs)).countP fun p =>
    p.2.success && decide (start ≤ p.1 ∧ p.1 ≤ start + windowMs)

/-- How many of the requests of one key alone are served. -/
def servedAlone (start : ℤ) (last : Option RateWindow) (times : List ℤ) : ℕ :=
  (ownAnswers last times).countP (servedIn start)

variable {start : ℤ}

theorem answers_verifyRateLimit :
    answers verifyRateLimit s rs = (answers increment s rs).map verdict := by
  induction rs generalizing s with
  | nil => rfl
  | cons r rs ih => rw [answers, answers, List.map_cons, ← ih]; rfl

theorem underKey_map {ρ τ : Type} {f : ρ → τ} {as : List ρ} :
    underKey key rs (as.map f) = (underKey key rs as).map (Prod.map id f) := by
  induction rs generalizing as with
  | nil => rfl
  | cons r rs ih =>
    cases as with
    | nil => rfl
    | cons a as =>
      rw [List.map_cons, underKey_cons, underKey_cons, ih]
      split
      · rfl
      · rfl

theorem success_verdict {limit : RateCount} : (verdict limit).success = withinLimit limit := by
  rw [verdict]
  split
  · exact (by assumption : withinLimit limit = true).symm
  · exact (Bool.not_eq_true _ ▸ by assumption : withinLimit limit = false).symm

/-- The requests admitted under a key are those of its own windows. -/
theorem admittedIn_eq (horder : InOrder rs) :
    admittedIn start key rs = servedAlone start none (timesOf key rs) := by
  rw [admittedIn, answers_verifyRateLimit, underKey_map, underKey_answers horder, List.countP_map, servedAlone]
  refine List.countP_congr fun p _ => ?_
  simp only [Function.comp_apply, Prod.map_snd, Prod.map_fst, id_eq, success_verdict, servedIn]

theorem servedAlone_cons : servedAlone start last (now :: times)
    = servedAlone start (some (windowAt last now)) times
      + if servedIn start (now, (windowAt last now).answer now) then 1 else 0 := by
  rw [servedAlone, ownAnswers, List.countP_cons]
  rfl

theorem servedIn_iff : servedIn start (now, record.answer now) = true ↔
    record.count ≤ maxRequests ∧ start ≤ now ∧ now ≤ start + windowMs := by
  rw [servedIn, Bool.and_eq_true, withinLimit, decide_eq_true_eq, decide_eq_true_eq]
  rfl

/-- After the interval nothing is served in it. -/
theorem servedAlone_after (h : ∀ t ∈ times, start + windowMs < t) : servedAlone start last times = 0 := by
  induction times generalizing last with
  | nil => rfl
  | cons now times ih =>
    have hnow := h now List.mem_cons_self
    rw [servedAlone_cons, ih fun t ht => h t (List.mem_cons_of_mem _ ht), if_neg]
    rw [servedIn_iff]
    omega

/-- A window that starts in the interval is the last one in it: only what it has left is served. -/
theorem servedAlone_inside (hstart : start ≤ record.windowStart) (horder : times.Pairwise (· ≤ ·)) :
    (servedAlone start (some record) times : ℤ) ≤ max 0 (maxRequests - record.count) := by
  induction times generalizing record with
  | nil => exact le_max_left _ _
  | cons now times ih =>
    rw [List.pairwise_cons] at horder
    by_cases hinside : now ≤ start + windowMs
    · have hyoung : now - record.windowStart ≤ windowMs := by omega
      have hrest := @ih { record with count := record.count + 1 } hstart horder.2
      rw [servedAlone_cons, windowAt_of_young hyoung]
      dsimp only at hrest
      split
      · have hserved := (servedIn_iff.mp ‹_›).1
        dsimp only at hserved
        push_cast
        omega
      · push_cast
        omega
    · -- the requests are in order, so that the interval is over
      rw [servedAlone_after]
      · exact le_max_left _ _
      · intro t ht
        rcases List.mem_cons.mp ht with rfl | ht
        · exact not_le.mp hinside
        · exact (not_le.mp hinside).trans_le (horder.1 t ht)

/-- A window that starts in the interval, with the request that starts it. -/
theorem servedAlone_fresh (hstart : start ≤ now) (horder : times.Pairwise (· ≤ ·)) :
    (servedAlone start (some (windowAt none now)) times : ℤ) + 1 ≤ maxRequests := by
  have hinside : (servedAlone start (some (windowAt none now)) times : ℤ) ≤ max 0 (maxRequests - 1) :=
    servedAlone_inside hstart horder
  rw [maxRequests] at hinside ⊢
  omega

/-- In the interval, a window is left with what it has left, and one more window may start. -/
theorem servedAlone_across (hin : ∀ t ∈ times, start ≤ t) (horder : times.Pairwise (· ≤ ·)) :
    (servedAlone start (some record) times : ℤ) ≤ max 0 (maxRequests - record.count) + maxRequests := by
  induction times generalizing record with
  | nil => exact add_nonneg (le_max_left _ _) (by decide)
  | cons now times ih =>
    rw [List.pairwise_cons] at horder
    rw [servedAlone_cons]
    by_cases hyoung : now - record.windowStart ≤ windowMs
    · have hrest := @ih { record with count := record.count + 1 }
        (fun t ht => hin t (List.mem_cons_of_mem _ ht)) horder.2
      rw [windowAt_of_young hyoung]
      dsimp only at hrest
      split
      · have hserved := (servedIn_iff.mp ‹_›).1
        dsimp only at hserved
        push_cast
        omega
      · push_cast
        omega
    · -- the first window of the interval: no other one starts in it
      have hfresh := servedAlone_fresh (hin now List.mem_cons_self) horder.2
      rw [windowAt_of_over (not_le.mp hyoung)]
      split
      · push_cast
        omega
      · push_cast
        omega

/-- The window that the interval starts in has counted one request at least. -/
theorem servedAlone_le_of_counted (hcount : 1 ≤ record.count) (horder : times.Pairwise (· ≤ ·)) :
    (servedAlone start (some record) times : ℤ) ≤ 2 * maxRequests - 1 := by
  induction times generalizing record with
  | nil => exact (by decide : (0 : ℤ) ≤ 2 * maxRequests - 1)
  | cons now times ih =>
    by_cases hin : start ≤ now
    · have hlater : ∀ t ∈ now :: times, start ≤ t := by
        intro t ht
        rcases List.mem_cons.mp ht with rfl | ht
        · exact hin
        · exact hin.trans ((List.pairwise_cons.mp horder).1 t ht)
      have hacross : (servedAlone start (some record) (now :: times) : ℤ) ≤ max 0 (maxRequests - record.count)
          + maxRequests := servedAlone_across hlater horder
      rw [maxRequests] at hacross ⊢
      omega
    · -- before the interval nothing is served in it, and the count only grows or restarts at one
      have hnext : 1 ≤ (windowAt (some record) now).count := by
        rw [windowAt]
        split
        · exact le_rfl
        · exact Int.le_add_one hcount
      rw [servedAlone_cons, if_neg fun h => hin (servedIn_iff.mp h).2.1]
      exact ih hnext (List.pairwise_cons.mp horder).2

/-- One key alone. -/
theorem servedAlone_le (horder : times.Pairwise (· ≤ ·)) :
    (servedAlone start none times : ℤ) ≤ 2 * maxRequests - 1 := by
  cases times with
  | nil => exact (by decide : (0 : ℤ) ≤ 2 * maxRequests - 1)
  | cons now times =>
    rw [List.pairwise_cons] at horder
    rw [servedAlone_cons]
    by_cases hin : start ≤ now
    · have hfresh := servedAlone_fresh hin horder.2
      rw [maxRequests] at hfresh ⊢
      split
      · push_cast
        omega
      · push_cast
        omega
    · rw [if_neg fun h => hin (servedIn_iff.mp h).2.1]
      exact servedAlone_le_of_counted le_rfl horder.2

theorem timesOf_sorted (horder : InOrder rs) : (timesOf key rs).Pairwise (· ≤ ·) := by
  refine List.Pairwise.filterMap _ (fun r later hle t ht u hu => ?_) horder
  rw [Option.ite_none_right_eq_some] at ht hu
  obtain rfl := Option.some.inj ht.2
  obtain rfl := Option.some.inj hu.2
  exact hle

/-- **The limit of a minute**: of the requests under a key, fewer than twice the limit are admitted in any
interval as long as a window, for at most two windows meet it, and one of them started before it. -/
theorem admittedIn_le (horder : InOrder rs) : (admittedIn start key rs : ℤ) ≤ 2 * maxRequests - 1 := by
  rw [admittedIn_eq horder]
  exact servedAlone_le (timesOf_sorted horder)

theorem admittedIn_le_two : (admittedIn 0 (lit "a") [⟨lit "a", 0⟩, ⟨lit "a", 60001⟩] : ℤ) ≤ 59 :=
  admittedIn_le (by unfold InOrder; decide)

/-- A request that starts a window, a burst at its end and one at the start of the next window. -/
def burstRequests : List RateRequest :=
  ⟨lit "a", 0⟩ :: (List.replicate 29 ⟨lit "a", 60000⟩ ++ List.replicate 30 ⟨lit "a", 60001⟩)

/-- **More than the limit in a minute**: all of the two bursts are admitted. -/
theorem bursts_admitted : InOrder burstRequests ∧ admittedIn 60000 (lit "a") burstRequests = 59 ∧
    ¬ (admittedIn 60000 (lit "a") burstRequests : ℤ) ≤ maxRequests := by
  have horder : InOrder burstRequests := by
    unfold InOrder burstRequests
    decide
  have hcount : admittedIn 60000 (lit "a") burstRequests = 59 := by
    rw [admittedIn_eq horder]
    decide
  refine ⟨horder, hcount, ?_⟩
  rw [hcount]
  decide

end DreamWeaver.Admission
