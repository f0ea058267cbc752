import DreamWeaver.Admission.FixedWindows

/-! # When to try again

A request that is turned away is told after how many seconds to try again: the rest of its window, in seconds that
were begun. A window is over only after its last millisecond, so that a rest of whole seconds leads to the last
millisecond and not behind it. -/

namespace DreamWeaver.Admission

open InMemoryRateLimitStore

/-- The store after requests. -/
def InMemoryRateLimitStore.after (s : InMemoryRateLimitStore) (rs : List RateRequest) : InMemoryRateLimitStore :=
  rs.foldl (fun s r => (verifyRateLimit s r.key r.now).2) s

/-- The window of a key started a whole number of seconds before a time. -/
def StartedWholeSecondsAgo (s : InMemoryRateLimitStore) (key : Text) (now : ℤ) : Prop :=
  ∃ record, s.requests.get? key = some record ∧ (1000 : ℤ) ∣ now - record.windowStart

variable {s : InMemoryRateLimitStore} {key other : Text} {now later : ℤ} {record : RateWindow} {rs : List RateRequest}

/-! ## Stores -/

/-- The keys of a store are distinct. -/
theorem distinct_increment (h : s.requests.keys.Nodup) : (s.increment key now).2.requests.keys.Nodup := by
  have hspread : (s.requests.spread [(key, s.countIn key now)]).keys.Nodup :=
    Record.nodup_spread h Record.nodup_singleton
  rw [increment, sweep]
  dsimp only
  split
  · exact hspread.sublist (List.filter_sublist.map _)
  · exact hspread

theorem distinct_after (h : s.requests.keys.Nodup) (rs : List RateRequest) : (s.after rs).requests.keys.Nodup := by
  induction rs generalizing s with
  | nil => exact h
  | cons r rs ih => exact ih (distinct_increment h)

/-- A request leaves its window in the store. -/
theorem get?_increment_self (h : s.requests.keys.Nodup)
    (hyoung : now - (s.countIn key now).windowStart ≤ windowMs * 2) :
    (s.increment key now).2.requests.get? key = some (s.countIn key now) := by
  refine get?_sweep (Record.nodup_spread h Record.nodup_singleton) ?_ hyoung
  rw [Record.get?_spread_singleton, if_pos rfl]

/-- A request under another key leaves a window that has not been over for long. -/
theorem get?_increment_other (h : s.requests.keys.Nodup) (hother : other ≠ key)
    (hrecord : s.requests.get? key = some record) (hyoung : now - record.windowStart ≤ windowMs * 2) :
    (s.increment other now).2.requests.get? key = some record := by
  refine get?_sweep (Record.nodup_spread h Record.nodup_singleton) ?_ hyoung
  rw [Record.get?_spread_singleton, if_neg (Ne.symm hother), hrecord]

/-- So do all of them. -/
theorem get?_after_others (h : s.requests.keys.Nodup) (hothers : ∀ r ∈ rs, r.key ≠ key ∧ r.now ≤ later)
    (hrecord : s.requests.get? key = some record) (hyoung : later - record.windowStart ≤ windowMs * 2) :
    (s.after rs).requests.get? key = some record := by
  induction rs generalizing s with
  | nil => exact hrecord
  | cons r rs ih =>
    obtain ⟨hkey, hnow⟩ := hothers r List.mem_cons_self
    have hnext : (s.increment r.key r.now).2.requests.get? key = some record :=
      get?_increment_other h hkey hrecord (by omega)
    exact ih (distinct_increment h) (fun r' hr' => hothers r' (List.mem_cons_of_mem r hr')) hnext

/-! ## A request that is turned away -/

/-- A verdict is a success exactly within the limit. -/
theorem success_iff : (verifyRateLimit s key now).1.success = true ↔ (s.countIn key now).count ≤ maxRequests := by
  show (verdict (s.increment key now).1).success = true ↔ _
  rw [success_verdict]
  exact decide_eq_true_iff

/-- Beyond the limit a request is turned away. -/
theorem verdict_of_lt {limit : RateCount} (h : maxRequests < limit.count) :
    verdict limit = ⟨false, some limit.ttl⟩ := by
  rw [verdict, if_neg]
  rw [withinLimit, decide_eq_true_iff]
  exact not_le.mpr h

theorem rejects_of_count {count ttl : ℤ} (h : (s.increment key now).1 = ⟨count, ttl⟩) (hcount : maxRequests < count) :
    (verifyRateLimit s key now).1 = ⟨false, some ttl⟩ := by
  show verdict (s.increment key now).1 = _
  rw [h]
  exact verdict_of_lt hcount

/-- A new window has room. -/
theorem fresh_within : ¬ maxRequests < (windowAt none now).count := by
  show ¬ (30 : ℤ) < 1
  omega

/-- A request is turned away in a window that has used up the limit, and is told the rest of it. -/
theorem rejected_window {retryAfter : ℤ} (h : (verifyRateLimit s key now).1 = ⟨false, some retryAfter⟩) :
    ∃ record, s.requests.get? key = some record ∧ now - record.windowStart ≤ windowMs ∧
      maxRequests < record.count + 1 ∧
      retryAfter = ⌈((record.windowStart + windowMs - now : ℤ) : ℚ) / 1000⌉ := by
  have hcount : maxRequests < (s.countIn key now).count := by
    by_contra hwithin
    have hsuccess := success_iff.mpr (not_lt.mp hwithin)
    rw [h] at hsuccess
    cases hsuccess
  have hretry : retryAfter = ⌈(((s.countIn key now).windowStart + windowMs - now : ℤ) : ℚ) / 1000⌉ := by
    have hverdict : (verifyRateLimit s key now).1 = ⟨false, some (s.increment key now).1.ttl⟩ :=
      @verdict_of_lt (s.increment key now).1 hcount
    rw [h] at hverdict
    exact Option.some.inj (congrArg RateVerdict.retryAfter hverdict)
  rw [countIn_eq] at hcount hretry
  cases hget : s.requests.get? key with
  | none =>
    rw [hget] at hcount
    exact absurd hcount fresh_within
  | some record =>
    rw [hget] at hcount hretry
    by_cases hover : windowMs < now - record.windowStart
    · rw [windowAt_of_over hover] at hcount
      exact absurd hcount fresh_within
    · rw [windowAt_of_young (not_lt.mp hover)] at hcount hretry
      exact ⟨record, rfl, not_lt.mp hover, hcount, hretry⟩

/-- The seconds that were begun reach the end of a rest, and go beyond it unless they are whole. -/
theorem ceil_seconds (rest : ℤ) :
    rest ≤ 1000 * ⌈(rest : ℚ) / 1000⌉ ∧ 1000 * ⌈(rest : ℚ) / 1000⌉ < rest + 1000 := by
  have hle := Int.le_ceil ((rest : ℚ) / 1000)
  have hlt := Int.ceil_lt_add_one ((rest : ℚ) / 1000)
  constructor
  · have : (rest : ℚ) ≤ ((1000 * ⌈(rest : ℚ) / 1000⌉ : ℤ) : ℚ) := by push_cast; linarith
    exact_mod_cast this
  · have : ((1000 * ⌈(rest : ℚ) / 1000⌉ : ℤ) : ℚ) < ((rest + 1000 : ℤ) : ℚ) := by push_cast; linarith
    exact_mod_cast this

/-- **Trying again as told** is enough exactly if the request that was turned away did not come a whole number of
seconds after the start of its window; whatever requests under other keys come in between. -/
theorem retryAfter_sufficient_iff {history between : List RateRequest} {retryAfter : ℤ}
    (hrejected : (verifyRateLimit (InMemoryRateLimitStore.after {} history) key now).1 = ⟨false, some retryAfter⟩)
    (hbetween : ∀ r ∈ between, r.key ≠ key ∧ r.now ≤ now + 1000 * retryAfter) :
    (verifyRateLimit ((verifyRateLimit (InMemoryRateLimitStore.after {} history) key now).2.after between) key
        (now + 1000 * retryAfter)).1.success = true ↔
      ¬ StartedWholeSecondsAgo (InMemoryRateLimitStore.after {} history) key now := by
  have hdistinct : (InMemoryRateLimitStore.after {} history).requests.keys.Nodup :=
    @distinct_after {} List.nodup_nil history
  obtain ⟨record, hget, hyoung, hcount, rfl⟩ := rejected_window hrejected
  obtain ⟨hreach, hbeyond⟩ := ceil_seconds (record.windowStart + windowMs - now)
  generalize ⌈((record.windowStart + windowMs - now : ℤ) : ℚ) / 1000⌉ = retryAfter at hreach hbeyond hbetween ⊢
  generalize InMemoryRateLimitStore.after {} history = s at hdistinct hget ⊢
  have hcounted : s.countIn key now = ⟨record.count + 1, record.windowStart⟩ := by
    rw [countIn_eq, hget, windowAt_of_young hyoung]
  have hthere : (verifyRateLimit s key now).2.requests.get? key = some ⟨record.count + 1, record.windowStart⟩ := by
    rw [← hcounted]
    refine get?_increment_self hdistinct ?_
    rw [hcounted]
    simp only [windowMs] at hyoung ⊢
    omega
  have hdistinct' : (verifyRateLimit s key now).2.requests.keys.Nodup := distinct_increment hdistinct
  have hstill := get?_after_others hdistinct' hbetween hthere (by
    simp only [windowMs] at hbeyond ⊢
    omega)
  have hwhole : StartedWholeSecondsAgo s key now ↔ (1000 : ℤ) ∣ now - record.windowStart := by
    rw [StartedWholeSecondsAgo, hget]
    simp
  rw [success_iff, countIn_eq, hstill, hwhole]
  generalize hwindow : (⟨record.count + 1, record.windowStart⟩ : RateWindow) = window
  have hstart : window.windowStart = record.windowStart := hwindow ▸ rfl
  have hfull : maxRequests < window.count := hwindow ▸ hcount
  rw [← hstart] at hreach hbeyond ⊢
  by_cases hover : windowMs < now + 1000 * retryAfter - window.windowStart
  · -- the window is over: the request starts the next one
    rw [windowAt_of_over hover]
    refine iff_of_true (not_lt.mp fresh_within) ?_
    simp only [windowMs] at hover hreach hbeyond
    omega
  · rw [windowAt_of_young (not_lt.mp hover)]
    refine iff_of_false ?_ ?_
    · dsimp only
      omega
    · simp only [windowMs] at hover hreach hbeyond
      omega

/-! ### A burst -/

/-- As many requests as are served, all at once. -/
def burst : List RateRequest := List.replicate 30 ⟨lit "a", 0⟩

/-- The store after them. -/
def burstStore : InMemoryRateLimitStore := InMemoryRateLimitStore.after {} burst

/-- A request in between seconds is served when it tries again. -/
theorem burst_retried : (verifyRateLimit burstStore (lit "a") 500).1 = ⟨false, some 60⟩ ∧
    (verifyRateLimit ((verifyRateLimit burstStore (lit "a") 500).2.after []) (lit "a")
      (500 + 1000 * 60)).1.success = true := by
  have hcount : (burstStore.increment (lit "a") 500).1 = ⟨31, 60⟩ := by decide +kernel
  have hrejected := rejects_of_count hcount (by decide)
  refine ⟨hrejected, (retryAfter_sufficient_iff hrejected fun _ h => absurd h List.not_mem_nil).mpr ?_⟩
  rintro ⟨record, hrecord, hwhole⟩
  have hget : burstStore.requests.get? (lit "a") = some ⟨30, 0⟩ := by decide +kernel
  obtain rfl := Option.some.inj (hget.symm.trans hrecord)
  exact absurd hwhole (by decide)

/-- **Turned away again**: a request that came with the burst tries again as told, at the last millisecond of its
window, and is told to try again after no second at all. -/
theorem burst_retried_early : (verifyRateLimit burstStore (lit "a") 0).1 = ⟨false, some 60⟩ ∧
    (verifyRateLimit (verifyRateLimit burstStore (lit "a") 0).2 (lit "a") (0 + 1000 * 60)).1 = ⟨false, some 0⟩ := by
  have hcount : (burstStore.increment (lit "a") 0).1 = ⟨31, 60⟩ := by decide +kernel
  have hcount' : ((verifyRateLimit burstStore (lit "a") 0).2.increment (lit "a") (0 + 1000 * 60)).1 = ⟨32, 0⟩ := by
    decide +kernel
  exact ⟨rejects_of_count hcount (by decide), rejects_of_count hcount' (by decide)⟩

end DreamWeaver.Admission
