import DreamWeaver.Foundations.JsData

/-! # Rate limits

The limit of requests by address (`api/src/middleware/rateLimit.ts`): 30 requests in a window of one
minute, counted by a store. The store in memory counts in fixed windows, and forgets old ones when it has
more than 10000. -/

namespace DreamWeaver.Admission

/-- `WINDOW_MS` -/
def windowMs : ℤ := 60000

/-- `MAX_REQUESTS` -/
def maxRequests : ℤ := 30

/-- What a store says of a request: how many there were in its window, this one included, and the seconds
until the window ends. -/
structure RateCount where
  count : ℤ
  ttl : ℤ
  deriving DecidableEq

/-- The count of an address. -/
structure RateWindow where
  count : ℤ
  windowStart : ℤ
  deriving DecidableEq

/-- `InMemoryRateLimitStore` -/
structure InMemoryRateLimitStore where
  requests : Record RateWindow := []

namespace InMemoryRateLimitStore

/-- The window that a request of an address falls into, and its count. -/
def countIn (s : InMemoryRateLimitStore) (key : Text) (now : ℤ) : RateWindow :=
  match s.requests.get? key with
  | none => ⟨1, now⟩
  | some record => if windowMs < now - record.windowStart then ⟨1, now⟩ else { record with
      count := record.count + 1 }

/-- The windows, without the old ones if there are too many. -/
def sweep (requests : Record RateWindow) (now : ℤ) : Record RateWindow :=
  if 10000 < requests.length then
    requests.filter fun entry => !decide (windowMs * 2 < now - entry.2.windowStart)
  else requests

/-- `increment` -/
def increment (s : InMemoryRateLimitStore) (key : Text) (now : ℤ) : RateCount × InMemoryRateLimitStore :=
  let record := s.countIn key now
  (⟨record.count, ⌈((record.windowStart + windowMs - now : ℤ) : ℚ) / 1000⌉⟩,
    { requests := sweep (s.requests.spread [(key, record)]) now })

end InMemoryRateLimitStore

/-- `success` of `verifyRateLimit` -/
def withinLimit (limit : RateCount) : Bool := limit.count ≤ maxRequests

/-! ## Addresses -/

/-- The first of the addresses that a request was forwarded for. -/
def firstHop (forwarded : Text) : Text := trim ((forwarded.splitOn 44).headD [])

/-- `extractClientIp` -/
def extractClientIp (get : Text → Option Text) : Text :=
  orText (get (lit "x-real-ip"))
    (orText (get (lit "cf-connecting-ip"))
      (orText ((get (lit "x-forwarded-for")).map firstHop) (lit "unknown")))

/-! ## Windows -/

namespace InMemoryRateLimitStore

variable {s : InMemoryRateLimitStore} {key other : Text} {now : ℤ}

/-- A sweep keeps a window that has not been over for long. -/
theorem get?_sweep {requests : Record RateWindow} {record : RateWindow}
    (hdistinct : requests.keys.Nodup) (hget : requests.get? key = some record)
    (hyoung : now - record.windowStart ≤ windowMs * 2) : (sweep requests now).get? key = some record := by
  rw [sweep]
  split
  · apply Record.get?_of_mem (hdistinct.sublist (List.filter_sublist.map _))
    refine List.mem_filter.mpr ⟨Record.mem_of_get? hget, ?_⟩
    simpa using hyoung
  · exact hget

/-- **Counting in windows**: within a window, the count of an address goes up by one with each of its
requests. -/
theorem countIn_increment {later : ℤ} (hdistinct : s.requests.keys.Nodup)
    (hwindow : later - (s.countIn key now).windowStart ≤ windowMs) (hle : now ≤ later) :
    (s.increment key now).2.countIn key later = { s.countIn key now with
      count := (s.increment key now).1.count + 1 } := by
  have hget : (s.increment key now).2.requests.get? key = some (s.countIn key now) := by
    refine get?_sweep (Record.nodup_spread hdistinct Record.nodup_singleton) ?_ ?_
    · rw [Record.get?_spread_singleton, if_pos rfl]
    · rw [windowMs] at hwindow ⊢
      omega
  rw [countIn, hget]
  dsimp only
  rw [if_neg (not_lt.mpr hwindow)]
  rfl

end InMemoryRateLimitStore

end DreamWeaver.Admission
