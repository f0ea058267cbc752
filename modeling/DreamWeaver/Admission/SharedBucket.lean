import DreamWeaver.Admission.FixedWindows
import DreamWeaver.Admission.UpgradeHandler

/-! # One bucket for all clients without proxies

`extractClientIp` names a client that sends no proxy headers `unknown`, and not with an empty text; so that the
handler of upgrades never comes to ask for the address of the socket. Clients that are named differently are counted
each for itself, by the store in memory and by Upstash. Those without proxy headers are counted together: another
client can use up the attempts of any of them. -/

namespace DreamWeaver.Admission

open InMemoryRateLimitStore

/-! ## Upstash -/

/-- A counter in Redis, and when it expires. -/
structure RedisCounter where
  count : ℤ
  expiresAt : ℤ
  deriving DecidableEq

/-- `UpstashRateLimitStore`, over a Redis that answers. -/
structure UpstashRateLimitStore where
  counters : Record RedisCounter := []

namespace UpstashRateLimitStore

/-- `redisKey` -/
def redisKey (key : Text) : Text := lit "ratelimit:" ++ key

/-- A counter after `INCR` and `EXPIRE … NX`: a key that has expired is not there. -/
def counterAt (last : Option RedisCounter) (now : ℤ) : RedisCounter :=
  match last with
  | none => ⟨1, now + windowMs⟩
  | some counter => if counter.expiresAt ≤ now then ⟨1, now + windowMs⟩ else { counter with count := counter.count + 1 }

/-- `increment` -/
def increment (s : UpstashRateLimitStore) (key : Text) (now : ℤ) : RateCount × UpstashRateLimitStore :=
  let counter := counterAt (s.counters.get? (redisKey key)) now
  (⟨counter.count, ⌈(windowMs : ℚ) / 1000⌉⟩, { counters := s.counters.spread [(redisKey key, counter)] })

end UpstashRateLimitStore

/-- `rateLimitStore` -/
inductive CountingStore where
  | inMemory (store : InMemoryRateLimitStore)
  | upstash (store : UpstashRateLimitStore)

namespace CountingStore

/-- `increment` -/
def increment (key : Text) (now : ℤ) : CountingStore → RateCount × CountingStore
  | .inMemory store => ((store.increment key now).1, .inMemory (store.increment key now).2)
  | .upstash store => ((store.increment key now).1, .upstash (store.increment key now).2)

/-- Nothing was counted yet. -/
def IsStarted (s : CountingStore) : Prop := s = .inMemory {} ∨ s = .upstash {}

end CountingStore

/-! ## Attempts -/

/-- An attempt to connect, and when it is counted. -/
structure Attempt where
  request : UpgradeRequest
  now : ℤ

/-- The attempt is of the client at an address. -/
def Attempt.isOf (address : Text) (attempt : Attempt) : Bool := attempt.request.remoteAddress = some address

/-- No proxy headers are sent. -/
def UpgradeRequest.IsBare (request : UpgradeRequest) : Prop :=
  request.headers.get? (lit "x-real-ip") = none ∧ request.headers.get? (lit "cf-connecting-ip") = none ∧
    request.headers.get? (lit "x-forwarded-for") = none

/-- What the handler does with a request for one of its sockets: it counts the request under the name of the client,
and goes on if the verdict is a success. -/
theorem checkUpgrade_of_path {settings : UpgradeSettings} {request : UpgradeRequest} {url : RequestUrl}
    (hurl : settings.parseUrl request.url = some url) (hpath : url.pathname = livePath ∨ url.pathname = eventsPath) :
    checkUpgrade settings request = (do
      let limit ← Proc.perform (UpgradeEffect.increment request.clientIp)
      if (verdict limit).success then checkCredentials settings request url
      else do
        refuse (lit "429 Too Many Requests")
        pure none) := by
  rw [checkUpgrade, hurl]
  dsimp only
  rw [if_neg fun h => hpath.elim h.1 h.2]
  refine congrArg (Proc.perform _ >>= ·) (funext fun limit => ?_)
  rw [success_verdict]
  cases withinLimit limit with
  | true => rfl
  | false => rfl

/-- Which of the attempts of the client at an address pass the rate limit, among the attempts of all clients. -/
def admissionsOf (address : Text) : CountingStore → List Attempt → List Bool
  | _, [] => []
  | s, attempt :: attempts =>
    let (limit, s') := s.increment attempt.request.clientIp attempt.now
    if attempt.isOf address then (verdict limit).success :: admissionsOf address s' attempts
    else admissionsOf address s' attempts

/-- The attempts are in the order of their times. -/
def InTime (attempts : List Attempt) : Prop := attempts.Pairwise fun a later => a.now ≤ later.now

/-- **The address of the socket is never asked for.** -/
theorem clientIp_of_isBare {request : UpgradeRequest} (h : request.IsBare) : request.clientIp = lit "unknown" := by
  obtain ⟨hreal, hcloud, hforwarded⟩ := h
  rw [UpgradeRequest.clientIp, extractClientIp, hreal, hcloud, hforwarded]
  rfl

variable {address key : Text} {s : CountingStore} {attempts mine : List Attempt} {now : ℤ}

/-! ## Named apart -/

/-- An attempt as the store counts it. -/
def Attempt.counted (attempt : Attempt) : RateRequest := ⟨attempt.request.clientIp, attempt.now⟩

/-- The attempts of a client are those under its name. -/
def NamedBy (address key : Text) (attempts : List Attempt) : Prop :=
  ∀ attempt ∈ attempts, attempt.isOf address = true ↔ attempt.request.clientIp = key

/-- In memory, they pass as the answers under the name say. -/
theorem admissionsOf_inMemory {store : InMemoryRateLimitStore} (h : NamedBy address key attempts) :
    admissionsOf address (.inMemory store) attempts =
      (underKey key (attempts.map Attempt.counted) (answers InMemoryRateLimitStore.increment store
        (attempts.map Attempt.counted))).map fun p => (verdict p.2).success := by
  induction attempts generalizing store with
  | nil => rfl
  | cons attempt attempts ih =>
    have hname : attempt.isOf address = true ↔ attempt.counted.key = key := h attempt List.mem_cons_self
    have hrest := @ih (store.increment attempt.request.clientIp attempt.now).2
      fun x hx => h x (List.mem_cons_of_mem _ hx)
    rw [List.map_cons, answers, underKey_cons]
    show (if attempt.isOf address then _ else _) = _
    by_cases hof : attempt.isOf address = true
    · rw [if_pos hof, if_pos (hname.1 hof), List.map_cons]
      exact congrArg _ hrest
    · rw [if_neg hof, if_neg fun hkey => hof (hname.2 hkey)]
      exact hrest

theorem timesOf_filter (h : NamedBy address key attempts) :
    timesOf key ((attempts.filter (Attempt.isOf address)).map Attempt.counted) =
      timesOf key (attempts.map Attempt.counted) := by
  induction attempts with
  | nil => rfl
  | cons attempt attempts ih =>
    have hname : attempt.isOf address = true ↔ attempt.counted.key = key := h attempt List.mem_cons_self
    have hrest := ih fun x hx => h x (List.mem_cons_of_mem _ hx)
    rw [List.map_cons, timesOf_cons, List.filter_cons]
    by_cases hof : attempt.isOf address = true
    · rw [if_pos hof, List.map_cons, timesOf_cons, hrest]
    · rw [if_neg hof, hrest, if_neg fun hkey => hof (hname.2 hkey)]

/-- At Upstash, a counter is changed by the attempts under its name alone. -/
theorem admissionsOf_upstash {store store' : UpstashRateLimitStore} (h : NamedBy address key attempts)
    (hsame : store.counters.get? (UpstashRateLimitStore.redisKey key) =
      store'.counters.get? (UpstashRateLimitStore.redisKey key)) :
    admissionsOf address (.upstash store) attempts =
      admissionsOf address (.upstash store') (attempts.filter (Attempt.isOf address)) := by
  induction attempts generalizing store store' with
  | nil => rfl
  | cons attempt attempts ih =>
    have hname := h attempt List.mem_cons_self
    have hnext := fun store store' => @ih store store' fun x hx => h x (List.mem_cons_of_mem _ hx)
    have hget : ∀ (store : UpstashRateLimitStore) (name : Text) (time : ℤ),
        (store.increment name time).2.counters.get? (UpstashRateLimitStore.redisKey key) =
          if UpstashRateLimitStore.redisKey key = UpstashRateLimitStore.redisKey name then
            some (UpstashRateLimitStore.counterAt (store.counters.get? (UpstashRateLimitStore.redisKey name)) time)
          else store.counters.get? (UpstashRateLimitStore.redisKey key) := fun _ _ _ => Record.get?_spread_singleton
    rw [List.filter_cons]
    show (if attempt.isOf address then _ else _) = _
    by_cases hof : attempt.isOf address = true
    · have hkey := hname.1 hof
      have hcount : (store.increment attempt.request.clientIp attempt.now).1 =
          (store'.increment attempt.request.clientIp attempt.now).1 := by
        rw [UpstashRateLimitStore.increment, UpstashRateLimitStore.increment, hkey, hsame]
      rw [if_pos hof, if_pos hof]
      show _ = if attempt.isOf address then _ else _
      rw [if_pos hof]
      refine congrArg₂ List.cons (congrArg (fun limit => (verdict limit).success) hcount) (hnext _ _ ?_)
      rw [hget, hget, hkey, if_pos rfl, if_pos rfl, hsame]
    · have hne : UpstashRateLimitStore.redisKey key ≠
          UpstashRateLimitStore.redisKey attempt.request.clientIp :=
        fun heq => hof (hname.2 (List.append_cancel_left heq).symm)
      rw [if_neg hof, if_neg hof]
      exact hnext _ _ (by rw [hget, if_neg hne, hsame])

/-- **Clients that are named differently are limited independently.** -/
theorem admissionsOf_filter (hstarted : s.IsStarted) (hordered : InTime attempts) (h : NamedBy address key attempts) :
    admissionsOf address s attempts = admissionsOf address s (attempts.filter (Attempt.isOf address)) := by
  rcases hstarted with rfl | rfl
  · have hfilter : NamedBy address key (attempts.filter (Attempt.isOf address)) := fun x hx =>
      h x (List.mem_filter.mp hx).1
    have horder : InOrder (attempts.map Attempt.counted) := List.pairwise_map.mpr hordered
    have horder' : InOrder ((attempts.filter (Attempt.isOf address)).map Attempt.counted) :=
      List.pairwise_map.mpr (hordered.sublist List.filter_sublist)
    rw [admissionsOf_inMemory h, admissionsOf_inMemory hfilter, underKey_answers horder, underKey_answers horder',
      timesOf_filter h]
  · exact admissionsOf_upstash h rfl

/-! ## One name for all -/

theorem spread_own {V : Type} (v v' : V) : Record.spread [(key, v)] [(key, v')] = [(key, v')] := by
  simp [Record.spread]

/-- A store that has counted `n` attempts under one name, all of them now. -/
def CountingStore.Counted (key : Text) (now n : ℤ) : CountingStore → Prop
  | .inMemory store => store = { requests := [(key, ⟨n, now⟩)] }
  | .upstash store => store = { counters := [(UpstashRateLimitStore.redisKey key, ⟨n, now + windowMs⟩)] }

theorem CountingStore.IsStarted.counted (h : s.IsStarted) (key : Text) (now : ℤ) :
    (s.increment key now).1.count = 1 ∧ (s.increment key now).2.Counted key now 1 := by
  rcases h with rfl | rfl
  · exact ⟨rfl, rfl⟩
  · exact ⟨rfl, rfl⟩

theorem CountingStore.Counted.next {n : ℤ} (h : s.Counted key now n) :
    (s.increment key now).1.count = n + 1 ∧ (s.increment key now).2.Counted key now (n + 1) := by
  cases s with
  | inMemory store =>
    obtain rfl : store = _ := h
    -- no time passes, so the window goes on
    have hwindow : InMemoryRateLimitStore.countIn { requests := [(key, ⟨n, now⟩)] } key now = ⟨n + 1, now⟩ := by
      rw [countIn, Record.get?_cons, if_pos rfl]
      exact if_neg (by rw [windowMs]; dsimp only; omega)
    refine ⟨congrArg RateWindow.count hwindow, ?_⟩
    show InMemoryRateLimitStore.mk (sweep (Record.spread _ _) now) = _
    rw [hwindow, spread_own]
    rfl
  | upstash store =>
    obtain rfl : store = _ := h
    have hcounter : UpstashRateLimitStore.counterAt
        (Record.get? [(UpstashRateLimitStore.redisKey key, (⟨n, now + windowMs⟩ : RedisCounter))]
          (UpstashRateLimitStore.redisKey key)) now = ⟨n + 1, now + windowMs⟩ := by
      rw [Record.get?_cons, if_pos rfl]
      exact if_neg (by rw [windowMs]; dsimp only; omega)
    refine ⟨congrArg RedisCounter.count hcounter, ?_⟩
    show UpstashRateLimitStore.mk (Record.spread _ _) = _
    rw [hcounter, spread_own]

/-- Attempts of another client, all now, are counted under the name. -/
theorem admissionsOf_replicate (attempts : List Attempt) {attempt : Attempt} (hof : attempt.isOf address = false)
    (hkey : attempt.request.clientIp = key) {m : ℤ} (h : s.Counted key attempt.now m) (n : ℕ) :
    ∃ s', s'.Counted key attempt.now (m + n) ∧
      admissionsOf address s (List.replicate n attempt ++ attempts) = admissionsOf address s' attempts := by
  induction n generalizing s m with
  | zero => exact ⟨s, by simpa using h, rfl⟩
  | succ n ih =>
    obtain ⟨s', hcounted, hrest⟩ := ih h.next.2
    refine ⟨s', by push_cast; rwa [add_comm (n : ℤ) 1, ← add_assoc], ?_⟩
    rw [List.replicate_succ, List.cons_append, ← hrest]
    show (if attempt.isOf address then _ else _) = _
    rw [hof, hkey]
    rfl

/-- The first attempt of a client. -/
theorem head?_admissionsOf {attempt : Attempt} (hof : attempt.isOf address = true) :
    (admissionsOf address s (attempt :: attempts)).head? =
      some (decide ((s.increment attempt.request.clientIp attempt.now).1.count ≤ maxRequests)) := by
  show List.head? (if attempt.isOf address then _ else _) = _
  rw [if_pos hof, List.head?_cons, success_verdict]
  rfl

/-- Another client uses up all the attempts of a minute at once. -/
theorem admissionsOf_flooded (attempts : List Attempt) {attempt : Attempt} (hstarted : s.IsStarted)
    (hof : attempt.isOf address = false) :
    ∃ s', s'.Counted attempt.request.clientIp attempt.now 30 ∧
      admissionsOf address s (List.replicate 30 attempt ++ attempts) = admissionsOf address s' attempts := by
  obtain ⟨s', hcounted, hrest⟩ := admissionsOf_replicate attempts hof rfl
    (hstarted.counted attempt.request.clientIp attempt.now).2 29
  refine ⟨s', hcounted, ?_⟩
  rw [← hrest, List.replicate_succ, List.cons_append]
  show (if attempt.isOf address then _ else _) = _
  rw [hof]
  rfl

theorem length_admissionsOf (address : Text) (s : CountingStore) (attempts : List Attempt) :
    (admissionsOf address s attempts).length = (attempts.filter (Attempt.isOf address)).length := by
  induction attempts generalizing s with
  | nil => rfl
  | cons attempt attempts ih =>
    rw [List.filter_cons]
    show List.length (if attempt.isOf address then _ else _) = _
    split
    · exact congrArg (· + 1) (ih _)
    · exact ih _

/-- The attempts are of two clients that send no proxy headers. -/
def OfTwo (a b : Text) (attempts : List Attempt) : Prop :=
  ∀ attempt ∈ attempts, attempt.request.IsBare ∧ (attempt.isOf a = true ∨ attempt.isOf b = true)

/-- **Clients without proxy headers are never limited independently**: whichever attempts a client makes, the
attempts of another one can change which of them pass. -/
theorem unaffected_iff {a b : Text} (hne : a ≠ b) (hstarted : s.IsStarted) (hmine : OfTwo a a mine)
    (horder : InTime mine) :
    (∀ attempts, InTime attempts → OfTwo a b attempts → attempts.filter (Attempt.isOf a) = mine →
      admissionsOf a s attempts = admissionsOf a s mine) ↔ mine = [] := by
  constructor
  · intro h
    cases mine with
    | nil => rfl
    | cons first rest =>
      -- 30 attempts of the other client at the time of the first use up the limit
      let other : Attempt := ⟨⟨first.request.url, [], some b⟩, first.now⟩
      have hbare : other.request.IsBare := ⟨rfl, rfl, rfl⟩
      have hother : other.isOf a = false := decide_eq_false fun heq => hne (Option.some.inj heq).symm
      have hown : ∀ attempt ∈ first :: rest, attempt.isOf a = true := fun attempt hmem =>
        or_self_iff.mp (hmine attempt hmem).2
      have hsame := h (List.replicate 30 other ++ first :: rest) ?_ ?_ ?_
      · -- alone the first attempt passes, after those of the other client it does not
        obtain ⟨s', hcounted, hflooded⟩ := admissionsOf_flooded (first :: rest) hstarted hother
        have hname : other.request.clientIp = first.request.clientIp :=
          (clientIp_of_isBare hbare).trans (clientIp_of_isBare (hmine first List.mem_cons_self).1).symm
        rw [hname] at hcounted
        have hheads := congrArg List.head? (hflooded.symm.trans hsame)
        rw [head?_admissionsOf (hown first List.mem_cons_self), head?_admissionsOf (hown first List.mem_cons_self),
          hcounted.next.1, (hstarted.counted _ _).1] at hheads
        exact absurd hheads (by decide)
      · refine List.pairwise_append.mpr ⟨List.pairwise_replicate_of_refl, horder, fun x hx y hy => ?_⟩
        rw [List.eq_of_mem_replicate hx]
        rcases List.mem_cons.mp hy with rfl | hy
        · exact le_rfl
        · exact (List.pairwise_cons.mp horder).1 y hy
      · intro attempt hmem
        rcases List.mem_append.mp hmem with hmem | hmem
        · rw [List.eq_of_mem_replicate hmem]
          exact ⟨hbare, .inr (decide_eq_true rfl)⟩
        · exact ⟨(hmine attempt hmem).1, .inl (hown attempt hmem)⟩
      · rw [List.filter_append, List.filter_eq_nil_iff.mpr, List.filter_eq_self.mpr hown, List.nil_append]
        intro attempt hmem
        rw [List.eq_of_mem_replicate hmem, hother]
        decide
  · rintro rfl attempts - - hfilter
    exact List.length_eq_zero_iff.mp (by rw [length_admissionsOf, hfilter]; rfl)

/-- An attempt without headers. -/
def bareAttempt (address : Text) : Attempt := ⟨⟨livePath, [], some address⟩, 0⟩

theorem unaffected_iff_one : ¬ ∀ attempts, InTime attempts → OfTwo (lit "10.0.0.1") (lit "10.0.0.2") attempts →
    attempts.filter (Attempt.isOf (lit "10.0.0.1")) = [bareAttempt (lit "10.0.0.1")] →
      admissionsOf (lit "10.0.0.1") (.inMemory {}) attempts =
        admissionsOf (lit "10.0.0.1") (.inMemory {}) [bareAttempt (lit "10.0.0.1")] := fun h =>
  List.cons_ne_nil _ _ ((unaffected_iff (by decide) (.inl rfl) (fun attempt hmem => by
    rw [List.mem_singleton.mp hmem]
    exact ⟨⟨rfl, rfl, rfl⟩, .inl (by decide)⟩) (List.pairwise_singleton _ _)).1 h)

/-- A client whose attempts are all used up by another one. -/
theorem attempt_refused_for_another : ¬ ∀ (a b : Text) (s : CountingStore) (attempts : List Attempt), a ≠ b →
    s.IsStarted → InTime attempts → OfTwo a b attempts →
      admissionsOf a s attempts = admissionsOf a s (attempts.filter (Attempt.isOf a)) := by
  intro h
  have hsame := h (lit "10.0.0.1") (lit "10.0.0.2") (.inMemory {})
    (List.replicate 30 (bareAttempt (lit "10.0.0.2")) ++ [bareAttempt (lit "10.0.0.1")]) (by decide) (.inl rfl) ?_ ?_
  · exact absurd hsame (by decide +kernel)
  · refine List.pairwise_append.mpr ⟨List.pairwise_replicate_of_refl, List.pairwise_singleton _ _, fun x hx y hy => ?_⟩
    rw [List.eq_of_mem_replicate hx, List.mem_singleton.mp hy]
    decide
  · intro attempt hmem
    rcases List.mem_append.mp hmem with hmem | hmem
    · rw [List.eq_of_mem_replicate hmem]
      exact ⟨⟨rfl, rfl, rfl⟩, .inr (by decide)⟩
    · rw [List.mem_singleton.mp hmem]
      exact ⟨⟨rfl, rfl, rfl⟩, .inl (by decide)⟩

end DreamWeaver.Admission
