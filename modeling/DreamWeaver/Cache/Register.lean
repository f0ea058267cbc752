import DreamWeaver.Cache.Agreement

/-! # Registers

A register is one key of a cache as `get` and `set` see it: nothing, or a text until its deadline. The
adapters differ in what counting under the key does to it: the in-memory adapter keeps its counters apart,
and Redis counts the text itself up. -/

namespace DreamWeaver.Cache

/-- What a register holds: a text with its deadline, if it has one. -/
abbrev Content := Option (Text × Option ℚ)

/-- What a register holds at a time. -/
def registerText (c : Content) (t : ℕ) : Option Text := (c.filter fun x => Within x.2 t).map Prod.fst

/-- What counting makes of a register that takes part in it: a first count, or the next one of the number that
is written there. -/
inductive Counted (now : ℕ) : Content → Content → Prop
  | first {c : Content} (h : registerText c now = none) : Counted now c (some (showNat 1, none))
  | next {n : ℕ} {deadline : Option ℚ} : Counted now (some (showNat n, deadline)) (some (showNat (n + 1), deadline))

/-- **A register** under `key`: `rel now c s` says that from `now` on the adapter state `s` holds `c` there, and
`counts` that counting under the key changes it. -/
structure Register {σ : Type} (port : CachePort σ) (key : Text) where
  counts : Bool
  rel : ℕ → Content → σ → Prop
  rel_initial : ∀ now, rel now none port.initial
  rel_later : ∀ {now later c s}, rel now c s → now ≤ later → rel later c s
  get_eq : ∀ {now c s}, rel now c s →
    (port.perform s now (.get key)).1 = .ok (registerText c now) ∧ rel now c (port.perform s now (.get key)).2
  set_eq : ∀ {now c s n} {text : Text}, rel now c s → 0 < n → now + n * 1000 ≤ 2 ^ 53 →
    (port.perform s now (.set key text (some (n : ℕ)))).1 = .ok () ∧
      rel now (some (text, some ((now : ℚ) + n * 1000))) (port.perform s now (.set key text (some (n : ℕ)))).2
  increment_eq : ∀ {now c s}, rel now c s →
    (counts = true → ∀ text, registerText c now = some text → ∃ n < 2 ^ 53, text = showNat n) → ∃ count c',
      (port.perform s now (.increment key none)).1 = .ok count ∧
        (if counts then Counted now c c' else c' = c) ∧ rel now c' (port.perform s now (.increment key none)).2
  rel_frame : ∀ {now c s} {op : CacheOp}, rel now c s → op.key ≠ key → rel now c (port.perform s now op).2

/-- The deadline of whole seconds, on both adapters. -/
theorem expiryOf_natCast {now n : ℕ} (hpos : 0 < n) (hle : now + n * 1000 ≤ 2 ^ 53) :
    expiryOf InMemoryCache.deadline now (some (n : ℚ)) = some ((now : ℚ) + n * 1000) ∧
      expiryOf RedisServer.deadline now (some (n : ℚ)) = some ((now : ℚ) + n * 1000) := by
  have hne : (n : ℚ) ≠ 0 := by exact_mod_cast hpos.ne'
  have httl : truthyTtl (some (n : ℚ)) = some (n : ℚ) := by simp [truthyTtl, hne]
  constructor
  · rw [expiryOf, httl, Option.bind_some, inMemory_deadline_natCast hpos hle]
  · rw [expiryOf, httl, Option.bind_some, redis_deadline_natCast hpos hle]

/-! ## The in-memory adapter -/

namespace InMemoryCache

/-- **The in-memory adapter keeps its counters apart from its values.** -/
def register (key : Text) : Register port key where
  counts := false
  rel now c m := ∀ t, now ≤ t → m.value? t key = registerText c t
  rel_initial _ _ _ := rfl
  rel_later hrel hle t ht := hrel t (hle.trans ht)
  get_eq := by
    intro now c m hrel
    refine ⟨congrArg Except.ok (get_fst.trans (hrel now le_rfl)), fun t ht => ?_⟩
    exact (value?_get ht).trans (hrel t ht)
  set_eq := by
    intro now c m n text _ hpos hle
    refine ⟨rfl, fun t _ => ?_⟩
    show (m.set now key text _).value? t key = _
    rw [value?_set_self, expired_expiryFor (wholeSeconds_natCast hpos hle).acceptsTtl.1,
      (expiryOf_natCast hpos hle).1]
    cases hwithin : Within (some ((now : ℚ) + n * 1000)) t with
    | true => simp [registerText, hwithin]
    | false => simp [registerText, hwithin]
  increment_eq hrel _ := ⟨_, _, rfl, rfl, hrel⟩
  rel_frame := by
    intro now c m op hrel hne t ht
    cases op with
    | get k => exact (value?_get ht).trans (hrel t ht)
    | set k text ttl => exact (value?_set_of_ne (Ne.symm hne)).trans (hrel t ht)
    | increment k ttl => exact hrel t ht
    | delete k => exact (value?_delete_of_ne (Ne.symm hne)).trans (hrel t ht)

end InMemoryCache

/-! ## The Redis adapter -/

namespace RedisServer

variable {db : RedisServer} {key : Text} {c : Content} {now : ℕ}

/-- The server counts up what a register holds. -/
theorem increment_counted (hrel : ∀ t, now ≤ t → db.get t key = registerText c t)
    (hnumber : ∀ text, registerText c now = some text → ∃ n < 2 ^ 53, text = showNat n) : ∃ count c',
      (db.incr now key).1 = .ok count ∧ Counted now c c' ∧
        ∀ t, now ≤ t → (db.incr now key).2.get t key = registerText c' t := by
  have hnow := hrel now le_rfl
  cases htext : registerText c now with
  | none =>
    rw [htext] at hnow
    rw [incr_of_lookup_none (Option.map_eq_none_iff.mp hnow)]
    refine ⟨1, _, rfl, .first htext, fun t _ => ?_⟩
    rw [get_set_self]
    rfl
  | some text =>
    obtain ⟨n, hn, rfl⟩ := hnumber text htext
    obtain ⟨⟨written, deadline⟩, hwritten, hsame⟩ := Option.map_eq_some_iff.mp htext
    obtain ⟨rfl, -⟩ := Option.filter_eq_some_iff.mp hwritten
    obtain rfl : written = showNat n := hsame
    rw [htext] at hnow
    obtain ⟨entry, hentry, hvalue⟩ := Option.map_eq_some_iff.mp hnow
    rw [incr_of_lookup_some hentry hvalue hn]
    refine ⟨_, _, rfl, .next, fun t ht => ?_⟩
    -- later on, the entry and the text are there or not there together
    have hlater := congrArg Option.isSome (hrel t ht)
    obtain ⟨hstored, -⟩ := Option.filter_eq_some_iff.mp hentry
    rw [get, lookup, hstored, registerText, Option.isSome_map, Option.isSome_map] at hlater
    rw [get_set_self]
    cases hwithin : Within deadline t with
    | true =>
      have hthere : Within entry.expireAt t = true := by simpa [hwithin] using hlater
      simp [registerText, hwithin, hthere]
    | false =>
      have hgone : Within entry.expireAt t = false := by simpa [hwithin] using hlater
      simp [registerText, hwithin, hgone]

/-- **Redis counts in the register itself.** -/
def register (key : Text) : Register port key where
  counts := true
  rel now c db := ∀ t, now ≤ t → db.get t key = registerText c t
  rel_initial _ _ _ := rfl
  rel_later hrel hle t ht := hrel t (hle.trans ht)
  get_eq := by
    intro now c db hrel
    exact ⟨congrArg Except.ok (hrel now le_rfl), hrel⟩
  set_eq := by
    intro now c db n text _ hpos hle
    have hset : port.perform db now (.set key text (some (n : ℚ)))
        = (.ok (), db.set key text (some ((now : ℚ) + n * 1000))) := by
      show db.cacheSet now key text (some (n : ℚ)) = _
      rw [cacheSet_of_accepts (wholeSeconds_natCast hpos hle).acceptsTtl.2, (expiryOf_natCast hpos hle).2]
    refine ⟨by rw [hset], fun t _ => ?_⟩
    rw [hset]
    show (db.set key text _).get t key = _
    rw [get_set_self]
    cases hwithin : Within (some ((now : ℚ) + n * 1000)) t with
    | true => simp [registerText, hwithin]
    | false => simp [registerText, hwithin]
  increment_eq := by
    intro now c db hrel hnumber
    exact increment_counted hrel (hnumber rfl)
  rel_frame := by
    intro now c db op hrel hne t ht
    cases op with
    | get k => exact hrel t ht
    | set k text ttl => exact (get_cacheSet_of_ne (Ne.symm hne)).trans (hrel t ht)
    | increment k ttl => exact (get_cacheIncrement_of_ne (Ne.symm hne)).trans (hrel t ht)
    | delete k => exact (get_update_of_ne (Ne.symm hne)).trans (hrel t ht)

end RedisServer

/-! ## The adapters -/

/-- The two cache adapters. -/
inductive CacheAdapter where
  | inMemory
  | redis
  deriving DecidableEq, Repr

namespace CacheAdapter

/-- The state of an adapter. -/
def State : CacheAdapter → Type
  | inMemory => InMemoryCache
  | redis => RedisServer

/-- The port of an adapter. -/
def port : (adapter : CacheAdapter) → CachePort adapter.State
  | inMemory => InMemoryCache.port
  | redis => RedisServer.port

/-- The registers of an adapter. -/
def register : (adapter : CacheAdapter) → (key : Text) → Register adapter.port key
  | inMemory => InMemoryCache.register
  | redis => RedisServer.register

theorem counts_register (adapter : CacheAdapter) (key : Text) :
    (adapter.register key).counts = true ↔ adapter = redis := by
  cases adapter with
  | inMemory => exact iff_of_false Bool.false_ne_true (fun h => nomatch h)
  | redis => exact iff_of_true rfl rfl

end CacheAdapter

end DreamWeaver.Cache
