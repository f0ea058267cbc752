import DreamWeaver.Cache.CachePort
import DreamWeaver.Foundations.Decimal

/-! # The Redis adapter

`RedisCacheAdapter` (`api/src/infrastructure/adapters/RedisCacheAdapter.ts`) forwards every
operation to a Redis server, with the documented meaning of `GET`, `SET`, `SET … EX`, `INCR`,
`EXPIRE` and `DEL`: one space of string values, counters being values that read as 64-bit integers.
The adapter refines the abstract cache on keys that are never used both ways at a time. -/

namespace DreamWeaver.Cache

/-- A string value of the server and the last moment at which it is there. -/
structure RedisEntry where
  value : Text
  expireAt : Option ℚ
  deriving DecidableEq, Repr

/-- A Redis server: its key space. -/
abbrev RedisServer := Text → Option RedisEntry

namespace RedisServer

/-! ## Commands -/

/-- The entry under a key that has not expired. -/
def lookup (db : RedisServer) (now : ℕ) (key : Text) : Option RedisEntry :=
  (db key).filter fun entry => Within entry.expireAt now

/-- `command` rejects with the error of the server. -/
def commandError (error : String) : JsError :=
  ⟨lit "Error", lit "Redis command error: " ++ lit error⟩

/-- The deadline of an `EX` argument: a positive whole number of seconds, within the range of time
stamps. -/
def deadline (now : ℕ) (seconds : ℚ) : Option ℚ :=
  if seconds.den = 1 ∧ 0 < seconds.num ∧ now + seconds.num * 1000 ≤ 2 ^ 63 - 1 then
    some (now + seconds * 1000)
  else none

/-- `GET key` -/
def get (db : RedisServer) (now : ℕ) (key : Text) : Option Text :=
  (db.lookup now key).map RedisEntry.value

/-- `SET key value` -/
def set (db : RedisServer) (key value : Text) (expireAt : Option ℚ) : RedisServer :=
  Function.update db key (some ⟨value, expireAt⟩)

/-- `SET key value EX seconds` -/
def setEx (db : RedisServer) (now : ℕ) (key value : Text) (seconds : ℚ) :
    Except JsError Unit × RedisServer :=
  match deadline now seconds with
  | some d => (.ok (), db.set key value (some d))
  | none =>
    if seconds.den = 1 then (.error (commandError "ERR invalid expire time in 'set' command"), db)
    else (.error (commandError "ERR value is not an integer or out of range"), db)

/-- `INCR key`; the reply is read as a double. -/
def incr (db : RedisServer) (now : ℕ) (key : Text) : Except JsError ℚ × RedisServer :=
  match db.lookup now key with
  | none => (.ok 1, db.set key (showInt 1) none)
  | some entry =>
    match strictInteger entry.value with
    | none => (.error (commandError "ERR value is not an integer or out of range"), db)
    | some v =>
      if v = 2 ^ 63 - 1 then
        (.error (commandError "ERR increment or decrement would overflow"), db)
      else (.ok (double (v + 1 : ℤ)), db.set key (showInt (v + 1)) entry.expireAt)

/-- `EXPIRE key seconds`; a time that is not positive deletes the key. -/
def expire (db : RedisServer) (now : ℕ) (key : Text) (seconds : ℚ) :
    Except JsError Unit × RedisServer :=
  if seconds.den = 1 ∧ seconds.num ≤ 0 then (.ok (), Function.update db key none)
  else
    match deadline now seconds with
    | some d =>
      (.ok (), Function.update db key ((db.lookup now key).map fun entry => ⟨entry.value, some d⟩))
    | none =>
      if seconds.den = 1 then
        (.error (commandError "ERR invalid expire time in 'expire' command"), db)
      else (.error (commandError "ERR value is not an integer or out of range"), db)

/-- `DEL key` -/
def del (db : RedisServer) (key : Text) : RedisServer := Function.update db key none

/-! ## The adapter -/

/-- `set` -/
def cacheSet (db : RedisServer) (now : ℕ) (key value : Text) (ttlSeconds : Option ℚ) :
    Except JsError Unit × RedisServer :=
  match truthyTtl ttlSeconds with
  | some ttl => db.setEx now key value ttl
  | none => (.ok (), db.set key value none)

/-- `increment`: count up, and set the expiry if the counter is new. -/
def cacheIncrement (db : RedisServer) (now : ℕ) (key : Text) (ttlSeconds : Option ℚ) :
    Except JsError ℚ × RedisServer :=
  match truthyTtl ttlSeconds with
  | none => db.incr now key
  | some ttl =>
    match db.incr now key with
    | (.error e, db) => (.error e, db)
    | (.ok val, db) =>
      if val = 1 then
        match db.expire now key ttl with
        | (.ok (), db) => (.ok val, db)
        | (.error e, db) => (.error e, db)
      else (.ok val, db)

/-- The adapter as a cache port. -/
def port : CachePort RedisServer where
  initial := fun _ => none
  perform db now
    | .get key => (.ok (db.get now key), db)
    | .set key value ttl => db.cacheSet now key value ttl
    | .increment key ttl => db.cacheIncrement now key ttl
    | .delete key => (.ok (), db.del key)

/-! ## What a key holds at a time -/

variable {db : RedisServer} {now t : ℕ} {key other value : Text} {expireAt : Option ℚ} {ttl : ℚ}

@[simp] theorem get_set_self :
    (db.set key value expireAt).get t key = if Within expireAt t then some value else none := by
  cases h : Within expireAt t <;> simp [set, get, lookup, h]

theorem get_update_of_ne {entry : Option RedisEntry} (hne : other ≠ key) :
    get (Function.update db key entry) t other = db.get t other := by
  simp [get, lookup, Function.update_of_ne hne]

theorem get_set_of_ne (hne : other ≠ key) :
    (db.set key value expireAt).get t other = db.get t other :=
  get_update_of_ne hne

@[simp] theorem get_update_none : get (Function.update db key none) t key = none := by
  simp [get, lookup]

/-- Counting up leaves other keys alone. -/
theorem get_incr_of_ne (hne : other ≠ key) : (db.incr now key).2.get t other = db.get t other := by
  unfold incr
  split
  · exact get_set_of_ne hne
  · split
    · rfl
    · split
      · rfl
      · exact get_set_of_ne hne

/-- Setting an expiry leaves other keys alone. -/
theorem get_expire_of_ne (hne : other ≠ key) :
    (db.expire now key ttl).2.get t other = db.get t other := by
  unfold expire
  split
  · exact get_update_of_ne hne
  · split
    · exact get_update_of_ne hne
    · split <;> rfl

/-- `set` leaves other keys alone. -/
theorem get_cacheSet_of_ne {ttl : Option ℚ} (hne : other ≠ key) :
    (db.cacheSet now key value ttl).2.get t other = db.get t other := by
  unfold cacheSet
  split
  · unfold setEx
    split
    · exact get_set_of_ne hne
    · split <;> rfl
  · exact get_set_of_ne hne

/-- `increment` leaves other keys alone. -/
theorem get_cacheIncrement_of_ne {ttl : Option ℚ} (hne : other ≠ key) :
    (db.cacheIncrement now key ttl).2.get t other = db.get t other := by
  have hincr : (db.incr now key).2.get t other = db.get t other := get_incr_of_ne hne
  unfold cacheIncrement
  split
  · exact hincr
  · split
    · rename_i heq
      rwa [heq] at hincr
    · rename_i val db' heq
      rw [heq] at hincr
      split
      · have hexpire : ∀ s, (db'.expire now key s).2.get t other = db'.get t other :=
          fun s => get_expire_of_ne hne
        split <;>
        · rename_i heq'
          rw [← hincr, ← hexpire, heq']
      · exact hincr

/-! ## Refinement -/

/-- The string that represents a cell. -/
def cellText : Cell → Text
  | .value text => text
  | .counter n => showNat n

/-- As far as the keys in `K` are concerned, the server holds the strings of the abstract cache. -/
def Rel (K : Set Text) (now : ℕ) (a : AbstractCache) (db : RedisServer) : Prop :=
  ∀ key ∈ K, ∀ t, now ≤ t → db.get t key = (a.live t key).map cellText

variable {K : Set Text} {a : AbstractCache}

/-- A later creation gives a later deadline. -/
theorem deadline_mono {later : ℕ} {d d' : ℚ} (hle : now ≤ later)
    (hd : deadline now ttl = some d) (hd' : deadline later ttl = some d') : d ≤ d' := by
  unfold deadline at hd hd'
  split at hd
  · split at hd'
    · cases hd
      cases hd'
      have hcast : (now : ℚ) ≤ later := by exact_mod_cast hle
      linarith
    · cases hd'
  · cases hd

/-- Operations on other keys do not disturb the relation. -/
theorem rel_frame {op : CacheOp} (hrel : Rel K now a db) (hop : op.key ∉ K) :
    Rel K now a (port.perform db now op).2 := by
  intro key hkey t ht
  have hne : key ≠ op.key := fun h => hop (h ▸ hkey)
  have hold := hrel key hkey t ht
  cases op with
  | get k => exact hold
  | set k value ttl => exact (get_cacheSet_of_ne hne).trans hold
  | increment k ttl => exact (get_cacheIncrement_of_ne hne).trans hold
  | delete k => exact (get_update_of_ne hne).trans hold

/-- An accepted `set` writes the value with its deadline. -/
theorem cacheSet_of_accepts {ttl : Option ℚ} (h : AcceptsTtl deadline now ttl) :
    db.cacheSet now key value ttl = (.ok (), db.set key value (expiryOf deadline now ttl)) := by
  unfold cacheSet expiryOf
  cases httl : truthyTtl ttl with
  | none => rfl
  | some s =>
    obtain ⟨d, hd⟩ := Option.isSome_iff_exists.mp (h s httl)
    simp [setEx, hd]

/-- The first `INCR` of a counter. -/
theorem incr_of_lookup_none (h : db.lookup now key = none) :
    db.incr now key = (.ok 1, db.set key (showNat 1) none) := by
  rw [incr, h]
  rfl

/-- `INCR` on a counter that is there. -/
theorem incr_of_lookup_some {entry : RedisEntry} {n : ℕ} (h : db.lookup now key = some entry)
    (hvalue : entry.value = showNat n) (hn : n < 2 ^ 53) :
    db.incr now key = (.ok ((n + 1 : ℕ) : ℚ), db.set key (showNat (n + 1)) entry.expireAt) := by
  have hstrict : strictInteger entry.value = some (n : ℤ) := by
    rw [hvalue, strictInteger_showNat (hn.trans (by norm_num))]
  have hdouble : double (((n : ℤ) + 1 : ℤ) : ℚ) = ((n + 1 : ℕ) : ℚ) := by
    have := double_natCast (n := n + 1) hn
    push_cast at this ⊢
    exact this
  simp only [incr, h, hstrict]
  rw [if_neg (by omega), hdouble]
  rfl

/-- A fresh counter gets the deadline of its time to live. -/
theorem cacheIncrement_of_lookup_none {ttl : Option ℚ} (h : db.lookup now key = none)
    (httl : AcceptsTtl deadline now ttl) :
    ∃ db', db.cacheIncrement now key ttl = (.ok 1, db') ∧
      ∀ t, db'.get t key = if Within (expiryOf deadline now ttl) t then some (showNat 1) else none := by
  unfold cacheIncrement expiryOf
  rw [incr_of_lookup_none h]
  cases hs : truthyTtl ttl with
  | none => exact ⟨_, rfl, fun t => get_set_self⟩
  | some s =>
    obtain ⟨d, hd⟩ := Option.isSome_iff_exists.mp (httl s hs)
    have hpositive : ¬ (s.den = 1 ∧ s.num ≤ 0) := by
      rintro ⟨-, hle⟩
      unfold deadline at hd
      split at hd
      · rename_i hpos
        exact absurd hpos.2.1 (not_lt.mpr hle)
      · cases hd
    have hlookup : (db.set key (showNat 1) none).lookup now key = some ⟨showNat 1, none⟩ := by
      simp [lookup, set]
    refine ⟨Function.update (db.set key (showNat 1) none) key (some ⟨showNat 1, some d⟩), ?_, ?_⟩
    · simp only [expire, if_neg hpositive, hd, hlookup, if_true]
      rfl
    · intro t
      cases hw : Within (some d) t <;> simp [get, lookup, hd, hw]

/-- **`increment` counts the counter of the abstract cache up.** -/
theorem cacheIncrement_spec {ttl : Option ℚ} (hrel : Rel K now a db) (hkey : key ∈ K)
    (hallowed : Allowed deadline a now (.increment key ttl)) :
    ∃ db', db.cacheIncrement now key ttl = (.ok ((a.count now key + 1 : ℕ) : ℚ), db') ∧
      ∀ t, now ≤ t → db'.get t key =
        if Within (a.counterDeadline deadline now key ttl) t then
          some (showNat (a.count now key + 1)) else none := by
  obtain ⟨hvalue, hbound, httl⟩ := hallowed
  have hnow := hrel key hkey now le_rfl
  cases hlive : a.live now key with
  | none =>
    rw [hlive] at hnow
    obtain ⟨db', heq, hget⟩ :=
      cacheIncrement_of_lookup_none (Option.map_eq_none_iff.mp hnow) httl
    refine ⟨db', ?_, fun t _ => ?_⟩
    · simp [heq, AbstractCache.count, hlive]
    · simp [hget, AbstractCache.counterDeadline, AbstractCache.count, hlive]
  | some cell =>
    cases cell with
    | value text => exact absurd hlive (hvalue text)
    | counter n =>
      rw [hlive] at hnow
      obtain ⟨entry, hentry, hcount⟩ := Option.map_eq_some_iff.mp hnow
      obtain ⟨hstored, -⟩ := Option.filter_eq_some_iff.mp hentry
      have hincr := incr_of_lookup_some hentry hcount (hbound n hlive)
      have hne : ((n + 1 : ℕ) : ℚ) ≠ 1 := by
        have hpos := n.pos
        exact_mod_cast (by omega : (n : ℕ) + 1 ≠ 1)
      refine ⟨db.set key (showNat (n + 1)) entry.expireAt, ?_, fun t ht => ?_⟩
      · unfold cacheIncrement
        cases truthyTtl ttl with
        | none => rw [hincr, AbstractCache.count, hlive]
        | some s => simp only [hincr, if_neg hne, AbstractCache.count, hlive]
      · -- later on, the entry and the counter are there or not there together
        have hlater := hrel key hkey t ht
        have hsame : Within entry.expireAt t = (a.live t key).isSome := by
          have hsome := congrArg Option.isSome hlater
          rw [Option.isSome_map] at hsome
          rw [← hsome, get, lookup, hstored]
          cases hw : Within entry.expireAt t <;> simp [hw]
        rw [get_set_self, hsame, within_counterDeadline hlive, AbstractCache.count, hlive]

/-- **An allowed operation answers as the abstract cache does.** -/
theorem reply_eq {op : CacheOp} (hrel : Rel K now a db) (hop : op.key ∈ K)
    (hallowed : Allowed deadline a now op) :
    (port.perform db now op).1 = .ok (a.perform deadline now op).1 := by
  cases op with
  | get key =>
    refine congrArg Except.ok ((hrel key hop now le_rfl).trans ?_)
    change _ = (a.live now key).bind Cell.value?
    cases hlive : a.live now key with
    | none => rfl
    | some cell =>
      cases cell with
      | value text => rfl
      | counter n => exact absurd hlive (hallowed n)
  | set key value ttl => exact congrArg Prod.fst (cacheSet_of_accepts hallowed.2)
  | increment key ttl =>
    obtain ⟨db', heq, -⟩ := cacheIncrement_spec hrel hop hallowed
    exact congrArg Prod.fst heq
  | delete key => rfl

/-- **An allowed operation keeps the relation.** -/
theorem rel_perform {op : CacheOp} (hrel : Rel K now a db) (hop : op.key ∈ K)
    (hallowed : Allowed deadline a now op) :
    Rel K now (a.perform deadline now op).2 (port.perform db now op).2 := by
  intro other hother t ht
  have hold := hrel other hother t ht
  cases op with
  | get key => exact hold
  | set key value ttl =>
    change (db.cacheSet now key value ttl).2.get t other =
      ((a.write key (.value value) (expiryOf deadline now ttl)).live t other).map cellText
    rw [cacheSet_of_accepts hallowed.2]
    rcases eq_or_ne other key with rfl | hne
    · rw [get_set_self, live_write_self]
      split <;> rfl
    · rw [get_set_of_ne hne, live_write_of_ne hne, hold]
  | increment key ttl =>
    replace hop : key ∈ K := hop
    obtain ⟨db', heq, hget⟩ := cacheIncrement_spec hrel hop hallowed
    change (db.cacheIncrement now key ttl).2.get t other =
      ((a.write key _ (a.counterDeadline deadline now key ttl)).live t other).map cellText
    rcases eq_or_ne other key with rfl | hne
    · rw [heq, hget t ht, live_write_self]
      split <;> rfl
    · rw [get_cacheIncrement_of_ne hne, live_write_of_ne hne, hold]
  | delete key =>
    change get (Function.update db key none) t other =
      (AbstractCache.live (Function.update a key none) t other).map cellText
    rcases eq_or_ne other key with rfl | hne
    · simp
    · rw [get_update_of_ne hne, live_update_of_ne hne, hold]

/-- **The Redis adapter refines the abstract cache.** -/
def refinement : CacheRefinement port where
  deadline := deadline
  deadline_mono := deadline_mono
  rel := Rel
  rel_initial := fun _ _ _ _ _ _ => rfl
  rel_later := fun hrel hle key hkey t ht => hrel key hkey t (hle.trans ht)
  reply_eq := reply_eq
  rel_perform := rel_perform
  rel_frame := rel_frame

end RedisServer

end DreamWeaver.Cache
