import DreamWeaver.Cache.CachePort

/-! # The in-memory adapter

`InMemoryCacheAdapter` (`api/src/infrastructure/adapters/InMemoryCacheAdapter.ts`) keeps values and
counters in two maps. Each map by itself behaves as the abstract cache does, so the adapter refines
it on keys that are never used both ways at a time. -/

namespace DreamWeaver.Cache

/-- `CacheItem`; an expiry of 0 means none. -/
structure CacheItem where
  value : Text
  expiry : ℚ
  deriving DecidableEq, Repr

/-- An item of the map of counters. -/
structure CounterItem where
  value : ℚ
  expiry : ℚ
  deriving DecidableEq, Repr

/-- `InMemoryCacheAdapter` -/
structure InMemoryCache where
  store : Text → Option CacheItem
  counters : Text → Option CounterItem

namespace InMemoryCache

/-- `expiry > 0 && expiry < now` -/
def expired (expiry : ℚ) (now : ℕ) : Bool := 0 < expiry && expiry < now

/-- `ttlSeconds ? Date.now() + (ttlSeconds * 1000) : 0` -/
def expiryFor (now : ℕ) (ttlSeconds : Option ℚ) : ℚ :=
  match truthyTtl ttlSeconds with
  | some ttl => double (now + double (ttl * 1000))
  | none => 0

/-- `get` -/
def get (m : InMemoryCache) (now : ℕ) (key : Text) : Option Text × InMemoryCache :=
  match m.store key with
  | none => (none, m)
  | some item =>
    if expired item.expiry now then (none, { m with store := Function.update m.store key none })
    else (some item.value, m)

/-- `set` -/
def set (m : InMemoryCache) (now : ℕ) (key value : Text) (ttlSeconds : Option ℚ) : InMemoryCache :=
  { m with store := Function.update m.store key (some ⟨value, expiryFor now ttlSeconds⟩) }

/-- The counter that `increment` counts up: the one there is, unless it has expired, or a new one. -/
def counterFor (m : InMemoryCache) (now : ℕ) (key : Text) (ttlSeconds : Option ℚ) : CounterItem :=
  ((m.counters key).filter fun item => !expired item.expiry now).getD
    ⟨0, expiryFor now ttlSeconds⟩

/-- `increment` -/
def increment (m : InMemoryCache) (now : ℕ) (key : Text) (ttlSeconds : Option ℚ) :
    ℚ × InMemoryCache :=
  let item := m.counterFor now key ttlSeconds
  let value := double (item.value + 1)
  (value, { m with counters := Function.update m.counters key (some ⟨value, item.expiry⟩) })

/-- `delete` -/
def delete (m : InMemoryCache) (key : Text) : InMemoryCache :=
  ⟨Function.update m.store key none, Function.update m.counters key none⟩

/-- The adapter as a cache port. -/
def port : CachePort InMemoryCache where
  initial := ⟨fun _ => none, fun _ => none⟩
  perform m now
    | .get key => (.ok (m.get now key).1, (m.get now key).2)
    | .set key value ttl => (.ok (), m.set now key value ttl)
    | .increment key ttl => (.ok (m.increment now key ttl).1, (m.increment now key ttl).2)
    | .delete key => (.ok (), m.delete key)

/-! ## What a key holds at a time -/

variable (m : InMemoryCache)

/-- The value under a key at a time. -/
def value? (t : ℕ) (key : Text) : Option Text :=
  ((m.store key).filter fun item => !expired item.expiry t).map CacheItem.value

/-- The counter under a key at a time. -/
def counter? (t : ℕ) (key : Text) : Option ℚ :=
  ((m.counters key).filter fun item => !expired item.expiry t).map CounterItem.value

variable {m} {now t : ℕ} {key other value : Text} {ttl : Option ℚ}

/-- What has expired stays expired. -/
theorem expired_later {expiry : ℚ} (h : expired expiry now = true) (ht : now ≤ t) :
    expired expiry t = true := by
  have hle : (now : ℚ) ≤ t := by exact_mod_cast ht
  simp only [expired, Bool.and_eq_true, decide_eq_true_eq] at h ⊢
  exact ⟨h.1, h.2.trans_le hle⟩

/-- `get` answers with the value under the key. -/
theorem get_fst : (m.get now key).1 = m.value? now key := by
  unfold get value?
  cases m.store key with
  | none => rfl
  | some item => cases hitem : expired item.expiry now <;> simp [hitem]

/-- `get` does not change what any key holds from then on. -/
theorem value?_get (ht : now ≤ t) : (m.get now key).2.value? t other = m.value? t other := by
  unfold get
  cases hstore : m.store key with
  | none => rfl
  | some item =>
    dsimp only
    split
    · rename_i hexpired
      rcases eq_or_ne other key with rfl | hne
      · simp [value?, hstore, expired_later hexpired ht]
      · simp [value?, Function.update_of_ne hne]
    · rfl

@[simp] theorem counter?_get : (m.get now key).2.counter? t other = m.counter? t other := by
  unfold get
  split
  · rfl
  · split <;> rfl

@[simp] theorem value?_set_self :
    (m.set now key value ttl).value? t key =
      if expired (expiryFor now ttl) t then none else some value := by
  cases h : expired (expiryFor now ttl) t <;> simp [set, value?, h]

theorem value?_set_of_ne (hne : other ≠ key) :
    (m.set now key value ttl).value? t other = m.value? t other := by
  simp [set, value?, Function.update_of_ne hne]

@[simp] theorem counter?_set :
    (m.set now key value ttl).counter? t other = m.counter? t other := rfl

@[simp] theorem value?_increment : (m.increment now key ttl).2.value? t other = m.value? t other :=
  rfl

theorem counter?_increment_self :
    (m.increment now key ttl).2.counter? t key =
      if expired (m.counterFor now key ttl).expiry t then none
      else some (double ((m.counterFor now key ttl).value + 1)) := by
  cases h : expired (m.counterFor now key ttl).expiry t <;> simp [increment, counter?, h]

theorem counter?_increment_of_ne (hne : other ≠ key) :
    (m.increment now key ttl).2.counter? t other = m.counter? t other := by
  simp [increment, counter?, Function.update_of_ne hne]

@[simp] theorem value?_delete_self : (m.delete key).value? t key = none := by
  simp [delete, value?]

@[simp] theorem counter?_delete_self : (m.delete key).counter? t key = none := by
  simp [delete, counter?]

theorem value?_delete_of_ne (hne : other ≠ key) :
    (m.delete key).value? t other = m.value? t other := by
  simp [delete, value?, Function.update_of_ne hne]

theorem counter?_delete_of_ne (hne : other ≠ key) :
    (m.delete key).counter? t other = m.counter? t other := by
  simp [delete, counter?, Function.update_of_ne hne]

/-! ## Refinement -/

/-- The deadline of a time to live: a positive time stamp. -/
def deadline (now : ℕ) (ttl : ℚ) : Option ℚ :=
  if 0 < double (now + double (ttl * 1000)) then some (double (now + double (ttl * 1000))) else none

/-- A later creation gives a later deadline. -/
theorem deadline_mono {later : ℕ} {ttl d d' : ℚ} (hle : now ≤ later)
    (hd : deadline now ttl = some d) (hd' : deadline later ttl = some d') : d ≤ d' := by
  unfold deadline at hd hd'
  split at hd
  · split at hd'
    · rename_i hpos _
      cases hd
      cases hd'
      have hcast : (now : ℚ) ≤ later := by exact_mod_cast hle
      have hnonneg : 0 ≤ (now : ℚ) + double (ttl * 1000) := by
        by_contra hneg
        exact absurd (double_le_of_le_grid 0 (by simp) (not_le.mp hneg).le) (not_le.mpr hpos)
      exact double_mono hnonneg (by linarith)
    · cases hd'
  · cases hd

/-- An accepted time to live gives an expiry that means the same as the deadline. -/
theorem expired_expiryFor (h : AcceptsTtl deadline now ttl) :
    expired (expiryFor now ttl) t = !Within (expiryOf deadline now ttl) t := by
  unfold expiryFor expiryOf
  cases httl : truthyTtl ttl with
  | none => simp [expired]
  | some s =>
    have hpos : 0 < double (now + double (s * 1000)) := by
      have hsome := h s httl
      unfold deadline at hsome
      split at hsome
      · assumption
      · cases hsome
    simp [expired, deadline, hpos, Within, ← not_lt]

/-- As far as the keys in `K` are concerned, the two maps hold what the abstract cache holds. -/
def Rel (K : Set Text) (now : ℕ) (a : AbstractCache) (m : InMemoryCache) : Prop :=
  ∀ key ∈ K, ∀ t, now ≤ t →
    m.value? t key = (a.live t key).bind Cell.value? ∧
      m.counter? t key = (a.live t key).bind Cell.counter?

variable {K : Set Text} {a : AbstractCache}

/-- The item that `increment` counts up is the counter of the abstract cache. -/
theorem counterFor_spec (hrel : Rel K now a m) (hkey : key ∈ K)
    (hvalue : ∀ text, a.live now key ≠ some (.value text)) (httl : AcceptsTtl deadline now ttl) :
    (m.counterFor now key ttl).value = a.count now key ∧
      ∀ t, now ≤ t → expired (m.counterFor now key ttl).expiry t =
        !Within (a.counterDeadline deadline now key ttl) t := by
  have hnow := (hrel key hkey now le_rfl).2
  cases hlive : a.live now key with
  | none =>
    rw [hlive] at hnow
    have hnone : ((m.counters key).filter fun item => !expired item.expiry now) = none :=
      Option.map_eq_none_iff.mp hnow
    simp only [counterFor, hnone, Option.getD_none, AbstractCache.count,
      AbstractCache.counterDeadline, hlive]
    exact ⟨by norm_num, fun t _ => expired_expiryFor httl⟩
  | some cell =>
    cases cell with
    | value text => exact absurd hlive (hvalue text)
    | counter n =>
      rw [hlive] at hnow
      obtain ⟨item, hitem, hcount⟩ := Option.map_eq_some_iff.mp hnow
      obtain ⟨hstored, -⟩ := Option.filter_eq_some_iff.mp hitem
      have hfor : m.counterFor now key ttl = item := by rw [counterFor, hitem, Option.getD_some]
      rw [hfor]
      refine ⟨by rw [hcount, AbstractCache.count, hlive], fun t ht => ?_⟩
      -- later on, the item and the counter are there or not there together
      have hlater := (hrel key hkey t ht).2
      rw [counter?, hstored] at hlater
      rw [within_counterDeadline hlive]
      cases hcell : a.live t key with
      | none =>
        rw [hcell] at hlater
        simpa using hlater
      | some cell =>
        have hsame := live_of_live_later hcell ht
        rw [hlive] at hsame
        cases hsame
        rw [hcell] at hlater
        cases hexpired : expired item.expiry t with
        | true => simp [hexpired, Cell.counter?] at hlater
        | false => rfl

/-- Operations on other keys do not disturb the relation. -/
theorem rel_frame {op : CacheOp} (hrel : Rel K now a m) (hop : op.key ∉ K) :
    Rel K now a (port.perform m now op).2 := by
  intro key hkey t ht
  have hne : key ≠ op.key := fun h => hop (h ▸ hkey)
  have hold := hrel key hkey t ht
  cases op with
  | get k =>
    change (m.get now k).2.value? t key = _ ∧ (m.get now k).2.counter? t key = _
    rwa [value?_get ht, counter?_get]
  | set k value ttl =>
    replace hne : key ≠ k := hne
    change (m.set now k value ttl).value? t key = _ ∧ (m.set now k value ttl).counter? t key = _
    rwa [value?_set_of_ne hne, counter?_set]
  | increment k ttl =>
    replace hne : key ≠ k := hne
    change (m.increment now k ttl).2.value? t key = _ ∧ (m.increment now k ttl).2.counter? t key = _
    rwa [value?_increment, counter?_increment_of_ne hne]
  | delete k =>
    replace hne : key ≠ k := hne
    change (m.delete k).value? t key = _ ∧ (m.delete k).counter? t key = _
    rwa [value?_delete_of_ne hne, counter?_delete_of_ne hne]

/-- **An allowed operation answers as the abstract cache does.** -/
theorem reply_eq {op : CacheOp} (hrel : Rel K now a m) (hop : op.key ∈ K)
    (hallowed : Allowed deadline a now op) :
    (port.perform m now op).1 = .ok (a.perform deadline now op).1 := by
  cases op with
  | get key => exact congrArg Except.ok (get_fst.trans (hrel key hop now le_rfl).1)
  | set key value ttl => rfl
  | increment key ttl =>
    obtain ⟨hvalue, hbound, httl⟩ := hallowed
    have hspec : (m.counterFor now key ttl).value = a.count now key :=
      (counterFor_spec hrel hop hvalue httl).1
    have hcount : a.count now key + 1 ≤ 2 ^ 53 := by
      unfold AbstractCache.count
      split
      · rename_i n hlive
        exact hbound n hlive
      · norm_num
    have hdouble := double_natCast hcount
    push_cast at hdouble
    refine congrArg Except.ok ?_
    change double ((m.counterFor now key ttl).value + 1) = ((a.count now key + 1 : ℕ) : ℚ)
    rw [hspec, hdouble, Nat.cast_succ]
  | delete key => rfl

/-- **An allowed operation keeps the relation.** -/
theorem rel_perform {op : CacheOp} (hrel : Rel K now a m) (hop : op.key ∈ K)
    (hallowed : Allowed deadline a now op) :
    Rel K now (a.perform deadline now op).2 (port.perform m now op).2 := by
  intro other hother t ht
  have hold := hrel other hother t ht
  cases op with
  | get key =>
    change (m.get now key).2.value? t other = _ ∧ (m.get now key).2.counter? t other = _
    rwa [value?_get ht, counter?_get]
  | set key value ttl =>
    obtain ⟨hcounter, httl⟩ := hallowed
    change (m.set now key value ttl).value? t other =
        ((a.write key (.value value) (expiryOf deadline now ttl)).live t other).bind _ ∧
      m.counter? t other =
        ((a.write key (.value value) (expiryOf deadline now ttl)).live t other).bind _
    rcases eq_or_ne other key with rfl | hne
    · rw [value?_set_self, expired_expiryFor httl, live_write_self, hold.2,
        counter?_eq_none hcounter ht]
      cases hw : Within (expiryOf deadline now ttl) t <;> simp [Cell.value?, Cell.counter?]
    · rwa [value?_set_of_ne hne, live_write_of_ne hne]
  | increment key ttl =>
    obtain ⟨hvalue, hbound, httl⟩ := hallowed
    have hnext : double ((m.counterFor now key ttl).value + 1) = ((a.count now key + 1 : ℕ) : ℚ) :=
      Except.ok.inj (reply_eq hrel hop ⟨hvalue, hbound, httl⟩)
    change m.value? t other =
        ((a.write key _ (a.counterDeadline deadline now key ttl)).live t other).bind _ ∧
      (m.increment now key ttl).2.counter? t other =
        ((a.write key _ (a.counterDeadline deadline now key ttl)).live t other).bind _
    rcases eq_or_ne other key with rfl | hne
    · rw [counter?_increment_self, (counterFor_spec hrel hother hvalue httl).2 t ht, live_write_self,
        hnext, hold.1, value?_eq_none hvalue ht]
      cases hw : Within (a.counterDeadline deadline now other ttl) t <;>
        simp [Cell.value?, Cell.counter?]
    · rwa [counter?_increment_of_ne hne, live_write_of_ne hne]
  | delete key =>
    change (m.delete key).value? t other =
        (AbstractCache.live (Function.update a key none) t other).bind _ ∧
      (m.delete key).counter? t other =
        (AbstractCache.live (Function.update a key none) t other).bind _
    rcases eq_or_ne other key with rfl | hne
    · simp
    · rwa [value?_delete_of_ne hne, counter?_delete_of_ne hne, live_update_of_ne hne]

/-- **The in-memory adapter refines the abstract cache.** -/
def refinement : CacheRefinement port where
  deadline := deadline
  deadline_mono := deadline_mono
  rel := Rel
  rel_initial := fun _ _ _ _ _ _ => ⟨rfl, rfl⟩
  rel_later := fun hrel hle key hkey t ht => hrel key hkey t (hle.trans ht)
  reply_eq := reply_eq
  rel_perform := rel_perform
  rel_frame := rel_frame

end InMemoryCache

end DreamWeaver.Cache
