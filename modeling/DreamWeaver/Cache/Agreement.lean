import DreamWeaver.Cache.InMemoryCache
import DreamWeaver.Cache.RedisCache

/-! # When the two adapters agree

Both adapters refine the abstract cache, so they answer alike as long as a key is used in one way at
a time: values are read and written where no counter is live, and counters go up where no value is.
The in-memory adapter keeps counters apart from values and Redis does not, so the replies differ as
soon as a key is used both ways, as the gateway does with its token counter. -/

namespace DreamWeaver.Cache

/-! ## Times to live that mean the same -/

/-- The time to live of an operation. -/
def CacheOp.ttlSeconds : CacheOp → Option ℚ
  | .set _ _ ttl | .increment _ ttl => ttl
  | .get _ | .delete _ => none

/-- Without effect, or a positive whole number of seconds up to a time stamp that is exact. -/
def WholeSeconds (now : ℕ) (ttlSeconds : Option ℚ) : Prop :=
  ∀ ttl, truthyTtl ttlSeconds = some ttl →
    ∃ n : ℕ, 0 < n ∧ ttl = n ∧ now + n * 1000 ≤ 2 ^ 53

variable {now : ℕ} {ttl : Option ℚ}

/-- In memory, whole seconds end at the millisecond they say. -/
theorem inMemory_deadline_natCast {n : ℕ} (hpos : 0 < n) (hle : now + n * 1000 ≤ 2 ^ 53) :
    InMemoryCache.deadline now n = some ((now : ℚ) + n * 1000) := by
  have hproduct : double ((n : ℚ) * 1000) = n * 1000 := by
    have := double_natCast (n := n * 1000) (by omega)
    push_cast at this
    exact this
  have hsum : double ((now : ℚ) + n * 1000) = now + n * 1000 := by
    have := double_natCast hle
    push_cast at this
    exact this
  rw [InMemoryCache.deadline, hproduct, hsum, if_pos (by positivity)]

/-- On Redis, whole seconds end at the millisecond they say. -/
theorem redis_deadline_natCast {n : ℕ} (hpos : 0 < n) (hle : now + n * 1000 ≤ 2 ^ 53) :
    RedisServer.deadline now n = some ((now : ℚ) + n * 1000) := by
  rw [RedisServer.deadline, if_pos]
  refine ⟨Rat.den_natCast n, ?_, ?_⟩
  · rw [Rat.num_natCast]
    exact_mod_cast hpos
  · rw [Rat.num_natCast]
    have : (now : ℤ) + n * 1000 ≤ 2 ^ 53 := by exact_mod_cast hle
    linarith

/-- Both adapters accept whole seconds. -/
theorem WholeSeconds.acceptsTtl (h : WholeSeconds now ttl) :
    AcceptsTtl InMemoryCache.deadline now ttl ∧ AcceptsTtl RedisServer.deadline now ttl := by
  constructor <;> intro s hs <;> obtain ⟨n, hpos, rfl, hle⟩ := h s hs
  · rw [inMemory_deadline_natCast hpos hle]
    rfl
  · rw [redis_deadline_natCast hpos hle]
    rfl

/-- Both adapters turn whole seconds into the same deadline. -/
theorem WholeSeconds.expiryOf_eq (h : WholeSeconds now ttl) :
    expiryOf InMemoryCache.deadline now ttl = expiryOf RedisServer.deadline now ttl := by
  unfold expiryOf
  cases hs : truthyTtl ttl with
  | none => rfl
  | some s =>
    obtain ⟨n, hpos, rfl, hle⟩ := h s hs
    rw [Option.bind_some, Option.bind_some, inMemory_deadline_natCast hpos hle,
      redis_deadline_natCast hpos hle]

/-- No time to live is in whole seconds. -/
theorem wholeSeconds_none (now : ℕ) : WholeSeconds now none := by
  rintro _ ⟨⟩

/-- A whole number of seconds. -/
theorem wholeSeconds_natCast {n : ℕ} (hpos : 0 < n) (hle : now + n * 1000 ≤ 2 ^ 53) :
    WholeSeconds now (some (n : ℚ)) := by
  intro s hs
  obtain ⟨heq, -⟩ := Option.filter_eq_some_iff.mp hs
  exact ⟨n, hpos, (Option.some.inj heq).symm, hle⟩

/-- With whole seconds the abstract cache does the same for both adapters. -/
theorem perform_eq_of_wholeSeconds {a : AbstractCache} {op : CacheOp}
    (h : WholeSeconds now op.ttlSeconds) :
    a.perform InMemoryCache.deadline now op = a.perform RedisServer.deadline now op := by
  cases op with
  | get key => rfl
  | set key value ttl =>
    have hexpiry : expiryOf InMemoryCache.deadline now ttl = expiryOf RedisServer.deadline now ttl :=
      h.expiryOf_eq
    simp only [AbstractCache.perform, hexpiry]
  | increment key ttl =>
    have hexpiry : expiryOf InMemoryCache.deadline now ttl = expiryOf RedisServer.deadline now ttl :=
      h.expiryOf_eq
    simp only [AbstractCache.perform, AbstractCache.counterDeadline, hexpiry]
  | delete key => rfl

/-! ## Keys used one way at a time -/

/-- In a state of the in-memory adapter, an operation uses its key one way: no value is read or
written where a counter is live, no counter goes up where a value is live or beyond the exact
integers, and a time to live is in whole seconds. -/
def UsedOneWay (m : InMemoryCache) (now : ℕ) (op : CacheOp) : Prop :=
  WholeSeconds now op.ttlSeconds ∧
    match op with
    | .get key | .set key _ _ => m.counter? now key = none
    | .increment key _ =>
      m.value? now key = none ∧ ((m.counter? now key).all fun n => n < 2 ^ 53) = true
    | .delete _ => True

/-- Every operation of a run uses its key one way. -/
def AllUsedOneWay : InMemoryCache → List (ℕ × CacheOp) → Prop
  | _, [] => True
  | m, (now, op) :: rest =>
    UsedOneWay m now op ∧ AllUsedOneWay (InMemoryCache.port.perform m now op).2 rest

/-- An operation that uses its key one way is allowed on the abstract cache, for any adapter that
accepts its time to live. -/
theorem UsedOneWay.allowed {m : InMemoryCache} {a : AbstractCache} {op : CacheOp}
    {deadline : ℕ → ℚ → Option ℚ} (h : UsedOneWay m now op)
    (hrel : InMemoryCache.Rel Set.univ now a m) (httl : AcceptsTtl deadline now op.ttlSeconds) :
    Allowed deadline a now op := by
  have hold : ∀ key, m.value? now key = (a.live now key).bind Cell.value? ∧
      m.counter? now key = (a.live now key).bind Cell.counter? :=
    fun key => hrel key (Set.mem_univ key) now le_rfl
  have hcounter : ∀ key, m.counter? now key = none → ∀ n, a.live now key ≠ some (.counter n) := by
    intro key hnone n hlive
    have := (hold key).2
    rw [hnone, hlive] at this
    cases this
  obtain ⟨-, hop⟩ := h
  cases op with
  | get key => exact hcounter key hop
  | set key value ttl => exact ⟨hcounter key hop, httl⟩
  | increment key ttl =>
    refine ⟨fun text hlive => ?_, fun n hlive => ?_, httl⟩
    · have := (hold key).1
      rw [hop.1, hlive] at this
      cases this
    · have hn := hop.2
      rw [(hold key).2, hlive] at hn
      have hlt : ((n : ℕ) : ℚ) < 2 ^ 53 := of_decide_eq_true hn
      exact_mod_cast hlt
  | delete key => trivial

/-- **One step**: from states that stand for the same abstract cache, an operation that uses its key
one way gets the same reply, and the states after it stand for one abstract cache again. -/
theorem step_agree {m : InMemoryCache} {db : RedisServer} {a : AbstractCache} {op : CacheOp}
    (hm : InMemoryCache.Rel Set.univ now a m) (hdb : RedisServer.Rel Set.univ now a db)
    (h : UsedOneWay m now op) :
    (InMemoryCache.port.perform m now op).1 = (RedisServer.port.perform db now op).1 ∧
      ∃ a', InMemoryCache.Rel Set.univ now a' (InMemoryCache.port.perform m now op).2 ∧
        RedisServer.Rel Set.univ now a' (RedisServer.port.perform db now op).2 := by
  have hmAllowed := h.allowed hm h.1.acceptsTtl.1
  have hdbAllowed := h.allowed hm h.1.acceptsTtl.2
  have hsame := perform_eq_of_wholeSeconds (a := a) h.1
  constructor
  · rw [InMemoryCache.refinement.reply_eq hm (Set.mem_univ _) hmAllowed,
      RedisServer.refinement.reply_eq hdb (Set.mem_univ _) hdbAllowed]
    exact congrArg (fun p => Except.ok p.1) hsame
  · refine ⟨_, InMemoryCache.refinement.rel_perform hm (Set.mem_univ _) hmAllowed, ?_⟩
    have hdb' := RedisServer.refinement.rel_perform hdb (Set.mem_univ _) hdbAllowed
    rwa [show a.perform InMemoryCache.refinement.deadline now op =
      a.perform RedisServer.refinement.deadline now op from hsame]

/-- Runs from states that stand for the same abstract cache. -/
theorem replies_eq_of_rel {run : List (ℕ × CacheOp)} {m : InMemoryCache} {db : RedisServer}
    {a : AbstractCache} (hm : InMemoryCache.Rel Set.univ now a m)
    (hdb : RedisServer.Rel Set.univ now a db) (hlater : ∀ step ∈ run, now ≤ step.1)
    (htimes : (run.map Prod.fst).Pairwise (· ≤ ·)) (h : AllUsedOneWay m run) :
    InMemoryCache.port.replies m run = RedisServer.port.replies db run := by
  induction run generalizing now m db a with
  | nil => rfl
  | cons step run ih =>
    obtain ⟨t, op⟩ := step
    have ht : now ≤ t := hlater (t, op) List.mem_cons_self
    obtain ⟨hreply, a', hm', hdb'⟩ := step_agree (InMemoryCache.refinement.rel_later hm ht)
      (RedisServer.refinement.rel_later hdb ht) h.1
    rw [List.map_cons, List.pairwise_cons] at htimes
    rw [CachePort.replies, CachePort.replies, hreply]
    refine congrArg _ (ih hm' hdb' (fun step hstep => ?_) htimes.2 h.2)
    exact htimes.1 step.1 (List.mem_map_of_mem hstep)

/-- **The adapters agree** on every run with nondecreasing times whose operations use their keys one
way at a time. -/
theorem adapters_agree (run : List (ℕ × CacheOp))
    (htimes : (run.map Prod.fst).Pairwise (· ≤ ·))
    (h : AllUsedOneWay InMemoryCache.port.initial run) :
    InMemoryCache.port.replies InMemoryCache.port.initial run =
      RedisServer.port.replies RedisServer.port.initial run :=
  replies_eq_of_rel (InMemoryCache.refinement.rel_initial _ 0)
    (RedisServer.refinement.rel_initial _ 0) (fun _ _ => Nat.zero_le _) htimes h

/-- A run that caches a story, reads it before and after it expires, and counts two failures. -/
def storyRun : List (ℕ × CacheOp) :=
  [(0, .set (lit "story") (lit "once") (some 1)), (500, .get (lit "story")),
    (500, .increment (lit "failures") none), (1200, .get (lit "story")),
    (1200, .increment (lit "failures") none), (1300, .delete (lit "failures"))]

/-- The adapters agree on the run of a story that is cached and two failures that are counted. -/
theorem adapters_agree_storyRun :
    (storyRun.map Prod.fst).Pairwise (· ≤ ·) ∧ AllUsedOneWay InMemoryCache.port.initial storyRun ∧
      InMemoryCache.port.replies InMemoryCache.port.initial storyRun =
        RedisServer.port.replies RedisServer.port.initial storyRun := by
  have htimes : (storyRun.map Prod.fst).Pairwise (· ≤ ·) := by decide
  have hused : AllUsedOneWay InMemoryCache.port.initial storyRun :=
    ⟨⟨wholeSeconds_natCast (n := 1) (by decide) (by decide), by decide +kernel⟩,
      ⟨wholeSeconds_none _, by decide +kernel⟩, ⟨wholeSeconds_none _, by decide +kernel⟩,
      ⟨wholeSeconds_none _, by decide +kernel⟩, ⟨wholeSeconds_none _, by decide +kernel⟩,
      ⟨wholeSeconds_none _, trivial⟩, trivial⟩
  exact ⟨htimes, hused, adapters_agree storyRun htimes hused⟩

/-- A counter is invisible to `get` in memory, and visible on Redis; a value is not counted up in
memory, and counted up on Redis. -/
theorem increment_then_get_disagree :
    InMemoryCache.port.replies InMemoryCache.port.initial
        [(0, .increment (lit "tokens") none), (0, .get (lit "tokens"))] ≠
      RedisServer.port.replies RedisServer.port.initial
        [(0, .increment (lit "tokens") none), (0, .get (lit "tokens"))] ∧
    InMemoryCache.port.replies InMemoryCache.port.initial
        [(0, .set (lit "tokens") (lit "41") none), (0, .increment (lit "tokens") none)] ≠
      RedisServer.port.replies RedisServer.port.initial
        [(0, .set (lit "tokens") (lit "41") none), (0, .increment (lit "tokens") none)] := by
  constructor <;>
  · intro h
    have hsecond := congrArg (fun replies => replies[1]?) h
    simp only [CachePort.replies, List.getElem?_cons_succ, List.getElem?_cons_zero,
      Option.some.injEq, Sigma.mk.injEq, heq_eq_eq, true_and] at hsecond
    exact absurd hsecond (by decide +kernel)

end DreamWeaver.Cache
