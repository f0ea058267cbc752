import DreamWeaver.Gateway.World

/-! # The circuit breaker over whole runs

On the keys of the breaker the cache holds an open flag and a failure counter. `Breaker` is what
every call preserves: once the counter has reached the threshold, the flag is there for as long as
the counter is. A failing answer without usage counts up; an answer with usage first deletes the
counter, even when the call then throws. -/

namespace DreamWeaver.Gateway

open Cache Proc

/-- The keys of the open flag and of the failure counter. -/
def breakerKeys : Set Text := {openKey, failuresKey}

theorem openKey_mem : openKey ∈ breakerKeys := Or.inl rfl

theorem failuresKey_mem : failuresKey ∈ breakerKeys := Or.inr rfl

theorem openKey_ne_failuresKey : openKey ≠ failuresKey := by decide

theorem tokensKey_notMem : tokensKey ∉ breakerKeys := by
  rintro (h | h) <;> exact absurd h (by decide)

theorem costKey_notMem : costKey ∉ breakerKeys := by
  rintro (h | h) <;> exact absurd h (by decide)

/-- The key of a story is none of the breaker's. -/
theorem hashPrompt_notMem (prompt : Text) : GeminiAIGateway.hashPrompt prompt ∉ breakerKeys := by
  have hfirst : (GeminiAIGateway.hashPrompt prompt).head? = some 115 := rfl
  rintro (h | h) <;> · rw [h] at hfirst; exact absurd hfirst (by decide)

section Invariant

variable {σ : Type} {port : CachePort σ} (ref : CacheRefinement port) (g : GeminiAIGateway)

/-- What is written at a time with the reset time as its time to live ends at `d`. -/
def ResetEnds (t : ℕ) (d : ℚ) : Prop := expiryOf ref.deadline t (some g.resetSeconds) = some d

/-- The cell of the open flag. -/
def openCell : Cell := .value (lit "true")

/-- The world's cache holds the flag and the counter of `a`. -/
structure Tracks (w : World σ) (a : AbstractCache) : Prop where
  rel : ref.rel breakerKeys w.now a w.cache
  open_value : ∀ entry, a openKey = some entry → entry.cell = openCell
  failures_counter : ∀ entry, a failuresKey = some entry →
    ∃ n t d, entry = ⟨.counter n, some d⟩ ∧ (n : ℕ) < 2 ^ 53 ∧ t ≤ w.now ∧ ResetEnds ref g t d

/-- **The invariant of the breaker**: while a counter that has reached the threshold is there, the
circuit is open. -/
structure Breaker (w : World σ) (a : AbstractCache) : Prop extends Tracks ref g w a where
  tripped : ∀ n t, w.now ≤ t → a.live t failuresKey = some (.counter n) →
    g.failureThreshold ≤ (n : ℕ) → a.live t openKey = some openCell

/-- The circuit is closed. -/
def Closed (w : World σ) (a : AbstractCache) : Prop := a.live w.now openKey = none

variable {ref g} {w w' : World σ} {a : AbstractCache} {now t t' : ℕ} {d d' : ℚ}

/-! ## The reset time -/

theorem ResetEnds.mono (h : ResetEnds ref g t d) (h' : ResetEnds ref g t' d') (hle : t ≤ t') :
    d ≤ d' := by
  obtain ⟨ttl, httl, hd⟩ := Option.bind_eq_some_iff.mp h
  obtain ⟨ttl', httl', hd'⟩ := Option.bind_eq_some_iff.mp h'
  obtain rfl : ttl = ttl' := Option.some.inj (httl.symm.trans httl')
  exact ref.deadline_mono hle hd hd'

theorem ResetEnds.accepts (h : ResetEnds ref g t d) :
    AcceptsTtl ref.deadline t (some g.resetSeconds) := by
  intro ttl httl
  obtain ⟨ttl', httl', hd⟩ := Option.bind_eq_some_iff.mp h
  obtain rfl : ttl = ttl' := Option.some.inj (httl.symm.trans httl')
  rw [hd]
  rfl

/-! ## What the effects preserve -/

/-- When the counter was created, seen from later. -/
theorem Tracks.failures_created (h : Tracks ref g w a) (hnow : w.now ≤ now) :
    ∀ entry, a failuresKey = some entry →
      ∃ n t d, entry = ⟨.counter n, some d⟩ ∧ (n : ℕ) < 2 ^ 53 ∧ t ≤ now ∧ ResetEnds ref g t d := by
  intro entry hentry
  obtain ⟨n, t, d, rfl, hn, ht, hd⟩ := h.failures_counter entry hentry
  exact ⟨n, t, d, rfl, hn, ht.trans hnow, hd⟩

/-- Time passes. -/
theorem Tracks.later (h : Tracks ref g w a) (hnow : w.now ≤ w'.now) (hcache : w'.cache = w.cache) :
    Tracks ref g w' a where
  rel := hcache ▸ ref.rel_later h.rel hnow
  open_value := h.open_value
  failures_counter := h.failures_created hnow

/-- An operation on another key. -/
theorem Tracks.frame (h : Tracks ref g w a) {op : CacheOp} (hop : op.key ∉ breakerKeys)
    (hnow : w.now ≤ now) (asked : List Asked) :
    Tracks ref g ⟨(port.perform w.cache now op).2, now, asked⟩ a where
  rel := ref.rel_frame (ref.rel_later h.rel hnow) hop
  open_value := h.open_value
  failures_counter := h.failures_created hnow

theorem Breaker.later (h : Breaker ref g w a) (hnow : w.now ≤ w'.now)
    (hcache : w'.cache = w.cache) : Breaker ref g w' a where
  toTracks := h.toTracks.later hnow hcache
  tripped n t ht := h.tripped n t (hnow.trans ht)

theorem Breaker.frame (h : Breaker ref g w a) {op : CacheOp} (hop : op.key ∉ breakerKeys)
    (hnow : w.now ≤ now) (asked : List Asked) :
    Breaker ref g ⟨(port.perform w.cache now op).2, now, asked⟩ a where
  toTracks := h.toTracks.frame hop hnow asked
  tripped n t ht := h.tripped n t (hnow.trans ht)

/-- What holds nothing now holds nothing later. -/
theorem live_none_later {key : Text} (h : a.live t key = none) (hle : t ≤ t') :
    a.live t' key = none := by
  by_contra hne
  obtain ⟨cell, hcell⟩ := Option.ne_none_iff_exists'.mp hne
  rw [live_of_live_later hcell hle] at h
  exact absurd h (by simp)

theorem Closed.later (h : Closed w a) (hnow : w.now ≤ w'.now) : Closed w' a :=
  live_none_later h hnow

/-- The open flag holds no counter. -/
theorem Tracks.openKey_ne_counter (h : Tracks ref g w a) (n : ℕ+) :
    a.live t openKey ≠ some (.counter n) := by
  intro hlive
  obtain ⟨entry, hentry, -, hcell⟩ := live_eq_some_iff.mp hlive
  rw [h.open_value entry hentry] at hcell
  exact absurd hcell (by simp [openCell])

/-- The failure counter holds no value. -/
theorem Tracks.failuresKey_ne_value (h : Tracks ref g w a) (text : Text) :
    a.live t failuresKey ≠ some (.value text) := by
  intro hlive
  obtain ⟨entry, hentry, -, hcell⟩ := live_eq_some_iff.mp hlive
  obtain ⟨n, t, d, rfl, -⟩ := h.failures_counter entry hentry
  exact absurd hcell (by simp)

/-- The open flag as the code reads it. -/
theorem Tracks.get_open (h : Tracks ref g w a) (hnow : w.now ≤ now) :
    (port.perform w.cache now (.get openKey)).1 =
      .ok ((a.live now openKey).bind Cell.value?) ∧
    ∀ asked, Tracks ref g ⟨(port.perform w.cache now (.get openKey)).2, now, asked⟩ a := by
  have hrel := ref.rel_later h.rel hnow
  have hallowed : Allowed ref.deadline a now (.get openKey) := fun n => h.openKey_ne_counter n
  have hkey : (CacheOp.get openKey).key ∈ breakerKeys := openKey_mem
  exact ⟨ref.reply_eq hrel hkey hallowed, fun asked =>
    ⟨ref.rel_perform hrel hkey hallowed, h.open_value, h.failures_created hnow⟩⟩

/-- The flag reads as nothing, or as a text that the code takes as true. -/
theorem Tracks.open_cases (h : Tracks ref g w a) (t : ℕ) :
    a.live t openKey = none ∨ a.live t openKey = some openCell := by
  cases hlive : a.live t openKey with
  | none => exact Or.inl rfl
  | some cell =>
    obtain ⟨entry, hentry, -, hcell⟩ := live_eq_some_iff.mp hlive
    rw [← hcell, h.open_value entry hentry]
    exact Or.inr rfl

/-- **Opening the circuit** establishes the invariant: the flag outlives every counter there is. -/
theorem Tracks.set_open (h : Tracks ref g w a) (hnow : w.now ≤ now) (hd : ResetEnds ref g now d) :
    (port.perform w.cache now (.set openKey (lit "true") (some g.resetSeconds))).1 = .ok () ∧
    ∀ asked, Breaker ref g
      ⟨(port.perform w.cache now (.set openKey (lit "true") (some g.resetSeconds))).2, now, asked⟩
      (a.write openKey openCell (some d)) := by
  have hrel := ref.rel_later h.rel hnow
  have hallowed : Allowed ref.deadline a now
      (.set openKey (lit "true") (some g.resetSeconds)) :=
    ⟨fun n => h.openKey_ne_counter n, hd.accepts⟩
  have hfailures : a.write openKey openCell (some d) failuresKey = a failuresKey :=
    Function.update_of_ne openKey_ne_failuresKey.symm _ _
  have hkey : (CacheOp.set openKey (lit "true") (some g.resetSeconds)).key ∈ breakerKeys :=
    openKey_mem
  have hrel' := ref.rel_perform hrel hkey hallowed
  simp only [AbstractCache.perform, show expiryOf ref.deadline now (some g.resetSeconds) = some d
    from hd] at hrel'
  refine ⟨ref.reply_eq hrel hkey hallowed, fun asked => ⟨⟨hrel', ?_, ?_⟩, ?_⟩⟩
  · intro entry hentry
    rw [AbstractCache.write, Function.update_self] at hentry
    cases hentry
    rfl
  · rw [hfailures]
    exact h.failures_created hnow
  · intro n t ht hlive _
    -- the counter was created before the flag, so the flag's deadline is not the earlier one
    rw [live_write_of_ne openKey_ne_failuresKey.symm] at hlive
    obtain ⟨entry, hentry, hwithin, -⟩ := live_eq_some_iff.mp hlive
    obtain ⟨m, t₀, d₀, rfl, -, ht₀, hd₀⟩ := h.failures_counter entry hentry
    have hle : d₀ ≤ d := hd₀.mono hd (ht₀.trans hnow)
    have hwithin' : Within (some d) t = true := by
      simp only [Within, Option.all_some, decide_eq_true_eq] at hwithin ⊢
      exact hwithin.trans hle
    rw [live_write_self, if_pos hwithin']

/-- **Counting a failure** below the exact integers. -/
theorem Tracks.increment_failures (h : Tracks ref g w a) (hnow : w.now ≤ now)
    (hd : ResetEnds ref g now d)
    (hlow : ∀ n : ℕ+, a.live now failuresKey = some (.counter n) → (n : ℕ) + 1 < 2 ^ 53) :
    (port.perform w.cache now (.increment failuresKey (some g.resetSeconds))).1 =
      .ok ((a.count now failuresKey + 1 : ℕ) : ℚ) ∧
    ∀ asked, Tracks ref g
      ⟨(port.perform w.cache now (.increment failuresKey (some g.resetSeconds))).2, now, asked⟩
      (a.write failuresKey (.counter (a.count now failuresKey).succPNat)
        (a.counterDeadline ref.deadline now failuresKey (some g.resetSeconds))) := by
  have hrel := ref.rel_later h.rel hnow
  have hallowed : Allowed ref.deadline a now (.increment failuresKey (some g.resetSeconds)) :=
    ⟨fun text => h.failuresKey_ne_value text, fun n hn => (Nat.lt_succ_self _).trans (hlow n hn),
      hd.accepts⟩
  have hkey : (CacheOp.increment failuresKey (some g.resetSeconds)).key ∈ breakerKeys :=
    failuresKey_mem
  refine ⟨ref.reply_eq hrel hkey hallowed, fun asked =>
    ⟨ref.rel_perform hrel hkey hallowed, ?_, ?_⟩⟩
  · intro entry hentry
    rw [AbstractCache.write, Function.update_of_ne openKey_ne_failuresKey] at hentry
    exact h.open_value entry hentry
  · intro entry hentry
    rw [AbstractCache.write, Function.update_self] at hentry
    cases hentry
    unfold AbstractCache.counterDeadline AbstractCache.count
    cases hlive : a.live now failuresKey with
    | none => exact ⟨_, now, d, by rw [hd], by norm_num, le_rfl, hd⟩
    | some cell =>
      obtain ⟨entry, hentry, -, hcell⟩ := live_eq_some_iff.mp hlive
      obtain ⟨n, t₀, d₀, rfl, -, ht₀, hd₀⟩ := h.failures_counter entry hentry
      subst hcell
      refine ⟨_, t₀, d₀, by rw [hentry]; rfl, ?_, ht₀.trans hnow, hd₀⟩
      exact hlow n hlive

/-- Deleting the failure counter. -/
theorem Breaker.delete_failures (h : Breaker ref g w a) (hnow : w.now ≤ now) (asked : List Asked) :
    Breaker ref g ⟨(port.perform w.cache now (.delete failuresKey)).2, now, asked⟩
      (Function.update a failuresKey none) where
  rel :=
    have hkey : (CacheOp.delete failuresKey).key ∈ breakerKeys := failuresKey_mem
    ref.rel_perform (ref.rel_later h.rel hnow) hkey trivial
  open_value entry hentry := by
    rw [Function.update_of_ne openKey_ne_failuresKey] at hentry
    exact h.open_value entry hentry
  failures_counter entry hentry := by
    rw [Function.update_self] at hentry
    exact absurd hentry (by simp)
  tripped n t _ hlive := by
    rw [live_update_none] at hlive
    exact absurd hlive (by simp)

/-- While the circuit is closed the counter is below the threshold. -/
theorem Breaker.lt_threshold (h : Breaker ref g w a) (hclosed : Closed w a) {n : ℕ+}
    (ht : w.now ≤ t) (hlive : a.live t failuresKey = some (.counter n)) :
    ((n : ℕ) : ℚ) < g.failureThreshold := by
  by_contra hge
  have hopen := h.tripped n t ht hlive (not_lt.mp hge)
  rw [live_none_later hclosed ht] at hopen
  exact absurd hopen (by simp)

/-! ## Runs of the breaker's procedures -/

variable (ref g) in
/-- The breaker is in the state `a` with a closed circuit, and `asked` is what was asked so far. -/
structure Steady (a : AbstractCache) (asked : List Asked) (w : World σ) : Prop where
  breaker : Breaker ref g w a
  closed : Closed w a
  asked_eq : w.asked = asked

variable {asked : List Asked}

/-- The provider answers. -/
theorem Steady.answered (h : Steady ref g a asked w) (hnow : w.now ≤ now) (answer : Asked) :
    Steady ref g a (answer :: asked) ⟨w.cache, now, answer :: w.asked⟩ :=
  ⟨h.breaker.later hnow rfl, h.closed.later hnow, by rw [h.asked_eq]⟩

/-- Operations on other keys do not disturb the breaker. -/
theorem keeps_cache {op : CacheOp} (hop : op.key ∉ breakerKeys) :
    Keeps (gatewayEnv port) (Steady ref g a asked) (Proc.perform (GatewayEffect.cache op)) := by
  apply keeps_perform
  rintro w reply w' h ⟨now, hnow, -, rfl⟩
  exact ⟨h.breaker.frame hop hnow _, h.closed.later hnow, h.asked_eq⟩

/-- Reading the clock does not disturb the breaker. -/
theorem keeps_readClock : Keeps (gatewayEnv port) (Steady ref g a asked) readClock := by
  apply keeps_perform
  rintro w reply w' h ⟨now, hnow, -, rfl⟩
  exact ⟨h.breaker.later hnow rfl, h.closed.later hnow, h.asked_eq⟩

/-- `openCircuit` sets the flag and establishes the invariant. -/
theorem run_openCircuit {r : Except JsError Unit} (h : Tracks ref g w a)
    (hends : ∀ t ≤ w'.now, ∃ d, ResetEnds ref g t d)
    (hrun : Run (gatewayEnv port) w g.openCircuit r w') :
    r = .ok () ∧ w'.asked = w.asked ∧ ∃ d, ResetEnds ref g w'.now d ∧
      Breaker ref g w' (a.write openKey openCell (some d)) := by
  obtain ⟨now, hnow, rfl, rfl⟩ := run_cacheSet_iff.mp hrun
  obtain ⟨d, hd⟩ := hends now le_rfl
  obtain ⟨hreply, hbreaker⟩ := h.set_open hnow hd
  exact ⟨hreply, rfl, d, hd, hbreaker _⟩

variable (ref g) in
/-- How a check of the breaker ends. -/
def Checked (a : AbstractCache) (asked : List Asked) (r : Except JsError Unit) (w : World σ) :
    Prop :=
  Steady ref g a asked w ∧ r = .ok () ∨
    w.asked = asked ∧ (∃ e, r = .error e) ∧ ∃ a', Breaker ref g w a' ∧ a' failuresKey = a failuresKey

/-- Opening the circuit and throwing. -/
theorem run_openCircuit_throw {r : Except JsError Unit} {e : JsError}
    (h : Steady ref g a asked w) (hends : ∀ t ≤ w'.now, ∃ d, ResetEnds ref g t d)
    (hrun : Run (gatewayEnv port) w (g.openCircuit >>= fun _ => Proc.throw e) r w') :
    Checked ref g a asked r w' := by
  rcases run_bind_iff.mp hrun with ⟨_, w₁, hopen, hthrow⟩ | ⟨_, hopen, -⟩
  · obtain ⟨rfl, rfl⟩ := run_done_iff.mp hthrow
    obtain ⟨-, hasked, d, -, hbreaker⟩ := run_openCircuit h.breaker.toTracks hends hopen
    exact Or.inr ⟨hasked.trans h.asked_eq, ⟨e, rfl⟩, _, hbreaker,
      Function.update_of_ne openKey_ne_failuresKey.symm _ _⟩
  · obtain ⟨hok, -⟩ := run_openCircuit h.breaker.toTracks hends hopen
    exact absurd hok (by simp)

/-- A get of another key that is followed by a rest of the check. -/
theorem run_get_then {r : Except JsError Unit} {key : Text}
    {rest : Option Text → GatewayProc Unit} (hkey : key ∉ breakerKeys)
    (h : Steady ref g a asked w) (hrun : Run (gatewayEnv port) w (cacheGet key >>= rest) r w')
    (hrest : ∀ stored w₁, Steady ref g a asked w₁ →
      Run (gatewayEnv port) w₁ (rest stored) r w' → Checked ref g a asked r w') :
    Checked ref g a asked r w' := by
  have hkeeps : Keeps (gatewayEnv port) (Steady ref g a asked) (cacheGet key) := keeps_cache hkey
  rcases run_bind_iff.mp hrun with ⟨stored, w₁, hget, hrest'⟩ | ⟨e, hget, rfl⟩
  · exact hrest stored w₁ (hkeeps _ _ _ h hget) hrest'
  · have h' := hkeeps _ _ _ h hget
    exact Or.inr ⟨h'.asked_eq, ⟨e, rfl⟩, a, h'.breaker, rfl⟩

/-- **A check of the breaker** passes when the circuit is closed, and leaves the counter. -/
theorem run_checkCircuitBreaker {r : Except JsError Unit} (h : Breaker ref g w a)
    (hends : ∀ t ≤ w'.now, ∃ d, ResetEnds ref g t d)
    (hrun : Run (gatewayEnv port) w g.checkCircuitBreaker r w') :
    Checked ref g a w.asked r w' := by
  unfold GeminiAIGateway.checkCircuitBreaker at hrun
  rcases run_bind_iff.mp hrun with ⟨isOpen, w₁, hget, hrest⟩ | ⟨e, hget, rfl⟩
  · obtain ⟨now, hnow, hreply, rfl⟩ := run_cacheGet_iff.mp hget
    obtain ⟨hopen, htracks⟩ := h.toTracks.get_open hnow
    rw [hopen] at hreply
    cases hreply
    have hbreaker : Breaker ref g ⟨(port.perform w.cache now (.get openKey)).2, now, w.asked⟩ a :=
      ⟨htracks w.asked, fun n t ht => h.tripped n t (hnow.trans ht)⟩
    rcases h.toTracks.open_cases now with hnone | hsome
    · rw [hnone] at hrest
      have hsteady : Steady ref g a w.asked
          ⟨(port.perform w.cache now (.get openKey)).2, now, w.asked⟩ := ⟨hbreaker, hnone, rfl⟩
      -- the two totals lie under keys that are not the breaker's
      refine run_get_then costKey_notMem hsteady hrest fun cost w₂ h₂ hrun₂ => ?_
      dsimp only at hrun₂
      split at hrun₂
      · exact run_openCircuit_throw h₂ hends hrun₂
      · refine run_get_then tokensKey_notMem h₂ hrun₂ fun tokens w₃ h₃ hrun₃ => ?_
        split at hrun₃
        · exact run_openCircuit_throw h₃ hends hrun₃
        · obtain ⟨rfl, rfl⟩ := run_done_iff.mp hrun₃
          exact Or.inl ⟨h₃, rfl⟩
    · rw [hsome] at hrest
      obtain ⟨rfl, rfl⟩ := run_done_iff.mp hrest
      exact Or.inr ⟨rfl, ⟨_, rfl⟩, a, hbreaker, rfl⟩
  · obtain ⟨now, hnow, hreply, rfl⟩ := run_cacheGet_iff.mp hget
    rw [(h.toTracks.get_open hnow).1] at hreply
    exact absurd hreply (by simp)

/-- `recordSuccess` deletes the counter and leaves the circuit closed. -/
theorem run_recordSuccess {tokens cost : ℚ} {r : Except JsError Unit}
    (h : Steady ref g a asked w)
    (hrun : Run (gatewayEnv port) w (g.recordSuccess tokens cost) r w') :
    Steady ref g (Function.update a failuresKey none) asked w' := by
  have hdeleted : ∀ now, w.now ≤ now → Steady ref g (Function.update a failuresKey none) asked
      ⟨(port.perform w.cache now (.delete failuresKey)).2, now, w.asked⟩ := by
    intro now hnow
    refine ⟨h.breaker.delete_failures hnow _, ?_, h.asked_eq⟩
    show AbstractCache.live _ now openKey = none
    rw [live_update_of_ne openKey_ne_failuresKey]
    exact live_none_later h.closed hnow
  rcases run_bind_iff.mp hrun with ⟨_, w₁, hdelete, hrest⟩ | ⟨_, hdelete, -⟩
  · obtain ⟨now, hnow, -, rfl⟩ := run_cacheDelete_iff.mp hdelete
    refine Keeps.bind ?_ (fun _ => Keeps.bind ?_ fun _ => Keeps.bind ?_ fun _ => Keeps.bind ?_
      fun _ => ?_) _ _ _ (hdeleted now hnow) hrest
    · exact keeps_cache tokensKey_notMem
    · exact keeps_cache tokensKey_notMem
    · exact keeps_cache tokensKey_notMem
    · exact keeps_cache costKey_notMem
    · exact keeps_cache costKey_notMem
  · obtain ⟨now, hnow, -, rfl⟩ := run_cacheDelete_iff.mp hdelete
    exact hdeleted now hnow

variable (ref g) in
/-- The failure counter of `a` has gone up at `t`, and the circuit is open if it has reached the
threshold. -/
def CountedUp (a : AbstractCache) (t : ℕ) (w' : World σ) (a' : AbstractCache) : Prop :=
  a' failuresKey = some ⟨.counter (a.count t failuresKey).succPNat,
      a.counterDeadline ref.deadline t failuresKey (some g.resetSeconds)⟩ ∧
    (g.failureThreshold ≤ (a.count t failuresKey + 1 : ℕ) →
      ∃ d, ResetEnds ref g w'.now d ∧ a' openKey = some ⟨openCell, some d⟩)

/-- **`recordFailure`** counts up and establishes the invariant. -/
theorem run_recordFailure {r : Except JsError Unit} (h : Steady ref g a asked w)
    (hmax : g.failureThreshold ≤ 2 ^ 53 - 1) (hends : ∀ t ≤ w'.now, ∃ d, ResetEnds ref g t d)
    (hrun : Run (gatewayEnv port) w g.recordFailure r w') :
    r = .ok () ∧ w'.asked = asked ∧ ∃ t a', w.now ≤ t ∧ t ≤ w'.now ∧ Breaker ref g w' a' ∧
      CountedUp ref g a t w' a' := by
  have hcount : ∀ now, w.now ≤ now → now ≤ w'.now →
      (port.perform w.cache now (.increment failuresKey (some g.resetSeconds))).1 =
        .ok ((a.count now failuresKey + 1 : ℕ) : ℚ) ∧
      ∀ asked, Tracks ref g
        ⟨(port.perform w.cache now (.increment failuresKey (some g.resetSeconds))).2, now, asked⟩
        (a.write failuresKey (.counter (a.count now failuresKey).succPNat)
          (a.counterDeadline ref.deadline now failuresKey (some g.resetSeconds))) := by
    intro now hnow hle
    obtain ⟨d, hd⟩ := hends now hle
    refine h.breaker.increment_failures hnow hd fun n hlive => ?_
    have hlt : ((n : ℕ) : ℚ) + 1 < 2 ^ 53 :=
      lt_sub_iff_add_lt.mp ((h.breaker.lt_threshold h.closed hnow hlive).trans_le hmax)
    exact_mod_cast hlt
  rcases run_bind_iff.mp hrun with ⟨failures, w₁, hincrement, hrest⟩ | ⟨e, hincrement, -⟩
  · have hle := run_now_le hrest
    obtain ⟨now, hnow, hreply, rfl⟩ := run_cacheIncrement_iff.mp hincrement
    obtain ⟨hok, htracks⟩ := hcount now hnow hle
    rw [hok] at hreply
    obtain rfl := Except.ok.inj hreply
    split at hrest
    · obtain ⟨hr, hasked, d, hd, hbreaker⟩ := run_openCircuit (htracks w.asked) hends hrest
      refine ⟨hr, hasked.trans h.asked_eq, now, _, hnow, hle, hbreaker, ?_, fun _ => ⟨d, hd, ?_⟩⟩
      · rw [AbstractCache.write, Function.update_of_ne openKey_ne_failuresKey.symm]
        exact Function.update_self ..
      · exact Function.update_self ..
    · rename_i hbelow
      obtain ⟨rfl, rfl⟩ := run_done_iff.mp hrest
      refine ⟨rfl, h.asked_eq, now, _, hnow, le_rfl, ⟨htracks _, ?_⟩, Function.update_self ..,
        fun hge => absurd hge hbelow⟩
      intro n t _ hlive hge
      rw [live_write_self] at hlive
      split at hlive
      · obtain rfl := Cell.counter.inj (Option.some.inj hlive)
        exact absurd hge hbelow
      · exact absurd hlive (by simp)
  · have hle := run_now_le hincrement
    obtain ⟨now, hnow, hreply, rfl⟩ := run_cacheIncrement_iff.mp hincrement
    rw [(hcount now hnow le_rfl).1] at hreply
    exact absurd hreply (by simp)

variable (ref g) in
/-- **What a call can do.** It asks nothing and leaves the counter; or it asks the provider, and
then, if it throws and no answer came with usage, counts up. -/
def Outcome (a : AbstractCache) (w w' : World σ) (threw : Prop) : Prop :=
  (w'.asked = w.asked ∧ ∃ a', Breaker ref g w' a' ∧ a' failuresKey = a failuresKey) ∨
    ∃ answers, answers ≠ [] ∧ w'.asked = answers ++ w.asked ∧ ∃ a', Breaker ref g w' a' ∧
      (threw → (∀ answer ∈ answers, answer.usage = none) →
        ∃ t, w.now ≤ t ∧ t ≤ w'.now ∧ CountedUp ref g a t w' a')

variable (ref g) in
/-- The state after the provider has answered and before the call is over. -/
def Answered (a : AbstractCache) (asked : List Asked) (w : World σ) : Prop :=
  ∃ answers a', answers ≠ [] ∧ Steady ref g a' (answers ++ asked) w ∧
    ((∀ answer ∈ answers, answer.usage = none) → a' = a)

/-- Recording the usage of an answer. -/
theorem run_recordUsage {usage : Option UsageMetadata} {r : Except JsError Unit}
    (h : Steady ref g a asked w) (hrun : Run (gatewayEnv port) w (g.recordUsage usage) r w') :
    ∃ a', Steady ref g a' asked w' ∧ (usage = none → a' = a) := by
  cases usage with
  | none =>
    obtain ⟨-, rfl⟩ := run_done_iff.mp hrun
    exact ⟨a, h, fun _ => rfl⟩
  | some usage => exact ⟨_, run_recordSuccess h hrun, fun hnone => absurd hnone (by simp)⟩

/-- A `try` around a question to the provider, with the failure recorded in the `catch`. -/
theorem run_guarded {α : Type} {body : GatewayProc α} {r : Except JsError α}
    (h : Steady ref g a asked w) (hmax : g.failureThreshold ≤ 2 ^ 53 - 1)
    (hends : ∀ t ≤ w'.now, ∃ d, ResetEnds ref g t d)
    (hbody : ∀ r₁ w₁, Run (gatewayEnv port) w body r₁ w₁ → Answered ref g a asked w₁)
    (hrun : Run (gatewayEnv port) w
      (body.catchWith fun error => do g.recordFailure; Proc.throw error) r w') :
    Outcome ref g a w w' (∃ e, r = .error e) := by
  rcases run_catchWith_iff.mp hrun with ⟨v, hok, rfl⟩ | ⟨error, w₁, herror, hhandler⟩
  · obtain ⟨answers, a', hne, hsteady, -⟩ := hbody _ _ hok
    refine Or.inr ⟨answers, hne, hsteady.asked_eq.trans (by rw [h.asked_eq]), a', hsteady.breaker, ?_⟩
    rintro ⟨e, he⟩
    exact absurd he (by simp)
  · obtain ⟨answers, a₁, hne, hsteady, husage⟩ := hbody _ _ herror
    have hw₁ := run_now_le herror
    rcases run_bind_iff.mp hhandler with ⟨_, w₂, hrecord, hthrow⟩ | ⟨e, hrecord, -⟩
    · obtain ⟨-, rfl⟩ := run_done_iff.mp hthrow
      obtain ⟨-, hasked, t, a', ht, ht', hbreaker, hcounted⟩ :=
        run_recordFailure hsteady hmax hends hrecord
      refine Or.inr ⟨answers, hne, by rw [hasked, h.asked_eq], a', hbreaker, fun _ hnone =>
        ⟨t, hw₁.trans ht, ht', ?_⟩⟩
      rw [← husage hnone]
      exact hcounted
    · obtain ⟨hok, -⟩ := run_recordFailure hsteady hmax hends hrecord
      exact absurd hok (by simp)

/-- The methods that ask for one response. -/
theorem run_attempt {α : Type} {request : ModelRequest} {finish : ModelResponse → GatewayProc α}
    {r : Except JsError α} (h : Steady ref g a asked w) (hmax : g.failureThreshold ≤ 2 ^ 53 - 1)
    (hends : ∀ t ≤ w'.now, ∃ d, ResetEnds ref g t d)
    (hfinish : ∀ response a asked, Keeps (gatewayEnv port) (Steady ref g a asked) (finish response))
    (hrun : Run (gatewayEnv port) w (g.attempt request finish) r w') :
    Outcome ref g a w w' (∃ e, r = .error e) := by
  refine run_guarded h hmax hends ?_ hrun
  intro r₁ w₁ hbody
  rcases run_bind_iff.mp hbody with ⟨response, w₂, hask, hrest⟩ | ⟨e, hask, -⟩
  · obtain ⟨now, hnow, rfl⟩ := run_askModel_iff.mp hask
    have hasked := h.answered hnow (.content request (.ok response))
    rcases run_bind_iff.mp hrest with ⟨_, w₃, hrecord, hrest'⟩ | ⟨e, hrecord, -⟩
    · obtain ⟨a', hsteady, husage⟩ := run_recordUsage hasked hrecord
      exact ⟨[_], a', by simp, hfinish response a' _ _ _ _ hsteady hrest',
        fun hnone => husage (hnone (.content request (.ok response)) (List.mem_singleton_self _))⟩
    · obtain ⟨a', hsteady, husage⟩ := run_recordUsage hasked hrecord
      exact ⟨[_], a', by simp, hsteady,
        fun hnone => husage (hnone (.content request (.ok response)) (List.mem_singleton_self _))⟩
  · obtain ⟨now, hnow, rfl⟩ := run_askModel_iff.mp hask
    exact ⟨[_], a, by simp, h.answered hnow _, fun _ => rfl⟩

/-! ## The four methods -/

/-- The body of `generateStoryStream`. -/
theorem run_stream {request : ModelRequest} {startTime : ℕ} {r : Except JsError (List Text)}
    (h : Steady ref g a asked w)
    (hrun : Run (gatewayEnv port) w (do
      let result ← askStream request
      g.streamChunks startTime result.chunks
      Proc.done result.ending
      let usage ← awaitStreamResponse request
      g.recordUsage usage
      pure result.chunks) r w') : Answered ref g a asked w' := by
  rcases run_bind_iff.mp hrun with ⟨result, w₁, hask, hrest⟩ | ⟨e, hask, -⟩
  · obtain ⟨now, hnow, rfl⟩ := run_askStream_iff.mp hask
    have hasked := h.answered hnow (.stream request (.ok result))
    have hbroken : ∀ w₂, Steady ref g a (.stream request (.ok result) :: asked) w₂ →
        Answered ref g a asked w₂ := fun w₂ h₂ => ⟨[_], a, by simp, h₂, fun _ => rfl⟩
    rcases run_bind_iff.mp hrest with ⟨_, w₂, hchunks, hrest₂⟩ | ⟨e, hchunks, -⟩
    · have h₂ := keeps_streamChunks keeps_readClock _ _ _ _ _ hasked hchunks
      rcases run_bind_iff.mp hrest₂ with ⟨_, w₃, hend, hrest₃⟩ | ⟨e, hend, -⟩
      · obtain ⟨-, rfl⟩ := run_done_iff.mp hend
        -- only a stream that has ended has a response, with or without usage
        rcases run_bind_iff.mp hrest₃ with ⟨usage, w₄, husage, hrest₄⟩ | ⟨e, husage, -⟩
        · obtain ⟨now₄, hnow₄, rfl⟩ := run_awaitStreamResponse_iff.mp husage
          have h₄ := h₂.answered hnow₄ (.streamResponse request (.ok usage))
          have hended : ∀ w₅ l, (∃ a', Steady ref g a' (.streamResponse request (.ok usage) :: l) w₅ ∧
              (usage = none → a' = a)) → l = [.stream request (.ok result)] ++ asked →
              Answered ref g a asked w₅ := by
            rintro w₅ l ⟨a', hsteady, hnone⟩ rfl
            exact ⟨[.streamResponse request (.ok usage), .stream request (.ok result)], a', by simp,
              hsteady, fun h => hnone (h _ (List.mem_cons_self ..))⟩
          rcases run_bind_iff.mp hrest₄ with ⟨_, w₅, hrecord, hpure⟩ | ⟨e, hrecord, -⟩
          · obtain ⟨-, rfl⟩ := run_pure_iff.mp hpure
            exact hended _ _ (run_recordUsage h₄ hrecord) rfl
          · exact hended _ _ (run_recordUsage h₄ hrecord) rfl
        · obtain ⟨now₄, hnow₄, rfl⟩ := run_awaitStreamResponse_iff.mp husage
          exact ⟨[_, _], a, by simp, h₂.answered hnow₄ _, fun _ => rfl⟩
      · obtain ⟨-, rfl⟩ := run_done_iff.mp hend
        exact hbroken _ h₂
    · exact hbroken _ (keeps_streamChunks keeps_readClock _ _ _ _ _ hasked hchunks)
  · obtain ⟨now, hnow, rfl⟩ := run_askStream_iff.mp hask
    exact ⟨[_], a, by simp, h.answered hnow _, fun _ => rfl⟩

/-- Validating and caching a story does not touch the breaker. -/
theorem keeps_validateStory (input : GeminiAIGateway.StoryInput) (prompt : Text)
    (response : ModelResponse) :
    Keeps (gatewayEnv port) (Steady ref g a asked)
      (g.validateStory input (GeminiAIGateway.hashPrompt prompt) response) := by
  refine Keeps.catchWith ?_ fun e => keeps_done _
  refine (keeps_done _).bind fun rawData => (keeps_done _).bind fun data => ?_
  refine Keeps.bind ?_ fun _ => keeps_done _
  exact keeps_cache (hashPrompt_notMem prompt)

/-- A call that ends before the provider is asked. -/
theorem Outcome.of_idle {threw : Prop} (h : Breaker ref g w' a) (hasked : w'.asked = w.asked) :
    Outcome ref g a w w' threw := Or.inl ⟨hasked, a, h, rfl⟩

/-- What happened before the provider was asked belongs to the call. -/
theorem Outcome.since {threw : Prop} {w₁ : World σ} (h : Outcome ref g a w₁ w' threw)
    (hnow : w.now ≤ w₁.now) (hasked : w₁.asked = w.asked) : Outcome ref g a w w' threw := by
  unfold Outcome at h ⊢
  rw [hasked] at h
  refine h.imp_right ?_
  rintro ⟨answers, hne, hgrown, a', hbreaker, hcounted⟩
  refine ⟨answers, hne, hgrown, a', hbreaker, fun hthrew hnone => ?_⟩
  obtain ⟨t, ht, ht', hup⟩ := hcounted hthrew hnone
  exact ⟨t, hnow.trans ht, ht', hup⟩

/-- Reading another key. -/
theorem Breaker.run_get {key : Text} {r : Except JsError (Option Text)} (h : Breaker ref g w a)
    (hkey : key ∉ breakerKeys) (hrun : Run (gatewayEnv port) w (cacheGet key) r w') :
    Breaker ref g w' a ∧ w'.asked = w.asked := by
  obtain ⟨now, hnow, -, rfl⟩ := run_cacheGet_iff.mp hrun
  have hop : (CacheOp.get key).key ∉ breakerKeys := hkey
  exact ⟨h.frame hop hnow _, rfl⟩

/-- The outcome of a check and of what follows it. -/
theorem run_checked {α : Type} {rest : GatewayProc α} {r : Except JsError α}
    (h : Breaker ref g w a) (hends : ∀ t ≤ w'.now, ∃ d, ResetEnds ref g t d)
    (hrest : ∀ w₁, Steady ref g a w.asked w₁ → Run (gatewayEnv port) w₁ rest r w' →
      Outcome ref g a w₁ w' (∃ e, r = .error e))
    (hrun : Run (gatewayEnv port) w (g.checkCircuitBreaker >>= fun _ => rest) r w') :
    Outcome ref g a w w' (∃ e, r = .error e) := by
  rcases run_bind_iff.mp hrun with ⟨_, w₁, hcheck, hrest'⟩ | ⟨e, hcheck, rfl⟩
  · have hle := run_now_le hrest'
    have hends₁ : ∀ t ≤ w₁.now, ∃ d, ResetEnds ref g t d := fun t ht => hends t (ht.trans hle)
    rcases run_checkCircuitBreaker h hends₁ hcheck with ⟨hsteady, -⟩ | ⟨-, ⟨e, he⟩, -⟩
    · exact (hrest w₁ hsteady hrest').since (run_now_le hcheck) hsteady.asked_eq
    · exact absurd he (by simp)
  · rcases run_checkCircuitBreaker h hends hcheck with ⟨-, hok⟩ | ⟨hasked, -, hbreaker⟩
    · exact absurd hok (by simp)
    · exact Or.inl ⟨hasked, hbreaker⟩

/-- **The outcome of a call**, for all four methods. -/
theorem run_call {call : GatewayCall} {r : Except JsError call.Result} (h : Breaker ref g w a)
    (hmax : g.failureThreshold ≤ 2 ^ 53 - 1) (hends : ∀ t ≤ w'.now, ∃ d, ResetEnds ref g t d)
    (hrun : Run (gatewayEnv port) w (call.run g) r w') :
    Outcome ref g a w w' (∃ e, r = .error e) := by
  by_cases hclient : g.hasClient = true
  case neg =>
    have hthrow : call.run g = Proc.throw GeminiAIGateway.notConfigured := by
      cases call <;> exact if_neg hclient
    rw [hthrow] at hrun
    obtain ⟨rfl, rfl⟩ := run_done_iff.mp hrun
    exact .of_idle h rfl
  cases call with
  | generateStory input =>
    rw [GatewayCall.run, GeminiAIGateway.generateStory, if_pos hclient] at hrun
    split at hrun
    · obtain ⟨rfl, rfl⟩ := run_done_iff.mp hrun
      exact .of_idle h rfl
    · rename_i prompt _
      rcases run_bind_iff.mp hrun with ⟨cachedJson, w₁, hget, hrest⟩ | ⟨e, hget, rfl⟩
      · obtain ⟨hbreaker, hasked⟩ := h.run_get (hashPrompt_notMem prompt) hget
        split at hrest
        · obtain ⟨rfl, rfl⟩ := run_done_iff.mp hrest
          exact .of_idle hbreaker hasked
        · refine (run_checked hbreaker hends (fun w₂ h₂ hrun₂ => ?_) hrest).since
            (run_now_le hget) hasked
          exact run_attempt h₂ hmax hends
            (fun response _ _ => keeps_validateStory input prompt response) hrun₂
      · obtain ⟨hbreaker, hasked⟩ := h.run_get (hashPrompt_notMem prompt) hget
        exact .of_idle hbreaker hasked
  | generateStoryStream input =>
    rw [GatewayCall.run, GeminiAIGateway.generateStoryStream, if_pos hclient] at hrun
    refine run_checked h hends (fun w₁ h₁ hrun₁ => ?_) hrun
    split at hrun₁
    · obtain ⟨rfl, rfl⟩ := run_done_iff.mp hrun₁
      exact .of_idle h₁.breaker rfl
    · rcases run_bind_iff.mp hrun₁ with ⟨startTime, w₂, hclock, hrest⟩ | ⟨e, hclock, rfl⟩
      · have h₂ := keeps_readClock _ _ _ h₁ hclock
        refine (run_guarded h₂ hmax hends (fun r₃ w₃ hbody => ?_) hrest).since
          (run_now_le hclock) (h₂.asked_eq.trans h₁.asked_eq.symm)
        exact run_stream h₂ hbody
      · have h₂ := keeps_readClock _ _ _ h₁ hclock
        exact .of_idle h₂.breaker (h₂.asked_eq.trans h₁.asked_eq.symm)
  | generateAgentThought input =>
    rw [GatewayCall.run, GeminiAIGateway.generateAgentThought, if_pos hclient] at hrun
    refine run_checked h hends (fun w₁ h₁ hrun₁ => ?_) hrun
    exact run_attempt h₁ hmax hends
      (fun response _ _ => (keeps_done _).bind fun _ => keeps_done _) hrun₁
  | generateStructured input =>
    rw [GatewayCall.run, GeminiAIGateway.generateStructured, if_pos hclient] at hrun
    refine run_checked h hends (fun w₁ h₁ hrun₁ => ?_) hrun
    exact run_attempt h₁ hmax hends (fun response _ _ => keeps_done _) hrun₁

end Invariant

end DreamWeaver.Gateway
