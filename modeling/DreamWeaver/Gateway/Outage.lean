import DreamWeaver.Gateway.CircuitBreaker
import DreamWeaver.Cache.InMemoryCache

/-! # Outages

An outage is a streak of calls that ask the provider and throw, within the life of the failure
counter and as many as the threshold. If none of the answers came with usage, the circuit is open
when the streak ends and stays open for the reset time; an answer with usage that is then refused
hides the outage. -/

namespace DreamWeaver.Gateway

open Cache Proc

variable {σ : Type} {port : CachePort σ}

/-! ## Streaks of failing calls -/

/-- A call that asks the provider and throws; `answers` is what the provider answered. -/
def FailedCall (g : GeminiAIGateway) (port : CachePort σ) (answers : List Asked)
    (w w' : World σ) : Prop :=
  ∃ (call : GatewayCall) (e : JsError), Run (gatewayEnv port) w (call.run g) (.error e) w' ∧
    answers ≠ [] ∧ w'.asked = answers ++ w.asked

/-- A call that does not reach the provider. -/
def IdleCall (g : GeminiAIGateway) (port : CachePort σ) (w w' : World σ) : Prop :=
  Call g port w w' ∧ w'.asked = w.asked

/-- Calls that all throw if they reach the provider; `streak` is what each of these was answered. -/
inductive FailingStreak (g : GeminiAIGateway) (port : CachePort σ) :
    List (List Asked) → World σ → World σ → Prop
  | start (w : World σ) : FailingStreak g port [] w w
  | idle {streak : List (List Asked)} {w w₁ w₂ : World σ} (h : FailingStreak g port streak w w₁)
      (hidle : IdleCall g port w₁ w₂) : FailingStreak g port streak w w₂
  | failed {streak : List (List Asked)} {answers : List Asked} {w w₁ w₂ : World σ}
      (h : FailingStreak g port streak w w₁) (hfailed : FailedCall g port answers w₁ w₂) :
      FailingStreak g port (answers :: streak) w w₂

/-- What one more failure would count up to, at a time. -/
def nextFailure (port : CachePort σ) (s : σ) (t : ℕ) : Except JsError ℚ :=
  (port.perform s t (.increment failuresKey none)).1

/-- **An outage**: as many failing calls in a row as the threshold, in a window in which neither
the counter that was there before nor one created in it ends. -/
structure Outage (ref : CacheRefinement port) (g : GeminiAIGateway) (streak : List (List Asked))
    (w w' : World σ) : Prop where
  reached : ∃ t, Calls g port (World.initial port t) w
  failing : ∃ answers earlier w₁, streak = answers :: earlier ∧
    FailingStreak g port earlier w w₁ ∧ FailedCall g port answers w₁ w'
  enough : g.failureThreshold ≤ streak.length
  in_window : ∀ d, ResetEnds ref g w.now d → (w'.now : ℚ) ≤ d
  counter_stays : nextFailure port w.cache w'.now = nextFailure port w.cache w.now

/-- A call that no cached story answers until a time. -/
def GatewayCall.Uncached (port : CachePort σ) (w : World σ) (latest : ℕ) : GatewayCall → Prop
  | .generateStory input => ∀ prompt, truthyText input.customPrompt = some prompt →
      ∀ t text, w.now ≤ t → t ≤ latest →
        (port.perform w.cache t (.get (GeminiAIGateway.hashPrompt prompt))).1 = .ok (some text) →
          text = []
  | _ => True

/-- **The circuit is open until `d`**: the flag is there, and calls are rejected without reaching
the provider. -/
structure Blocked (g : GeminiAIGateway) (port : CachePort σ) (w : World σ) (d : ℚ) : Prop where
  flag : ∀ t, w.now ≤ t → (t : ℚ) ≤ d →
    (port.perform w.cache t (.get openKey)).1 = .ok (some (lit "true"))
  rejects : ∀ (w₁ w₂ : World σ) (call : GatewayCall) (r : Except JsError call.Result),
    Calls g port w w₁ → Run (gatewayEnv port) w₁ (call.run g) r w₂ → (w₂.now : ℚ) ≤ d →
      w₂.asked = w.asked ∧ (call.Uncached port w₁ w₂.now → ∃ e, r = .error e)

/-! ## The invariant along a run -/

variable {ref : CacheRefinement port} {g : GeminiAIGateway} {w w' : World σ} {a a' : AbstractCache}
  {t t' : ℕ} {d : ℚ}

/-- The invariant holds at first. -/
theorem breaker_initial (now : ℕ) : Breaker ref g (World.initial port now) fun _ => none where
  rel := ref.rel_initial _ _
  open_value entry hentry := absurd hentry (by simp)
  failures_counter entry hentry := absurd hentry (by simp)
  tripped n t _ hlive := absurd hlive (by simp [AbstractCache.live])

/-- One call keeps the invariant. -/
theorem Outcome.breaker {threw : Prop} (h : Outcome ref g a w w' threw) :
    ∃ a', Breaker ref g w' a' := by
  rcases h with ⟨-, a', hbreaker, -⟩ | ⟨answers, -, -, a', hbreaker, -⟩
  · exact ⟨a', hbreaker⟩
  · exact ⟨a', hbreaker⟩

/-- **The invariant holds after every sequence of calls.** -/
theorem breaker_reached (hmax : g.failureThreshold ≤ 2 ^ 53 - 1)
    (h : Calls g port (World.initial port t) w) :
    (∀ t ≤ w.now, ∃ d, ResetEnds ref g t d) → ∃ a, Breaker ref g w a := by
  induction h with
  | refl => exact fun _ => ⟨_, breaker_initial t⟩
  | tail _ hlast ih =>
    intro hends
    obtain ⟨call, r, hrun⟩ := hlast
    obtain ⟨a, hbreaker⟩ := ih fun t ht => hends t (ht.trans (run_now_le hrun))
    exact (run_call hbreaker hmax hends hrun).breaker

/-! ## Counting along a streak -/

/-- A counter does not grow by itself. -/
theorem count_antitone {key : Text} (h : t ≤ t') : a.count t' key ≤ a.count t key := by
  unfold AbstractCache.count
  cases hlive : a.live t' key with
  | none => exact Nat.zero_le _
  | some cell => rw [live_of_live_later hlive h]

/-- A key that is left alone keeps its count. -/
theorem count_congr {key : Text} (h : a' key = a key) : a'.count t key = a.count t key := by
  unfold AbstractCache.count AbstractCache.live
  rw [h]

variable (ref g) in
/-- At least `k` failures are counted, in a counter that is there until `latest`. -/
def Piled (k latest : ℕ) (w : World σ) : Prop :=
  ∃ a, Breaker ref g w a ∧ a.count latest failuresKey = a.count w.now failuresKey ∧
    k ≤ a.count latest failuresKey

/-- A counter that goes up in the window stays until the end of the window. -/
theorem count_countedUp {latest : ℕ} (h : Tracks ref g w a) (hup : CountedUp ref g a t w' a')
    (hd : ∀ d, ResetEnds ref g t d → (latest : ℚ) ≤ d) (hends : ∃ d, ResetEnds ref g t d)
    (hstays : a.count latest failuresKey = a.count t failuresKey) (ht' : t' ≤ latest) :
    a'.count t' failuresKey = a.count t failuresKey + 1 := by
  obtain ⟨hentry, -⟩ := hup
  have hwithin : Within (a.counterDeadline ref.deadline t failuresKey (some g.resetSeconds))
      latest = true := by
    cases hlive : a.live t failuresKey with
    | none =>
      obtain ⟨d, hresets⟩ := hends
      rw [AbstractCache.counterDeadline, hlive]
      show Within (expiryOf ref.deadline t (some g.resetSeconds)) latest = true
      rw [show expiryOf ref.deadline t (some g.resetSeconds) = some d from hresets]
      simpa [Within] using hd d hresets
    | some cell =>
      cases cell with
      | value text => exact absurd hlive (h.failuresKey_ne_value text)
      | counter n =>
        rw [within_counterDeadline hlive]
        by_contra hgone
        have hzero : a.count latest failuresKey = 0 := by
          rw [AbstractCache.count, Option.not_isSome_iff_eq_none.mp hgone]
        have hcount : a.count t failuresKey = n := by rw [AbstractCache.count, hlive]
        rw [hzero, hcount] at hstays
        exact absurd hstays.symm n.ne_zero
  have hlive' : a'.live t' failuresKey = some (.counter (a.count t failuresKey).succPNat) :=
    live_eq_some_iff.mpr ⟨_, hentry, within_of_later hwithin ht', rfl⟩
  rw [AbstractCache.count, hlive']
  rfl

/-- A call that asked nothing left the counter. -/
theorem Outcome.of_asked_eq {threw : Prop} (h : Outcome ref g a w w' threw)
    (hasked : w'.asked = w.asked) : ∃ a', Breaker ref g w' a' ∧ a' failuresKey = a failuresKey := by
  rcases h with ⟨-, hleft⟩ | ⟨answers, hne, hgrown, -⟩
  · exact hleft
  · rw [hasked] at hgrown
    exact absurd (List.self_eq_append_left.mp hgrown) hne

/-- A call that was answered without usage and threw counted up. -/
theorem Outcome.of_failed {threw : Prop} {answers : List Asked} (h : Outcome ref g a w w' threw)
    (hthrew : threw) (hne : answers ≠ []) (hasked : w'.asked = answers ++ w.asked)
    (husage : ∀ answer ∈ answers, answer.usage = none) :
    ∃ t a', w.now ≤ t ∧ t ≤ w'.now ∧ Breaker ref g w' a' ∧ CountedUp ref g a t w' a' := by
  rcases h with ⟨hsame, -⟩ | ⟨answers', -, hgrown, a', hbreaker, hcounted⟩
  · rw [hsame] at hasked
    exact absurd (List.self_eq_append_left.mp hasked) hne
  · obtain rfl : answers' = answers := List.append_cancel_right (hgrown.symm.trans hasked)
    obtain ⟨t, ht, ht', hup⟩ := hcounted hthrew husage
    exact ⟨t, a', ht, ht', hbreaker, hup⟩

/-- A streak does not go back in time. -/
theorem FailingStreak.now_le {streak : List (List Asked)} (h : FailingStreak g port streak w w') :
    w.now ≤ w'.now := by
  induction h with
  | start w => exact le_rfl
  | idle _ hidle ih =>
    obtain ⟨⟨call, r, hrun⟩, -⟩ := hidle
    exact ih.trans (run_now_le hrun)
  | failed _ hfailed ih =>
    obtain ⟨call, e, hrun, -⟩ := hfailed
    exact ih.trans (run_now_le hrun)

/-- One failing call in the window: the counter goes up and stays. -/
theorem Piled.failed {answers : List Asked} {k latest : ℕ} {start : World σ}
    (h : Piled ref g k latest w) (hfailed : FailedCall g port answers w w')
    (hmax : g.failureThreshold ≤ 2 ^ 53 - 1) (hstart : start.now ≤ w.now)
    (hd : ∀ d, ResetEnds ref g start.now d → (latest : ℚ) ≤ d)
    (hends : ∀ t ≤ latest, ∃ d, ResetEnds ref g t d) (hlatest : w'.now ≤ latest)
    (husage : ∀ answer ∈ answers, answer.usage = none) :
    Piled ref g (k + 1) latest w' ∧ ∃ a t a', k ≤ a.count t failuresKey ∧ Breaker ref g w' a' ∧
      CountedUp ref g a t w' a' := by
  obtain ⟨a, hbreaker, hstays, hk⟩ := h
  obtain ⟨call, e, hrun, hne, hasked⟩ := hfailed
  obtain ⟨t, a', ht, ht', hbreaker', hup⟩ :=
    (run_call hbreaker hmax (fun t ht => hends t (ht.trans hlatest)) hrun).of_failed ⟨e, rfl⟩ hne
      hasked husage
  -- between the call's start and the end of the window the count is one and the same
  have hcount : a.count latest failuresKey = a.count t failuresKey :=
    le_antisymm (count_antitone (ht'.trans hlatest)) (hstays ▸ count_antitone ht)
  have hdeadline : ∀ d, ResetEnds ref g t d → (latest : ℚ) ≤ d := by
    intro d hresets
    obtain ⟨d₀, hd₀⟩ := hends start.now ((hstart.trans (run_now_le hrun)).trans hlatest)
    exact (hd d₀ hd₀).trans (hd₀.mono hresets (hstart.trans ht))
  have hup' : ∀ t' ≤ latest, a'.count t' failuresKey = a.count t failuresKey + 1 := fun t' hle =>
    count_countedUp hbreaker.toTracks hup hdeadline (hends t (ht'.trans hlatest)) hcount hle
  refine ⟨⟨a', hbreaker', ?_, ?_⟩, a, t, a', hcount ▸ hk, hbreaker', hup⟩
  · rw [hup' latest le_rfl, hup' w'.now hlatest]
  · rw [hup' latest le_rfl, ← hcount]
    exact Nat.succ_le_succ hk

/-- **A streak piles up failures** until the end of the window. -/
theorem FailingStreak.piled {streak : List (List Asked)} {latest : ℕ}
    (h : FailingStreak g port streak w w') (hmax : g.failureThreshold ≤ 2 ^ 53 - 1)
    (hd : ∀ d, ResetEnds ref g w.now d → (latest : ℚ) ≤ d)
    (hends : ∀ t ≤ latest, ∃ d, ResetEnds ref g t d)
    (husage : ∀ answers ∈ streak, ∀ answer ∈ answers, answer.usage = none)
    (hstart : Piled ref g 0 latest w) (hlatest : w'.now ≤ latest) :
    Piled ref g streak.length latest w' := by
  induction h with
  | start w => exact hstart
  | @idle streak w w₁ w₂ _ hidle ih =>
    obtain ⟨⟨call, r, hrun⟩, hasked⟩ := hidle
    have hw₁ : w₁.now ≤ latest := (run_now_le hrun).trans hlatest
    obtain ⟨a, hbreaker, hstays, hk⟩ := ih hd husage hstart hw₁
    obtain ⟨a', hbreaker', hsame⟩ :=
      (run_call hbreaker hmax (fun t ht => hends t (ht.trans hlatest)) hrun).of_asked_eq hasked
    refine ⟨a', hbreaker', ?_, by rwa [count_congr hsame]⟩
    rw [count_congr hsame, count_congr hsame]
    exact le_antisymm (count_antitone hlatest) (hstays ▸ count_antitone (run_now_le hrun))
  | @failed streak answers w w₁ w₂ hstreak hfailed ih =>
    have hw₁ : w₁.now ≤ latest := by
      obtain ⟨call, e, hrun, -⟩ := hfailed
      exact (run_now_le hrun).trans hlatest
    have hpiled := ih hd (fun l hl => husage l (List.mem_cons_of_mem _ hl)) hstart hw₁
    exact (hpiled.failed hfailed hmax hstreak.now_le hd hends hlatest
      (husage answers (List.mem_cons_self ..))).1

/-! ## The open circuit -/

/-- What one more failure would count up to, in the abstract cache. -/
theorem nextFailure_eq (h : Tracks ref g w a) (ht : w.now ≤ t) :
    nextFailure port w.cache t = .ok ((a.count t failuresKey + 1 : ℕ) : ℚ) := by
  have hallowed : Allowed ref.deadline a t (.increment failuresKey none) := by
    refine ⟨fun text => h.failuresKey_ne_value text, fun n hlive => ?_, ?_⟩
    · obtain ⟨entry, hentry, -, hcell⟩ := live_eq_some_iff.mp hlive
      obtain ⟨m, t₀, d₀, rfl, hm, -⟩ := h.failures_counter entry hentry
      obtain rfl : m = n := Cell.counter.inj hcell
      exact hm
    · rintro _ ⟨⟩
  have hkey : (CacheOp.increment failuresKey none).key ∈ breakerKeys := failuresKey_mem
  exact ref.reply_eq (ref.rel_later h.rel ht) hkey hallowed

/-- While the flag is there, a check of the breaker throws. -/
theorem run_check_open {r : Except JsError Unit} (h : Tracks ref g w a)
    (hopen : a openKey = some ⟨openCell, some d⟩) (hd : (w'.now : ℚ) ≤ d)
    (hrun : Run (gatewayEnv port) w g.checkCircuitBreaker r w') :
    r = .error circuitOpenError ∧ Tracks ref g w' a ∧ w'.asked = w.asked := by
  have hlive : ∀ now, now ≤ w'.now → a.live now openKey = some openCell := by
    intro now hnow
    have hle : (now : ℚ) ≤ d := le_trans (by exact_mod_cast hnow) hd
    exact live_eq_some_iff.mpr ⟨_, hopen, by simpa [Within] using hle, rfl⟩
  rcases run_bind_iff.mp hrun with ⟨isOpen, w₁, hget, hrest⟩ | ⟨e, hget, rfl⟩
  · have hle := run_now_le hrest
    obtain ⟨now, hnow, hreply, rfl⟩ := run_cacheGet_iff.mp hget
    obtain ⟨hflag, htracks⟩ := h.get_open hnow
    rw [hflag, hlive now hle] at hreply
    cases hreply
    obtain ⟨rfl, rfl⟩ := run_done_iff.mp hrest
    exact ⟨rfl, htracks _, rfl⟩
  · obtain ⟨now, hnow, hreply, rfl⟩ := run_cacheGet_iff.mp hget
    rw [(h.get_open hnow).1] at hreply
    exact absurd hreply (by simp)

/-- A check that throws ends what it guards. -/
theorem run_checked_open {α : Type} {rest : GatewayProc α} {r : Except JsError α}
    (h : Tracks ref g w a) (hopen : a openKey = some ⟨openCell, some d⟩) (hd : (w'.now : ℚ) ≤ d)
    (hrun : Run (gatewayEnv port) w (g.checkCircuitBreaker >>= fun _ => rest) r w') :
    (Tracks ref g w' a ∧ w'.asked = w.asked) ∧ ∃ e, r = .error e := by
  rcases run_bind_iff.mp hrun with ⟨_, w₁, hcheck, hrest⟩ | ⟨e, hcheck, rfl⟩
  · have hle : (w₁.now : ℚ) ≤ d := le_trans (by exact_mod_cast run_now_le hrest) hd
    obtain ⟨hthrew, -⟩ := run_check_open h hopen hle hcheck
    exact absurd hthrew (by simp)
  · exact ⟨(run_check_open h hopen hd hcheck).2, e, rfl⟩

/-- **While the flag is there, no call reaches the provider**, and uncached calls throw. -/
theorem run_call_open {call : GatewayCall} {r : Except JsError call.Result} (h : Tracks ref g w a)
    (hopen : a openKey = some ⟨openCell, some d⟩) (hd : (w'.now : ℚ) ≤ d)
    (hrun : Run (gatewayEnv port) w (call.run g) r w') :
    (Tracks ref g w' a ∧ w'.asked = w.asked) ∧
      (call.Uncached port w w'.now → ∃ e, r = .error e) := by
  by_cases hclient : g.hasClient = true
  case neg =>
    have hthrow : call.run g = Proc.throw GeminiAIGateway.notConfigured := by
      cases call <;> exact if_neg hclient
    rw [hthrow] at hrun
    obtain ⟨rfl, rfl⟩ := run_done_iff.mp hrun
    exact ⟨⟨h, rfl⟩, fun _ => ⟨_, rfl⟩⟩
  cases call with
  | generateStory input =>
    rw [GatewayCall.run, GeminiAIGateway.generateStory, if_pos hclient] at hrun
    split at hrun
    · obtain ⟨rfl, rfl⟩ := run_done_iff.mp hrun
      exact ⟨⟨h, rfl⟩, fun _ => ⟨_, rfl⟩⟩
    · rename_i prompt hprompt
      have hkey : (CacheOp.get (GeminiAIGateway.hashPrompt prompt)).key ∉ breakerKeys :=
        hashPrompt_notMem prompt
      rcases run_bind_iff.mp hrun with ⟨cachedJson, w₁, hget, hrest⟩ | ⟨e, hget, rfl⟩
      · have hle := run_now_le hrest
        obtain ⟨now, hnow, hreply, rfl⟩ := run_cacheGet_iff.mp hget
        have htracks := h.frame hkey hnow w.asked
        split at hrest
        · rename_i text htext
          obtain ⟨rfl, rfl⟩ := run_done_iff.mp hrest
          -- a non-empty cached text contradicts that the call is uncached
          refine ⟨⟨htracks, rfl⟩, fun huncached => ?_⟩
          obtain ⟨hcached, hne⟩ := Option.filter_eq_some_iff.mp htext
          subst hcached
          have hempty := huncached prompt hprompt now text hnow le_rfl hreply.symm
          exact absurd hne (by simp [hempty])
        · obtain ⟨hsame, hthrew⟩ := run_checked_open htracks hopen hd hrest
          exact ⟨hsame, fun _ => hthrew⟩
      · obtain ⟨now, hnow, -, rfl⟩ := run_cacheGet_iff.mp hget
        exact ⟨⟨h.frame hkey hnow w.asked, rfl⟩, fun _ => ⟨e, rfl⟩⟩
  | generateStoryStream input =>
    rw [GatewayCall.run, GeminiAIGateway.generateStoryStream, if_pos hclient] at hrun
    obtain ⟨hsame, hthrew⟩ := run_checked_open h hopen hd hrun
    exact ⟨hsame, fun _ => hthrew⟩
  | generateAgentThought input =>
    rw [GatewayCall.run, GeminiAIGateway.generateAgentThought, if_pos hclient] at hrun
    obtain ⟨hsame, hthrew⟩ := run_checked_open h hopen hd hrun
    exact ⟨hsame, fun _ => hthrew⟩
  | generateStructured input =>
    rw [GatewayCall.run, GeminiAIGateway.generateStructured, if_pos hclient] at hrun
    obtain ⟨hsame, hthrew⟩ := run_checked_open h hopen hd hrun
    exact ⟨hsame, fun _ => hthrew⟩

/-- **A set flag blocks** until its deadline. -/
theorem blocked_of_open (h : Tracks ref g w a) (hopen : a openKey = some ⟨openCell, some d⟩) :
    Blocked g port w d where
  flag t ht hd := by
    have hlive : a.live t openKey = some openCell :=
      live_eq_some_iff.mpr ⟨_, hopen, by simpa [Within] using hd, rfl⟩
    rw [(h.get_open ht).1, hlive]
    rfl
  rejects w₁ w₂ call r hcalls hrun hd := by
    have hstill : (w₁.now : ℚ) ≤ d → Tracks ref g w₁ a ∧ w₁.asked = w.asked := by
      clear hrun hd
      induction hcalls with
      | refl => exact fun _ => ⟨h, rfl⟩
      | tail _ hlast ih =>
        intro hd
        obtain ⟨call, r, hrun⟩ := hlast
        obtain ⟨htracks, hasked⟩ := ih (le_trans (by exact_mod_cast run_now_le hrun) hd)
        obtain ⟨⟨htracks', hasked'⟩, -⟩ := run_call_open htracks hopen hd hrun
        exact ⟨htracks', hasked'.trans hasked⟩
    obtain ⟨htracks, hasked⟩ := hstill (le_trans (by exact_mod_cast run_now_le hrun) hd)
    obtain ⟨⟨-, hasked'⟩, hthrew⟩ := run_call_open htracks hopen hd hrun
    exact ⟨hasked'.trans hasked, hthrew⟩

/-- **An outage without usage opens the circuit** for the reset time: the adapter has to accept the
reset time as a time to live, and the threshold has to be a safe integer. -/
theorem outage_blocks {ref : CacheRefinement port} {g : GeminiAIGateway}
    {streak : List (List Asked)} {w w' : World σ} (houtage : Outage ref g streak w w')
    (hmax : g.failureThreshold ≤ 2 ^ 53 - 1) (hends : ∀ t ≤ w'.now, ∃ d, ResetEnds ref g t d)
    (husage : ∀ answers ∈ streak, ∀ answer ∈ answers, answer.usage = none) :
    ∃ d, ResetEnds ref g w'.now d ∧ Blocked g port w' d := by
  obtain ⟨t₀, hcalls⟩ := houtage.reached
  obtain ⟨answers, earlier, w₁, rfl, hstreak, hfailed⟩ := houtage.failing
  have hw₁ : w₁.now ≤ w'.now := by
    obtain ⟨call, e, hrun, -⟩ := hfailed
    exact run_now_le hrun
  have hw : w.now ≤ w'.now := hstreak.now_le.trans hw₁
  obtain ⟨a, hbreaker⟩ := breaker_reached hmax hcalls fun t ht => hends t (ht.trans hw)
  have hstart : Piled ref g 0 w'.now w := by
    refine ⟨a, hbreaker, ?_, Nat.zero_le _⟩
    have hsame := houtage.counter_stays
    rw [nextFailure_eq hbreaker.toTracks hw, nextFailure_eq hbreaker.toTracks le_rfl] at hsame
    have hcast : a.count w'.now failuresKey + 1 = a.count w.now failuresKey + 1 := by
      exact_mod_cast Except.ok.inj hsame
    exact Nat.succ.inj hcast
  have hpiled := hstreak.piled hmax houtage.in_window hends
    (fun l hl => husage l (List.mem_cons_of_mem _ hl)) hstart hw₁
  -- the last call of the streak counts up to the threshold at least, and so opens the circuit
  obtain ⟨-, b, t, a', hk, hbreaker', hup⟩ := hpiled.failed hfailed hmax hstreak.now_le
    houtage.in_window hends le_rfl (husage answers (List.mem_cons_self ..))
  have hreached : g.failureThreshold ≤ ((b.count t failuresKey + 1 : ℕ) : ℚ) := by
    refine houtage.enough.trans ?_
    exact_mod_cast Nat.succ_le_succ hk
  obtain ⟨d, hd, hopen⟩ := hup.2 hreached
  exact ⟨d, hd, blocked_of_open hbreaker'.toTracks hopen⟩

/-! ## Two outages on the in-memory adapter -/

/-- A call for structured output. -/
def structuredCall : GatewayCall := .generateStructured ⟨none, lit "Moon", .null⟩

/-- The provider is not available. -/
def unavailable : Except JsError ModelResponse := .error (plainError (lit "Service Unavailable"))

/-- An empty response with usage. -/
def meteredNothing : Except JsError ModelResponse := .ok ⟨[], some ⟨some 1, some 1, some 2⟩⟩

/-- The same call `n` times, with the same answer each time. -/
def afterCalls (answer : Except JsError ModelResponse) : ℕ → World InMemoryCache
  | 0 => World.initial InMemoryCache.port 0
  | n + 1 => (exec (steadyWorld InMemoryCache.port fun _ => answer) (afterCalls answer n)
      (structuredCall.run defaultGateway)).2

/-- Call `n` throws and asks the provider. -/
def throwsAt (answer : Except JsError ModelResponse) (n : ℕ) : Bool :=
  !(exec (steadyWorld InMemoryCache.port fun _ => answer) (afterCalls answer n)
      (structuredCall.run defaultGateway)).1.isOk &&
    (afterCalls answer (n + 1)).asked.length == n + 1

/-- A call of the sequence. -/
theorem run_afterCalls (answer : Except JsError ModelResponse) (n : ℕ) :
    Run (gatewayEnv InMemoryCache.port) (afterCalls answer n) (structuredCall.run defaultGateway)
      (exec (steadyWorld InMemoryCache.port fun _ => answer) (afterCalls answer n)
        (structuredCall.run defaultGateway)).1 (afterCalls answer (n + 1)) :=
  run_exec (gatewayEnv_steadyWorld _) _ _

/-- A call that throws and asks is a failing call. -/
theorem failedCall_of_throwsAt {answer : Except JsError ModelResponse} {n : ℕ}
    (h : throwsAt answer n = true) (hbefore : (afterCalls answer n).asked.length = n) :
    ∃ answers, FailedCall defaultGateway InMemoryCache.port answers (afterCalls answer n)
      (afterCalls answer (n + 1)) := by
  simp only [throwsAt, Bool.and_eq_true, Bool.not_eq_true', beq_iff_eq] at h
  obtain ⟨hthrows, hlength⟩ := h
  have hrun := run_afterCalls answer n
  obtain ⟨answers, hanswers⟩ := run_asked_suffix hrun
  cases hr : (exec (steadyWorld InMemoryCache.port fun _ => answer) (afterCalls answer n)
      (structuredCall.run defaultGateway)).1 with
  | ok v =>
    rw [hr] at hthrows
    exact absurd hthrows (by simp [Except.isOk, Except.toBool])
  | error e =>
    rw [hr] at hrun
    refine ⟨answers, structuredCall, e, hrun, ?_, hanswers.symm⟩
    rintro rfl
    rw [← hanswers, List.nil_append, hbefore] at hlength
    omega

/-- As long as the calls throw they make up a streak. -/
theorem streak_afterCalls (answer : Except JsError ModelResponse) {n : ℕ}
    (h : ∀ m < n, throwsAt answer m = true) :
    (afterCalls answer n).asked.length = n ∧ ∃ streak, streak.length = n ∧
      FailingStreak defaultGateway InMemoryCache.port streak (afterCalls answer 0)
        (afterCalls answer n) ∧
      ∀ answers ∈ streak, ∀ x ∈ answers, x ∈ (afterCalls answer n).asked := by
  induction n with
  | zero => exact ⟨rfl, [], rfl, .start _, by simp⟩
  | succ n ih =>
    obtain ⟨hlength, streak, hstreak, hfailing, hmem⟩ :=
      ih fun m hm => h m (hm.trans (Nat.lt_succ_self n))
    obtain ⟨answers, hfailed⟩ := failedCall_of_throwsAt (h n (Nat.lt_succ_self n)) hlength
    have hasked : (afterCalls answer (n + 1)).asked = answers ++ (afterCalls answer n).asked := by
      obtain ⟨call, e, -, -, hasked⟩ := hfailed
      exact hasked
    have hnow := h n (Nat.lt_succ_self n)
    simp only [throwsAt, Bool.and_eq_true, beq_iff_eq] at hnow
    refine ⟨hnow.2, answers :: streak, by rw [List.length_cons, hstreak],
      .failed hfailing hfailed, ?_⟩
    intro l hl x hx
    rw [hasked, List.mem_append]
    rcases List.mem_cons.mp hl with rfl | hl
    · exact Or.inl hx
    · exact Or.inr (hmem l hl x hx)

/-- With the default configuration the reset time ends after a minute. -/
theorem resetEnds_default {d : ℚ} :
    ResetEnds InMemoryCache.refinement defaultGateway 0 d ↔ d = 60000 := by
  have hvalue : expiryOf InMemoryCache.deadline 0 (some defaultGateway.resetSeconds) = some 60000 := by
    decide +kernel
  show expiryOf InMemoryCache.deadline 0 (some defaultGateway.resetSeconds) = some d ↔ _
  rw [hvalue, Option.some.injEq, eq_comm]

/-- Five calls that throw are an outage. -/
theorem outage_afterCalls (answer : Except JsError ModelResponse)
    (h : ∀ m < 5, throwsAt answer m = true) (hnow : (afterCalls answer 5).now = 0) :
    ∃ streak, Outage InMemoryCache.refinement defaultGateway streak (afterCalls answer 0)
      (afterCalls answer 5) ∧
      ∀ answers ∈ streak, ∀ x ∈ answers, x ∈ (afterCalls answer 5).asked := by
  obtain ⟨hlength, earlier, hearlier, hfailing, hmem⟩ :=
    streak_afterCalls answer (n := 4) fun m hm => h m (by omega)
  obtain ⟨answers, hfailed⟩ := failedCall_of_throwsAt (h 4 (by omega)) hlength
  have hasked : (afterCalls answer 5).asked = answers ++ (afterCalls answer 4).asked := by
    obtain ⟨call, e, -, -, hasked⟩ := hfailed
    exact hasked
  refine ⟨answers :: earlier,
    ⟨⟨0, .refl⟩, ⟨answers, earlier, _, rfl, hfailing, hfailed⟩, ?_, ?_, ?_⟩, ?_⟩
  · rw [List.length_cons, hearlier]
    decide +kernel
  · intro d hd
    obtain rfl := resetEnds_default.mp hd
    rw [hnow]
    norm_num
  · rw [hnow]
    rfl
  · intro l hl x hx
    rw [hasked, List.mem_append]
    rcases List.mem_cons.mp hl with rfl | hl
    · exact Or.inl hx
    · exact Or.inr (hmem l hl x hx)

/-- Five calls to a provider that is not available. -/
theorem outage_blocks_unavailable : ∃ d,
    ResetEnds InMemoryCache.refinement defaultGateway (afterCalls unavailable 5).now d ∧
      Blocked defaultGateway InMemoryCache.port (afterCalls unavailable 5) d := by
  obtain ⟨streak, houtage, hmem⟩ :=
    outage_afterCalls unavailable (by decide +kernel) (by decide +kernel)
  refine outage_blocks houtage (by decide +kernel) ?_ ?_
  · intro t ht
    have hzero : t = 0 := Nat.le_zero.mp (ht.trans (by decide +kernel))
    exact ⟨60000, hzero ▸ resetEnds_default.mpr rfl⟩
  · have hnone : ∀ x ∈ (afterCalls unavailable 5).asked, x.usage = none := by decide +kernel
    exact fun answers hl x hx => hnone x (hmem answers hl x hx)

/-- Five responses with usage that cannot be parsed: the sixth call reaches the provider. -/
theorem metered_outage_not_blocked : ∃ streak,
    Outage InMemoryCache.refinement defaultGateway streak (afterCalls meteredNothing 0)
      (afterCalls meteredNothing 5) ∧
    ¬ ∃ d, ResetEnds InMemoryCache.refinement defaultGateway (afterCalls meteredNothing 5).now d ∧
      Blocked defaultGateway InMemoryCache.port (afterCalls meteredNothing 5) d := by
  obtain ⟨streak, houtage, -⟩ :=
    outage_afterCalls meteredNothing (by decide +kernel) (by decide +kernel)
  refine ⟨streak, houtage, ?_⟩
  rintro ⟨d, hd, hblocked⟩
  have hnow : (afterCalls meteredNothing 5).now = 0 ∧ (afterCalls meteredNothing 6).now = 0 := by
    decide +kernel
  rw [hnow.1] at hd
  obtain rfl := resetEnds_default.mp hd
  obtain ⟨hasked, -⟩ := hblocked.rejects _ _ structuredCall _ .refl (run_afterCalls meteredNothing 5)
    (by rw [hnow.2]; norm_num)
  have hlength : (afterCalls meteredNothing 6).asked.length ≠
      (afterCalls meteredNothing 5).asked.length := by decide +kernel
  exact hlength (congrArg List.length hasked)

end DreamWeaver.Gateway
