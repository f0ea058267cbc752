import DreamWeaver.Memory.UserIsolation

/-! # The scores of themes

Each memory turns the outcomes of a theme into a score. In exact arithmetic they should differ by their
initial value only. They compute with doubles, which are exact for halves; but the memory of a process
takes a score of zero for a missing one, and the object that is written to a file inherits what every
object has. -/

namespace DreamWeaver.Memory

/-! ## What a score should be -/

/-- The initial value of a score. -/
def Implementation.initial : Implementation → ℚ
  | .inMemory => 1
  | _ => 0

/-- The number of positive outcomes of a theme minus half the number of negative ones. -/
def tally (outcomes : List (Text × Outcome)) (theme : Text) : ℚ :=
  outcomes.count (theme, .positive) - outcomes.count (theme, .negative) / 2

/-- The calls of a user that track outcomes. -/
def outcomeCalls (user : Text) (outcomes : List (Text × Outcome)) : List MemoryCall :=
  outcomes.map fun o => .trackOutcome o.1 o.2 { userId := user } {}

/-- The scores of a user that an implementation has after outcomes. -/
def Implementation.scores (now : ℤ) (db : MemoryTables) (user : Text) (outcomes : List (Text × Outcome)) :
    Implementation → Record JsNumber
  | .inMemory => ((outcomeCalls user outcomes).foldl InMemoryAgentMemory.apply
      ⟨proceduralMemories now, []⟩).themeScores
  | .persisted => ((outcomeCalls user outcomes).foldl MemoryDatabase.apply (.fresh now)).themeScores
  | .supabase => (db.user? user).elim [] fun id =>
      (themeScores ((outcomeCalls user outcomes).foldl db.apply ⟨[], []⟩).outcomes id).map fun row =>
        (row.1, JsNumber.ofExact row.2)

/-- One score is smaller than another. -/
def ScoreLT (x y : Option JsNumber) : Prop :=
  ∃ a b, x = some (.finite a) ∧ y = some (.finite b) ∧ a < b

/-- **Agreement of scores**: in every implementation a theme that has outcomes has its initial value and
their tally as its score, and so all rank the themes in the same order. -/
structure ScoresAgree (now : ℤ) (db : MemoryTables) (user : Text) (outcomes : List (Text × Outcome)) :
    Prop where
  score : ∀ (implementation : Implementation) theme,
    (implementation.scores now db user outcomes).get? theme =
      if theme ∈ outcomes.map Prod.fst then
        some (.finite (implementation.initial + tally outcomes theme)) else none
  ranking : ∀ (implementation implementation' : Implementation), ∀ a ∈ outcomes.map Prod.fst,
    ∀ b ∈ outcomes.map Prod.fst,
      (ScoreLT ((implementation.scores now db user outcomes).get? a)
        ((implementation.scores now db user outcomes).get? b) ↔
      ScoreLT ((implementation'.scores now db user outcomes).get? a)
        ((implementation'.scores now db user outcomes).get? b))

/-- The outcomes for which the scores agree: every theme is a name that no object inherits and that the
database takes, and none has an outcome when its score in the memory of a process is zero. -/
structure Regular (db : MemoryTables) (user : Text) (outcomes : List (Text × Outcome)) : Prop where
  inherited : ∀ theme ∈ outcomes.map Prod.fst, theme ∉ objectPrototype
  taken : ∀ theme ∈ outcomes.map Prod.fst, (db.user? user).isSome = true ∧ db.takesTheme theme = true
  nonzero : ∀ before theme outcome after, outcomes = before ++ (theme, outcome) :: after →
    1 + tally before theme ≠ 0

/-! ## The outcomes of a theme -/

/-- The outcomes of one theme. -/
def ofTheme (theme : Text) (outcomes : List (Text × Outcome)) : List Outcome :=
  (outcomes.filter fun o => o.1 = theme).map Prod.snd

/-- Twice what an outcome adds. -/
def Outcome.weight : Outcome → ℤ
  | .positive => 2
  | .negative => -1

/-- Twice the tally of outcomes. -/
def weights (os : List Outcome) : ℤ := (os.map Outcome.weight).sum

variable {outcomes : List (Text × Outcome)} {theme user : Text} {os : List Outcome} {o : Outcome}

theorem delta_eq_half (o : Outcome) : o.delta = .half o.weight := by
  cases o with
  | positive => simp [Outcome.delta, JsNumber.half, Outcome.weight]
  | negative => simp [Outcome.delta, JsNumber.half, Outcome.weight]

theorem abs_weight_le (o : Outcome) : |o.weight| ≤ 2 := by
  cases o with
  | positive => decide
  | negative => decide

theorem weights_cons (o : Outcome) (os : List Outcome) : weights (o :: os) = o.weight + weights os := by
  rw [weights, List.map_cons, List.sum_cons, weights]

theorem weights_append (os os' : List Outcome) : weights (os ++ os') = weights os + weights os' := by
  rw [weights, List.map_append, List.sum_append, weights, weights]

/-- A tally is at most the number of outcomes. -/
theorem abs_weights_le (os : List Outcome) : |weights os| ≤ 2 * os.length := by
  induction os with
  | nil => simp [weights]
  | cons o os ih =>
    have hweight := abs_weight_le o
    have hsum := abs_add_le o.weight (weights os)
    rw [weights_cons, List.length_cons]
    push_cast
    omega

theorem weights_singleton (o : Outcome) : weights [o] = o.weight := by simp [weights]

theorem ofTheme_append (theme : Text) (outcomes outcomes' : List (Text × Outcome)) :
    ofTheme theme (outcomes ++ outcomes') = ofTheme theme outcomes ++ ofTheme theme outcomes' := by
  rw [ofTheme, List.filter_append, List.map_append, ofTheme, ofTheme]

theorem ofTheme_singleton (theme : Text) (o : Text × Outcome) :
    ofTheme theme [o] = if o.1 = theme then [o.2] else [] := by
  by_cases h : o.1 = theme
  · simp [ofTheme, h]
  · simp [ofTheme, h]

theorem length_ofTheme_le (theme : Text) (outcomes : List (Text × Outcome)) :
    (ofTheme theme outcomes).length ≤ outcomes.length := by
  rw [ofTheme, List.length_map]
  exact List.length_filter_le _ _

/-- A theme has an outcome exactly when it is one of the themes. -/
theorem ofTheme_eq_nil_iff : ofTheme theme outcomes = [] ↔ theme ∉ outcomes.map Prod.fst := by
  rw [ofTheme, List.map_eq_nil_iff, List.filter_eq_nil_iff, List.mem_map]
  constructor
  · rintro h ⟨o, ho, htheme⟩
    exact h o ho (decide_eq_true htheme)
  · intro h o ho htheme
    exact h ⟨o, ho, of_decide_eq_true htheme⟩

theorem tally_append (outcomes outcomes' : List (Text × Outcome)) (theme : Text) :
    tally (outcomes ++ outcomes') theme = tally outcomes theme + tally outcomes' theme := by
  simp only [tally, List.count_append]
  push_cast
  ring

theorem tally_eq_half (outcomes : List (Text × Outcome)) (theme : Text) :
    tally outcomes theme = (weights (ofTheme theme outcomes) : ℚ) / 2 := by
  induction outcomes using List.reverseRecOn with
  | nil => simp [tally, ofTheme, weights]
  | append_singleton outcomes o ih =>
    have hlast : tally [o] theme = (weights (ofTheme theme [o]) : ℚ) / 2 := by
      obtain ⟨theme', o⟩ := o
      rw [ofTheme_singleton]
      by_cases h : theme' = theme
      · subst h
        cases o with
        | positive => simp [tally, weights, Outcome.weight]
        | negative => simp [tally, weights, Outcome.weight, neg_div]
      · simp [tally, weights, h]
    rw [tally_append, ofTheme_append, weights_append, ih, hlast]
    push_cast
    ring

/-! ## One theme at a time -/

/-- The entry that is set is under its key. -/
theorem get?_setEntry (entries : Record JsNumber) (key other : Text) (value : JsNumber) :
    (setEntry entries key value).get? other = if other = key then some value else entries.get? other := by
  have hmap : ∀ r : Record JsNumber,
      Record.get? (r.map fun e => if e.1 = key then (key, value) else e) other =
        if other = key then (r.get? key).map fun _ => value else r.get? other := by
    intro r
    induction r with
    | nil => simp
    | cons e r ih =>
      rw [List.map_cons, Record.get?_cons, ih, Record.get?_cons, Record.get?_cons]
      by_cases he : e.1 = key
      · by_cases ho : other = key
        · simp [he, ho]
        · simp [he, ho, Ne.symm ho]
      · by_cases ho : other = key
        · simp [he, ho]
        · simp [he, ho]
  rw [setEntry]
  by_cases hset : (entries.get? key).isSome
  · rw [if_pos hset, hmap]
    obtain ⟨v, hv⟩ := Option.isSome_iff_exists.mp hset
    rw [hv, Option.map_some]
  · rw [if_neg hset, Record.get?_append]
    by_cases ho : other = key
    · rw [if_pos ho, ho, Option.not_isSome_iff_eq_none.mp hset]
      simp
    · rw [if_neg ho]
      simp [Ne.symm ho]

/-- A score is a fold of the outcomes of its theme. -/
theorem get?_foldl_score {score : Record JsNumber → Text → Outcome → Record JsNumber}
    {step : Option JsNumber → Outcome → Option JsNumber}
    (hsame : ∀ r o, (score r theme o).get? theme = step (r.get? theme) o)
    (hother : ∀ r theme' o, theme' ≠ theme → (score r theme' o).get? theme = r.get? theme)
    (r : Record JsNumber) (outcomes : List (Text × Outcome)) :
    (outcomes.foldl (fun r o => score r o.1 o.2) r).get? theme =
      (ofTheme theme outcomes).foldl step (r.get? theme) := by
  induction outcomes generalizing r with
  | nil => rfl
  | cons o outcomes ih =>
    obtain ⟨theme', o⟩ := o
    have hcons : ofTheme theme ((theme', o) :: outcomes) = ofTheme theme [(theme', o)] ++ ofTheme theme outcomes :=
      ofTheme_append theme [(theme', o)] outcomes
    rw [List.foldl_cons, ih, hcons, List.foldl_append, ofTheme_singleton]
    by_cases h : theme' = theme
    · subst h
      rw [hsame, if_pos rfl, List.foldl_cons, List.foldl_nil]
    · rw [hother _ _ _ h, if_neg h, List.foldl_nil]

/-- The calls that track outcomes fold the scores. -/
theorem foldl_outcomeCalls {σ : Type} {apply : σ → MemoryCall → σ} {scores : σ → Record JsNumber}
    {score : Record JsNumber → Text → Outcome → Record JsNumber}
    (happly : ∀ s theme o context world,
      scores (apply s (.trackOutcome theme o context world)) = score (scores s) theme o)
    (user : Text) (outcomes : List (Text × Outcome)) (s : σ) :
    scores ((outcomeCalls user outcomes).foldl apply s) =
      outcomes.foldl (fun r o => score r o.1 o.2) (scores s) := by
  induction outcomes generalizing s with
  | nil => rfl
  | cons o outcomes ih =>
    rw [outcomeCalls, List.map_cons, List.foldl_cons, ← outcomeCalls, ih, happly, List.foldl_cons]

/-! ## In the memory of a process -/

/-- What an outcome makes of the score of its theme in the memory of a process. -/
def memoryStep (score : Option JsNumber) (o : Outcome) : Option JsNumber :=
  some ((orOne score).add o.delta)

theorem get?_inMemory (now : ℤ) (db : MemoryTables) (user theme : Text) (outcomes : List (Text × Outcome)) :
    (Implementation.inMemory.scores now db user outcomes).get? theme =
      (ofTheme theme outcomes).foldl memoryStep none := by
  have hfold : Implementation.inMemory.scores now db user outcomes =
      outcomes.foldl (fun r o => InMemoryAgentMemory.score r o.1 o.2) [] :=
    @foldl_outcomeCalls _ _ InMemoryAgentMemory.themeScores _
      (fun s theme o context world => rfl) user outcomes _
  rw [hfold]
  refine get?_foldl_score (fun r o => ?_) (fun r theme' o hne => ?_) [] outcomes
  · rw [InMemoryAgentMemory.score, get?_setEntry, if_pos rfl, memoryStep]
  · rw [InMemoryAgentMemory.score, get?_setEntry, if_neg hne.symm]

/-- Before none of the outcomes is the score of a theme, which begins with one, zero. -/
def NeverZero (os : List Outcome) : Prop :=
  ∀ before o after, os = before ++ o :: after → 2 + weights before ≠ 0

/-- A split of a list that has one more element. -/
theorem append_singleton_eq_append_cons_iff {α : Type} {l before after : List α} {a b : α} :
    l ++ [a] = before ++ b :: after ↔
      (l = before ∧ a = b ∧ after = []) ∨ ∃ after', after = after' ++ [a] ∧ l = before ++ b :: after' := by
  rcases List.eq_nil_or_concat after with rfl | ⟨after', c, rfl⟩
  · constructor
    · intro h
      obtain ⟨hl, ha⟩ := List.append_inj' h rfl
      exact .inl ⟨hl, List.head_eq_of_cons_eq ha, rfl⟩
    · rintro (⟨rfl, rfl, -⟩ | ⟨after', hafter, -⟩)
      · rfl
      · simp at hafter
  · constructor
    · intro h
      rw [List.concat_eq_append, ← List.cons_append, ← List.append_assoc] at h
      obtain ⟨hl, ha⟩ := List.append_inj' h rfl
      exact .inr ⟨after', by rw [List.concat_eq_append, List.head_eq_of_cons_eq ha], hl⟩
    · rintro (⟨-, -, hafter⟩ | ⟨after'', hafter, rfl⟩)
      · simp at hafter
      · rw [hafter]
        simp

theorem neverZero_append_singleton :
    NeverZero (os ++ [o]) ↔ NeverZero os ∧ 2 + weights os ≠ 0 := by
  constructor
  · intro h
    refine ⟨?_, h os o [] rfl⟩
    rintro before o' after rfl
    exact h before o' (after ++ [o]) (by simp)
  · rintro ⟨h, hlast⟩ before o' after heq
    rcases append_singleton_eq_append_cons_iff.mp heq with ⟨rfl, -, -⟩ | ⟨after', -, heq⟩
    · exact hlast
    · exact h before o' after' heq

theorem orOne_half (n : ℤ) : orOne (some (.half n)) = .half (if n = 0 then 2 else n) := by
  rw [JsNumber.half, orOne]
  by_cases h : n = 0
  · simp [h, JsNumber.half]
  · have hne : (JsNumber.finite ((n : ℚ) / 2)) ≠ .finite 0 := by
      simpa using h
    rw [if_neg hne, if_neg h, JsNumber.half]
  · rintro ⟨⟩

/-- **The score of a theme in the memory of a process** is its initial value, its tally, and one for every
outcome that found a score of zero. -/
theorem exists_resets (os : List Outcome) (hlength : os.length ≤ 2 ^ 46) :
    ∃ k : ℕ, k ≤ os.length ∧ (k = 0 ↔ NeverZero os) ∧
      os.foldl memoryStep none = if os = [] then none else some (.half (2 + weights os + 2 * k)) := by
  induction os using List.reverseRecOn with
  | nil =>
    refine ⟨0, le_rfl, ⟨fun _ => ?_, fun _ => rfl⟩, rfl⟩
    intro before o after h
    simp at h
  | append_singleton os o ih =>
    rw [List.length_append, List.length_singleton] at hlength
    obtain ⟨k, hk, hnever, hfold⟩ := ih (by omega)
    have hbound := abs_le.mp (abs_weights_le os)
    -- the score that the outcome finds, with the initial value for a missing one
    have hfound : orOne (os.foldl memoryStep none) =
        .half (if 2 + weights os + 2 * k = 0 then 2 else 2 + weights os + 2 * k) := by
      rw [hfold]
      by_cases hos : os = []
      · subst hos
        have hzero : k = 0 := by simpa using hk
        subst hzero
        simp [orOne, weights, JsNumber.half]
      · rw [if_neg hos, orOne_half]
    have hweight := abs_le.mp (abs_weight_le o)
    have hnil : os ++ [o] ≠ [] := by simp
    rw [List.foldl_append, List.foldl_cons, List.foldl_nil, memoryStep, hfound, delta_eq_half,
      neverZero_append_singleton, weights_append, weights_singleton, List.length_append,
      List.length_singleton]
    by_cases hzero : 2 + weights os + 2 * k = 0
    · refine ⟨k + 1, by omega, ?_, ?_⟩
      · constructor
        · intro h
          omega
        · rintro ⟨h, hne⟩
          have hk0 := hnever.mpr h
          subst hk0
          exact absurd hzero (by simpa using hne)
      · rw [if_neg hnil, if_pos hzero, JsNumber.half_add_half (abs_lt.mpr (by omega))]
        congr 2
        push_cast
        omega
    · refine ⟨k, by omega, ?_, ?_⟩
      · rw [hnever]
        refine ⟨fun h => ⟨h, ?_⟩, And.left⟩
        have hk0 := hnever.mpr h
        subst hk0
        simpa using hzero
      · rw [if_neg hnil, if_neg hzero, JsNumber.half_add_half (abs_lt.mpr (by omega))]
        congr 2
        omega

/-- The score of a theme in the memory of a process is right exactly when no outcome found a zero. -/
theorem memory_score_iff (hlength : os.length ≤ 2 ^ 46) (hne : os ≠ []) :
    os.foldl memoryStep none = some (.half (2 + weights os)) ↔ NeverZero os := by
  obtain ⟨k, -, hnever, hfold⟩ := exists_resets os hlength
  rw [hfold, if_neg hne, ← hnever, Option.some_inj, JsNumber.half_injective.eq_iff]
  omega

/-! ## In a file -/

/-- What an outcome makes of the score of its theme in a file. -/
def databaseStep (theme : Text) (score : Option JsNumber) (o : Outcome) : Option JsNumber :=
  if score = none ∧ theme ∈ objectPrototype then if theme = lit "__proto__" then none else some .nan
  else some (roundTenth ((JsNumber.orZero score).add o.delta))

theorem get?_persisted (now : ℤ) (db : MemoryTables) (user theme : Text) (outcomes : List (Text × Outcome)) :
    (Implementation.persisted.scores now db user outcomes).get? theme =
      (ofTheme theme outcomes).foldl (databaseStep theme) none := by
  have hfold : Implementation.persisted.scores now db user outcomes =
      outcomes.foldl (fun r o => MemoryDatabase.score r o.1 o.2) [] :=
    @foldl_outcomeCalls _ _ MemoryDatabase.themeScores _
      (fun s theme o context world => rfl) user outcomes (.fresh now)
  rw [hfold]
  refine get?_foldl_score (fun r o => ?_) (fun r theme' o hne => ?_) [] outcomes
  · rw [MemoryDatabase.score, databaseStep]
    cases hget : r.get? theme with
    | some score => simp [get?_setEntry]
    | none =>
      by_cases hmem : theme ∈ objectPrototype
      · by_cases hproto : theme = lit "__proto__"
        · simp only [if_pos hproto, hget, hmem, and_self, if_true]
        · simp [hmem, hproto, get?_setEntry]
      · simp [hmem, get?_setEntry]
  · rw [MemoryDatabase.score]
    cases hget : r.get? theme' with
    | some score => simp [get?_setEntry, hne.symm]
    | none =>
      by_cases hmem : theme' ∈ objectPrototype
      · by_cases hproto : theme' = lit "__proto__"
        · simp only [if_pos hmem, if_pos hproto]
        · simp [hmem, hproto, get?_setEntry, hne.symm]
      · simp [hmem, get?_setEntry, hne.symm]

/-- A step from a score that is a number, or as good as one, rounds nothing. -/
theorem databaseStep_half {score : Option JsNumber} {n : ℤ} (hscore : JsNumber.orZero score = .half n)
    (hown : score ≠ none ∨ theme ∉ objectPrototype) (h : |n + o.weight| < 2 ^ 48) :
    databaseStep theme score o = some (.half (n + o.weight)) := by
  have hnot : ¬ (score = none ∧ theme ∈ objectPrototype) := by
    rintro ⟨hnone, hmem⟩
    exact hown.elim (fun hsome => hsome hnone) (fun hnot => hnot hmem)
  rw [databaseStep, if_neg hnot, hscore, delta_eq_half, JsNumber.half_add_half (h.trans (by norm_num)),
    roundTenth, JsNumber.roundTenth_half h]

/-- Outcomes add up, once there is a score that is a number, or as good as one. -/
theorem foldl_databaseStep_half {score : Option JsNumber} {n : ℤ}
    (hscore : JsNumber.orZero score = .half n) (hown : score ≠ none ∨ theme ∉ objectPrototype)
    (hlength : |n| + 2 * os.length < 2 ^ 48) (hne : os ≠ []) :
    os.foldl (databaseStep theme) score = some (.half (n + weights os)) := by
  induction os generalizing score n with
  | nil => exact absurd rfl hne
  | cons o os ih =>
    have hweight := abs_weight_le o
    have hsum := abs_add_le n o.weight
    rw [List.length_cons] at hlength
    push_cast at hlength
    rw [List.foldl_cons, databaseStep_half hscore hown (by omega), weights_cons]
    by_cases hos : os = []
    · simp [hos, weights]
    · rw [ih rfl (.inl (Option.some_ne_none _)) (by omega) hos, add_assoc]

/-- `__proto__` gets no score. -/
theorem foldl_databaseStep_proto (os : List Outcome) :
    os.foldl (databaseStep (lit "__proto__")) none = none := by
  induction os with
  | nil => rfl
  | cons o os ih =>
    have hmem : lit "__proto__" ∈ objectPrototype := by decide
    rw [List.foldl_cons, databaseStep, if_pos ⟨rfl, hmem⟩, if_pos rfl, ih]

/-- **The score of a theme in a file** is its tally exactly when the theme is no name that every object
inherits. -/
theorem database_score_iff (hlength : os.length ≤ 2 ^ 46) (hne : os ≠ []) :
    os.foldl (databaseStep theme) none = some (.half (weights os)) ↔ theme ∉ objectPrototype := by
  have hmissing : JsNumber.orZero none = .half 0 := by simp [JsNumber.orZero, JsNumber.half]
  have hnan : JsNumber.orZero (some .nan) = .half 0 := by simp [JsNumber.orZero, JsNumber.half]
  constructor
  · intro hscore hmem
    by_cases hproto : theme = lit "__proto__"
    · rw [hproto, foldl_databaseStep_proto] at hscore
      cases hscore
    · obtain ⟨o, os, rfl⟩ := List.exists_cons_of_ne_nil hne
      rw [List.foldl_cons, databaseStep, if_pos ⟨rfl, hmem⟩, if_neg hproto] at hscore
      by_cases hos : os = []
      · rw [hos, List.foldl_nil] at hscore
        cases Option.some.inj hscore
      · -- the outcome that met the inherited value is lost
        rw [List.length_cons] at hlength
        rw [foldl_databaseStep_half hnan (.inl (Option.some_ne_none _)) (by simp; omega) hos,
          weights_cons, Option.some_inj, JsNumber.half_injective.eq_iff] at hscore
        cases o with
        | positive =>
          rw [Outcome.weight] at hscore
          omega
        | negative =>
          rw [Outcome.weight] at hscore
          omega
  · intro hown
    rw [foldl_databaseStep_half hmissing (.inr hown) (by simp; omega) hne, zero_add]

/-! ## In the database -/

/-- The rows of the outcomes of a user that is known. -/
def outcomeRows (db : MemoryTables) (id : Text) (outcomes : List (Text × Outcome)) : List OutcomeRow :=
  (outcomes.filter fun o => db.takesTheme o.1).map fun o => ⟨id, o.1, o.2⟩

theorem foldl_outcomeRows {db : MemoryTables} {id : Text} (huser : db.user? user = some id)
    (outcomes : List (Text × Outcome)) (s : MemoryDatabaseRows) :
    ((outcomeCalls user outcomes).foldl db.apply s).outcomes =
      s.outcomes ++ outcomeRows db id outcomes := by
  have hinserts : db.inserts { userId := user } {} = some id := by
    rw [MemoryTables.inserts, huser]
    rfl
  induction outcomes generalizing s with
  | nil => simp [outcomeCalls, outcomeRows]
  | cons o outcomes ih =>
    rw [outcomeCalls, List.map_cons, List.foldl_cons, ← outcomeCalls, ih, MemoryTables.apply, hinserts,
      outcomeRows, outcomeRows]
    by_cases htaken : db.takesTheme o.1 = true
    · simp [htaken]
    · simp [htaken]

/-- What is under a key of a record that is computed from its keys. -/
theorem get?_map_keys {W : Type} (keys : List Text) (f : Text → W) (key : Text) :
    Record.get? (keys.map fun k => (k, f k)) key = if key ∈ keys then some (f key) else none := by
  induction keys with
  | nil => simp
  | cons k keys ih =>
    rw [List.map_cons, Record.get?_cons, ih]
    by_cases h : k = key
    · simp [h]
    · simp [h, Ne.symm h]

/-- The sum of the view is the tally of the rows of the theme. -/
theorem sum_outcomeRows {db : MemoryTables} {id : Text} (htaken : db.takesTheme theme = true)
    (outcomes : List (Text × Outcome)) :
    (((outcomeRows db id outcomes).filter fun row => row.theme = theme).map fun row =>
      if row.outcome = .positive then (1 : ℚ) else -1 / 2).sum = tally outcomes theme := by
  induction outcomes with
  | nil => simp [outcomeRows, tally]
  | cons o outcomes ih =>
    obtain ⟨theme', o⟩ := o
    have hcons : tally ((theme', o) :: outcomes) theme =
        tally [(theme', o)] theme + tally outcomes theme := tally_append [(theme', o)] outcomes theme
    rw [hcons, ← ih, outcomeRows, outcomeRows, List.filter_cons]
    by_cases h : theme' = theme
    · subst h
      cases o with
      | positive => simp [htaken, tally]
      | negative => simp [htaken, tally, neg_div]
    · have hsingle : tally [(theme', o)] theme = 0 := by simp [tally, h]
      by_cases htaken' : db.takesTheme theme' = true
      · simp [htaken', h, hsingle]
      · simp [htaken', hsingle]

/-- **The score of a theme in the database** is its tally, if the user is known and the theme is taken. -/
theorem get?_supabase (now : ℤ) (db : MemoryTables) (user theme : Text) (outcomes : List (Text × Outcome))
    (hlength : outcomes.length ≤ 2 ^ 46) :
    (Implementation.supabase.scores now db user outcomes).get? theme =
      if theme ∈ outcomes.map Prod.fst ∧ (db.user? user).isSome = true ∧ db.takesTheme theme = true then
        some (.finite (tally outcomes theme)) else none := by
  cases huser : db.user? user with
  | none =>
    rw [Implementation.scores, huser]
    simp
  | some id =>
    rw [Implementation.scores, huser, Option.elim_some, foldl_outcomeRows huser, List.nil_append, themeScores]
    have hown : (outcomeRows db id outcomes).filter (fun row => row.userId = id) =
        outcomeRows db id outcomes := by
      rw [List.filter_eq_self]
      intro row hrow
      obtain ⟨o, -, rfl⟩ := List.mem_map.mp hrow
      exact decide_eq_true rfl
    have hthemes : theme ∈ ((outcomeRows db id outcomes).map OutcomeRow.theme).dedup ↔
        theme ∈ outcomes.map Prod.fst ∧ db.takesTheme theme = true := by
      rw [List.mem_dedup, outcomeRows, List.map_map, List.mem_map, List.mem_map]
      constructor
      · rintro ⟨o, ho, rfl⟩
        obtain ⟨ho, htaken⟩ := List.mem_filter.mp ho
        exact ⟨⟨o, ho, rfl⟩, htaken⟩
      · rintro ⟨⟨o, ho, rfl⟩, htaken⟩
        exact ⟨o, List.mem_filter.mpr ⟨ho, htaken⟩, rfl⟩
    rw [hown, List.map_map]
    refine (get?_map_keys _ _ theme).trans ?_
    by_cases hmem : theme ∈ outcomes.map Prod.fst ∧ db.takesTheme theme = true
    · have hweights := abs_weights_le (ofTheme theme outcomes)
      have hle := length_ofTheme_le theme outcomes
      rw [if_pos (hthemes.mpr hmem), if_pos ⟨hmem.1, by simp, hmem.2⟩]
      simp only [sum_outcomeRows hmem.2]
      rw [tally_eq_half, JsNumber.ofExact_half (by omega), JsNumber.half]
    · rw [if_neg (fun h => hmem (hthemes.mp h)), if_neg (fun h => hmem ⟨h.1, h.2.2⟩)]

/-! ## When the scores agree -/

theorem neverZero_iff (outcomes : List (Text × Outcome)) :
    (∀ before theme outcome after, outcomes = before ++ (theme, outcome) :: after →
      1 + tally before theme ≠ 0) ↔ ∀ theme, NeverZero (ofTheme theme outcomes) := by
  induction outcomes using List.reverseRecOn with
  | nil =>
    constructor
    · intro _ theme before o after h
      simp [ofTheme] at h
    · intro _ before theme outcome after h
      simp at h
  | append_singleton outcomes o ih =>
    obtain ⟨theme', o⟩ := o
    have hlast : 1 + tally outcomes theme' ≠ 0 ↔ 2 + weights (ofTheme theme' outcomes) ≠ 0 := by
      rw [tally_eq_half, not_iff_not, ← @Int.cast_inj ℚ]
      push_cast
      constructor
      · intro h
        linarith
      · intro h
        linarith
    constructor
    · intro h theme
      have hnever := ih.mp fun before theme outcome after heq =>
        h before theme outcome (after ++ [(theme', o)]) (by simp [heq])
      rw [ofTheme_append, ofTheme_singleton]
      by_cases heq : theme' = theme
      · rw [if_pos heq, neverZero_append_singleton, ← heq]
        exact ⟨hnever theme', hlast.mp (h outcomes theme' o [] rfl)⟩
      · rw [if_neg heq, List.append_nil]
        exact hnever theme
    · intro h before theme outcome after heq
      have hthis := h theme'
      rw [ofTheme_append, ofTheme_singleton, if_pos rfl, neverZero_append_singleton] at hthis
      rcases append_singleton_eq_append_cons_iff.mp heq with ⟨rfl, heq, -⟩ | ⟨after', -, heq⟩
      · obtain ⟨rfl, rfl⟩ := Prod.mk.inj heq
        exact hlast.mpr hthis.2
      · refine ih.mpr (fun theme'' => ?_) before theme outcome after' heq
        have hother := h theme''
        rw [ofTheme_append, ofTheme_singleton] at hother
        by_cases hsame : theme' = theme''
        · exact hsame ▸ hthis.1
        · rwa [if_neg hsame, List.append_nil] at hother

theorem scoreLT_finite {a b : ℚ} :
    ScoreLT (some (.finite a)) (some (.finite b)) ↔ a < b := by
  constructor
  · rintro ⟨x, y, hx, hy, hlt⟩
    rw [Option.some_inj, JsNumber.finite.injEq] at hx hy
    rwa [hx, hy]
  · intro h
    exact ⟨a, b, rfl, rfl, h⟩

theorem half_weights (k : ℤ) (outcomes : List (Text × Outcome)) (theme : Text) :
    JsNumber.half (2 * k + weights (ofTheme theme outcomes)) = .finite (k + tally outcomes theme) := by
  rw [JsNumber.half, tally_eq_half]
  congr 1
  push_cast
  ring

theorem inMemory_score_iff (now : ℤ) (db : MemoryTables) (user theme : Text)
    (hlength : outcomes.length ≤ 2 ^ 46) :
    (Implementation.inMemory.scores now db user outcomes).get? theme =
      (if theme ∈ outcomes.map Prod.fst then
        some (.finite (Implementation.inMemory.initial + tally outcomes theme)) else none) ↔
      NeverZero (ofTheme theme outcomes) := by
  rw [get?_inMemory]
  by_cases hmem : theme ∈ outcomes.map Prod.fst
  · have hne : ofTheme theme outcomes ≠ [] := fun hnil => ofTheme_eq_nil_iff.mp hnil hmem
    have hhalf := half_weights 1 outcomes theme
    push_cast at hhalf
    rw [if_pos hmem, Implementation.initial, ← hhalf]
    exact memory_score_iff ((length_ofTheme_le theme outcomes).trans hlength) hne
  · rw [if_neg hmem, ofTheme_eq_nil_iff.mpr hmem]
    refine ⟨fun _ => ?_, fun _ => rfl⟩
    intro before o after h
    simp at h

theorem persisted_score_iff (now : ℤ) (db : MemoryTables) (user theme : Text)
    (hlength : outcomes.length ≤ 2 ^ 46) :
    (Implementation.persisted.scores now db user outcomes).get? theme =
      (if theme ∈ outcomes.map Prod.fst then
        some (.finite (Implementation.persisted.initial + tally outcomes theme)) else none) ↔
      (theme ∈ outcomes.map Prod.fst → theme ∉ objectPrototype) := by
  rw [get?_persisted]
  by_cases hmem : theme ∈ outcomes.map Prod.fst
  · have hne : ofTheme theme outcomes ≠ [] := fun hnil => ofTheme_eq_nil_iff.mp hnil hmem
    have hinitial : Implementation.persisted.initial = 0 := rfl
    have hhalf := half_weights 0 outcomes theme
    push_cast at hhalf
    rw [zero_add] at hhalf
    rw [if_pos hmem, hinitial, ← hhalf,
      database_score_iff ((length_ofTheme_le theme outcomes).trans hlength) hne]
    exact ⟨fun h _ => h, fun h => h hmem⟩
  · rw [if_neg hmem, ofTheme_eq_nil_iff.mpr hmem]
    exact ⟨fun _ h => absurd h hmem, fun _ => rfl⟩

theorem supabase_score_iff (now : ℤ) (db : MemoryTables) (user theme : Text)
    (hlength : outcomes.length ≤ 2 ^ 46) :
    (Implementation.supabase.scores now db user outcomes).get? theme =
      (if theme ∈ outcomes.map Prod.fst then
        some (.finite (Implementation.supabase.initial + tally outcomes theme)) else none) ↔
      (theme ∈ outcomes.map Prod.fst → (db.user? user).isSome = true ∧ db.takesTheme theme = true) := by
  have hinitial : Implementation.supabase.initial = 0 := rfl
  rw [get?_supabase now db user theme outcomes hlength, hinitial, zero_add]
  by_cases hmem : theme ∈ outcomes.map Prod.fst
  · by_cases htaken : (db.user? user).isSome = true ∧ db.takesTheme theme = true
    · rw [if_pos ⟨hmem, htaken⟩, if_pos hmem]
      exact ⟨fun _ _ => htaken, fun _ => rfl⟩
    · rw [if_neg (fun h => htaken h.2), if_pos hmem]
      exact ⟨fun h => absurd h.symm (Option.some_ne_none _), fun h => absurd (h hmem) htaken⟩
  · rw [if_neg (fun h => hmem h.1), if_neg hmem]
    exact ⟨fun _ h => absurd h hmem, fun _ => rfl⟩

/-- A database that knows every user and takes every theme. -/
def openTables : MemoryTables where
  user? := some
  uid _ := none
  hasAnonKey := true
  takesMemory _ _ _ := true
  takesTheme _ := true
  ilike _ _ := true
  distance _ _ := 0

/-- Two themes that are liked. -/
def likedThemes : List (Text × Outcome) :=
  [(lit "Ocean", .positive), (lit "Forest", .negative), (lit "Ocean", .negative), (lit "Forest", .positive)]

theorem regular_likedThemes : Regular openTables (lit "ana") likedThemes := by
  refine ⟨by decide, fun theme _ => ⟨rfl, rfl⟩, (neverZero_iff likedThemes).mpr fun theme => ?_⟩
  have hnil : NeverZero [] := by
    intro before o after h
    simp at h
  have hsingle : ∀ o : Outcome, NeverZero [o] := fun o =>
    neverZero_append_singleton.mpr ⟨hnil, by decide⟩
  by_cases hocean : theme = lit "Ocean"
  · subst hocean
    exact neverZero_append_singleton.mpr ⟨hsingle .positive, by decide⟩
  · by_cases hforest : theme = lit "Forest"
    · subst hforest
      exact neverZero_append_singleton.mpr ⟨hsingle .negative, by decide⟩
    · have hother : ofTheme theme likedThemes = [] := by
        rw [ofTheme_eq_nil_iff]
        simp [likedThemes, hocean, hforest]
      rw [hother]
      exact hnil

/-- A theme that is disliked twice and then liked. -/
def secondThoughts : List (Text × Outcome) :=
  [(lit "Ocean", .negative), (lit "Ocean", .negative), (lit "Ocean", .positive)]

end DreamWeaver.Memory
