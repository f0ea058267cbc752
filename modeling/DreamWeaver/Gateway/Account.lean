import DreamWeaver.Gateway.Recording

/-! # Accounts

A total in the cache is a text of a whole number of units: tokens, or millionths of a dollar. An account says
how one call's text comes from the text that was there, and how far the new number is from the exact sum. -/

namespace DreamWeaver.Gateway

open Cache GeminiAIGateway

/-! ## Exact amounts -/

/-- The tokens of a call, as a natural number. -/
def tokenCount (usage : UsageMetadata) : ℕ :=
  usage.totalTokenCount.getD (usage.promptTokenCount.getD 0 + usage.candidatesTokenCount.getD 0)

/-- **The exact cost of a call**, at 0.000000075 dollars for an input token and 0.0000003 for an output token. -/
def exactCost (usage : UsageMetadata) : ℚ :=
  (usage.promptTokenCount.getD 0 : ℕ) * (75 / 10 ^ 9) + (usage.candidatesTokenCount.getD 0 : ℕ) * (3 / 10 ^ 7)

theorem exactCost_nonneg (usage : UsageMetadata) : 0 ≤ exactCost usage := by
  unfold exactCost
  positivity

/-- What a total shows: `n` units, or nothing. -/
def Shows (text : ℕ → Text) (n : ℕ) : Option Text → Prop
  | none => n = 0
  | some stored => stored = text n

/-! ## The accounts of the gateway -/

/-- **A kind of total**: its key, the size of its unit, how far one recording may be off, up to which sum that
holds, the exact amount of a call, and the texts. -/
structure Account (g : GeminiAIGateway) where
  key : Text
  unit : ℚ
  drift : ℚ
  limit : ℚ
  amount : UsageMetadata → ℚ
  text : ℕ → Text
  newText : UsageMetadata → Option Text → Text
  drift_nonneg : 0 ≤ drift
  amount_nonneg : ∀ usage, 0 ≤ amount usage
  /-- The total that is also counted up one by one is a number of ones, and stays exact. -/
  counter : key = tokensKey → unit = 1 ∧ limit ≤ 2 ^ 53 ∧ text = showNat
  /-- Only the recording of a call writes the total, and nothing else but the counting changes it. -/
  expected_set : ∀ {past written ttl}, Expected g past (.cache (.set key written ttl)) → ttl = some retentionSec ∧
    ∃ usage stored, Adds key past usage stored ∧ written = newText usage stored
  expected_increment : ∀ {past ttl}, Expected g past (.cache (.increment key ttl)) → key = tokensKey ∧ ttl = none
  expected_delete : ∀ {past}, ¬ Expected g past (.cache (.delete key))
  /-- One recording is off by no more than the drift. -/
  newText_eq : ∀ {n stored usage}, Shows text n stored → n * unit + amount usage ≤ limit →
    ∃ n' : ℕ, newText usage stored = text n' ∧ |n' * unit - (n * unit + amount usage)| ≤ drift

section Tokens

variable {n : ℕ} {stored : Option Text} {usage : UsageMetadata}

/-- An exact number of tokens is read as it is. -/
theorem readTotal_tokens (hshows : Shows showNat n stored) (hn : (n : ℚ) ≤ 2 ^ 53) :
    readTotal parseInt stored = .finite n := by
  have hdouble : double (n : ℚ) = n := double_natCast (by exact_mod_cast hn)
  cases stored with
  | none =>
    obtain rfl : n = 0 := hshows
    rfl
  | some text =>
    obtain rfl : text = showNat n := hshows
    obtain ⟨c, s, hcons, -⟩ := exists_cons_showNat n
    have htruthy : truthyText (some (showNat n)) = some (showNat n) := by rw [hcons]; rfl
    have hsmall : |(n : ℚ)| ≤ 2 ^ 1023 := by
      rw [abs_of_nonneg n.cast_nonneg]
      exact hn.trans (pow_le_pow_right₀ one_le_two (by decide))
    rw [readTotal, htruthy]
    exact (parseInt_showNat n).trans ((JsNumber.ofExact_of_abs_le hsmall).trans (by rw [hdouble]))

/-- **A new token total is exact.** -/
theorem tokensText_eq (g : GeminiAIGateway) (hshows : Shows showNat n stored)
    (hle : ((n + tokenCount usage : ℕ) : ℚ) ≤ 2 ^ 53) :
    tokensText g usage stored = showNat (n + tokenCount usage) := by
  have hnat : n + tokenCount usage ≤ 2 ^ 53 := by exact_mod_cast hle
  have htotal : (estimateFinOpsCost usage).tokensTotal = tokenCount usage := by
    unfold estimateFinOpsCost tokenCount
    unfold tokenCount at hnat
    cases htokens : usage.totalTokenCount with
    | some total => rfl
    | none =>
      rw [htokens, Option.getD_none] at hnat
      show double _ = _
      rw [← Nat.cast_add, double_natCast ((Nat.le_add_left _ _).trans hnat)]
      rfl
  have hread := readTotal_tokens hshows (by exact_mod_cast (Nat.le_add_right _ _).trans hnat)
  have habs : |((n + tokenCount usage : ℕ) : ℚ)| ≤ 2 ^ 53 := by
    rwa [abs_of_nonneg (Nat.cast_nonneg _)]
  have hadd : (JsNumber.finite n).add (.finite (tokenCount usage)) = .finite ((n + tokenCount usage : ℕ) : ℚ) := by
    rw [JsNumber.add, ← Nat.cast_add,
      JsNumber.ofExact_of_abs_le (habs.trans (pow_le_pow_right₀ one_le_two (by decide))), double_natCast hnat]
  rw [tokensText, hread, htotal, hadd, showNumber, numberToString, if_pos ⟨Rat.den_natCast _, habs⟩, Rat.num_natCast]
  rfl

/-- **The account of the tokens** is exact. -/
def tokensAccount (g : GeminiAIGateway) : Account g where
  key := tokensKey
  unit := 1
  drift := 0
  limit := 2 ^ 53
  amount usage := tokenCount usage
  text := showNat
  newText := tokensText g
  drift_nonneg := le_rfl
  amount_nonneg _ := Nat.cast_nonneg _
  counter _ := ⟨rfl, le_rfl, rfl⟩
  expected_set h := h.1 rfl
  expected_increment h := ⟨rfl, h.2 rfl⟩
  expected_delete h := h.1 rfl
  newText_eq := by
    intro n stored usage hshows hle
    have hsum : ((n + tokenCount usage : ℕ) : ℚ) ≤ 2 ^ 53 := by
      rw [Nat.cast_add]
      linarith
    refine ⟨_, tokensText_eq g hshows hsum, ?_⟩
    rw [Nat.cast_add, mul_one, mul_one, sub_self, abs_zero]

end Tokens

section Cost

variable {n : ℕ} {stored : Option Text}

/-- The number of a cost of `n` millionths. -/
theorem readTotal_cost (hshows : Shows (decimals 6) n stored) (hn : (n : ℚ) / 10 ^ 6 ≤ 10 ^ 9) :
    readTotal parseFloat stored = .finite (double (n / 10 ^ 6)) := by
  cases stored with
  | none =>
    obtain rfl : n = 0 := hshows
    simp [readTotal, truthyText]
  | some text =>
    obtain rfl : text = decimals 6 n := hshows
    obtain ⟨c, s, hcons, -⟩ := exists_cons_showNat (n / 10 ^ 6)
    have htruthy : truthyText (some (decimals 6 n)) = some (decimals 6 n) := by rw [decimals, hcons]; rfl
    have hsmall : |(n : ℚ) / 10 ^ 6| ≤ 2 ^ 1023 := by
      rw [abs_of_nonneg (by positivity)]
      exact hn.trans ((by norm_num : (10 : ℚ) ^ 9 ≤ 2 ^ 30).trans (pow_le_pow_right₀ one_le_two (by decide)))
    rw [readTotal, htruthy]
    exact (parseFloat_decimals (by decide) n).trans (JsNumber.ofExact_of_abs_le hsmall)

/-- A number of millionths is read up to two parts in `2 ^ 53`. -/
theorem approx_millionths (n : ℕ) : Approx 2 (double (n / 10 ^ 6)) (n / 10 ^ 6) := by
  refine (Approx.refl ?_).double (by decide)
  rcases Nat.eq_zero_or_pos n with rfl | hpos
  · exact .inl (by simp)
  · have hone : (1 : ℚ) ≤ n := by exact_mod_cast hpos
    exact .inr (by linarith)

/-- The estimated cost is the exact one up to six parts in `2 ^ 53`. -/
theorem approx_estimateCost (tokensInput tokensOutput : ℕ) :
    Approx 6 (estimateCost tokensInput tokensOutput)
      (tokensInput * (75 / 10 ^ 9) + tokensOutput * (3 / 10 ^ 7)) := by
  have hinput : Approx 2 inputTokenPrice (75 / 10 ^ 9) := (Approx.refl (.inr (by norm_num))).double (by decide)
  have houtput : Approx 2 outputTokenPrice (3 / 10 ^ 7) := (Approx.refl (.inr (by norm_num))).double (by decide)
  have hsum := ((hinput.nat_mul tokensInput).double (by decide)).add ((houtput.nat_mul tokensOutput).double (by decide))
  exact hsum.double (by decide)

/-- **A new cost total is off by less than a millionth**: half of one for the rounding, and the errors of the
doubles. -/
theorem exists_costText (g : GeminiAIGateway) {usage : UsageMetadata} (hshows : Shows (decimals 6) n stored)
    (hle : (n : ℚ) / 10 ^ 6 + exactCost usage ≤ 10 ^ 8) : ∃ n' : ℕ, costText g usage stored = decimals 6 n' ∧
      |(n' : ℚ) / 10 ^ 6 - (n / 10 ^ 6 + exactCost usage)| ≤ 6 / 10 ^ 7 := by
  have hcost := exactCost_nonneg usage
  have hn : (0 : ℚ) ≤ n / 10 ^ 6 := by positivity
  have hread := readTotal_cost hshows (by linarith)
  have happrox : Approx 6 (double (n / 10 ^ 6) + (estimateFinOpsCost usage).costEstimateUsd)
      (n / 10 ^ 6 + exactCost usage) := ((approx_millionths n).mono (by decide)).add (approx_estimateCost _ _)
  have hsum := happrox.close
  have hrounded := (happrox.double (by decide)).close
  obtain ⟨hsumLow, hsumHigh⟩ := abs_le.mp hsum
  set exact := (n : ℚ) / 10 ^ 6 + exactCost usage with hexact
  set sum := double (n / 10 ^ 6) + (estimateFinOpsCost usage).costEstimateUsd
  obtain ⟨hlow, hhigh⟩ := abs_le.mp hrounded
  have hexactNonneg : 0 ≤ exact := by linarith
  have herror : ((6 + 2 : ℕ) : ℚ) * exact / 2 ^ 53 ≤ 1 / 10 ^ 7 := by
    rw [div_le_iff₀ (by norm_num)]
    norm_num
    linarith
  have hself : ((6 + 2 : ℕ) : ℚ) * exact / 2 ^ 53 ≤ exact := by
    rw [div_le_iff₀ (by norm_num)]
    norm_num
    linarith
  have hnonneg : 0 ≤ double sum := by linarith
  have hsumBound : |sum| ≤ 2 ^ 1023 := by
    have hbound : |sum| ≤ 10 ^ 9 := by
      rw [abs_le]
      norm_num at hsumLow hsumHigh ⊢
      constructor <;> linarith
    exact hbound.trans ((by norm_num : (10 : ℚ) ^ 9 ≤ 2 ^ 30).trans (pow_le_pow_right₀ one_le_two (by decide)))
  have hfixed : toFixed g.showOther 6 (.finite (double sum)) = decimals 6 (placesOf 6 (double sum)) := by
    have hsmall : ¬ (10 : ℚ) ^ 21 ≤ |double sum| := by
      rw [abs_of_nonneg hnonneg, not_le]
      linarith
    rw [toFixed, if_neg hsmall, if_neg (not_lt.mpr hnonneg)]
  refine ⟨placesOf 6 (double sum), ?_, ?_⟩
  · rw [costText, hread, JsNumber.add, JsNumber.ofExact_of_abs_le hsumBound, hfixed]
  -- half a millionth for the rounding to six decimals
  · have hround := abs_sub_round (double sum * 10 ^ 6)
    have hplaces : ((placesOf 6 (double sum) : ℕ) : ℚ) = (round (double sum * 10 ^ 6) : ℤ) := by
      have hpos : 0 ≤ round (double sum * 10 ^ 6) := by
        rw [round_eq]
        exact Int.floor_nonneg.mpr (by positivity)
      rw [placesOf]
      exact_mod_cast Int.toNat_of_nonneg hpos
    rw [abs_le] at hround
    rw [hplaces, abs_le]
    constructor
    · linarith
    · linarith

/-- **The account of the cost** counts millionths of a dollar. -/
def costAccount (g : GeminiAIGateway) : Account g where
  key := costKey
  unit := 1 / 10 ^ 6
  drift := 6 / 10 ^ 7
  limit := 10 ^ 8
  amount := exactCost
  text := decimals 6
  newText := costText g
  drift_nonneg := by norm_num
  amount_nonneg := exactCost_nonneg
  counter h := absurd h (by decide)
  expected_set h := h.2 rfl
  expected_increment h := absurd rfl h.1
  expected_delete h := h.2 rfl
  newText_eq := by
    intro n stored usage hshows hle
    rw [mul_one_div] at hle
    obtain ⟨n', htext, hclose⟩ := exists_costText g hshows hle
    refine ⟨n', htext, ?_⟩
    rwa [mul_one_div, mul_one_div]

end Cost

end DreamWeaver.Gateway
