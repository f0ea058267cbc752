import DreamWeaver.Stories.StoryEntity

/-! # Paragraphs that are joined and split

A raw text is split at blank lines, and the paragraphs are joined with blank lines again. A paragraph is tidy:
it is trimmed, not empty, and has no blank line in it. Tidy paragraphs are what splitting their joined text gives
back. -/

namespace DreamWeaver.Stories

open Regex

/-- `/\n\n+/` -/
abbrev blankLines : Regex := seqs [.cls (.unit 10), some1 (.unit 10)]

variable {text p s rest : Text} {ps : List Text} {prev : Option CodeUnit}

/-! ## Trimmed texts -/

/-- A trimmed text does not begin with white space. -/
theorem head?_ne_of_trim_eq (h : trim p = p) {c : CodeUnit} (hc : isWhite c = true) : p.head? ≠ some c := by
  cases p with
  | nil => exact fun h => nomatch h
  | cons d s =>
    rw [List.head?_cons]
    intro heq
    obtain rfl := Option.some.inj heq
    have hstart : trimStart (d :: s) = trimStart s := by rw [trimStart, List.dropWhile_cons_of_pos hc, trimStart]
    have hlength : (trim (d :: s)).length ≤ s.length := by
      rw [trim, hstart]
      exact ((List.rdropWhile_prefix isWhite _).length_le).trans (List.dropWhile_suffix isWhite).length_le
    rw [h, List.length_cons] at hlength
    omega

/-- A trimmed text does not end with white space. -/
theorem getLast?_ne_of_trim_eq (h : trim p = p) {c : CodeUnit} (hc : isWhite c = true) :
    p.getLast? ≠ some c := by
  intro hlast
  have hne : trimEnd (trimStart p) ≠ [] := by
    change trim p ≠ []
    rw [h]
    rintro rfl
    cases hlast
  have hwhite : ¬ isWhite ((trimEnd (trimStart p)).getLast hne) = true := List.rdropWhile_last_not _ _ hne
  have hlast' : (trimEnd (trimStart p)).getLast? = some c := by
    change (trim p).getLast? = some c
    rw [h, hlast]
  rw [List.getLast?_eq_getLast_of_ne_nil hne] at hlast'
  exact hwhite (by rw [Option.some.inj hlast']; exact hc)

/-- What is trimmed is not trimmed again. -/
theorem trim_trim (s : Text) : trim (trim s) = trim s := by
  have hstart : trimStart (trim s) = trim s := by
    cases htrim : trim s with
    | nil => rfl
    | cons c t =>
      have hprefix : c :: t <+: trimStart s := htrim ▸ List.rdropWhile_prefix isWhite (trimStart s)
      have hhead : (s.dropWhile isWhite).head? = some c := by
        obtain ⟨rest, hrest⟩ := hprefix
        change (trimStart s).head? = some c
        rw [← hrest]
        rfl
      have hnot := List.head?_dropWhile_not isWhite s
      rw [hhead] at hnot
      rw [trimStart, List.dropWhile_cons_of_neg (by simpa using hnot)]
  have hend : trimEnd (trim s) = trim s := List.rdropWhile_idempotent _ _
  rw [trim, hstart, hend]

/-! ## Blank lines -/

/-- A blank line is two newlines and further ones. -/
theorem matches_blankLines_iff {next : Option CodeUnit} {m : Text} :
    Matches blankLines prev m next ↔ ∃ k, m = 10 :: 10 :: List.replicate k 10 := by
  constructor
  · rintro ⟨_, _, rfl, ⟨x, rfl, hx⟩, _, rest, rfl, ⟨y, rfl, hy⟩, hrest⟩
    obtain rfl : x = 10 := of_decide_eq_true hx
    obtain rfl : y = 10 := of_decide_eq_true hy
    have hall : rest = List.replicate rest.length 10 :=
      List.eq_replicate_of_mem fun z hz => of_decide_eq_true (hrest z hz)
    exact ⟨rest.length, congrArg (fun t => 10 :: 10 :: t) hall⟩
  · rintro ⟨k, rfl⟩
    refine ⟨[10], 10 :: List.replicate k 10, rfl, ⟨10, rfl, rfl⟩, [10], List.replicate k 10, rfl, ⟨10, rfl, rfl⟩, ?_⟩
    intro z hz
    rw [List.eq_of_mem_replicate hz]
    rfl

theorem test_blankLines_iff : test blankLines s = true ↔ [10, 10] <:+: s := by
  rw [test_iff]
  constructor
  · rintro ⟨a, m, b, rfl, hm⟩
    obtain ⟨k, rfl⟩ := matches_blankLines_iff.mp hm
    exact ⟨a, List.replicate k 10 ++ b, by simp⟩
  · rintro ⟨a, b, rfl⟩
    exact ⟨a, [10, 10], b, rfl, matches_blankLines_iff.mpr ⟨0, rfl⟩⟩

/-- No blank line begins where there are not two newlines. -/
theorem runs_blankLines_eq_nil (h : ¬ [10, 10] <+: s) : runs blankLines prev s = [] := by
  refine List.eq_nil_iff_forall_not_mem.mpr fun q hq => ?_
  obtain ⟨rfl, hm⟩ := mem_runs.mp (show (q.1, q.2) ∈ _ from hq)
  obtain ⟨k, hk⟩ := matches_blankLines_iff.mp hm
  exact h ⟨List.replicate k 10 ++ q.2, by rw [hk]; simp⟩

/-- Where two newlines are not followed by a third, they are the blank line. -/
theorem runs_blankLines_cons (h : rest.head? ≠ some 10) :
    runs blankLines prev (10 :: 10 :: rest) = [([10, 10], rest)] := by
  have hmany : manyRuns (.unit 10) rest = [([], rest)] := by
    cases rest with
    | nil => rfl
    | cons c t =>
      have hc : CharClass.has (.unit 10) c = false := decide_eq_false fun heq => h (by rw [heq]; rfl)
      rw [manyRuns, if_neg (by rw [hc]; decide)]
  simp [blankLines, seqs, some1, runs, hmany, CharClass.has]

/-- **The first blank line** behind a part that has none. -/
theorem search_blankLines (hp : ¬ [10, 10] <:+: p) (hlast : p.getLast? ≠ some 10) (hrest : rest.head? ≠ some 10) :
    search blankLines prev (p ++ 10 :: 10 :: rest) = some (p, [10, 10], rest) := by
  induction p generalizing prev with
  | nil => rw [List.nil_append, search, runs_blankLines_cons hrest]
  | cons c p ih =>
    have hnot : ¬ [10, 10] <+: c :: (p ++ 10 :: 10 :: rest) := by
      rintro ⟨t, ht⟩
      cases p with
      | nil => exact hlast (by rw [← (List.cons.inj ht).1]; rfl)
      | cons d p =>
        have hc : 10 = c := (List.cons.inj ht).1
        have hd : 10 = d := (List.cons.inj (List.cons.inj ht).2).1
        exact hp ⟨[], p, by rw [← hc, ← hd]; rfl⟩
    have hlast' : p.getLast? ≠ some 10 := by
      cases p with
      | nil => exact fun h => by cases h
      | cons d p => rwa [List.getLast?_cons_cons] at hlast
    rw [List.cons_append, search, runs_blankLines_eq_nil hnot]
    dsimp only
    rw [ih (fun h => hp (h.trans (List.suffix_cons c p).isInfix)) hlast']
    rfl

/-! ## Tidy paragraphs -/

/-- A paragraph that splitting a text can give. -/
structure Tidy (p : Text) : Prop where
  trimmed : trim p = p
  ne_nil : p ≠ []
  noBlankLine : ¬ [10, 10] <:+: p

theorem isWhite_newline : isWhite 10 = true := by decide

/-- The paragraphs of a raw text are tidy. -/
theorem tidy_of_mem_paragraphsOf (h : p ∈ paragraphsOf text) : Tidy p := by
  obtain ⟨hmem, hne⟩ := List.mem_filter.mp h
  obtain ⟨piece, hpiece, rfl⟩ := List.mem_map.mp hmem
  have hne : trim piece ≠ [] := by simpa using hne
  refine ⟨trim_trim piece, hne, fun hblank => ?_⟩
  have htest : test blankLines piece = false :=
    test_of_mem_keptPieces rfl (fun _ m _ hm => by
      obtain ⟨k, rfl⟩ := matches_blankLines_iff.mp hm
      exact List.cons_ne_nil _ _) le_rfl hpiece
  rw [test_blankLines_iff.mpr (hblank.trans (trim_isInfix piece))] at htest
  cases htest

theorem head?_joinWith {sep q : Text} {qs : List Text} (hq : q ≠ []) :
    (joinWith sep (q :: qs)).head? = q.head? := by
  obtain ⟨c, q, rfl⟩ := List.exists_cons_of_ne_nil hq
  cases qs with
  | nil => rw [joinWith, List.intercalate_singleton]
  | cons r qs => rw [joinWith, List.intercalate_cons_cons]; rfl

/-- There are no more paragraphs than what is joined has room for. -/
theorem length_le_joinWith {sep : Text} (hsep : sep ≠ []) (ps : List Text) :
    ps.length ≤ (joinWith sep ps).length + 1 := by
  have hpos : 0 < sep.length := List.length_pos_of_ne_nil hsep
  induction ps with
  | nil => exact Nat.zero_le _
  | cons p ps ih =>
    cases ps with
    | nil => simp
    | cons q qs =>
      rw [joinWith] at ih ⊢
      rw [List.intercalate_cons_cons, List.length_append, List.length_append, List.length_cons]
      omega

/-- **Splitting undoes joining** of tidy paragraphs. -/
theorem keptPieces_joinWith (hps : ∀ p ∈ ps, Tidy p) (hne : ps ≠ []) {n : ℕ} (hn : ps.length ≤ n + 1) :
    keptPieces blankLines n prev (joinWith (lit "\n\n") ps) = ps := by
  induction ps generalizing prev n with
  | nil => exact absurd rfl hne
  | cons p ps ih =>
    obtain ⟨hp, hrest⟩ := List.forall_mem_cons.mp hps
    cases ps with
    | nil =>
      have hnone : ¬ Occurs blankLines prev p := fun ⟨a, m, b, heq, hm⟩ => by
        obtain ⟨k, rfl⟩ := matches_blankLines_iff.mp hm
        exact hp.noBlankLine ⟨a, List.replicate k 10 ++ b, by rw [heq]; simp⟩
      rw [joinWith, List.intercalate_singleton]
      cases n with
      | zero => rfl
      | succ n => rw [keptPieces, search_eq_none_iff.mpr hnone]
    | cons q qs =>
      cases n with
      | zero => simp at hn
      | succ n =>
        have hjoin : joinWith (lit "\n\n") (p :: q :: qs) = p ++ 10 :: 10 :: joinWith (lit "\n\n") (q :: qs) := by
          rw [joinWith, List.intercalate_cons_cons, List.append_assoc]
          rfl
        have hhead : (joinWith (lit "\n\n") (q :: qs)).head? ≠ some 10 := by
          rw [head?_joinWith (hps q (by simp)).ne_nil]
          exact head?_ne_of_trim_eq (hps q (by simp)).trimmed isWhite_newline
        rw [hjoin, keptPieces, search_blankLines hp.noBlankLine (getLast?_ne_of_trim_eq hp.trimmed isWhite_newline) hhead]
        dsimp only
        rw [ih hrest (List.cons_ne_nil _ _) (by simpa using hn)]

end DreamWeaver.Stories
