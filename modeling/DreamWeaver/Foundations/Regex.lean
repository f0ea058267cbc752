import DreamWeaver.Foundations.JsText

/-! # Regular expressions

The fragment of JavaScript's regular expressions without the `u` and `m` flags in which a repeated
item is a single character class. `Regex.runs` is the backtracking matcher: it lists the ways a
pattern can match at a position in the order in which backtracking tries them, so its head is the
match the language reports. `Regex.Matches` is the declarative reading of a pattern, relative to
the units next to the matched part (which decide the assertions `\b` and `^`), and `mem_runs` says
that the two agree. From it come the rules that proofs about patterns use: `test_iff` for what
`test` decides, `test_append` for carrying a match into a larger text, and the lemmas on
`keptPieces` for what `replace` with the `g` flag and an empty replacement leaves. -/

namespace DreamWeaver

/-- A character class. -/
inductive CharClass where
  /-- Exactly one unit. -/
  | unit (c : CodeUnit)
  /-- A unit up to ASCII case, under the `i` flag. -/
  | folded (c : CodeUnit)
  /-- `\w` -/
  | word
  /-- `\s` -/
  | space
  /-- The dot: everything but a line terminator. -/
  | dot
  /-- `[\s\S]` -/
  | any
  deriving DecidableEq, Repr

/-- Whether a unit belongs to a class. -/
def CharClass.has : CharClass → CodeUnit → Bool
  | .unit c, x => x == c
  | .folded c, x => foldAscii x == foldAscii c
  | .word, x => isWordUnit x
  | .space, x => isWhite x
  | .dot, x => !isLineTerminator x
  | .any, _ => true

/-- A regular expression. -/
inductive Regex where
  /-- The empty pattern. -/
  | empty
  /-- One unit of a class. -/
  | cls (c : CharClass)
  /-- One pattern after another. -/
  | seq (first second : Regex)
  /-- The first alternative, or the second. -/
  | alt (first second : Regex)
  /-- `c*`, or `c*?` when not greedy. -/
  | many (greedy : Bool) (c : CharClass)
  /-- `\b` -/
  | boundary
  /-- `^` -/
  | start
  deriving DecidableEq, Repr

namespace Regex

/-! ## Notation for patterns -/

/-- Several patterns in sequence. -/
def seqs : List Regex → Regex
  | [] => .empty
  | [r] => r
  | r :: rs => .seq r (seqs rs)

/-- Several alternatives. -/
def alts : List Regex → Regex
  | [] => .empty
  | [r] => r
  | r :: rs => .alt r (alts rs)

/-- `r?` -/
def opt (r : Regex) : Regex := .alt r .empty

/-- `c+` -/
def some1 (c : CharClass) : Regex := .seq (.cls c) (.many true c)

/-- A literal word, matched exactly. -/
def exactly (s : String) : Regex := seqs ((lit s).map fun c => .cls (.unit c))

/-- A literal word, matched up to ASCII case. -/
def folding (s : String) : Regex := seqs ((lit s).map fun c => .cls (.folded c))

/-! ## The backtracking matcher -/

/-- Whether the unit at a side of a position, if there is one, is a word unit. -/
def wordAt : Option CodeUnit → Bool
  | none => false
  | some c => isWordUnit c

/-- The ways to match `c*`, the shortest first. -/
def manyRuns (c : CharClass) : Text → List (Text × Text)
  | [] => [([], [])]
  | x :: s => ([], x :: s) ::
      if c.has x then (manyRuns c s).map fun p => (x :: p.1, p.2) else []

/-- The ways to match a pattern where a text begins, as pairs of the matched part and the rest, in
the order in which backtracking tries them. `prev` is the unit before the text. -/
def runs : Regex → Option CodeUnit → Text → List (Text × Text)
  | .empty, _, s => [([], s)]
  | .cls c, _, s =>
    match s with
    | [] => []
    | x :: t => if c.has x then [([x], t)] else []
  | .seq r₁ r₂, prev, s =>
    (runs r₁ prev s).flatMap fun p =>
      (runs r₂ (p.1.getLast?.or prev) p.2).map fun q => (p.1 ++ q.1, q.2)
  | .alt r₁ r₂, prev, s => runs r₁ prev s ++ runs r₂ prev s
  | .many greedy c, _, s => if greedy then (manyRuns c s).reverse else manyRuns c s
  | .boundary, prev, s => if wordAt prev != wordAt s.head? then [([], s)] else []
  | .start, prev, s => if prev.isNone then [([], s)] else []

/-- The leftmost match in a text: what comes before it, the match, and what comes after it. -/
def search (r : Regex) : Option CodeUnit → Text → Option (Text × Text × Text)
  | prev, s =>
    match runs r prev s with
    | (m, rest) :: _ => some ([], m, rest)
    | [] =>
      match s with
      | [] => none
      | x :: t => (search r (some x) t).map fun p => (x :: p.1, p.2)

/-- `r.test(s)` -/
def test (r : Regex) (s : Text) : Bool := (search r none s).isSome

/-- The parts of a text outside the matches that `s.replace(r, …)` with the `g` flag replaces, by
at most `n` replacements. -/
def keptPieces (r : Regex) : ℕ → Option CodeUnit → Text → List Text
  | 0, _, s => [s]
  | n + 1, prev, s =>
    match search r prev s with
    | none => [s]
    | some (a, m, rest) => a :: keptPieces r n ((a ++ m).getLast?.or prev) rest

/-- `s.replace(r, '')` with the `g` flag, for a pattern without empty matches. -/
def removeAll (r : Regex) (s : Text) : Text := (keptPieces r s.length none s).flatten

attribute [local simp] runs manyRuns keptPieces

/-- `s.replace(r, '')` without the `g` flag. -/
def removeOnce (r : Regex) (s : Text) : Text :=
  match search r none s with
  | none => s
  | some (a, _, rest) => a ++ rest

/-! ## The declarative reading -/

/-- `r.Matches prev m next`: the pattern matches the text `m` between the units `prev` and `next`
(`none` at an end of the whole text). -/
def Matches : Regex → Option CodeUnit → Text → Option CodeUnit → Prop
  | .empty, _, m, _ => m = []
  | .cls c, _, m, _ => ∃ x, m = [x] ∧ c.has x = true
  | .seq r₁ r₂, prev, m, next => ∃ m₁ m₂, m = m₁ ++ m₂ ∧
      Matches r₁ prev m₁ (m₂.head?.or next) ∧ Matches r₂ (m₁.getLast?.or prev) m₂ next
  | .alt r₁ r₂, prev, m, next => Matches r₁ prev m next ∨ Matches r₂ prev m next
  | .many _ c, _, m, _ => ∀ x ∈ m, c.has x = true
  | .boundary, prev, m, next => m = [] ∧ wordAt prev ≠ wordAt next
  | .start, prev, m, _ => m = [] ∧ prev = none

/-- The ways to match `c*` are the splits whose first part lies in the class. -/
theorem mem_manyRuns {c : CharClass} {s m rest : Text} :
    (m, rest) ∈ manyRuns c s ↔ s = m ++ rest ∧ ∀ x ∈ m, c.has x = true := by
  induction s generalizing m with
  | nil =>
    simp only [manyRuns, List.mem_singleton, Prod.mk.injEq, List.nil_eq_append_iff]
    constructor
    · rintro ⟨rfl, rfl⟩; simp
    · rintro ⟨h, -⟩; exact h
  | cons x s ih =>
    rw [manyRuns, List.mem_cons, Prod.mk.injEq]
    cases m with
    | nil =>
      have hne : ([], rest) ∉ (if c.has x = true then
          (manyRuns c s).map fun p => (x :: p.1, p.2) else []) := by
        split <;> simp
      constructor
      · rintro (⟨-, rfl⟩ | h)
        · simp
        · exact absurd h hne
      · rintro ⟨rfl, -⟩
        exact Or.inl ⟨rfl, rfl⟩
    | cons y m =>
      by_cases hx : c.has x = true
      · rw [if_pos hx]
        constructor
        · rintro (⟨h, -⟩ | h)
          · cases h
          · obtain ⟨⟨m', rest'⟩, hmem, heq⟩ := List.mem_map.mp h
            cases heq
            obtain ⟨rfl, hm⟩ := ih.mp hmem
            exact ⟨rfl, by simpa [hx] using hm⟩
        · rintro ⟨hs, hm⟩
          obtain ⟨rfl, rfl⟩ := List.cons.inj hs
          refine Or.inr (List.mem_map.mpr ⟨(m, rest), ih.mpr ⟨rfl, fun z hz => ?_⟩, rfl⟩)
          exact hm z (List.mem_cons_of_mem x hz)
      · rw [if_neg hx]
        constructor
        · rintro (⟨h, -⟩ | h) <;> cases h
        · rintro ⟨hs, hm⟩
          obtain ⟨rfl, rfl⟩ := List.cons.inj hs
          exact absurd (hm x (by simp)) hx

/-- **The matcher computes the declarative reading**: it lists the splits of the text whose first
part the pattern matches in its context. -/
theorem mem_runs {r : Regex} {prev : Option CodeUnit} {s m rest : Text} :
    (m, rest) ∈ runs r prev s ↔ s = m ++ rest ∧ Matches r prev m rest.head? := by
  induction r generalizing prev s m rest with
  | empty =>
    simp only [runs, Matches, List.mem_singleton, Prod.mk.injEq]
    constructor <;> (rintro ⟨rfl, rfl⟩; simp)
  | cls c =>
    simp only [runs, Matches]
    constructor
    · intro h
      split at h
      · cases h
      · split at h
        · cases List.mem_singleton.mp h
          exact ⟨rfl, _, rfl, by assumption⟩
        · cases h
    · rintro ⟨rfl, x, rfl, hx⟩
      simp [hx]
  | seq r₁ r₂ ih₁ ih₂ =>
    simp only [runs, Matches, List.mem_flatMap, List.mem_map, Prod.exists, Prod.mk.injEq]
    constructor
    · rintro ⟨m₁, t, h₁, m₂, t', h₂, rfl, rfl⟩
      obtain ⟨rfl, hm₁⟩ := ih₁.mp h₁
      obtain ⟨rfl, hm₂⟩ := ih₂.mp h₂
      refine ⟨by simp, m₁, m₂, rfl, ?_, hm₂⟩
      simpa [List.head?_append] using hm₁
    · rintro ⟨rfl, m₁, m₂, rfl, hm₁, hm₂⟩
      refine ⟨m₁, m₂ ++ rest, ih₁.mpr ⟨by simp, ?_⟩, m₂, rest, ih₂.mpr ⟨rfl, hm₂⟩, rfl, rfl⟩
      simpa [List.head?_append] using hm₁
  | alt r₁ r₂ ih₁ ih₂ =>
    simp only [runs, Matches, List.mem_append, ih₁, ih₂]
    tauto
  | many greedy c => cases greedy <;> simp [Matches, mem_manyRuns]
  | boundary =>
    simp only [runs, Matches, bne_iff_ne]
    constructor
    · intro h
      split at h
      · cases List.mem_singleton.mp h
        exact ⟨rfl, rfl, by assumption⟩
      · cases h
    · rintro ⟨rfl, rfl, h⟩
      rw [if_pos (by simpa using h)]
      simp
  | start =>
    simp only [runs, Matches]
    cases prev with
    | none =>
      simp only [Option.isNone_none, if_true, List.mem_singleton, Prod.mk.injEq]
      constructor
      · rintro ⟨rfl, rfl⟩; simp
      · rintro ⟨rfl, rfl, -⟩; simp
    | some c => simp

/-! ## Searching -/

/-- The pattern matches in its context somewhere in a text that follows the unit `prev`. -/
def Occurs (r : Regex) (prev : Option CodeUnit) (s : Text) : Prop :=
  ∃ a m b, s = a ++ m ++ b ∧ Matches r (a.getLast?.or prev) m b.head?

/-- The unit before a position: after one more unit, the position follows that unit. -/
theorem getLast?_cons_or (x : CodeUnit) (a : Text) (prev : Option CodeUnit) :
    (x :: a).getLast?.or prev = a.getLast?.or (some x) := by
  rw [List.getLast?_cons]
  cases a.getLast? <;> rfl

/-- What `search` reports is an occurrence, and it is the leftmost one: at no earlier position can
the pattern match. -/
theorem search_spec {r : Regex} {prev : Option CodeUnit} {s a m b : Text}
    (h : search r prev s = some (a, m, b)) :
    s = a ++ m ++ b ∧ Matches r (a.getLast?.or prev) m b.head? ∧
      ∀ a₁ a₂, a = a₁ ++ a₂ → a₂ ≠ [] → runs r (a₁.getLast?.or prev) (a₂ ++ m ++ b) = [] := by
  induction s generalizing prev a with
  | nil =>
    rw [search] at h
    split at h
    · rename_i hruns
      cases h
      obtain ⟨hs, hm⟩ := mem_runs.mp (hruns ▸ List.mem_cons_self)
      refine ⟨by simpa using hs, by simpa using hm, ?_⟩
      rintro a₁ a₂ hnil hne
      simp_all
    · cases h
  | cons x t ih =>
    rw [search] at h
    split at h
    · rename_i hruns
      cases h
      obtain ⟨hs, hm⟩ := mem_runs.mp (hruns ▸ List.mem_cons_self)
      refine ⟨by simpa using hs, by simpa using hm, ?_⟩
      rintro a₁ a₂ hnil hne
      simp_all
    · rename_i hruns
      obtain ⟨⟨a', m', b'⟩, hsearch, heq⟩ := Option.map_eq_some_iff.mp h
      cases heq
      obtain ⟨rfl, hm, hleft⟩ := ih hsearch
      refine ⟨by simp, ?_, ?_⟩
      · rwa [getLast?_cons_or]
      · rintro a₁ a₂ ha hne
        cases a₁ with
        | nil => simp only [List.nil_append] at ha; subst ha; simpa using hruns
        | cons y a₁ =>
          obtain ⟨rfl, rfl⟩ := List.cons.inj ha
          have := hleft a₁ a₂ rfl hne
          rwa [getLast?_cons_or]

/-- `search` finds nothing exactly when the pattern occurs nowhere. -/
theorem search_eq_none_iff {r : Regex} {prev : Option CodeUnit} {s : Text} :
    search r prev s = none ↔ ¬ Occurs r prev s := by
  constructor
  · intro h
    induction s generalizing prev with
    | nil =>
      rw [search] at h
      split at h
      · cases h
      · rename_i hruns
        rintro ⟨a, m, b, hs, hm⟩
        obtain ⟨rfl, rfl, rfl⟩ : a = [] ∧ m = [] ∧ b = [] := by simpa using hs.symm
        have hmem : ([], []) ∈ runs r prev [] := mem_runs.mpr ⟨rfl, by simpa using hm⟩
        rw [hruns] at hmem
        cases hmem
    | cons x t ih =>
      rw [search] at h
      split at h
      · cases h
      · rename_i hruns
        rintro ⟨a, m, b, hs, hm⟩
        cases a with
        | nil =>
          have hmem : (m, b) ∈ runs r prev (x :: t) := mem_runs.mpr ⟨hs, by simpa using hm⟩
          rw [hruns] at hmem
          cases hmem
        | cons y a =>
          obtain ⟨rfl, rfl⟩ := List.cons.inj hs
          rw [getLast?_cons_or] at hm
          exact ih (Option.map_eq_none_iff.mp h) ⟨a, m, b, rfl, hm⟩
  · intro h
    cases hs : search r prev s with
    | none => rfl
    | some p =>
      obtain ⟨hs, hm, -⟩ := search_spec (a := p.1) (m := p.2.1) (b := p.2.2) hs
      exact absurd ⟨_, _, _, hs, hm⟩ h

/-- `test` decides whether the pattern occurs. -/
theorem test_iff {r : Regex} {s : Text} : test r s = true ↔ Occurs r none s := by
  rw [test, Option.isSome_iff_ne_none, ne_eq, search_eq_none_iff, not_not]

/-! ## How far a match depends on its context -/

/-- A pattern without `^`. -/
def anchorless : Regex → Bool
  | .seq r₁ r₂ | .alt r₁ r₂ => anchorless r₁ && anchorless r₂
  | .start => false
  | _ => true

/-- A pattern without `^` and `\b`. -/
def contextFree : Regex → Bool
  | .seq r₁ r₂ | .alt r₁ r₂ => contextFree r₁ && contextFree r₂
  | .start | .boundary => false
  | _ => true

/-- Between two neighbours of the same kind, the unit next to a part is of that kind too. -/
theorem wordAt_or_congr {c p q : Option CodeUnit} (h : wordAt p = wordAt q) :
    wordAt (c.or p) = wordAt (c.or q) := by
  cases c with
  | none => simpa using h
  | some c => rfl

/-- Without `^`, a match depends on its neighbours only through whether they are word units. -/
theorem Matches.congr_context {r : Regex} (hr : r.anchorless = true) {p p' n n' : Option CodeUnit}
    {m : Text} (hp : wordAt p = wordAt p') (hn : wordAt n = wordAt n') (h : Matches r p m n) :
    Matches r p' m n' := by
  induction r generalizing p p' n n' m with
  | empty => exact h
  | cls c => exact h
  | many greedy c => exact h
  | boundary => exact ⟨h.1, by rw [← hp, ← hn]; exact h.2⟩
  | start => simp [anchorless] at hr
  | alt r₁ r₂ ih₁ ih₂ =>
    rw [anchorless, Bool.and_eq_true] at hr
    exact h.imp (ih₁ hr.1 hp hn) (ih₂ hr.2 hp hn)
  | seq r₁ r₂ ih₁ ih₂ =>
    rw [anchorless, Bool.and_eq_true] at hr
    obtain ⟨m₁, m₂, rfl, h₁, h₂⟩ := h
    exact ⟨m₁, m₂, rfl, ih₁ hr.1 hp (wordAt_or_congr hn) h₁, ih₂ hr.2 (wordAt_or_congr hp) hn h₂⟩

/-- Without `^` and `\b`, a match does not depend on its neighbours. -/
theorem Matches.change_context {r : Regex} (hr : r.contextFree = true)
    {p p' n n' : Option CodeUnit} {m : Text} (h : Matches r p m n) : Matches r p' m n' := by
  induction r generalizing p p' n n' m with
  | empty => exact h
  | cls c => exact h
  | many greedy c => exact h
  | boundary => simp [contextFree] at hr
  | start => simp [contextFree] at hr
  | alt r₁ r₂ ih₁ ih₂ =>
    rw [contextFree, Bool.and_eq_true] at hr
    exact h.imp (ih₁ hr.1) (ih₂ hr.2)
  | seq r₁ r₂ ih₁ ih₂ =>
    rw [contextFree, Bool.and_eq_true] at hr
    obtain ⟨m₁, m₂, rfl, h₁, h₂⟩ := h
    exact ⟨m₁, m₂, rfl, ih₁ hr.1 h₁, ih₂ hr.2 h₂⟩

/-- **Carrying a match into a larger text.** What a pattern without `^` finds in a text it finds
wherever that text stands between units that are not word units. -/
theorem test_append {r : Regex} (hr : r.anchorless = true) {a k b : Text}
    (ha : wordAt a.getLast? = false) (hb : wordAt b.head? = false) (h : test r k = true) :
    test r (a ++ k ++ b) = true := by
  obtain ⟨x, m, y, rfl, hm⟩ := test_iff.mp h
  refine test_iff.mpr ⟨a ++ x, m, y ++ b, by simp, ?_⟩
  refine hm.congr_context hr ?_ ?_
  · rw [List.getLast?_append, Option.or_none, Option.or_none]
    cases x.getLast? with
    | none => simpa [wordAt] using ha.symm
    | some c => rfl
  · rw [List.head?_append]
    cases y.head? with
    | none => simpa [wordAt] using hb.symm
    | some c => rfl

/-! ## Matching over a small alphabet -/

/-- Whether a pattern can match a text over the given units at all. -/
def within (alphabet : List CodeUnit) : Regex → Bool
  | .cls c => alphabet.any c.has
  | .seq r₁ r₂ => within alphabet r₁ && within alphabet r₂
  | .alt r₁ r₂ => within alphabet r₁ || within alphabet r₂
  | _ => true

/-- A match over an alphabet makes the pattern matchable over it. -/
theorem Matches.within {alphabet : List CodeUnit} {r : Regex} {p n : Option CodeUnit} {m : Text}
    (h : Matches r p m n) (hm : ∀ x ∈ m, x ∈ alphabet) : r.within alphabet = true := by
  induction r generalizing p n m with
  | empty => rfl
  | many greedy c => rfl
  | boundary => rfl
  | start => rfl
  | cls c =>
    obtain ⟨x, rfl, hx⟩ := h
    exact List.any_eq_true.mpr ⟨x, hm x (by simp), hx⟩
  | alt r₁ r₂ ih₁ ih₂ =>
    rw [Regex.within, Bool.or_eq_true]
    exact h.imp (fun h => ih₁ h hm) (fun h => ih₂ h hm)
  | seq r₁ r₂ ih₁ ih₂ =>
    obtain ⟨m₁, m₂, rfl, h₁, h₂⟩ := h
    rw [Regex.within, Bool.and_eq_true]
    exact ⟨ih₁ h₁ fun x hx => hm x (List.mem_append_left m₂ hx),
      ih₂ h₂ fun x hx => hm x (List.mem_append_right m₁ hx)⟩

/-- A pattern that needs a unit outside the alphabet occurs in no text over it. -/
theorem test_eq_false_of_within {alphabet : List CodeUnit} {r : Regex}
    (hr : r.within alphabet = false) {s : Text} (hs : ∀ x ∈ s, x ∈ alphabet) :
    test r s = false := by
  rw [← Bool.not_eq_true, test_iff]
  rintro ⟨a, m, b, rfl, hm⟩
  have : r.within alphabet = true := hm.within fun x hx => hs x (by simp [hx])
  rw [hr] at this
  cases this

/-! ## What a global replacement leaves -/

/-- Every match of the pattern is non-empty and begins and ends with units that are not word
units. -/
def Fenced (r : Regex) : Prop :=
  ∀ p m n, Matches r p m n → m ≠ [] ∧ wordAt m.head? = false ∧ wordAt m.getLast? = false

/-- A match of a sequence of folded units is the sequence, up to ASCII case. -/
theorem Matches.map_foldAscii {w : Text} {p n : Option CodeUnit} {m : Text}
    (h : Matches (seqs (w.map fun c => .cls (.folded c))) p m n) :
    m.map foldAscii = w.map foldAscii := by
  induction w generalizing p m with
  | nil => simpa [seqs, Matches] using h
  | cons c w ih =>
    cases w with
    | nil =>
      obtain ⟨x, rfl, hx⟩ := h
      simpa [CharClass.has] using hx
    | cons c' w =>
      obtain ⟨m₁, m₂, rfl, ⟨x, rfl, hx⟩, hrest⟩ := h
      rw [List.map_append, ih hrest]
      simpa [CharClass.has] using hx

/-- The neighbours of a text are word units when those of its lower-cased form are. -/
theorem wordAt_map_foldAscii (c : Option CodeUnit) : wordAt (c.map foldAscii) = wordAt c := by
  cases c with
  | none => rfl
  | some c => exact isWordUnit_foldAscii c

/-- A pattern that begins with one word, ends with another, and has no word unit at its outer ends
matches only fenced parts. -/
theorem fenced_of_words {w w' : Text} {r : Regex} (hw : w ≠ []) (hw' : w' ≠ [])
    (hfirst : wordAt w.head? = false) (hlast : wordAt w'.getLast? = false) :
    Fenced (seqs [seqs (w.map fun c => .cls (.folded c)), r,
      seqs (w'.map fun c => .cls (.folded c))]) := by
  rintro p m n ⟨m₁, m', rfl, h₁, m₂, m₃, rfl, -, h₃⟩
  have hm₁ := h₁.map_foldAscii
  have hm₃ := h₃.map_foldAscii
  have hne₁ : m₁ ≠ [] := by
    rintro rfl
    exact hw (by simpa using hm₁.symm)
  have hne₃ : m₃ ≠ [] := by
    rintro rfl
    exact hw' (by simpa using hm₃.symm)
  refine ⟨by simp [hne₁], ?_, ?_⟩
  · rw [List.head?_append_of_ne_nil _ hne₁, ← wordAt_map_foldAscii, ← List.head?_map, hm₁,
      List.head?_map, wordAt_map_foldAscii, hfirst]
  · rw [← List.append_assoc, List.getLast?_append_of_ne_nil _ hne₃, ← wordAt_map_foldAscii,
      ← List.getLast?_map, hm₃, List.getLast?_map, wordAt_map_foldAscii, hlast]

/-- A kept piece stands in the text between units that are not word units, or at an end. -/
theorem exists_append_of_mem_keptPieces {r : Regex} (hr : Fenced r) {n : ℕ}
    {prev : Option CodeUnit} {s k : Text} (hk : k ∈ keptPieces r n prev s) :
    ∃ a b, s = a ++ k ++ b ∧ wordAt a.getLast? = false ∧ wordAt b.head? = false := by
  induction n generalizing prev s with
  | zero =>
    rw [keptPieces, List.mem_singleton] at hk
    exact ⟨[], [], by simp [hk], rfl, rfl⟩
  | succ n ih =>
    rw [keptPieces] at hk
    split at hk
    · rw [List.mem_singleton] at hk
      exact ⟨[], [], by simp [hk], rfl, rfl⟩
    · rename_i a m rest hsearch
      obtain ⟨rfl, hm, -⟩ := search_spec hsearch
      obtain ⟨hne, hfirst, hlast⟩ := hr _ _ _ hm
      rcases List.mem_cons.mp hk with rfl | hk
      · refine ⟨[], m ++ rest, by simp, rfl, ?_⟩
        rwa [List.head?_append_of_ne_nil _ hne]
      · obtain ⟨a', b', rfl, ha', hb'⟩ := ih hk
        refine ⟨a ++ m ++ a', b', by simp, ?_, hb'⟩
        cases a' with
        | nil => rwa [List.append_nil, List.getLast?_append_of_ne_nil _ hne]
        | cons c a' => rwa [List.getLast?_append_of_ne_nil _ (List.cons_ne_nil c a')]

/-- A pattern without assertions whose matches are non-empty occurs in no kept piece. -/
theorem test_of_mem_keptPieces {r : Regex} (hcf : r.contextFree = true)
    (hr : ∀ p m n, Matches r p m n → m ≠ []) {n : ℕ} {prev : Option CodeUnit} {s k : Text}
    (hn : s.length ≤ n) (hk : k ∈ keptPieces r n prev s) : test r k = false := by
  rw [← Bool.not_eq_true, test_iff]
  induction n generalizing prev s with
  | zero =>
    rw [keptPieces, List.mem_singleton] at hk
    obtain rfl : s = [] := List.length_eq_zero_iff.mp (Nat.le_zero.mp hn)
    rintro ⟨a, m, b, hs, hm⟩
    obtain ⟨-, rfl, -⟩ : a = [] ∧ m = [] ∧ b = [] := by simpa [hk] using hs.symm
    exact hr _ _ _ hm rfl
  | succ n ih =>
    rw [keptPieces] at hk
    split at hk
    · rename_i hsearch
      rw [List.mem_singleton] at hk
      rintro ⟨a, m, b, rfl, hm⟩
      exact search_eq_none_iff.mp hsearch ⟨a, m, b, hk.symm, hm.change_context hcf⟩
    · rename_i a m rest hsearch
      obtain ⟨rfl, hm, hleft⟩ := search_spec hsearch
      rcases List.mem_cons.mp hk with rfl | hk
      · -- an occurrence inside the piece would have been found before the match
        rintro ⟨x, m', y, rfl, hm'⟩
        have hne : m' ++ y ≠ [] := fun h => hr _ _ _ hm' (List.append_eq_nil_iff.mp h).1
        have hmem : (m', y ++ m ++ rest) ∈ runs r (x.getLast?.or prev) (m' ++ y ++ m ++ rest) :=
          mem_runs.mpr ⟨by simp, hm'.change_context hcf⟩
        rw [hleft x (m' ++ y) (by simp) hne] at hmem
        cases hmem
      · have hpos : 0 < m.length := List.length_pos_iff.mpr (hr _ _ _ hm)
        refine ih ?_ hk
        simp only [List.length_append] at hn
        omega

/-- A kept piece is a part of the text. -/
theorem infix_of_mem_keptPieces {r : Regex} {n : ℕ} {prev : Option CodeUnit} {s k : Text}
    (hk : k ∈ keptPieces r n prev s) : k <:+: s := by
  induction n generalizing prev s with
  | zero =>
    rw [keptPieces, List.mem_singleton] at hk
    rw [hk]
  | succ n ih =>
    rw [keptPieces] at hk
    split at hk
    · rw [List.mem_singleton] at hk
      rw [hk]
    · rename_i a m rest hsearch
      obtain ⟨rfl, -, -⟩ := search_spec hsearch
      rcases List.mem_cons.mp hk with rfl | hk
      · exact ⟨[], m ++ rest, by simp⟩
      · exact (ih hk).trans (List.suffix_append (a ++ m) rest).isInfix

/-- The kept pieces are left over from the text by deletion. -/
theorem flatten_keptPieces_sublist (r : Regex) (n : ℕ) (prev : Option CodeUnit) (s : Text) :
    (keptPieces r n prev s).flatten.Sublist s := by
  induction n generalizing prev s with
  | zero => simp
  | succ n ih =>
    rw [keptPieces]
    split
    · simp
    · rename_i a m rest hsearch
      obtain ⟨rfl, -, -⟩ := search_spec hsearch
      rw [List.flatten_cons, List.append_assoc]
      exact (List.Sublist.refl a).append ((ih _ rest).trans (List.sublist_append_right m rest))

/-- The pieces have every unit of the text that stands in no match. -/
theorem filter_flatten_keptPieces {r : Regex} {p : CodeUnit → Bool}
    (hr : ∀ prev m next, Matches r prev m next → m.filter p = []) (n : ℕ) (prev : Option CodeUnit) (s : Text) :
    (keptPieces r n prev s).flatten.filter p = s.filter p := by
  induction n generalizing prev s with
  | zero => rw [keptPieces, List.flatten_singleton]
  | succ n ih =>
    rw [keptPieces]
    split
    · rw [List.flatten_singleton]
    · rename_i a m rest hsearch
      obtain ⟨rfl, hmatch, -⟩ := search_spec hsearch
      rw [List.flatten_cons, List.filter_append, ih, List.filter_append, List.filter_append,
        hr _ _ _ hmatch, List.append_nil]

/-- A text in which the pattern does not occur is left alone. -/
theorem keptPieces_of_test_eq_false {r : Regex} {s : Text} (h : test r s = false) (n : ℕ) :
    keptPieces r n none s = [s] := by
  have hs : search r none s = none := by simpa [test] using h
  cases n with
  | zero => rfl
  | succ n => rw [keptPieces, hs]

/-- Where the pattern occurs, at least its first match is deleted. -/
theorem removeAll_sublist_of_test {r : Regex} (hr : ∀ p m n, Matches r p m n → m ≠ []) {s : Text}
    (h : test r s = true) :
    ∃ a m b p n, s = a ++ m ++ b ∧ Matches r p m n ∧ (removeAll r s).Sublist (a ++ b) := by
  obtain ⟨⟨a, m, b⟩, hsearch⟩ := Option.isSome_iff_exists.mp h
  obtain ⟨rfl, hm, -⟩ := search_spec hsearch
  refine ⟨a, m, b, _, _, rfl, hm, ?_⟩
  obtain ⟨n, hlen⟩ : ∃ n, (a ++ m ++ b).length = n + 1 := by
    refine Nat.exists_eq_succ_of_ne_zero fun h0 => hr _ _ _ hm ?_
    simp only [List.length_append] at h0
    exact List.length_eq_zero_iff.mp (by omega)
  rw [removeAll, hlen, keptPieces, hsearch, List.flatten_cons]
  exact (List.Sublist.refl a).append (flatten_keptPieces_sublist r n _ b)

end Regex

end DreamWeaver
