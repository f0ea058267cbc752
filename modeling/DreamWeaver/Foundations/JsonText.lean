import DreamWeaver.Foundations.Decimal

/-! # JSON as text

`parseJson` is `JSON.parse`; `quote` and `objectText` are what `JSON.stringify` writes for strings
and for objects. Reading is by recursive descent, with fuel for the nesting depth. A text
*reads as* a value if the reader takes exactly the text and leaves whatever follows; quoted strings
read as the string, and an object of texts that read as values reads as the object of these values,
which is how round trips are put together. -/

namespace DreamWeaver

/-! ## Strings -/

/-- A hexadecimal digit, lower case. -/
def hexUnit (n : ℕ) : CodeUnit := if n < 10 then UInt16.ofNat (48 + n) else UInt16.ofNat (87 + n)

/-- `\uXXXX` -/
def unicodeEscape (c : CodeUnit) : Text :=
  [92, 117, hexUnit (c.toNat / 4096), hexUnit (c.toNat / 256 % 16), hexUnit (c.toNat / 16 % 16),
    hexUnit (c.toNat % 16)]

/-- The first unit of a surrogate pair. -/
def isHighSurrogate (c : CodeUnit) : Bool := 0xD800 ≤ c && c ≤ 0xDBFF

/-- The second unit of a surrogate pair. -/
def isLowSurrogate (c : CodeUnit) : Bool := 0xDC00 ≤ c && c ≤ 0xDFFF

/-- The two-unit escapes: the unit after the backslash and what it stands for. -/
def shortEscapes : List (CodeUnit × CodeUnit) :=
  [(34, 34), (92, 92), (98, 8), (102, 12), (110, 10), (114, 13), (116, 9)]

/-- A unit inside a quoted string: escaped where needed, also when it is half of a pair. -/
def escapeUnit (c : CodeUnit) : Text :=
  match shortEscapes.find? fun e => e.2 == c with
  | some e => [92, e.1]
  | none => if c < 32 || isHighSurrogate c || isLowSurrogate c then unicodeEscape c else [c]

/-- The units of a quoted string. -/
def quoteBody : Text → Text
  | [] => []
  | [c] => escapeUnit c
  | c :: d :: s =>
    if isHighSurrogate c && isLowSurrogate d then c :: d :: quoteBody s
    else escapeUnit c ++ quoteBody (d :: s)

/-- `JSON.stringify(s)` for a string. -/
def quote (s : Text) : Text := 34 :: quoteBody s ++ [34]

/-- A unit that stands for itself inside a quoted string. -/
def isPlainUnit (c : CodeUnit) : Bool :=
  !(c < 32) && c != 34 && c != 92 && !isHighSurrogate c && !isLowSurrogate c

/-- What the unit after a backslash stands for. -/
def unescape (c : CodeUnit) : Option CodeUnit :=
  (((47, 47) :: shortEscapes).find? fun e => e.1 == c).map Prod.snd

/-- The unit that four hexadecimal digits stand for. -/
def unicodeUnit (digits : Text) : Option CodeUnit :=
  if digits.all (isDigit 16) then some (UInt16.ofNat (digitsValue 16 digits)) else none

/-- Read the rest of a quoted string, up to the closing quote. -/
def readString : Text → Option (Text × Text)
  | [] => none
  | [c] => if c = 34 then some ([], []) else none
  | c :: d :: s =>
    if c = 34 then some ([], d :: s)
    else if c = 92 then
      if d = 117 then
        match s with
        | h₁ :: h₂ :: h₃ :: h₄ :: s => do
          let unit ← unicodeUnit [h₁, h₂, h₃, h₄]
          let (text, rest) ← readString s
          return (unit :: text, rest)
        | _ => none
      else do
        let unit ← unescape d
        let (text, rest) ← readString s
        return (unit :: text, rest)
    else if c < 32 then none
    else do
      let (text, rest) ← readString (d :: s)
      return (c :: text, rest)

/-- A hexadecimal digit reads back as its value. -/
theorem digitValue_hexUnit {n : ℕ} (hn : n < 16) : digitValue (hexUnit n) = n := by
  interval_cases n <;> rfl

/-- Four hexadecimal digits read back as the unit they were written for. -/
theorem unicodeUnit_digits (c : CodeUnit) :
    unicodeUnit [hexUnit (c.toNat / 4096), hexUnit (c.toNat / 256 % 16),
      hexUnit (c.toNat / 16 % 16), hexUnit (c.toNat % 16)] = some c := by
  have hlt : c.toNat < 65536 := c.toNat_lt
  have h₁ := digitValue_hexUnit (n := c.toNat / 4096) (by omega)
  have h₂ := digitValue_hexUnit (n := c.toNat / 256 % 16) (by omega)
  have h₃ := digitValue_hexUnit (n := c.toNat / 16 % 16) (by omega)
  have h₄ := digitValue_hexUnit (n := c.toNat % 16) (by omega)
  have hvalue : digitsValue 16 [hexUnit (c.toNat / 4096), hexUnit (c.toNat / 256 % 16),
      hexUnit (c.toNat / 16 % 16), hexUnit (c.toNat % 16)] = c.toNat := by
    simp only [digitsValue, List.map_cons, List.map_nil, h₁, h₂, h₃, h₄, List.reverse_cons,
      List.reverse_nil, List.nil_append, List.cons_append, Nat.ofDigits_cons, Nat.ofDigits_nil]
    omega
  rw [unicodeUnit, hvalue, UInt16.ofNat_toNat, if_pos]
  simp only [List.all_cons, List.all_nil, isDigit, h₁, h₂, h₃, h₄, Bool.and_true, Bool.and_eq_true,
    decide_eq_true_eq]
  omega

/-- Prepend a unit to the string that was read. -/
def consUnit (c : CodeUnit) (p : Text × Text) : Text × Text := (c :: p.1, p.2)

/-- The closing quote ends the string. -/
theorem readString_quote (rest : Text) : readString (34 :: rest) = some ([], rest) := by
  cases rest with
  | nil => rfl
  | cons d rest =>
    rw [readString.eq_def]
    dsimp only
    rw [if_pos rfl]

/-- A unit that needs no escape is read as it is. -/
theorem readString_cons {c : CodeUnit} (h₁ : c ≠ 34) (h₂ : c ≠ 92) (h₃ : ¬ c < 32) (t : Text) :
    readString (c :: t) = (readString t).map (consUnit c) := by
  cases t with
  | nil => simp [readString, h₁]
  | cons d t =>
    rw [readString.eq_def]
    dsimp only
    rw [if_neg h₁, if_neg h₂, if_neg h₃]
    cases readString (d :: t) <;> rfl

/-- A short escape is read as what it stands for. -/
theorem readString_short {c d : CodeUnit} (hd : d ≠ 117) (hc : unescape d = some c) (t : Text) :
    readString (92 :: d :: t) = (readString t).map (consUnit c) := by
  rw [readString.eq_def]
  dsimp only
  rw [if_neg (by decide), if_pos rfl, if_neg hd, hc]
  cases readString t <;> rfl

/-- A `\uXXXX` escape is read as the unit it was written for. -/
theorem readString_unicodeEscape (c : CodeUnit) (t : Text) :
    readString (unicodeEscape c ++ t) = (readString t).map (consUnit c) := by
  unfold unicodeEscape
  simp only [List.cons_append, List.nil_append]
  rw [readString, if_neg (by decide), if_pos rfl, if_pos rfl]
  simp only [unicodeUnit_digits]
  cases readString t <;> rfl

/-- An escaped unit is read as the unit. -/
theorem readString_escapeUnit (c : CodeUnit) (t : Text) :
    readString (escapeUnit c ++ t) = (readString t).map (consUnit c) := by
  unfold escapeUnit
  split
  · rename_i e he
    have hmem : e ∈ shortEscapes := List.mem_of_find?_eq_some he
    have hc : e.2 = c := by simpa using List.find?_some he
    have hspec : shortEscapes.all (fun e => e.1 != 117 && unescape e.1 == some e.2) = true := by
      decide
    have hboth := List.all_eq_true.mp hspec e hmem
    rw [Bool.and_eq_true, bne_iff_ne, beq_iff_eq] at hboth
    rw [← hc]
    exact readString_short hboth.1 hboth.2 t
  · rename_i hnone
    split
    · exact readString_unicodeEscape c t
    · rename_i hplain
      have hne : ∀ e ∈ shortEscapes, c ≠ e.2 := fun e he heq => by
        simpa [heq] using List.find?_eq_none.mp hnone e he
      simp only [Bool.or_eq_true, not_or, decide_eq_true_eq] at hplain
      exact readString_cons (hne (34, 34) (by decide)) (hne (92, 92) (by decide)) hplain.1.1 t

/-- A unit of a surrogate pair needs no escape. -/
theorem readString_surrogate {c : CodeUnit} (hc : 0xD800 ≤ c.toNat) (t : Text) :
    readString (c :: t) = (readString t).map (consUnit c) := by
  refine readString_cons ?_ ?_ ?_ t
  · rintro rfl
    exact absurd hc (by decide)
  · rintro rfl
    exact absurd hc (by decide)
  · rw [UInt16.lt_iff_toNat_lt]
    simp only [UInt16.reduceToNat]
    omega

/-- **A quoted string reads back as the string.** -/
theorem readString_quoteBody (s rest : Text) :
    readString (quoteBody s ++ 34 :: rest) = some (s, rest) := by
  fun_induction quoteBody s with
  | case1 => exact readString_quote rest
  | case2 c => rw [readString_escapeUnit, readString_quote]; rfl
  | case3 c d s hpair ih =>
    simp only [isHighSurrogate, isLowSurrogate, Bool.and_eq_true, decide_eq_true_eq,
      UInt16.le_iff_toNat_le, UInt16.reduceToNat] at hpair
    rw [List.cons_append, List.cons_append, readString_surrogate (by omega),
      readString_surrogate (by omega), ih]
    rfl
  | case4 c d s hpair ih =>
    rw [List.append_assoc, readString_escapeUnit, ih]
    rfl

/-- A plain unit is not escaped. -/
theorem escapeUnit_of_isPlainUnit {c : CodeUnit} (h : isPlainUnit c = true) : escapeUnit c = [c] := by
  simp only [isPlainUnit, Bool.and_eq_true, Bool.not_eq_true', bne_iff_ne, ne_eq] at h
  obtain ⟨⟨⟨⟨hcontrol, hquote⟩, hslash⟩, hhigh⟩, hlow⟩ := h
  have hspace : ¬ c < 32 := of_decide_eq_false hcontrol
  have hnone : (shortEscapes.find? fun e => e.2 == c) = none := by
    apply List.find?_eq_none.mpr
    intro e he heq
    have hshort : ∀ e ∈ shortEscapes, e.2 < 32 ∨ e.2 = 34 ∨ e.2 = 92 := by
      simp [shortEscapes]
    have hc := hshort e he
    rw [beq_iff_eq.mp heq] at hc
    rcases hc with hlt | rfl | rfl
    · exact hspace hlt
    · exact hquote rfl
    · exact hslash rfl
  rw [escapeUnit, hnone]
  simp [hspace, hhigh, hlow]

/-- A text of plain units is quoted as it is. -/
theorem quoteBody_of_isPlainUnit {s : Text} (h : ∀ c ∈ s, isPlainUnit c = true) : quoteBody s = s := by
  fun_induction quoteBody s with
  | case1 => rfl
  | case2 c => exact escapeUnit_of_isPlainUnit (h c List.mem_cons_self)
  | case3 c d s hpair ih =>
    rw [ih fun c' hc' => h c' (List.mem_cons_of_mem c (List.mem_cons_of_mem d hc'))]
  | case4 c d s hpair ih =>
    rw [escapeUnit_of_isPlainUnit (h c List.mem_cons_self),
      ih fun c' hc' => h c' (List.mem_cons_of_mem c hc')]
    rfl

/-! ## Documents -/

/-- A reader takes a value from the front of a text. -/
abbrev Reader := Text → Option (Json × Text)

/-- The white space of JSON. -/
def isJsonSpace (c : CodeUnit) : Bool := c == 32 || c == 9 || c == 10 || c == 13

/-- Skip white space. -/
def skipSpace (s : Text) : Text := s.dropWhile isJsonSpace

/-- Digits after a decimal point, if there is one; a point needs a digit. -/
def readFraction : Text → Option (Text × Text)
  | 46 :: s =>
    if (s.takeWhile (isDigit 10)).isEmpty then none
    else some (s.takeWhile (isDigit 10), s.dropWhile (isDigit 10))
  | s => some ([], s)

/-- An exponent, if there is one; an `e` needs a digit. -/
def readPower (s : Text) : Option (ℤ × Text) :=
  match s with
  | c :: t =>
    if c = 101 ∨ c = 69 then
      let (_, unsigned) := splitSign t
      if (unsigned.takeWhile (isDigit 10)).isEmpty then none
      else some (readExponent s, unsigned.dropWhile (isDigit 10))
    else some (0, s)
  | [] => some (0, [])

/-- A number. -/
def readNumber (s : Text) : Option (JsNumber × Text) :=
  let (negative, unsigned) := match s with
    | 45 :: t => (true, t)
    | t => (false, t)
  let digits := match unsigned with
    | 48 :: _ => [48]
    | t => t.takeWhile (isDigit 10)
  if digits.isEmpty then none
  else do
    let (fraction, s) ← readFraction (unsigned.drop digits.length)
    let (power, rest) ← readPower s
    return (.ofExact (signed negative (digitsValue 10 (digits ++ fraction)) *
      10 ^ (power - fraction.length)), rest)

/-- A literal name at the front of a text. -/
def readLiteral (s : Text) : Option (Json × Text) :=
  if (lit "null").isPrefixOf s then some (.null, s.drop 4)
  else if (lit "true").isPrefixOf s then some (.bool true, s.drop 4)
  else if (lit "false").isPrefixOf s then some (.bool false, s.drop 5)
  else (readNumber s).map fun p => (.num p.1, p.2)

/-- The rest of an array, from an element on. -/
def readElements (value : Reader) : ℕ → Text → Option (List Json × Text)
  | 0, _ => none
  | n + 1, s => do
    let (v, s) ← value s
    match skipSpace s with
    | 44 :: s => do
      let (vs, rest) ← readElements value n s
      return (v :: vs, rest)
    | 93 :: rest => return ([v], rest)
    | _ => none

/-- The rest of an object, from a key on. -/
def readMembers (value : Reader) : ℕ → Text → Option (List (Text × Json) × Text)
  | 0, _ => none
  | n + 1, s =>
    match skipSpace s with
    | 34 :: s => do
      let (key, s) ← readString s
      match skipSpace s with
      | 58 :: s => do
        let (v, s) ← value s
        match skipSpace s with
        | 44 :: s => do
          let (members, rest) ← readMembers value n s
          return ((key, v) :: members, rest)
        | 125 :: rest => return ([(key, v)], rest)
        | _ => none
      | _ => none
    | _ => none

/-- Of several members with one key, the last value stays, in the place of the first. -/
def lastValues : List (Text × Json) → List (Text × Json)
  | [] => []
  | (key, v) :: members =>
    (key, ((members.reverse.find? fun m => m.1 == key).map Prod.snd).getD v) ::
      (lastValues members).filter fun m => m.1 != key

/-- A value; the fuel bounds the nesting depth. -/
def readValue : ℕ → Reader
  | 0, _ => none
  | fuel + 1, s =>
    match skipSpace s with
    | 34 :: s => (readString s).map fun p => (.str p.1, p.2)
    | 123 :: s =>
      match skipSpace s with
      | 125 :: rest => some (.obj [], rest)
      | _ => (readMembers (readValue fuel) s.length s).map fun p => (.obj (lastValues p.1), p.2)
    | 91 :: s =>
      match skipSpace s with
      | 93 :: rest => some (.arr [], rest)
      | _ => (readElements (readValue fuel) s.length s).map fun p => (.arr p.1, p.2)
    | s => readLiteral s

/-- The error of `JSON.parse`; engines word its message differently. -/
def jsonSyntaxError : JsError := ⟨lit "SyntaxError", lit "Unexpected token in JSON"⟩

/-- `JSON.parse(s)` -/
def parseJson (s : Text) : Except JsError Json :=
  match readValue (s.length + 1) s with
  | some (v, rest) => if skipSpace rest = [] then .ok v else .error jsonSyntaxError
  | none => .error jsonSyntaxError

/-! ## Writing objects -/

/-- The members of an object behind its opening brace: keys and the texts of their values. -/
def membersText : List (Text × Text) → Text
  | [] => [125]
  | [m] => quote m.1 ++ 58 :: m.2 ++ [125]
  | m :: m' :: ms => quote m.1 ++ 58 :: m.2 ++ 44 :: membersText (m' :: ms)

/-- `JSON.stringify` for an object whose values are written as the given texts. -/
def objectText (members : List (Text × Text)) : Text := 123 :: membersText members

/-- A text is read as a value, whatever follows it. -/
def ReadsAs (value : Reader) (text : Text) (v : Json) : Prop :=
  ∀ rest, value (text ++ rest) = some (v, rest)

/-- What can stand behind a value in a document: nothing, a comma, or a closing bracket. -/
def EndsValue (rest : Text) : Prop := ∀ c, rest.head? = some c → c = 44 ∨ c = 93 ∨ c = 125

/-- A text is read as a value where a document goes on behind it. -/
def ReadsBefore (value : Reader) (text : Text) (v : Json) : Prop :=
  ∀ rest, EndsValue rest → value (text ++ rest) = some (v, rest)

theorem ReadsAs.before {value : Reader} {text : Text} {v : Json} (h : ReadsAs value text v) :
    ReadsBefore value text v := fun rest _ => h rest

theorem endsValue_cons {c : CodeUnit} (h : c = 44 ∨ c = 93 ∨ c = 125) (rest : Text) :
    EndsValue (c :: rest) := by
  intro d hd
  rwa [← Option.some.inj hd]

/-- A unit that is not white space is not skipped. -/
theorem skipSpace_cons {c : CodeUnit} (hc : isJsonSpace c = false) (s : Text) :
    skipSpace (c :: s) = c :: s := by
  rw [skipSpace, List.dropWhile_cons, hc]
  rfl

/-- **A quoted string reads as the string.** -/
theorem readsAs_quote (fuel : ℕ) (s : Text) : ReadsAs (readValue (fuel + 1)) (quote s) (.str s) := by
  intro rest
  have hread : readString (quoteBody s ++ 34 :: rest) = some (s, rest) := readString_quoteBody s rest
  rw [quote, List.append_assoc, List.cons_append, readValue, skipSpace_cons (by decide)]
  simp only [List.cons_append, List.nil_append, hread, Option.map_some]

/-- Members whose values read as given are read as the list of these members. -/
theorem readMembers_membersText {value : Reader} {members : List (Text × Text × Json)}
    (hne : members ≠ []) (h : ∀ m ∈ members, ReadsBefore value m.2.1 m.2.2) {n : ℕ}
    (hn : members.length ≤ n) (rest : Text) :
    readMembers value n (membersText (members.map fun m => (m.1, m.2.1)) ++ rest) =
      some (members.map fun m => (m.1, m.2.2), rest) := by
  induction members generalizing n with
  | nil => exact absurd rfl hne
  | cons m members ih =>
    obtain ⟨n, rfl⟩ : ∃ k, n = k + 1 := ⟨n - 1, by simp at hn; omega⟩
    have hcomma : ∀ rest, value (m.2.1 ++ 44 :: rest) = some (m.2.2, 44 :: rest) := fun rest =>
      h m List.mem_cons_self _ (endsValue_cons (Or.inl rfl) rest)
    have hbrace : ∀ rest, value (m.2.1 ++ 125 :: rest) = some (m.2.2, 125 :: rest) := fun rest =>
      h m List.mem_cons_self _ (endsValue_cons (Or.inr (Or.inr rfl)) rest)
    have hkey : ∀ rest, readString (quoteBody m.1 ++ 34 :: rest) = some (m.1, rest) :=
      readString_quoteBody m.1
    cases members with
    | nil =>
      simp only [List.map_cons, List.map_nil, membersText, quote, List.append_assoc,
        List.cons_append, List.nil_append, readMembers, skipSpace_cons (c := 34) (by decide), hkey,
        skipSpace_cons (c := 58) (by decide), hbrace, skipSpace_cons (c := 125) (by decide),
        Option.bind_eq_bind, Option.bind_some, Option.pure_def]
    | cons m' members =>
      have hrest := ih (List.cons_ne_nil _ _) (fun x hx => h x (List.mem_cons_of_mem m hx))
        (n := n) (by simpa using hn)
      simp only [List.map_cons] at hrest
      simp only [List.map_cons, membersText, quote, List.append_assoc,
        List.cons_append, List.nil_append, readMembers, skipSpace_cons (c := 34) (by decide), hkey,
        skipSpace_cons (c := 58) (by decide), hcomma, skipSpace_cons (c := 44) (by decide),
        Option.bind_eq_bind, Option.bind_some, Option.pure_def, hrest]

/-- Members with different keys stay as they are. -/
theorem lastValues_of_nodup {members : List (Text × Json)} (h : (members.map Prod.fst).Nodup) :
    lastValues members = members := by
  induction members with
  | nil => rfl
  | cons m members ih =>
    obtain ⟨key, v⟩ := m
    rw [List.map_cons, List.nodup_cons] at h
    have hother : ∀ m ∈ members, m.1 ≠ key := by
      intro m hm heq
      exact h.1 (List.mem_map.mpr ⟨m, hm, heq⟩)
    have hfind : (members.reverse.find? fun m => m.1 == key) = none := by
      rw [List.find?_eq_none]
      intro m hm
      simpa using hother m (List.mem_reverse.mp hm)
    have hfilter : (members.filter fun m => m.1 != key) = members := by
      rw [List.filter_eq_self]
      intro m hm
      simpa using hother m hm
    rw [lastValues, hfind, ih h.2, hfilter]
    rfl

/-- There are at least as many units as members. -/
theorem length_le_membersText (members : List (Text × Text)) :
    members.length ≤ (membersText members).length := by
  fun_induction membersText members with
  | case1 => simp
  | case2 m =>
    simp only [List.length_cons, List.length_append]
    omega
  | case3 m m' ms ih =>
    simp only [List.length_cons, List.length_append] at ih ⊢
    omega

/-- The text of an object with members begins with the quote of the first key. -/
theorem exists_cons_membersText {members : List (Text × Text)} (hne : members ≠ []) :
    ∃ s, membersText members = 34 :: s := by
  fun_cases membersText members with
  | case1 => exact absurd rfl hne
  | case2 m => exact ⟨_, rfl⟩
  | case3 m m' ms => exact ⟨_, rfl⟩

/-- **An object text reads as the object**, when the texts of its values read as its values. -/
theorem readsAs_objectText {fuel : ℕ} {members : List (Text × Text × Json)} (hne : members ≠ [])
    (hkeys : (members.map Prod.fst).Nodup)
    (h : ∀ m ∈ members, ReadsBefore (readValue fuel) m.2.1 m.2.2) :
    ReadsAs (readValue (fuel + 1)) (objectText (members.map fun m => (m.1, m.2.1)))
      (.obj (members.map fun m => (m.1, m.2.2))) := by
  intro rest
  have hlast : lastValues (members.map fun m => (m.1, m.2.2)) = members.map fun m => (m.1, m.2.2) := by
    apply lastValues_of_nodup
    rwa [List.map_map]
  have hread : ∀ n, members.length ≤ n → readMembers (readValue fuel) n
      (membersText (members.map fun m => (m.1, m.2.1)) ++ rest) =
        some (members.map fun m => (m.1, m.2.2), rest) :=
    fun n hn => readMembers_membersText hne h hn rest
  have hlen : members.length ≤
      (membersText (members.map fun m => (m.1, m.2.1)) ++ rest).length := by
    have hmembers := length_le_membersText (members.map fun m => (m.1, m.2.1))
    rw [List.length_map] at hmembers
    rw [List.length_append]
    omega
  have hmap : (members.map fun m => (m.1, m.2.1)) ≠ [] := by simpa using hne
  obtain ⟨s, hs⟩ := exists_cons_membersText hmap
  have hfirst := hread _ hlen
  rw [hs, List.cons_append] at hfirst
  rw [objectText, List.cons_append, readValue, skipSpace_cons (by decide)]
  simp only
  rw [hs, List.cons_append, skipSpace_cons (by decide)]
  -- the first unit is a quote, so the object is not empty
  change (readMembers (readValue fuel) _ (34 :: (s ++ rest))).map _ = _
  rw [hfirst, Option.map_some, hlast]

/-- An object with a single member. -/
theorem readsAs_objectText_singleton {fuel : ℕ} {key text : Text} {v : Json}
    (h : ReadsBefore (readValue fuel) text v) :
    ReadsAs (readValue (fuel + 1)) (objectText [(key, text)]) (.obj [(key, v)]) := by
  have hmembers : ∀ m ∈ [(key, text, v)], ReadsBefore (readValue fuel) m.2.1 m.2.2 := by
    intro m hm
    rw [List.mem_singleton.mp hm]
    exact h
  have hkeys : ([(key, text, v)].map Prod.fst).Nodup := List.nodup_singleton key
  exact readsAs_objectText (List.cons_ne_nil _ _) hkeys hmembers

/-- A text that reads as a value at its own depth is parsed as the value. -/
theorem parseJson_of_readsBefore {text : Text} {v : Json}
    (h : ReadsBefore (readValue (text.length + 1)) text v) : parseJson text = .ok v := by
  have hread := h [] fun _ hc => nomatch hc
  rw [List.append_nil] at hread
  simp [parseJson, hread, skipSpace]

end DreamWeaver
