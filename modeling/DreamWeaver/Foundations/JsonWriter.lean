import DreamWeaver.Foundations.JsValue
import DreamWeaver.Foundations.ShortDecimal
import Mathlib.Data.List.Sort

/-! # Writing documents

`JSON.stringify` on any document: an object is written with its array indices first, in ascending order,
and then its other keys, and a number that is not finite is written as `null`. What is written reads back
as the same document up to that. -/

namespace DreamWeaver

/-! ## Documents -/

/-- An array index among the keys of an object. -/
def isArrayIndex (key : Text) : Bool :=
  (key == [48] || isCanonical key) && digitsValue 10 key < 2 ^ 32 - 1

/-- One index is not larger than another. -/
def IndexLE {α : Type} (e e' : Text × α) : Prop := digitsValue 10 e.1 ≤ digitsValue 10 e'.1

instance {α : Type} : DecidableRel (@IndexLE α) := fun _ _ => Nat.decLe _ _

/-- The entries of an object in the order in which the language goes through them. -/
def ownOrder {α : Type} (entries : List (Text × α)) : List (Text × α) :=
  (entries.filter fun e => isArrayIndex e.1).insertionSort IndexLE ++
    entries.filter fun e => !isArrayIndex e.1

/-- The elements of an array behind its opening bracket. -/
def elementsText : List Text → Text
  | [] => [93]
  | [e] => e ++ [93]
  | e :: e' :: es => e ++ 44 :: elementsText (e' :: es)

mutual

/-- `JSON.stringify(v)` -/
def stringify : Json → Text
  | .null => lit "null"
  | .bool b => if b then lit "true" else lit "false"
  | .num x => numberText x
  | .str s => quote s
  | .arr items => 91 :: elementsText (stringifyItems items)
  | .obj fields => objectText (ownOrder (stringifyFields fields))

def stringifyItems : List Json → List Text
  | [] => []
  | v :: vs => stringify v :: stringifyItems vs

def stringifyFields : List (Text × Json) → List (Text × Text)
  | [] => []
  | (key, v) :: fields => (key, stringify v) :: stringifyFields fields

end

mutual

/-- A document as it is written: what `JSON.parse(JSON.stringify(v))` returns. -/
def Json.written : Json → Json
  | .num (.finite x) => .num (.finite x)
  | .num _ => .null
  | .arr items => .arr (writtenItems items)
  | .obj fields => .obj (ownOrder (writtenFields fields))
  | v => v

def writtenItems : List Json → List Json
  | [] => []
  | v :: vs => v.written :: writtenItems vs

def writtenFields : List (Text × Json) → List (Text × Json)
  | [] => []
  | (key, v) :: fields => (key, v.written) :: writtenFields fields

end

/-- A value that the language can hold: finite numbers are doubles, and the keys of an object differ. -/
inductive Json.Proper : Json → Prop
  | null : Proper .null
  | bool (b : Bool) : Proper (.bool b)
  | num {x : JsNumber} (h : ∀ q, x = .finite q → JsNumber.ofExact q = .finite q) : Proper (.num x)
  | str (s : Text) : Proper (.str s)
  | arr {items : List Json} (h : ∀ v ∈ items, Proper v) : Proper (.arr items)
  | obj {fields : List (Text × Json)} (hkeys : (fields.map Prod.fst).Nodup)
      (h : ∀ e ∈ fields, Proper e.2) : Proper (.obj fields)

/-- An object with a single entry. -/
theorem Json.Proper.single {v : Json} (h : v.Proper) (key : Text) : (Json.obj [(key, v)]).Proper := by
  refine .obj (List.nodup_singleton _) fun e he => ?_
  rw [List.mem_singleton.mp he]
  exact h

/-! ## Entries in order -/

theorem stringifyItems_eq (items : List Json) : stringifyItems items = items.map stringify := by
  induction items with
  | nil => rfl
  | cons v vs ih => rw [stringifyItems, ih, List.map_cons]

theorem stringifyFields_eq (fields : List (Text × Json)) :
    stringifyFields fields = fields.map fun e => (e.1, stringify e.2) := by
  induction fields with
  | nil => rfl
  | cons e fields ih => rw [stringifyFields, ih, List.map_cons]

theorem writtenItems_eq (items : List Json) : writtenItems items = items.map Json.written := by
  induction items with
  | nil => rfl
  | cons v vs ih => rw [writtenItems, ih, List.map_cons]

theorem writtenFields_eq (fields : List (Text × Json)) :
    writtenFields fields = fields.map fun e => (e.1, e.2.written) := by
  induction fields with
  | nil => rfl
  | cons e fields ih => rw [writtenFields, ih, List.map_cons]

section OwnOrder

variable {α β : Type}

/-- Nothing is lost. -/
theorem ownOrder_perm (entries : List (Text × α)) : (ownOrder entries).Perm entries :=
  ((List.perm_insertionSort _ _).append_right _).trans (List.filter_append_perm _ _)

theorem nodup_keys_ownOrder {entries : List (Text × α)} (h : (entries.map Prod.fst).Nodup) :
    ((ownOrder entries).map Prod.fst).Nodup :=
  ((ownOrder_perm entries).map Prod.fst).nodup_iff.mpr h

/-- The order depends on the keys only. -/
theorem ownOrder_map {f : Text × α → Text × β} (hf : ∀ e, (f e).1 = e.1) (entries : List (Text × α)) :
    ownOrder (entries.map f) = (ownOrder entries).map f := by
  have hindex : ((fun e : Text × β => isArrayIndex e.1) ∘ f) = fun e => isArrayIndex e.1 := by
    funext e
    rw [Function.comp_apply, hf]
  have hother : ((fun e : Text × β => !isArrayIndex e.1) ∘ f) = fun e => !isArrayIndex e.1 := by
    funext e
    rw [Function.comp_apply, hf]
  have hsort : ∀ l : List (Text × α), (l.insertionSort IndexLE).map f = (l.map f).insertionSort IndexLE := by
    intro l
    refine List.map_insertionSort IndexLE IndexLE f l fun e _ e' _ => ?_
    rw [IndexLE, IndexLE, hf, hf]
  unfold ownOrder
  rw [List.map_append, hsort, List.filter_map, List.filter_map, hindex, hother]

theorem ownOrder_map_values (f : α → β) (entries : List (Text × α)) :
    ownOrder (entries.map fun e => (e.1, f e.2)) = (ownOrder entries).map fun e => (e.1, f e.2) :=
  ownOrder_map (f := fun e => (e.1, f e.2)) (fun _ => rfl) entries

/-- Entries that are in order already. -/
theorem ownOrder_append {indices others : List (Text × α)} (hsorted : indices.Pairwise IndexLE)
    (hindices : ∀ e ∈ indices, isArrayIndex e.1 = true) (hothers : ∀ e ∈ others, isArrayIndex e.1 = false) :
    ownOrder (indices ++ others) = indices ++ others := by
  have hall : indices.filter (fun e => isArrayIndex e.1) = indices := List.filter_eq_self.mpr hindices
  have hno : others.filter (fun e => isArrayIndex e.1) = [] :=
    List.filter_eq_nil_iff.mpr fun e he => by simp [hothers e he]
  have hno' : indices.filter (fun e => !isArrayIndex e.1) = [] :=
    List.filter_eq_nil_iff.mpr fun e he => by simp [hindices e he]
  have hall' : others.filter (fun e => !isArrayIndex e.1) = others :=
    List.filter_eq_self.mpr fun e he => by simp [hothers e he]
  rw [ownOrder, List.filter_append, List.filter_append, hall, hno, hno', hall', List.append_nil,
    List.nil_append, hsorted.insertionSort_eq]

/-- What is in order stays so. -/
theorem ownOrder_ownOrder (entries : List (Text × α)) : ownOrder (ownOrder entries) = ownOrder entries := by
  have htotal : Std.Total (@IndexLE α) := ⟨fun _ _ => Nat.le_total _ _⟩
  have htrans : IsTrans (Text × α) IndexLE := ⟨fun _ _ _ h h' => Nat.le_trans h h'⟩
  refine ownOrder_append (List.pairwise_insertionSort _ _) (fun e he => ?_) (fun e he => ?_)
  · exact (List.mem_filter.mp ((List.mem_insertionSort _).mp he)).2
  · simpa using (List.mem_filter.mp he).2

end OwnOrder

/-! ## Properties of a written document -/

/-- The entries of an object are found by their keys. -/
theorem field?_eq_some_iff {fields : List (Text × Json)} (hkeys : (fields.map Prod.fst).Nodup)
    {key : Text} {v : Json} : Json.field? fields key = some v ↔ (key, v) ∈ fields := by
  induction fields with
  | nil => simp [Json.field?]
  | cons e fields ih =>
    obtain ⟨key', v'⟩ := e
    rw [List.map_cons, List.nodup_cons] at hkeys
    have hrest := ih hkeys.2
    unfold Json.field? at hrest ⊢
    by_cases heq : key' = key
    · subst heq
      rw [List.find?_cons_of_pos (by simp), Option.map_some, Option.some.injEq, List.mem_cons, Prod.mk.injEq]
      have hother : (key', v) ∉ fields := fun hmem => hkeys.1 (List.mem_map.mpr ⟨_, hmem, rfl⟩)
      simp [hother, eq_comm]
    · rw [List.find?_cons_of_neg (by simpa using heq), hrest]
      simp [Ne.symm heq]

/-- The value of a key does not depend on the order. -/
theorem field?_perm {fields fields' : List (Text × Json)} (hperm : fields.Perm fields')
    (hkeys : (fields.map Prod.fst).Nodup) (key : Text) :
    Json.field? fields key = Json.field? fields' key := by
  have hkeys' : (fields'.map Prod.fst).Nodup := (hperm.map Prod.fst).nodup_iff.mp hkeys
  apply Option.ext
  intro v
  rw [field?_eq_some_iff hkeys, field?_eq_some_iff hkeys', hperm.mem_iff]

theorem field?_map (f : Json → Json) (fields : List (Text × Json)) (key : Text) :
    Json.field? (fields.map fun e => (e.1, f e.2)) key = (Json.field? fields key).map f := by
  unfold Json.field?
  rw [List.find?_map, Option.map_map, Option.map_map]
  rfl

namespace Json

theorem written_arr (items : List Json) : (Json.arr items).written = .arr (items.map written) := by
  rw [written, writtenItems_eq]

theorem written_obj (fields : List (Text × Json)) :
    (Json.obj fields).written = .obj ((ownOrder fields).map fun e => (e.1, e.2.written)) := by
  rw [written, writtenFields_eq, ownOrder_map_values]

/-- **A written document is not changed by being written.** -/
theorem Proper.written_written {v : Json} (h : v.Proper) : v.written.written = v.written := by
  induction h with
  | null | bool | str => rfl
  | @num x h => cases x <;> rfl
  | @arr items h ih =>
    rw [written_arr, written_arr, List.map_map]
    exact congrArg Json.arr (List.map_congr_left ih)
  | @obj fields hkeys h ih =>
    rw [written_obj, written_obj, ownOrder_map_values, ownOrder_ownOrder, List.map_map]
    refine congrArg Json.obj (List.map_congr_left fun e he => ?_)
    exact Prod.ext rfl (ih e ((ownOrder_perm fields).mem_iff.mp he))

/-- The properties of a written object are written. -/
theorem Proper.get_written {v : Json} (h : v.Proper) (key : Text) :
    v.written.get key = (v.get key).map written := by
  cases h with
  | null | bool | str | arr => rfl
  | @num x h => cases x <;> rfl
  | @obj fields hkeys h =>
    rw [written_obj]
    change field? _ key = (field? fields key).map written
    rw [field?_map, field?_perm (ownOrder_perm fields) (nodup_keys_ownOrder hkeys)]

/-- A property is a value that the language can hold. -/
theorem Proper.get {v w : Json} (h : v.Proper) {key : Text} (hget : v.get key = some w) : w.Proper := by
  cases h with
  | @obj fields hkeys h => exact h _ ((field?_eq_some_iff hkeys).mp hget)
  | null | bool | str | arr | num => cases hget

theorem Proper.withField {v w : Json} (h : v.Proper) (hw : w.Proper) (key : Text) :
    (v.withField key w).Proper := by
  cases h with
  | null => exact .null
  | bool b => exact .bool b
  | num h => exact .num h
  | str s => exact .str s
  | arr h => exact .arr h
  | @obj fields hkeys h =>
    have hsame : (fields.map fun e => if e.1 = key then (key, w) else e).map Prod.fst =
        fields.map Prod.fst := by
      rw [List.map_map]
      refine List.map_congr_left fun e _ => ?_
      by_cases heq : e.1 = key
      · rw [Function.comp_apply, if_pos heq, heq]
      · rw [Function.comp_apply, if_neg heq]
    refine .obj (by rw [hsame]; exact hkeys) fun e he => ?_
    obtain ⟨e', he', rfl⟩ := List.mem_map.mp he
    split
    · exact hw
    · exact h e' he'

/-- A property that is replaced. -/
theorem written_withField (v : Json) (key : Text) (w : Json) :
    (v.withField key w).written = v.written.withField key w.written := by
  cases v with
  | null | bool | str | arr => rfl
  | num x => cases x <;> rfl
  | obj fields =>
    have hkeys : ∀ e : Text × Json, (if e.1 = key then (key, w) else e).1 = e.1 := by
      intro e
      split
      · rename_i heq
        exact heq.symm
      · rfl
    rw [withField, written_obj, written_obj, withField, ownOrder_map hkeys, List.map_map, List.map_map]
    refine congrArg Json.obj (List.map_congr_left fun e _ => ?_)
    rw [Function.comp_apply, Function.comp_apply]
    by_cases heq : e.1 = key
    · rw [if_pos heq, if_pos heq]
    · rw [if_neg heq, if_neg heq]

end Json

/-! ## Reading back -/

/-- A unit that begins a number is a digit or the minus sign. -/
theorem ne_of_beginsNumber {c : CodeUnit} (hc : isDigit 10 c = true ∨ c = 45) {d : CodeUnit}
    (hd : d.toNat < 45 ∨ 57 < d.toNat) : c ≠ d := by
  rintro rfl
  rcases hc with hdigit | rfl
  · obtain ⟨hlo, hhi⟩ := isDigit_ten_iff.mp hdigit
    omega
  · revert hd
    decide

theorem isJsonSpace_of_beginsNumber {c : CodeUnit} (hc : isDigit 10 c = true ∨ c = 45) :
    isJsonSpace c = false := by
  have hne := @ne_of_beginsNumber c hc
  simp [isJsonSpace, @hne 32 (by decide), @hne 9 (by decide), @hne 10 (by decide), @hne 13 (by decide)]

/-- A number is read where the text begins like one. -/
theorem readValue_number {c : CodeUnit} (hc : isDigit 10 c = true ∨ c = 45) (t : Text) (fuel : ℕ) :
    readValue (fuel + 1) (c :: t) = (readNumber (c :: t)).map fun p => (.num p.1, p.2) := by
  have hother : ∀ d : CodeUnit, d.toNat < 45 ∨ 57 < d.toNat → c ≠ d := fun d hd => ne_of_beginsNumber hc hd
  have hprefix : ∀ (d : CodeUnit) (s : Text), (d.toNat < 45 ∨ 57 < d.toNat) →
      (d :: s).isPrefixOf (c :: t) = false := by
    intro d s hd
    rw [List.isPrefixOf_cons_cons, beq_false_of_ne (hother d hd).symm, Bool.false_and]
  have hnull : (lit "null").isPrefixOf (c :: t) = false := hprefix 110 _ (by decide)
  have htrue : (lit "true").isPrefixOf (c :: t) = false := hprefix 116 _ (by decide)
  have hfalse : (lit "false").isPrefixOf (c :: t) = false := hprefix 102 _ (by decide)
  have hliteral : readLiteral (c :: t) = (readNumber (c :: t)).map fun p => (.num p.1, p.2) := by
    simp [readLiteral, hnull, htrue, hfalse]
  rw [readValue, skipSpace_cons (isJsonSpace_of_beginsNumber hc)]
  split
  · rename_i heq
    exact absurd (List.cons.inj heq).1 (hother 34 (by decide))
  · rename_i heq
    exact absurd (List.cons.inj heq).1 (hother 123 (by decide))
  · rename_i heq
    exact absurd (List.cons.inj heq).1 (hother 91 (by decide))
  · exact hliteral

/-- The text of a number that is not finite is a literal, another one begins like a number. -/
theorem exists_cons_numberText {x : ℚ} (hx : JsNumber.ofExact x = .finite x) :
    ∃ c t, numberText (.finite x) = c :: t ∧ (isDigit 10 c = true ∨ c = 45) := by
  unfold numberText
  dsimp only
  rcases lt_trichotomy x 0 with hneg | rfl | hpos
  · rw [if_neg hneg.ne, if_pos hneg]
    exact ⟨45, _, rfl, Or.inr rfl⟩
  · exact ⟨48, [], if_pos rfl, Or.inl (by decide)⟩
  · obtain ⟨c, t, hlayout, hc⟩ := ShortDecimal.exists_cons_layout (ShortDecimal.digits_shortest_ne_zero hpos hx)
    rw [if_neg hpos.ne', if_neg hpos.not_gt]
    exact ⟨c, t, hlayout, Or.inl hc⟩

/-- **A finite number is read back**, behind whatever a document goes on with. -/
theorem readsBefore_numberText {x : ℚ} (hx : JsNumber.ofExact x = .finite x) (fuel : ℕ) :
    ReadsBefore (readValue (fuel + 1)) (numberText (.finite x)) (.num (.finite x)) := by
  intro rest hrest
  have hread := readNumber_numberText hx hrest.endsNumber
  obtain ⟨c, t, htext, hc⟩ := exists_cons_numberText hx
  rw [htext, List.cons_append] at hread ⊢
  rw [readValue_number hc, hread]
  rfl

theorem readsAs_null (fuel : ℕ) : ReadsAs (readValue (fuel + 1)) (lit "null") .null := fun _ => rfl

theorem readsAs_bool (b : Bool) (fuel : ℕ) :
    ReadsAs (readValue (fuel + 1)) (if b then lit "true" else lit "false") (.bool b) := by
  cases b with
  | true => exact fun _ => rfl
  | false => exact fun _ => rfl

/-- Elements whose texts read as given are read as the list of these elements. -/
theorem readElements_elementsText {value : Reader} {items : List (Text × Json)} (hne : items ≠ [])
    (h : ∀ e ∈ items, ReadsBefore value e.1 e.2) {n : ℕ} (hn : items.length ≤ n) (rest : Text) :
    readElements value n (elementsText (items.map Prod.fst) ++ rest) = some (items.map Prod.snd, rest) := by
  induction items generalizing n with
  | nil => exact absurd rfl hne
  | cons e items ih =>
    obtain ⟨n, rfl⟩ : ∃ k, n = k + 1 := ⟨n - 1, by simp at hn; omega⟩
    have hcomma : ∀ rest, value (e.1 ++ 44 :: rest) = some (e.2, 44 :: rest) := fun rest =>
      h e List.mem_cons_self _ (endsValue_cons (Or.inl rfl) rest)
    have hbracket : ∀ rest, value (e.1 ++ 93 :: rest) = some (e.2, 93 :: rest) := fun rest =>
      h e List.mem_cons_self _ (endsValue_cons (Or.inr (Or.inl rfl)) rest)
    cases items with
    | nil =>
      simp only [List.map_cons, List.map_nil, elementsText, List.append_assoc, List.cons_append,
        List.nil_append, readElements, hbracket, skipSpace_cons (c := 93) (by decide),
        Option.bind_eq_bind, Option.bind_some, Option.pure_def]
    | cons e' items =>
      have hrest := ih (List.cons_ne_nil _ _) (fun x hx => h x (List.mem_cons_of_mem e hx))
        (n := n) (by simpa using hn)
      simp only [List.map_cons] at hrest
      simp only [List.map_cons, elementsText, List.append_assoc, List.cons_append, readElements, hcomma,
        skipSpace_cons (c := 44) (by decide), Option.bind_eq_bind, Option.bind_some, Option.pure_def, hrest]

/-- An element is shorter than the array, and there are no more elements than units. -/
theorem length_lt_elementsText {texts : List Text} {text : Text} (h : text ∈ texts) :
    text.length < (elementsText texts).length := by
  fun_induction elementsText texts with
  | case1 => cases h
  | case2 e =>
    rw [List.mem_singleton.mp h, List.length_append]
    exact Nat.lt_succ_self _
  | case3 e e' es ih =>
    rw [List.length_append, List.length_cons]
    rcases List.mem_cons.mp h with rfl | hrest
    · omega
    · have hlt := ih hrest
      omega

theorem length_le_elementsText (texts : List Text) : texts.length ≤ (elementsText texts).length := by
  fun_induction elementsText texts with
  | case1 => exact Nat.zero_le _
  | case2 e => simp
  | case3 e e' es ih =>
    simp only [List.length_append, List.length_cons] at ih ⊢
    omega

/-- A member is shorter than the object. -/
theorem length_lt_membersText {members : List (Text × Text)} {m : Text × Text} (h : m ∈ members) :
    m.2.length < (membersText members).length := by
  fun_induction membersText members with
  | case1 => cases h
  | case2 m' =>
    rw [List.mem_singleton.mp h]
    simp only [List.length_append, List.length_cons, List.length_nil]
    omega
  | case3 m' m'' ms ih =>
    simp only [List.length_append, List.length_cons]
    rcases List.mem_cons.mp h with rfl | hrest
    · omega
    · have hlt := ih hrest
      omega

/-- What is written begins with a unit that is neither white space nor a closing bracket. -/
theorem exists_cons_stringify {v : Json} (h : v.Proper) :
    ∃ c t, stringify v = c :: t ∧ c ≠ 93 ∧ isJsonSpace c = false := by
  cases h with
  | null => exact ⟨110, _, rfl, by decide, by decide⟩
  | bool b =>
    cases b with
    | true => exact ⟨116, _, rfl, by decide, by decide⟩
    | false => exact ⟨102, _, rfl, by decide, by decide⟩
  | @num x h =>
    cases x with
    | finite q =>
      obtain ⟨c, t, htext, hc⟩ := exists_cons_numberText (h q rfl)
      exact ⟨c, t, htext, ne_of_beginsNumber hc (by decide), isJsonSpace_of_beginsNumber hc⟩
    | nan | negInfinity | posInfinity => exact ⟨110, _, rfl, by decide, by decide⟩
  | str s => exact ⟨34, _, rfl, by decide, by decide⟩
  | arr h => exact ⟨91, _, by rw [stringify], by decide, by decide⟩
  | obj hkeys h => exact ⟨123, _, by rw [stringify, objectText], by decide, by decide⟩

/-- An array of elements that are written. -/
theorem readsAs_arr {fuel : ℕ} {items : List (Text × Json)}
    (hbegin : ∀ e ∈ items, ∃ c t, e.1 = c :: t ∧ c ≠ 93 ∧ isJsonSpace c = false)
    (h : ∀ e ∈ items, ReadsBefore (readValue fuel) e.1 e.2) :
    ReadsAs (readValue (fuel + 1)) (91 :: elementsText (items.map Prod.fst)) (.arr (items.map Prod.snd)) := by
  intro rest
  rw [List.cons_append, readValue, skipSpace_cons (by decide)]
  cases items with
  | nil => rfl
  | cons e items =>
    obtain ⟨c, t, htext, hbracket, hspace⟩ := hbegin e List.mem_cons_self
    have hcons : ∃ s, elementsText ((e :: items).map Prod.fst) ++ rest = c :: s := by
      rw [List.map_cons, htext]
      cases items with
      | nil => exact ⟨_, rfl⟩
      | cons e' items => exact ⟨_, rfl⟩
    obtain ⟨s, hs⟩ := hcons
    have hlength : (e :: items).length ≤ (elementsText ((e :: items).map Prod.fst) ++ rest).length := by
      have hle := length_le_elementsText ((e :: items).map Prod.fst)
      rw [List.length_map] at hle
      rw [List.length_append]
      omega
    have hread := readElements_elementsText (List.cons_ne_nil e items) h hlength rest
    rw [hs] at hread ⊢
    simp only
    rw [skipSpace_cons hspace]
    split
    · rename_i heq
      exact absurd (List.cons.inj heq).1 hbracket
    · rw [hread]
      rfl

/-- An object of members that are written. -/
theorem readsAs_obj {fuel : ℕ} {members : List (Text × Text × Json)} (hkeys : (members.map Prod.fst).Nodup)
    (h : ∀ m ∈ members, ReadsBefore (readValue fuel) m.2.1 m.2.2) :
    ReadsAs (readValue (fuel + 1)) (objectText (members.map fun m => (m.1, m.2.1)))
      (.obj (members.map fun m => (m.1, m.2.2))) := by
  cases members with
  | nil => exact fun _ => rfl
  | cons m members => exact readsAs_objectText (List.cons_ne_nil _ _) hkeys h

/-- **What is written reads back**, at every depth. -/
theorem readsBefore_stringify {v : Json} (h : v.Proper) {fuel : ℕ} (hfuel : (stringify v).length < fuel) :
    ReadsBefore (readValue fuel) (stringify v) v.written := by
  induction h generalizing fuel with
  | null | bool | str =>
    obtain ⟨fuel, rfl⟩ : ∃ k, fuel = k + 1 := ⟨fuel - 1, by omega⟩
    first
      | exact (readsAs_null fuel).before
      | exact (readsAs_bool _ fuel).before
      | exact (readsAs_quote fuel _).before
  | @num x h =>
    obtain ⟨fuel, rfl⟩ : ∃ k, fuel = k + 1 := ⟨fuel - 1, by omega⟩
    cases x with
    | finite q => exact readsBefore_numberText (h q rfl) fuel
    | nan | negInfinity | posInfinity => exact (readsAs_null fuel).before
  | @arr items h ih =>
    obtain ⟨fuel, rfl⟩ : ∃ k, fuel = k + 1 := ⟨fuel - 1, by omega⟩
    rw [stringify, stringifyItems_eq, List.length_cons] at hfuel
    have hbegin : ∀ e ∈ items.map fun v => (stringify v, v.written),
        ∃ c t, e.1 = c :: t ∧ c ≠ 93 ∧ isJsonSpace c = false := by
      intro e he
      obtain ⟨v, hv, rfl⟩ := List.mem_map.mp he
      exact exists_cons_stringify (h v hv)
    have helements : ∀ e ∈ items.map fun v => (stringify v, v.written),
        ReadsBefore (readValue fuel) e.1 e.2 := by
      intro e he
      obtain ⟨v, hv, rfl⟩ := List.mem_map.mp he
      have hlt := length_lt_elementsText (List.mem_map_of_mem (f := stringify) hv)
      exact ih v hv (by omega)
    have hread := readsAs_arr hbegin helements
    rw [List.map_map, List.map_map] at hread
    rw [stringify, stringifyItems_eq, Json.written_arr]
    exact hread.before
  | @obj fields hkeys h ih =>
    obtain ⟨fuel, rfl⟩ : ∃ k, fuel = k + 1 := ⟨fuel - 1, by omega⟩
    rw [stringify, stringifyFields_eq, ownOrder_map_values, objectText, List.length_cons] at hfuel
    have hmembers : ∀ m ∈ (ownOrder fields).map fun e => (e.1, stringify e.2, e.2.written),
        ReadsBefore (readValue fuel) m.2.1 m.2.2 := by
      intro m hm
      obtain ⟨e, he, rfl⟩ := List.mem_map.mp hm
      have hlt := length_lt_membersText (List.mem_map_of_mem (f := fun e => (e.1, stringify e.2)) he)
      dsimp only at hlt
      exact ih e ((ownOrder_perm fields).mem_iff.mp he) (by omega)
    have hread := readsAs_obj (by rw [List.map_map]; exact nodup_keys_ownOrder hkeys) hmembers
    rw [List.map_map, List.map_map] at hread
    rw [stringify, stringifyFields_eq, ownOrder_map_values, Json.written_obj]
    exact hread.before

/-- **A document reads back as it is written.** -/
theorem parseJson_stringify {v : Json} (h : v.Proper) : parseJson (stringify v) = .ok v.written :=
  parseJson_of_readsBefore (readsBefore_stringify h (Nat.lt_succ_self _))

/-! ## Values that were read -/

/-- The keys of an object that was read differ. -/
theorem nodup_lastValues (members : List (Text × Json)) : ((lastValues members).map Prod.fst).Nodup := by
  induction members with
  | nil => exact List.nodup_nil
  | cons m members ih =>
    obtain ⟨key, v⟩ := m
    rw [lastValues, List.map_cons, List.nodup_cons]
    refine ⟨fun hmem => ?_, ih.sublist (List.filter_sublist.map _)⟩
    obtain ⟨m, hm, heq⟩ := List.mem_map.mp hmem
    have hne := (List.mem_filter.mp hm).2
    rw [heq] at hne
    simp at hne

/-- The values of an object that was read are values of its members. -/
theorem exists_mem_of_mem_lastValues {members : List (Text × Json)} {m : Text × Json}
    (h : m ∈ lastValues members) : ∃ m' ∈ members, m'.2 = m.2 := by
  induction members with
  | nil => cases h
  | cons m₀ members ih =>
    obtain ⟨key, v⟩ := m₀
    rw [lastValues] at h
    rcases List.mem_cons.mp h with rfl | hrest
    · cases hfind : members.reverse.find? fun m => m.1 == key with
      | none => exact ⟨(key, v), List.mem_cons_self, rfl⟩
      | some m' =>
        have hmem := List.mem_reverse.mp (List.mem_of_find?_eq_some hfind)
        exact ⟨m', List.mem_cons_of_mem _ hmem, rfl⟩
    · obtain ⟨m', hm', heq⟩ := ih (List.mem_filter.mp hrest).1
      exact ⟨m', List.mem_cons_of_mem _ hm', heq⟩

/-- A reader of values that the language can hold. -/
def ReadsProper (value : Reader) : Prop := ∀ s v rest, value s = some (v, rest) → v.Proper

theorem proper_of_readNumber {s rest : Text} {x : JsNumber} (h : readNumber s = some (x, rest)) :
    (Json.num x).Proper := by
  have hunsigned : ∃ negative t, readNumber s = readUnsigned negative t := ⟨_, _, rfl⟩
  have hexact : ∃ q, x = .ofExact q := by
    obtain ⟨negative, t, heq⟩ := hunsigned
    rw [heq, readUnsigned] at h
    by_cases hempty : (wholeDigits t).isEmpty = true
    · rw [if_pos hempty] at h
      cases h
    · rw [if_neg hempty] at h
      obtain ⟨⟨fraction, s'⟩, -, h⟩ := Option.bind_eq_some_iff.mp h
      obtain ⟨⟨power, rest'⟩, -, h⟩ := Option.bind_eq_some_iff.mp h
      exact ⟨_, (Prod.mk.inj (Option.some.inj h)).1.symm⟩
  obtain ⟨q, rfl⟩ := hexact
  exact .num fun y hy => JsNumber.ofExact_ofExact hy

theorem proper_of_readLiteral {s rest : Text} {v : Json} (h : readLiteral s = some (v, rest)) : v.Proper := by
  unfold readLiteral at h
  split at h
  · obtain ⟨rfl, -⟩ := Prod.mk.inj (Option.some.inj h)
    exact .null
  · split at h
    · obtain ⟨rfl, -⟩ := Prod.mk.inj (Option.some.inj h)
      exact .bool true
    · split at h
      · obtain ⟨rfl, -⟩ := Prod.mk.inj (Option.some.inj h)
        exact .bool false
      · obtain ⟨p, hp, heq⟩ := Option.map_eq_some_iff.mp h
        obtain ⟨rfl, -⟩ := Prod.mk.inj heq
        exact proper_of_readNumber hp

theorem proper_of_readElements {value : Reader} (hvalue : ReadsProper value) (n : ℕ) {s rest : Text}
    {vs : List Json} (h : readElements value n s = some (vs, rest)) : ∀ v ∈ vs, v.Proper := by
  induction n generalizing s vs rest with
  | zero => cases h
  | succ n ih =>
    rw [readElements] at h
    obtain ⟨⟨v, s'⟩, hv, h⟩ := Option.bind_eq_some_iff.mp h
    have hproper := hvalue s v s' hv
    dsimp only at h
    split at h
    · obtain ⟨⟨vs', rest'⟩, hvs, h⟩ := Option.bind_eq_some_iff.mp h
      obtain ⟨rfl, -⟩ := Prod.mk.inj (Option.some.inj h)
      intro w hw
      rcases List.mem_cons.mp hw with rfl | hrest
      · exact hproper
      · exact ih hvs w hrest
    · obtain ⟨rfl, -⟩ := Prod.mk.inj (Option.some.inj h)
      intro w hw
      rwa [List.mem_singleton.mp hw]
    · cases h

theorem proper_of_readMembers {value : Reader} (hvalue : ReadsProper value) (n : ℕ) {s rest : Text}
    {members : List (Text × Json)} (h : readMembers value n s = some (members, rest)) :
    ∀ m ∈ members, m.2.Proper := by
  induction n generalizing s members rest with
  | zero => cases h
  | succ n ih =>
    rw [readMembers] at h
    split at h
    · obtain ⟨⟨key, s₁⟩, -, h⟩ := Option.bind_eq_some_iff.mp h
      dsimp only at h
      split at h
      · obtain ⟨⟨v, s₂⟩, hv, h⟩ := Option.bind_eq_some_iff.mp h
        have hproper := hvalue _ v s₂ hv
        dsimp only at h
        split at h
        · obtain ⟨⟨members', rest'⟩, hmembers, h⟩ := Option.bind_eq_some_iff.mp h
          obtain ⟨rfl, -⟩ := Prod.mk.inj (Option.some.inj h)
          intro m hm
          rcases List.mem_cons.mp hm with rfl | hrest
          · exact hproper
          · exact ih hmembers m hrest
        · obtain ⟨rfl, -⟩ := Prod.mk.inj (Option.some.inj h)
          intro m hm
          rwa [List.mem_singleton.mp hm]
        · cases h
      · cases h
    · cases h

/-- **What is read is a value that the language can hold.** -/
theorem readsProper_readValue (fuel : ℕ) : ReadsProper (readValue fuel) := by
  induction fuel with
  | zero => exact fun _ _ _ h => by cases h
  | succ fuel ih =>
    intro s v rest h
    rw [readValue] at h
    split at h
    · obtain ⟨p, -, heq⟩ := Option.map_eq_some_iff.mp h
      obtain ⟨rfl, -⟩ := Prod.mk.inj heq
      exact .str _
    · split at h
      · obtain ⟨rfl, -⟩ := Prod.mk.inj (Option.some.inj h)
        exact .obj List.nodup_nil fun _ he => by cases he
      · obtain ⟨p, hp, heq⟩ := Option.map_eq_some_iff.mp h
        obtain ⟨rfl, -⟩ := Prod.mk.inj heq
        refine .obj (nodup_lastValues _) fun e he => ?_
        obtain ⟨m, hm, heq⟩ := exists_mem_of_mem_lastValues he
        rw [← heq]
        exact proper_of_readMembers ih _ hp m hm
    · split at h
      · obtain ⟨rfl, -⟩ := Prod.mk.inj (Option.some.inj h)
        exact .arr fun _ he => by cases he
      · obtain ⟨p, hp, heq⟩ := Option.map_eq_some_iff.mp h
        obtain ⟨rfl, -⟩ := Prod.mk.inj heq
        exact .arr (proper_of_readElements ih _ hp)
    · exact proper_of_readLiteral h

theorem proper_of_parseJson {s : Text} {v : Json} (h : parseJson s = .ok v) : v.Proper := by
  unfold parseJson at h
  split at h
  · rename_i v' rest hread
    split at h
    · obtain rfl := Except.ok.inj h
      exact readsProper_readValue _ _ _ _ hread
    · cases h
  · cases h

end DreamWeaver
