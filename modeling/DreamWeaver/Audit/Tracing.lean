import DreamWeaver.Stories.StoryEntity
import Mathlib.Tactic.IntervalCases

/-! # Trace ids across requests

The tracing middleware (`api/src/middleware/tracing.ts`) takes the trace of a request from its header `traceparent`, or
begins one, and answers with a `traceparent` of the same trace and a span of its own. What it answers with is a header
that it accepts, so that a trace goes on for as long as the headers of an answer are sent with the next request. -/

namespace DreamWeaver.Audit

open Stories (isHexUnit)

/-! ## UUIDs -/

/-- A hexadecimal digit that is no capital letter. -/
def isLowerHex (c : CodeUnit) : Bool := (48 ≤ c && c ≤ 57) || (97 ≤ c && c ≤ 102)

/-- What `randomUUID` draws: groups of digits, the third of which begins with the version. -/
structure RandomUuid where
  first : Text
  second : Text
  third : Text
  fourth : Text
  fifth : Text
  lengths : first.length = 8 ∧ second.length = 4 ∧ third.length = 3 ∧ fourth.length = 4 ∧ fifth.length = 12
  digits : ∀ c ∈ first ++ second ++ third ++ fourth ++ fifth, isLowerHex c = true

namespace RandomUuid

variable (u : RandomUuid)

/-- The text of a UUID. -/
def text : Text := [45].intercalate [u.first, u.second, 52 :: u.third, u.fourth, u.fifth]

/-- A UUID without its hyphens. -/
def hex : Text := u.text.filter fun c => c != 45

end RandomUuid

/-! ## The middleware -/

/-- `generateRequestId` -/
def generateRequestId (u : RandomUuid) : Text := lit "req_" ++ u.text

/-- `generateSpanId` -/
def generateSpanId (u : RandomUuid) : Text := u.hex.take 16

/-- `/^[0-9a-f]{n}$/i.test(s)` -/
def isHexOf (n : ℕ) (s : Text) : Bool := s.length == n && s.all isHexUnit

/-- `/^0{n}$/.test(s)` -/
def isZeros (n : ℕ) (s : Text) : Bool := s.length == n && s.all fun c => c == 48

/-- `parseTraceParent`: the trace and the span before. -/
def parseTraceParent (value : Option Text) : Option (Text × Text) :=
  match value.filter fun value => !value.isEmpty with
  | none => none
  | some value =>
    match (trim value).splitOn 45 with
    | [_, traceId, parentSpanId, _] =>
      if !isHexOf 32 traceId then none
      else if !isHexOf 16 parentSpanId then none
      else if isZeros 32 traceId then none
      else if isZeros 16 parentSpanId then none
      else some (toLowerCase traceId, toLowerCase parentSpanId)
    | _ => none

/-- `formatTraceParent` -/
def formatTraceParent (traceId spanId : Text) : Text := lit "00-" ++ traceId ++ lit "-" ++ spanId ++ lit "-01"

/-- The headers `x-request-id` and `traceparent`. -/
structure TraceHeaders where
  requestId : Option Text
  traceparent : Option Text

/-- `TracingVariables` -/
structure TracingVariables where
  requestId : Text
  traceId : Text
  spanId : Text

/-- The UUIDs that are drawn for a request. -/
structure Drawn where
  request : RandomUuid
  trace : RandomUuid
  span : RandomUuid

/-- `tracingMiddleware` -/
def tracingMiddleware (headers : TraceHeaders) (drawn : Drawn) : TracingVariables where
  requestId := orText headers.requestId (generateRequestId drawn.request)
  traceId := orText ((parseTraceParent headers.traceparent).map Prod.fst) drawn.trace.hex
  spanId := generateSpanId drawn.span

/-- The headers of the response. -/
def TracingVariables.headers (ids : TracingVariables) : TraceHeaders where
  requestId := some ids.requestId
  traceparent := some (formatTraceParent ids.traceId ids.spanId)

/-- Requests one after the other, each with the headers of the answer to the one before. -/
def traced : TraceHeaders → List Drawn → List TracingVariables
  | _, [] => []
  | headers, drawn :: rest =>
    tracingMiddleware headers drawn :: traced (tracingMiddleware headers drawn).headers rest

/-! ## Ids -/

/-- An id of a trace or a span: digits, not all of them zero. -/
structure IsId (n : ℕ) (s : Text) : Prop where
  length : s.length = n
  digits : ∀ c ∈ s, isLowerHex c = true
  nonzero : ∃ c ∈ s, c ≠ 48

/-- The digits, one by one. -/
theorem isHexUnit_cases {c : CodeUnit} (h : isHexUnit c = true) :
    ∃ n, c = UInt16.ofNat n ∧ (48 ≤ n ∧ n ≤ 57 ∨ 65 ≤ n ∧ n ≤ 70 ∨ 97 ≤ n ∧ n ≤ 102) := by
  refine ⟨c.toNat, UInt16.ofNat_toNat.symm, ?_⟩
  simp [isHexUnit, UInt16.le_iff_toNat_le] at h
  omega

theorem isHexUnit_of_isLowerHex {c : CodeUnit} (h : isLowerHex c = true) : isHexUnit c = true := by
  rw [isLowerHex, Bool.or_eq_true] at h
  rw [isHexUnit, Bool.or_eq_true, Bool.or_eq_true]
  exact h.imp_left Or.inl

/-- A digit is no hyphen and no white space. -/
theorem plain_of_isHexUnit {c : CodeUnit} (h : isHexUnit c = true) : isWhite c = false ∧ c ≠ 45 := by
  obtain ⟨n, rfl, ⟨hl, hu⟩ | ⟨hl, hu⟩ | ⟨hl, hu⟩⟩ := isHexUnit_cases h <;> interval_cases n <;> decide

/-- A digit in lower case, which is zero where the digit is. -/
theorem lowerUnit_of_isHexUnit {c : CodeUnit} (h : isHexUnit c = true) :
    ∃ d, lowerUnit c = [d] ∧ isLowerHex d = true ∧ (c ≠ 48 → d ≠ 48) ∧ (isLowerHex c = true → d = c) := by
  obtain ⟨n, rfl, ⟨hl, hu⟩ | ⟨hl, hu⟩ | ⟨hl, hu⟩⟩ := isHexUnit_cases h <;> interval_cases n <;>
    exact ⟨_, rfl, by decide⟩

/-- An id in lower case. -/
theorem isId_toLowerCase {n : ℕ} {s : Text} (hhex : isHexOf n s = true) (hzeros : isZeros n s = false) :
    IsId n (toLowerCase s) := by
  obtain ⟨hlength, hdigits⟩ := Bool.and_eq_true_iff.mp hhex
  rw [beq_iff_eq] at hlength
  have hunits : ∀ c ∈ s, isHexUnit c = true := List.all_eq_true.mp hdigits
  refine ⟨?_, fun d hd => ?_, ?_⟩
  · rw [toLowerCase, List.length_flatMap, ← hlength, List.map_congr_left (g := fun _ => 1)]
    · simp
    · intro c hc
      obtain ⟨d, hd, -⟩ := lowerUnit_of_isHexUnit (hunits c hc)
      rw [hd]
      rfl
  · obtain ⟨c, hc, hmem⟩ := List.mem_flatMap.mp hd
    obtain ⟨d', hd', hlower, -⟩ := lowerUnit_of_isHexUnit (hunits c hc)
    rw [hd', List.mem_singleton] at hmem
    exact hmem ▸ hlower
  · -- a digit that is not zero stays one
    rw [isZeros, hlength, beq_self_eq_true, Bool.true_and, List.all_eq_false] at hzeros
    obtain ⟨c, hc, hne⟩ := hzeros
    obtain ⟨d, hd, -, hnonzero, -⟩ := lowerUnit_of_isHexUnit (hunits c hc)
    refine ⟨d, List.mem_flatMap.mpr ⟨c, hc, ?_⟩, hnonzero (by simpa using hne)⟩
    rw [hd]
    exact List.mem_singleton_self d

/-- An id is in lower case. -/
theorem IsId.toLowerCase {n : ℕ} {s : Text} (h : IsId n s) : DreamWeaver.toLowerCase s = s := by
  have hunits := h.digits
  clear h
  induction s with
  | nil => rfl
  | cons c s ih =>
    obtain ⟨hc, hs⟩ := List.forall_mem_cons.mp hunits
    obtain ⟨d, hd, -, -, heq⟩ := lowerUnit_of_isHexUnit (isHexUnit_of_isLowerHex hc)
    rw [DreamWeaver.toLowerCase, List.flatMap_cons, hd, heq hc, ← DreamWeaver.toLowerCase, ih hs]
    rfl

/-- An id is accepted. -/
theorem IsId.accepted {n : ℕ} {s : Text} (h : IsId n s) : isHexOf n s = true ∧ isZeros n s = false := by
  constructor
  · rw [isHexOf, h.length, beq_self_eq_true, Bool.true_and, List.all_eq_true]
    exact fun c hc => isHexUnit_of_isLowerHex (h.digits c hc)
  · obtain ⟨c, hc, hne⟩ := h.nonzero
    rw [isZeros, h.length, beq_self_eq_true, Bool.true_and, List.all_eq_false]
    exact ⟨c, hc, by simpa using hne⟩

namespace RandomUuid

variable (u : RandomUuid)

/-- The digits of a UUID. -/
theorem hex_eq : u.hex = u.first ++ (u.second ++ (52 :: (u.third ++ (u.fourth ++ u.fifth)))) := by
  have hkept (part : Text) (hpart : part ⊆ u.first ++ u.second ++ u.third ++ u.fourth ++ u.fifth) :
      part.filter (fun c => c != 45) = part := by
    refine List.filter_eq_self.mpr fun c hc => ?_
    simpa using (plain_of_isHexUnit (isHexUnit_of_isLowerHex (u.digits c (hpart hc)))).2
  have htext : u.text = u.first ++ 45 :: (u.second ++ 45 :: (52 :: u.third ++ 45 :: (u.fourth ++ 45 :: u.fifth))) := by
    simp [text, List.intercalate]
  rw [hex, htext]
  simp only [List.filter_append, List.filter_cons]
  rw [hkept u.first fun c hc => by simp [hc], hkept u.second fun c hc => by simp [hc],
    hkept u.third fun c hc => by simp [hc], hkept u.fourth fun c hc => by simp [hc],
    hkept u.fifth fun c hc => by simp [hc]]
  simp

/-- The digits of a UUID are no id of zeros: the version is among them. -/
theorem isId_hex : IsId 32 u.hex := by
  obtain ⟨h₁, h₂, h₃, h₄, h₅⟩ := u.lengths
  rw [u.hex_eq]
  refine ⟨by simp [h₁, h₂, h₃, h₄, h₅], fun c hc => ?_, 52, by simp, by decide⟩
  have hdigits := u.digits c
  simp only [List.mem_append, List.mem_cons] at hc hdigits
  rcases hc with hc | hc | rfl | hc | hc | hc
  · exact hdigits (by simp [hc])
  · exact hdigits (by simp [hc])
  · rfl
  · exact hdigits (by simp [hc])
  · exact hdigits (by simp [hc])
  · exact hdigits (by simp [hc])

/-- Nor are the first sixteen. -/
theorem isId_generateSpanId : IsId 16 (generateSpanId u) := by
  obtain ⟨h₁, h₂, h₃, -, -⟩ := u.lengths
  have hid := u.isId_hex
  refine ⟨?_, fun c hc => hid.digits c (List.take_subset 16 _ hc), 52, ?_, by decide⟩
  · rw [generateSpanId, List.length_take, hid.length]
    rfl
  · have hversion : u.hex[12]? = some 52 := by
      rw [u.hex_eq, List.getElem?_append_right (by omega), h₁, List.getElem?_append_right (by omega), h₂]
      rfl
    rw [generateSpanId]
    refine List.mem_of_getElem? (i := 12) ?_
    rw [List.getElem?_take_of_lt (by decide), hversion]

end RandomUuid

/-! ## The header -/

/-- No piece of a split has what it was split on. -/
theorem not_mem_of_mem_splitOn {s part : Text} {c : CodeUnit} (h : part ∈ s.splitOn c) : c ∉ part := by
  induction s generalizing part with
  | nil =>
    rw [List.splitOn_nil, List.mem_singleton] at h
    rw [h]
    exact List.not_mem_nil
  | cons d s ih =>
    rw [List.splitOn_cons_eq_if_modifyHead] at h
    -- a separator begins a piece, any other unit joins the first
    by_cases hd : (d == c) = true
    · rw [if_pos hd, List.mem_cons] at h
      rcases h with rfl | h
      · exact List.not_mem_nil
      · exact ih h
    · rw [if_neg hd] at h
      cases hsplit : s.splitOn c with
      | nil => exact absurd hsplit (List.splitOn_ne_nil c s)
      | cons head tail =>
        rw [hsplit, List.modifyHead_cons, List.mem_cons] at h
        rcases h with rfl | h
        · have hhead : c ∉ head := ih (by rw [hsplit]; exact List.mem_cons_self)
          simpa [hhead] using fun heq => hd (beq_iff_eq.mpr heq.symm)
        · exact ih (by rw [hsplit]; exact List.mem_cons_of_mem _ h)

/-- A text splits into pieces exactly if it is the pieces joined. -/
theorem splitOn_eq_iff {s : Text} {c : CodeUnit} {parts : List Text} (hne : parts ≠ []) :
    s.splitOn c = parts ↔ s = [c].intercalate parts ∧ ∀ part ∈ parts, c ∉ part := by
  constructor
  · rintro rfl
    exact ⟨(List.intercalate_splitOn c).symm, fun part hpart => not_mem_of_mem_splitOn hpart⟩
  · rintro ⟨rfl, hparts⟩
    exact List.splitOn_intercalate c hparts hne

/-- **What is accepted**: four fields, the second and the third of which are hexadecimal and not zero. -/
theorem parseTraceParent_eq_some_iff {value : Text} {traceId spanId : Text} :
    parseTraceParent (some value) = some (traceId, spanId) ↔ ∃ version trace span flags,
      trim value = [45].intercalate [version, trace, span, flags] ∧ 45 ∉ version ∧ 45 ∉ flags ∧
        (isHexOf 32 trace = true ∧ isZeros 32 trace = false) ∧ (isHexOf 16 span = true ∧ isZeros 16 span = false) ∧
          traceId = toLowerCase trace ∧ spanId = toLowerCase span := by
  have hplain {n : ℕ} {s : Text} (h : isHexOf n s = true) : 45 ∉ s := fun hmem =>
    (plain_of_isHexUnit (List.all_eq_true.mp (Bool.and_eq_true_iff.mp h).2 _ hmem)).2 rfl
  constructor
  · intro h
    rw [parseTraceParent] at h
    cases hvalue : (some value).filter fun value => !value.isEmpty with
    | none =>
      rw [hvalue] at h
      cases h
    | some value' =>
      obtain rfl : value = value' := Option.some.inj (Option.filter_eq_some_iff.mp hvalue).1
      simp only [hvalue] at h
      -- only four fields go on to the checks
      split at h
      · rename_i version trace span flags hsplit
        obtain ⟨hjoined, hparts⟩ := (splitOn_eq_iff (by simp)).mp hsplit
        split_ifs at h with htrace hspan htraceZeros hspanZeros
        cases h
        refine ⟨version, trace, span, flags, hjoined, hparts _ (by simp), hparts _ (by simp), ?_⟩
        simp_all
      · cases h
  · rintro ⟨version, trace, span, flags, hjoined, hversion, hflags, ⟨htrace, htraceZeros⟩, ⟨hspan, hspanZeros⟩, rfl, rfl⟩
    -- no field has a hyphen, so that the header splits into these
    have hsplit : (trim value).splitOn 45 = [version, trace, span, flags] := by
      refine (splitOn_eq_iff (by simp)).mpr ⟨hjoined, ?_⟩
      simp [hversion, hflags, hplain htrace, hplain hspan]
    have hvalue : value ≠ [] := by
      rintro rfl
      rw [show trim [] = [] from rfl] at hjoined
      simp [List.intercalate] at hjoined
    rw [parseTraceParent, Option.filter_some_pos (by simpa using hvalue)]
    simp [hsplit, htrace, hspan, htraceZeros, hspanZeros]

/-- A text without white space is trimmed. -/
theorem trim_eq_self {s : Text} (h : ∀ c ∈ s, isWhite c = false) : trim s = s := by
  have hstart : trimStart s = s := by
    rw [trimStart, List.dropWhile_eq_self_iff]
    intro hlength
    rw [h _ (List.getElem_mem _)]
    exact Bool.false_ne_true
  rw [trim, hstart, trimEnd, List.rdropWhile_eq_self_iff]
  intro hne
  rw [h _ (List.getLast_mem hne)]
  exact Bool.false_ne_true

/-- **What is answered is accepted** as the same trace and span. -/
theorem parseTraceParent_formatTraceParent {traceId spanId : Text} (htrace : IsId 32 traceId) (hspan : IsId 16 spanId) :
    parseTraceParent (some (formatTraceParent traceId spanId)) = some (traceId, spanId) := by
  have hplain {n : ℕ} {s : Text} (h : IsId n s) : s.all (fun c => !isWhite c) = true := by
    rw [List.all_eq_true]
    intro c hc
    rw [(plain_of_isHexUnit (isHexUnit_of_isLowerHex (h.digits c hc))).1]
    rfl
  -- digits and hyphens are no white space
  have hall : (formatTraceParent traceId spanId).all (fun c => !isWhite c) = true := by
    simp only [formatTraceParent, List.all_append, hplain htrace, hplain hspan]
    decide
  have htrim : trim (formatTraceParent traceId spanId) = formatTraceParent traceId spanId :=
    trim_eq_self fun c hc => by simpa using List.all_eq_true.mp hall c hc
  have hjoined : formatTraceParent traceId spanId = [45].intercalate [lit "00", traceId, spanId, lit "01"] := by
    rw [formatTraceParent, show lit "00-" = lit "00" ++ [45] by decide, show lit "-" = [45] by decide,
      show lit "-01" = 45 :: lit "01" by decide]
    simp [List.intercalate]
  rw [parseTraceParent_eq_some_iff]
  exact ⟨lit "00", traceId, spanId, lit "01", htrim.trans hjoined, by decide, by decide, htrace.accepted,
    hspan.accepted, htrace.toLowerCase.symm, hspan.toLowerCase.symm⟩

/-! ## Traces -/

variable {headers : TraceHeaders} {drawn : Drawn} {ids : TracingVariables}

/-- What is accepted are ids. -/
theorem isId_of_parseTraceParent {value : Option Text} {traceId spanId : Text}
    (h : parseTraceParent value = some (traceId, spanId)) : IsId 32 traceId ∧ IsId 16 spanId := by
  cases value with
  | none => cases h
  | some value =>
    obtain ⟨_, _, _, _, -, -, -, ⟨htrace, htraceZeros⟩, ⟨hspan, hspanZeros⟩, rfl, rfl⟩ :=
      parseTraceParent_eq_some_iff.mp h
    exact ⟨isId_toLowerCase htrace htraceZeros, isId_toLowerCase hspan hspanZeros⟩

/-- An id is there. -/
theorem IsId.ne_nil {n : ℕ} {s : Text} (h : IsId n s) : s ≠ [] := by
  obtain ⟨c, hc, -⟩ := h.nonzero
  exact List.ne_nil_of_mem hc

/-- The trace of a request is the one of its header, or begins with it. -/
theorem traceId_tracingMiddleware :
    (tracingMiddleware headers drawn).traceId = ((parseTraceParent headers.traceparent).map Prod.fst).getD drawn.trace.hex := by
  rw [tracingMiddleware]
  dsimp only
  cases hparsed : parseTraceParent headers.traceparent with
  | none => rfl
  | some pair =>
    obtain ⟨traceId, spanId⟩ := pair
    have hne := (isId_of_parseTraceParent hparsed).1.ne_nil
    cases traceId with
    | nil => exact absurd rfl hne
    | cons c s => rfl

/-- The variables of a request are ids. -/
theorem isId_tracingMiddleware (headers : TraceHeaders) (drawn : Drawn) :
    IsId 32 (tracingMiddleware headers drawn).traceId ∧ IsId 16 (tracingMiddleware headers drawn).spanId := by
  refine ⟨?_, drawn.span.isId_generateSpanId⟩
  rw [traceId_tracingMiddleware]
  cases hparsed : parseTraceParent headers.traceparent with
  | none => exact drawn.trace.isId_hex
  | some pair => exact (isId_of_parseTraceParent hparsed).1

/-- A request id is there. -/
theorem requestId_ne_nil (headers : TraceHeaders) (drawn : Drawn) : (tracingMiddleware headers drawn).requestId ≠ [] := by
  rw [tracingMiddleware]
  dsimp only
  rcases headers.requestId with _ | _ | ⟨c, s⟩ <;> exact List.cons_ne_nil _ _

/-- The next request goes on with the trace, as a child of the span. -/
theorem tracingMiddleware_headers (drawn next : Drawn) (headers : TraceHeaders) :
    (tracingMiddleware (tracingMiddleware headers drawn).headers next).traceId = (tracingMiddleware headers drawn).traceId ∧
      (tracingMiddleware (tracingMiddleware headers drawn).headers next).requestId =
        (tracingMiddleware headers drawn).requestId := by
  obtain ⟨htrace, hspan⟩ := isId_tracingMiddleware headers drawn
  have hne := requestId_ne_nil headers drawn
  constructor
  · rw [traceId_tracingMiddleware, TracingVariables.headers, parseTraceParent_formatTraceParent htrace hspan]
    rfl
  · generalize tracingMiddleware headers drawn = ids at hne
    obtain ⟨requestId, _, _⟩ := ids
    cases requestId with
    | nil => exact absurd rfl hne
    | cons c s => rfl

/-- **A trace goes on**: where every request is sent with the headers of the answer before, all of them have the trace
and the request id of the first; that trace is the one of the header, if the header is accepted; and every answer is
accepted as the trace and the span of its request. -/
theorem trace_continues (headers : TraceHeaders) (first : Drawn) (rest : List Drawn) :
    ∀ ids ∈ traced headers (first :: rest),
      ids.traceId = ((parseTraceParent headers.traceparent).map Prod.fst).getD first.trace.hex ∧
        ids.requestId = (tracingMiddleware headers first).requestId ∧
          parseTraceParent ids.headers.traceparent = some (ids.traceId, ids.spanId) := by
  have hall : ∀ headers first, ∀ ids ∈ traced headers (first :: rest),
      ids.traceId = (tracingMiddleware headers first).traceId ∧
        ids.requestId = (tracingMiddleware headers first).requestId ∧ IsId 32 ids.traceId ∧ IsId 16 ids.spanId := by
    induction rest with
    | nil =>
      intro headers first ids hmem
      rw [traced, traced, List.mem_singleton] at hmem
      subst hmem
      exact ⟨rfl, rfl, isId_tracingMiddleware headers first⟩
    | cons next rest ih =>
      intro headers first ids hmem
      rw [traced, List.mem_cons] at hmem
      rcases hmem with rfl | hmem
      · exact ⟨rfl, rfl, isId_tracingMiddleware headers first⟩
      · obtain ⟨htrace, hrequest, hids⟩ := ih _ next ids hmem
        obtain ⟨htrace', hrequest'⟩ := tracingMiddleware_headers first next headers
        exact ⟨htrace.trans htrace', hrequest.trans hrequest', hids⟩
  intro ids hmem
  obtain ⟨htrace, hrequest, hid, hspan⟩ := hall headers first ids hmem
  refine ⟨htrace.trans traceId_tracingMiddleware, hrequest, ?_⟩
  exact parseTraceParent_formatTraceParent hid hspan

/-- A UUID. -/
def someUuid : RandomUuid where
  first := lit "00000000"
  second := lit "0000"
  third := lit "000"
  fourth := lit "8000"
  fifth := lit "00000000000a"
  lengths := by decide
  digits := List.all_eq_true.mp rfl

/-- A request with a trace in capital letters. -/
def someHeaders : TraceHeaders := ⟨none, some (lit " 00-0AF7651916CD43DD8448EB211C80319C-B7AD6B7169203331-00 ")⟩

theorem trace_continues_twice :
    (tracingMiddleware (tracingMiddleware someHeaders ⟨someUuid, someUuid, someUuid⟩).headers
      ⟨someUuid, someUuid, someUuid⟩).traceId = lit "0af7651916cd43dd8448eb211c80319c" := by
  have hmem : tracingMiddleware (tracingMiddleware someHeaders ⟨someUuid, someUuid, someUuid⟩).headers
      ⟨someUuid, someUuid, someUuid⟩ ∈
        traced someHeaders [⟨someUuid, someUuid, someUuid⟩, ⟨someUuid, someUuid, someUuid⟩] := by
    simp [traced]
  refine (trace_continues someHeaders _ _ _ hmem).1.trans ?_
  decide +kernel

end DreamWeaver.Audit
