import DreamWeaver.Foundations.JsString
import DreamWeaver.Foundations.MarkedLines
import DreamWeaver.Foundations.Sequence
import DreamWeaver.Memory.AgentMemoryPort
import DreamWeaver.Moments.VerificationPipeline

/-! # Facts from a session

`MemorySummarizationService.summarizeSession` (`api/src/domain/services/MemorySummarizationService.ts`) puts the
memories of a session below each other, each behind a mark with its number, lets a model extract facts that
cite the numbers, and stores the facts with the lines that they cite. The reply of the model is untrusted, and
so are the contents of the memories. -/

namespace DreamWeaver.Memory

open MarkedLines Moments Proc

/-! ## Data -/

/-- The field `sourceAnchor` of a `SemanticFact`. -/
structure SourceAnchor where
  sessionId : Text
  transcriptOffset : Option Json
  traceId : Option Json

/-- `SemanticFact`, whose fields may hold anything that the model replied. -/
structure SemanticFact where
  fact : Option Json
  confidence : Option Json
  sourceAnchor : SourceAnchor

/-- What the service awaits: the memory and the model. Only the anchor is stored with a fact. -/
inductive SummaryEffect where
  | retrieve (query : Text) (context : AgentContext) (type : MemoryType) (limit : ℕ)
  | generateStructured (input : StructuredInput)
  | store (content : Option Json) (type : MemoryType) (context : AgentContext) (anchor : SourceAnchor)

/-- What an effect is answered with. -/
abbrev SummaryEffect.Reply : SummaryEffect → Type
  | .retrieve _ _ _ _ => List MemoryRecord
  | .generateStructured _ => Option Json
  | .store _ _ _ _ => Unit

/-- A procedure of the service. -/
abbrev SummaryProc := Proc SummaryEffect SummaryEffect.Reply

/-- An event of the service. -/
abbrev SummaryEvent := Event SummaryEffect SummaryEffect.Reply

/-- `metadata?.['traceId']` -/
def MemoryRecord.traceId (m : MemoryRecord) : Option Json := (m.metadata.getD []).get? (lit "traceId")

namespace MemorySummarizationService

/-! ## The service -/

/-- `[Line ${index}] ` -/
def lineMark (index : ℕ) : Text := lit "[Line " ++ (showNat index ++ lit "] ")

/-- The transcript with line numbers. -/
def transcriptOf (memories : List MemoryRecord) : Text :=
  joinWith (lit "\n") (memories.mapIdx fun index m => lineMark index ++ m.content)

/-- A property of a schema. -/
def property (type : Text) : Json := .obj [(lit "type", .str type)]

/-- `factsSchema` -/
def factsSchema : Json :=
  .obj [(lit "type", .str (lit "ARRAY")),
    (lit "items", .obj [(lit "type", .str (lit "OBJECT")),
      (lit "properties", .obj [(lit "fact", property (lit "STRING")), (lit "confidence", property (lit "NUMBER")),
        (lit "lineReference", property (lit "NUMBER"))]),
      (lit "required", .arr [.str (lit "fact"), .str (lit "confidence"), .str (lit "lineReference")])])]

/-- The index that a number is in an array. -/
def indexOf (q : ℚ) : Option ℕ := if q.den = 1 ∧ 0 ≤ q.num then some q.num.toNat else none

/-- `rawMemories[reference]`: a number is an index, and any other value is the name of a property. -/
def sourceMemory (memories : List MemoryRecord) : Option Json → Except JsError (Option MemoryRecord)
  | some (.num (.finite q)) => .ok ((indexOf q).bind fun i => memories[i]?)
  | reference => (textOf reference).map fun key =>
    (memories.zipIdx.find? fun e => showNat e.2 = key).map Prod.fst

/-- A property of `null` is read. -/
def noProperties : JsError := ⟨lit "TypeError", lit "Cannot read properties of null (reading 'lineReference')"⟩

/-- The fact of an item and the memory that its reference leads to. -/
def factFrom (sessionId : Text) (item : Json) (source : Option MemoryRecord) : SemanticFact :=
  ⟨item.get (lit "fact"), firstTruthy (item.get (lit "confidence")) (some (.num (.ofExact (4 / 5)))),
    ⟨sessionId, item.get (lit "lineReference"), source.bind MemoryRecord.traceId⟩⟩

/-- The fact that is made of an item of the reply. -/
def factOf (sessionId : Text) (memories : List MemoryRecord) (item : Json) : Except JsError SemanticFact :=
  if item.isNull then .error noProperties
  else (sourceMemory memories (item.get (lit "lineReference"))).map (factFrom sessionId item)

/-- What is logged about a fact, unless one of its fields has no text. -/
def learned (fact : SemanticFact) : Except JsError Text := do
  let text ← textOf fact.fact
  let line ← textOf fact.sourceAnchor.transcriptOffset
  let trace ← textOf (firstTruthy fact.sourceAnchor.traceId (some (.str (lit "N/A"))))
  pure (lit "[RalphLoop] Learned: \"" ++ text ++ lit "\" (from Line " ++ line ++ lit ", Trace " ++ trace ++ lit ")")

variable (sessionId : Text) (memories : List MemoryRecord) (context : AgentContext)

/-- The loop over the facts. -/
def storeFacts : List Json → SummaryProc Unit
  | [] => pure ()
  | item :: items => do
    let fact ← (Proc.done (factOf sessionId memories item) : SummaryProc SemanticFact)
    perform (SummaryEffect.store fact.fact .semantic context fact.sourceAnchor)
    let _ ← (Proc.done (learned fact) : SummaryProc Text)
    storeFacts items

/-- The body of the `try`. -/
def extractFacts (systemPrompt : Text) : SummaryProc Unit := do
  let facts ← (perform (SummaryEffect.generateStructured ⟨systemPrompt, transcriptOf memories, factsSchema⟩) :
    SummaryProc (Option Json))
  let items ← (Proc.done (iterate facts) : SummaryProc (List Json))
  storeFacts sessionId memories context items

/-- `summarizeSession`, with the prompt that the prompt service gives or what it throws. -/
def summarizeSession (systemPrompt : Except JsError Text) (sessionId userId : Text) : SummaryProc Unit := do
  let context : AgentContext := ⟨userId, some sessionId, none⟩
  let rawMemories ← (perform (SummaryEffect.retrieve (lit "*") context .episodic 50) :
    SummaryProc (List MemoryRecord))
  match rawMemories with
  | [] => pure ()
  | rawMemories => do
    let systemPrompt ← (Proc.done systemPrompt : SummaryProc Text)
    (extractFacts sessionId rawMemories context systemPrompt).catchWith fun _ => pure ()

/-- The memory and the model answer as given, and storing may fail. -/
def summaryEnv (retrieved : Except JsError (List MemoryRecord)) (replied : Except JsError (Option Json)) :
    Env Unit SummaryEffect SummaryEffect.Reply := fun _ effect =>
  match effect with
  | .retrieve _ _ _ _ => fun reply _ => reply = retrieved
  | .generateStructured _ => fun reply _ => reply = replied
  | .store _ _ _ _ => fun _ _ => True

/-! ## Provenance -/

/-- The memories that were retrieved in a log. -/
def Retrieved (log : List SummaryEvent) (memories : List MemoryRecord) : Prop :=
  ∃ query context type limit, ⟨.retrieve query context type limit, .ok memories⟩ ∈ log

/-- The transcript that was sent in a log, and the items that were replied to it. -/
def Replied (log : List SummaryEvent) (transcript : Text) (items : List Json) : Prop :=
  ∃ systemPrompt schema facts, ⟨.generateStructured ⟨systemPrompt, transcript, schema⟩, .ok facts⟩ ∈ log ∧
    iterate facts = .ok items

/-- **A fact cites a line**: the anchor has the number of a memory and its trace, and in the transcript only the
line of that memory has this number. -/
structure Cites (memories : List MemoryRecord) (transcript : Text) (item : Json) (content : Option Json)
    (anchor : SourceAnchor) (i : ℕ) (m : MemoryRecord) : Prop where
  memory : memories[i]? = some m
  reference : item.get (lit "lineReference") = some (.num (.finite i))
  content : content = item.get (lit "fact")
  offset : anchor.transcriptOffset = some (.num (.finite i))
  trace : anchor.traceId = m.traceId
  line : linesAt 10 (lineMark i) transcript = [ownLine 10 (lineMark i) m.content]

/-- A stored fact is an item of the reply that cites a line of the transcript. -/
def Anchored (log : List SummaryEvent) (content : Option Json) (anchor : SourceAnchor) : Prop :=
  ∃ memories transcript items item i m, Retrieved log memories ∧ Replied log transcript items ∧ item ∈ items ∧
    Cites memories transcript item content anchor i m

/-- Every fact that is stored in a log is anchored. -/
def Provenance (log : List SummaryEvent) : Prop :=
  ∀ content context anchor, ⟨.store content .semantic context anchor, .ok ()⟩ ∈ log → Anchored log content anchor

/-! ## When it holds -/

/-- The loop stores the item if it comes to it. -/
def isRead (item : Json) : Bool := !item.isNull && hasText (item.get (lit "lineReference"))

/-- **The item names a line**: its reference is the number of a memory, and no memory has a further line with
this number. -/
def NamesLine (memories : List MemoryRecord) (item : Json) : Prop :=
  ∃ (i : ℕ) (m : MemoryRecord), memories[i]? = some m ∧ item.get (lit "lineReference") = some (.num (.finite i)) ∧
    ∀ other ∈ memories, ∀ line ∈ (other.content.splitOn 10).tail, ¬ lineMark i <+: line

/-- The trace of the memory that an item names. -/
def traceAt (memories : List MemoryRecord) (item : Json) : Option Json :=
  match item.get (lit "lineReference") with
  | some (.num (.finite q)) => ((indexOf q).bind fun i => memories[i]?).bind MemoryRecord.traceId
  | _ => none

/-- The loop goes on after the item is stored: what is logged has a text. -/
def isTold (memories : List MemoryRecord) (item : Json) : Bool :=
  hasText (item.get (lit "fact")) && hasText (firstTruthy (traceAt memories item) (some (.str (lit "N/A"))))

/-- **Each item that the loop comes to names a line.** -/
def NameLines (memories : List MemoryRecord) : List Json → Prop
  | [] => True
  | item :: items => isRead item = true →
      NamesLine memories item ∧ (isTold memories item = true → NameLines memories items)

/-- What is asked of the prompt, the memories and the reply of a call. -/
def Cited (systemPrompt : Except JsError Text) (retrieved : Except JsError (List MemoryRecord))
    (replied : Except JsError (Option Json)) : Prop :=
  ∀ text memories facts items, systemPrompt = .ok text → retrieved = .ok memories → memories ≠ [] →
    replied = .ok facts → iterate facts = .ok items → NameLines memories items

/-! ## The lines of the transcript -/

section Lines

variable {sessionId : Text} {memories : List MemoryRecord} {context : AgentContext} {item : Json}

/-- **The marks of lines** are told apart. -/
theorem isNumbering_lineMark : IsNumbering 10 lineMark where
  line i hmem := by
    rw [lineMark, List.mem_append, List.mem_append] at hmem
    rcases hmem with hmem | hmem | hmem
    · exact absurd hmem (by decide)
    · exact absurd (isDigit_of_mem_showNat hmem) (by decide)
    · exact absurd hmem (by decide)
  distinct i j text hprefix := by
    obtain ⟨rest, hrest⟩ := hprefix
    simp only [lineMark, List.append_assoc, List.append_cancel_left_eq] at hrest
    have hend : ∀ rest : Text, ∀ c, (lit "] " ++ rest).head? = some c → isDigit 10 c = false := by
      rintro rest c ⟨⟩
      rfl
    have hdigits := congrArg (List.takeWhile (isDigit 10)) hrest
    rw [takeWhile_showNat_append i (hend rest), takeWhile_showNat_append j (hend text)] at hdigits
    exact showNat_injective hdigits

theorem transcriptOf_eq (memories : List MemoryRecord) :
    transcriptOf memories = document 10 lineMark (memories.map MemoryRecord.content) := by
  rw [transcriptOf, document, marked, List.mapIdx_eq_zipIdx_map, List.mapIdx_eq_zipIdx_map, List.zipIdx_map,
    List.map_map]
  rfl

/-- **The line of a memory** is the only one with its number exactly when no content has a further one. -/
theorem line_iff {i : ℕ} {m : MemoryRecord} (hm : memories[i]? = some m) :
    linesAt 10 (lineMark i) (transcriptOf memories) = [ownLine 10 (lineMark i) m.content] ↔
      ∀ other ∈ memories, ∀ line ∈ (other.content.splitOn 10).tail, ¬ lineMark i <+: line := by
  rw [transcriptOf_eq, linesAt_document_iff isNumbering_lineMark (by rw [List.getElem?_map, hm]; rfl),
    List.forall_mem_map]

/-! ## An item of the reply -/

theorem indexOf_natCast (i : ℕ) : indexOf (i : ℚ) = some i := by
  rw [indexOf, if_pos ⟨Rat.den_natCast i, by rw [Rat.num_natCast]; exact Int.natCast_nonneg i⟩, Rat.num_natCast]
  rfl

/-- A reference that leads somewhere, or nowhere, has a text. -/
theorem hasText_iff {reference : Option Json} :
    hasText reference = true ↔ ∃ source, sourceMemory memories reference = .ok source := by
  constructor
  · intro h
    obtain ⟨key, hkey⟩ := exists_of_hasText h
    unfold sourceMemory
    split
    · exact ⟨_, rfl⟩
    · rw [hkey]
      exact ⟨_, rfl⟩
  · rintro ⟨source, h⟩
    unfold sourceMemory at h
    split at h
    · rfl
    · rw [hasText]
      cases htext : textOf reference with
      | ok key => rfl
      | error e =>
        rw [htext] at h
        cases h

/-- What is made of an item. -/
theorem factOf_eq_ok_iff {fact : SemanticFact} : factOf sessionId memories item = .ok fact ↔
    isRead item = true ∧ ∃ source, sourceMemory memories (item.get (lit "lineReference")) = .ok source ∧
      fact = factFrom sessionId item source := by
  rw [isRead, Bool.and_eq_true, Bool.not_eq_true', @hasText_iff memories, factOf]
  cases item.isNull with
  | true => simp
  | false => cases sourceMemory memories (item.get (lit "lineReference")) <;> simp [Except.map, eq_comm]

/-- A fact is told if what is logged about it has a text. -/
theorem learned_eq_ok_iff {fact : SemanticFact} : (∃ text, learned fact = .ok text) ↔
    hasText fact.fact = true ∧ hasText fact.sourceAnchor.transcriptOffset = true ∧
      hasText (firstTruthy fact.sourceAnchor.traceId (some (.str (lit "N/A")))) = true := by
  rw [learned, hasText, hasText, hasText]
  cases textOf fact.fact with
  | error e => simp [bind, Except.bind, Except.isOk, Except.toBool]
  | ok text =>
    cases textOf fact.sourceAnchor.transcriptOffset with
    | error e => simp [bind, Except.bind, Except.isOk, Except.toBool]
    | ok line =>
      cases textOf (firstTruthy fact.sourceAnchor.traceId (some (.str (lit "N/A")))) with
      | error e => simp [bind, Except.bind, Except.isOk, Except.toBool]
      | ok trace => simp [bind, Except.bind, pure, Except.pure, Except.isOk, Except.toBool]

/-- **An item that names a line** is stored with a citation of it, and it is told if its texts can be. -/
theorem NamesLine.stored {fact : SemanticFact} (h : NamesLine memories item)
    (hfact : factOf sessionId memories item = .ok fact) :
    (∃ i m, Cites memories (transcriptOf memories) item fact.fact fact.sourceAnchor i m) ∧
      (isTold memories item = true ↔ ∃ text, learned fact = .ok text) := by
  obtain ⟨i, m, hm, hreference, hlines⟩ := h
  obtain ⟨hread, source, hsource, rfl⟩ := factOf_eq_ok_iff.mp hfact
  obtain rfl : source = some m := by
    rw [hreference, sourceMemory, indexOf_natCast, Option.bind_some, hm] at hsource
    exact (Except.ok.inj hsource).symm
  refine ⟨⟨i, m, hm, hreference, rfl, hreference, rfl, (line_iff hm).mpr hlines⟩, ?_⟩
  have htrace : traceAt memories item = m.traceId := by
    rw [traceAt, hreference]
    dsimp only
    rw [indexOf_natCast, Option.bind_some, hm, Option.bind_some]
  rw [isRead, Bool.and_eq_true] at hread
  rw [learned_eq_ok_iff, isTold, Bool.and_eq_true, htrace]
  exact and_congr_right fun _ => (and_iff_right hread.2).symm

/-- An item that is stored with a citation names a line. -/
theorem namesLine_of_cites {other : Json} {content : Option Json} {source : Option MemoryRecord} {i : ℕ}
    {m : MemoryRecord}
    (h : Cites memories (transcriptOf memories) other content (factFrom sessionId item source).sourceAnchor i m) :
    NamesLine memories item :=
  ⟨i, m, h.memory, h.offset, (line_iff h.memory).mp h.line⟩

end Lines

/-! ## The loop -/

section Loop

variable {sessionId : Text} {memories : List MemoryRecord} {context : AgentContext} {all items : List Json}
  {retrieved : Except JsError (List MemoryRecord)} {replied : Except JsError (Option Json)}

/-- A step that stores a fact stores one that cites a line. -/
def StoresCited (memories : List MemoryRecord) (all : List Json) (e : SummaryEffect) : Prop :=
  ∀ content type context anchor, e = .store content type context anchor →
    ∃ item ∈ all, ∃ i m, Cites memories (transcriptOf memories) item content anchor i m

/-- **The loop** over items that name lines stores facts that cite them. -/
theorem upholds_storeFacts (hall : ∀ item ∈ items, item ∈ all) (h : NameLines memories items) {s : Unit} :
    (storeFacts sessionId memories context items).Upholds (summaryEnv retrieved replied)
      (fun _ e => StoresCited memories all e) (fun _ _ => True) s := by
  induction items with
  | nil => trivial
  | cons item items ih =>
    rw [storeFacts]
    cases hfact : factOf sessionId memories item with
    | error e => trivial
    | ok fact =>
      obtain ⟨hnames, hrest⟩ := h (factOf_eq_ok_iff.mp hfact).1
      obtain ⟨⟨i, m, hcites⟩, htold⟩ := hnames.stored hfact
      refine ⟨?_, fun reply s' _ => ?_⟩
      · rintro content type context' anchor ⟨⟩
        exact ⟨item, hall item List.mem_cons_self, i, m, hcites⟩
      · cases reply with
        | error e => trivial
        | ok _ =>
          cases hlearned : learned fact with
          | error e => trivial
          | ok text =>
            exact ih (fun other hmem => hall other (List.mem_cons_of_mem _ hmem)) (hrest (htold.mpr ⟨text, hlearned⟩))

theorem upholds_caught (h : NameLines memories items) {s : Unit} :
    ((storeFacts sessionId memories context items).catchWith fun _ => pure ()).Upholds
      (summaryEnv retrieved replied) (fun _ e => StoresCited memories items e) (fun _ _ => True) s :=
  Upholds.catchWith ((upholds_storeFacts (fun _ hmem => hmem) h).imp fun r _ _ => by cases r <;> trivial)

/-- The answers with which all facts are stored. -/
def answerAll (retrieved : Except JsError (List MemoryRecord)) (replied : Except JsError (Option Json)) :
    (e : SummaryEffect) → Unit → Except JsError e.Reply × Unit
  | .retrieve _ _ _ _, _ => (retrieved, ())
  | .generateStructured _, _ => (replied, ())
  | .store _ _ _ _, _ => (.ok (), ())

theorem summaryEnv_answerAll (e : SummaryEffect) (s : Unit) : summaryEnv retrieved replied s e
    (answerAll retrieved replied e s).1 (answerAll retrieved replied e s).2 := by
  cases e <;> trivial

/-- The effect stores. -/
def Stores (e : SummaryEffect) : Prop := ∃ content type context anchor, e = .store content type context anchor

/-- The loop does nothing but store. -/
theorem only_caught : ((storeFacts sessionId memories context items).catchWith fun _ => pure ()).Only
    fun event => Stores event.effect := by
  refine Only.catchWith ?_ fun _ => only_pure
  induction items with
  | nil => exact only_pure
  | cons item items ih =>
    refine Only.bind only_done fun fact => Only.bind (only_perform fun _ => ⟨_, _, _, _, rfl⟩) fun _ => ?_
    exact Only.bind only_done fun _ => ih

/-- **The loop in which every fact is stored**: if all that it stores cites lines, the items name them. -/
theorem nameLines_of_record
    (h : ∀ content anchor, ⟨.store content .semantic context anchor, .ok ()⟩ ∈
      (record (answerAll retrieved replied) ()
        ((storeFacts sessionId memories context items).catchWith fun _ => pure ())).1 →
      ∃ item i m, Cites memories (transcriptOf memories) item content anchor i m) :
    NameLines memories items := by
  induction items with
  | nil => trivial
  | cons item items ih =>
    intro hread
    rw [isRead, Bool.and_eq_true] at hread
    obtain ⟨source, hsource⟩ := (@hasText_iff memories _).mp hread.2
    have hfact : factOf sessionId memories item = .ok (factFrom sessionId item source) :=
      factOf_eq_ok_iff.mpr ⟨by rw [isRead, Bool.and_eq_true]; exact hread, source, hsource, rfl⟩
    have hloop : storeFacts sessionId memories context (item :: items) =
        Proc.await (.store (factFrom sessionId item source).fact .semantic context
          (factFrom sessionId item source).sourceAnchor) fun reply => (Proc.done reply : SummaryProc Unit) >>= fun _ =>
            (Proc.done (learned (factFrom sessionId item source)) : SummaryProc Text) >>= fun _ =>
              storeFacts sessionId memories context items := by
      rw [storeFacts, hfact]
      rfl
    rw [hloop] at h
    obtain ⟨other, i, m, hcites⟩ := h _ _ List.mem_cons_self
    have hnames := namesLine_of_cites hcites
    refine ⟨hnames, fun htold => ih fun content anchor hmem => h content anchor (List.mem_cons_of_mem _ ?_)⟩
    obtain ⟨text, hlearned⟩ := (hnames.stored hfact).2.mp htold
    simp only [answerAll, hlearned, done_ok_bind]
    exact hmem

/-- The run of the loop in which every fact is stored. -/
theorem exists_storeAll : ∃ log r, Logs (summaryEnv retrieved replied) ()
    ((storeFacts sessionId memories context items).catchWith fun _ => pure ()) log r () ∧
      (∀ event ∈ log, Stores event.effect) ∧
      ((∀ content anchor, ⟨.store content .semantic context anchor, .ok ()⟩ ∈ log →
        ∃ item i m, Cites memories (transcriptOf memories) item content anchor i m) → NameLines memories items) := by
  have hloop : Logs (summaryEnv retrieved replied) ()
      ((storeFacts sessionId memories context items).catchWith fun _ => pure ()) _ _ _ :=
    logs_record (summaryEnv_answerAll) () _
  obtain ⟨_, heq, honly⟩ := hloop.ended (only_caught.ends_steps [])
  rw [List.nil_append] at heq
  subst heq
  exact ⟨_, _, hloop, honly, nameLines_of_record⟩

end Loop

/-! ## A call -/

section Call

variable {systemPrompt : Except JsError Text} {sessionId userId : Text}
  {retrieved : Except JsError (List MemoryRecord)} {replied : Except JsError (Option Json)}

/-- **A call that stores a fact** has come to the loop. -/
theorem exists_loop {log : List SummaryEvent} {r : Except JsError Unit} {content : Option Json}
    {context : AgentContext} {anchor : SourceAnchor} {reply : Except JsError Unit}
    (hlogs : Logs (summaryEnv retrieved replied) () (summarizeSession systemPrompt sessionId userId) log r ())
    (hmem : ⟨.store content .semantic context anchor, reply⟩ ∈ log) :
    ∃ text memories facts items rest, systemPrompt = .ok text ∧ retrieved = .ok memories ∧ memories ≠ [] ∧
      replied = .ok facts ∧ iterate facts = .ok items ∧
      log = ⟨.retrieve (lit "*") ⟨userId, some sessionId, none⟩ .episodic 50, .ok memories⟩ ::
        ⟨.generateStructured ⟨text, transcriptOf memories, factsSchema⟩, .ok facts⟩ :: rest ∧
      ⟨.store content .semantic context anchor, reply⟩ ∈ rest ∧
      Logs (summaryEnv retrieved replied) ()
        ((storeFacts sessionId memories ⟨userId, some sessionId, none⟩ items).catchWith fun _ => pure ()) rest r () := by
  obtain ⟨reply₁, _, log₁, rfl, hreply, hrest⟩ := logs_await_iff.mp hlogs
  obtain rfl : reply₁ = retrieved := hreply
  have hmem₁ := (List.mem_cons.mp hmem).resolve_left (by rintro ⟨⟩)
  cases reply₁ with
  | error e =>
    obtain ⟨rfl, -⟩ := logs_done_iff.mp hrest
    cases hmem₁
  | ok memories =>
    cases memories with
    | nil =>
      obtain ⟨rfl, -⟩ := logs_done_iff.mp hrest
      cases hmem₁
    | cons m ms =>
      cases systemPrompt with
      | error e =>
        obtain ⟨rfl, -⟩ := logs_done_iff.mp hrest
        cases hmem₁
      | ok text =>
        obtain ⟨reply₂, _, log₂, rfl, hreply, hrest⟩ := logs_await_iff.mp hrest
        obtain rfl : reply₂ = replied := hreply
        have hmem₂ := (List.mem_cons.mp hmem₁).resolve_left (by rintro ⟨⟩)
        cases reply₂ with
        | error e =>
          obtain ⟨rfl, -⟩ := logs_done_iff.mp hrest
          cases hmem₂
        | ok facts =>
          change Logs _ _ (((Proc.done (iterate facts) : SummaryProc (List Json)) >>= _).catchWith _) _ _ _ at hrest
          cases hitems : iterate facts with
          | error e =>
            rw [hitems] at hrest
            obtain ⟨rfl, -⟩ := logs_done_iff.mp hrest
            cases hmem₂
          | ok items =>
            rw [hitems] at hrest
            exact ⟨text, m :: ms, facts, items, log₂, rfl, rfl, List.cons_ne_nil _ _, rfl, hitems, rfl, hmem₂, hrest⟩

/-- **What a call stores cites lines** if the items of the reply name them. -/
theorem provenance_of_cited (h : Cited systemPrompt retrieved replied) {log : List SummaryEvent}
    {r : Except JsError Unit}
    (hlogs : Logs (summaryEnv retrieved replied) () (summarizeSession systemPrompt sessionId userId) log r ()) :
    Provenance log := by
  intro content context anchor hmem
  obtain ⟨text, memories, facts, items, rest, htext, hretrieved, hne, hreplied, hitems, rfl, hrest, hloop⟩ :=
    exists_loop hlogs hmem
  have hnames := h text memories facts items htext hretrieved hne hreplied hitems
  obtain ⟨_, hstep⟩ := (hloop.upheld (upholds_caught hnames)).2.exists_step hrest
  obtain ⟨item, hitem, i, m, hcites⟩ := hstep content .semantic context anchor rfl
  exact ⟨memories, transcriptOf memories, items, item, i, m, ⟨_, _, _, _, List.mem_cons_self⟩,
    ⟨_, _, facts, List.mem_cons_of_mem _ List.mem_cons_self, hitems⟩, hitem, hcites⟩

/-- The items of the reply name lines if whatever a call stores cites them: so does the call in which every fact
is stored. -/
theorem cited_of_provenance
    (h : ∀ log r, Logs (summaryEnv retrieved replied) () (summarizeSession systemPrompt sessionId userId) log r () →
      Provenance log) : Cited systemPrompt retrieved replied := by
  rintro text memories facts items rfl rfl hne rfl hitems
  obtain ⟨m, ms, rfl⟩ := List.exists_cons_of_ne_nil hne
  obtain ⟨rest, r, hloop, honly, hnames⟩ := @exists_storeAll sessionId (m :: ms) ⟨userId, some sessionId, none⟩ items
    (.ok (m :: ms)) (.ok facts)
  have hlogs : Logs (summaryEnv (.ok (m :: ms)) (.ok facts)) () (summarizeSession (.ok text) sessionId userId)
      (⟨.retrieve (lit "*") ⟨userId, some sessionId, none⟩ .episodic 50, .ok (m :: ms)⟩ ::
        ⟨.generateStructured ⟨text, transcriptOf (m :: ms), factsSchema⟩, .ok facts⟩ :: rest) r () := by
    refine logs_await_iff.mpr ⟨_, (), _, rfl, rfl, logs_await_iff.mpr ⟨_, (), _, rfl, rfl, ?_⟩⟩
    change Logs _ _ (((Proc.done (iterate facts) : SummaryProc (List Json)) >>= _).catchWith _) _ _ _
    rw [hitems]
    exact hloop
  refine hnames fun content anchor hmem => ?_
  obtain ⟨memories, transcript, items', item, i, m', ⟨query, context, type, limit, hretrieved⟩,
    ⟨prompt, schema, facts', hreplied, -⟩, -, hcites⟩ := h _ _ hlogs content _ anchor
      (List.mem_cons_of_mem _ (List.mem_cons_of_mem _ hmem))
  -- The loop neither retrieves nor asks the model.
  have hmemories : memories = m :: ms := by
    rcases List.mem_cons.mp hretrieved with heq | hlater
    · exact Except.ok.inj (eq_of_heq (Event.mk.inj heq).2)
    · rcases List.mem_cons.mp hlater with heq | hlater
      · cases (Event.mk.inj heq).1
      · obtain ⟨_, _, _, _, heq⟩ := honly _ hlater
        cases heq
  have htranscript : transcript = transcriptOf (m :: ms) := by
    rcases List.mem_cons.mp hreplied with heq | hlater
    · cases (Event.mk.inj heq).1
    · rcases List.mem_cons.mp hlater with heq | hlater
      · exact congrArg StructuredInput.userMessage (SummaryEffect.generateStructured.inj (Event.mk.inj heq).1)
      · obtain ⟨_, _, _, _, heq⟩ := honly _ hlater
        cases heq
  subst hmemories htranscript
  exact ⟨item, i, m', hcites⟩

/-- **Provenance**: every fact that a call stores cites a line of the transcript exactly when each item of the reply
that the loop comes to names one. -/
theorem provenance_iff (systemPrompt : Except JsError Text) (sessionId userId : Text)
    (retrieved : Except JsError (List MemoryRecord)) (replied : Except JsError (Option Json)) :
    (∀ log r, Logs (summaryEnv retrieved replied) () (summarizeSession systemPrompt sessionId userId) log r () →
      Provenance log) ↔ Cited systemPrompt retrieved replied :=
  ⟨cited_of_provenance, fun h _ _ => provenance_of_cited h⟩

/-! ### A line that is not there -/

/-- The memory of a session. -/
def owlMemory : MemoryRecord :=
  ⟨lit "m1", .episodic, lit "We met an owl.", 1, 0, some [(lit "traceId", .str (lit "t1"))]⟩

/-- A fact of the reply, with its reference. -/
def owlFact (lineReference : ℚ) : Json :=
  .obj [(lit "fact", .str (lit "Likes owls")), (lit "confidence", .num (.finite 1)),
    (lit "lineReference", .num (.finite lineReference))]

/-- The log of a call whose reply refers to a line. -/
def owlLog (lineReference : ℚ) (traceId : Option Json) : List SummaryEvent := [
  ⟨.retrieve (lit "*") ⟨lit "u1", some (lit "s1"), none⟩ .episodic 50, .ok [owlMemory]⟩,
  ⟨.generateStructured ⟨lit "Summarize.", transcriptOf [owlMemory], factsSchema⟩,
    .ok (some (.arr [owlFact lineReference]))⟩,
  ⟨.store (some (.str (lit "Likes owls"))) .semantic ⟨lit "u1", some (lit "s1"), none⟩
    ⟨lit "s1", some (.num (.finite lineReference)), traceId⟩, .ok ()⟩]

/-- **A fact is stored that cites no line**: the transcript has one line, and the fact refers to another. -/
theorem missing_line_is_cited : Logs (summaryEnv (.ok [owlMemory]) (.ok (some (.arr [owlFact 7])))) ()
    (summarizeSession (.ok (lit "Summarize.")) (lit "s1") (lit "u1")) (owlLog 7 none) (.ok ()) () ∧
    ¬ Provenance (owlLog 7 none) := by
  have hfact : factOf (lit "s1") [owlMemory] (owlFact 7) = .ok (factFrom (lit "s1") (owlFact 7) none) :=
    factOf_eq_ok_iff.mpr ⟨rfl, none, congrArg Except.ok (by rw [show (7 : ℚ) = (7 : ℕ) from rfl, indexOf_natCast]; rfl), rfl⟩
  obtain ⟨text, hlearned⟩ : ∃ text, learned (factFrom (lit "s1") (owlFact 7) none) = .ok text :=
    learned_eq_ok_iff.mpr ⟨rfl, rfl, rfl⟩
  refine ⟨logs_await_iff.mpr ⟨_, (), _, rfl, rfl, logs_await_iff.mpr ⟨_, (), _, rfl, rfl, ?_⟩⟩, fun h => ?_⟩
  · show Logs _ _ ((storeFacts (lit "s1") [owlMemory] ⟨lit "u1", some (lit "s1"), none⟩ [owlFact 7]).catchWith
      fun _ => pure ()) _ _ _
    rw [storeFacts, hfact]
    refine logs_await_iff.mpr ⟨_, (), _, rfl, trivial, ?_⟩
    show Logs _ _ (((Proc.done (learned (factFrom (lit "s1") (owlFact 7) none)) : SummaryProc Text) >>= fun _ =>
      storeFacts (lit "s1") [owlMemory] ⟨lit "u1", some (lit "s1"), none⟩ []).catchWith fun _ => pure ()) _ _ _
    rw [hlearned]
    exact .done
  · obtain ⟨memories, _, _, _, i, m, ⟨query, context, type, limit, hretrieved⟩, -, -, hcites⟩ :=
      h _ _ _ (List.mem_cons_of_mem _ (List.mem_cons_of_mem _ List.mem_cons_self))
    have hi : (i : ℚ) = 7 := (JsNumber.finite.inj (Json.num.inj (Option.some.inj hcites.offset))).symm
    obtain rfl : i = 7 := by exact_mod_cast hi
    have hmemories : memories = [owlMemory] := by
      rcases List.mem_cons.mp hretrieved with heq | hlater
      · exact Except.ok.inj (eq_of_heq (Event.mk.inj heq).2)
      · simp at hlater
    rw [hmemories] at hcites
    cases hcites.memory

end Call

end MemorySummarizationService

end DreamWeaver.Memory
