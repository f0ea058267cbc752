import DreamWeaver.Memory.AgentMemoryPort
import DreamWeaver.Moderation.BlockedContent
import DreamWeaver.Moments.VerificationPipeline

/-! # Golden moments of a session

`AnalyzeSessionForMomentsUseCase.execute` (`api/src/application/use-cases/AnalyzeSessionForMomentsUseCase.ts`)
lets a model look for a golden moment in what is remembered of a session, or in the user's latest story
where nothing is, and saves the moment once the verification pipeline has approved it. Both replies of the
model are untrusted. `execute_gate` says what a run can have done when it ends, whatever they are. -/

namespace DreamWeaver.Moments

open Memory (AgentContext MemoryRecord MemoryType)
open Moderation Proc Stories

/-! ## The use case -/

/-- `MomentProps` -/
structure Moment where
  id : Text
  userId : Text
  storyId : Text
  mediaUrl : Text
  description : Text
  createdAt : ℕ
  deriving DecidableEq, Repr

/-- What the use case awaits: the story repository, the memory, the model and the review queue, and the moment
repository. -/
inductive MomentEffect where
  | story (effect : StorageEffect)
  | retrieve (query : Text) (context : AgentContext) (type : MemoryType) (limit : ℕ)
  | review (effect : ReviewEffect)
  | save (moment : Moment)

/-- What an effect is answered with. -/
abbrev MomentEffect.Reply : MomentEffect → Type
  | .story effect => effect.Reply
  | .retrieve _ _ _ _ => List MemoryRecord
  | .review effect => effect.Reply
  | .save _ => Unit

/-- A procedure of the use case. -/
abbrev MomentProc := Proc MomentEffect MomentEffect.Reply

/-- An event of the use case. -/
abbrev MomentEvent := Event MomentEffect MomentEffect.Reply

namespace AnalyzeSessionForMomentsUseCase

/-- The services of a call, the new identifier and the time, and its two arguments. -/
structure Session where
  clients : Supabase
  prompts : PromptServicePort
  newId : Text
  now : ℕ
  sessionId : Text
  userId : Text

variable (session : Session)

/-- `(await this.storyRepository.findRecent(userId, 1))[0]` -/
def recentStory : MomentProc (Option StoryProps) := do
  let recentStories ←
    (SupabaseStoryRepository.findRecent session.clients session.userId (.finite 1)).embed (S := MomentEffect.Reply)
      MomentEffect.story
  pure recentStories.head?

/-- The shape of the analyst's reply. -/
def analysis : JudgementShape := ⟨lit "found", lit "description"⟩

/-- `0.6` -/
def detectionThreshold : ℚ := double (3 / 5)

/-- `parsed.found && parsed.description.trim().length > 0 && parsed.confidence >= 0.6` -/
def detected (parsed : Judgement) : Bool :=
  parsed.flag && !(trim parsed.text).isEmpty && detectionThreshold ≤ parsed.confidence

/-- `Moment.create` on what was found and the story that it belongs to. -/
def createMoment (story : StoryProps) (audioUrl : Text) (parsed : Judgement) : Moment where
  id := session.newId
  userId := session.userId
  storyId := story.id
  mediaUrl := audioUrl
  description := parsed.text
  createdAt := session.now

/-- The moment as it is verified. -/
def momentItem (moment : Moment) : VerifiableContent where
  type := .goldenMoment
  content := .obj [(lit "description", .str moment.description)]
  metadata := some (.obj [(lit "userId", .str session.userId), (lit "sessionId", .str session.sessionId),
    (lit "resourceId", .str moment.id)])

/-- What follows once a moment is there: it is saved if it is approved. -/
def saveApproved (moment : Moment) : MomentProc Unit := do
  let verification ←
    (VerificationPipeline.verify session.prompts (momentItem session moment)).embed (S := MomentEffect.Reply)
      MomentEffect.review
  if !verification.approved then pure ()
  else perform (MomentEffect.save moment)

/-- What follows once a moment is detected: it is anchored in the audio of the latest story. -/
def anchorMoment (parsed : Judgement) : MomentProc Unit := do
  let story ← recentStory session
  match story with
  | none => pure ()
  | some story =>
    match story.audioUrl.filter fun url => !url.isEmpty with
    | none => pure ()
    | some audioUrl => saveApproved session (createMoment session story audioUrl parsed)

/-- `analyzeTranscript` -/
def analyzeTranscript (transcript : Text) : MomentProc Unit := do
  let systemPrompt ← (Proc.done session.prompts.getMemoryCuratorSystemPrompt : MomentProc Text)
  let reply ← (perform (MomentEffect.review (.generateStructured ⟨systemPrompt, transcript, analysis.schema⟩)) :
    MomentProc (Option Json))
  let parsed ← (Proc.done (analysis.parse reply) : MomentProc Judgement)
  if !detected parsed then pure ()
  else anchorMoment session parsed

/-- The transcript of a session without memories: its story. -/
def storyTranscript (story : StoryProps) : Text :=
  lit "Story Title: " ++ story.title ++ lit "\n\n" ++ joinWith (lit "\n") story.content.paragraphs

/-- `this.memory.retrieve('session_end', { userId, sessionId }, 'EPISODIC', 20)` -/
def sessionContext : MomentEffect :=
  .retrieve (lit "session_end") ⟨session.userId, some session.sessionId, none⟩ .episodic 20

/-- The transcript of a session with memories. -/
def memoryTranscript (memories : List MemoryRecord) : Text := joinWith (lit "\n") (memories.map MemoryRecord.content)

/-- The body of `execute`. -/
def analyze : MomentProc Unit := do
  let memories ← (perform (sessionContext session) : MomentProc (List MemoryRecord))
  match memories with
  | [] => do
    let story ← recentStory session
    match story with
    | none => pure ()
    | some story => analyzeTranscript session (storyTranscript story)
  | memories => analyzeTranscript session (memoryTranscript memories)

/-- `execute` -/
def execute : MomentProc Unit := catchWith (analyze session) fun _ => pure ()

/-! ## The world -/

/-- The answers, and the tables afterwards: saving upserts the row of the moment, which is new or keeps its
status. The model, the memories and the review queue answer anything. -/
def momentEnv : Env Database MomentEffect MomentEffect.Reply := fun db effect =>
  match effect with
  | .story effect => fun reply db' => storageEnv db effect reply db'
  | .retrieve _ _ _ _ => fun _ db' => db' = db
  | .review _ => fun _ db' => db' = db
  | .save moment => fun reply db' =>
    match reply with
    | .ok _ => db' = db.withMoment moment.id
        ⟨moment.userId, (db.moments moment.id).elim .active MomentRow.status⟩
    | .error _ => db' = db

/-! ## What a log has -/

/-- The moments that are saved in a log. -/
def saves (log : List MomentEvent) : List Moment :=
  log.filterMap fun event => match event.effect with
    | .save moment => some moment
    | _ => none

/-- What is submitted for human review in a log. -/
def submissions (log : List MomentEvent) : List EnqueueHumanReviewInput :=
  log.filterMap fun event => match event.effect with
    | .review (.enqueue input) => some input
    | _ => none

/-- A reply of the model that passed a schema. -/
def Judged (shape : JudgementShape) (log : List MomentEvent) (judgement : Judgement) : Prop :=
  ∃ systemPrompt userMessage json,
    ⟨.review (.generateStructured ⟨systemPrompt, userMessage, shape.schema⟩), .ok json⟩ ∈ log ∧
      shape.parse json = .ok judgement

/-- The story is the user's latest one. -/
def Latest (session : Session) (db : Database) (story : StoryProps) : Prop :=
  ∃ row, db.stories story.id = some row ∧ row.userId = session.userId ∧
    mapRowToStory session.clients.isUrl story.id row = .ok story ∧
    ∀ id other, db.stories id = some other → other.userId = session.userId → other.createdAt ≤ row.createdAt

/-- **What entitles a moment to be saved**: the analysis reported it with confidence and a description, the
validator approved it with confidence, and it is attached to the user's latest story with its audio. -/
structure Entitled (session : Session) (db : Database) (log : List MomentEvent) (moment : Moment) : Prop where
  reported : ∃ found, Judged analysis log found ∧ found.flag = true ∧ detectionThreshold ≤ found.confidence ∧
    found.text = moment.description
  described : 10 ≤ moment.description.length ∧ solid moment.description ≠ []
  approved : ∃ approval, Judged validation log approval ∧ approval.flag = true ∧
    VerificationPipeline.approvalThreshold ≤ approval.confidence
  attached : ∃ story, Latest session db story ∧ moment.storyId = story.id ∧
    story.audioUrl = some moment.mediaUrl ∧ moment.mediaUrl ≠ []
  owned : moment.userId = session.userId

/-- **What a run can have done**: it resolves; it saves one moment at most, as its last step and entitled to
it by the steps before; an approval without enough confidence is submitted for human review, once, and
nothing is saved; and where nothing is saved no table changes. -/
structure Gate (session : Session) (db : Database) (log : List MomentEvent) (db' : Database) : Prop where
  once : (saves log).length ≤ 1
  entitled : ∀ moment ∈ saves log, ∃ before reply, log = before ++ [⟨.save moment, reply⟩] ∧
    Entitled session db before moment
  flagged : ∀ approval, Judged validation log approval → approval.flag = true →
    approval.confidence < VerificationPipeline.approvalThreshold →
    (submissions log).length = 1 ∧ saves log = []
  unchanged : saves log = [] → db' = db

/-! ## Quiet logs -/

variable {session : Session} {db : Database} {past log log' : List MomentEvent} {shape : JudgementShape}
  {judgement : Judgement}

theorem saves_append : saves (log ++ log') = saves log ++ saves log' := List.filterMap_append ..

theorem submissions_append : submissions (log ++ log') = submissions log ++ submissions log' :=
  List.filterMap_append ..

theorem judged_append : Judged shape (log ++ log') judgement ↔
    Judged shape log judgement ∨ Judged shape log' judgement := by
  simp only [Judged, List.mem_append]
  constructor
  · rintro ⟨systemPrompt, userMessage, json, hmem | hmem, hjson⟩
    · exact .inl ⟨systemPrompt, userMessage, json, hmem, hjson⟩
    · exact .inr ⟨systemPrompt, userMessage, json, hmem, hjson⟩
  · rintro (⟨systemPrompt, userMessage, json, hmem, hjson⟩ | ⟨systemPrompt, userMessage, json, hmem, hjson⟩)
    · exact ⟨systemPrompt, userMessage, json, .inl hmem, hjson⟩
    · exact ⟨systemPrompt, userMessage, json, .inr hmem, hjson⟩

/-- Nothing has been saved, submitted or approved. -/
structure Quiet (log : List MomentEvent) : Prop where
  saves : saves log = []
  submissions : submissions log = []
  approvals : ∀ approval, ¬ Judged validation log approval

theorem Quiet.append (h : Quiet log) (h' : Quiet log') : Quiet (log ++ log') where
  saves := by rw [saves_append, h.saves, h'.saves, List.append_nil]
  submissions := by rw [submissions_append, h.submissions, h'.submissions, List.append_nil]
  approvals approval hjudged := (judged_append.mp hjudged).elim (h.approvals approval) (h'.approvals approval)

theorem quiet_nil : Quiet [] := ⟨rfl, rfl, fun _ ⟨_, _, _, hmem, _⟩ => nomatch hmem⟩

/-- Reading stories is quiet. -/
theorem quiet_of_story {steps : List MomentEvent}
    (h : ∀ event ∈ steps, ∃ effect, event.effect = MomentEffect.story effect) : Quiet steps where
  saves := by
    rw [AnalyzeSessionForMomentsUseCase.saves, List.filterMap_eq_nil_iff]
    intro event hmem
    obtain ⟨effect, heffect⟩ := h event hmem
    rw [heffect]
  submissions := by
    rw [AnalyzeSessionForMomentsUseCase.submissions, List.filterMap_eq_nil_iff]
    intro event hmem
    obtain ⟨effect, heffect⟩ := h event hmem
    rw [heffect]
  approvals := by
    rintro approval ⟨_, _, _, hmem, -⟩
    obtain ⟨effect, heffect⟩ := h _ hmem
    cases heffect

theorem quiet_retrieve {query : Text} {context : AgentContext} {type : MemoryType} {limit : ℕ}
    {reply : Except JsError (List MemoryRecord)} : Quiet [⟨.retrieve query context type limit, reply⟩] := by
  refine ⟨rfl, rfl, ?_⟩
  rintro approval ⟨_, _, _, hmem, -⟩
  cases List.mem_singleton.mp hmem

theorem analysis_schema_ne : validation.schema ≠ analysis.schema := by
  intro h
  simp only [JudgementShape.schema, Json.obj.injEq, List.cons.injEq, Prod.mk.injEq] at h
  exact absurd h.2.1.2.1.1 (by decide)

/-- The analyst's reply approves nothing. -/
theorem quiet_analysis {systemPrompt userMessage : Text} {reply : Except JsError (Option Json)} :
    Quiet [⟨.review (.generateStructured ⟨systemPrompt, userMessage, analysis.schema⟩), reply⟩] := by
  refine ⟨rfl, rfl, ?_⟩
  rintro approval ⟨_, _, _, hmem, -⟩
  have hevent := congrArg Event.effect (List.mem_singleton.mp hmem)
  have hinput := ReviewEffect.generateStructured.inj (MomentEffect.review.inj hevent)
  exact analysis_schema_ne (congrArg StructuredInput.schema hinput)

/-- A run that has been quiet to its end. -/
theorem gate_of_quiet (h : Quiet log) : Gate session db log db where
  once := by
    rw [h.saves]
    exact Nat.zero_le 1
  entitled moment hmem := by
    rw [h.saves] at hmem
    cases hmem
  flagged approval hjudged := absurd hjudged (h.approvals approval)
  unchanged _ := rfl

/-! ## The steps of a run -/

/-- From the tables and a log, a procedure ends within the gate. -/
abbrev KeepsGate {α : Type} (session : Session) (db : Database) (past : List MomentEvent) (p : MomentProc α) :
    Prop :=
  p.Upholds (logged momentEnv) (fun _ _ => True) (fun _ t => Gate session db t.2 t.1) (db, past)

/-- The newest of the stories that a listing begins with. -/
theorem latest_of_listed {stories : List StoryProps} {story : StoryProps}
    (hlisted : Listed session.clients session.userId (some (.finite 1)) db stories)
    (hhead : stories.head? = some story) : Latest session db story := by
  obtain ⟨all, rows, hall, hstories, n, hn, rfl⟩ := hlisted
  obtain rfl : n = 1 := by
    have hone := JsNumber.finite.inj hn
    exact_mod_cast hone.symm
  cases all with
  | nil =>
    cases hstories
    cases hhead
  | cons first rest =>
    obtain ⟨id, row⟩ := first
    have hmapped : mapRowToStory session.clients.isUrl id row = .ok story := by
      rw [List.take_succ_cons, List.take_zero, SupabaseStoryRepository.storiesOf, List.mapM_cons,
        List.mapM_nil] at hstories
      obtain ⟨mapped, hmapped, hrest⟩ := exists_of_bind_ok hstories
      obtain rfl := Except.ok.inj hrest
      obtain rfl := Option.some.inj hhead
      exact hmapped
    obtain ⟨rfl, -, -⟩ := mapRowToStory_ok hmapped
    obtain ⟨hstored, howned⟩ := (hall.mem story.id row).mp List.mem_cons_self
    refine ⟨row, hstored, howned, hmapped, fun id other hother hother' => ?_⟩
    rcases List.mem_cons.mp ((hall.mem id other).mpr ⟨hother, hother'⟩) with heq | hmem
    · obtain ⟨-, rfl⟩ := Prod.mk.inj heq
      exact le_rfl
    · exact (List.pairwise_cons.mp hall.newest).1 _ hmem

/-- Looking up the latest story is quiet. -/
theorem upholds_recentStory :
    (recentStory session).Upholds (logged momentEnv) (fun _ _ => True)
      (fun r t => t.1 = db ∧ (∃ steps, t.2 = past ++ steps ∧ Quiet steps) ∧
        ∀ story, r = .ok (some story) → Latest session db story) (db, past) := by
  have hlisting : (SupabaseStoryRepository.findRecent session.clients session.userId (.finite 1)).Upholds
      (fun db effect reply db' => momentEnv db (.story effect) reply db') (fun _ _ => True)
      (fun r db' => db' = db ∧ ∀ stories, r = .ok stories →
        Listed session.clients session.userId (some (.finite 1)) db stories) db :=
    @Upholds.view _ _ _ _ (storageWith Always) (fun _ _ => True) _ _ Database id _ db
      (fun _ _ _ _ hreply => ⟨hreply, trivial⟩) endsIn_listing
  refine Upholds.bind ((Upholds.logged_embed hlisting).imp fun r t hend => ?_)
  obtain ⟨⟨hdb, hlisted⟩, steps, hlog, hsteps⟩ := hend
  have hlater : ∃ steps, t.2 = past ++ steps ∧ Quiet steps := ⟨steps, hlog, quiet_of_story hsteps⟩
  cases r with
  | error e => exact ⟨hdb, hlater, fun _ h => nomatch h⟩
  | ok stories =>
    exact ⟨hdb, hlater, fun story hstory => latest_of_listed (hlisted stories rfl) (Except.ok.inj hstory)⟩

variable {moment : Moment}

/-- The event of the validator's reply, among those of the use case. -/
def validated (session : Session) (moment : Moment) (systemPrompt : Text)
    (reply : Except JsError (Option Json)) : MomentEvent :=
  (VerificationPipeline.validatorEvent systemPrompt (momentItem session moment) reply).embed MomentEffect.review

/-- What the validator's reply approves. -/
theorem judged_validated {systemPrompt : Text} {reply : Except JsError (Option Json)} :
    Judged validation [validated session moment systemPrompt reply] judgement ↔
      ∃ json, reply = .ok json ∧ validation.parse json = .ok judgement := by
  constructor
  · rintro ⟨_, _, json, hmem, hjson⟩
    cases List.mem_singleton.mp hmem
    exact ⟨json, rfl, hjson⟩
  · rintro ⟨json, rfl, hjson⟩
    exact ⟨_, _, json, List.mem_singleton_self _, hjson⟩

/-- A validator that has not approved with confidence leaves a run within the gate that saves nothing, if what
it has approved without confidence is submitted. -/
theorem gate_of_unapproved {steps : List MomentEvent} (hquiet : Quiet past) (hsaves : saves steps = [])
    (hflagged : ∀ approval, Judged validation steps approval → approval.flag = true →
      (submissions steps).length = 1) : Gate session db (past ++ steps) db := by
  have hnone : saves (past ++ steps) = [] := by rw [saves_append, hquiet.saves, hsaves, List.append_nil]
  refine ⟨?_, ?_, ?_, fun _ => rfl⟩
  · rw [hnone]
    exact Nat.zero_le 1
  · rw [hnone]
    exact fun _ hmem => nomatch hmem
  · intro approval hjudged hflag _
    have hlater := (judged_append.mp hjudged).resolve_left (hquiet.approvals approval)
    rw [submissions_append, hquiet.submissions, List.nil_append]
    exact ⟨hflagged approval hlater hflag, hnone⟩

/-- A validator that has approved with confidence lets the moment be saved. -/
theorem gate_of_saved {steps : List MomentEvent} {reply : Except JsError Unit} {db' : Database}
    (hquiet : Quiet past) (hsaves : saves steps = [])
    (hhigh : ∀ approval, Judged validation steps approval →
      VerificationPipeline.approvalThreshold ≤ approval.confidence)
    (hentitled : Entitled session db (past ++ steps) moment) :
    Gate session db (past ++ steps ++ [⟨.save moment, reply⟩]) db' := by
  have hone : saves (past ++ steps ++ [⟨.save moment, reply⟩]) = [moment] := by
    rw [saves_append, saves_append, hquiet.saves, hsaves]
    rfl
  refine ⟨?_, ?_, ?_, ?_⟩
  · rw [hone]
    exact le_rfl
  · rw [hone]
    intro other hmem
    obtain rfl := List.mem_singleton.mp hmem
    exact ⟨past ++ steps, reply, rfl, hentitled⟩
  · -- the only approval of the run is the validator's, and it was confident
    intro approval hjudged _ hlow
    rcases judged_append.mp hjudged with hbefore | ⟨_, _, _, hmem, -⟩
    · have hlater := (judged_append.mp hbefore).resolve_left (hquiet.approvals approval)
      exact absurd hlow (not_lt.mpr (hhigh approval hlater))
    · cases List.mem_singleton.mp hmem
  · rw [hone]
    exact fun h => nomatch h

/-- What entitles a moment before it is verified. -/
structure Anchored (session : Session) (db : Database) (log : List MomentEvent) (moment : Moment) : Prop where
  reported : ∃ found, Judged analysis log found ∧ found.flag = true ∧ detectionThreshold ≤ found.confidence ∧
    found.text = moment.description
  described : solid moment.description ≠ []
  attached : ∃ story, Latest session db story ∧ moment.storyId = story.id ∧
    story.audioUrl = some moment.mediaUrl ∧ moment.mediaUrl ≠ []
  owned : moment.userId = session.userId

/-- **Verification and saving** keep a run within the gate. -/
theorem keepsGate_saveApproved (hquiet : Quiet past) (hanchored : Anchored session db past moment) :
    KeepsGate session db past (saveApproved session moment) := by
  have hverify : ((VerificationPipeline.verify session.prompts (momentItem session moment)).embed
      (S := MomentEffect.Reply) MomentEffect.review).Upholds (logged momentEnv) (fun _ _ => True)
      (fun r t => t.1 = db ∧ ∃ steps, t.2 = past ++ steps.map (Event.embed MomentEffect.review) ∧
        VerificationPipeline.Verified (momentItem session moment) steps r) (db, past ++ [].map _) :=
    Ends.logged_embed (Q := fun log r => ∃ steps, log = past ++ steps.map (Event.embed MomentEffect.review) ∧
        VerificationPipeline.Verified (momentItem session moment) steps r)
      (fun db effect reply db' (hreply : momentEnv db (.review effect) reply db') => hreply)
      (VerificationPipeline.ends_verify.imp fun steps r h => ⟨steps, rfl, h⟩)
  rw [List.map_nil, List.append_nil] at hverify
  refine Upholds.bind (hverify.imp fun r t hend => ?_)
  obtain ⟨db₁, log⟩ := t
  obtain ⟨rfl, steps, rfl, hverified⟩ := hend
  cases hverified with
  | @unasked result hresult =>
    -- the item failed a rule, or the validator could not be asked
    dsimp only
    rw [hresult, List.map_nil, List.append_nil]
    exact gate_of_quiet hquiet
  | @rejected systemPrompt reply result hreply hresult =>
    dsimp only
    rw [hresult]
    show Gate session db₁ (past ++ [validated session moment systemPrompt reply]) db₁
    refine gate_of_unapproved hquiet rfl ?_
    intro approval hjudged hflag
    obtain ⟨json, hjson, hparsed⟩ := judged_validated.mp hjudged
    rw [hreply json approval hjson hparsed] at hflag
    cases hflag
  | @flagged systemPrompt json judgement reason queued r hjson hflag hlow hr =>
    have hgate : Gate session db₁ (past ++ [validated session moment systemPrompt (.ok json),
        ⟨.review (.enqueue ⟨momentItem session moment, reason, judgement.confidence⟩), queued⟩]) db₁ :=
      gate_of_unapproved hquiet rfl fun _ _ _ => rfl
    cases r with
    | error e => exact hgate
    | ok result =>
      dsimp only
      rw [hr result rfl]
      exact hgate
  | @approved systemPrompt json judgement result hrule hjson hflag hhigh hresult =>
    -- the one way to the save, which is the last step of the run whatever the store answers
    dsimp only
    rw [hresult]
    refine upholds_perform_true fun reply t hreply => ?_
    obtain ⟨db₂, log⟩ := t
    obtain ⟨-, rfl⟩ := hreply
    have hjudged : Judged validation [validated session moment systemPrompt (.ok json)] judgement :=
      judged_validated.mpr ⟨json, rfl, hjson⟩
    show Gate session db₁ (past ++ [validated session moment systemPrompt (.ok json)] ++ [⟨.save moment, reply⟩]) db₂
    refine gate_of_saved hquiet rfl ?_ ?_
    · intro approval happroval
      obtain ⟨_, ⟨⟩, hparsed⟩ := judged_validated.mp happroval
      obtain rfl := Except.ok.inj (hjson.symm.trans hparsed)
      exact hhigh
    · obtain ⟨found, hfound, hreported⟩ := hanchored.reported
      exact {
        reported := ⟨found, judged_append.mpr (.inl hfound), hreported⟩
        described := ⟨of_decide_eq_true hrule, hanchored.described⟩
        approved := ⟨judgement, judged_append.mpr (.inr hjudged), hflag, hhigh⟩
        attached := hanchored.attached
        owned := hanchored.owned }

/-- **Anchoring** a moment that was detected keeps a run within the gate. -/
theorem keepsGate_anchorMoment {parsed : Judgement} (hquiet : Quiet past) (hfound : Judged analysis past parsed)
    (hdetected : detected parsed = true) : KeepsGate session db past (anchorMoment session parsed) := by
  rw [detected, Bool.and_eq_true, Bool.and_eq_true, decide_eq_true_iff, Bool.not_eq_true'] at hdetected
  obtain ⟨⟨hflag, hdescribed⟩, hconfident⟩ := hdetected
  have hsolid : solid parsed.text ≠ [] := by
    rw [ne_eq, ← trim_eq_nil_iff, ← List.isEmpty_iff, hdescribed]
    exact Bool.false_ne_true
  refine Upholds.bind (upholds_recentStory.imp fun r t hend => ?_)
  obtain ⟨db₁, log⟩ := t
  obtain ⟨rfl, ⟨steps, rfl, hsteps⟩, hlatest⟩ := hend
  cases r with
  | error e => exact gate_of_quiet (hquiet.append hsteps)
  | ok story =>
    cases story with
    | none => exact gate_of_quiet (hquiet.append hsteps)
    | some story =>
      cases haudio : story.audioUrl.filter fun url => !url.isEmpty with
      | none =>
        -- a story without audio has nothing to anchor a moment in
        dsimp only
        rw [haudio]
        exact gate_of_quiet (hquiet.append hsteps)
      | some audioUrl =>
        dsimp only
        rw [haudio]
        obtain ⟨hurl, hnonempty⟩ := Option.filter_eq_some_iff.mp haudio
        refine keepsGate_saveApproved (hquiet.append hsteps) ?_
        exact {
          reported := ⟨parsed, judged_append.mpr (.inl hfound), hflag, hconfident, rfl⟩
          described := hsolid
          attached := ⟨story, hlatest story rfl, rfl, hurl, fun h => by
            rw [createMoment] at h
            rw [show audioUrl = [] from h] at hnonempty
            cases hnonempty⟩
          owned := rfl }

/-- **The analysis of a transcript** keeps a run within the gate. -/
theorem keepsGate_analyzeTranscript {transcript : Text} (hquiet : Quiet past) :
    KeepsGate session db past (analyzeTranscript session transcript) := by
  unfold analyzeTranscript
  refine Upholds.bind ?_
  cases session.prompts.getMemoryCuratorSystemPrompt with
  | error e => exact gate_of_quiet hquiet
  | ok systemPrompt =>
    refine Upholds.bind (upholds_perform_true fun reply t hreply => ?_)
    obtain ⟨db₁, log⟩ := t
    obtain ⟨hdb, rfl⟩ := hreply
    obtain rfl : db₁ = db := hdb
    have hlater : Quiet (past ++ [⟨.review (.generateStructured ⟨systemPrompt, transcript, analysis.schema⟩), reply⟩]) :=
      hquiet.append quiet_analysis
    cases reply with
    | error e => exact gate_of_quiet hlater
    | ok json =>
      refine Upholds.bind ?_
      cases hparsed : analysis.parse json with
      | error e => exact gate_of_quiet hlater
      | ok parsed =>
        have hfound : Judged analysis (past ++ [⟨.review
            (.generateStructured ⟨systemPrompt, transcript, analysis.schema⟩), .ok json⟩]) parsed :=
          ⟨systemPrompt, transcript, json, List.mem_append_right _ (List.mem_singleton_self _), hparsed⟩
        refine upholds_done ?_
        dsimp only
        cases hdetected : detected parsed with
        | false => exact gate_of_quiet hlater
        | true =>
          exact keepsGate_anchorMoment hlater hfound hdetected

/-- **The body of a call** keeps it within the gate. -/
theorem keepsGate_analyze (hquiet : Quiet past) : KeepsGate session db past (analyze session) := by
  refine Upholds.bind (upholds_perform_true fun reply t hreply => ?_)
  obtain ⟨db₁, log⟩ := t
  obtain ⟨hdb, rfl⟩ := hreply
  obtain rfl : db₁ = db := hdb
  have hlater : Quiet (past ++ [⟨sessionContext session, reply⟩]) :=
    hquiet.append quiet_retrieve
  cases reply with
  | error e => exact gate_of_quiet hlater
  | ok memories =>
    cases memories with
    | cons memory memories => exact keepsGate_analyzeTranscript hlater
    | nil =>
      refine Upholds.bind (upholds_recentStory.imp fun r t hend => ?_)
      obtain ⟨db₂, log⟩ := t
      obtain ⟨hdb, ⟨steps, hlog, hsteps⟩, -⟩ := hend
      obtain rfl : db₂ = db₁ := hdb
      obtain rfl : log = past ++ [⟨sessionContext session, .ok []⟩] ++ steps := hlog
      cases r with
      | error e => exact gate_of_quiet (hlater.append hsteps)
      | ok story =>
        cases story with
        | none => exact gate_of_quiet (hlater.append hsteps)
        | some story => exact keepsGate_analyzeTranscript (hlater.append hsteps)

/-- **The gate of golden moments**: whatever the model replies and throws, and whatever the user's stories and
memories are, a call resolves, and it has saved a moment only within the gate. -/
theorem execute_gate {r : Except JsError Unit} {db' : Database}
    (h : Logs momentEnv db (execute session) log r db') : r = .ok () ∧ Gate session db log db' := by
  have hupholds : (execute session).Upholds (logged momentEnv) (fun _ _ => True)
      (fun r t => r = .ok () ∧ Gate session db t.2 t.1) (db, []) := by
    refine Upholds.catchWith ((keepsGate_analyze quiet_nil).imp fun r t hgate => ?_)
    cases r with
    | ok _ => exact ⟨rfl, hgate⟩
    | error e => exact ⟨rfl, hgate⟩
  exact h.upheld_logged hupholds

/-! ### A moment with an owl -/

/-- A session of a user, with every service at work. -/
def owlSession : Session where
  clients := ⟨true, true, fun _ => true⟩
  prompts := ⟨.ok (lit "Curate."), fun _ => .ok (lit "Validate.")⟩
  newId := lit "moment"
  now := 1
  sessionId := lit "session"
  userId := lit "11111111-2222-4333-8444-555555555555"

/-- The id of the user's story. -/
def owlStoryId : Text := lit "00000000-0000-0000-0000-000000000000"

/-- The row of the user's story. -/
def owlRow : StoryRow where
  userId := owlSession.userId
  title := lit "Owl"
  content := lit "Once."
  theme := lit "owl"
  status := .completed
  audioUrl := some (lit "data:owl")
  createdAt := 0
  generatedAt := none

/-- The tables with that story only. -/
def owlTables : Database where
  stories id := if id = owlStoryId then some owlRow else none
  moments _ := none
  blocks _ _ := none
  feedback _ := none

/-- A reply with the names of a shape, full confidence and the given text. -/
def owlReply (shape : JudgementShape) (text : Text) : Json :=
  .obj [(shape.flag, .bool true), (shape.text, .str text), (lit "confidence", .num (.finite 1))]

/-- What such a reply is read as. -/
def owlJudgement (text : Text) : Judgement := ⟨true, text, 1, by decide⟩

/-- The moment that is found. -/
def owlMoment : Moment where
  id := lit "moment"
  userId := owlSession.userId
  storyId := owlStoryId
  mediaUrl := lit "data:owl"
  description := lit "The owl laughed."
  createdAt := 1

/-- What is remembered of the session. -/
def owlMemory : MemoryRecord := ⟨lit "memory", .episodic, lit "An owl laughed.", 1, 0, none⟩

/-- The log of a call that saves it. -/
def owlLog : List MomentEvent := [
  ⟨sessionContext owlSession, .ok [owlMemory]⟩,
  ⟨.review (.generateStructured ⟨lit "Curate.", lit "An owl laughed.", analysis.schema⟩),
    .ok (some (owlReply analysis (lit "The owl laughed.")))⟩,
  ⟨.story (.selectStoriesOf owlSession.userId (some (.finite 1))), .ok (.data [(owlStoryId, owlRow)])⟩,
  ⟨.review (.generateStructured
      ⟨lit "Validate.", VerificationPipeline.itemText (momentItem owlSession owlMoment), validation.schema⟩),
    .ok (some (owlReply validation (lit "Warm.")))⟩,
  ⟨.save owlMoment, .ok ()⟩]

theorem listing_owl : Listing owlTables owlSession.userId [(owlStoryId, owlRow)] where
  mem id row := by
    rw [List.mem_singleton, Prod.mk.injEq]
    constructor
    · rintro ⟨rfl, rfl⟩
      exact ⟨rfl, rfl⟩
    · rintro ⟨hrow, -⟩
      obtain ⟨rfl, hrow⟩ := Option.ite_none_right_eq_some.mp hrow
      exact ⟨rfl, (Option.some.inj hrow).symm⟩
  nodup := List.nodup_singleton _
  newest := List.pairwise_singleton _ _

theorem logs_owl : Logs momentEnv owlTables (execute owlSession) owlLog (.ok ())
    (owlTables.withMoment (lit "moment") ⟨owlSession.userId, .active⟩) := by
  have hdetected : detected (owlJudgement (lit "The owl laughed.")) = true := by decide +kernel
  have hconfident : ¬ (1 : ℚ) < VerificationPipeline.approvalThreshold := by decide +kernel
  refine .await rfl (.await rfl ?_)
  -- the analyst's reply has been read
  show Logs momentEnv owlTables (catchWith (if !detected (owlJudgement (lit "The owl laughed.")) then pure ()
    else anchorMoment owlSession (owlJudgement (lit "The owl laughed."))) fun _ => pure ()) _ _ _
  rw [hdetected]
  refine .await ⟨rfl, ?_⟩ (.await rfl ?_)
  · rintro _ ⟨⟩
    exact ⟨_, listing_owl, 1, rfl, rfl⟩
  -- so has the validator's
  show Logs momentEnv owlTables (catchWith (((if (1 : ℚ) < VerificationPipeline.approvalThreshold then
      (do
        let _ ← (perform (ReviewEffect.enqueue
          ⟨momentItem owlSession owlMoment, lit "Low confidence model validation", 1⟩) : ReviewProc Unit)
        pure ⟨false, .human, lit "Flagged for human review", 1⟩ : ReviewProc VerificationResult)
      else pure ⟨true, .model, lit "All checks passed", 1⟩).embed MomentEffect.review) >>= fun verification =>
    if !verification.approved then pure () else perform (MomentEffect.save owlMoment)) fun _ => pure ()) _ _ _
  rw [if_neg hconfident]
  exact .await rfl .done

theorem execute_gate_owl : saves owlLog = [owlMoment] ∧ Gate owlSession owlTables owlLog
    (owlTables.withMoment (lit "moment") ⟨owlSession.userId, .active⟩) :=
  ⟨rfl, (execute_gate logs_owl).2⟩

end AnalyzeSessionForMomentsUseCase

end DreamWeaver.Moments
