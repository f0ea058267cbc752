import DreamWeaver.Memory.SessionSearch
import DreamWeaver.Moments.AnalyzeSession

/-! # Moment analysis and the session

The analysis of a session asks the memory for it with the query `session_end`. Whether the model gets to see
the session then depends on how the memory searches, and on what is stored. -/

namespace DreamWeaver.Moments

open Memory (Embedding MemoryRecord MemoryStore Retrieval Shows)
open Moderation Proc Stories

/-! ## A memory that answers -/

/-- What the world adds to a search: the embedding of the query, and whether the database answers. -/
structure SearchWorld where
  embedding : Option Embedding := none
  rpcAnswered : Bool := true
  answered : Bool := true

/-- A call of `retrieve` in the world. -/
def SearchWorld.retrieval (world : SearchWorld) (query : Text) (context : Memory.AgentContext) (type : Memory.MemoryType)
    (limit : ℕ) : Retrieval :=
  ⟨query, context, some type, limit, world.embedding, world.rpcAnswered, world.answered⟩

namespace AnalyzeSessionForMomentsUseCase

/-- The answers where a memory with something stored answers the search. -/
def memoryEnv (store : MemoryStore) (s : store.port.State) (world : SearchWorld) :
    Env Database MomentEffect MomentEffect.Reply := fun db effect =>
  match effect with
  | .retrieve query context type limit => fun reply db' => db' = db ∧
      ∃ result, store.port.retrieves s (world.retrieval query context type limit) result ∧ reply = .ok result
  | .story effect => momentEnv db (.story effect)
  | .review effect => momentEnv db (.review effect)
  | .save moment => momentEnv db (.save moment)

/-- The search that the use case makes. -/
def sessionRetrieval (session : Session) (world : SearchWorld) : Retrieval :=
  world.retrieval (lit "session_end") ⟨session.userId, some session.sessionId, none⟩ .episodic 20

/-- **The model sees the session**: what is retrieved shows it, and its transcript is sent to the model. -/
def SeesSession (own : List MemoryRecord) (session : Session) (log : List MomentEvent) : Prop :=
  ∃ shown systemPrompt reply, Shows own 20 shown ∧ ⟨sessionContext session, .ok shown⟩ ∈ log ∧
    ⟨.review (.generateStructured ⟨systemPrompt, memoryTranscript shown, analysis.schema⟩), reply⟩ ∈ log

section Runs

variable {session : Session} {store : MemoryStore} {s : store.port.State} {world : SearchWorld} {db db' : Database}
  {log : List MomentEvent} {r : Except JsError Unit}

/-- **A call that is shown the session** sends it to the model. -/
theorem sees_of_shows {text : Text} (hprompt : session.prompts.getMemoryCuratorSystemPrompt = .ok text)
    (hown : store.sessionMemories s (sessionRetrieval session world) ≠ [])
    (hshows : ∀ result, store.port.retrieves s (sessionRetrieval session world) result →
      Shows (store.sessionMemories s (sessionRetrieval session world)) 20 result)
    (hlogs : Logs (memoryEnv store s world) db (execute session) log r db') :
    SeesSession (store.sessionMemories s (sessionRetrieval session world)) session log := by
  obtain ⟨reply, _, rest, rfl, ⟨-, result, hresult, rfl⟩, hrest⟩ := logs_await_iff.mp hlogs
  have hshown := hshows result hresult
  have hne := hshown.ne_nil (lt_min (by decide) (List.length_pos_of_ne_nil hown))
  obtain ⟨m, ms, rfl⟩ := List.exists_cons_of_ne_nil hne
  change Logs _ _ (catchWith (analyzeTranscript session (memoryTranscript (m :: ms))) _) _ _ _ at hrest
  rw [analyzeTranscript, hprompt] at hrest
  obtain ⟨reply, _, rest, rfl, -, -⟩ := logs_await_iff.mp hrest
  exact ⟨m :: ms, text, reply, hshown, List.mem_cons_self, List.mem_cons_of_mem _ List.mem_cons_self⟩

/-- The model is asked. -/
def Asks (e : MomentEffect) : Prop := ∃ input, e = .review (.generateStructured input)

theorem only_recentStory : (recentStory session).Only fun event => ¬ Asks event.effect := by
  refine Only.bind (Only.imp only_embed ?_) fun _ => only_pure
  rintro event ⟨effect, heffect⟩ ⟨input, hasks⟩
  rw [heffect] at hasks
  cases hasks

/-- Without its prompt the model is not asked. -/
theorem only_of_prompt_error {e : JsError} (hprompt : session.prompts.getMemoryCuratorSystemPrompt = .error e) :
    (execute session).Only fun event => ¬ Asks event.effect := by
  have hanalyze : ∀ transcript, (analyzeTranscript session transcript).Only fun event => ¬ Asks event.effect := by
    intro transcript
    rw [analyzeTranscript, hprompt]
    trivial
  refine Only.catchWith (Only.bind (only_perform fun _ => ?_) fun memories => ?_) fun _ => only_pure
  · rintro ⟨input, hasks⟩
    cases hasks
  · cases memories with
    | cons m ms => exact hanalyze _
    | nil =>
      refine Only.bind only_recentStory fun story => ?_
      cases story with
      | none => exact only_pure
      | some story => exact hanalyze _

/-- A table that answers nothing. -/
def refuse : (e : StorageEffect) → Except JsError e.Reply
  | .pause _ => .ok ()
  | _ => .error ⟨[], []⟩

/-- The answers with which a call retrieves the result and fails at everything else. -/
def answerResult (result : List MemoryRecord) : (e : MomentEffect) → Database → Except JsError e.Reply × Database
  | .retrieve _ _ _ _, db => (.ok result, db)
  | .story effect, db => (refuse effect, db)
  | .review _, db => (.error ⟨[], []⟩, db)
  | .save _, db => (.error ⟨[], []⟩, db)

/-- Of all searches, only the one for the session is made. -/
def Expected (session : Session) : MomentEffect → Prop
  | .retrieve query context type limit => MomentEffect.retrieve query context type limit = sessionContext session
  | _ => True

theorem only_expected : (execute session).Only fun event => Expected session event.effect := by
  have hstory : (recentStory session).Only fun event => Expected session event.effect :=
    Only.bind (only_embed.imp fun event ⟨effect, heffect⟩ => by rw [heffect]; trivial) fun _ => only_pure
  have hverify : ∀ moment, (saveApproved session moment).Only fun event => Expected session event.effect := by
    intro moment
    refine Only.bind (only_embed.imp fun event ⟨effect, heffect⟩ => by rw [heffect]; trivial) fun verification => ?_
    split
    · exact only_pure
    · exact only_perform fun _ => trivial
  have hanalyze : ∀ transcript, (analyzeTranscript session transcript).Only fun event =>
      Expected session event.effect := by
    intro transcript
    refine Only.bind only_done fun systemPrompt => Only.bind (only_perform fun _ => trivial) fun reply =>
      Only.bind only_done fun parsed => ?_
    split
    · exact only_pure
    · refine Only.bind hstory fun story => ?_
      cases story with
      | none => exact only_pure
      | some story =>
        dsimp only
        split
        · exact only_pure
        · exact hverify _
  refine Only.catchWith (Only.bind (only_perform fun _ => rfl) fun memories => ?_) fun _ => only_pure
  cases memories with
  | cons m ms => exact hanalyze _
  | nil =>
    refine Only.bind hstory fun story => ?_
    cases story with
    | none => exact only_pure
    | some story => exact hanalyze _

/-- **Every result of the search** is retrieved in some run. -/
theorem exists_logs {result : List MemoryRecord}
    (hresult : store.port.retrieves s (sessionRetrieval session world) result) (db : Database) :
    ∃ log r db', Logs (memoryEnv store s world) db (execute session) log r db' ∧
      ∀ shown, ⟨sessionContext session, .ok shown⟩ ∈ log → shown = result := by
  have hanswer : ∀ e db, Expected session e → memoryEnv store s world db e (answerResult result e db).1
      (answerResult result e db).2 := by
    intro e db hexpected
    cases e with
    | retrieve query context type limit =>
      obtain ⟨rfl, rfl, rfl, rfl⟩ := MomentEffect.retrieve.inj hexpected
      exact ⟨rfl, result, hresult, rfl⟩
    | story effect => cases effect <;> simp [answerResult, refuse, memoryEnv, momentEnv, storageEnv]
    | review effect => rfl
    | save moment => rfl
  refine ⟨_, _, _, logs_record_of_only hanswer only_expected db, fun shown hmem => ?_⟩
  obtain ⟨_, hreply⟩ := reply_of_record hmem
  exact Except.ok.inj hreply

end Runs

/-! ### A session with an owl -/

/-- What is remembered of a session. -/
def rememberedOwl (content : Text) : MemoryRecord :=
  ⟨lit "memory", .episodic, content, 1, 0, some [(lit "sessionId", .str owlSession.sessionId)]⟩

/-- The tables of a user without stories. -/
def emptyTables : Database where
  stories _ := none
  moments _ := none
  blocks _ _ := none
  feedback _ := none

/-- The log of a call that finds neither memories nor stories. -/
def unseenLog : List MomentEvent := [
  ⟨sessionContext owlSession, .ok []⟩,
  ⟨.story (.selectStoriesOf owlSession.userId (some (.finite 1))), .ok (.data [])⟩]

end AnalyzeSessionForMomentsUseCase

end DreamWeaver.Moments
