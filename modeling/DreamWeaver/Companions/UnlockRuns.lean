import DreamWeaver.Companions.CheckUnlock

/-! # Unlocks in every run

Stories are saved and deleted, characters are blocked, and checks run at the same time, of one user or of several. A
check returns what it should of what it has read, and a companion that is unlocked stays unlocked. The date of an
unlock stays as long as no check stores an unlock from a stale reading: the upsert overwrites the date. -/

namespace DreamWeaver.Companions

open Proc Stories Moderation

/-! ## Runs -/

/-- What runs at the same time. -/
inductive UnlockOperation where
  | checkUnlock (userId : Text)
  | saveStory (story : StoryProps)
  | deleteStory (id : Text)
  | blockCharacter (id adminId : Text) (reason notes : Option Text) (now : ℕ)

/-- The procedure of an operation; the others give no companions. -/
def UnlockOperation.task (clients : Supabase) : UnlockOperation → UnlockProc (List DreamCompanion)
  | .checkUnlock userId => CheckUnlockUseCase.execute clients userId
  | .saveStory story => do
    onStorage (SupabaseStoryRepository.save clients story)
    pure []
  | .deleteStory id => do
    let _ ← (perform (UnlockEffect.deleteStory id) : UnlockProc Unit)
    pure []
  | .blockCharacter id adminId reason notes now => do
    onStorage (SupabaseModerationRepository.block clients .character id adminId reason notes now)
    pure []

variable {ι : Type} [DecidableEq ι]

/-- Operations that run at the same time. -/
abbrev UnlockPool (ι : Type) := Pool ι UnlockTables UnlockEffect UnlockEffect.Reply (List DreamCompanion)

/-- The operations before anything has run. -/
def unlocking (clients : Supabase) (ops : ι → UnlockOperation) (tables : UnlockTables) : UnlockPool ι :=
  ⟨tables, fun i => (ops i).task clients⟩

/-- Their steps, in any order. -/
abbrev UnlockRuns (c : UnlockPool ι) (log : List (ι × UnlockEvent)) (c' : UnlockPool ι) : Prop :=
  Runs unlockEnv (fun _ _ => True) c log c'

/-! ## The law -/

section Law

variable (c c' : UnlockPool ι) (log : List (ι × UnlockEvent))

/-- The tables at some time of the run. -/
def Seen (before after : List (ι × UnlockEvent)) (t : UnlockTables) : Prop :=
  log = before ++ after ∧ ∃ c₁, UnlockRuns c before c₁ ∧ UnlockRuns c₁ after c' ∧ c₁.state = t

/-- The tables when an operation took one of its steps. -/
def SeenBy (i : ι) (t : UnlockTables) : Prop := ∃ before event after, Seen c c' log before ((i, event) :: after) t

/-- **No check stores an unlock from a stale reading**: the unlock that is stored by then, if it has another date, is
among those that the check has read. -/
def Fresh : Prop :=
  ∀ before i userId companionId unlockedAt reply after t,
    Seen c c' log before ((i, ⟨.upsertUnlock userId companionId unlockedAt, reply⟩) :: after) t →
    ∀ stored, t.unlocks userId companionId = some stored → stored ≠ unlockedAt →
    ∀ records, UnlocksRead (eventsOf i before) userId records →
      companionId ∈ records.map CompanionUnlockRecord.companionId

/-- **The unlock law** of a run. -/
structure UnlockLaw (ops : ι → UnlockOperation) : Prop where
  /-- A check returns exactly the companions that are not blocked, and that were unlocked or have their threshold
  reached by the stories of the user, in the tables that it has seen. -/
  returned : ∀ i userId companions, ops i = .checkUnlock userId → c'.procs i = .done (.ok companions) →
    ∃ counted listed moderated rows, SeenBy c c' log i counted ∧ SeenBy c c' log i listed ∧
      SeenBy c c' log i moderated ∧ Listing counted.db userId rows ∧
      companions.map (fun c => c.id) = (availableCompanions.filter fun props =>
        moderated.isBlocked props.id = false ∧ ((listed.unlocks userId props.id).isSome = true ∨
          props.unlockThreshold ≤ rows.length)).map (fun props => props.id) ∧
      ∀ companion ∈ companions, companion.isUnlocked = true ∧ companion.unlockedAt.isSome = true ∧
        ∀ unlockedAt, listed.unlocks userId companion.id = some unlockedAt → companion.unlockedAt = some unlockedAt
  /-- A companion that was unlocked when a check began is not lost, unless it is blocked. -/
  neverLost : ∀ i userId companions, ops i = .checkUnlock userId → c'.procs i = .done (.ok companions) →
    ∀ before after t, Seen c c' log before after t → eventsOf i before = [] →
    ∀ props ∈ availableCompanions, (t.unlocks userId props.id).isSome = true →
      props.id ∈ companions.map (fun c => c.id) ∨ ∃ moderated, SeenBy c c' log i moderated ∧
        moderated.isBlocked props.id = true
  /-- The date of an unlock never changes. -/
  dated : ∀ before after t, Seen c c' log before after t → ∀ userId companionId unlockedAt,
    t.unlocks userId companionId = some unlockedAt → c'.state.unlocks userId companionId = some unlockedAt

end Law

/-! ## What a step does to the unlocks -/

variable {clients : Supabase} {ops : ι → UnlockOperation} {tables t t' : UnlockTables} {effect : UnlockEffect}
  {reply : Except JsError effect.Reply} {c c' : UnlockPool ι} {log : List (ι × UnlockEvent)} {userId : Text}

@[simp] theorem unlocks_withUnlock (t : UnlockTables) (userId companionId : Text) (unlockedAt : Time)
    (userId' companionId' : Text) : (t.withUnlock userId companionId unlockedAt).unlocks userId' companionId' =
      if userId' = userId ∧ companionId' = companionId then some unlockedAt else t.unlocks userId' companionId' := by
  unfold UnlockTables.withUnlock
  by_cases huser : userId' = userId
  · simp [huser, Function.update_apply]
  · simp [huser]

/-- A step leaves the unlocks as they are, or stores one. -/
theorem unlocks_step (h : unlockEnv t effect reply t') : t'.unlocks = t.unlocks ∨
    ∃ userId companionId unlockedAt, effect = .upsertUnlock userId companionId unlockedAt ∧
      t' = t.withUnlock userId companionId unlockedAt := by
  cases effect with
  | storage effect => exact .inl h.2
  | selectUnlocks userId => exact .inl (congrArg UnlockTables.unlocks h.1)
  | upsertUnlock userId companionId unlockedAt =>
    rcases h with rfl | ⟨rfl, -⟩
    · exact .inr ⟨userId, companionId, unlockedAt, rfl, rfl⟩
    · exact .inl rfl
  | selectBlocked => exact .inl (congrArg UnlockTables.unlocks h.1)
  | deleteStory id =>
    cases reply with
    | ok _ =>
      obtain rfl : t' = _ := h
      exact .inl rfl
    | error e =>
      obtain rfl : t' = t := h
      exact .inl rfl
  | now => exact .inl (congrArg UnlockTables.unlocks h.1)

/-- A companion that is unlocked stays unlocked. -/
theorem isSome_unlocks_step (h : unlockEnv t effect reply t') {companionId : Text}
    (hunlocked : (t.unlocks userId companionId).isSome = true) : (t'.unlocks userId companionId).isSome = true := by
  rcases unlocks_step h with hsame | ⟨userId', companionId', unlockedAt, rfl, rfl⟩
  · rwa [hsame]
  · rw [unlocks_withUnlock]
    split
    · rfl
    · exact hunlocked

/-- A date stays, unless an unlock is stored over it with another one. -/
theorem unlocks_step_of_keeps (h : unlockEnv t effect reply t') {companionId : Text} {stored : Time}
    (hstored : t.unlocks userId companionId = some stored)
    (hkeeps : ∀ unlockedAt, effect = .upsertUnlock userId companionId unlockedAt → stored = unlockedAt) :
    t'.unlocks userId companionId = some stored := by
  rcases unlocks_step h with hsame | ⟨userId', companionId', unlockedAt, rfl, rfl⟩
  · rw [hsame, hstored]
  · rw [unlocks_withUnlock]
    split
    · rename_i hsame
      obtain ⟨rfl, rfl⟩ := hsame
      exact congrArg some (hkeeps unlockedAt rfl).symm
    · exact hstored

/-! ## What a check stores -/

/-- An unlock that is stored is none of those that were read. -/
def NotRead (past : List UnlockEvent) : UnlockEffect → Prop
  | .upsertUnlock userId companionId _ =>
    ∃ records, UnlocksRead past userId records ∧ companionId ∉ records.map CompanionUnlockRecord.companionId
  | _ => True

/-- A procedure of the other repositories stores none. -/
theorem only_onStorage {α : Type} {p : StorageProc α} :
    (onStorage p).Only fun event => ∀ past, NotRead past event.effect := by
  refine only_embed.imp ?_
  rintro ⟨effect, reply⟩ ⟨e, rfl⟩ past
  trivial

theorem only_dataOrThrow {α : Type} {message : String} (answer : Answer α) {P : UnlockEvent → Prop} :
    (onStorage (dataOrThrow message answer)).Only P := by
  cases answer with
  | data data => exact only_pure
  | error error => exact only_done

theorem only_listUnlockedByUserId : (SupabaseCompanionUnlockRepository.listUnlockedByUserId clients userId).Only
    fun event => ∀ past, NotRead past event.effect := by
  unfold SupabaseCompanionUnlockRepository.listUnlockedByUserId
  split
  · refine Only.retrying (fun _ => only_onStorage) ?_ 3 0
    exact Only.bind (only_perform fun _ _ => trivial) fun answer => only_dataOrThrow answer
  · exact only_done

theorem only_listBlockedCharacterIds :
    (listBlockedCharacterIds clients).Only fun event => ∀ past, NotRead past event.effect := by
  unfold listBlockedCharacterIds
  split
  · refine Only.bind (only_perform fun _ _ => trivial) fun answer => ?_
    exact Only.bind (only_dataOrThrow answer) fun _ => only_pure
  · exact only_done

theorem only_upsertUnlock {companionId : Text} {unlockedAt : Time} :
    (SupabaseCompanionUnlockRepository.upsertUnlock clients userId companionId unlockedAt).Only fun event =>
      (∃ e, event.effect = .storage e) ∨ event.effect = .upsertUnlock userId companionId unlockedAt := by
  unfold SupabaseCompanionUnlockRepository.upsertUnlock
  split
  · refine Only.retrying (fun _ => only_embed.imp fun _ h => .inl h) ?_ 3 0
    exact Only.bind (only_perform fun _ => .inr rfl) fun answer => only_dataOrThrow answer
  · exact only_done

/-- The loop stores what the map has not, and the map has all that was read. -/
theorem steps_unlockDue {count : ℕ} {blocked : List Text} {records : List CompanionUnlockRecord}
    (due : List DreamCompanionProps) {unlockedById : Text → Option Time} {past : List UnlockEvent}
    (hread : UnlocksRead past userId records)
    (hmap : ∀ id ∈ records.map CompanionUnlockRecord.companionId, (unlockedById id).isSome = true) :
    (CheckUnlockUseCase.unlockDue clients userId count blocked due unlockedById).Steps NotRead past := by
  induction due generalizing unlockedById past with
  | nil => trivial
  | cons props rest ih =>
    unfold CheckUnlockUseCase.unlockDue
    split
    · exact ih hread hmap
    · rename_i hdue
      have hnew : props.id ∉ records.map CompanionUnlockRecord.companionId :=
        fun hmem => hdue (.inr (.inr (hmap _ hmem)))
      refine Steps.bind ⟨trivial, fun _ => trivial⟩ ?_
      intro reply
      cases reply with
      | error e => trivial
      | ok unlockedAt =>
        have hread' : ∀ rest, UnlocksRead (past ++ rest) userId records := fun _ => List.mem_append_left _ hread
        refine Steps.bind (only_upsertUnlock.steps ?_) ?_
        · rintro rest ⟨effect, reply⟩ (⟨e, rfl⟩ | rfl)
          · trivial
          · exact ⟨records, List.mem_append_left _ (hread' _), hnew⟩
        · have hframe : (SupabaseCompanionUnlockRepository.upsertUnlock clients userId props.id unlockedAt).Ends
              (fun past' _ => past ++ [⟨.now, .ok unlockedAt⟩] <+: past' ∧ True) _ :=
            (ends_of_forall (Q := fun _ _ => True) fun _ _ => trivial).frame
          refine hframe.imp fun past' r hgoes => ?_
          cases r with
          | error e => trivial
          | ok _ =>
            refine ih (hgoes.1.subset (hread' _)) fun id hid => ?_
            by_cases hsame : id = props.id
            · rw [hsame, Function.update_self]
              rfl
            · rw [Function.update_of_ne hsame]
              exact hmap id hid

/-- **A check** stores no unlock that it has read. -/
theorem steps_execute (past : List UnlockEvent) :
    (CheckUnlockUseCase.execute clients userId).Steps NotRead past := by
  refine Steps.bind (only_onStorage.steps fun _ _ h => h _) (ends_of_forall fun past₁ r => ?_)
  cases r with
  | error e => trivial
  | ok stories =>
    refine Steps.bind (only_listUnlockedByUserId.steps fun _ _ h => h _) ?_
    refine (gives_listUnlockedByUserId past₁).imp fun past₂ r hunlocks => ?_
    cases r with
    | error e => trivial
    | ok records =>
      refine Steps.bind (only_listBlockedCharacterIds.steps fun _ _ h => h _) ?_
      refine (gives_listBlockedCharacterIds past₂).imp fun past₃ r hblocked => ?_
      cases r with
      | error e => trivial
      | ok blocked =>
        refine Steps.bind (steps_unlockDue _ (hblocked.1.subset (hunlocks.2 records rfl)) fun id hid => ?_)
          (ends_of_forall fun _ r => ?_)
        · rw [isSome_mapOf, List.map_map]
          exact hid
        · cases r with
          | ok _ => trivial
          | error _ => trivial

/-- So does every operation. -/
theorem steps_task (op : UnlockOperation) : (op.task clients).Steps NotRead [] := by
  cases op with
  | checkUnlock userId => exact steps_execute []
  | saveStory story => exact (Only.bind only_onStorage fun _ => only_pure).steps fun _ _ h => h _
  | deleteStory id => exact ⟨trivial, fun reply => by cases reply <;> trivial⟩
  | blockCharacter id adminId reason notes now =>
    exact (Only.bind only_onStorage fun _ => only_pure).steps fun _ _ h => h _

/-! ## What a run does -/

/-- The ids of the records are those of the unlocked companions. -/
theorem Unlocks.mem_ids {records : List CompanionUnlockRecord} (h : Unlocks t userId records) (id : Text) :
    id ∈ records.map CompanionUnlockRecord.companionId ↔ (t.unlocks userId id).isSome = true := by
  rw [List.mem_map, Option.isSome_iff_exists]
  constructor
  · rintro ⟨⟨id, unlockedAt⟩, hmem, rfl⟩
    exact ⟨unlockedAt, (h.mem id unlockedAt).mp hmem⟩
  · rintro ⟨unlockedAt, hstored⟩
    exact ⟨⟨id, unlockedAt⟩, (h.mem id unlockedAt).mpr hstored, rfl⟩

theorem seen_of_runs {before after : List (ι × UnlockEvent)} (h : UnlockRuns c (before ++ after) c') :
    ∃ t, Seen c c' (before ++ after) before after t := by
  obtain ⟨c₁, hbefore, hafter⟩ := h.split
  exact ⟨c₁.state, rfl, c₁, hbefore, hafter, rfl⟩

/-- What an operation has done, it has done in tables that it has seen. -/
theorem seenBy_of_mem (h : UnlockRuns c log c') {i : ι} {event : UnlockEvent} (hmem : event ∈ eventsOf i log) :
    ∃ t t', SeenBy c c' log i t ∧ unlockEnv t event.effect event.reply t' := by
  obtain ⟨before, after, rfl⟩ := List.append_of_mem (mem_of_mem_eventsOf hmem)
  obtain ⟨t, hseen⟩ := seen_of_runs h
  obtain ⟨-, c₁, hbefore, hafter, rfl⟩ := id hseen
  obtain ⟨c₂, -, hreply, -⟩ := hafter.first
  exact ⟨c₁.state, c₂.state, ⟨before, event, after, hseen⟩, hreply⟩

/-- **A check** returns what it should of what it has read. -/
theorem decided_of_runs (h : UnlockRuns (unlocking clients ops tables) log c') {i : ι}
    {companions : List DreamCompanion} (hop : ops i = .checkUnlock userId)
    (hdone : c'.procs i = .done (.ok companions)) :
    ∃ count records blocked, StoriesRead (eventsOf i log) userId count ∧ UnlocksRead (eventsOf i log) userId records ∧
      BlockedRead (eventsOf i log) blocked ∧ Decided count records blocked companions := by
  have hends := @gives_execute clients userId []
  have hproc : (unlocking clients ops tables).procs i = CheckUnlockUseCase.execute clients userId := by
    show (ops i).task clients = _
    rw [hop]
    rfl
  rw [← hproc] at hends
  exact (h.ended hends hdone).2 companions rfl

/-- A companion that was unlocked at some time is unlocked later. -/
theorem isSome_unlocks_of_runs (h : UnlockRuns c log c') {companionId : Text}
    (hunlocked : (c.state.unlocks userId companionId).isSome = true) :
    (c'.state.unlocks userId companionId).isSome = true :=
  h.invariant (J := fun t => (t.unlocks userId companionId).isSome = true) hunlocked
    fun _ _ _ _ hnow _ hstep => isSome_unlocks_step hstep hnow

/-- What a check has stored over an unlock has the same date, where no reading is stale. -/
theorem keeps_of_fresh (h : UnlockRuns (unlocking clients ops tables) log c')
    (hfresh : Fresh (unlocking clients ops tables) c' log) {i : ι} {event : UnlockEvent}
    {before after : List (ι × UnlockEvent)} {companionId : Text} {unlockedAt stored : Time}
    (hseen : Seen (unlocking clients ops tables) c' log before ((i, event) :: after) t)
    (hstored : t.unlocks userId companionId = some stored)
    (hevent : event.effect = .upsertUnlock userId companionId unlockedAt) : stored = unlockedAt := by
  obtain ⟨rfl, -⟩ := id hseen
  obtain ⟨effect, reply⟩ := event
  obtain rfl : effect = _ := hevent
  by_contra hne
  have hevents : eventsOf i (before ++ (i, ⟨_, reply⟩) :: after) =
      eventsOf i before ++ ⟨_, reply⟩ :: eventsOf i after := by
    rw [eventsOf_append]
    simp [eventsOf]
  obtain ⟨records, hread, hnew⟩ := (h.steps (steps_task (ops i))).2 _ _ _ hevents
  exact hnew (hfresh before i userId companionId unlockedAt reply after t hseen stored hstored hne records hread)

/-- A date that was stored at some time stays, where no reading is stale. -/
theorem dated_of_fresh (h : UnlockRuns (unlocking clients ops tables) log c')
    (hfresh : Fresh (unlocking clients ops tables) c' log) {before after : List (ι × UnlockEvent)} {companionId : Text}
    {stored : Time} (hseen : Seen (unlocking clients ops tables) c' log before after t)
    (hstored : t.unlocks userId companionId = some stored) : c'.state.unlocks userId companionId = some stored := by
  obtain ⟨hlog, c₁, hbefore, hafter, rfl⟩ := hseen
  induction after generalizing before c₁ with
  | nil =>
    generalize hnil : ([] : List (ι × UnlockEvent)) = log₁ at hafter
    cases hafter with
    | start => exact hstored
    | step => exact absurd hnil.symm (List.append_ne_nil_of_right_ne_nil _ (List.cons_ne_nil _ _))
  | cons entry after ih =>
    obtain ⟨i, event⟩ := entry
    obtain ⟨c₂, hone, hreply, hrest⟩ := hafter.first
    refine ih (by rw [List.append_assoc]; exact hlog) c₂ (hbefore.append hone) hrest ?_
    exact unlocks_step_of_keeps hreply hstored fun unlockedAt =>
      keeps_of_fresh h hfresh ⟨hlog, c₁, hbefore, hafter, rfl⟩ hstored

/-- **The unlock law**: in every run in which no check stores an unlock from a stale reading, a check returns exactly
the companions that are not blocked and that were unlocked or have their threshold reached, no unlocked companion is
lost, and the date of an unlock never changes. -/
theorem unlock_law (clients : Supabase) (ops : ι → UnlockOperation) (tables : UnlockTables)
    (log : List (ι × UnlockEvent)) (c' : UnlockPool ι) (h : UnlockRuns (unlocking clients ops tables) log c')
    (hfresh : Fresh (unlocking clients ops tables) c' log) :
    UnlockLaw (unlocking clients ops tables) c' log ops where
  returned i userId companions hop hdone := by
    obtain ⟨count, records, blocked, ⟨rows, hrows, rfl⟩, hrecords, hblocked, hdecided⟩ := decided_of_runs h hop hdone
    obtain ⟨counted, _, hcounted, hstories, -⟩ := seenBy_of_mem h hrows
    obtain ⟨listed, _, hlisted, -, hunlocks⟩ := seenBy_of_mem h hrecords
    obtain ⟨moderated, _, hmoderated, -, hids⟩ := seenBy_of_mem h hblocked
    obtain ⟨all, hall, rfl⟩ := hstories.2 rows rfl
    refine ⟨counted, listed, moderated, rows, hcounted, hlisted, hmoderated, hall, ?_, fun companion hmem => ?_⟩
    · rw [hdecided.ids]
      congr 1
      refine List.filter_congr fun props _ => decide_eq_decide.mpr ?_
      rw [hids blocked rfl, Bool.not_eq_true, (hunlocks records rfl).mem_ids]
    · obtain ⟨hunlocked, hdate, hstored⟩ := hdecided.dated companion hmem
      exact ⟨hunlocked, hdate, fun unlockedAt hat =>
        hstored (hunlocks records rfl).nodup unlockedAt (((hunlocks records rfl).mem _ _).mpr hat)⟩
  neverLost i userId companions hop hdone before after t hseen hbegins props hprops hunlocked := by
    obtain ⟨count, records, blocked, -, hrecords, hblocked, hdecided⟩ := decided_of_runs h hop hdone
    obtain ⟨moderated, _, hmoderated, -, hids⟩ := seenBy_of_mem h hblocked
    by_cases hblock : moderated.isBlocked props.id = true
    · exact .inr ⟨moderated, hmoderated, hblock⟩
    obtain ⟨rfl, c₁, -, hafter, rfl⟩ := hseen
    -- the unlocks are read after the check began
    rw [UnlocksRead, eventsOf_append, hbegins, List.nil_append] at hrecords
    obtain ⟨later, rest, rfl⟩ := List.append_of_mem (mem_of_mem_eventsOf hrecords)
    obtain ⟨c₂, hlater, hrest⟩ := hafter.split
    obtain ⟨_, -, ⟨-, hunlocks⟩, -⟩ := hrest.first
    have hread : props.id ∈ records.map CompanionUnlockRecord.companionId :=
      ((hunlocks records rfl).mem_ids _).mpr (isSome_unlocks_of_runs hlater hunlocked)
    refine .inl ?_
    rw [hdecided.ids, List.mem_map]
    refine ⟨props, List.mem_filter.mpr ⟨hprops, decide_eq_true ⟨?_, .inl hread⟩⟩, rfl⟩
    rwa [hids blocked rfl]
  dated before after t hseen userId companionId unlockedAt hstored := dated_of_fresh h hfresh hseen hstored

/-! ## Runs of a user with three stories -/

/-- The clients are there. -/
def clientsThere : Supabase := ⟨true, true, fun _ => true⟩

/-- The user. -/
def mia : Text := lit "11111111-2222-4333-8444-555555555555"

/-- The row of each of her stories. -/
def miaRow : StoryRow where
  userId := mia
  title := lit "Moon"
  content := lit "Once."
  theme := lit "moon"
  status := .completed
  audioUrl := none
  createdAt := 0
  generatedAt := none

/-- The keys of the rows. -/
def miaStoryIds : List Text :=
  [lit "11111111-2222-4333-8444-000000000001", lit "11111111-2222-4333-8444-000000000002",
    lit "11111111-2222-4333-8444-000000000003"]

/-- The tables with those stories only. -/
def miaTables : UnlockTables where
  db :=
    { stories := fun id => if id ∈ miaStoryIds then some miaRow else none
      moments := fun _ => none
      blocks := fun _ _ => none
      feedback := fun _ => none }
  unlocks _ _ := none

/-- The rows, as they are listed. -/
def miaRows : List (Text × StoryRow) := miaStoryIds.map fun id => (id, miaRow)

theorem listing_mia : Listing miaTables.db mia miaRows where
  mem id row := by
    rw [miaRows, List.mem_map]
    constructor
    · rintro ⟨_, hid, heq⟩
      obtain ⟨rfl, rfl⟩ := Prod.mk.inj heq
      exact ⟨if_pos hid, rfl⟩
    · rintro ⟨hrow, -⟩
      obtain ⟨hid, hrow⟩ := Option.ite_none_right_eq_some.mp hrow
      exact ⟨id, hid, Prod.ext rfl (Option.some.inj hrow)⟩
  nodup := by
    refine List.Nodup.map (fun _ _ h => congrArg Prod.fst h) ?_
    rw [miaStoryIds]
    repeat rw [lit_ofList]
    decide +kernel
  newest := List.pairwise_map.mpr (List.pairwise_of_forall fun _ _ => le_rfl)

/-- A check of hers. -/
abbrev miaCheck : UnlockOperation := .checkUnlock mia

/-- What a check goes on with when it has read three stories and no unlocks. -/
def miaUnlocking : UnlockProc (List DreamCompanion) := do
  let unlockedById ← CheckUnlockUseCase.unlockDue clientsThere mia 3 [] availableCompanions fun _ => none
  pure (CheckUnlockUseCase.unlockedCompanions [] unlockedById)

/-- What a check has read there. -/
def miaReadings : List UnlockEvent :=
  [⟨.storage (.selectStoriesOf mia none), .ok (.data miaRows)⟩, ⟨.selectUnlocks mia, .ok (.data [])⟩,
    ⟨.selectBlocked, .ok (.data [])⟩]

theorem length_miaRows : ∃ stories, SupabaseStoryRepository.storiesOf clientsThere miaRows = .ok stories ∧
    stories.length = 3 := by
  have hsome : ((SupabaseStoryRepository.storiesOf clientsThere miaRows).toOption.map List.length) = some 3 := by
    rw [miaRows, miaStoryIds, miaRow, mia]
    repeat rw [lit_ofList]
    decide +kernel
  cases hstories : SupabaseStoryRepository.storiesOf clientsThere miaRows with
  | error e =>
    rw [hstories] at hsome
    cases hsome
  | ok stories =>
    rw [hstories] at hsome
    exact ⟨stories, rfl, Option.some.inj hsome⟩

/-- What a check reads where no character is blocked. -/
def readings (userId : Text) (rows : List (Text × StoryRow)) (records : List CompanionUnlockRecord) :
    List UnlockEvent :=
  [⟨.storage (.selectStoriesOf userId none), .ok (.data rows)⟩, ⟨.selectUnlocks userId, .ok (.data records)⟩,
    ⟨.selectBlocked, .ok (.data [])⟩]

/-- What it goes on with. -/
def counted (userId : Text) (count : ℕ) (records : List CompanionUnlockRecord) :
    UnlockProc (List DreamCompanion) := do
  let unlockedById ← CheckUnlockUseCase.unlockDue clientsThere userId count [] availableCompanions
    (mapOf (records.map fun u => (u.companionId, u.unlockedAt)))
  pure (CheckUnlockUseCase.unlockedCompanions [] unlockedById)

/-- A check reads, and goes on. -/
theorem leads_readings {userId : Text} {rows : List (Text × StoryRow)} {records : List CompanionUnlockRecord}
    {stories : List StoryProps} (hstories : SupabaseStoryRepository.storiesOf clientsThere rows = .ok stories) :
    Leads (readings userId rows records) (CheckUnlockUseCase.execute clientsThere userId)
      (counted userId stories.length records) := by
  refine ⟨_, rfl, ?_⟩
  show Leads _ (Proc.bind (onStorage (Proc.catchWith
    (Moderation.ofExcept (SupabaseStoryRepository.storiesOf clientsThere rows)) _)) _) _
  rw [hstories]
  exact ⟨_, rfl, _, rfl, rfl⟩

theorem leads_miaReadings : Leads miaReadings (CheckUnlockUseCase.execute clientsThere mia) miaUnlocking := by
  obtain ⟨stories, hstories, hlength⟩ := length_miaRows
  have hleads := @leads_readings mia _ [] _ hstories
  rw [hlength] at hleads
  exact hleads

theorem chain_miaReadings : Chain unlockEnv (fun _ _ => True) miaTables miaReadings miaTables := by
  refine .cons trivial ⟨⟨rfl, ?_⟩, rfl⟩ (.cons trivial ⟨rfl, ?_⟩ (.cons trivial ⟨rfl, ?_⟩ .nil))
  · rintro _ ⟨⟩
    exact ⟨miaRows, listing_mia, rfl⟩
  · rintro _ ⟨⟩
    exact ⟨by simp [miaTables], List.nodup_nil, .nil⟩
  · rintro _ ⟨⟩ id
    simp [UnlockTables.isBlocked, miaTables]

/-- What the check does then. -/
def lunaStored (time : Time) : List UnlockEvent :=
  [⟨.now, .ok time⟩, ⟨.upsertUnlock mia (lit "c_luna") time, .ok (.data ())⟩]

/-- What it returns. -/
def lunaAt (time : Time) : List DreamCompanion :=
  CheckUnlockUseCase.unlockedCompanions [] (Function.update (fun _ => none) (lit "c_luna") (some time))

theorem chain_lunaStored (tables : UnlockTables) (time : Time) : Chain unlockEnv (fun _ _ => True) tables
    (lunaStored time) (tables.withUnlock mia (lit "c_luna") time) :=
  .cons trivial ⟨rfl, time, rfl⟩ (.cons trivial (.inl rfl) .nil)

theorem leads_lunaStored (time : Time) : Leads (lunaStored time) miaUnlocking (.done (.ok (lunaAt time))) :=
  ⟨_, rfl, _, rfl, rfl⟩

/-- One check alone. -/
theorem runs_miaCheck (time : Time) : UnlockRuns (unlocking clientsThere (fun _ : Unit => miaCheck) miaTables)
    ((miaReadings ++ lunaStored time).map fun event => ((), event))
    ⟨miaTables.withUnlock mia (lit "c_luna") time, fun _ => .done (.ok (lunaAt time))⟩ := by
  have hreads := Runs.of_leads (fun _ : Unit => miaCheck.task clientsThere) () chain_miaReadings
    leads_miaReadings
  have hstores := Runs.of_leads (Function.update (fun _ : Unit => miaCheck.task clientsThere) () miaUnlocking)
    () (chain_lunaStored miaTables time) (leads_lunaStored time)
  exact hreads.append hstores

/-- Noon. -/
def noon : Time := ⟨43200000, by decide⟩

/-- An hour later. -/
def oneOClock : Time := ⟨46800000, by decide⟩

theorem fresh_miaCheck : Fresh (unlocking clientsThere (fun _ : Unit => miaCheck) miaTables)
    ⟨miaTables.withUnlock mia (lit "c_luna") noon, fun _ => .done (.ok (lunaAt noon))⟩
    ((miaReadings ++ lunaStored noon).map fun event => ((), event)) := by
  intro before i userId companionId unlockedAt reply after t hseen stored hstored
  obtain ⟨hlog, c₁, hbefore, -, rfl⟩ := hseen
  -- nothing is stored before the last step
  have hreads : ∀ entry ∈ (miaReadings ++ [(⟨.now, .ok noon⟩ : UnlockEvent)]).map fun event => ((), event),
      ∀ userId companionId unlockedAt, entry.2.effect ≠ .upsertUnlock userId companionId unlockedAt := by
    simp [miaReadings]
  have hlast : ((miaReadings ++ [(⟨.now, .ok noon⟩ : UnlockEvent)]).map fun event => ((), event)) ++
      [((), ⟨.upsertUnlock mia (lit "c_luna") noon, .ok (.data ())⟩)] = _ := hlog
  rcases split_concat hlast with ⟨rfl, -⟩ | ⟨after', hentry⟩
  · have hnone : c₁.state.unlocks = miaTables.unlocks := hbefore.unchanged (f := UnlockTables.unlocks) ?_
    · rw [hnone] at hstored
      cases hstored
    · intro entry hmem s s' hstep
      refine (unlocks_step hstep).resolve_right ?_
      rintro ⟨u, c, d, heffect, -⟩
      exact hreads entry hmem u c d heffect
  · exact absurd rfl (hreads _ (hentry ▸ List.mem_append_right _ List.mem_cons_self) userId companionId unlockedAt)

/-- A check that unlocks a companion at noon. -/
theorem unlock_law_mia : UnlockLaw (unlocking clientsThere (fun _ : Unit => miaCheck) miaTables)
      ⟨miaTables.withUnlock mia (lit "c_luna") noon, fun _ => .done (.ok (lunaAt noon))⟩
      ((miaReadings ++ lunaStored noon).map fun event => ((), event)) (fun _ => miaCheck) ∧
    (lunaAt noon).map (fun c => (c.id, c.unlockedAt)) = [(lit "c_luna", some noon)] :=
  ⟨unlock_law _ _ _ _ _ (runs_miaCheck noon) fresh_miaCheck, by decide +kernel⟩

/-- Two checks that read before either of them stores: the later one overwrites the date. -/
theorem overlapping_checks_change_date : ∃ log c',
    UnlockRuns (unlocking clientsThere (fun _ : Bool => miaCheck) miaTables) log c' ∧
      ¬ UnlockLaw (unlocking clientsThere (fun _ : Bool => miaCheck) miaTables) c' log fun _ => miaCheck := by
  have hreads : UnlockRuns (unlocking clientsThere (fun _ : Bool => miaCheck) miaTables) _
      ⟨miaTables, Function.update (Function.update _ false miaUnlocking) true miaUnlocking⟩ :=
    (Runs.of_leads _ false chain_miaReadings leads_miaReadings).append
      (Runs.of_leads _ true chain_miaReadings leads_miaReadings)
  have hnoon := hreads.append (Runs.of_leads _ false (chain_lunaStored _ noon) (leads_lunaStored noon))
  have hlater := Runs.of_leads (Function.update (Function.update (Function.update
    (fun _ : Bool => miaCheck.task clientsThere) false miaUnlocking) true miaUnlocking) false
      (.done (.ok (lunaAt noon)))) true (chain_lunaStored (miaTables.withUnlock mia (lit "c_luna") noon) oneOClock)
    (leads_lunaStored oneOClock)
  refine ⟨_, _, hnoon.append hlater, fun h => ?_⟩
  have hdated := h.dated _ _ _ ⟨rfl, _, hnoon, hlater, rfl⟩ mia (lit "c_luna") noon (by simp)
  simp [noon, oneOClock] at hdated

end DreamWeaver.Companions
