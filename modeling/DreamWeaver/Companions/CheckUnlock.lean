import DreamWeaver.Foundations.IsoDate
import DreamWeaver.Moderation.Repositories

/-! # Unlocking companions

`CheckUnlockUseCase` (`api/src/application/use-cases/CheckUnlockUseCase.ts`) on the stories of a user, the unlocks in
`companion_unlocks` (`api/src/infrastructure/SupabaseCompanionUnlockRepository.ts`) and the characters that moderation
has blocked. What a check returns is decided by what it has read; an unlock that is stored stays stored, but a check
that has not seen it may store it again with another date. -/

namespace DreamWeaver.Companions

open Proc Stories Moderation

/-! ## Companions -/

/-- `CompanionSpecies` -/
inductive CompanionSpecies where
  | owl
  | fox
  | bear
  | rabbit
  | dragon
  | cat
  deriving DecidableEq

/-- `DreamCompanionProps` -/
structure DreamCompanionProps where
  id : Text
  name : Text
  species : CompanionSpecies
  description : Text
  unlockThreshold : ℕ
  isUnlocked : Bool
  unlockedAt : Option Time := none
  deriving DecidableEq

/-- `DreamCompanion` -/
structure DreamCompanion extends DreamCompanionProps
  deriving DecidableEq

/-- `DreamCompanion.create` -/
def DreamCompanion.create (props : DreamCompanionProps) : DreamCompanion := ⟨props⟩

/-- `AVAILABLE_COMPANIONS` -/
def availableCompanions : List DreamCompanionProps := [
  { id := lit "c_luna"
    name := lit "Luna the Owl"
    species := .owl
    description := lit "A wise owl who loves stories about the moon."
    unlockThreshold := 3
    isUnlocked := false },
  { id := lit "c_rusty"
    name := lit "Rusty the Fox"
    species := .fox
    description := lit "A clever fox who enjoys adventures in the forest."
    unlockThreshold := 5
    isUnlocked := false },
  { id := lit "c_barnaby"
    name := lit "Barnaby the Bear"
    species := .bear
    description := lit "A gentle giant who loves cozy bedtime tales."
    unlockThreshold := 10
    isUnlocked := false }]

/-! ## Effects -/

/-- `CompanionUnlockRecord` -/
structure CompanionUnlockRecord where
  companionId : Text
  unlockedAt : Time

/-- What the checks await, and what else happens to the tables. -/
inductive UnlockEffect where
  | storage (effect : StorageEffect)
  /-- `from('companion_unlocks').select(…).eq('user_id', userId)`, oldest first. -/
  | selectUnlocks (userId : Text)
  /-- `from('companion_unlocks').upsert(…, { onConflict: 'user_id,companion_id' })` -/
  | upsertUnlock (userId companionId : Text) (unlockedAt : Time)
  /-- `from('moderation_blocks').select('content_id').eq('content_type', 'character')` -/
  | selectBlocked
  /-- A row of `stories` is deleted. -/
  | deleteStory (id : Text)
  /-- `new Date()` -/
  | now

/-- The values that effects resolve with. -/
abbrev UnlockEffect.Reply : UnlockEffect → Type
  | .storage effect => effect.Reply
  | .selectUnlocks _ => Answer (List CompanionUnlockRecord)
  | .upsertUnlock _ _ _ => Answer Unit
  | .selectBlocked => Answer (List Text)
  | .deleteStory _ => Unit
  | .now => Time

/-- A procedure with these effects. -/
abbrev UnlockProc := Proc UnlockEffect UnlockEffect.Reply

/-- An effect with its reply. -/
abbrev UnlockEvent := Event UnlockEffect UnlockEffect.Reply

/-- The tables, and when the companions of a user were unlocked. -/
structure UnlockTables where
  db : Database
  unlocks : Text → Text → Option Time

/-- The tables with an unlock. -/
def UnlockTables.withUnlock (t : UnlockTables) (userId companionId : Text) (unlockedAt : Time) : UnlockTables :=
  { t with
    unlocks := Function.update t.unlocks userId
      (Function.update (t.unlocks userId) companionId (some unlockedAt)) }

/-- A character is blocked. -/
def UnlockTables.isBlocked (t : UnlockTables) (id : Text) : Bool := (t.db.blocks .character id).isSome

/-- The unlocks of a user, oldest first. -/
structure Unlocks (t : UnlockTables) (userId : Text) (records : List CompanionUnlockRecord) : Prop where
  mem : ∀ id unlockedAt, ⟨id, unlockedAt⟩ ∈ records ↔ t.unlocks userId id = some unlockedAt
  nodup : (records.map CompanionUnlockRecord.companionId).Nodup
  oldest : records.Pairwise fun a b => a.unlockedAt.ms ≤ b.unlockedAt.ms

/-- The answers, and the tables afterwards. An upsert that is not answered with data may have been carried out. -/
def unlockEnv : Env UnlockTables UnlockEffect UnlockEffect.Reply := fun t effect =>
  match effect with
  | .storage effect => fun reply t' => storageEnv t.db effect reply t'.db ∧ t'.unlocks = t.unlocks
  | .selectUnlocks userId => fun reply t' => t' = t ∧ ∀ records, reply = .ok (.data records) → Unlocks t userId records
  | .upsertUnlock userId companionId unlockedAt => fun reply t' =>
    t' = t.withUnlock userId companionId unlockedAt ∨ t' = t ∧ reply ≠ .ok (.data ())
  | .selectBlocked => fun reply t' => t' = t ∧ ∀ ids, reply = .ok (.data ids) → ∀ id, id ∈ ids ↔ t.isBlocked id = true
  | .deleteStory id => fun reply t' =>
    match reply with
    | .ok _ => t' = { t with db := { t.db with stories := Function.update t.db.stories id none } }
    | .error _ => t' = t
  | .now => fun reply t' => t' = t ∧ ∃ now, reply = .ok now

/-! ## The repositories -/

/-- A procedure of the other repositories. -/
def onStorage {α : Type} (p : StorageProc α) : UnlockProc α := Proc.embed UnlockEffect.storage p

/-- `withRetry` with its default options. -/
def withRetry {α : Type} (operation : UnlockProc α) : UnlockProc α :=
  retrying (fun attempt => onStorage (backoff attempt)) operation 3 0

variable (clients : Supabase)

namespace SupabaseCompanionUnlockRepository

/-- `listUnlockedByUserId` -/
def listUnlockedByUserId (userId : Text) : UnlockProc (List CompanionUnlockRecord) :=
  if clients.hasClient then
    withRetry do
      let answer ← (perform (UnlockEffect.selectUnlocks userId) : UnlockProc (Answer (List CompanionUnlockRecord)))
      onStorage (dataOrThrow "Failed to fetch companion unlocks: " answer)
  else throw ⟨lit "Error", lit "Supabase client not initialized - Critical Infrastructure Missing"⟩

/-- `upsertUnlock` -/
def upsertUnlock (userId companionId : Text) (unlockedAt : Time) : UnlockProc Unit :=
  if clients.hasClient then
    withRetry do
      let answer ← (perform (UnlockEffect.upsertUnlock userId companionId unlockedAt) : UnlockProc (Answer Unit))
      onStorage (dataOrThrow "Failed to upsert companion unlock: " answer)
  else throw ⟨lit "Error", lit "Supabase client not initialized"⟩

end SupabaseCompanionUnlockRepository

/-- `SupabaseModerationRepository.listBlockedCharacterIds` -/
def listBlockedCharacterIds : UnlockProc (List Text) :=
  if clients.supabaseAdmin then do
    let answer ← (perform UnlockEffect.selectBlocked : UnlockProc (Answer (List Text)))
    let ids ← onStorage (dataOrThrow "Failed to list blocked characters: " answer)
    pure (ids.filter fun id => !id.isEmpty)
  else throw ⟨lit "Error", lit "Supabase service role is required for moderation actions"⟩

/-! ## The use case -/

/-- `new Map(entries)` -/
def mapOf (entries : List (Text × Time)) : Text → Option Time :=
  entries.foldl (fun map entry => Function.update map entry.1 (some entry.2)) fun _ => none

namespace CheckUnlockUseCase

/-- The loop that unlocks what is due: not blocked, reached by the count and not unlocked. -/
def unlockDue (userId : Text) (count : ℕ) (blocked : List Text) :
    List DreamCompanionProps → (Text → Option Time) → UnlockProc (Text → Option Time)
  | [], unlockedById => pure unlockedById
  | props :: rest, unlockedById =>
    if props.id ∈ blocked ∨ count < props.unlockThreshold ∨ (unlockedById props.id).isSome = true then
      unlockDue userId count blocked rest unlockedById
    else do
      let unlockedAt ← (perform UnlockEffect.now : UnlockProc Time)
      SupabaseCompanionUnlockRepository.upsertUnlock clients userId props.id unlockedAt
      unlockDue userId count blocked rest (Function.update unlockedById props.id (some unlockedAt))

/-- The companions that are unlocked and not blocked. -/
def unlockedCompanions (blocked : List Text) (unlockedById : Text → Option Time) : List DreamCompanion :=
  availableCompanions.filterMap fun props =>
    if props.id ∈ blocked then none
    else (unlockedById props.id).map fun unlockedAt =>
      DreamCompanion.create { props with isUnlocked := true, unlockedAt := some unlockedAt }

/-- `execute` -/
def execute (userId : Text) : UnlockProc (List DreamCompanion) := do
  let stories ← onStorage (SupabaseStoryRepository.findByUserId clients userId)
  let existingUnlocks ← SupabaseCompanionUnlockRepository.listUnlockedByUserId clients userId
  let blocked ← listBlockedCharacterIds clients
  let unlockedById ← unlockDue clients userId stories.length blocked availableCompanions
    (mapOf (existingUnlocks.map fun u => (u.companionId, u.unlockedAt)))
  pure (unlockedCompanions blocked unlockedById)

end CheckUnlockUseCase

/-! ## What a check has read -/

/-- The stories of a user were read. -/
def StoriesRead (past : List UnlockEvent) (userId : Text) (count : ℕ) : Prop :=
  ∃ rows, (⟨.storage (.selectStoriesOf userId none), .ok (.data rows)⟩ : UnlockEvent) ∈ past ∧ rows.length = count

/-- The unlocks of a user were read. -/
def UnlocksRead (past : List UnlockEvent) (userId : Text) (records : List CompanionUnlockRecord) : Prop :=
  (⟨.selectUnlocks userId, .ok (.data records)⟩ : UnlockEvent) ∈ past

/-- The blocked characters were read. -/
def BlockedRead (past : List UnlockEvent) (ids : List Text) : Prop :=
  (⟨.selectBlocked, .ok (.data ids)⟩ : UnlockEvent) ∈ past

variable {clients : Supabase} {userId : Text}

/-- Where the procedure resolves, what it has done and its value are in `Q`. -/
abbrev Gives {α : Type} (Q : List UnlockEvent → α → Prop) (p : UnlockProc α) : Prop :=
  ∀ past, p.Ends (fun past' r => past <+: past' ∧ ∀ a, r = .ok a → Q past' a) past

theorem gives_of_ends {α : Type} {Q : List UnlockEvent → α → Prop} {p : UnlockProc α}
    (h : ∀ past, p.Ends (fun past' r => ∀ a, r = .ok a → Q past' a) past) : Gives Q p := fun past => (h past).frame

/-- A procedure of the other repositories, after what was done before it. -/
theorem ends_onStorage {α : Type} {Q : List UnlockEvent → Except JsError α → Prop} {p : StorageProc α}
    {past : List UnlockEvent}
    (h : p.Ends (fun past' r => Q (past ++ past'.map (Event.embed UnlockEffect.storage)) r) []) :
    (onStorage p).Ends Q past := by
  have hembed := @Ends.embed _ _ _ _ UnlockEffect.storage p Q past [] h
  rwa [List.map_nil, List.append_nil] at hembed

/-- Each row is made a story. -/
theorem length_storiesOf {rows : List (Text × StoryRow)} {stories : List StoryProps}
    (h : SupabaseStoryRepository.storiesOf clients rows = .ok stories) : stories.length = rows.length := by
  induction rows generalizing stories with
  | nil =>
    obtain rfl := Except.ok.inj h
    rfl
  | cons row rows ih =>
    rw [SupabaseStoryRepository.storiesOf, List.mapM_cons] at h
    obtain ⟨story, -, hrest⟩ := exists_of_bind_ok h
    obtain ⟨stories', hstories, hcons⟩ := exists_of_bind_ok hrest
    obtain rfl := Except.ok.inj hcons
    rw [List.length_cons, List.length_cons, ih hstories]

/-- The stories that are found are those of the rows that were read. -/
theorem gives_findByUserId : Gives (fun past stories => StoriesRead past userId stories.length)
    (onStorage (SupabaseStoryRepository.findByUserId clients userId)) := by
  refine gives_of_ends fun past => ends_onStorage ?_
  unfold SupabaseStoryRepository.findByUserId requireClient
  split
  · refine ends_retrying (fun past₁ => Ends.bind ?_) 3 0 []
    intro reply
    cases reply with
    | error e => exact fun _ heq => nomatch heq
    | ok answer =>
      cases answer with
      | error m => exact fun _ heq => nomatch heq
      | data rows =>
        show (ofExcept (SupabaseStoryRepository.storiesOf clients rows)).Ends _ _
        cases hstories : SupabaseStoryRepository.storiesOf clients rows with
        | error e => exact fun _ heq => nomatch heq
        | ok stories =>
          rintro stories' heq
          obtain rfl := Except.ok.inj heq
          refine ⟨rows, ?_, (length_storiesOf hstories).symm⟩
          simp [Event.embed]
  · exact fun _ heq => nomatch heq

theorem gives_listUnlockedByUserId : Gives (fun past records => UnlocksRead past userId records)
    (SupabaseCompanionUnlockRepository.listUnlockedByUserId clients userId) := by
  refine gives_of_ends fun past => ?_
  unfold SupabaseCompanionUnlockRepository.listUnlockedByUserId
  split
  · refine ends_retrying (fun past₁ => Ends.bind ?_) 3 0 past
    intro reply
    cases reply with
    | error e => exact fun _ heq => nomatch heq
    | ok answer =>
      cases answer with
      | error m => exact fun _ heq => nomatch heq
      | data records =>
        intro records' heq
        obtain rfl := Except.ok.inj heq
        exact List.mem_append_right _ (List.mem_singleton_self _)
  · exact fun _ heq => nomatch heq

theorem gives_listBlockedCharacterIds : Gives (fun past ids => ∃ all, BlockedRead past all ∧
    ids = all.filter fun id => !id.isEmpty) (listBlockedCharacterIds clients) := by
  refine gives_of_ends fun past => ?_
  unfold listBlockedCharacterIds
  split
  · refine Ends.bind ?_
    intro reply
    cases reply with
    | error e => exact fun _ heq => nomatch heq
    | ok answer =>
      cases answer with
      | error m => exact fun _ heq => nomatch heq
      | data ids =>
        rintro ids' heq
        obtain rfl := Except.ok.inj heq
        exact ⟨ids, List.mem_append_right _ (List.mem_singleton_self _), rfl⟩
  · exact fun _ heq => nomatch heq

/-- **The loop** keeps what is unlocked and adds what is due. -/
theorem gives_unlockDue {count : ℕ} {blocked : List Text} (due : List DreamCompanionProps)
    (unlockedById : Text → Option Time) : Gives (fun _ after =>
      (∀ id unlockedAt, unlockedById id = some unlockedAt → after id = some unlockedAt) ∧
      ∀ id, (after id).isSome = true ↔ (unlockedById id).isSome = true ∨
        ∃ props ∈ due, props.id = id ∧ id ∉ blocked ∧ props.unlockThreshold ≤ count)
    (CheckUnlockUseCase.unlockDue clients userId count blocked due unlockedById) := by
  induction due generalizing unlockedById with
  | nil =>
    refine gives_of_ends fun past after heq => ?_
    obtain rfl := Except.ok.inj heq
    exact ⟨fun _ _ h => h, fun id => by simp⟩
  | cons props rest ih =>
    unfold CheckUnlockUseCase.unlockDue
    split
    · rename_i hskip
      refine fun past => (ih unlockedById past).imp fun past' r hrest => ⟨hrest.1, fun after heq => ?_⟩
      obtain ⟨hkept, hiff⟩ := hrest.2 after heq
      refine ⟨hkept, fun id => (hiff id).trans ⟨?_, ?_⟩⟩
      · rintro (hold | ⟨other, hmem, hother⟩)
        · exact .inl hold
        · exact .inr ⟨other, List.mem_cons_of_mem props hmem, hother⟩
      · rintro (hold | ⟨other, hmem, rfl, hnot, hreached⟩)
        · exact .inl hold
        · rcases List.mem_cons.mp hmem with rfl | hmem
          · rcases hskip with hblocked | hfew | hold
            · exact absurd hblocked hnot
            · exact absurd hreached (Nat.not_le.mpr hfew)
            · exact .inl hold
          · exact .inr ⟨other, hmem, rfl, hnot, hreached⟩
    · rename_i hdue
      obtain ⟨hnot, hdue⟩ := not_or.mp hdue
      obtain ⟨hreached, hnew⟩ := not_or.mp hdue
      refine gives_of_ends fun past => Ends.bind ?_
      intro reply
      cases reply with
      | error e => exact fun _ heq => nomatch heq
      | ok unlockedAt =>
        refine Ends.bind (ends_of_forall fun past' r => ?_)
        cases r with
        | error e => exact fun _ heq => nomatch heq
        | ok _ =>
          refine (ih _ past').imp fun past'' r hrest after heq => ?_
          obtain ⟨hkept, hiff⟩ := hrest.2 after heq
          refine ⟨fun id old hold => hkept id old ?_, fun id => (hiff id).trans ?_⟩
          · rw [Function.update_of_ne, hold]
            rintro rfl
            exact hnew (by rw [hold]; rfl)
          · by_cases hid : id = props.id
            · subst hid
              rw [Function.update_self]
              refine iff_of_true (.inl rfl) (.inr ⟨props, List.mem_cons_self, rfl, hnot, Nat.not_lt.mp hreached⟩)
            · rw [Function.update_of_ne hid]
              constructor
              · rintro (hold | ⟨other, hmem, hother⟩)
                · exact .inl hold
                · exact .inr ⟨other, List.mem_cons_of_mem props hmem, hother⟩
              · rintro (hold | ⟨other, hmem, rfl, hother⟩)
                · exact .inl hold
                · rcases List.mem_cons.mp hmem with rfl | hmem
                  · exact absurd rfl hid
                  · exact .inr ⟨other, hmem, rfl, hother⟩

/-! ### Maps -/

theorem mapOf_concat (entries : List (Text × Time)) (entry : Text × Time) :
    mapOf (entries ++ [entry]) = Function.update (mapOf entries) entry.1 (some entry.2) := by
  rw [mapOf, List.foldl_append, List.foldl_cons, List.foldl_nil, mapOf]

/-- A map has the keys of its entries. -/
theorem isSome_mapOf (entries : List (Text × Time)) (id : Text) :
    (mapOf entries id).isSome = true ↔ id ∈ entries.map Prod.fst := by
  induction entries using List.reverseRecOn with
  | nil => simp [mapOf]
  | append_singleton entries entry ih =>
    rw [mapOf_concat, List.map_append, List.mem_append]
    by_cases hid : id = entry.1
    · subst hid
      simp
    · rw [Function.update_of_ne hid, ih]
      simp [hid]

/-- Under distinct keys a map has its entries. -/
theorem mapOf_of_mem {entries : List (Text × Time)} (hnodup : (entries.map Prod.fst).Nodup) {id : Text}
    {unlockedAt : Time} (hmem : (id, unlockedAt) ∈ entries) : mapOf entries id = some unlockedAt := by
  induction entries using List.reverseRecOn with
  | nil => cases hmem
  | append_singleton entries entry ih =>
    rw [mapOf_concat]
    rw [List.map_append, List.nodup_append] at hnodup
    rcases List.mem_append.mp hmem with hmem | hmem
    · have hne : id ≠ entry.1 := hnodup.2.2 id (List.mem_map_of_mem hmem) entry.1 (List.mem_singleton_self _)
      rw [Function.update_of_ne hne]
      exact ih hnodup.1 hmem
    · obtain rfl := List.mem_singleton.mp hmem
      exact Function.update_self ..

/-! ### A check -/

/-- What a check returns, after what it has read: the companions that are not blocked, and that were unlocked or have
their threshold reached; one that was unlocked with the date of its unlock. -/
structure Decided (count : ℕ) (records : List CompanionUnlockRecord) (blocked : List Text)
    (companions : List DreamCompanion) : Prop where
  ids : companions.map (fun c => c.id) = (availableCompanions.filter fun props => props.id ∉ blocked ∧
    (props.id ∈ records.map CompanionUnlockRecord.companionId ∨ props.unlockThreshold ≤ count)).map
      fun props => props.id
  dated : ∀ c ∈ companions, c.isUnlocked = true ∧ c.unlockedAt.isSome = true ∧
    ((records.map CompanionUnlockRecord.companionId).Nodup →
      ∀ unlockedAt, ⟨c.id, unlockedAt⟩ ∈ records → c.unlockedAt = some unlockedAt)

/-- The companion of props, if it is unlocked and not blocked. -/
theorem mem_unlockedCompanions {blocked : List Text} {unlockedById : Text → Option Time} {c : DreamCompanion}
    (h : c ∈ CheckUnlockUseCase.unlockedCompanions blocked unlockedById) : c.isUnlocked = true ∧
      ∃ unlockedAt, unlockedById c.id = some unlockedAt ∧ c.unlockedAt = some unlockedAt := by
  obtain ⟨props, -, hprops⟩ := List.mem_filterMap.mp h
  obtain ⟨-, hunlocked⟩ := Option.ite_none_left_eq_some.mp hprops
  obtain ⟨unlockedAt, hat, rfl⟩ := Option.map_eq_some_iff.mp hunlocked
  exact ⟨rfl, unlockedAt, hat, rfl⟩

theorem ids_unlockedCompanions (blocked : List Text) (unlockedById : Text → Option Time) :
    (CheckUnlockUseCase.unlockedCompanions blocked unlockedById).map (fun c => c.id) =
      (availableCompanions.filter fun props => props.id ∉ blocked ∧ (unlockedById props.id).isSome = true).map
        fun props => props.id := by
  unfold CheckUnlockUseCase.unlockedCompanions
  induction availableCompanions with
  | nil => rfl
  | cons props rest ih =>
    rw [List.filterMap_cons, List.filter_cons]
    by_cases hblocked : props.id ∈ blocked
    · rw [if_pos hblocked, if_neg (by simp [hblocked])]
      exact ih
    · rw [if_neg hblocked]
      cases hat : unlockedById props.id with
      | none =>
        rw [if_neg (by simp)]
        exact ih
      | some unlockedAt =>
        rw [if_pos (by simp [hblocked]), List.map_cons, ← ih]
        rfl

/-- No companion has an empty id. -/
theorem id_ne_nil : ∀ props ∈ availableCompanions, props.id.isEmpty = false := by decide

theorem nodup_ids : (availableCompanions.map fun props => props.id).Nodup := by decide

/-- The loop has decided. -/
theorem decided_of_loop {count : ℕ} {records : List CompanionUnlockRecord} {all : List Text}
    {unlockedById : Text → Option Time}
    (hkept : ∀ id unlockedAt, mapOf (records.map fun u => (u.companionId, u.unlockedAt)) id = some unlockedAt →
      unlockedById id = some unlockedAt)
    (hiff : ∀ id, (unlockedById id).isSome = true ↔
      (mapOf (records.map fun u => (u.companionId, u.unlockedAt)) id).isSome = true ∨
        ∃ props ∈ availableCompanions, props.id = id ∧ id ∉ (all.filter fun id => !id.isEmpty) ∧
          props.unlockThreshold ≤ count) :
    Decided count records all
      (CheckUnlockUseCase.unlockedCompanions (all.filter fun id => !id.isEmpty) unlockedById) := by
  have hkeys : (records.map fun u => (u.companionId, u.unlockedAt)).map Prod.fst =
      records.map CompanionUnlockRecord.companionId := by
    rw [List.map_map]
    rfl
  refine ⟨?_, fun c hc => ?_⟩
  · rw [ids_unlockedCompanions]
    congr 1
    refine List.filter_congr fun props hprops => decide_eq_decide.mpr ?_
    have hmem : props.id ∈ (all.filter fun id => !id.isEmpty) ↔ props.id ∈ all := by
      rw [List.mem_filter, id_ne_nil props hprops]
      exact and_iff_left rfl
    rw [hiff, isSome_mapOf, hkeys, hmem]
    refine and_congr_right fun hblocked => or_congr_right ⟨?_, fun hreached => ?_⟩
    · rintro ⟨other, hother, hid, -, hreached⟩
      obtain rfl := List.inj_on_of_nodup_map nodup_ids hother hprops hid
      exact hreached
    · exact ⟨props, hprops, rfl, hblocked, hreached⟩
  · obtain ⟨hunlocked, unlockedAt, hat, hdate⟩ := mem_unlockedCompanions hc
    refine ⟨hunlocked, by rw [hdate]; rfl, fun hnodup stored hstored => ?_⟩
    have hmap : mapOf (records.map fun u => (u.companionId, u.unlockedAt)) c.id = some stored :=
      mapOf_of_mem (hkeys ▸ hnodup) (List.mem_map.mpr ⟨_, hstored, rfl⟩)
    rw [hdate, ← hat, hkept _ _ hmap]

/-- **A check** decides by what it has read. -/
theorem gives_execute : Gives (fun past companions => ∃ count records blocked, StoriesRead past userId count ∧
    UnlocksRead past userId records ∧ BlockedRead past blocked ∧ Decided count records blocked companions)
    (CheckUnlockUseCase.execute clients userId) := by
  refine gives_of_ends fun past => Ends.bind ((gives_findByUserId past).imp fun past₁ r hstories => ?_)
  cases r with
  | error e => exact fun _ heq => nomatch heq
  | ok stories =>
    refine Ends.bind ((gives_listUnlockedByUserId past₁).imp fun past₂ r hunlocks => ?_)
    cases r with
    | error e => exact fun _ heq => nomatch heq
    | ok records =>
      refine Ends.bind ((gives_listBlockedCharacterIds past₂).imp fun past₃ r hblocked => ?_)
      cases r with
      | error e => exact fun _ heq => nomatch heq
      | ok blocked =>
        refine Ends.bind ((gives_unlockDue availableCompanions _ past₃).imp fun past₄ r hdue => ?_)
        cases r with
        | error e => exact fun _ heq => nomatch heq
        | ok unlockedById =>
          intro companions heq
          obtain rfl := Except.ok.inj heq
          obtain ⟨rows, hrows, hcount⟩ := hstories.2 stories rfl
          obtain ⟨all, hall, rfl⟩ := hblocked.2 blocked rfl
          refine ⟨stories.length, records, all, ⟨rows, ?_, hcount⟩, ?_, ?_, ?_⟩
          · exact (hunlocks.1.trans (hblocked.1.trans hdue.1)).subset hrows
          · exact (hblocked.1.trans hdue.1).subset (hunlocks.2 records rfl)
          · exact hdue.1.subset hall
          · exact decided_of_loop (hdue.2 unlockedById rfl).1 (hdue.2 unlockedById rfl).2

end DreamWeaver.Companions
