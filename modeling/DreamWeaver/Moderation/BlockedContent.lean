import DreamWeaver.Moderation.ContentUseCases

/-! # Blocked stories

A story that is blocked stays blocked. The use cases that give stories out do not look at its status: its
owner gets it, a valid link leads to it, and the listings of its owner have it. It is not given out where
none of these is asked for. -/

namespace DreamWeaver.Moderation

open Proc Stories
open Sharing (PublicStory ShareEffect ShareProc SharedLink SharedContentResult storyToPublicJSON shareEnv)

/-! ## What a call gives out -/

/-- The story is blocked. -/
def Platform.Blocked (platform : Platform) (id : Text) : Prop := platform.database.Blocks .story id

/-- The ids of the stories whose content a result has. -/
def ContentResult.served : ContentResult → List Text
  | .story given => [given.id]
  | .shared (some ⟨_, some (.story given), _⟩) => [given.id]
  | .stories given => given.map StoryProps.id
  | .publicStories given => given.map PublicStory.id
  | _ => []

/-- The result has the content of the story. -/
def ContentResult.Serves (id : Text) (result : ContentResult) : Prop := id ∈ result.served

/-- The number of stories that a history fetches, of so many that the user has. -/
def GetStoryHistoryInput.fetched (input : GetStoryHistoryInput) (total : ℕ) : ℕ :=
  match input.filter, input.limit.getD (.finite 10) with
  | some .recent, .finite x => min ⌊x⌋.toNat total
  | _, _ => total

/-- The number of stories that a history returns, of so many that it has fetched. -/
def GetStoryHistoryInput.returned (input : GetStoryHistoryInput) (fetched : ℕ) : ℕ :=
  if input.exceeds fetched then sliceLength (input.limit.getD .nan) fetched else fetched

/-- The number of stories that a history returns, of so many that the user has. -/
def GetStoryHistoryInput.shown (input : GetStoryHistoryInput) (total : ℕ) : ℕ :=
  input.returned (input.fetched total)

/-- A listing of a user that returns so many stories has one: fewer are newer. -/
def Lists (db : Database) (userId id : Text) (shown : ℕ → ℕ) : Prop :=
  ∃ all row, Listing db userId all ∧ (id, row) ∈ all ∧
    (all.countP fun other => row.createdAt < other.2.createdAt) < shown all.length

/-- **A call that asks for a story**: by its owner, with a link to it that is valid, or by a listing of its
owner. -/
def ContentOperation.AsksFor (isUrl : Text → Bool) (platform : Platform) (id : Text) :
    ContentOperation → Prop
  | .getStory userId storyId => storyId = id ∧ ∃ row story, platform.database.stories id = some row ∧
      mapRowToStory isUrl id row = .ok story ∧ story.ownerId = userId
  | .getSharedContent token => ∃ link, platform.sharing.links token = some link ∧ link.type = .story ∧
      link.resourceId = id ∧ link.isValid platform.sharing.now = true
  | .getStoryHistory input => Lists platform.database input.userId id input.shown
  | .demoHistory => Lists platform.database demoUser id fun total => min 20 total
  | _ => False

variable {clients : Supabase} {db : Database} {platform : Platform} {id : Text}

/-! ## Listings -/

/-- The rows before the `k`-th of a listing have less than `k` newer ones. -/
theorem countP_newer_lt {α : Type} (time : α → ℕ) {rows : List α}
    (hnewest : rows.Pairwise fun a b => time b ≤ time a) {row : α} {k : ℕ} (hmem : row ∈ rows.take k) :
    (rows.countP fun other => time row < time other) < k := by
  induction rows generalizing k with
  | nil => simp at hmem
  | cons first rest ih =>
    obtain ⟨hfirst, hrest⟩ := List.pairwise_cons.mp hnewest
    cases k with
    | zero => simp at hmem
    | succ k =>
      rw [List.take_succ_cons] at hmem
      rcases List.mem_cons.mp hmem with rfl | hmem
      · have hzero : (rest.countP fun other => time row < time other) = 0 :=
          List.countP_eq_zero.mpr fun other hother => by simpa using hfirst other hother
        rw [List.countP_cons_of_neg (by simp), hzero]
        exact Nat.zero_lt_succ k
      · have hless := ih hrest hmem
        have hone := List.countP_cons (p := fun other => decide (time row < time other)) (a := first) (l := rest)
        split at hone <;> omega

/-- The stories of rows, in their order. -/
theorem mem_take_storiesOf {rows : List (Text × StoryRow)} {stories : List StoryProps}
    (h : SupabaseStoryRepository.storiesOf clients rows = .ok stories) :
    stories.length = rows.length ∧
      ∀ k, ∀ story ∈ stories.take k, ∃ row ∈ rows.take k, row.1 = story.id := by
  induction rows generalizing stories with
  | nil =>
    cases h
    exact ⟨rfl, fun k story hmem => by simp at hmem⟩
  | cons row rows ih =>
    rw [SupabaseStoryRepository.storiesOf, List.mapM_cons] at h
    cases hrow : mapRowToStory clients.isUrl row.1 row.2 with
    | error e =>
      rw [hrow] at h
      cases h
    | ok first =>
      rw [hrow] at h
      cases hrest : SupabaseStoryRepository.storiesOf clients rows with
      | error e =>
        rw [SupabaseStoryRepository.storiesOf] at hrest
        rw [hrest] at h
        cases h
      | ok rest =>
        obtain ⟨hlength, hmem⟩ := ih hrest
        rw [SupabaseStoryRepository.storiesOf] at hrest
        rw [hrest] at h
        cases h
        refine ⟨congrArg Nat.succ hlength, fun k story hstory => ?_⟩
        cases k with
        | zero => simp at hstory
        | succ k =>
          rw [List.take_succ_cons] at hstory ⊢
          rcases List.mem_cons.mp hstory with rfl | hstory
          · exact ⟨row, List.mem_cons_self, (mapRowToStory_ok hrow).1.symm⟩
          · obtain ⟨row', hrow', hid⟩ := hmem k story hstory
            exact ⟨row', List.mem_cons_of_mem _ hrow', hid⟩

/-- A story that a listing returns is one of those that it has. -/
theorem lists_of_mem {userId : Text} {all : List (Text × StoryRow)} {shown : ℕ → ℕ}
    (hall : Listing db userId all) {row : Text × StoryRow} (hmem : row ∈ all.take (shown all.length)) :
    Lists db userId row.1 shown :=
  ⟨all, row.2, hall, List.mem_of_mem_take hmem, countP_newer_lt (fun r => r.2.createdAt) hall.newest hmem⟩

/-! ## What the use cases return -/

/-- Any answer. -/
abbrev Always : StorageEvent → Prop := fun _ => True

theorem endsIn_getStory {userId storyId : Text} :
    EndsIn Always (fun r db' => db' = db ∧ ∀ story, r = .ok story → story.id = storyId ∧
        ∃ row, db.stories storyId = some row ∧ mapRowToStory clients.isUrl storyId row = .ok story ∧
          story.ownerId = userId)
      (GetStoryUseCase.execute clients userId storyId) db := by
  refine Upholds.bind (endsIn_findStory.imp fun r db₁ h => ?_)
  obtain ⟨rfl, hfound⟩ := h
  cases r with
  | error e => exact ⟨rfl, fun _ h => nomatch h⟩
  | ok found =>
    cases found with
    | none => exact ⟨rfl, fun _ h => nomatch h⟩
    | some story =>
      obtain ⟨row, hrow, hstory⟩ := hfound
      dsimp only
      split
      · exact ⟨rfl, fun _ h => nomatch h⟩
      · rename_i howner
        refine ⟨rfl, ?_⟩
        rintro _ ⟨⟩
        exact ⟨(mapRowToStory_ok hstory).1, row, hrow, hstory, not_not.mp howner⟩

/-- The rows that a listing was answered with. -/
def Listed (clients : Supabase) (userId : Text) (limit : Option JsNumber) (db : Database)
    (stories : List StoryProps) : Prop :=
  ∃ all rows, Listing db userId all ∧ SupabaseStoryRepository.storiesOf clients rows = .ok stories ∧
    match limit with
    | none => rows = all
    | some limit => ∃ n : ℕ, limit = .finite n ∧ rows = all.take n

/-- A listing, with or without a limit. -/
theorem endsIn_listing {userId : Text} {limit : Option JsNumber} {message : String} :
    EndsIn Always (fun r db' => db' = db ∧ ∀ stories, r = .ok stories → Listed clients userId limit db stories)
      (requireClient clients.hasClient "Supabase client not initialized - Critical Infrastructure Missing" <|
        withRetry do
          let answer ← (perform (StorageEffect.selectStoriesOf userId limit) :
            StorageProc (Answer (List (Text × StoryRow))))
          let rows ← dataOrThrow message answer
          ofExcept (SupabaseStoryRepository.storiesOf clients rows)) db := by
  refine endsIn_requireClient (endsIn_withRetry (Upholds.bind (endsIn_query fun reply db' henv _ => ?_)))
    fun e => ⟨rfl, fun _ h => nomatch h⟩
  obtain ⟨rfl, hrows⟩ := henv
  cases reply with
  | error e => exact ⟨⟨rfl, fun _ h => nomatch h⟩, fun _ => rfl⟩
  | ok answer =>
    refine Upholds.bind (endsIn_dataOrThrow ?_ ?_)
    · rintro rows rfl
      obtain ⟨all, hall, hlimit⟩ := hrows rows rfl
      refine endsIn_ofExcept ⟨⟨rfl, fun stories h => ⟨all, rows, hall, h, ?_⟩⟩, fun _ => rfl⟩
      cases limit with
      | none => exact hlimit
      | some limit => exact hlimit
    · rintro _ rfl e
      exact ⟨⟨rfl, fun _ h => nomatch h⟩, fun _ => rfl⟩

/-- The stories of the first rows of a listing are among those that it has. -/
theorem Listing.lists {userId : Text} {all rows : List (Text × StoryRow)} {stories : List StoryProps}
    {fetched : ℕ} {shown : ℕ → ℕ} (hall : Listing db userId all) (hrows : rows = all.take fetched)
    (hstories : SupabaseStoryRepository.storiesOf clients rows = .ok stories) {story : StoryProps}
    (hmem : story ∈ stories.take (shown all.length)) : Lists db userId story.id shown := by
  obtain ⟨row, hrow, hid⟩ := (mem_take_storiesOf hstories).2 _ story hmem
  rw [hrows, List.take_take] at hrow
  rw [← hid]
  exact lists_of_mem hall (List.take_subset_take_left all (min_le_left _ _) hrow)

/-- What a history fetches. -/
theorem endsIn_fetchStories {input : GetStoryHistoryInput} :
    EndsIn Always (fun r db' => db' = db ∧ ∀ stories, r = .ok stories →
        ∃ all rows, Listing db input.userId all ∧ rows = all.take (input.fetched all.length) ∧
          SupabaseStoryRepository.storiesOf clients rows = .ok stories ∧
          stories.length = input.fetched all.length)
      (fetchStories clients input) db := by
  have hother : ∀ stories, Listed clients input.userId none db stories →
      (∀ total, input.fetched total = total) →
      ∃ all rows, Listing db input.userId all ∧ rows = all.take (input.fetched all.length) ∧
        SupabaseStoryRepository.storiesOf clients rows = .ok stories ∧
        stories.length = input.fetched all.length := by
    rintro stories ⟨all, rows, hall, hstories, rfl⟩ hfetched
    refine ⟨rows, rows, hall, ?_, hstories, ?_⟩
    · rw [hfetched, List.take_length]
    · rw [hfetched, (mem_take_storiesOf hstories).1]
  unfold fetchStories
  cases hfilter : input.filter with
  | none =>
    refine endsIn_listing.imp fun r db' h => ⟨h.1, fun stories hr => hother stories (h.2 stories hr) ?_⟩
    intro total
    rw [GetStoryHistoryInput.fetched, hfilter]
  | some filter =>
    cases filter with
    | recent =>
      refine endsIn_listing.imp fun r db' h => ⟨h.1, fun stories hr => ?_⟩
      obtain ⟨all, rows, hall, hstories, n, hn, hrows⟩ := h.2 stories hr
      have hfetched : input.fetched all.length = min n all.length := by
        rw [GetStoryHistoryInput.fetched, hfilter, hn]
        simp
      refine ⟨all, rows, hall, ?_, hstories, ?_⟩
      · rw [hrows, hfetched, ← List.take_take, List.take_length]
      · rw [(mem_take_storiesOf hstories).1, hrows, List.length_take, hfetched]
    | all =>
      refine endsIn_listing.imp fun r db' h => ⟨h.1, fun stories hr => hother stories (h.2 stories hr) ?_⟩
      intro total
      rw [GetStoryHistoryInput.fetched, hfilter]
    | starred =>
      refine endsIn_listing.imp fun r db' h => ⟨h.1, fun stories hr => hother stories (h.2 stories hr) ?_⟩
      intro total
      rw [GetStoryHistoryInput.fetched, hfilter]

/-- The stories that a history returns are those that it has. -/
theorem endsIn_getStoryHistory {input : GetStoryHistoryInput} :
    EndsIn Always (fun r db' => db' = db ∧ ∀ stories, r = .ok stories → ∀ story ∈ stories,
        Lists db input.userId story.id input.shown)
      (GetStoryHistoryUseCase.execute clients input) db := by
  unfold GetStoryHistoryUseCase.execute
  split
  · exact ⟨rfl, fun _ h => nomatch h⟩
  · refine Upholds.bind (endsIn_fetchStories.imp fun r db₁ h => ?_)
    obtain ⟨rfl, hfetched⟩ := h
    cases r with
    | error e => exact ⟨rfl, fun _ h => nomatch h⟩
    | ok stories =>
      obtain ⟨all, rows, hall, hrows, hstories, hlength⟩ := hfetched stories rfl
      have htake : ∀ story ∈ stories.take (input.shown all.length), Lists db₁ input.userId story.id input.shown :=
        fun story hmem => hall.lists hrows hstories hmem
      rw [GetStoryHistoryInput.shown, GetStoryHistoryInput.returned, ← hlength] at htake
      dsimp only
      split
      · rename_i hexceeds
        rw [if_pos hexceeds] at htake
        refine ⟨rfl, ?_⟩
        rintro _ ⟨⟩
        exact htake
      · rename_i hexceeds
        rw [if_neg hexceeds, List.take_length] at htake
        refine ⟨rfl, ?_⟩
        rintro _ ⟨⟩
        exact htake

theorem endsIn_demoHistory :
    EndsIn Always (fun r db' => db' = db ∧ ∀ stories, r = .ok stories → ∀ story ∈ stories,
        Lists db demoUser story.id fun total => min 20 total)
      (demoHistory clients) db := by
  refine Upholds.bind (endsIn_listing.imp fun r db₁ h => ?_)
  obtain ⟨rfl, hlisted⟩ := h
  cases r with
  | error e => exact ⟨rfl, fun _ h => nomatch h⟩
  | ok stories =>
    refine ⟨rfl, ?_⟩
    rintro _ ⟨⟩ story hstory
    obtain ⟨given, hgiven, rfl⟩ := List.mem_map.mp hstory
    obtain ⟨all, rows, hall, hstories, n, hn, hrows⟩ := hlisted stories rfl
    have hn : n = 20 := by
      have := JsNumber.finite.inj hn
      exact_mod_cast this.symm
    subst hn
    refine hall.lists hrows hstories ?_
    rw [List.take_of_length_le]
    · exact hgiven
    · rw [(mem_take_storiesOf hstories).1, hrows, List.length_take]

/-! ## Shared content -/

/-- What an operation ends in, on the platform. -/
abbrev Leads {α : Type} (clients : Supabase) (Q : Except JsError α → Platform → Prop) (p : PlatformProc α)
    (platform : Platform) : Prop :=
  p.Upholds (platformEnv clients.isUrl) (fun _ _ => True) Q platform

/-- An operation on the tables ends on the platform in what it ends in. -/
theorem leads_onStorage {α : Type} {Q : Except JsError α → Database → Prop} {p : StorageProc α}
    (h : EndsIn Always Q p platform.database) :
    Leads clients (fun r platform' => Q r platform'.database) (onStorage p) platform := by
  refine Upholds.embed ?_
  exact @Upholds.view _ _ _ _ (storageWith Always) (fun _ _ => True) p Q Platform Platform.database _ platform
    (fun _ _ _ _ hreply => ⟨hreply.1, trivial⟩) h

/-- What an operation on shared links ends in, on the platform. -/
abbrev ShareLeads {α : Type} (clients : Supabase) (Q : Except JsError α → Platform → Prop) (p : ShareProc α)
    (platform : Platform) : Prop :=
  p.Upholds (fun platform effect => platformEnv clients.isUrl platform (.share effect)) (fun _ _ => True) Q
    platform

theorem leads_onSharing {α : Type} {Q : Except JsError α → Platform → Prop} {p : ShareProc α}
    (h : ShareLeads clients Q p platform) : Leads clients Q (onSharing p) platform := Upholds.embed h

/-- A link that is valid was valid before. -/
theorem isValid_of_le {link : SharedLink} {now later : ℕ} (hle : now ≤ later)
    (h : link.isValid later = true) : link.isValid now = true := by
  rw [SharedLink.isValid, Bool.and_eq_true, decide_eq_true_eq] at h ⊢
  exact ⟨hle.trans_lt h.1, h.2⟩

/-- Some time has passed, and no table has changed. -/
structure Later (platform platform' : Platform) : Prop where
  database : platform'.database = platform.database
  now : platform.sharing.now ≤ platform'.sharing.now

theorem Later.trans {platform₁ platform₂ : Platform} (h₁ : Later platform platform₁)
    (h₂ : Later platform₁ platform₂) : Later platform platform₂ :=
  ⟨h₂.database.trans h₁.database, h₁.now.trans h₂.now⟩

/-- A query, of which is known what its replies are. -/
theorem shareLeads_ask {query : Sharing.Query} {P : query.Result → Prop}
    (hquery : ∀ reply platform', platformEnv clients.isUrl platform (.share (.carryOut query)) reply platform' →
      Later platform platform' ∧ ∀ result, reply = .ok result → P result) :
    ShareLeads clients (fun r platform' => Later platform platform' ∧ ∀ result now, r = .ok (result, now) →
        P result ∧ platform.sharing.now ≤ now) (Sharing.ask query) platform := by
  refine Upholds.bind (upholds_perform_true fun reply platform₁ hreply => ?_)
  obtain ⟨hlater, hresult⟩ := hquery reply platform₁ hreply
  cases reply with
  | error e => exact ⟨hlater, fun _ _ h => nomatch h⟩
  | ok result =>
    refine Upholds.bind (upholds_perform_true fun reply platform₂ harrives => ?_)
    obtain ⟨⟨hnow, -, hreply⟩, hdatabase⟩ := harrives
    have hlater₂ : Later platform platform₂ := hlater.trans ⟨hdatabase, hnow⟩
    cases reply with
    | error e => exact ⟨hlater₂, fun _ _ h => nomatch h⟩
    | ok now =>
      refine ⟨hlater₂, ?_⟩
      rintro _ _ ⟨⟩
      refine ⟨hresult result rfl, ?_⟩
      rw [Except.ok.inj hreply]
      exact hlater.now

/-- A link that is found is in the table, and arrives later. -/
theorem shareLeads_findByToken {token : Text} :
    ShareLeads clients (fun r platform' => Later platform platform' ∧ ∀ link now, r = .ok (some (link, now)) →
        platform.sharing.links token = some link ∧ platform.sharing.now ≤ now)
      (Sharing.findByToken token) platform := by
  have hquery : ∀ reply platform',
      platformEnv clients.isUrl platform (.share (.carryOut (.getSharedLinkByToken token))) reply platform' →
        Later platform platform' ∧ ∀ found, reply = .ok found → found = platform.sharing.links token := by
    rintro reply platform' ⟨⟨hnow, -, hfound⟩, hdatabase⟩
    exact ⟨⟨hdatabase, hnow⟩, hfound⟩
  refine Upholds.catchWith (Upholds.bind ((shareLeads_ask hquery).imp fun r platform₁ h => ?_))
  obtain ⟨hlater, hresult⟩ := h
  cases r with
  | error e => exact ⟨hlater, fun _ _ h => nomatch h⟩
  | ok result =>
    obtain ⟨found, now⟩ := result
    obtain ⟨hfound, hnow⟩ := hresult found now rfl
    refine ⟨hlater, fun link now' h => ?_⟩
    obtain ⟨link', hlink, hpair⟩ := Option.map_eq_some_iff.mp (Except.ok.inj h)
    cases hpair
    exact ⟨hfound.symm.trans hlink, hnow⟩

theorem shareLeads_incrementViews {token : Text} :
    ShareLeads clients (fun _ platform' => Later platform platform') (Sharing.incrementViews token) platform := by
  have hquery : ∀ reply platform',
      platformEnv clients.isUrl platform (.share (.carryOut (.incrementSharedLinkViews token))) reply platform' →
        Later platform platform' ∧ ∀ result, reply = .ok result → True :=
    fun reply platform' h => ⟨⟨h.2, h.1.1⟩, fun _ _ => trivial⟩
  refine Upholds.catchWith (Upholds.bind ((shareLeads_ask hquery).imp fun r platform₁ h => ?_))
  cases r with
  | error e => exact h.1
  | ok _ => exact h.1

/-- The story that a link leads to has the id of the link. -/
theorem shareLeads_contentOf {link : SharedLink} :
    ShareLeads clients (fun r platform' => Later platform platform' ∧ ∀ given, r = .ok (some (.story given)) →
        link.type = .story ∧ given.id = link.resourceId)
      (Sharing.contentOf link) platform := by
  unfold Sharing.contentOf
  split
  · rename_i htype
    have hquery : ∀ reply platform',
        platformEnv clients.isUrl platform (.share (.carryOut (.findStory link.resourceId))) reply platform' →
          Later platform platform' ∧ ∀ found, reply = .ok found → ∀ story ∈ found, story.id = link.resourceId := by
      rintro reply platform' ⟨⟨hnow, -⟩, hdatabase, hfound⟩
      refine ⟨⟨hdatabase, hnow⟩, ?_⟩
      rintro _ rfl story hstory
      obtain ⟨row, -, hmap⟩ := hfound story (by rw [Option.mem_def.mp hstory])
      exact (mapRowToStory_ok hmap).1
    refine Upholds.bind ((shareLeads_ask hquery).imp fun r platform₁ h => ?_)
    obtain ⟨hlater, hresult⟩ := h
    cases r with
    | error e => exact ⟨hlater, fun _ h => nomatch h⟩
    | ok result =>
      refine ⟨hlater, fun given h => ⟨htype, ?_⟩⟩
      obtain ⟨story, hstory, hgiven⟩ := Option.map_eq_some_iff.mp (Except.ok.inj h)
      cases hgiven
      exact (hresult result.1 result.2 rfl).1 story hstory
  · have hquery : ∀ reply platform',
        platformEnv clients.isUrl platform (.share (.carryOut (.findMoment link.resourceId))) reply platform' →
          Later platform platform' ∧ ∀ result, reply = .ok result → True :=
      fun reply platform' h => ⟨⟨h.2, h.1.1⟩, fun _ _ => trivial⟩
    refine Upholds.bind ((shareLeads_ask hquery).imp fun r platform₁ h => ?_)
    cases r with
    | error e => exact ⟨h.1, fun _ h => nomatch h⟩
    | ok result =>
      refine ⟨h.1, fun given h => ?_⟩
      obtain ⟨moment, -, hgiven⟩ := Option.map_eq_some_iff.mp (Except.ok.inj h)
      cases hgiven

/-- **A story that is shared** is that of a link that is valid. -/
theorem shareLeads_execute {token : Text} :
    ShareLeads clients (fun r platform' => platform'.database = platform.database ∧
        ∀ result, r = .ok result → ∀ id, (ContentResult.shared result).Serves id →
          ContentOperation.AsksFor clients.isUrl platform id (.getSharedContent token))
      (Sharing.execute token) platform := by
  refine Upholds.bind (shareLeads_findByToken.imp fun r platform₁ h => ?_)
  obtain ⟨hlater, hfound⟩ := h
  cases r with
  | error e => exact ⟨hlater.database, fun _ h => nomatch h⟩
  | ok found =>
    cases found with
    | none =>
      refine ⟨hlater.database, ?_⟩
      rintro _ ⟨⟩ id hserves
      cases hserves
    | some found =>
      obtain ⟨link, now⟩ := found
      obtain ⟨hlink, hnow⟩ := hfound link now rfl
      dsimp only
      split
      · refine ⟨hlater.database, ?_⟩
        rintro _ ⟨⟩ id hserves
        cases hserves
      · rename_i hvalid
        rw [Bool.not_eq_true, Bool.not_eq_false'] at hvalid
        refine Upholds.bind (shareLeads_incrementViews.imp fun r platform₂ hviews => ?_)
        have hlater₂ := hlater.trans hviews
        cases r with
        | error e => exact ⟨hlater₂.database, fun _ h => nomatch h⟩
        | ok _ =>
          refine Upholds.bind (shareLeads_contentOf.imp fun r platform₃ hcontent => ?_)
          have hdatabase := (hlater₂.trans hcontent.1).database
          cases r with
          | error e => exact ⟨hdatabase, fun _ h => nomatch h⟩
          | ok content =>
            cases content with
            | none =>
              refine ⟨hdatabase, ?_⟩
              rintro _ ⟨⟩ id hserves
              cases hserves
            | some content =>
              refine ⟨hdatabase, ?_⟩
              rintro _ ⟨⟩ id hserves
              cases content with
              | moment moment => cases hserves
              | story given =>
                obtain ⟨htype, hid⟩ := hcontent.2 given rfl
                have hgiven : id = given.id := List.mem_singleton.mp hserves
                exact ⟨link, hlink, htype, hid.symm.trans hgiven.symm, isValid_of_le hnow hvalid⟩

/-! ## Calls -/

/-- What a call comes to: it unblocks nothing, and gives out only what it asks for. -/
def Answers (clients : Supabase) (op : ContentOperation) (platform : Platform)
    (r : Except JsError ContentResult) (platform' : Platform) : Prop :=
  KeepsBlocked platform.database platform'.database ∧
    ∀ result, r = .ok result → ∀ id, result.Serves id → op.AsksFor clients.isUrl platform id

/-- A call that gives out nothing. -/
theorem answers_of_not_serves {op : ContentOperation} {r : Except JsError ContentResult} {platform' : Platform}
    (hkeeps : KeepsBlocked platform.database platform'.database)
    (hserves : ∀ result id, r = .ok result → ¬ result.Serves id) : Answers clients op platform r platform' :=
  ⟨hkeeps, fun result h id hid => absurd hid (hserves result id h)⟩

/-- A read of the tables. -/
theorem leads_read {α : Type} {op : ContentOperation} {p : StorageProc α} {result : α → ContentResult}
    (h : EndsIn Always (fun r db' => db' = platform.database ∧ ∀ a, r = .ok a →
      ∀ id, (result a).Serves id → op.AsksFor clients.isUrl platform id) p platform.database) :
    Leads clients (Answers clients op platform) (do
      let a ← onStorage p
      pure (result a)) platform := by
  refine Upholds.bind ((leads_onStorage h).imp fun r platform' hread => ?_)
  have hkeeps : KeepsBlocked platform.database platform'.database :=
    keepsBlocked_of_stories (congrArg Database.stories hread.1)
  cases r with
  | error e => exact ⟨hkeeps, fun _ h => nomatch h⟩
  | ok a =>
    refine ⟨hkeeps, ?_⟩
    rintro _ ⟨⟩
    exact hread.2 a rfl

/-- Sharing changes no table. -/
theorem leads_createShareLink {request : CreateShareLinkRequest} {token : Text} {maxViews expiresAt : ℕ} :
    Leads clients (fun _ platform' => platform'.database = platform.database)
      (CreateShareLinkUseCase.execute clients request token maxViews expiresAt) platform := by
  have hcheck : EndsIn Always (fun _ db' => db' = platform.database) (checkOwner clients request)
      platform.database := by
    unfold checkOwner
    cases request.type with
    | story =>
      refine Upholds.bind (endsIn_findStory.imp fun r db₁ h => ?_)
      obtain ⟨rfl, -⟩ := h
      cases r with
      | error e => rfl
      | ok story =>
        dsimp only
        split <;> rfl
    | moment =>
      refine Upholds.bind (endsIn_findMoment.imp fun r db₁ h => ?_)
      subst h
      cases r with
      | error e => rfl
      | ok moment =>
        dsimp only
        split <;> rfl
  refine Upholds.bind ((leads_onStorage hcheck).imp fun r platform₁ h => ?_)
  cases r with
  | error e => exact h
  | ok _ =>
    refine Upholds.bind (upholds_perform_true fun reply platform₂ hreply => ?_)
    have hsame : platform₂.database = platform.database := hreply.1.trans h
    cases reply with
    | error e => exact hsame
    | ok answer => cases answer <;> exact hsame

/-- A new story takes the place of none. -/
theorem leads_saveNewStory {props : StoryProps} :
    Leads clients (fun _ platform' => KeepsBlocked platform.database platform'.database)
      (saveNewStory clients props) platform := by
  refine Upholds.bind (upholds_perform_true fun reply platform₁ hreply => ?_)
  obtain ⟨rfl, hfresh⟩ := hreply
  cases reply with
  | error e => exact keepsBlocked_of_stories rfl
  | ok id =>
    dsimp only
    cases hstory : Story.create clients.isUrl { props with id := id } with
    | error e => exact keepsBlocked_of_stories rfl
    | ok story =>
      refine Upholds.bind ((leads_onStorage endsIn_saveStory).imp fun r platform₂ hsave => ?_)
      have hid : story.props.id = id := by rw [Story.props_of_create hstory]
      cases r with
      | error e => exact keepsBlocked_of_stories (congrArg Database.stories hsave)
      | ok _ =>
        intro other hblocked
        obtain ⟨row, hrow, hstatus⟩ := hblocked
        have hne : other ≠ story.props.id := by
          rintro rfl
          rw [hid, hfresh id rfl] at hrow
          cases hrow
        refine ⟨row, ?_, hstatus⟩
        rw [show platform₂.database = _ from hsave]
        exact (Function.update_of_ne hne ..).trans hrow

/-- **What a call comes to**, whatever the replies are. -/
theorem leads_task (op : ContentOperation) :
    Leads clients (Answers clients op platform) (op.task clients) platform := by
  cases op with
  | getStory userId storyId =>
    refine leads_read (endsIn_getStory.imp fun r db' h => ⟨h.1, fun story hr id hserves => ?_⟩)
    obtain ⟨hid, row, hrow, hmap, howner⟩ := h.2 story hr
    obtain rfl : storyId = id := hid.symm.trans (List.mem_singleton.mp hserves).symm
    exact ⟨rfl, row, story, hrow, hmap, howner⟩
  | getSharedContent token =>
    refine Upholds.bind ((leads_onSharing shareLeads_execute).imp fun r platform' h => ?_)
    have hkeeps := keepsBlocked_of_stories (congrArg Database.stories h.1)
    cases r with
    | error e => exact ⟨hkeeps, fun _ h => nomatch h⟩
    | ok result =>
      refine ⟨hkeeps, ?_⟩
      rintro _ ⟨⟩
      exact h.2 result rfl
  | getStoryHistory input =>
    refine leads_read (endsIn_getStoryHistory.imp fun r db' h => ⟨h.1, ?_⟩)
    intro stories hr id hserves
    obtain ⟨story, hstory, rfl⟩ := List.mem_map.mp hserves
    exact h.2 stories hr story hstory
  | demoHistory =>
    refine leads_read (endsIn_demoHistory.imp fun r db' h => ⟨h.1, ?_⟩)
    intro stories hr id hserves
    obtain ⟨story, hstory, rfl⟩ := List.mem_map.mp hserves
    exact h.2 stories hr story hstory
  | createShareLink request token maxViews expiresAt =>
    refine Upholds.bind (leads_createShareLink.imp fun r platform' h => ?_)
    have hkeeps := keepsBlocked_of_stories (congrArg Database.stories h)
    cases r with
    | error e => exact answers_of_not_serves hkeeps fun _ _ h => nomatch h
    | ok link => exact answers_of_not_serves hkeeps (by rintro _ _ ⟨⟩; exact List.not_mem_nil)
  | reviewFeedback input now =>
    refine Upholds.bind ((leads_onStorage endsIn_reviewFeedback).imp fun r platform' h => ?_)
    cases r with
    | error e => exact answers_of_not_serves h.2 fun _ _ h => nomatch h
    | ok output => exact answers_of_not_serves h.2 (by rintro _ _ ⟨⟩; exact List.not_mem_nil)
  | saveNewStory props =>
    refine Upholds.bind (leads_saveNewStory.imp fun r platform' h => ?_)
    cases r with
    | error e => exact answers_of_not_serves h fun _ _ h => nomatch h
    | ok story => exact answers_of_not_serves h (by rintro _ _ ⟨⟩; exact List.not_mem_nil)

/-! ## Runs -/

/-- A call on the platform. -/
abbrev ContentCall := Call ContentOperation Platform PlatformEffect PlatformEffect.Reply ContentResult

/-- A call that asks for no story that is blocked. -/
def ContentCall.Harmless (clients : Supabase) (call : ContentCall) : Prop :=
  ∀ id, call.before.Blocked id → ¬ call.op.AsksFor clients.isUrl call.before id

/-- **No call gives out a story** that was blocked before it, or before a call before it. -/
def NeverServed (calls : List ContentCall) : Prop :=
  ∀ earlier call later, calls = earlier ++ call :: later →
    ∀ id, (∃ before ∈ earlier ++ [call], before.before.Blocked id) →
      ∀ result, call.result = .ok result → ¬ result.Serves id

variable {calls : List ContentCall} {platform' : Platform}

/-- **What is blocked stays blocked**, along a run. -/
theorem blocked_of_sequence
    (h : Sequence (platformEnv clients.isUrl) (ContentOperation.task clients) platform calls platform')
    {call : ContentCall} (hmem : call ∈ calls) (hblocked : call.before.Blocked id) : platform'.Blocked id := by
  have hall : ∀ call ∈ calls, ∀ id, call.before.Blocked id → platform'.Blocked id := by
    have hany : ∀ call ∈ calls, (fun _ : ContentCall => True) call := fun _ _ => trivial
    refine h.invariant (J := fun calls platform => ∀ call ∈ calls, ∀ id, call.before.Blocked id →
      platform.Blocked id) hany (fun _ hcall => nomatch hcall) ?_
    intro calls platform₁ op log r platform₂ hbefore _ hrun call hcall id hid
    obtain ⟨hkeeps, -⟩ := (hrun.upheld (leads_task op)).1
    rcases List.mem_append.mp hcall with hcall | hcall
    · exact hkeeps id (hbefore call hcall id hid)
    · rw [List.mem_singleton.mp hcall] at hid
      exact hkeeps id hid
  exact hall call hmem id hblocked

/-- **Blocked stories are not given out** in any run whose calls, from the block on, do not ask for them: in
every order of sharing, blocking and reading. -/
theorem never_served
    (h : Sequence (platformEnv clients.isUrl) (ContentOperation.task clients) platform calls platform')
    (hharmless : ∀ call ∈ calls, call.Harmless clients) : NeverServed calls := by
  rintro earlier call later rfl id ⟨before, hbefore, hblocked⟩ result hresult hserves
  obtain ⟨hearlier, platform₁, hrun⟩ := h.split
  have hnow : call.before.Blocked id := by
    rcases List.mem_append.mp hbefore with hbefore | hbefore
    · exact blocked_of_sequence hearlier hbefore hblocked
    · rwa [List.mem_singleton.mp hbefore] at hblocked
  obtain ⟨-, hasks⟩ := (hrun.upheld (leads_task call.op)).1
  exact hharmless call (by simp) id hnow (hasks result hresult id hserves)

/-- The replies where every query succeeds, apart from listings. -/
def platformAnswering (isUrl : Text → Bool) : (effect : PlatformEffect) → Platform →
    Except JsError effect.Reply × Platform
  | .storage effect, platform =>
    ((answering effect platform.database).1, ⟨(answering effect platform.database).2, platform.sharing⟩)
  | .share (.carryOut (.getSharedLinkByToken token)), platform => (.ok (platform.sharing.links token), platform)
  | .share (.carryOut (.incrementSharedLinkViews token)), platform => (.ok (), { platform with
      sharing := ⟨Sharing.incrementSharedLinkViews token platform.sharing.now platform.sharing.links,
        platform.sharing.now⟩ })
  | .share (.carryOut (.findStory id)), platform =>
    (.ok ((platform.database.stories id).bind fun row => (mapRowToStory isUrl id row).toOption), platform)
  | .share (.carryOut (.findMoment _)), platform => (.ok none, platform)
  | .share (.arrive _), platform => (.ok platform.sharing.now, platform)
  | .insertLink link, platform => (.ok (.data ()), { platform with
      sharing := ⟨Function.update platform.sharing.links link.token (some link), platform.sharing.now⟩ })
  | .randomUUID, platform => (.error ⟨lit "Error", lit "no entropy"⟩, platform)

theorem platformEnv_answering (isUrl : Text → Bool) (effect : PlatformEffect) (platform : Platform) :
    platformEnv isUrl platform effect (platformAnswering isUrl effect platform).1
      (platformAnswering isUrl effect platform).2 := by
  cases effect with
  | storage effect => exact ⟨storageEnv_answering effect platform.database, rfl⟩
  | share effect =>
    cases effect with
    | arrive query => exact ⟨⟨le_rfl, rfl, rfl⟩, rfl⟩
    | carryOut query =>
      cases query with
      | getSharedLinkByToken token => exact ⟨⟨le_rfl, rfl, fun found h => (Except.ok.inj h).symm⟩, rfl⟩
      | incrementSharedLinkViews token => exact ⟨⟨le_rfl, .inl rfl⟩, rfl⟩
      | findMoment id => exact ⟨⟨le_rfl, rfl⟩, rfl⟩
      | findStory id =>
        refine ⟨⟨le_rfl, rfl⟩, rfl, fun story h => ?_⟩
        obtain ⟨row, hrow, hmap⟩ := Option.bind_eq_some_iff.mp (Except.ok.inj h)
        refine ⟨row, hrow, ?_⟩
        cases hstory : mapRowToStory isUrl id row with
        | error e =>
          rw [hstory] at hmap
          cases hmap
        | ok found =>
          rw [hstory] at hmap
          rw [Option.some.inj hmap]
  | insertLink link => exact ⟨rfl, rfl⟩
  | randomUUID => exact ⟨rfl, fun _ h => nomatch h⟩

/-- A platform with a story that is flagged, and a link to it. -/
def sharedPlatform : Platform where
  database := flagged (some moonRow)
  sharing := ⟨fun token => if token = lit "abcd" then some ⟨moonId, .story, lit "abcd", 3, 0, 100⟩ else none, 0⟩

/-- The calls of operations on that platform. -/
def contentCalls (ops : List ContentOperation) : List ContentCall × Platform :=
  recordCalls (ContentOperation.task bothClients) (platformAnswering fun _ => true) ops [] sharedPlatform

theorem sequence_contentCalls (ops : List ContentOperation) :
    Sequence (platformEnv bothClients.isUrl) (ContentOperation.task bothClients) sharedPlatform
      (contentCalls ops).1 (contentCalls ops).2 :=
  sequence_recordCalls (platformEnv_answering _) ops .start

/-- The story is banned, and then another user asks for it. -/
def banThenStranger : List ContentOperation :=
  [.reviewFeedback (banOf "flag") 1, .getStory (lit "stranger") moonId]

/-- Nobody but its owner is given the story. -/
theorem never_served_stranger : NeverServed (contentCalls banThenStranger).1 := by
  refine never_served (sequence_contentCalls banThenStranger) fun call hcall => ?_
  rcases List.mem_cons.mp hcall with rfl | hcall
  · exact fun id _ hasks => hasks
  · obtain rfl := List.mem_singleton.mp hcall
    rintro id - ⟨rfl, row, story, hrow, hmap, howner⟩
    have hstored : ((contentCalls [.reviewFeedback (banOf "flag") 1]).2.database.stories moonId).map
        StoryRow.userId = some moonOwner := by decide +kernel
    rw [show (contentCalls [.reviewFeedback (banOf "flag") 1]).2.database.stories moonId = some row from hrow,
      Option.map_some, Option.some_inj] at hstored
    have hstranger : lit "stranger" = moonOwner :=
      howner.symm.trans ((mapRowToStory_ok hmap).2.1.trans hstored)
    rw [moonOwner, lit_ofList, lit_ofList] at hstranger
    exact absurd hstranger (by decide)

/-- The story is banned, and then its owner asks for it, and somebody who has the link. -/
def banThenReads : List ContentOperation :=
  [.reviewFeedback (banOf "flag") 1, .getStory moonOwner moonId, .getSharedContent (lit "abcd")]

/-- What the result of a call gives out. -/
def ContentCall.given (call : ContentCall) : List Text :=
  match call.result with
  | .ok result => result.served
  | .error _ => []

theorem ContentCall.exists_of_given {call : ContentCall} (h : id ∈ call.given) :
    ∃ result, call.result = .ok result ∧ result.Serves id := by
  rw [ContentCall.given] at h
  cases hresult : call.result with
  | error e =>
    rw [hresult] at h
    cases h
  | ok result =>
    rw [hresult] at h
    exact ⟨result, rfl, h⟩

/-- Both are given the story, which is blocked. -/
theorem blocked_served :
    Sequence (platformEnv bothClients.isUrl) (ContentOperation.task bothClients) sharedPlatform
        (contentCalls banThenReads).1 (contentCalls banThenReads).2 ∧
      (contentCalls banThenReads).1.map ContentCall.given = [[], [moonId], [moonId]] ∧
      ¬ NeverServed (contentCalls banThenReads).1 := by
  have hgiven : (contentCalls banThenReads).1.map ContentCall.given = [[], [moonId], [moonId]] := by
    decide +kernel
  have hstatus : (contentCalls banThenReads).1.map (fun call =>
      (call.before.database.stories moonId).map StoryRow.status) =
        [some .completed, some .blocked, some .blocked] := by
    decide +kernel
  refine ⟨sequence_contentCalls banThenReads, hgiven, fun h => ?_⟩
  obtain ⟨ban, own, shared, hcalls⟩ : ∃ ban own shared, (contentCalls banThenReads).1 = [ban, own, shared] :=
    ⟨_, _, _, rfl⟩
  rw [hcalls] at hgiven hstatus
  have hblocked : shared.before.Blocked moonId := by
    obtain ⟨row, hrow, hrowstatus⟩ := Option.map_eq_some_iff.mp (List.cons.inj (List.cons.inj (List.cons.inj
      hstatus).2).2).1
    exact ⟨row, hrow, hrowstatus⟩
  have hserved : moonId ∈ shared.given := by
    have hthird : shared.given = [moonId] := (List.cons.inj (List.cons.inj (List.cons.inj hgiven).2).2).1
    rw [hthird]
    exact List.mem_singleton.mpr rfl
  obtain ⟨result, hresult, hserves⟩ := ContentCall.exists_of_given hserved
  exact h [ban, own] shared [] hcalls moonId ⟨shared, by simp, hblocked⟩ result hresult hserves

end DreamWeaver.Moderation
