import DreamWeaver.Digest.SendWeeklyDigest

/-! # The digest and its share link

The digest asks for a share link without saying whose it is, and `CreateShareLinkUseCase` makes links only for the
owner of what they lead to. Each of the two does what it is for: a request in the name of the owner makes a link,
and a digest whose link is made is sent. Composed as in the container, every digest of a week with stories is
refused, and no email is sent. -/

namespace DreamWeaver.Digest

open Stories Sharing Proc

/-! ## The world -/

/-- What the repositories hold, the emails that were sent, and the time. -/
structure DigestWorld where
  now : ℕ
  stories : List StoryProps
  moments : List MomentProps
  links : List SharedLinkProps
  emails : List Email

variable {w w₁ w₂ w' : DigestWorld} {zone : LocalZone} {publicAppUrl : Text} {input : WeeklyDigestInput}

/-- Time has passed. -/
def DigestWorld.Later (w w' : DigestWorld) : Prop := ∃ now, w.now ≤ now ∧ w' = { w with now := now }

theorem DigestWorld.Later.refl (w : DigestWorld) : w.Later w := ⟨w.now, le_rfl, rfl⟩

theorem DigestWorld.Later.trans (h : w.Later w₁) (h' : w₁.Later w₂) : w.Later w₂ := by
  obtain ⟨t, ht, rfl⟩ := h
  obtain ⟨u, hu, rfl⟩ := h'
  exact ⟨u, ht.trans hu, rfl⟩

/-- `limit` stories of a user, the latest first; those of one time are in any order. -/
def IsRecent (stories : List StoryProps) (userId : Text) (limit : ℕ) (found : List StoryProps) : Prop :=
  ∃ order : List StoryProps, order.Perm (stories.filter fun story => story.ownerId = userId) ∧
    order.Pairwise (fun a b => b.createdAt ≤ a.createdAt) ∧ found = order.take limit

/-- The replies of repositories and of a mailer that do not fail, and the world afterwards. Time passes while they
are awaited. -/
def reliableEnv : Env DigestWorld DigestEffect DigestEffect.Reply := fun w effect =>
  match effect with
  | .clock => fun reply w' => reply = .ok w.now ∧ w' = w
  | .randomBytes size => fun reply w' => (∃ bytes : List UInt8, bytes.length = size ∧ reply = .ok bytes) ∧ w' = w
  | .randomUUID => fun reply w' => (∃ id, reply = .ok id) ∧ w' = w
  | .findRecent userId limit => fun reply w' =>
    (∃ found, IsRecent w.stories userId limit found ∧ reply = .ok found) ∧ w.Later w'
  | .findByUserId userId => fun reply w' =>
    (∃ found, found.Perm (w.moments.filter fun moment => moment.userId = userId) ∧ reply = .ok found) ∧ w.Later w'
  | .findStory id => fun reply w' => reply = .ok (w.stories.find? fun story => story.id = id) ∧ w.Later w'
  | .findMoment id => fun reply w' => reply = .ok (w.moments.find? fun moment => moment.id = id) ∧ w.Later w'
  | .saveLink link => fun reply w' => reply = .ok () ∧ DigestWorld.Later { w with links := link :: w.links } w'
  | .send email => fun reply w' => reply = .ok true ∧ DigestWorld.Later { w with emails := email :: w.emails } w'

/-- A story of the user was created in the last week. -/
def HasWeeklyStory (zone : LocalZone) (w : DigestWorld) (userId : Text) : Prop :=
  ∃ story ∈ w.stories, story.ownerId = userId ∧ zone.addDays w.now (-7) ≤ story.createdAt

/-- A user owns a story or a moment. -/
def Owns (w : DigestWorld) (userId : Text) : SharedLinkType → Text → Prop
  | .story, id => ∃ story ∈ w.stories, story.ownerId = userId ∧ story.id = id
  | .moment, id => ∃ moment ∈ w.moments, moment.userId = userId ∧ moment.id = id

/-- A link of the user was made, to a story or a moment of the user. -/
def Linked (w w' : DigestWorld) (userId : Text) : Prop :=
  ∃ link now, w' = { w with now := now, links := link :: w.links } ∧ link.ownerId = some userId ∧
    Owns w userId link.type link.resourceId

/-- **The digest was composed**: a link of the user was made, and the email was sent. -/
def Composed (input : WeeklyDigestInput) (w w' : DigestWorld) (r : Except JsError WeeklyDigestOutput) : Prop :=
  ∃ w₁ email now output, Linked w w₁ input.userId ∧ w' = { w₁ with now := now, emails := email :: w₁.emails } ∧
    email.recipient = input.email ∧ r = .ok output ∧ output.sent = true

/-! ## Making a link -/

variable {request : CreateShareLinkRequest} {userId : Text}

/-- The owner of a story or a moment, as a request for it finds it. -/
def ownerOf (w : DigestWorld) : SharedLinkType → Text → Option Text
  | .story, id => (w.stories.find? fun story => story.id = id).map StoryProps.ownerId
  | .moment, id => (w.moments.find? fun moment => moment.id = id).map MomentProps.userId

/-- The verdict on a request for what has an owner. -/
def verdict (type : SharedLinkType) (found ownerId : Option Text) : Except JsError Unit :=
  if found.isSome ∧ found = ownerId then .ok () else .error (notAuthorized type)

theorem requireOwner_eq (type : SharedLinkType) (found ownerId : Option Text) :
    requireOwner type found ownerId = done (verdict type found ownerId) := by
  cases found with
  | none => rfl
  | some owner =>
    by_cases howner : some owner = ownerId
    · rw [requireOwner, verdict, if_neg (not_not_intro howner), if_pos ⟨rfl, howner⟩]
      rfl
    · rw [requireOwner, verdict, if_pos howner, if_neg fun h => howner h.2]
      rfl

/-- **Whose requests are let pass**: those of the owner. -/
theorem run_authorize (request : CreateShareLinkRequest) {r : Except JsError Unit}
    (h : Run reliableEnv w (authorize request) r w') :
    w.Later w' ∧ r = verdict request.type (ownerOf w request.type request.resourceId) request.ownerId := by
  obtain ⟨ownerId, resourceId, type, maxViews, expiresInDays⟩ := request
  cases type with
  | story =>
    obtain ⟨reply, w₁, ⟨rfl, hlater⟩, hrest⟩ := run_await_iff.mp h
    have hrest : Run reliableEnv w₁ (requireOwner .story _ ownerId) r w' := hrest
    rw [requireOwner_eq] at hrest
    obtain ⟨rfl, rfl⟩ := run_done_iff.mp hrest
    exact ⟨hlater, rfl⟩
  | moment =>
    obtain ⟨reply, w₁, ⟨rfl, hlater⟩, hrest⟩ := run_await_iff.mp h
    have hrest : Run reliableEnv w₁ (requireOwner .moment _ ownerId) r w' := hrest
    rw [requireOwner_eq] at hrest
    obtain ⟨rfl, rfl⟩ := run_done_iff.mp hrest
    exact ⟨hlater, rfl⟩

/-- Nobody owns what a request without an owner asks for. -/
theorem verdict_none (type : SharedLinkType) (found : Option Text) :
    verdict type found none = .error (notAuthorized type) := by
  refine if_neg fun h => ?_
  rw [h.2] at h
  cases h.1

/-- A request without an owner is refused. -/
theorem run_shareLinkCreator {request : ShareLinkRequest} {r : Except JsError CreatedLink}
    (h : Run reliableEnv w (shareLinkCreator zone publicAppUrl request) r w') :
    w.Later w' ∧ r = .error (notAuthorized request.type) := by
  rw [shareLinkCreator, CreateShareLinkUseCase.execute] at h
  rcases run_bind_iff.mp h with ⟨_, w₁, hrun, -⟩ | ⟨e, hrun, rfl⟩ <;> obtain ⟨hlater, hverdict⟩ := run_authorize _ hrun
  · rw [verdict_none] at hverdict
    cases hverdict
  · rw [verdict_none] at hverdict
    exact ⟨hlater, congrArg Except.error (Except.error.inj hverdict)⟩

/-- What has a key of its own is found by it. -/
theorem find?_of_mem {α : Type} {key : α → Text} {xs : List α} {x : α} (h : (xs.map key).Nodup) (hx : x ∈ xs) :
    (xs.find? fun y => key y = key x) = some x := by
  cases hfind : xs.find? fun y => key y = key x with
  | none => exact absurd (decide_eq_true rfl) (List.find?_eq_none.mp hfind x hx)
  | some y =>
    have hkey : key y = key x := by simpa using List.find?_some hfind
    rw [List.inj_on_of_nodup_map h (List.mem_of_find?_eq_some hfind) hx hkey]

/-- What an owner asks for is found. -/
theorem ownerOf_of_owns (hstories : (w.stories.map StoryProps.id).Nodup)
    (hmoments : (w.moments.map MomentProps.id).Nodup) {type : SharedLinkType} {id : Text}
    (h : Owns w userId type id) : ownerOf w type id = some userId := by
  cases type with
  | story =>
    obtain ⟨story, hmem, rfl, rfl⟩ := h
    rw [ownerOf, find?_of_mem hstories hmem]
    rfl
  | moment =>
    obtain ⟨moment, hmem, rfl, rfl⟩ := h
    rw [ownerOf, find?_of_mem hmoments hmem]
    rfl

/-- **A request of the owner makes a link of the owner's.** -/
theorem run_createShareLink {r : Except JsError CreatedLink}
    (hstories : (w.stories.map StoryProps.id).Nodup) (hmoments : (w.moments.map MomentProps.id).Nodup)
    (howner : request.ownerId = some userId) (howns : Owns w userId request.type request.resourceId)
    (h : Run reliableEnv w (CreateShareLinkUseCase.execute zone publicAppUrl request) r w') :
    Linked w w' userId ∧ ∃ created, r = .ok created := by
  rw [CreateShareLinkUseCase.execute] at h
  have hverdict : verdict request.type (ownerOf w request.type request.resourceId) request.ownerId = .ok () := by
    rw [ownerOf_of_owns hstories hmoments howns, howner]
    exact if_pos ⟨rfl, rfl⟩
  rcases run_bind_iff.mp h with ⟨_, w₁, hrun, hrest⟩ | ⟨e, hrun, rfl⟩ <;> obtain ⟨hlater, hr⟩ := run_authorize _ hrun
  · obtain ⟨_, _, ⟨⟨bytes, -, rfl⟩, rfl⟩, h₁⟩ := run_await_iff.mp hrest
    obtain ⟨_, _, ⟨rfl, rfl⟩, h₂⟩ := run_await_iff.mp h₁
    obtain ⟨_, _, ⟨⟨id, rfl⟩, rfl⟩, h₃⟩ := run_await_iff.mp h₂
    obtain ⟨_, _, ⟨rfl, rfl⟩, h₄⟩ := run_await_iff.mp h₃
    obtain ⟨_, _, ⟨rfl, hsaved⟩, h₅⟩ := run_await_iff.mp h₄
    obtain ⟨rfl, rfl⟩ := run_done_iff.mp h₅
    obtain ⟨t, -, rfl⟩ := hlater
    obtain ⟨u, -, rfl⟩ := hsaved
    exact ⟨⟨_, u, rfl, howner, howns⟩, _, rfl⟩
  · rw [hverdict] at hr
    cases hr

/-! ## The digest -/

variable {creator : ShareLinkRequest → DigestProc CreatedLink} {oneWeekAgo : ℤ} {r : Except JsError WeeklyDigestOutput}

/-- Of the latest stories one is of the last week, where there is one. -/
theorem weeklyStories_ne_nil {stories found : List StoryProps} {story : StoryProps} {limit : ℕ} (hlimit : 0 < limit)
    (h : IsRecent stories userId limit found) (hmem : story ∈ stories) (howner : story.ownerId = userId)
    (hweek : oneWeekAgo ≤ story.createdAt) : weeklyStories oneWeekAgo found ≠ [] := by
  obtain ⟨order, hperm, hsorted, rfl⟩ := h
  have hstory : story ∈ order := hperm.mem_iff.mpr (List.mem_filter.mpr ⟨hmem, decide_eq_true howner⟩)
  cases order with
  | nil => cases hstory
  | cons first rest =>
    have hfirst : story.createdAt ≤ first.createdAt := by
      rcases List.mem_cons.mp hstory with rfl | hrest
      · exact le_rfl
      · exact (List.pairwise_cons.mp hsorted).1 story hrest
    obtain ⟨k, rfl⟩ := Nat.exists_eq_add_of_lt hlimit
    have hweekly : first ∈ weeklyStories oneWeekAgo ((first :: rest).take (0 + k + 1)) :=
      List.mem_filter.mpr ⟨by rw [List.take_succ_cons]; exact List.mem_cons_self, decide_eq_true (by omega)⟩
    exact List.ne_nil_of_mem hweekly

/-- What is highlighted is the user's. -/
theorem owns_highlight {stories found : List StoryProps} {moments : List MomentProps} {story : StoryProps} {limit : ℕ}
    (hrecent : IsRecent w.stories userId limit found)
    (hmoments : moments.Perm (w.moments.filter fun moment => moment.userId = userId))
    (hstories : weeklyStories oneWeekAgo found = story :: stories) :
    Owns w userId (highlight story (weeklyMoments oneWeekAgo moments)).1
      (highlight story (weeklyMoments oneWeekAgo moments)).2 := by
  -- without a moment of the week the highlight is the story
  cases hweekly : weeklyMoments oneWeekAgo moments with
  | nil =>
    obtain ⟨order, hperm, -, rfl⟩ := hrecent
    have hmem : story ∈ weeklyStories oneWeekAgo (order.take limit) := hstories ▸ List.mem_cons_self
    have hfound := hperm.mem_iff.mp (List.mem_of_mem_take (List.mem_filter.mp hmem).1)
    obtain ⟨hmem, howner⟩ := List.mem_filter.mp hfound
    exact ⟨story, hmem, of_decide_eq_true howner, rfl⟩
  | cons moment rest =>
    have hmem : moment ∈ weeklyMoments oneWeekAgo moments := hweekly ▸ List.mem_cons_self
    have hfound := hmoments.mem_iff.mp (List.mem_filter.mp ((List.mem_insertionSort _).mp hmem)).1
    obtain ⟨hmem, howner⟩ := List.mem_filter.mp hfound
    exact ⟨moment, hmem, of_decide_eq_true howner, rfl⟩

/-- **A week with stories** has its digest composed about a story or a moment of the user's. -/
theorem run_execute (hstory : HasWeeklyStory zone w input.userId)
    (h : Run reliableEnv w (SendWeeklyDigestUseCase.execute zone creator input) r w') :
    ∃ w₁ stories story moments, w.Later w₁ ∧
      Owns w input.userId (highlight story moments).1 (highlight story moments).2 ∧
      Run reliableEnv w₁ (composeDigest creator input stories story moments) r w' := by
  obtain ⟨recent, hmem, howner, hweek⟩ := hstory
  obtain ⟨_, w₀, ⟨rfl, hsame⟩, hrest⟩ := run_await_iff.mp h
  rw [hsame] at hrest
  -- the latest stories are asked for, and one of them is of the week
  obtain ⟨_, w₁, ⟨⟨found, hrecent, rfl⟩, hlater⟩, hrest⟩ := run_await_iff.mp hrest
  have hne := weeklyStories_ne_nil (by decide) hrecent hmem howner hweek
  cases hstories : weeklyStories (zone.addDays w.now (-7)) found with
  | nil => exact absurd hstories hne
  | cons story stories =>
    simp only [Proc.bind, hstories] at hrest
    obtain ⟨_, w₂, ⟨⟨moments, hmoments, rfl⟩, hlater'⟩, hcompose⟩ := run_await_iff.mp hrest
    obtain ⟨t, ht, rfl⟩ := hlater
    exact ⟨w₂, _, story, _, .trans ⟨t, ht, rfl⟩ hlater', owns_highlight hrecent hmoments hstories, hcompose⟩

/-- **Each of the two use cases does its part**: a digest whose creator makes links in the name of the user is
composed. -/
theorem composed_of_creator (hstory : HasWeeklyStory zone w input.userId)
    (hcreator : ∀ w₁ request r w₂, w.Later w₁ → Owns w₁ input.userId request.type request.resourceId →
      Run reliableEnv w₁ (creator request) r w₂ → Linked w₁ w₂ input.userId ∧ ∃ created, r = .ok created)
    (h : Run reliableEnv w (SendWeeklyDigestUseCase.execute zone creator input) r w') : Composed input w w' r := by
  obtain ⟨w₁, stories, story, moments, hlater, howns, hcompose⟩ := run_execute hstory h
  have howns₁ : Owns w₁ input.userId (highlight story moments).1 (highlight story moments).2 := by
    obtain ⟨t, -, rfl⟩ := hlater
    exact howns
  rw [composeDigest] at hcompose
  rcases run_bind_iff.mp hcompose with ⟨created, w₂, hrun, hrest⟩ | ⟨e, hrun, rfl⟩
  · obtain ⟨hlinked, -⟩ := hcreator w₁ _ _ w₂ hlater howns₁ hrun
    -- the email is sent once the link is made, and the mailer does not fail
    obtain ⟨_, w₃, ⟨rfl, hsent⟩, hdone⟩ := run_await_iff.mp hrest
    obtain ⟨rfl, rfl⟩ := run_done_iff.mp hdone
    obtain ⟨t, -, hlast⟩ := hsent
    obtain ⟨u, -, rfl⟩ := hlater
    exact ⟨w₂, _, t, _, hlinked, hlast, rfl, rfl, rfl⟩
  · obtain ⟨-, created, hcreated⟩ := hcreator w₁ _ _ w' hlater howns₁ hrun
    cases hcreated

/-! ## Composed -/

/-- The answers of a world in which no time passes. -/
def answer (w : DigestWorld) : (effect : DigestEffect) → Except JsError effect.Reply × DigestWorld
  | .clock => (.ok w.now, w)
  | .randomBytes size => (.ok (List.replicate size 0), w)
  | .randomUUID => (.ok (lit "link"), w)
  | .findRecent userId limit =>
    (.ok (((w.stories.filter fun story => story.ownerId = userId).insertionSort fun a b =>
      b.createdAt ≤ a.createdAt).take limit), w)
  | .findByUserId userId => (.ok (w.moments.filter fun moment => moment.userId = userId), w)
  | .findStory id => (.ok (w.stories.find? fun story => story.id = id), w)
  | .findMoment id => (.ok (w.moments.find? fun moment => moment.id = id), w)
  | .saveLink link => (.ok (), { w with links := link :: w.links })
  | .send email => (.ok true, { w with emails := email :: w.emails })

theorem reliable_answer (w : DigestWorld) (effect : DigestEffect) :
    reliableEnv w effect (answer w effect).1 (answer w effect).2 := by
  cases effect with
  | clock => exact ⟨rfl, rfl⟩
  | randomBytes size => exact ⟨⟨_, List.length_replicate, rfl⟩, rfl⟩
  | randomUUID => exact ⟨⟨_, rfl⟩, rfl⟩
  | findRecent userId limit =>
    exact ⟨⟨_, ⟨_, List.perm_insertionSort _ _, List.pairwise_insertionSort _ _, rfl⟩, rfl⟩, .refl w⟩
  | findByUserId userId => exact ⟨⟨_, .refl _, rfl⟩, .refl w⟩
  | findStory id => exact ⟨rfl, .refl w⟩
  | findMoment id => exact ⟨rfl, .refl w⟩
  | saveLink link => exact ⟨rfl, .refl _⟩
  | send email => exact ⟨rfl, .refl _⟩

/-- A creator that is told whose link it makes is all that the digest misses. -/
theorem composed_of_owner (hstories : (w.stories.map StoryProps.id).Nodup)
    (hmoments : (w.moments.map MomentProps.id).Nodup) (hstory : HasWeeklyStory zone w input.userId)
    (h : Run reliableEnv w (SendWeeklyDigestUseCase.execute zone (fun request =>
      CreateShareLinkUseCase.execute zone publicAppUrl ⟨some input.userId, request.resourceId, request.type,
        request.maxViews, request.expiresInDays⟩) input) r w') : Composed input w w' r := by
  refine composed_of_creator hstory (fun w₁ request r w₂ hlater howns hrun => ?_) h
  obtain ⟨t, -, rfl⟩ := hlater
  exact run_createShareLink hstories hmoments rfl howns hrun

/-- **The digest as the container wires it** is never composed: in every week with stories it is refused, and
neither a link nor an email is left. -/
theorem weekly_digest_refused (publicAppUrl : Text) (hstory : HasWeeklyStory zone w input.userId) :
    (∃ r w', Run reliableEnv w (sendWeeklyDigest zone publicAppUrl input) r w') ∧
      ∀ r w', Run reliableEnv w (sendWeeklyDigest zone publicAppUrl input) r w' →
        w.Later w' ∧ (∃ type, r = .error (notAuthorized type)) ∧ ¬ Composed input w w' r := by
  refine ⟨⟨_, _, run_exec reliable_answer w _⟩, fun r w' h => ?_⟩
  obtain ⟨w₁, stories, story, moments, hlater, -, hcompose⟩ := run_execute hstory h
  rw [composeDigest] at hcompose
  rcases run_bind_iff.mp hcompose with ⟨created, w₂, hrun, -⟩ | ⟨e, hrun, rfl⟩ <;>
    obtain ⟨hlater', hrefused⟩ := run_shareLinkCreator hrun
  · cases hrefused
  · refine ⟨hlater.trans hlater', ⟨_, congrArg Except.error (Except.error.inj hrefused)⟩, ?_⟩
    rintro ⟨-, -, -, output, -, -, -, hok, -⟩
    cases hok

/-- A user with a story of this evening. -/
def oneStory : DigestWorld where
  now := 1000000000
  stories := [⟨lit "story", lit "The Umbrella Kingdom", ⟨[lit "Once upon a time"], [], 4, by decide⟩, lit "cozy",
    .completed, lit "user", 1000000000, none, none⟩]
  moments := []
  links := []
  emails := []

/-- The digest of that user. -/
def oneDigest : WeeklyDigestInput := ⟨lit "user", lit "parent@example.com", lit "Emma"⟩

theorem hasWeeklyStory_oneStory : HasWeeklyStory ⟨id, id⟩ oneStory oneDigest.userId :=
  ⟨_, List.mem_singleton_self _, rfl, by decide⟩

theorem weekly_digest_refused_oneStory :
    (∃ r w', Run reliableEnv oneStory (sendWeeklyDigest ⟨id, id⟩ [] oneDigest) r w') ∧
      ∀ r w', Run reliableEnv oneStory (sendWeeklyDigest ⟨id, id⟩ [] oneDigest) r w' →
        oneStory.Later w' ∧ (∃ type, r = .error (notAuthorized type)) ∧ ¬ Composed oneDigest oneStory w' r :=
  weekly_digest_refused [] hasWeeklyStory_oneStory

/-- That digest is not composed. -/
theorem one_digest_not_composed : ¬ ∀ (zone : LocalZone) (publicAppUrl : Text) (w : DigestWorld)
    (input : WeeklyDigestInput), HasWeeklyStory zone w input.userId → ∀ r w',
      Run reliableEnv w (sendWeeklyDigest zone publicAppUrl input) r w' → Composed input w w' r := by
  intro h
  have hrun := run_exec reliable_answer oneStory (sendWeeklyDigest ⟨id, id⟩ [] oneDigest)
  obtain ⟨-, -, -, output, -, -, -, hok, -⟩ := h _ _ _ _ hasWeeklyStory_oneStory _ _ hrun
  have hrefused : (exec answer oneStory (sendWeeklyDigest ⟨id, id⟩ [] oneDigest)).1 =
    .error (notAuthorized .story) := rfl
  rw [hrefused] at hok
  cases hok

end DreamWeaver.Digest
