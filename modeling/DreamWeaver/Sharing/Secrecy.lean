import DreamWeaver.Digest.SendWeeklyDigest
import DreamWeaver.Foundations.Embedding

/-! # What a stranger is shown

`POST /share` (`api/src/routes/share.ts`) has a link made in the name of its user, and `GET /share/:token` shows what a
link leads to. Both read the tables of stories and moments, which change meanwhile: a story or a moment is saved,
by its owner, or deleted. Calls that make links, that view and that change the tables interleave in every way. -/

namespace DreamWeaver.Sharing

open Stories Digest Proc

/-! ## The service -/

/-- A change of the tables of stories and moments. -/
inductive Change where
  | saveStory (story : StoryProps)
  | saveMoment (moment : MomentProps)
  | deleteStory (id : Text)
  | deleteMoment (id : Text)

/-- What the calls await. -/
inductive SharingEffect where
  /-- An effect of `CreateShareLinkUseCase`. -/
  | create (effect : DigestEffect)
  /-- An effect of `GetSharedContentUseCase`. -/
  | view (effect : ShareEffect)
  | change (change : Change)

/-- What an effect is replied with. -/
abbrev SharingEffect.Reply : SharingEffect → Type
  | .create effect => effect.Reply
  | .view effect => effect.Reply
  | .change _ => Unit

/-- An effect with its reply. -/
abbrev SharingEvent := Proc.Event SharingEffect SharingEffect.Reply

/-- A call. -/
inductive SharingCall where
  | create (request : CreateShareLinkRequest)
  | view (token : Text)
  | change (change : Change)

/-- `POST /share` and `POST /share/email` make a link in the name of their user. -/
def SharingCall.post (userId resourceId : Text) (type : SharedLinkType) (maxViews expiresInDays : ℕ) : SharingCall :=
  .create ⟨some userId, resourceId, type, some maxViews, some expiresInDays⟩

/-- The procedure of a call, with what a view shows. -/
def SharingCall.proc (zone : LocalZone) (publicAppUrl : Text) :
    SharingCall → Proc SharingEffect SharingEffect.Reply (Option SharedContentResult)
  | .create request => (CreateShareLinkUseCase.execute zone publicAppUrl request >>= fun _ =>
      (pure none : DigestProc (Option SharedContentResult))).embed SharingEffect.create
  | .view token => (execute token).embed SharingEffect.view
  | .change made => do
    let _ ← Proc.perform (SharingEffect.change made)
    pure none

/-! ## The tables -/

/-- The tables, and the time. A link is found by its token. -/
structure SharingWorld where
  stories : Text → Option StoryProps
  moments : Text → Option MomentProps
  links : Text → Option SharedLinkProps
  now : ℕ

/-- A link as `findByToken` gives it. -/
def linkOf (link : SharedLinkProps) : SharedLink :=
  ⟨link.resourceId, link.type, link.token, link.maxViews, link.currentViews, link.expiresAt.toNat⟩

namespace SharingWorld

/-- The tables stay as they are while time passes. -/
structure Same (w w' : SharingWorld) : Prop where
  stories : w'.stories = w.stories
  moments : w'.moments = w.moments
  links : w'.links = w.links

/-- The row of a link is inserted; its token is unique, and it has an owner. -/
structure Inserts (link : SharedLinkProps) (w w' : SharingWorld) : Prop where
  stories : w'.stories = w.stories
  moments : w'.moments = w.moments
  links : w'.links = Function.update w.links link.token (some link)
  fresh : w.links link.token = none
  owned : link.ownerId.isSome = true

/-- `increment_shared_link_views(p_token)` -/
def incrementViews (w : SharingWorld) (token : Text) : Text → Option SharedLinkProps :=
  match w.links token with
  | none => w.links
  | some link =>
    if (w.now : ℤ) < link.expiresAt ∧ link.currentViews < link.maxViews then
      Function.update w.links token (some { link with currentViews := link.currentViews + 1 })
    else w.links

/-- The tables after a change. -/
def apply (w : SharingWorld) : Change → SharingWorld
  | .saveStory story => { w with stories := Function.update w.stories story.id (some story) }
  | .saveMoment moment => { w with moments := Function.update w.moments moment.id (some moment) }
  | .deleteStory id => { w with stories := Function.update w.stories id none }
  | .deleteMoment id => { w with moments := Function.update w.moments id none }

end SharingWorld

/-- An id is given to one user for ever, and so is what is saved under it. -/
def Change.Proper (owns : SharedLinkType → Text → Text) : Change → Prop
  | .saveStory story => story.ownerId = owns .story story.id
  | .saveMoment moment => moment.userId = owns .moment moment.id
  | _ => True

/-- The replies to what `CreateShareLinkUseCase` awaits; a link whose answer is lost may be there. -/
def createEnv : Env SharingWorld DigestEffect DigestEffect.Reply := fun w effect =>
  match effect with
  | .findStory id => fun reply w' => w.Same w' ∧ ∀ story, reply = .ok (some story) → w.stories id = some story
  | .findMoment id => fun reply w' => w.Same w' ∧ ∀ moment, reply = .ok (some moment) → w.moments id = some moment
  | .saveLink link => fun reply w' => w.Inserts link w' ∨ w.Same w' ∧ ∃ e, reply = .error e
  | _ => fun _ w' => w.Same w'

/-- The replies to what `GetSharedContentUseCase` awaits. -/
def viewEnv : Env SharingWorld ShareEffect ShareEffect.Reply := fun w effect =>
  match effect with
  | .carryOut (.getSharedLinkByToken token) => fun reply w' => w.Same w' ∧
      ∀ link, reply = .ok (some link) → ∃ row, w.links token = some row ∧ link = linkOf row
  | .carryOut (.incrementSharedLinkViews token) => fun _ w' => w.Same w' ∨
      w'.stories = w.stories ∧ w'.moments = w.moments ∧ w'.links = w.incrementViews token
  | .carryOut (.findStory id) => fun reply w' => w.Same w' ∧
      ∀ story, reply = .ok (some story) → w.stories id = some story
  | .carryOut (.findMoment id) => fun reply w' => w.Same w' ∧
      ∀ moment, reply = .ok (some moment) → w.moments id = some moment
  | .arrive _ => fun reply w' => w.Same w' ∧ reply = .ok w.now

/-- The replies, and the tables afterwards. Time passes, and a statement may fail, or its answer be lost. -/
def sharingEnv (owns : SharedLinkType → Text → Text) : Env SharingWorld SharingEffect SharingEffect.Reply :=
  fun w effect reply w' => w.now ≤ w'.now ∧
    match effect, reply with
    | .create effect, reply => createEnv w effect reply w'
    | .view effect, reply => viewEnv w effect reply w'
    | .change made, _ => w.Same w' ∨ made.Proper owns ∧ (w.apply made).Same w'

/-- Calls on empty tables. -/
def sharing {ι : Type} (zone : LocalZone) (publicAppUrl : Text) (calls : ι → SharingCall) (now : ℕ) :
    Pool ι SharingWorld SharingEffect SharingEffect.Reply (Option SharedContentResult) where
  state := ⟨fun _ => none, fun _ => none, fun _ => none, now⟩
  procs i := (calls i).proc zone publicAppUrl

/-! ## Making a link -/

/-- An effect of making a link with its reply. -/
abbrev DigestEvent := Proc.Event DigestEffect DigestEffect.Reply

/-- What is to be shared was found, and is its owner's. -/
def FoundFor (request : CreateShareLinkRequest) (past : List DigestEvent) : Prop :=
  match request.type with
  | .story => ∃ story : StoryProps, ⟨.findStory request.resourceId, .ok (some story)⟩ ∈ past ∧
      request.ownerId = some story.ownerId
  | .moment => ∃ moment : MomentProps, ⟨.findMoment request.resourceId, .ok (some moment)⟩ ∈ past ∧
      request.ownerId = some moment.userId

/-- A link is saved for a request whose owner was checked. -/
def Vouched (request : CreateShareLinkRequest) (past : List DigestEvent) : DigestEffect → Prop
  | .saveLink link => link.resourceId = request.resourceId ∧ link.type = request.type ∧
      link.ownerId = request.ownerId ∧ FoundFor request past
  | _ => True

variable {zone : LocalZone} {publicAppUrl : Text} {request : CreateShareLinkRequest}

theorem FoundFor.append {past : List DigestEvent} (h : FoundFor request past) (rest : List DigestEvent) :
    FoundFor request (past ++ rest) := by
  unfold FoundFor at h ⊢
  split at h
  · obtain ⟨story, hmem, howner⟩ := h
    exact ⟨story, List.mem_append_left _ hmem, howner⟩
  · obtain ⟨moment, hmem, howner⟩ := h
    exact ⟨moment, List.mem_append_left _ hmem, howner⟩

/-- The check of the owner saves nothing, and passes only for the owner of what was found. -/
theorem obeys_authorize : (authorize request).Obeys (Vouched request) (fun past r => r = .ok () → FoundFor request past)
    [] := by
  obtain ⟨ownerId, resourceId, type, maxViews, expiresInDays⟩ := request
  have hpasses {found : Option Text} {type' : SharedLinkType} {past : List DigestEvent}
      (hfound : ∀ owner, found = some owner → ownerId = some owner →
        FoundFor ⟨ownerId, resourceId, type, maxViews, expiresInDays⟩ past) :
      (requireOwner type' found ownerId).Obeys (Vouched ⟨ownerId, resourceId, type, maxViews, expiresInDays⟩)
        (fun past r => r = .ok () → FoundFor ⟨ownerId, resourceId, type, maxViews, expiresInDays⟩ past) past := by
    cases found with
    | none =>
      intro h
      cases h
    | some owner =>
      by_cases howner : some owner = ownerId
      · rw [requireOwner, if_neg (not_not_intro howner)]
        exact fun _ => hfound owner rfl howner.symm
      · rw [requireOwner, if_pos howner]
        intro h
        cases h
  cases type with
  | story =>
    refine ⟨trivial, fun reply => ?_⟩
    cases reply with
    | error e =>
      intro h
      cases h
    | ok found =>
      refine hpasses fun owner hfound howner => ?_
      obtain ⟨story, rfl, rfl⟩ := Option.map_eq_some_iff.mp hfound
      exact ⟨story, List.mem_singleton_self _, howner⟩
  | moment =>
    refine ⟨trivial, fun reply => ?_⟩
    cases reply with
    | error e =>
      intro h
      cases h
    | ok found =>
      refine hpasses fun owner hfound howner => ?_
      obtain ⟨moment, rfl, rfl⟩ := Option.map_eq_some_iff.mp hfound
      exact ⟨moment, List.mem_singleton_self _, howner⟩

/-- A link is generated for what is to be shared, in the name of its owner. -/
theorem obeys_generate {ownerId : Option Text} {resourceId : Text} {type : SharedLinkType} {maxViews days : ℕ}
    {past : List DigestEvent} :
    (SharedLink.generate zone ownerId resourceId type maxViews days).Obeys (Vouched request) (fun past' r => past <+: past' ∧
      ∀ link, r = .ok link → link.resourceId = resourceId ∧ link.type = type ∧ link.ownerId = ownerId) past := by
  have hfails {past' : List DigestEvent} {e : JsError} (hpast : past <+: past') : past <+: past' ∧
      ∀ link : SharedLinkProps, Except.error e = .ok link → link.resourceId = resourceId ∧ link.type = type ∧
        link.ownerId = ownerId := ⟨hpast, fun link h => by cases h⟩
  have hlonger {past' : List DigestEvent} (event : DigestEvent) (hpast : past <+: past') : past <+: past' ++ [event] :=
    hpast.trans (List.prefix_append _ _)
  have hstart : past <+: past := List.prefix_rfl
  refine ⟨trivial, fun bytes => ?_⟩
  cases bytes with
  | error e => exact hfails (hlonger _ hstart)
  | ok bytes =>
    refine ⟨trivial, fun expiresAt => ?_⟩
    cases expiresAt with
    | error e => exact hfails (hlonger _ (hlonger _ hstart))
    | ok expiresAt =>
      refine ⟨trivial, fun id => ?_⟩
      cases id with
      | error e => exact hfails (hlonger _ (hlonger _ (hlonger _ hstart)))
      | ok id =>
        refine ⟨trivial, fun createdAt => ?_⟩
        cases createdAt with
        | error e => exact hfails (hlonger _ (hlonger _ (hlonger _ (hlonger _ hstart))))
        | ok createdAt =>
          refine ⟨hlonger _ (hlonger _ (hlonger _ (hlonger _ hstart))), fun link h => ?_⟩
          cases h
          exact ⟨rfl, rfl, rfl⟩

/-- **A link is saved only for the owner** of what it leads to. -/
theorem steps_createShareLink (request : CreateShareLinkRequest) :
    (CreateShareLinkUseCase.execute zone publicAppUrl request >>= fun _ =>
      (pure none : DigestProc (Option SharedContentResult))).Steps (Vouched request) [] := by
  refine Steps.bind ?_ (ends_of_forall fun past r => by cases r <;> trivial)
  unfold CreateShareLinkUseCase.execute
  refine obeys_authorize.steps.bind (obeys_authorize.ends.imp fun past r hpassed => ?_)
  cases r with
  | error e => trivial
  | ok _ =>
    have hfound : FoundFor request past := hpassed rfl
    have hgenerate : (SharedLink.generate zone request.ownerId request.resourceId request.type
        (countOr request.maxViews 3) (countOr request.expiresInDays 2)).Obeys (Vouched request) _ past := obeys_generate
    refine hgenerate.steps.bind (hgenerate.ends.imp fun past' r hlink => ?_)
    cases r with
    | error e => trivial
    | ok link =>
      obtain ⟨⟨rest, rfl⟩, hlink⟩ := hlink
      obtain ⟨hresource, htype, howner⟩ := hlink link rfl
      refine ⟨⟨hresource, htype, howner, hfound.append rest⟩, fun reply => ?_⟩
      cases reply <;> trivial

/-! ## Viewing a link -/

/-- An effect of viewing a link with its reply. -/
abbrev ViewEvent := Proc.Event ShareEffect ShareEffect.Reply

/-- Content is that of a story or a moment that was found. -/
def ReadFrom (link : SharedLink) (past : List ViewEvent) : SharedContent → Prop
  | .story shown => link.type = .story ∧ ∃ story : StoryProps,
      ⟨.carryOut (.findStory link.resourceId), .ok (some story)⟩ ∈ past ∧ shown = storyToPublicJSON story
  | .moment shown => link.type = .moment ∧ ∃ moment : MomentProps,
      ⟨.carryOut (.findMoment link.resourceId), .ok (some moment)⟩ ∈ past ∧ shown = moment.toPublicJSON

/-- Content that is shown is that of a link which was found by its token and was valid. -/
def Shows (token : Text) (past : List ViewEvent) (r : Except JsError (Option SharedContentResult)) : Prop :=
  ∀ result content, r = .ok (some result) → result.content = some content →
    ∃ link, ⟨.carryOut (.getSharedLinkByToken token), .ok (some link)⟩ ∈ past ∧ (∃ now, link.isValid now = true) ∧
      ReadFrom link past content

/-- What the content of a link is read from. -/
theorem ends_contentOf_reads (link : SharedLink) (past : List ViewEvent) :
    (contentOf link).Ends (fun past' r => ∀ content, r = .ok (some content) → ReadFrom link past' content) past := by
  unfold contentOf
  split
  · rename_i htype
    intro story
    cases story with
    | error e => exact fun _ h => by cases h
    | ok story =>
      intro now
      cases now with
      | error e => exact fun _ h => by cases h
      | ok now =>
        intro content h
        obtain ⟨story, rfl, rfl⟩ := Option.map_eq_some_iff.mp (Except.ok.inj h)
        exact ⟨htype, story, by simp, rfl⟩
  · rename_i htype
    intro moment
    cases moment with
    | error e => exact fun _ h => by cases h
    | ok moment =>
      intro now
      cases now with
      | error e => exact fun _ h => by cases h
      | ok now =>
        intro content h
        obtain ⟨moment, rfl, rfl⟩ := Option.map_eq_some_iff.mp (Except.ok.inj h)
        exact ⟨htype, moment, by simp, rfl⟩

/-- A link is found by its token. -/
theorem ends_findByToken (token : Text) : (findByToken token).Ends (fun past r => ∀ link now,
    r = .ok (some (link, now)) → ⟨.carryOut (.getSharedLinkByToken token), .ok (some link)⟩ ∈ past)
    ([] : List ViewEvent) := by
  intro found
  cases found with
  | error e => exact fun link now h => by cases h
  | ok found =>
    intro now
    cases now with
    | error e => exact fun link now h => by cases h
    | ok now =>
      intro link now' h
      cases found with
      | none => cases h
      | some found =>
        cases h
        exact List.mem_append_left _ (List.mem_singleton_self _)

/-- **What a view shows** is read from what its link leads to. -/
theorem ends_execute_shows (token : Text) : (execute token).Ends (Shows token) ([] : List ViewEvent) := by
  refine Ends.bind ((ends_findByToken token).imp fun past r hfound => ?_)
  cases r with
  | error e => exact fun result content h => by cases h
  | ok found =>
    cases found with
    | none => exact fun result content h => by cases h
    | some found =>
      obtain ⟨link, now⟩ := found
      have hmem := hfound link now rfl
      cases hvalid : link.isValid now with
      | false =>
        -- the result says that the link is expired, and has no content
        simp only [hvalid, Bool.not_false, if_true]
        intro result content h hcontent
        cases h
        cases hcontent
      | true =>
        simp only [hvalid, Bool.not_true, Bool.false_eq_true, if_false]
        refine Ends.bind ((ends_of_forall (Q := fun _ _ => True) fun _ _ => trivial).frame.imp fun past₁ r hpast₁ => ?_)
        cases r with
        | error e => exact fun result content h => by cases h
        | ok _ =>
          have hcontent := (ends_contentOf_reads link past₁).frame
          refine Ends.bind (hcontent.imp fun past₂ r hread => ?_)
          cases r with
          | error e => exact fun result content h => by cases h
          | ok content =>
            cases content with
            | none => exact fun result content h => by cases h
            | some content =>
              intro result shown h hshown
              cases h
              cases hshown
              exact ⟨link, hread.1.subset (hpast₁.1.subset hmem), ⟨now, hvalid⟩, hread.2 content rfl⟩

/-! ## Runs -/

variable {ι : Type} {owns : SharedLinkType → Text → Text} {w w' : SharingWorld} {log : List (ι × SharingEvent)}

/-- A link leads to the same for the same owner. -/
structure Alike (link link' : SharedLinkProps) : Prop where
  token : link'.token = link.token
  resourceId : link'.resourceId = link.resourceId
  type : link'.type = link.type
  ownerId : link'.ownerId = link.ownerId

/-- **The invariant**: what is saved under an id is its owner's, and every link was saved by a call. -/
structure Secret (owns : SharedLinkType → Text → Text) (log : List (ι × SharingEvent)) (w : SharingWorld) : Prop where
  stories : ∀ id story, w.stories id = some story → story.id = id ∧ story.ownerId = owns .story id
  moments : ∀ id moment, w.moments id = some moment → moment.id = id ∧ moment.userId = owns .moment id
  links : ∀ token link, w.links token = some link → link.token = token ∧ link.ownerId.isSome = true ∧
    ∃ j saved reply, (j, ⟨.create (.saveLink saved), reply⟩) ∈ log ∧ Alike saved link

/-- What holds of every row holds with one more, if it holds of that one. -/
theorem forall_update_some {α : Type} {rows : Text → Option α} {p : Text → α → Prop} {id : Text} {row : α}
    (h : ∀ id row, rows id = some row → p id row) (hrow : p id row) :
    ∀ id' row', Function.update rows id (some row) id' = some row' → p id' row' := by
  intro id' row' hfound
  by_cases hid : id' = id
  · subst hid
    rw [Function.update_self] at hfound
    exact Option.some.inj hfound ▸ hrow
  · rw [Function.update_of_ne hid] at hfound
    exact h id' row' hfound

/-- What holds of every row holds without one. -/
theorem forall_update_none {α : Type} {rows : Text → Option α} {p : Text → α → Prop} {id : Text}
    (h : ∀ id row, rows id = some row → p id row) :
    ∀ id' row', Function.update rows id none id' = some row' → p id' row' := by
  intro id' row' hfound
  rw [Function.update_apply] at hfound
  exact h id' row' (Option.ite_none_left_eq_some.mp hfound).2

theorem Secret.same (h : Secret owns log w) (hsame : w.Same w') (entry : ι × SharingEvent) :
    Secret owns (log ++ [entry]) w' where
  stories := hsame.stories ▸ h.stories
  moments := hsame.moments ▸ h.moments
  links token link hlink := by
    rw [hsame.links] at hlink
    obtain ⟨htoken, howned, j, saved, reply, hmem, halike⟩ := h.links token link hlink
    exact ⟨htoken, howned, j, saved, reply, List.mem_append_left _ hmem, halike⟩

/-- A link that is inserted was saved by the call. -/
theorem Secret.inserts (h : Secret owns log w) {link : SharedLinkProps} (hinserts : w.Inserts link w') (i : ι)
    (reply : Except JsError (DigestEffect.saveLink link).Reply) :
    Secret owns (log ++ [(i, ⟨.create (.saveLink link), reply⟩)]) w' where
  stories := hinserts.stories ▸ h.stories
  moments := hinserts.moments ▸ h.moments
  links := by
    rw [hinserts.links]
    refine forall_update_some (fun token link' hlink => ?_)
      ⟨rfl, hinserts.owned, i, link, reply, List.mem_append_right _ (List.mem_singleton_self _), rfl, rfl, rfl, rfl⟩
    obtain ⟨htoken, howned, j, saved, reply', hmem, halike⟩ := h.links token link' hlink
    exact ⟨htoken, howned, j, saved, reply', List.mem_append_left _ hmem, halike⟩

/-- Counting a view leaves a link what it is. -/
theorem Secret.counts (h : Secret owns log w) {token : Text} (hstories : w'.stories = w.stories)
    (hmoments : w'.moments = w.moments) (hlinks : w'.links = w.incrementViews token) (entry : ι × SharingEvent) :
    Secret owns (log ++ [entry]) w' where
  stories := hstories ▸ h.stories
  moments := hmoments ▸ h.moments
  links token' link hlink := by
    -- the row was there, with another number of views at most
    have hold : ∃ link', w.links token' = some link' ∧ Alike link' link := by
      rw [hlinks, SharingWorld.incrementViews] at hlink
      cases hcounted : w.links token with
      | none =>
        simp only [hcounted] at hlink
        exact ⟨link, hlink, rfl, rfl, rfl, rfl⟩
      | some counted =>
        simp only [hcounted] at hlink
        split_ifs at hlink
        · by_cases htoken : token' = token
          · subst htoken
            rw [Function.update_self] at hlink
            obtain rfl := Option.some.inj hlink
            exact ⟨counted, hcounted, rfl, rfl, rfl, rfl⟩
          · rw [Function.update_of_ne htoken] at hlink
            exact ⟨link, hlink, rfl, rfl, rfl, rfl⟩
        · exact ⟨link, hlink, rfl, rfl, rfl, rfl⟩
    obtain ⟨link', hlink', halike⟩ := hold
    obtain ⟨htoken, howned, j, saved, reply, hmem, halike'⟩ := h.links token' link' hlink'
    refine ⟨halike.token.trans htoken, halike.ownerId ▸ howned, j, saved, reply, List.mem_append_left _ hmem,
      halike.token.trans halike'.token, halike.resourceId.trans halike'.resourceId, halike.type.trans halike'.type,
      halike.ownerId.trans halike'.ownerId⟩

/-- A change by an owner. -/
theorem Secret.change (h : Secret owns log w) {made : Change} (hproper : made.Proper owns) :
    Secret owns log (w.apply made) := by
  cases made with
  | saveStory story => exact ⟨forall_update_some h.stories ⟨rfl, hproper⟩, h.moments, h.links⟩
  | saveMoment moment => exact ⟨h.stories, forall_update_some h.moments ⟨rfl, hproper⟩, h.links⟩
  | deleteStory id => exact ⟨forall_update_none h.stories, h.moments, h.links⟩
  | deleteMoment id => exact ⟨h.stories, forall_update_none h.moments, h.links⟩

/-- **One step** keeps the invariant. -/
theorem Secret.step (h : Secret owns log w) {i : ι} {effect : SharingEffect}
    {reply : Except JsError effect.Reply} (hstep : sharingEnv owns w effect reply w') :
    Secret owns (log ++ [(i, ⟨effect, reply⟩)]) w' := by
  obtain ⟨-, hstep⟩ := hstep
  cases effect with
  | create effect =>
    cases effect with
    | saveLink link =>
      rcases hstep with hinserts | ⟨hsame, -⟩
      · exact h.inserts hinserts i reply
      · exact h.same hsame _
    | findStory id => exact h.same hstep.1 _
    | findMoment id => exact h.same hstep.1 _
    | _ => exact h.same hstep _
  | view effect =>
    cases effect with
    | arrive query => exact h.same hstep.1 _
    | carryOut query =>
      cases query with
      | incrementSharedLinkViews token =>
        rcases hstep with hsame | ⟨hstories, hmoments, hlinks⟩
        · exact h.same hsame _
        · exact h.counts hstories hmoments hlinks _
      | _ => exact h.same hstep.1 _
  | change made =>
    rcases hstep with hsame | ⟨hproper, hsame⟩
    · exact h.same hsame _
    · exact (h.change hproper).same hsame _

variable [DecidableEq ι] {calls : ι → SharingCall} {ok : SharingWorld → SharingEffect → Prop} {now : ℕ}
  {c : Pool ι SharingWorld SharingEffect SharingEffect.Reply (Option SharedContentResult)}

/-- **Every run** keeps the invariant. -/
theorem secret_of_runs (h : Runs (sharingEnv owns) ok (sharing zone publicAppUrl calls now) log c) :
    Secret owns log c.state := by
  induction h with
  | start =>
    refine ⟨fun id story hstory => ?_, fun id moment hmoment => ?_, fun token link hlink => ?_⟩
    · cases hstory
    · cases hmoment
    · cases hlink
  | step _ _ hreply _ ih => exact ih.step hreply

/-- What a call has done before it awaits an effect. -/
def SharingBehaves (past : List SharingEvent) (effect : SharingEffect) : SharingCall → Prop
  | .create request => ∃ before effect', past = before.map (Event.embed SharingEffect.create) ∧
      effect = .create effect' ∧ Vouched request before effect'
  | .view _ => ∃ effect', effect = .view effect'
  | .change made => effect = .change made

theorem steps_sharingCall (call : SharingCall) :
    (call.proc zone publicAppUrl).Steps (fun past effect => SharingBehaves past effect call) [] := by
  cases call with
  | create request =>
    refine @Steps.embed _ _ SharingEffect.Reply _ SharingEffect.create _ _ [] ?_
    refine (steps_createShareLink request).imp ?_
    exact fun before effect hvouched => ⟨before, effect, rfl, rfl, hvouched⟩
  | view token =>
    refine only_embed.steps fun rest event hevent => ?_
    exact hevent
  | change made =>
    refine ⟨rfl, fun reply => ?_⟩
    cases reply <;> trivial

/-- Content is that of a story or a moment with an id, of an owner. -/
def IsOf (owner id : Text) : SharedContent → Prop
  | .story shown => ∃ story : StoryProps, story.id = id ∧ story.ownerId = owner ∧ shown = storyToPublicJSON story
  | .moment shown => ∃ moment : MomentProps, moment.id = id ∧ moment.userId = owner ∧ shown = moment.toPublicJSON

section

variable (h : Runs (sharingEnv owns) ok (sharing zone publicAppUrl calls now) log c)
include h

/-- Where the invariant held when an effect was replied to. -/
theorem exists_secret {i : ι} {event : SharingEvent} (hmem : (i, event) ∈ log) : ∃ before after w w',
    log = before ++ (i, event) :: after ∧ Secret owns before w ∧ sharingEnv owns w event.effect event.reply w' := by
  obtain ⟨before, after, hlog⟩ := List.append_of_mem hmem
  obtain ⟨c₁, w', hruns, hstep, -⟩ := h.step_of_log hlog
  exact ⟨before, after, c₁.state, w', hlog, secret_of_runs hruns, hstep⟩

/-- **A link is saved by the owner** of what it leads to. -/
theorem saved_by_owner {j : ι} {link : SharedLinkProps}
    {reply : Except JsError (SharingEffect.create (.saveLink link)).Reply}
    (hmem : (j, ⟨.create (.saveLink link), reply⟩) ∈ log) :
    ∃ request, calls j = .create request ∧ link.resourceId = request.resourceId ∧ link.type = request.type ∧
      request.ownerId = some (owns request.type request.resourceId) := by
  have hevent : (⟨.create (.saveLink link), reply⟩ : SharingEvent) ∈ eventsOf j log :=
    List.mem_map.mpr ⟨_, List.mem_filter.mpr ⟨hmem, decide_eq_true rfl⟩, rfl⟩
  obtain ⟨past, after, hsplit⟩ := List.append_of_mem hevent
  have hbehaves := (h.steps (steps_sharingCall (calls j))).2 past _ after hsplit
  cases hcall : calls j with
  | view token =>
    rw [hcall] at hbehaves
    obtain ⟨effect', heffect⟩ := hbehaves
    cases heffect
  | change made =>
    rw [hcall] at hbehaves
    cases hbehaves
  | create request =>
    rw [hcall] at hbehaves
    obtain ⟨before, effect', rfl, heffect, hvouched⟩ := hbehaves
    cases heffect
    obtain ⟨hresource, htype, -, hfound⟩ := hvouched
    refine ⟨request, rfl, hresource, htype, ?_⟩
    -- what the call has found was in the tables
    have hlogged {event : DigestEvent} (hin : event ∈ before) : (j, event.embed SharingEffect.create) ∈ log := by
      refine mem_of_mem_eventsOf ?_
      rw [hsplit]
      exact List.mem_append_left _ (List.mem_map_of_mem hin)
    unfold FoundFor at hfound
    -- a story and a moment are looked up in tables of their own
    split at hfound
    · rename_i hstory
      obtain ⟨story, hin, howner⟩ := hfound
      obtain ⟨_, _, w, w', -, hsecret, -, -, hread⟩ := exists_secret h (hlogged hin)
      rw [hstory, howner, (hsecret.stories _ _ (hread story rfl)).2]
    · rename_i hmoment
      obtain ⟨moment, hin, howner⟩ := hfound
      obtain ⟨_, _, w, w', -, hsecret, -, -, hread⟩ := exists_secret h (hlogged hin)
      rw [hmoment, howner, (hsecret.moments _ _ (hread moment rfl)).2]

/-- What a view has read is the owner's. -/
theorem isOf_of_readFrom {i : ι} {past : List ViewEvent} {link : SharedLink} {content : SharedContent}
    (hlogged : ∀ event ∈ past, (i, event.embed SharingEffect.view) ∈ log) (hread : ReadFrom link past content) :
    IsOf (owns link.type link.resourceId) link.resourceId content := by
  cases content with
  | story shown =>
    obtain ⟨htype, story, hin, rfl⟩ := hread
    obtain ⟨_, _, w, w', -, hsecret, -, -, hfound⟩ := exists_secret h (hlogged _ hin)
    obtain ⟨hid, howner⟩ := hsecret.stories _ _ (hfound story rfl)
    exact ⟨story, hid, by rw [howner, htype], rfl⟩
  | moment shown =>
    obtain ⟨htype, moment, hin, rfl⟩ := hread
    obtain ⟨_, _, w, w', -, hsecret, -, -, hfound⟩ := exists_secret h (hlogged _ hin)
    obtain ⟨hid, howner⟩ := hsecret.moments _ _ (hfound moment rfl)
    exact ⟨moment, hid, by rw [howner, htype], rfl⟩

/-- **What a stranger is shown was shared by its owner**: in every run, the content of a view is that of a story or a
moment for which its owner had a link with this token made, before the view has found the link. -/
theorem share_secrecy {i : ι} {token : Text} {result : SharedContentResult} {content : SharedContent}
    (hview : calls i = .view token) (hdone : c.procs i = .done (.ok (some result)))
    (hcontent : result.content = some content) : ∃ before after link j saved reply request owner,
      log = before ++ (i, ⟨.view (.carryOut (.getSharedLinkByToken token)), .ok (some link)⟩) :: after ∧
        (j, ⟨.create (.saveLink saved), reply⟩) ∈ before ∧ saved.token = token ∧ calls j = .create request ∧
          request.ownerId = some owner ∧ IsOf owner request.resourceId content := by
  have hinit : ((sharing zone publicAppUrl calls now).procs i).Ends
      (fun past r => ∃ past', past = past'.map (Event.embed SharingEffect.view) ∧ Shows token past' r) [] := by
    change ((calls i).proc zone publicAppUrl).Ends _ []
    rw [hview]
    refine Ends.embed_nil ((ends_execute_shows token).imp ?_)
    exact fun past r hshows => ⟨past, rfl, hshows⟩
  obtain ⟨past, hpast, hshows⟩ := h.ended hinit hdone
  obtain ⟨link, hfound, -, hread⟩ := hshows result content rfl hcontent
  have hlogged (event : ViewEvent) (hin : event ∈ past) : (i, event.embed SharingEffect.view) ∈ log := by
    refine mem_of_mem_eventsOf ?_
    rw [hpast]
    exact List.mem_map_of_mem hin
  have hisOf := isOf_of_readFrom h hlogged hread
  obtain ⟨before, after, w, w', hlog, hsecret, -, -, hrow⟩ := exists_secret h (hlogged _ hfound)
  obtain ⟨row, hrow', rfl⟩ := hrow link rfl
  obtain ⟨htoken, -, j, saved, reply, hsaved, halike⟩ := hsecret.links token row hrow'
  have hmem : (j, ⟨.create (.saveLink saved), reply⟩) ∈ log := by
    rw [hlog]
    exact List.mem_append_left _ hsaved
  obtain ⟨request, hcall, hresource, htype, howner⟩ := saved_by_owner h hmem
  refine ⟨before, after, linkOf row, j, saved, reply, request, _, hlog, hsaved, halike.token.symm.trans htoken, hcall,
    howner, ?_⟩
  rw [← hresource, ← htype, ← halike.resourceId, ← halike.type]
  exact hisOf

end

/-! ## A run -/

/-- What a call has shown. -/
def shownBy : Proc SharingEffect SharingEffect.Reply (Option SharedContentResult) → Option SharedContent
  | .done (.ok (some result)) => result.content
  | _ => none

theorem exists_of_shownBy {p : Proc SharingEffect SharingEffect.Reply (Option SharedContentResult)}
    {content : SharedContent} (h : shownBy p = some content) :
    ∃ result, p = .done (.ok (some result)) ∧ result.content = some content := by
  cases p with
  | await e next => cases h
  | done r =>
    cases r with
    | error e => cases h
    | ok found =>
      cases found with
      | none => cases h
      | some result => exact ⟨result, rfl, h⟩

/-- Tables that answer at once, where everything is ana's. -/
def anaAnswers (effect : SharingEffect) (w : SharingWorld) : Except JsError effect.Reply × SharingWorld :=
  match effect with
  | .create (.findStory id) => (.ok (w.stories id), w)
  | .create (.saveLink link) =>
    if w.links link.token = none ∧ link.ownerId.isSome = true then
      (.ok (), { w with links := Function.update w.links link.token (some link) })
    else (.error ⟨[], []⟩, w)
  | .create .clock => (.ok w.now, w)
  | .create (.randomBytes size) => (.ok (List.replicate size 0), w)
  | .create .randomUUID => (.ok (lit "id"), w)
  | .view (.carryOut (.getSharedLinkByToken token)) => (.ok ((w.links token).map linkOf), w)
  | .view (.carryOut (.incrementSharedLinkViews token)) => (.ok (), { w with links := w.incrementViews token })
  | .view (.carryOut (.findStory id)) => (.ok (w.stories id), w)
  | .view (.arrive _) => (.ok w.now, w)
  | .change (.saveStory story) =>
    if story.ownerId = lit "ana" then (.ok (), w.apply (.saveStory story)) else (.error ⟨[], []⟩, w)
  | _ => (.error ⟨[], []⟩, w)

theorem sharingEnv_anaAnswers (effect : SharingEffect) (w : SharingWorld) :
    sharingEnv (fun _ _ => lit "ana") w effect (anaAnswers effect w).1 (anaAnswers effect w).2 := by
  have hsame : w.Same w := ⟨rfl, rfl, rfl⟩
  cases effect with
  | create effect =>
    cases effect with
    | findStory id => exact ⟨le_rfl, hsame, fun story hstory => Except.ok.inj hstory⟩
    | findMoment id => exact ⟨le_rfl, hsame, fun moment hmoment => by cases hmoment⟩
    | saveLink link =>
      by_cases hfresh : w.links link.token = none ∧ link.ownerId.isSome = true
      · simp only [anaAnswers, if_pos hfresh]
        exact ⟨le_rfl, Or.inl ⟨rfl, rfl, rfl, hfresh.1, hfresh.2⟩⟩
      · simp only [anaAnswers, if_neg hfresh]
        exact ⟨le_rfl, Or.inr ⟨hsame, _, rfl⟩⟩
    | _ => exact ⟨le_rfl, hsame⟩
  | view effect =>
    cases effect with
    | arrive query => exact ⟨le_rfl, hsame, rfl⟩
    | carryOut query =>
      cases query with
      | getSharedLinkByToken token =>
        refine ⟨le_rfl, hsame, fun link hlink => ?_⟩
        obtain ⟨row, hrow, rfl⟩ := Option.map_eq_some_iff.mp (Except.ok.inj hlink)
        exact ⟨row, hrow, rfl⟩
      | incrementSharedLinkViews token => exact ⟨le_rfl, Or.inr ⟨rfl, rfl, rfl⟩⟩
      | findStory id => exact ⟨le_rfl, hsame, fun story hstory => Except.ok.inj hstory⟩
      | findMoment id => exact ⟨le_rfl, hsame, fun moment hmoment => by cases hmoment⟩
  | change made =>
    cases made with
    | saveStory story =>
      by_cases hana : story.ownerId = lit "ana"
      · simp only [anaAnswers, if_pos hana]
        exact ⟨le_rfl, Or.inr ⟨hana, rfl, rfl, rfl⟩⟩
      · simp only [anaAnswers, if_neg hana]
        exact ⟨le_rfl, Or.inl hsame⟩
    | _ => exact ⟨le_rfl, Or.inl hsame⟩

/-- A story of ana's. -/
def anaStory : StoryProps where
  id := lit "s"
  title := lit "Moon"
  content := ⟨[lit "Sleep."], [], 0, List.cons_ne_nil _ _⟩
  theme := lit "moon"
  status := .completed
  ownerId := lit "ana"
  createdAt := 1
  generatedAt := none
  audioUrl := none

/-- The story is saved and shared, and someone views it. -/
def anaCalls : Fin 3 → SharingCall
  | 0 => .change (.saveStory anaStory)
  | 1 => .post (lit "ana") (lit "s") .story 3 2
  | 2 => .view (toHex (List.replicate 16 0))

/-- The three calls one after the other. -/
def anaShares : List (Fin 3 × SharingEvent) ×
    Pool (Fin 3) SharingWorld SharingEffect SharingEffect.Reply (Option SharedContentResult) :=
  drive (fun _ _ => True) anaAnswers ((List.finRange 3).flatMap (List.replicate 6)) [] (sharing ⟨id, id⟩ [] anaCalls 5)

theorem share_secrecy_ana : ∃ before after link j saved reply request owner,
    anaShares.1 = before ++ (2, ⟨.view (.carryOut (.getSharedLinkByToken (toHex (List.replicate 16 0)))),
      .ok (some link)⟩) :: after ∧ (j, ⟨.create (.saveLink saved), reply⟩) ∈ before ∧
        saved.token = toHex (List.replicate 16 0) ∧ anaCalls j = .create request ∧ request.ownerId = some owner ∧
          IsOf owner request.resourceId (.story (storyToPublicJSON anaStory)) := by
  have hshown : shownBy (anaShares.2.procs 2) = some (.story (storyToPublicJSON anaStory)) := by decide +kernel
  obtain ⟨result, hdone, hcontent⟩ := exists_of_shownBy hshown
  exact share_secrecy (drive_runs (fun effect w _ => sharingEnv_anaAnswers effect w) _ .start) rfl hdone hcontent

end DreamWeaver.Sharing
