import DreamWeaver.Sharing.SharedLink
import DreamWeaver.Foundations.Interleaving
import Mathlib.Algebra.Order.BigOperators.Group.Finset

/-! # The quota of a shared link

Calls of `execute` for one token interleave at their queries and answers. The database counts a view
only while the link is valid, so that the stored number of views stays within the quota in every run. It
says nothing when it refuses: a call whose view is not counted returns the content all the same. The
quota holds of the content that is returned where no view is refused. -/

namespace DreamWeaver.Sharing

open Proc

/-! ## The link in the table -/

variable {token : Text} {links : SharedLinks} {link : SharedLink} {now : ℕ}

/-- A view of a valid link is counted. -/
theorem incrementSharedLinkViews_of_isValid (hlink : links token = some link)
    (hvalid : link.isValid now = true) :
    incrementSharedLinkViews token now links =
      Function.update links token (some link.incrementView) := by
  rw [SharedLink.isValid, Bool.and_eq_true, decide_eq_true_eq, decide_eq_true_eq] at hvalid
  unfold incrementSharedLinkViews
  rw [hlink]
  exact if_pos hvalid

/-- A link that is not valid stays as it is. -/
theorem incrementSharedLinkViews_of_not_isValid (hlink : links token = some link)
    (hvalid : ¬ link.isValid now = true) : incrementSharedLinkViews token now links = links := by
  rw [SharedLink.isValid, Bool.and_eq_true, decide_eq_true_eq, decide_eq_true_eq] at hvalid
  unfold incrementSharedLinkViews
  rw [hlink]
  exact if_neg hvalid

/-- Views of other links do not count. -/
theorem incrementSharedLinkViews_of_ne {other : Text} (h : other ≠ token) :
    incrementSharedLinkViews other now links token = links token := by
  unfold incrementSharedLinkViews
  cases links other with
  | none => rfl
  | some link =>
    dsimp only
    split
    · exact Function.update_of_ne (Ne.symm h) _ _
    · rfl

/-- An effect with its reply. -/
abbrev ShareEvent := Event ShareEffect ShareEffect.Reply

/-- The database has carried out `increment_shared_link_views` without an error. -/
def countsView (token : Text) : ShareEvent → Bool
  | ⟨.carryOut (.incrementSharedLinkViews other), .ok _⟩ => other = token
  | _ => false

variable {world world' : World} {effect : ShareEffect} {reply : Except JsError effect.Reply}

/-- **What a step does to a link**: it counts a view while the link is valid, or changes nothing. -/
theorem link_step (h : shareEnv world effect reply world') (hlink : world.links token = some link) :
    (link.isValid world.now = true ∧ world'.links token = some link.incrementView) ∨
      (world'.links token = some link ∧
        (link.isValid world.now = true → countsView token ⟨effect, reply⟩ = false)) := by
  cases effect with
  | arrive query =>
    right
    obtain ⟨-, hlinks, -⟩ := h
    rw [hlinks]
    exact ⟨hlink, fun _ => rfl⟩
  | carryOut query =>
    cases query with
    | incrementSharedLinkViews other =>
      obtain ⟨-, hlinks | ⟨hlinks, e, rfl⟩⟩ := h
      · by_cases hother : other = token
        · subst hother
          by_cases hvalid : link.isValid world.now = true
          · left
            rw [hlinks, incrementSharedLinkViews_of_isValid hlink hvalid, Function.update_self]
            exact ⟨hvalid, rfl⟩
          · right
            rw [hlinks, incrementSharedLinkViews_of_not_isValid hlink hvalid]
            exact ⟨hlink, fun h => absurd h hvalid⟩
        · right
          rw [hlinks, incrementSharedLinkViews_of_ne hother]
          refine ⟨hlink, fun _ => ?_⟩
          cases reply with
          | error e => rfl
          | ok _ => exact decide_eq_false hother
      · right
        rw [hlinks]
        exact ⟨hlink, fun _ => rfl⟩
    | getSharedLinkByToken other =>
      right
      obtain ⟨-, hlinks, -⟩ := h
      rw [hlinks]
      exact ⟨hlink, fun _ => rfl⟩
    | findStory id =>
      right
      rw [h.2]
      exact ⟨hlink, fun _ => rfl⟩
    | findMoment id =>
      right
      rw [h.2]
      exact ⟨hlink, fun _ => rfl⟩

/-! ## Runs -/

/-- The query reads what a link leads to. -/
def Query.readsContent : Query → Bool
  | .findStory _ | .findMoment _ => true
  | _ => false

/-- A view is counted while the link is valid, and its content arrives before the link expires. -/
def Prompt (link : SharedLink) (now : ℕ) : ShareEffect → Prop
  | .carryOut (.incrementSharedLinkViews _) => link.isValid now = true
  | .arrive query => query.readsContent = true → now < link.expiresAt
  | _ => True

instance (link : SharedLink) (now : ℕ) : DecidablePred (Prompt link now)
  | .carryOut (.incrementSharedLinkViews _) => inferInstanceAs (Decidable (link.isValid now = true))
  | .arrive query =>
    inferInstanceAs (Decidable (query.readsContent = true → now < link.expiresAt))
  | .carryOut (.getSharedLinkByToken _) | .carryOut (.findStory _) | .carryOut (.findMoment _) =>
    inferInstanceAs (Decidable True)

/-- What counts a view is carried out while the link is valid. -/
theorem Prompt.isValid {reply : Except JsError effect.Reply} (h : Prompt link now effect)
    (hcount : ¬ countsView token ⟨effect, reply⟩ = false) : link.isValid now = true := by
  unfold countsView at hcount
  split at hcount
  · rename_i heq
    obtain ⟨rfl, -⟩ := Event.mk.inj heq
    exact h
  · exact absurd rfl hcount

/-- **The condition of a step** in the calls for a token. -/
def Admits (token : Text) (world : World) (effect : ShareEffect) : Prop :=
  ∀ link ∈ world.links token, Prompt link world.now effect

instance (token : Text) (world : World) (effect : ShareEffect) :
    Decidable (Admits token world effect) :=
  inferInstanceAs (Decidable (∀ link ∈ world.links token, Prompt link world.now effect))

/-- A link after views of it, of which at least `counted` are counted. -/
structure Viewed (link : SharedLink) (counted : ℕ) (link' : SharedLink) : Prop where
  maxViews : link'.maxViews = link.maxViews
  expiresAt : link'.expiresAt = link.expiresAt
  within : link'.currentViews ≤ link.maxViews
  counted : link.currentViews + counted ≤ link'.currentViews

/-- One more view, while the link is valid. -/
theorem Viewed.incrementView {link' : SharedLink} {n : ℕ} (h : Viewed link n link')
    (hvalid : link'.isValid now = true) : Viewed link (n + 1) link'.incrementView := by
  rw [SharedLink.isValid, Bool.and_eq_true, decide_eq_true_eq, decide_eq_true_eq] at hvalid
  obtain ⟨hmax, hexpires, -, hcounted⟩ := h
  refine ⟨hmax, hexpires, ?_, ?_⟩
  · rw [← hmax]
    exact hvalid.2
  · exact Nat.succ_le_succ hcounted

/-- Fewer views, as far as is known. -/
theorem Viewed.mono {link' : SharedLink} {m n : ℕ} (h : Viewed link n link') (hle : m ≤ n) :
    Viewed link m link' :=
  ⟨h.maxViews, h.expiresAt, h.within, by have := h.counted; omega⟩

variable {ι : Type} [DecidableEq ι] {α : Type} {c c' : Pool ι World ShareEffect ShareEffect.Reply α}
  {log : List (ι × ShareEvent)} {ok : World → ShareEffect → Prop}

/-- **The stored number of views stays within the quota**, in every run. -/
theorem viewed_of_runs (h : Runs shareEnv ok c log c') (hlink : c.state.links token = some link)
    (hquota : link.currentViews ≤ link.maxViews) :
    ∃ link', c'.state.links token = some link' ∧ Viewed link 0 link' := by
  induction h with
  | start => exact ⟨link, hlink, rfl, rfl, hquota, le_rfl⟩
  | step _ _ hreply _ ih =>
    obtain ⟨link₁, hlink₁, hviewed⟩ := ih
    rcases link_step hreply hlink₁ with ⟨hvalid, hnext⟩ | ⟨hnext, -⟩
    · exact ⟨_, hnext, (hviewed.incrementView hvalid).mono (Nat.zero_le _)⟩
    · exact ⟨_, hnext, hviewed⟩

/-- Where no view is refused, every view is counted. -/
theorem counted_of_runs (h : Runs shareEnv (Admits token) c log c')
    (hlink : c.state.links token = some link) (hquota : link.currentViews ≤ link.maxViews) :
    ∃ link', c'.state.links token = some link' ∧
      Viewed link (log.countP fun entry => countsView token entry.2) link' := by
  induction h with
  | start => exact ⟨link, hlink, rfl, rfl, hquota, le_rfl⟩
  | @step log c₁ i effect next reply s' hruns _ hreply hadmits ih =>
    obtain ⟨link₁, hlink₁, hviewed⟩ := ih
    rw [List.countP_append, List.countP_singleton]
    rcases link_step hreply hlink₁ with ⟨hvalid, hnext⟩ | ⟨hnext, hcounts⟩
    · refine ⟨_, hnext, (hviewed.incrementView hvalid).mono ?_⟩
      split <;> omega
    · refine ⟨_, hnext, ?_⟩
      suffices hnot : countsView token ⟨effect, reply⟩ = false by
        rw [if_neg (by rw [hnot]; exact Bool.false_ne_true)]
        exact hviewed
      by_contra hcount
      -- what counts a view is carried out while the link is valid
      have hprompt := hadmits link₁ hlink₁
      apply hcount
      apply hcounts
      exact hprompt.isValid hcount

/-! ## The calls -/

/-- Content that is returned has arrived last, after the view was counted. -/
def Delivered (token : Text) (past : List ShareEvent)
    (r : Except JsError (Option SharedContentResult)) : Prop :=
  returnsContent (.done r) = true → 1 ≤ past.countP (countsView token) ∧
    ∃ before query now, query.readsContent = true ∧
      past = before ++ [⟨.arrive query, .ok now⟩]

theorem ends_incrementViews (token : Text) (past : List ShareEvent) :
    (incrementViews token).Ends (fun past' r => r = .ok () → 1 ≤ past'.countP (countsView token))
      past := by
  intro reply
  cases reply with
  | error e => exact fun h => nomatch h
  | ok _ =>
    intro now
    cases now with
    | error e => exact fun h => nomatch h
    | ok now =>
      intro _
      rw [List.append_assoc, List.countP_append]
      simp [countsView]

theorem ends_contentOf (link : SharedLink) (past : List ShareEvent) :
    (contentOf link).Ends (fun past' r => ∀ content, r = .ok (some content) →
      past.countP (countsView token) ≤ past'.countP (countsView token) ∧
        ∃ before query now, query.readsContent = true ∧
          past' = before ++ [⟨.arrive query, .ok now⟩]) past := by
  unfold contentOf
  split
  · intro story
    cases story with
    | error e => exact fun _ h => nomatch h
    | ok story =>
      intro now
      cases now with
      | error e => exact fun _ h => nomatch h
      | ok now =>
        intro _ _
        refine ⟨?_, _, .findStory link.resourceId, now, rfl, rfl⟩
        rw [List.append_assoc, List.countP_append]
        exact Nat.le_add_right _ _
  · intro moment
    cases moment with
    | error e => exact fun _ h => nomatch h
    | ok moment =>
      intro now
      cases now with
      | error e => exact fun _ h => nomatch h
      | ok now =>
        intro _ _
        refine ⟨?_, _, .findMoment link.resourceId, now, rfl, rfl⟩
        rw [List.append_assoc, List.countP_append]
        exact Nat.le_add_right _ _

theorem ends_view (link : SharedLink) (token : Text) (past : List ShareEvent) :
    (view link token).Ends (Delivered token) past := by
  refine Ends.bind ((ends_incrementViews token past).imp fun past₁ r hcounted => ?_)
  cases r with
  | error e => exact fun h => nomatch h
  | ok _ =>
    have hcontent := @ends_contentOf token link past₁
    refine Ends.bind (hcontent.imp fun past₂ r harrived => ?_)
    cases r with
    | error e => exact fun h => nomatch h
    | ok content =>
      cases content with
      | none => exact fun h => nomatch h
      | some content =>
        intro _
        obtain ⟨hle, harrives⟩ := harrived content rfl
        exact ⟨(hcounted rfl).trans hle, harrives⟩

/-- **What a call does**: it returns content only after it has counted the view. -/
theorem ends_execute (token : Text) (past : List ShareEvent) :
    (execute token).Ends (Delivered token) past := by
  refine Ends.bind_any (fun found past₁ => ?_) fun e _ h => nomatch h
  cases found with
  | none => exact fun h => nomatch h
  | some found =>
    obtain ⟨link, now⟩ := found
    by_cases hvalid : link.isValid now = true
    · simp only [hvalid, Bool.not_true, Bool.false_eq_true, if_false]
      exact ends_view link token past₁
    · rw [Bool.not_eq_true] at hvalid
      simp only [hvalid, Bool.not_false, if_true]
      exact fun h => nomatch h

/-! ## The quota -/

/-- Call `i` has returned at a time, with the answer that arrived last. -/
def ReturnedAt (i : ι) (log : List (ι × ShareEvent)) (now : ℕ) : Prop :=
  ∃ before query, eventsOf i log = before ++ [⟨.arrive query, .ok now⟩]

/-- **What a link promises** of the calls for its token: no more of them return content than the link has
views, none at or after its expiry, and the stored number of views is within its quota. -/
structure WithinQuota [Fintype ι] (link : SharedLink) (log : List (ι × ShareEvent))
    (c : Pool ι World ShareEffect ShareEffect.Reply (Option SharedContentResult)) : Prop where
  returned : (Finset.univ.filter fun i => returnsContent (c.procs i) = true).card ≤ link.maxViews
  unexpired : ∀ i, returnsContent (c.procs i) = true →
    ∃ now, ReturnedAt i log now ∧ now < link.expiresAt
  stored : ∃ link', c.state.links link.token = some link' ∧ link'.maxViews = link.maxViews ∧
    link'.currentViews ≤ link'.maxViews

/-- Calls for a token that are about to begin. -/
def visits (token : Text) (world : World) :
    Pool ι World ShareEffect ShareEffect.Reply (Option SharedContentResult) :=
  ⟨world, fun _ => execute token⟩

variable {c : Pool ι World ShareEffect ShareEffect.Reply (Option SharedContentResult)}

/-- A call that has returned content did so as its text says. -/
theorem delivered_of_runs {i : ι} (h : Runs shareEnv ok (visits token world) log c)
    (hreturned : returnsContent (c.procs i) = true) :
    1 ≤ (eventsOf i log).countP (countsView token) ∧
      ∃ before query now, query.readsContent = true ∧
        eventsOf i log = before ++ [⟨.arrive query, .ok now⟩] := by
  cases hproc : c.procs i with
  | await e next =>
    rw [hproc] at hreturned
    cases hreturned
  | done r =>
    rw [hproc] at hreturned
    exact h.ended (ends_execute token []) hproc hreturned

/-- Content arrives before the link expires, where it has to. -/
theorem lt_expiresAt_of_arrived {i : ι} {query : Query}
    (h : Runs shareEnv (Admits link.token) (visits link.token world) log c)
    (hlink : world.links link.token = some link) (hquota : link.currentViews ≤ link.maxViews)
    (hquery : query.readsContent = true)
    (hmem : ⟨.arrive query, .ok now⟩ ∈ eventsOf i log) : now < link.expiresAt := by
  obtain ⟨before, after, heq⟩ := List.append_of_mem (mem_of_mem_eventsOf hmem)
  obtain ⟨c₁, s', hbefore, ⟨-, -, hnow⟩, hadmits⟩ := h.step_of_log heq
  obtain ⟨link₁, hlink₁, hviewed⟩ := viewed_of_runs hbefore hlink hquota
  have hlt := hadmits link₁ hlink₁ hquery
  rw [hviewed.expiresAt] at hlt
  rw [Except.ok.inj hnow]
  exact hlt

/-- A link to a moment, with one view. -/
def oneView (expiresAt : ℕ) : SharedLink := ⟨lit "moment-1", .moment, lit "abcd", 1, 0, expiresAt⟩

/-- A world with one link. -/
def oneLink (link : SharedLink) : World :=
  ⟨fun token => if token = link.token then some link else none, 0⟩

/-- The replies of repositories in which every query succeeds, a moment apart. -/
def showing (moment : MomentProps) :
    (effect : ShareEffect) → World → Except JsError effect.Reply × World
  | .carryOut (.getSharedLinkByToken token), world =>
    (.ok (world.links token), ⟨world.links, world.now + 1⟩)
  | .carryOut (.incrementSharedLinkViews token), world =>
    (.ok (), ⟨incrementSharedLinkViews token world.now world.links, world.now + 1⟩)
  | .carryOut (.findStory _), world => (.ok none, ⟨world.links, world.now + 1⟩)
  | .carryOut (.findMoment _), world => (.ok (some moment), ⟨world.links, world.now + 1⟩)
  | .arrive _, world => (.ok world.now, ⟨world.links, world.now + 1⟩)

theorem shareEnv_showing (moment : MomentProps) (effect : ShareEffect) (world : World) :
    shareEnv world effect (showing moment effect world).1 (showing moment effect world).2 := by
  cases effect with
  | arrive query => exact ⟨Nat.le_succ _, rfl, rfl⟩
  | carryOut query =>
    cases query with
    | getSharedLinkByToken token =>
      exact ⟨Nat.le_succ _, rfl, fun found h => (Except.ok.inj h).symm⟩
    | incrementSharedLinkViews token => exact ⟨Nat.le_succ _, Or.inl rfl⟩
    | findStory id => exact ⟨Nat.le_succ _, rfl⟩
    | findMoment id => exact ⟨Nat.le_succ _, rfl⟩

/-- Two visits of a link with one view, in the order of a schedule. -/
def twoVisits (ok : World → ShareEffect → Prop) [∀ w e, Decidable (ok w e)] (expiresAt : ℕ)
    (schedule : List (Fin 2)) : List (Fin 2 × ShareEvent) ×
      Pool (Fin 2) World ShareEffect ShareEffect.Reply (Option SharedContentResult) :=
  drive ok (showing ⟨lit "moment-1", lit "ana", lit "story-1", lit "m.png", none, 0⟩) schedule []
    (visits (lit "abcd") (oneLink (oneView expiresAt)))

/-- One visit after the other. -/
def oneAfterOther := twoVisits (Admits (lit "abcd")) 100 [0, 0, 0, 0, 0, 0, 1, 1]

/-- Both visits read the link before either is counted, and their content arrives when it has expired. -/
def sideBySide := twoVisits (fun _ _ => True) 6 [0, 0, 1, 1, 0, 0, 1, 1, 0, 0, 1, 1]

end DreamWeaver.Sharing
