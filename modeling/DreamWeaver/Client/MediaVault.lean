import DreamWeaver.Foundations.JsText
import DreamWeaver.Foundations.Transitions
import Mathlib.Data.List.Nodup
import Mathlib.Data.List.Perm.Basic
import Mathlib.Data.List.Sort

/-! # The media vault

`MediaVault` (`src/infrastructure/cache/MediaVault.ts`) keeps stories in a database of the browser for offline
playback, 50 at most: a save that finds 50 stories deletes the oldest first. To find out, to delete and to put the
new story are three requests, and other calls come in between. The database answers the requests one after the
other; it has no two stories of the same id. -/

namespace DreamWeaver.Client

open Transitions

/-! ## Calls -/

/-- `StoryRecord`, with the time that `createdAt` denotes; the audio and the time of the last playback are left
out. -/
structure StoryRecord where
  id : Text
  title : Text
  content : Text
  theme : Text
  createdAt : ℤ
  deriving DecidableEq

/-- A call of `saveStory` or `deleteStory`, with the request that it awaits. -/
inductive VaultCall where
  /-- `saveStory` awaits `db.getAll('stories')`. -/
  | counting (story : StoryRecord)
  /-- `saveStory` awaits `db.delete('stories', oldest.id)`. -/
  | evicting (story oldest : StoryRecord)
  /-- `saveStory` awaits `db.put('stories', story)`. -/
  | putting (story : StoryRecord)
  /-- `deleteStory` awaits `db.delete('stories', id)`. -/
  | deleting (id : Text)
  deriving DecidableEq

/-- The order by which `saveStory` sorts. -/
def NoLater (a b : StoryRecord) : Prop := a.createdAt ≤ b.createdAt

instance : DecidableRel NoLater := fun a b => inferInstanceAs (Decidable (a.createdAt ≤ b.createdAt))

instance : Std.Total NoLater := ⟨fun _ _ => Int.le_total _ _⟩

instance : IsTrans StoryRecord NoLater := ⟨fun _ _ _ => Int.le_trans⟩

/-- `allStories.sort(...)[0]` -/
def oldestOf (allStories : List StoryRecord) : Option StoryRecord := (allStories.insertionSort NoLater).head?

/-- What `saveStory` requests when it has got all stories. -/
def afterGetAll (story : StoryRecord) (allStories : List StoryRecord) : VaultCall :=
  if 50 ≤ allStories.length then
    match oldestOf allStories with
    | some oldest => .evicting story oldest
    | none => .putting story
  else .putting story

/-- The stories without that of an id. -/
def deleteKey (id : Text) (stories : List StoryRecord) : List StoryRecord := stories.filter fun s => s.id ≠ id

/-- The stories with one that replaces another of its id. -/
def putRecord (story : StoryRecord) (stories : List StoryRecord) : List StoryRecord :=
  deleteKey story.id stories ++ [story]

/-! ## The vault -/

/-- A vault as its calls leave it. -/
structure Vault where
  stories : List StoryRecord
  nodup : (stories.map StoryRecord.id).Nodup
  capacity : stories.length ≤ 50

/-- The stories in the database and the calls that have not completed. -/
structure VaultWorld where
  stories : List StoryRecord
  calls : List VaultCall
  deriving DecidableEq

/-- A vault without calls. -/
def Vault.start (v : Vault) : VaultWorld := ⟨v.stories, []⟩

/-- What happens to a vault. -/
inductive VaultAction where
  | saveStory (story : StoryRecord)
  | deleteStory (id : Text)
  /-- The database answers the request of a call; where all stories are requested, it has an order for them. -/
  | answer (call : VaultCall) (order : List StoryRecord)
  deriving DecidableEq

namespace VaultWorld

/-- The world after the answer to a call. -/
def answered (w : VaultWorld) (order : List StoryRecord) : VaultCall → VaultWorld
  | .counting story => { w with calls := afterGetAll story order :: w.calls.erase (.counting story) }
  | .evicting story oldest =>
    ⟨deleteKey oldest.id w.stories, .putting story :: w.calls.erase (.evicting story oldest)⟩
  | .putting story => ⟨putRecord story w.stories, w.calls.erase (.putting story)⟩
  | .deleting id => ⟨deleteKey id w.stories, w.calls.erase (.deleting id)⟩

/-- The world after an action, if it can happen. -/
def step (w : VaultWorld) : VaultAction → Option VaultWorld
  | .saveStory story => some { w with calls := .counting story :: w.calls }
  | .deleteStory id => some { w with calls := .deleting id :: w.calls }
  | .answer call order => if call ∈ w.calls ∧ order.Perm w.stories then some (w.answered order call) else none

/-- A completed call. -/
inductive Completion where
  | saved (story : StoryRecord)
  | deleted (id : Text)
  deriving DecidableEq

/-- The call that an action completes. -/
def completions (_ : VaultWorld) : VaultAction → List Completion
  | .answer (.putting story) _ => [.saved story]
  | .answer (.deleting id) _ => [.deleted id]
  | _ => []

/-! ## The policy -/

/-- What is said of an eviction: it takes no other story when the story that is saved is stored, and none but the
oldest. -/
def EvictsOldest (w : VaultWorld) : VaultAction → Prop
  | .answer (.evicting story oldest) _ => .evicting story oldest ∈ w.calls →
    (story.id ∈ w.stories.map StoryRecord.id → ∀ s ∈ w.stories, s.id ≠ story.id → s.id ≠ oldest.id) ∧
      ∀ evicted ∈ w.stories, evicted.id = oldest.id → ∀ s ∈ w.stories, evicted.createdAt ≤ s.createdAt
  | _ => True

/-- The story whose save completed last is stored, unless it was deleted since. -/
def LatestKept (past : List Completion) (w : VaultWorld) : Prop :=
  ∀ before story after, past = before ++ .saved story :: after →
    (∀ c ∈ after, (∀ s, c ≠ .saved s) ∧ c ≠ .deleted story.id) → story ∈ w.stories

/-- A save that has counted the stories and not put its own. -/
def isPutting : VaultCall → Bool
  | .putting _ => true
  | _ => false

/-- A save that is to evict a story. -/
def isEvicting : VaultCall → Bool
  | .evicting _ _ => true
  | _ => false

/-- **The condition of a step**: a save counts the stories only when no other save is to evict one, and there is
room for the saves that have counted before; and when the vault is full, its story is a new one, or the oldest. -/
def Heedful (w : VaultWorld) : VaultAction → Prop
  | .answer (.counting story) order =>
    w.calls.countP isEvicting = 0 ∧
      (w.calls.countP isPutting = 0 ∨ w.stories.length + w.calls.countP isPutting < 50) ∧
        (50 ≤ w.stories.length → story.id ∈ w.stories.map StoryRecord.id →
          (oldestOf order).map StoryRecord.id = some story.id)
  | _ => True

instance (w : VaultWorld) : DecidablePred w.EvictsOldest := fun a => by
  unfold EvictsOldest
  split <;> infer_instance

instance (w : VaultWorld) : DecidablePred w.Heedful := fun a => by
  unfold Heedful
  split <;> infer_instance

/-! ## Stories -/

variable {w w' : VaultWorld} {a : VaultAction} {story oldest : StoryRecord} {stories order : List StoryRecord}
  {id : Text} {past : List Completion} {trace : List VaultAction}

theorem deleteKey_sublist (id : Text) (stories : List StoryRecord) : (deleteKey id stories).Sublist stories :=
  List.filter_sublist

theorem mem_deleteKey {s : StoryRecord} : s ∈ deleteKey id stories ↔ s ∈ stories ∧ s.id ≠ id := by
  rw [deleteKey, List.mem_filter, decide_eq_true_iff]

/-- A story that is stored is deleted. -/
theorem length_deleteKey_lt (h : id ∈ stories.map StoryRecord.id) : (deleteKey id stories).length < stories.length := by
  obtain ⟨s, hs, rfl⟩ := List.mem_map.mp h
  exact List.length_filter_lt_length_iff_exists.mpr ⟨s, hs, by simp⟩

theorem length_putRecord_le (story : StoryRecord) (stories : List StoryRecord) :
    (putRecord story stories).length ≤ stories.length + 1 := by
  rw [putRecord, List.length_append, List.length_singleton]
  exact Nat.add_le_add_right (deleteKey_sublist _ _).length_le 1

theorem nodup_deleteKey (h : (stories.map StoryRecord.id).Nodup) :
    ((deleteKey id stories).map StoryRecord.id).Nodup :=
  h.sublist ((deleteKey_sublist id stories).map StoryRecord.id)

theorem nodup_putRecord (h : (stories.map StoryRecord.id).Nodup) :
    ((putRecord story stories).map StoryRecord.id).Nodup := by
  rw [putRecord, List.map_append, List.nodup_append]
  refine ⟨nodup_deleteKey h, by simp, fun a ha b hb => ?_⟩
  obtain ⟨s, hs, rfl⟩ := List.mem_map.mp ha
  rw [List.mem_singleton.mp hb]
  exact (mem_deleteKey.mp hs).2

/-- The oldest story is stored, and none is older. -/
theorem oldestOf_spec (h : oldestOf stories = some oldest) :
    oldest ∈ stories ∧ ∀ s ∈ stories, oldest.createdAt ≤ s.createdAt := by
  have hperm := List.perm_insertionSort NoLater stories
  have hsorted := List.pairwise_insertionSort NoLater stories
  unfold oldestOf at h
  generalize stories.insertionSort NoLater = sorted at h hperm hsorted
  cases sorted with
  | nil => cases h
  | cons first rest =>
    obtain rfl := Option.some.inj h
    refine ⟨hperm.mem_iff.mp List.mem_cons_self, fun s hs => ?_⟩
    rcases List.mem_cons.mp (hperm.mem_iff.mpr hs) with rfl | hmem
    · exact Int.le_refl _
    · exact (List.pairwise_cons.mp hsorted).1 s hmem

theorem oldestOf_isSome (h : stories ≠ []) : ∃ oldest, oldestOf stories = some oldest := by
  have hlen := (List.perm_insertionSort NoLater stories).length_eq
  unfold oldestOf
  cases hsorted : stories.insertionSort NoLater with
  | nil =>
    rw [hsorted] at hlen
    exact absurd (List.length_eq_zero_iff.mp hlen.symm) h
  | cons first rest => exact ⟨first, rfl⟩

/-! ## Evictions that are due -/

/-- What an eviction that was decided relies on. -/
structure Due (stories : List StoryRecord) (story oldest : StoryRecord) : Prop where
  capacity : stories.length ≤ 50
  full : 50 ≤ stories.length → oldest.id ∈ stories.map StoryRecord.id
  other : story.id ∈ stories.map StoryRecord.id → story.id = oldest.id
  least : ∀ evicted ∈ stories, evicted.id = oldest.id → ∀ s ∈ stories, evicted.createdAt ≤ s.createdAt

/-- Deletions leave it due. -/
theorem Due.deleteKey (h : Due stories story oldest) (id : Text) : Due (deleteKey id stories) story oldest where
  capacity := (deleteKey_sublist id stories).length_le.trans h.capacity
  full hlen := by
    have hself := (deleteKey_sublist id stories).eq_of_length_le (h.capacity.trans hlen)
    rw [hself] at hlen ⊢
    exact h.full hlen
  other hmem := h.other (((deleteKey_sublist id stories).map _).subset hmem)
  least evicted hevicted heq s hs :=
    h.least evicted ((deleteKey_sublist id stories).subset hevicted) heq s ((deleteKey_sublist id stories).subset hs)

/-- An eviction that is decided with a full vault, for a new story or the oldest, is due. -/
theorem due_of_oldestOf (hnodup : (stories.map StoryRecord.id).Nodup) (hcapacity : stories.length ≤ 50)
    (hperm : order.Perm stories) (holdest : oldestOf order = some oldest)
    (hnew : story.id ∈ stories.map StoryRecord.id → (oldestOf order).map StoryRecord.id = some story.id) :
    Due stories story oldest := by
  obtain ⟨hmem, hleast⟩ := oldestOf_spec holdest
  have hstored := hperm.mem_iff.mp hmem
  refine ⟨hcapacity, fun _ => List.mem_map_of_mem hstored, fun hstory => ?_, fun evicted hevicted heq s hs => ?_⟩
  · have h := hnew hstory
    rw [holdest] at h
    exact (Option.some.inj h).symm
  · -- the ids are distinct, so it is the oldest itself
    obtain rfl := List.inj_on_of_nodup_map hnodup hevicted hstored heq
    exact hleast s (hperm.mem_iff.mpr hs)

/-- **The eviction of a story** that is due makes room. -/
theorem Due.length_lt (h : Due stories story oldest) : (Client.deleteKey oldest.id stories).length + 1 ≤ 50 := by
  by_cases hfull : 50 ≤ stories.length
  · have hlt := length_deleteKey_lt (h.full hfull)
    have hle := h.capacity
    omega
  · have hle := (deleteKey_sublist oldest.id stories).length_le
    omega

/-! ## Steps -/

/-- **The invariant**: the vault has room for the saves that have counted, or one of them is alone, and its eviction
is due. -/
structure Fits (w : VaultWorld) : Prop where
  nodup : (w.stories.map StoryRecord.id).Nodup
  due : ∀ story oldest, .evicting story oldest ∈ w.calls → Due w.stories story oldest
  room : w.calls.countP isEvicting = 0 ∧ w.stories.length + w.calls.countP isPutting ≤ 50 ∨
    w.calls.countP isEvicting = 1 ∧ w.calls.countP isPutting = 0 ∧ w.stories.length ≤ 50

/-- The calls without one of them. -/
theorem countP_erase {call : VaultCall} {calls : List VaultCall} (p : VaultCall → Bool) (h : call ∈ calls) :
    calls.countP p = (calls.erase call).countP p + if p call then 1 else 0 := by
  rw [(List.perm_cons_erase h).countP_eq, List.countP_cons]

theorem not_mem_of_countP {p : VaultCall → Bool} {calls : List VaultCall} {call : VaultCall}
    (h : calls.countP p = 0) (hp : p call = true) : call ∉ calls := fun hmem =>
  absurd hp (List.countP_eq_zero.mp h call hmem)

/-- A call begins. -/
theorem Fits.call {call : VaultCall} (h : Fits w) (hputting : isPutting call = false)
    (hevicting : isEvicting call = false) : Fits { w with calls := call :: w.calls } where
  nodup := h.nodup
  due story oldest hmem := by
    rcases List.mem_cons.mp hmem with rfl | hmem
    · cases hevicting
    · exact h.due story oldest hmem
  room := by
    rw [List.countP_cons, List.countP_cons, hputting, hevicting]
    exact h.room

/-- **One step** that meets the condition. -/
theorem Fits.step (h : Fits w) (hok : Heedful w a) (hstep : w.step a = some w') : Fits w' := by
  cases a with
  | saveStory story =>
    obtain rfl := Option.some.inj hstep
    exact h.call rfl rfl
  | deleteStory id =>
    obtain rfl := Option.some.inj hstep
    exact h.call rfl rfl
  | answer call order =>
    rw [VaultWorld.step, Option.ite_none_right_eq_some] at hstep
    obtain ⟨⟨hmem, hperm⟩, hw⟩ := hstep
    obtain rfl := Option.some.inj hw
    have hputting := countP_erase isPutting hmem
    have hevicting := countP_erase isEvicting hmem
    have hroom := h.room
    cases call with
    | counting story =>
      obtain ⟨hnone, halone, hnew⟩ := hok
      have hcapacity : w.stories.length ≤ 50 := by omega
      have hother : ∀ story' oldest', .evicting story' oldest' ∉ w.calls :=
        fun _ _ => not_mem_of_countP hnone rfl
      simp only [isPutting, isEvicting, Bool.false_eq_true, if_false] at hputting hevicting
      simp only [answered, afterGetAll, hperm.length_eq]
      by_cases hfull : 50 ≤ w.stories.length
      -- a full vault has an oldest story, whose eviction is due from here on
      · have hsome : order ≠ [] := fun hnil => by
          rw [hnil] at hperm
          rw [← hperm.length_eq] at hfull
          exact absurd hfull (by decide)
        obtain ⟨oldest, holdest⟩ := oldestOf_isSome hsome
        simp only [if_pos hfull, holdest]
        refine ⟨h.nodup, fun story' oldest' hmem' => ?_, .inr ⟨?_, ?_, hcapacity⟩⟩
        · rcases List.mem_cons.mp hmem' with heq | hold
          · obtain ⟨rfl, rfl⟩ := VaultCall.evicting.inj heq
            exact due_of_oldestOf h.nodup hcapacity hperm holdest (hnew hfull)
          · exact absurd (List.mem_of_mem_erase hold) (hother _ _)
        · rw [List.countP_cons_of_pos rfl]
          omega
        · rw [List.countP_cons_of_neg Bool.false_ne_true]
          omega
      · simp only [if_neg hfull]
        refine ⟨h.nodup, fun story' oldest' hmem' => ?_, .inl ⟨?_, ?_⟩⟩
        · rcases List.mem_cons.mp hmem' with heq | hold
          · cases heq
          · exact absurd (List.mem_of_mem_erase hold) (hother _ _)
        · rw [List.countP_cons_of_neg Bool.false_ne_true]
          omega
        · rw [List.countP_cons_of_pos rfl]
          dsimp only
          omega
    | evicting story oldest =>
      -- the eviction makes the room that the put of its own save takes
      have hlt := (h.due story oldest hmem).length_lt
      simp only [isPutting, isEvicting, if_true, Bool.false_eq_true, if_false] at hputting hevicting
      have hnone : (w.calls.erase (.evicting story oldest)).countP isEvicting = 0 := by omega
      refine ⟨nodup_deleteKey h.nodup, fun story' oldest' hmem' => ?_, .inl ⟨?_, ?_⟩⟩
      · rcases List.mem_cons.mp hmem' with heq | hold
        · cases heq
        · exact absurd hold (not_mem_of_countP hnone rfl)
      · rw [answered, List.countP_cons_of_neg Bool.false_ne_true, hnone]
      · rw [answered, List.countP_cons_of_pos rfl]
        dsimp only
        omega
    | putting story =>
      -- while a save puts its story, no eviction is due
      have hle := length_putRecord_le story w.stories
      simp only [isPutting, isEvicting, if_true, Bool.false_eq_true, if_false] at hputting hevicting
      have hnone : w.calls.countP isEvicting = 0 := by omega
      refine ⟨nodup_putRecord h.nodup, fun story' oldest' hmem' => ?_, .inl ⟨?_, ?_⟩⟩
      · exact absurd (List.mem_of_mem_erase hmem') (not_mem_of_countP hnone rfl)
      · rw [answered]
        dsimp only
        omega
      · rw [answered]
        dsimp only
        omega
    | deleting id =>
      have hle := (deleteKey_sublist id w.stories).length_le
      simp only [isPutting, isEvicting, Bool.false_eq_true, if_false] at hputting hevicting
      refine ⟨nodup_deleteKey h.nodup, fun story' oldest' hmem' => ?_, ?_⟩
      · exact (h.due story' oldest' (List.mem_of_mem_erase hmem')).deleteKey id
      · rw [answered]
        dsimp only
        omega

/-- An eviction that is due takes the oldest story, and no other when the story that is saved is stored. -/
theorem Fits.evictsOldest (h : Fits w) (a : VaultAction) : EvictsOldest w a := by
  unfold EvictsOldest
  split
  · rename_i story oldest order
    intro hmem
    have hdue := h.due story oldest hmem
    refine ⟨fun hstored s _ hother => ?_, hdue.least⟩
    rwa [← hdue.other hstored]
  · trivial

/-! ## The last save -/

/-- The story of the last save is stored, or another save is about to put its own. -/
def LatestPending (past : List Completion) (w : VaultWorld) : Prop :=
  ∀ before story after, past = before ++ .saved story :: after →
    (∀ c ∈ after, (∀ s, c ≠ .saved s) ∧ c ≠ .deleted story.id) →
      story ∈ w.stories ∨ ∃ other, .putting other ∈ w.calls

/-- The last of the completed calls is the one in question, or comes after it. -/
theorem completion_cases {before after : List Completion} {c last : Completion}
    (h : past ++ [last] = before ++ c :: after) :
    c = last ∨ ∃ after', after = after' ++ [last] ∧ past = before ++ c :: after' := by
  rcases List.eq_nil_or_concat after with rfl | ⟨after', final, rfl⟩
  · exact .inl (List.cons.inj (List.append_inj' h rfl).2).1.symm
  · rw [List.concat_eq_append, ← List.cons_append, ← List.append_assoc] at h
    obtain ⟨hpast, hlast⟩ := List.append_inj' h rfl
    exact .inr ⟨after', by rw [List.concat_eq_append, (List.cons.inj hlast).1], hpast⟩

/-- A step that completes no call and touches no story. -/
theorem LatestPending.of_same (h : LatestPending past w) (hstories : w'.stories = w.stories)
    (hcalls : ∀ other, .putting other ∈ w.calls → .putting other ∈ w'.calls) : LatestPending (past ++ []) w' := by
  rw [List.append_nil]
  intro before story after hpast hafter
  rw [hstories]
  exact (h before story after hpast hafter).imp_right fun ⟨other, hmem⟩ => ⟨other, hcalls other hmem⟩

/-- **One step** keeps the story of the last save. -/
theorem LatestPending.step (h : LatestPending past w) (hstep : w.step a = some w') :
    LatestPending (past ++ w.completions a) w' := by
  cases a with
  | saveStory story =>
    obtain rfl := Option.some.inj hstep
    exact h.of_same rfl fun other hmem => List.mem_cons_of_mem _ hmem
  | deleteStory id =>
    obtain rfl := Option.some.inj hstep
    exact h.of_same rfl fun other hmem => List.mem_cons_of_mem _ hmem
  | answer call order =>
    rw [VaultWorld.step, Option.ite_none_right_eq_some] at hstep
    obtain ⟨-, hw⟩ := hstep
    obtain rfl := Option.some.inj hw
    cases call with
    | counting story =>
      refine h.of_same rfl fun other hmem => List.mem_cons_of_mem _ ?_
      exact (List.mem_erase_of_ne VaultCall.noConfusion).mpr hmem
    | evicting story oldest =>
      -- the save puts its own story next
      exact fun _ _ _ _ _ => .inr ⟨story, List.mem_cons_self⟩
    | putting story =>
      intro before latest after hpast hafter
      rcases completion_cases hpast with heq | ⟨after', rfl, -⟩
      · obtain rfl := Completion.saved.inj heq
        exact .inl (List.mem_append_right _ (List.mem_singleton_self _))
      · exact absurd rfl ((hafter _ (List.mem_append_right _ (List.mem_singleton_self _))).1 story)
    | deleting id =>
      intro before latest after hpast hafter
      rcases completion_cases hpast with heq | ⟨after', rfl, hold⟩
      · cases heq
      -- the deletion is of another story than the one that was saved last
      · have hother := (hafter _ (List.mem_append_right _ (List.mem_singleton_self _))).2
        rcases h before latest after' hold fun c hc => hafter c (List.mem_append_left _ hc) with hmem | ⟨other, hmem⟩
        · exact .inl (mem_deleteKey.mpr ⟨hmem, fun heq => hother (heq ▸ rfl)⟩)
        · exact .inr ⟨other, (List.mem_erase_of_ne VaultCall.noConfusion).mpr hmem⟩

end VaultWorld

/-! ## Runs -/

open VaultWorld

/-- What is said of the vault in a run: when all calls have completed, it has at most 50 stories, among them that of
the last save, unless it was deleted; and evictions take the oldest story, and no other for a story that is stored. -/
structure VaultKept (v : Vault) (trace : List VaultAction) : Prop where
  settled : ∀ w, runFrom VaultWorld.step v.start trace = some w → w.calls = [] →
    w.stories.length ≤ 50 ∧ LatestKept (outputs VaultWorld.step completions v.start trace) w
  evictions : Along VaultWorld.step EvictsOldest v.start trace

/-- **The policy of the vault**, in every run whose saves are heedful of each other. -/
theorem vault_kept (v : Vault) (trace : List VaultAction) (hok : Along VaultWorld.step Heedful v.start trace) :
    VaultKept v trace := by
  have hstart : Fits v.start := ⟨v.nodup, fun _ _ h => (nomatch h), .inl ⟨rfl, v.capacity⟩⟩
  have hkeep : ∀ w a w', Fits w → Heedful w a → w.step a = some w' → Fits w' := fun _ _ _ h hok hstep => h.step hok hstep
  refine ⟨fun w hrun hdone => ⟨?_, ?_⟩, Along.of_invariant hkeep (fun w a h => h.evictsOldest a) hstart hok⟩
  · have hfits := run_invariant hkeep hstart hok hrun
    -- without calls, what there is room for are the stories alone
    have hroom := hfits.room
    omega
  · have hinit : LatestPending [] v.start := fun before story after hpast _ => absurd hpast.symm (by simp)
    have hlatest := run_outputs (I := LatestPending) (fun _ _ _ _ h _ hstep => LatestPending.step h hstep)
      hinit hok hrun
    intro before story after hpast hafter
    rcases hlatest before story after hpast hafter with hmem | ⟨other, hmem⟩
    · exact hmem
    · rw [hdone] at hmem
      cases hmem

/-- The story of a day. -/
def dailyStory (day : ℕ) : StoryRecord :=
  ⟨(List.replicate day (lit "a")).flatten, lit "Moon", lit "Once", lit "night", day⟩

/-- The stories of the first days. -/
def dailyStories (days : ℕ) : List StoryRecord := (List.range days).map dailyStory

/-- The ids of the days have different lengths. -/
theorem nodup_dailyStories (days : ℕ) : ((dailyStories days).map StoryRecord.id).Nodup := by
  rw [dailyStories, List.map_map]
  refine List.nodup_range.map fun day day' heq => ?_
  have hlength := congrArg List.length heq
  simpa [dailyStory, show (lit "a").length = 1 from rfl] using hlength

theorem length_dailyStories (days : ℕ) : (dailyStories days).length = days := by simp [dailyStories]

/-- The vault after 49 days. -/
def nearlyFull : Vault :=
  ⟨dailyStories 49, nodup_dailyStories 49, (length_dailyStories 49).trans_le (by decide)⟩

/-- The vault after 50 days. -/
def fullVault : Vault := ⟨dailyStories 50, nodup_dailyStories 50, (length_dailyStories 50).le⟩

/-- A save that evicts the oldest story. -/
def savedAlone : List VaultAction :=
  [.saveStory (dailyStory 50), .answer (.counting (dailyStory 50)) (dailyStories 50),
    .answer (.evicting (dailyStory 50) (dailyStory 0)) (dailyStories 50),
    .answer (.putting (dailyStory 50)) ((dailyStories 50).drop 1)]

theorem vault_kept_alone : VaultKept fullVault savedAlone := vault_kept fullVault savedAlone (by decide +kernel)

/-- Two saves that both find 49 stories. -/
def savedTogether : List VaultAction :=
  [.saveStory (dailyStory 49), .saveStory (dailyStory 50), .answer (.counting (dailyStory 49)) (dailyStories 49),
    .answer (.counting (dailyStory 50)) (dailyStories 49), .answer (.putting (dailyStory 49)) (dailyStories 49),
    .answer (.putting (dailyStory 50)) (dailyStories 50)]

/-- A story of a full vault is saved again: the oldest is evicted all the same. -/
def savedAgain : List VaultAction :=
  [.saveStory (dailyStory 49), .answer (.counting (dailyStory 49)) (dailyStories 50),
    .answer (.evicting (dailyStory 49) (dailyStory 0)) (dailyStories 50)]

/-- **The policy fails** where two saves overlap, and where a story is saved again. -/
theorem vault_not_kept : ¬ VaultKept nearlyFull savedTogether ∧ ¬ VaultKept fullVault savedAgain := by
  constructor
  · intro h
    have hruns : (runFrom VaultWorld.step nearlyFull.start savedTogether).map
        (fun w => (w.calls, w.stories.length)) = some ([], 51) := by decide +kernel
    obtain ⟨w, hw, hsizes⟩ := Option.map_eq_some_iff.mp hruns
    have hlen := (h.settled w hw (Prod.mk.inj hsizes).1).1
    rw [(Prod.mk.inj hsizes).2] at hlen
    exact absurd hlen (by decide)
  · intro h
    exact absurd h.evictions (by decide +kernel)

end DreamWeaver.Client
