import DreamWeaver.Foundations.JsString

/-! # Prompts

`PromptRegistry` (`api/src/infrastructure/ai/prompts/PromptRegistry.ts`): the texts of prompts, and the loop that
fills in their variables one after the other. A variable stands in a prompt as its name in double braces, for
which the regular expression of the loop stands literally. -/

namespace DreamWeaver.Prompts

open Marks (places pieces fill Separate)

/-! ## The registry -/

/-- `PromptTemplate` -/
structure PromptTemplate where
  id : Text
  version : ℕ
  text : Text
  variant : Option Text

/-- `PromptRegistry` -/
structure PromptRegistry where
  prompts : Text → Option PromptTemplate

/-- A unit of a name. -/
def isNameUnit (c : CodeUnit) : Bool :=
  (48 ≤ c && c ≤ 57) || (65 ≤ c && c ≤ 90) || c == 95 || (97 ≤ c && c ≤ 122)

/-- The name of a variable: letters, digits and underscores, of which the first is no digit. -/
structure VariableName where
  text : Text
  isName : text.all isNameUnit = true
  first : text.head?.any (fun c => !isDigit 10 c) = true
  deriving DecidableEq

/-- `string | number | undefined` -/
inductive PromptValue where
  | text (s : Text)
  | number (x : JsNumber)
  | undefined
  deriving DecidableEq

/-- `value === undefined || value === null ? '' : String(value)` -/
def PromptValue.safeValue : PromptValue → Text
  | .text s => s
  | .number x => numberString x
  | .undefined => []

/-- `Record<string, string | number | undefined>`, with its entries in their order. -/
structure Variables where
  entries : List (VariableName × PromptValue)
  nodup : (entries.map Prod.fst).Nodup

/-- `{{key}}` -/
def marker (name : VariableName) : Text := 123 :: 123 :: (name.text ++ [125, 125])

namespace PromptRegistry

/-- `register` -/
def register (registry : PromptRegistry) (logicalId : Text) (prompt : PromptTemplate) : PromptRegistry :=
  ⟨Function.update registry.prompts logicalId (some prompt)⟩

/-- The constructor. -/
def create (initialPrompts : List (Text × PromptTemplate)) : PromptRegistry :=
  initialPrompts.foldl (fun registry e => registry.register e.1 e.2) ⟨fun _ => none⟩

/-- `get`; the variant is not looked at. -/
def get (registry : PromptRegistry) (id : Text) (_variant : Option Text) : Except JsError PromptTemplate :=
  match registry.prompts id with
  | none => .error ⟨lit "Error", lit "Prompt not found: " ++ id⟩
  | some prompt => .ok prompt

/-- One round of the loop of `interpolate`. -/
def interpolateStep (text : Text) (e : VariableName × PromptValue) : Text :=
  replaceAll (marker e.1) e.2.safeValue text

/-- The loop of `interpolate`. -/
def interpolateText (text : Text) (entries : List (VariableName × PromptValue)) : Text :=
  entries.foldl interpolateStep text

/-- `interpolate` -/
def interpolate (registry : PromptRegistry) (id : Text) (vars : Variables) : Except JsError Text := do
  let prompt ← registry.get id none
  return interpolateText prompt.text vars.entries

end PromptRegistry

/-! ## Markers -/

/-- A name unit is no brace. -/
theorem ne_of_isNameUnit {c : CodeUnit} (h : isNameUnit c = true) : c ≠ 123 ∧ c ≠ 125 := by
  constructor <;> rintro rfl <;> revert h <;> decide

theorem not_mem_text (name : VariableName) : 123 ∉ name.text ∧ 125 ∉ name.text := by
  have hall := List.all_eq_true.mp name.isName
  exact ⟨fun h => (ne_of_isNameUnit (hall _ h)).1 rfl, fun h => (ne_of_isNameUnit (hall _ h)).2 rfl⟩

/-- Two markers that a text begins with are the same. -/
theorem marker_inj {name name' : VariableName} {s s' : Text} (h : marker name ++ s = marker name' ++ s') :
    name = name' := by
  have hrest : name.text ++ 125 :: (125 :: s) = name'.text ++ 125 :: (125 :: s') := by
    simpa [marker] using h
  have hbefore : ∀ (n : VariableName) (r : Text), (n.text ++ 125 :: r).takeWhile (· != 125) = n.text := by
    intro n r
    have hname : ∀ c ∈ n.text, (c != 125) = true := fun c hc =>
      bne_iff_ne.mpr fun h => (not_mem_text n).2 (h ▸ hc)
    rw [List.takeWhile_append_of_pos hname, List.takeWhile_cons_of_neg (by decide), List.append_nil]
  have htext : name.text = name'.text := by rw [← hbefore name, hrest, hbefore]
  cases name
  cases name'
  cases htext
  rfl

/-- No marker begins within a marker. -/
theorem not_marker_prefix {name name' : VariableName} {x y b : Text} (h : marker name = x ++ y) (hx : x ≠ [])
    (hy : y ≠ []) : ¬ marker name' <+: y ++ b := by
  obtain ⟨c, x, rfl⟩ := List.exists_cons_of_ne_nil hx
  obtain ⟨d, y, rfl⟩ := List.exists_cons_of_ne_nil hy
  rintro ⟨t, ht⟩
  obtain rfl : 123 = d := (List.cons.inj ht).1
  have hrest : 123 :: (name.text ++ [125, 125]) = x ++ 123 :: y := (List.cons.inj h).2
  have hnone : 123 ∉ name.text ++ [125, 125] := by simp [(not_mem_text name).1]
  cases x with
  | nil =>
    -- The second brace is followed by the name.
    have hy : name.text ++ [125, 125] = y := (List.cons.inj hrest).2
    have hnext : 123 :: (name'.text ++ [125, 125]) ++ t = y ++ b := (List.cons.inj ht).2
    obtain ⟨e, text, htext⟩ : ∃ e text, name.text = e :: text := by
      cases htext : name.text with
      | nil => exact absurd name.first (by rw [htext]; decide)
      | cons e text => exact ⟨e, text, rfl⟩
    rw [← hy, htext] at hnext
    obtain rfl : 123 = e := (List.cons.inj hnext).1
    exact (not_mem_text name).1 (htext ▸ List.mem_cons_self)
  | cons e x =>
    have hmem : 123 ∈ name.text ++ [125, 125] := by
      rw [(List.cons.inj hrest).2]
      simp
    exact hnone hmem

/-- **The markers are separate.** -/
theorem separate_markers : Separate (Set.range marker) where
  ne_nil := by
    rintro m ⟨name, rfl⟩
    exact List.cons_ne_nil _ _
  within := by
    rintro m ⟨name, rfl⟩ m' ⟨name', rfl⟩ x y b h hx hy
    exact not_marker_prefix h hx hy
  first := by
    rintro m ⟨name, rfl⟩ m' ⟨name', rfl⟩ b ⟨t, ht⟩
    rw [marker_inj ht]

theorem marker_mem (name : VariableName) : marker name ∈ Set.range marker := ⟨name, rfl⟩

/-! ## What is asked of it -/

/-- The values by their markers. -/
def fillings (entries : List (VariableName × PromptValue)) : List (Text × Text) :=
  entries.map fun e => (marker e.1, e.2.safeValue)

/-- **A prompt that is filled in**: each marker of the template is replaced by its value, and nothing else is. -/
def filled (template : Text) (entries : List (VariableName × PromptValue)) : Text := fill (fillings entries) template

/-- **Literal and simultaneous**: in whichever order the variables come, each round puts exactly the value of
its variable, as often as the template has the marker, and in the end the template is filled in. -/
structure Literal (registry : PromptRegistry) (id template : Text) (vars : Variables) : Prop where
  rounds : ∀ before name value after, (before ++ (name, value) :: after).Perm vars.entries →
    insertions (marker name) value.safeValue (PromptRegistry.interpolateText template before)
      = List.replicate (places (marker name) template) value.safeValue
  result : ∀ ordered : Variables, ordered.entries.Perm vars.entries →
    registry.interpolate id ordered = .ok (filled template vars.entries)

/-- **Values that leave each other alone** in a template: however many of the other variables are filled in, there
is no further marker of a variable, and its value, read as a replacement, stands for itself where it is put. -/
structure Undisturbed (template : Text) (vars : Variables) : Prop where
  noMarker : ∀ before name value after, (before ++ (name, value) :: after).Perm vars.entries →
    places (marker name) (filled template before) = places (marker name) template
  itself : ∀ before name value after, (before ++ (name, value) :: after).Perm vars.entries →
    ∀ a b, filled template before = a ++ (marker name ++ b) →
      expand a (marker name) b value.safeValue = value.safeValue

section Rounds

variable {template : Text} {vars : Variables} {before after entries : List (VariableName × PromptValue)}
  {name : VariableName} {value : PromptValue}

theorem mem_fillings {e : Text × Text} (he : e ∈ fillings entries) : e.1 ∈ Set.range marker := by
  obtain ⟨entry, -, rfl⟩ := List.mem_map.mp he
  exact marker_mem _

theorem fst_fillings (entries : List (VariableName × PromptValue)) :
    (fillings entries).map Prod.fst = (entries.map Prod.fst).map marker := by
  rw [fillings, List.map_map, List.map_map]
  rfl

theorem marker_injective : Function.Injective marker := fun name name' h =>
  @marker_inj name name' [] [] (by rw [h])

theorem nodup_fillings (h : (entries.map Prod.fst).Nodup) : ((fillings entries).map Prod.fst).Nodup := by
  rw [fst_fillings]
  exact h.map marker_injective

/-- The order of the entries does not matter to what is filled in. -/
theorem filled_perm (h : (entries.map Prod.fst).Nodup) (hperm : entries.Perm before) (template : Text) :
    filled template entries = filled template before :=
  separate_markers.fill_perm (fun _ => mem_fillings) (nodup_fillings h) (hperm.map _) template

/-- **A round that puts the value at the places of the template fills it in.** -/
theorem interpolateStep_filled (hkeys : ((before ++ [(name, value)]).map Prod.fst).Nodup)
    (h : insertions (marker name) value.safeValue (filled template before)
      = List.replicate (places (marker name) template) value.safeValue) :
    PromptRegistry.interpolateStep (filled template before) (name, value) = filled template (before ++ [(name, value)]) := by
  have hperm : ((name, value) :: before).Perm (before ++ [(name, value)]) := (List.perm_append_singleton _ _).symm
  have hkeys' : (((name, value) :: before).map Prod.fst).Nodup := (hperm.map Prod.fst).nodup_iff.mpr hkeys
  have hnew : marker name ∉ (fillings before).map Prod.fst := by
    rw [fst_fillings, List.mem_map_of_injective marker_injective]
    exact (List.nodup_cons.mp hkeys').1
  have hplaces : places (marker name) (filled template before) = places (marker name) template := by
    have hlength := congrArg List.length h
    rwa [length_insertions, List.length_replicate] at hlength
  have hpieces : pieces (marker name) (filled template before)
      = (pieces (marker name) template).map (fill (fillings before)) :=
    separate_markers.pieces_fill (fun _ => mem_fillings) (marker_mem name) hnew hplaces
  have hround : PromptRegistry.interpolateStep (filled template before) (name, value)
      = value.safeValue.intercalate ((pieces (marker name) template).map (fill (fillings before))) := by
    rw [PromptRegistry.interpolateStep, replaceAll, h, hpieces, ← weave_replicate, List.length_map, places]
  rw [hround, ← separate_markers.fill_cons_eq (fun _ => mem_fillings) (marker_mem name)]
  exact filled_perm hkeys' hperm template

/-- The names that come first are different ones. -/
theorem nodup_before (hperm : (before ++ (name, value) :: after).Perm vars.entries) :
    ((before ++ [(name, value)]).map Prod.fst).Nodup := by
  have hall : ((before ++ (name, value) :: after).map Prod.fst).Nodup :=
    (hperm.map Prod.fst).nodup_iff.mpr vars.nodup
  rw [List.append_cons] at hall
  rw [List.map_append] at hall
  exact hall.of_append_left

/-- **After each round the template is filled in so far**, if the rounds before put what they should. -/
theorem interpolateText_filled
    (hrounds : ∀ done name value rest, (done ++ (name, value) :: rest).Perm vars.entries →
      PromptRegistry.interpolateText template done = filled template done →
      insertions (marker name) value.safeValue (filled template done)
        = List.replicate (places (marker name) template) value.safeValue)
    (hperm : (before ++ after).Perm vars.entries) :
    PromptRegistry.interpolateText template before = filled template before := by
  induction before using List.reverseRecOn generalizing after with
  | nil => exact (Marks.fill_of_nil template).symm
  | append_singleton done e ih =>
    obtain ⟨name, value⟩ := e
    rw [← List.append_cons] at hperm
    have hdone := ih hperm
    rw [PromptRegistry.interpolateText, List.foldl_append]
    change PromptRegistry.interpolateStep (PromptRegistry.interpolateText template done) (name, value) = _
    rw [hdone, interpolateStep_filled (nodup_before hperm) (hrounds done name value after hperm hdone)]

theorem insertions_eq_replicate_iff {s : Text} : insertions (marker name) value.safeValue s
      = List.replicate (places (marker name) template) value.safeValue ↔
    places (marker name) s = places (marker name) template ∧
      ∀ a b, s = a ++ (marker name ++ b) → expand a (marker name) b value.safeValue = value.safeValue := by
  rw [List.eq_replicate_iff, length_insertions]
  refine and_congr_right fun _ => ?_
  constructor
  · exact fun h a b hab => h _ ((mem_insertions_iff separate_markers (marker_mem name)).mpr ⟨a, b, hab, rfl⟩)
  · intro h e he
    obtain ⟨a, b, hab, rfl⟩ := (mem_insertions_iff separate_markers (marker_mem name)).mp he
    exact h a b hab

theorem interpolate_eq {registry : PromptRegistry} {id : Text} {prompt : PromptTemplate}
    (hget : registry.get id none = .ok prompt) (vars : Variables) :
    registry.interpolate id vars = .ok (PromptRegistry.interpolateText prompt.text vars.entries) := by
  rw [PromptRegistry.interpolate, hget]
  rfl

/-- Where a prompt is interpolated literally, the values leave each other alone. -/
theorem undisturbed_of_literal {registry : PromptRegistry} {id : Text} (h : Literal registry id template vars) :
    Undisturbed template vars := by
  have hfilled : ∀ before after, (before ++ after).Perm vars.entries →
      PromptRegistry.interpolateText template before = filled template before :=
    fun before after hperm => interpolateText_filled (fun done name value rest hrest hdone => by
      rw [← hdone]
      exact h.rounds done name value rest hrest) hperm
  have hround : ∀ before name value after, (before ++ (name, value) :: after).Perm vars.entries →
      insertions (marker name) value.safeValue (filled template before)
        = List.replicate (places (marker name) template) value.safeValue := by
    intro before name value after hperm
    rw [← hfilled before _ hperm]
    exact h.rounds before name value after hperm
  exact ⟨fun before name value after hperm => (insertions_eq_replicate_iff.mp (hround _ _ _ _ hperm)).1,
    fun before name value after hperm => (insertions_eq_replicate_iff.mp (hround _ _ _ _ hperm)).2⟩

/-- Values that leave each other alone are put literally. -/
theorem literal_of_undisturbed {registry : PromptRegistry} {id : Text} {prompt : PromptTemplate}
    (hget : registry.get id none = .ok prompt) (h : Undisturbed prompt.text vars) :
    Literal registry id prompt.text vars := by
  have hround : ∀ before name value after, (before ++ (name, value) :: after).Perm vars.entries →
      insertions (marker name) value.safeValue (filled prompt.text before)
        = List.replicate (places (marker name) prompt.text) value.safeValue :=
    fun before name value after hperm =>
      insertions_eq_replicate_iff.mpr ⟨h.noMarker _ _ _ _ hperm, h.itself _ _ _ _ hperm⟩
  have hfilled : ∀ before after, (before ++ after).Perm vars.entries →
      PromptRegistry.interpolateText prompt.text before = filled prompt.text before :=
    fun before after hperm => interpolateText_filled (fun done name value rest hrest _ => hround _ _ _ _ hrest) hperm
  refine ⟨fun before name value after hperm => ?_, fun ordered hperm => ?_⟩
  · rw [hfilled before _ hperm]
    exact hround _ _ _ _ hperm
  · rw [interpolate_eq hget, hfilled ordered.entries [] (by rwa [List.append_nil]), filled_perm ordered.nodup hperm]

/-- **Plain values leave each other alone**: values without dollar signs and braces, in a template whose braces
belong to the markers. -/
theorem undisturbed_of_plain {template : Text} {vars : Variables}
    (hvalues : ∀ e ∈ vars.entries, 36 ∉ e.2.safeValue ∧ 123 ∉ e.2.safeValue)
    (htemplate : 123 ∉ fill (vars.entries.map fun e => (marker e.1, [])) template) :
    Undisturbed template vars where
  noMarker before name value after hperm := by
    have hclear : 123 ∉ filled template vars.entries := by
      intro h
      rcases Marks.mem_fill h with h | ⟨e, he, hmem⟩
      · rw [fillings, List.map_map] at h
        exact htemplate h
      · obtain ⟨entry, hentry, rfl⟩ := List.mem_map.mp he
        exact (hvalues entry hentry).2 hmem
    have hmoved : vars.entries.Perm ((name, value) :: (after ++ before)) :=
      hperm.symm.trans List.perm_append_comm
    have hkeys : (((name, value) :: (after ++ before)).map Prod.fst).Nodup :=
      (hmoved.map Prod.fst).nodup_iff.mp vars.nodup
    have hclear' : 123 ∉ filled template ((name, value) :: (after ++ before)) := by
      rwa [← filled_perm vars.nodup hmoved]
    have hfillings : fillings ((name, value) :: (after ++ before))
        = (marker name, value.safeValue) :: (fillings after ++ fillings before) := by
      rw [fillings, List.map_cons, List.map_append]
      rfl
    have hnodup := nodup_fillings hkeys
    rw [filled, hfillings] at hclear'
    rw [hfillings] at hnodup
    refine separate_markers.places_fill (fun _ => mem_fillings) (marker_mem name) ?_ (fun _ => mem_fillings) hnodup hclear'
    rintro m ⟨name', rfl⟩
    exact List.mem_cons_self
  itself before name value after hperm a b _ :=
    expand_of_not_mem (hvalues (name, value) (hperm.mem_iff.mp (by simp))).1

end Rounds

/-! ## The prompts of the adapter -/

section Adapter

/-- A name that is written down. -/
def nameOf (s : String) (h : (lit s).all isNameUnit = true) (h' : (lit s).head?.any (fun c => !isDigit 10 c) = true) :
    VariableName := ⟨lit s, h, h'⟩

/-- `AgentPromptVariables` -/
structure AgentPromptVariables where
  childName : Option Text
  childAge : Option JsNumber
  currentMood : Option Text
  envContext : Option Text
  memoryContext : Option Text
  activeGoal : Option Text
  userMessage : Option Text
  history : Option Text

/-- `AGENT_OBSERVATION` -/
def agentObservation : PromptTemplate where
  id := lit "agent-observation-v1"
  version := 1
  text := joinWith [10] [
    lit "OBSERVATION:",
    lit "- User Input: \"{{userMessage}}\"",
    lit "- Child: {{childName}} (Age: {{childAge}})",
    lit "- Mood: {{currentMood}}",
    lit "- ACTIVE GOAL: {{activeGoal}}",
    lit "- Environment: {{envContext}}",
    lit "- Relevant Memories: {{memoryContext}}",
    lit "- Recent History: {{history}}",
    [],
    lit "DECISION TASK: Analyze the status and choose the next action."]
  variant := none

/-- `START_STORY_TRIGGER` -/
def startStoryTrigger : PromptTemplate where
  id := lit "start-story-trigger-v1"
  version := 1
  text := lit "Start story about \"{{theme}}\""
  variant := none

/-- The registry of the adapter with two of its prompts. -/
def bedtimePrompts : PromptRegistry :=
  PromptRegistry.create [
    (lit "AGENT_OBSERVATION", agentObservation),
    (lit "START_STORY_TRIGGER", startStoryTrigger)]

/-- The variables of `formatAgentObservation`. -/
def AgentPromptVariables.toVariables (vars : AgentPromptVariables) : Variables where
  entries := [
    (nameOf "userMessage" (by decide) (by decide), .text (orText vars.userMessage (lit "None"))),
    (nameOf "childName" (by decide) (by decide), .text (orText vars.childName (lit "Unknown"))),
    (nameOf "childAge" (by decide) (by decide), (vars.childAge.map PromptValue.number).getD (.text (lit "?"))),
    (nameOf "currentMood" (by decide) (by decide), .text (orText vars.currentMood (lit "Unknown"))),
    (nameOf "activeGoal" (by decide) (by decide), .text (orText vars.activeGoal (lit "None"))),
    (nameOf "envContext" (by decide) (by decide), .text (orText vars.envContext (lit "Unknown"))),
    (nameOf "memoryContext" (by decide) (by decide), .text (orText vars.memoryContext (lit "None"))),
    (nameOf "history" (by decide) (by decide), .text (orText vars.history (lit "None")))]
  nodup := by
    change ([nameOf "userMessage" _ _, nameOf "childName" _ _, nameOf "childAge" _ _, nameOf "currentMood" _ _,
      nameOf "activeGoal" _ _, nameOf "envContext" _ _, nameOf "memoryContext" _ _, nameOf "history" _ _]).Nodup
    decide

/-- `PromptAdapter.formatAgentObservation` -/
def formatAgentObservation (vars : AgentPromptVariables) : Except JsError Text :=
  bedtimePrompts.interpolate (lit "AGENT_OBSERVATION") vars.toVariables

/-- The variable of `getStartStoryTrigger`. -/
def themeVariables (theme : Text) : Variables where
  entries := [(nameOf "theme" (by decide) (by decide), .text theme)]
  nodup := List.nodup_singleton _

/-- `PromptAdapter.getStartStoryTrigger` -/
def getStartStoryTrigger (theme : Text) : Except JsError Text :=
  bedtimePrompts.interpolate (lit "START_STORY_TRIGGER") (themeVariables theme)

/-- **The observation of the agent is literal** for values without dollar signs and braces. -/
theorem formatAgentObservation_literal {vars : AgentPromptVariables}
    (h : ∀ e ∈ vars.toVariables.entries, 36 ∉ e.2.safeValue ∧ 123 ∉ e.2.safeValue) :
    formatAgentObservation vars = .ok (filled agentObservation.text vars.toVariables.entries) := by
  have hget : bedtimePrompts.get (lit "AGENT_OBSERVATION") none = .ok agentObservation := rfl
  have htemplate : 123 ∉ fill (vars.toVariables.entries.map fun e => (marker e.1, [])) agentObservation.text := by
    have hmarkers : (vars.toVariables.entries.map fun e => (marker e.1, ([] : Text)))
        = (AgentPromptVariables.mk none none none none none none none none).toVariables.entries.map
          fun e => (marker e.1, []) := rfl
    rw [hmarkers, agentObservation]
    repeat rw [lit_ofList]
    decide +kernel
  exact (literal_of_undisturbed hget (undisturbed_of_plain h htemplate)).result _ (List.Perm.refl _)

/-- **A prompt is interpolated literally and simultaneously exactly where the values leave each other alone.** -/
theorem literal_iff_undisturbed (registry : PromptRegistry) (id : Text) (vars : Variables) {prompt : PromptTemplate}
    (hget : registry.get id none = .ok prompt) :
    Literal registry id prompt.text vars ↔ Undisturbed prompt.text vars :=
  ⟨undisturbed_of_literal, literal_of_undisturbed hget⟩

/-- The trigger for a plain theme is the template with it. -/
theorem plain_trigger_is_literal :
    Literal bedtimePrompts (lit "START_STORY_TRIGGER") startStoryTrigger.text (themeVariables (lit "stars")) :=
  (literal_iff_undisturbed bedtimePrompts (lit "START_STORY_TRIGGER") (themeVariables (lit "stars")) rfl).mpr
    (undisturbed_of_plain (by decide +kernel) (by decide +kernel))

/-- A child who names a variable of the prompt. -/
def injectedObservation : AgentPromptVariables :=
  ⟨some (lit "Ada"), none, none, none, none, none, some (lit "{{childName}}"), none⟩

/-- **What is inserted is not literal**: a theme of a replacement pattern brings back its marker, and a message
that names another variable is filled in itself. -/
theorem inserted_text_is_rewritten :
    (getStartStoryTrigger (lit "$&") = .ok (lit "Start story about \"{{theme}}\"") ∧
      ¬ Literal bedtimePrompts (lit "START_STORY_TRIGGER") startStoryTrigger.text (themeVariables (lit "$&"))) ∧
    ¬ Literal bedtimePrompts (lit "AGENT_OBSERVATION") agentObservation.text injectedObservation.toVariables := by
  refine ⟨⟨by decide +kernel, fun h => ?_⟩, fun h => ?_⟩
  · have hresult := h.result _ (List.Perm.refl _)
    revert hresult
    decide +kernel
  · -- Behind the first round the name stands in the message too.
    have hround := h.rounds (injectedObservation.toVariables.entries.take 1) _ _
      (injectedObservation.toVariables.entries.drop 2) (List.Perm.refl _)
    have hlength := congrArg List.length hround
    rw [length_insertions, List.length_replicate, agentObservation] at hlength
    repeat rw [lit_ofList] at hlength
    revert hlength
    decide +kernel

end Adapter

end DreamWeaver.Prompts
