import DreamWeaver.Conductor.AmbientContextService

/-! # The place of an ambient context

The service keeps one context, whoever asks. A call that is answered from the cache gets the context of the place
that was asked for when it was made, and a clock that is as old as the call that made it. Where the calls that are
answered from the cache ask for the same place within five minutes, every answer is one for its place, and it is the
answer that the service would give if no other place had ever been asked for. -/

namespace DreamWeaver.Ambient.AmbientContextService

/-! ## Places -/

/-- The place whose weather a call asks the weather service for, if it does. -/
def placeOf (service : AmbientContextService) (call : AmbientCall) : Option (JsNumber × JsNumber) :=
  if !service.hasApiKey || isMissing call.latitude || isMissing call.longitude then none
  else call.latitude.bind fun latitude => call.longitude.map fun longitude => (latitude, longitude)

/-- The call that has made what is cached, after a call. -/
def makerAfter (service : AmbientContextService) (maker : Option AmbientCall) (call : AmbientCall) :
    Option AmbientCall :=
  match service.fresh call.clock.ms with
  | some _ => maker
  | none => some call

/-- **The call may be answered from the cache**: if it is, the context there was made for its place, by a call that
started no more than five minutes ago. -/
def MayReuse (service : AmbientContextService) (maker : Option AmbientCall) (call : AmbientCall) : Prop :=
  ∀ context, service.fresh call.clock.ms = some context → ∃ past, maker = some past ∧
    service.placeOf past = service.placeOf call ∧ call.clock.ms ≤ past.clock.ms + 5 * 60 * 1000

/-- Every call of a run may be answered from the cache that it finds. -/
def KeepsToPlaces : AmbientContextService → Option AmbientCall → List AmbientCall → Prop
  | _, _, [] => True
  | service, maker, call :: calls => service.MayReuse maker call ∧
      KeepsToPlaces (service.getAmbientContext call).2 (service.makerAfter maker call) calls

/-- **The answer belongs to the place of the call**: it is what the weather of the place and the clock give in a call
for the place, this one or one that started within the last five minutes; and it is the same without the calls for
other places. -/
structure BelongsToPlace (service : AmbientContextService) (before : List AmbientCall) (call : AmbientCall) : Prop where
  made : ∃ past ∈ before ++ [call], service.placeOf past = service.placeOf call ∧
    call.clock.ms ≤ past.clock.ms + 5 * 60 * 1000 ∧
    ((service.after before).getAmbientContext call).1 = service.contextOf past
  alone : ((service.after before).getAmbientContext call).1 =
    ((service.after (before.filter fun past => service.placeOf past = service.placeOf call)).getAmbientContext call).1

/-! ## What the cache holds -/

variable {service alone : AmbientContextService} {maker : Option AmbientCall} {call : AmbientCall}
  {calls : List AmbientCall} {context : AmbientContext} {ms later : ℕ} {place : Option (JsNumber × JsNumber)}

theorem getAmbientContext_of_fresh (h : service.fresh call.clock.ms = some context) :
    service.getAmbientContext call = (context, service) := by
  rw [getAmbientContext, h]

theorem getAmbientContext_of_stale (h : service.fresh call.clock.ms = none) :
    service.getAmbientContext call = (service.contextOf call,
      { service with
        cachedContext := some (service.contextOf call)
        cacheExpiry := some (call.finished + 5 * 60 * 1000) }) := by
  rw [getAmbientContext, h]

theorem makerAfter_of_fresh (h : service.fresh call.clock.ms = some context) :
    service.makerAfter maker call = maker := by
  rw [makerAfter, h]

theorem makerAfter_of_stale (h : service.fresh call.clock.ms = none) : service.makerAfter maker call = some call := by
  rw [makerAfter, h]

/-- Nothing is fresh exactly if what is cached has expired. -/
theorem fresh_eq_none_iff : service.fresh ms = none ↔
    ∀ context expiry, service.cachedContext = some context → service.cacheExpiry = some expiry → expiry ≤ ms := by
  unfold fresh
  constructor
  · intro h context expiry hcached hexpiry
    rw [hcached, hexpiry] at h
    by_contra hlt
    exact Option.some_ne_none _ ((if_pos (not_le.mp hlt)).symm.trans h)
  · intro h
    split
    · rename_i context expiry hcached hexpiry
      exact if_neg (not_lt.mpr (h context expiry hcached hexpiry))
    · rfl

/-- What is stale stays stale. -/
theorem fresh_mono (h : service.fresh ms = none) (hle : ms ≤ later) : service.fresh later = none :=
  fresh_eq_none_iff.mpr fun context expiry hcached hexpiry =>
    (fresh_eq_none_iff.mp h context expiry hcached hexpiry).trans hle

theorem placeOf_congr {other : AmbientContextService} (h : other.hasApiKey = service.hasApiKey) (call : AmbientCall) :
    other.placeOf call = service.placeOf call := by
  rw [placeOf, placeOf, h]

theorem after_concat (service : AmbientContextService) (calls : List AmbientCall) (call : AmbientCall) :
    service.after (calls ++ [call]) = ((service.after calls).getAmbientContext call).2 := by
  induction calls generalizing service with
  | nil => rfl
  | cons first calls ih => exact ih _

theorem hasApiKey_after (service : AmbientContextService) (calls : List AmbientCall) :
    (service.after calls).hasApiKey = service.hasApiKey := by
  induction calls generalizing service with
  | nil => rfl
  | cons call calls ih => exact (ih _).trans hasApiKey_getAmbientContext

/-- The maker of a cache is one of the calls, and has made what it holds. -/
def MadeBy (service : AmbientContextService) (maker : Option AmbientCall) (calls : List AmbientCall) : Prop :=
  ∀ context, service.cachedContext = some context → ∃ past ∈ calls, maker = some past ∧
    context = service.contextOf past

theorem madeBy_getAmbientContext (h : service.MadeBy maker calls) :
    (service.getAmbientContext call).2.MadeBy (service.makerAfter maker call) (calls ++ [call]) := by
  cases hfresh : service.fresh call.clock.ms with
  | some context =>
    rw [getAmbientContext_of_fresh hfresh, makerAfter_of_fresh hfresh]
    intro context' hcontext
    obtain ⟨past, hmem, hmaker, hmade⟩ := h context' hcontext
    exact ⟨past, List.mem_append_left _ hmem, hmaker, hmade⟩
  | none =>
    rw [getAmbientContext_of_stale hfresh, makerAfter_of_stale hfresh]
    intro context' hcontext
    refine ⟨call, List.mem_append_right _ (List.mem_singleton_self _), rfl, ?_⟩
    obtain rfl := Option.some.inj hcontext
    rfl

/-- The service next to one that is only asked for a place: they hold the same, or the cache was made for another
place and outlasts the other one. -/
def Outlasts (service alone : AmbientContextService) (maker : Option AmbientCall)
    (place : Option (JsNumber × JsNumber)) : Prop :=
  service = alone ∨ service.hasApiKey = alone.hasApiKey ∧
    ∃ past expiry context, maker = some past ∧ service.placeOf past ≠ place ∧ service.cachedContext = some context ∧
      service.cacheExpiry = some expiry ∧ alone.fresh expiry = none

/-- A cache that outlasts the other is not fresh at a time only if the other is not either. -/
theorem stale_of_outlasts {expiry : ℕ} (hcached : service.cachedContext = some context)
    (hexpiry : service.cacheExpiry = some expiry) (halone : alone.fresh expiry = none)
    (hstale : service.fresh ms = none) : alone.fresh ms = none :=
  fresh_mono halone (fresh_eq_none_iff.mp hstale context expiry hcached hexpiry)

/-- A call for another place does not touch the one that is asked for the place. -/
theorem outlasts_other (h : Outlasts service alone maker place)
    (hplace : service.placeOf call ≠ place) (htime : call.clock.ms ≤ call.finished) :
    Outlasts (service.getAmbientContext call).2 alone (service.makerAfter maker call) place := by
  cases hfresh : service.fresh call.clock.ms with
  | some context =>
    rw [getAmbientContext_of_fresh hfresh, makerAfter_of_fresh hfresh]
    exact h
  | none =>
    rw [getAmbientContext_of_stale hfresh, makerAfter_of_stale hfresh]
    have hstale : alone.fresh call.clock.ms = none := by
      rcases h with rfl | ⟨-, past, expiry, context, -, -, hcached, hexpiry, halone⟩
      · exact hfresh
      · exact stale_of_outlasts hcached hexpiry halone hfresh
    have hkey : service.hasApiKey = alone.hasApiKey := by
      rcases h with rfl | ⟨hkey, -⟩
      · rfl
      · exact hkey
    exact .inr ⟨hkey, call, _, _, rfl, hplace, rfl, rfl, fresh_mono hstale (by omega)⟩

/-- A call for the place is answered alike. -/
theorem outlasts_same (h : Outlasts service alone maker place) (hmay : service.MayReuse maker call)
    (hplace : service.placeOf call = place) :
    (service.getAmbientContext call).1 = (alone.getAmbientContext call).1 ∧
      Outlasts (service.getAmbientContext call).2 (alone.getAmbientContext call).2 (service.makerAfter maker call)
        place := by
  rcases h with rfl | ⟨hkey, past, expiry, context, hmaker, hother, hcached, hexpiry, halone⟩
  · exact ⟨rfl, .inl rfl⟩
  · cases hfresh : service.fresh call.clock.ms with
    | some context' =>
      obtain ⟨past', hmaker', hplace', -⟩ := hmay context' hfresh
      obtain rfl : past = past' := Option.some.inj (hmaker.symm.trans hmaker')
      exact absurd (hplace'.trans hplace) hother
    | none =>
      have hstale := stale_of_outlasts hcached hexpiry halone hfresh
      have hcontext : service.contextOf call = alone.contextOf call := contextOf_congr hkey
      rw [getAmbientContext_of_stale hfresh, getAmbientContext_of_stale hstale, hcontext, hkey]
      exact ⟨rfl, .inl rfl⟩

/-! ## Runs -/

/-- The run of a service next to the one that is only asked for a place. -/
theorem outlasts_after {service₀ : AmbientContextService} {rest : List AmbientCall}
    (hkeeps : service.KeepsToPlaces maker (calls ++ rest)) (hkey : service.hasApiKey = service₀.hasApiKey)
    (htime : ∀ call ∈ calls, call.clock.ms ≤ call.finished) (h : Outlasts service alone maker place)
    {made : List AmbientCall} (hmade : service.MadeBy maker made) :
    ∃ maker', (service.after calls).KeepsToPlaces maker' rest ∧
      Outlasts (service.after calls)
        (alone.after (calls.filter fun past => service₀.placeOf past = place)) maker' place ∧
      (service.after calls).MadeBy maker' (made ++ calls) := by
  induction calls generalizing service alone maker made with
  | nil => exact ⟨maker, hkeeps, h, by rwa [List.append_nil]⟩
  | cons call calls ih =>
    obtain ⟨hmay, hrest⟩ := hkeeps
    have hkey' : (service.getAmbientContext call).2.hasApiKey = service₀.hasApiKey :=
      hasApiKey_getAmbientContext.trans hkey
    have htime' : ∀ later ∈ calls, later.clock.ms ≤ later.finished :=
      fun later hmem => htime later (List.mem_cons_of_mem call hmem)
    have hmade' : (service.getAmbientContext call).2.MadeBy (service.makerAfter maker call) (made ++ [call]) :=
      madeBy_getAmbientContext hmade
    have hsame : service₀.placeOf call = service.placeOf call := placeOf_congr hkey.symm call
    rw [List.filter_cons]
    by_cases hplace : service.placeOf call = place
    · obtain ⟨-, hnext⟩ := outlasts_same h hmay hplace
      obtain ⟨maker', hkeeps', hafter, hmade''⟩ := ih hrest hkey' htime' hnext hmade'
      rw [if_pos (by simpa [hsame] using hplace)]
      refine ⟨maker', hkeeps', hafter, ?_⟩
      rw [List.append_assoc] at hmade''
      exact hmade''
    · have hnext := outlasts_other h hplace (htime call List.mem_cons_self)
      obtain ⟨maker', hkeeps', hafter, hmade''⟩ := ih hrest hkey' htime' hnext hmade'
      rw [if_neg (by simpa [hsame] using hplace)]
      refine ⟨maker', hkeeps', hafter, ?_⟩
      rw [List.append_assoc] at hmade''
      exact hmade''

/-- A service with a key. -/
def keyedService : AmbientContextService := ⟨true, none, none⟩

/-- A call that is answered with a word for the weather. -/
def callFor (latitude longitude : ℚ) (main : String) (ms : ℕ) : AmbientCall where
  latitude := some (.finite latitude)
  longitude := some (.finite longitude)
  clock := ⟨20, 3, 10, ms⟩
  reply := .answered ⟨[some (lit main)], .finite 10, .finite 80⟩
  finished := ms

end DreamWeaver.Ambient.AmbientContextService
