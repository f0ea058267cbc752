import DreamWeaver.Conductor.ConductStorySession

/-! # The ambient context

`AmbientContextService` (`api/src/infrastructure/services/AmbientContextService.ts`) classifies the clock and
the weather, and keeps its answer for five minutes. The conductor reads two texts of an answer. -/

namespace DreamWeaver.Ambient

/-! ## Contexts -/

/-- `AmbientContext['timeOfDay']` -/
inductive TimeOfDay where
  | morning
  | afternoon
  | evening
  | night
  deriving DecidableEq, Repr

/-- The text of a time of day. -/
def TimeOfDay.text : TimeOfDay → Text
  | .morning => lit "morning"
  | .afternoon => lit "afternoon"
  | .evening => lit "evening"
  | .night => lit "night"

/-- `AmbientContext['weather']['condition']` -/
inductive WeatherCondition where
  | clear
  | cloudy
  | rainy
  | snowy
  | stormy
  | unknown
  deriving DecidableEq, Repr

/-- The text of a condition. -/
def WeatherCondition.text : WeatherCondition → Text
  | .clear => lit "clear"
  | .cloudy => lit "cloudy"
  | .rainy => lit "rainy"
  | .snowy => lit "snowy"
  | .stormy => lit "stormy"
  | .unknown => lit "unknown"

/-- `AmbientContext['weather']` -/
structure Weather where
  condition : WeatherCondition
  temperature : JsNumber
  humidity : JsNumber
  deriving DecidableEq, Repr

/-- `AmbientContext['season']` -/
inductive Season where
  | spring
  | summer
  | autumn
  | winter
  deriving DecidableEq, Repr

/-- `AmbientContext['suggestedMood']` -/
inductive SuggestedMood where
  | calm
  | adventurous
  | cozy
  | magical
  deriving DecidableEq, Repr

/-- `AmbientContext` -/
structure AmbientContext where
  timeOfDay : TimeOfDay
  weather : Weather
  season : Season
  isWeekend : Bool
  suggestedMood : SuggestedMood
  deriving DecidableEq, Repr

/-- What the conductor reads of it. -/
def AmbientContext.seen (context : AmbientContext) : Conductor.AmbientContext :=
  ⟨context.timeOfDay.text, context.weather.condition.text⟩

/-- The local time that `new Date()` has: `getHours`, `getDay`, `getMonth`, and the instant in milliseconds. -/
structure Clock where
  hours : Fin 24
  day : Fin 7
  month : Fin 12
  ms : ℕ
  deriving DecidableEq, Repr

/-- `OpenWeatherResponse`, with the `main` of each entry of `weather`. -/
structure OpenWeatherResponse where
  weather : List (Option Text)
  temp : JsNumber
  humidity : JsNumber
  deriving DecidableEq, Repr

/-- What becomes of the request for the weather: it or the reading of its body fails, its status is not `ok`,
or it is answered. -/
inductive WeatherReply where
  | failed
  | notOk
  | answered (data : OpenWeatherResponse)
  deriving DecidableEq, Repr

/-- `AmbientContextService`: whether it has a key, and its cache. -/
structure AmbientContextService where
  hasApiKey : Bool
  cachedContext : Option AmbientContext
  cacheExpiry : Option ℕ
  deriving DecidableEq, Repr

/-- A day has hours. -/
instance neZero_hours : NeZero 24 := ⟨by decide⟩

/-- A week has days. -/
instance neZero_days : NeZero 7 := ⟨by decide⟩

/-- A year has months. -/
instance neZero_months : NeZero 12 := ⟨by decide⟩

/-- A call of `getAmbientContext`: its arguments, the clock when it starts, the reply of the weather service,
and the time at which it has been read. -/
structure AmbientCall where
  latitude : Option JsNumber
  longitude : Option JsNumber
  clock : Clock
  reply : WeatherReply
  finished : ℕ
  deriving DecidableEq, Repr

/-! ## The service -/

/-- The time of day of an hour. -/
def timeOfDay (hour : ℕ) : TimeOfDay :=
  if 5 ≤ hour ∧ hour < 12 then .morning
  else if 12 ≤ hour ∧ hour < 17 then .afternoon
  else if 17 ≤ hour ∧ hour < 21 then .evening
  else .night

/-- The season of a month. -/
def season (month : ℕ) : Season :=
  if 2 ≤ month ∧ month ≤ 4 then .spring
  else if 5 ≤ month ∧ month ≤ 7 then .summer
  else if 8 ≤ month ∧ month ≤ 10 then .autumn
  else .winter

/-- The mood that is suggested. -/
def suggestedMood (condition : WeatherCondition) (timeOfDay : TimeOfDay) : SuggestedMood :=
  if condition = .rainy ∨ condition = .stormy then .cozy
  else if condition = .snowy then .magical
  else if timeOfDay = .night ∨ timeOfDay = .evening then .calm
  else .adventurous

/-- `getDefaultWeather` -/
def getDefaultWeather : Weather := ⟨.clear, .finite 20, .finite 50⟩

/-- The condition of a lower-case word. -/
def conditionOf (mainWeather : Text) : WeatherCondition :=
  if includes mainWeather (lit "clear") || includes mainWeather (lit "sun") then .clear
  else if includes mainWeather (lit "cloud") then .cloudy
  else if includes mainWeather (lit "rain") || includes mainWeather (lit "drizzle") then .rainy
  else if includes mainWeather (lit "snow") then .snowy
  else if includes mainWeather (lit "thunder") || includes mainWeather (lit "storm") then .stormy
  else .unknown

namespace AmbientContextService

variable (service : AmbientContextService) (call : AmbientCall)

/-- `!coordinate`: it is not given, or zero, or not a number. -/
def isMissing (coordinate : Option JsNumber) : Bool := !isTruthy (coordinate.map Json.num)

/-- `fetchWeather` -/
def fetchWeather : Weather :=
  if !service.hasApiKey || isMissing call.latitude || isMissing call.longitude then getDefaultWeather
  else
    match call.reply with
    | .failed => getDefaultWeather
    | .notOk => getDefaultWeather
    | .answered data =>
      let mainWeather := orText (data.weather.head?.join.map toLowerCase) (lit "unknown")
      ⟨conditionOf mainWeather, data.temp.round, data.humidity⟩

/-- The context that a call makes. -/
def contextOf : AmbientContext :=
  let weather := service.fetchWeather call
  { timeOfDay := timeOfDay call.clock.hours
    weather := weather
    season := season call.clock.month
    isWeekend := call.clock.day = 0 || call.clock.day = 6
    suggestedMood := suggestedMood weather.condition (timeOfDay call.clock.hours) }

/-- The context that is cached and has not expired. -/
def fresh (ms : ℕ) : Option AmbientContext :=
  match service.cachedContext, service.cacheExpiry with
  | some context, some expiry => if ms < expiry then some context else none
  | _, _ => none

/-- `getAmbientContext` -/
def getAmbientContext : AmbientContext × AmbientContextService :=
  match service.fresh call.clock.ms with
  | some context => (context, service)
  | none =>
    (service.contextOf call,
      { service with
        cachedContext := some (service.contextOf call)
        cacheExpiry := some (call.finished + 5 * 60 * 1000) })

/-- The service after calls. -/
def after : AmbientContextService → List AmbientCall → AmbientContextService
  | service, [] => service
  | service, call :: calls => after (service.getAmbientContext call).2 calls

/-! ## What the answers are -/

variable {service call} {calls : List AmbientCall} {context : AmbientContext} {ms : ℕ}

/-- A context that is fresh is the cached one. -/
theorem fresh_eq_some (h : service.fresh ms = some context) :
    service.cachedContext = some context ∧ ∃ expiry, service.cacheExpiry = some expiry ∧ ms < expiry := by
  unfold fresh at h
  split at h
  · rename_i cached expiry hcached hexpiry
    obtain ⟨hlt, hcontext⟩ := Option.ite_none_right_eq_some.mp h
    exact ⟨hcached.trans hcontext, expiry, hexpiry, hlt⟩
  · cases h

theorem hasApiKey_getAmbientContext : (service.getAmbientContext call).2.hasApiKey = service.hasApiKey := by
  unfold getAmbientContext
  split
  · rfl
  · rfl

/-- What a service with such a key makes of a call. -/
theorem contextOf_congr {other : AmbientContextService} (h : other.hasApiKey = service.hasApiKey) :
    other.contextOf call = service.contextOf call := by
  unfold contextOf fetchWeather
  rw [h]

/-- What is cached was made by one of the calls, and expires five minutes after it finished. -/
def CachedFrom (made : AmbientCall → AmbientContext) (calls : List AmbientCall) (service : AmbientContextService) :
    Prop :=
  ∀ context, service.cachedContext = some context → ∃ past ∈ calls, context = made past ∧
    service.cacheExpiry = some (past.finished + 5 * 60 * 1000)

/-- One call keeps the cache that of the calls. -/
theorem cachedFrom_getAmbientContext {made : AmbientCall → AmbientContext} (hmade : made call = service.contextOf call)
    (h : service.CachedFrom made calls) : (service.getAmbientContext call).2.CachedFrom made (calls ++ [call]) := by
  unfold getAmbientContext
  split
  · -- an answer from the cache changes nothing
    intro context hcontext
    obtain ⟨past, hmem, heq, hexpiry⟩ := h context hcontext
    exact ⟨past, List.mem_append_left _ hmem, heq, hexpiry⟩
  · rintro context hcontext
    obtain rfl := Option.some.inj hcontext
    exact ⟨call, List.mem_append_right _ (List.mem_singleton_self _), hmade.symm, rfl⟩

/-- So do all of them. -/
theorem cachedFrom_after {made : AmbientCall → AmbientContext} {later : List AmbientCall}
    (hmade : ∀ call, made call = service.contextOf call) (h : service.CachedFrom made calls) :
    (service.after later).CachedFrom made (calls ++ later) := by
  induction later generalizing service calls with
  | nil =>
    rw [List.append_nil]
    exact h
  | cons call later ih =>
    have hstep := cachedFrom_getAmbientContext (hmade call) h
    have hrest := ih (fun other => (hmade other).trans (contextOf_congr hasApiKey_getAmbientContext).symm) hstep
    rw [List.append_assoc] at hrest
    exact hrest

/-- **Every answer is that of a call**: of the call itself, or of one before it that finished less than five
minutes ago. -/
theorem answer_of_calls (hempty : service.cachedContext = none) :
    ((service.after calls).getAmbientContext call).1 = (service.after calls).contextOf call ∨
      ∃ past ∈ calls, ((service.after calls).getAmbientContext call).1 = service.contextOf past ∧
        call.clock.ms < past.finished + 5 * 60 * 1000 := by
  have hcached : (service.after calls).CachedFrom service.contextOf ([] ++ calls) :=
    cachedFrom_after (fun _ => rfl) fun context hcontext => by
      rw [hempty] at hcontext
      cases hcontext
  unfold getAmbientContext
  split
  · rename_i context hfresh
    obtain ⟨hcontext, expiry, hexpiry, hlt⟩ := fresh_eq_some hfresh
    obtain ⟨past, hmem, heq, hexpiry'⟩ := hcached context hcontext
    obtain rfl := Option.some.inj (hexpiry.symm.trans hexpiry')
    exact .inr ⟨past, hmem, heq, hlt⟩
  · exact .inl rfl

end AmbientContextService

end DreamWeaver.Ambient
