import DreamWeaver.Foundations.Slots
import DreamWeaver.Foundations.Transitions
import Mathlib.Logic.Function.Iterate

/-! # When the microphone is on

`useGeminiLive` (`src/presentation/hooks/useGeminiLive.ts`) asks for the microphone four seconds behind the opening of a
socket, and lets go of it when a socket closes or the page hangs up. The answer of the user, the loading of the worklet,
the timers and the events of any number of sockets come in every order, and references lead to the newest stream, the
newest context and the newest worklet node alone. -/

namespace DreamWeaver.Client

open Transitions SlotMove

/-! ## The hook -/

/-- `ws.readyState` -/
inductive SocketState where
  | connecting
  | opened
  | closing
  | closed
  deriving DecidableEq

/-- A context of audio. It is closed some time behind the call of `close`. -/
inductive ContextState where
  | running
  | closing
  | closed
  deriving DecidableEq

/-- A worklet node: its stream and its context, and whether it was never disconnected. -/
structure MicNode where
  stream : ℕ
  context : ℕ
  connected : Bool

/-- The streams, contexts and nodes in the order in which they were made, and the references to the newest of them. Of
a stream it is said whether its tracks were never stopped. -/
structure MicAudio where
  streams : List Bool := []
  streamRef : Option ℕ := none
  contexts : List ContextState := []
  audioContextRef : Option ℕ := none
  nodes : List MicNode := []
  micWorkletRef : Option ℕ := none

/-- The sockets in the order in which they were made, with the reference to the newest, and what the hook waits for:
sockets whose `onopen` awaits `initialize`, timers, answers of the user, and modules that a stream and a context wait
for. -/
structure AudioInput where
  sockets : List SocketState := []
  wsRef : Option ℕ := none
  initializing : List ℕ := []
  timers : List ℕ := []
  prompts : ℕ := 0
  loading : List (ℕ × ℕ) := []
  audio : MicAudio := {}

/-- What happens. -/
inductive InputAction where
  /-- `connect` has a ticket and makes a socket. -/
  | connects
  /-- `ws.onopen` -/
  | opened (socket : ℕ)
  /-- `audioStreamer.initialize()` has returned, and the timer is set. -/
  | initialized (socket : ℕ)
  /-- The timer of a socket. -/
  | timer (socket : ℕ)
  /-- The user grants the microphone; `context` says whether there is an `AudioContext`. -/
  | granted (context : Bool)
  /-- `getUserMedia` rejects. -/
  | denied
  /-- `addModule` has returned; `made` says whether the node can be made. -/
  | loaded (stream context : ℕ) (made : Bool)
  /-- A context that was told to close is closed. -/
  | contextClosed (context : ℕ)
  /-- A worklet node posts an array. -/
  | posts (node : ℕ)
  /-- A socket is closed, by a failure or otherwise: `ws.onerror`, and `ws.onclose`. -/
  | socketClosed (socket : ℕ) (failed : Bool)
  /-- `disconnect` is called by the page, or because it is left. -/
  | disconnect

namespace MicAudio

/-- `ctx.close()` where the context is not closed -/
def closeContext : ContextState → ContextState
  | .closed => .closed
  | _ => .closing

/-- `stopAudioInput`; the reference to the stream stays. -/
def stopAudioInput (m : MicAudio) : MicAudio where
  streams := released m.streamRef m.streams
  streamRef := m.streamRef
  contexts := m.audioContextRef.elim m.contexts fun i => m.contexts.modify i closeContext
  audioContextRef := none
  nodes := m.micWorkletRef.elim m.nodes fun i => m.nodes.modify i fun node => { node with connected := false }
  micWorkletRef := none

/-- `startAudioInput` from the answer of the user to the loading of the module. -/
def grant (m : MicAudio) (context : Bool) : MicAudio :=
  let m := { m with streams := m.streams ++ [true], streamRef := some m.streams.length }
  if context then { m with contexts := m.contexts ++ [.running], audioContextRef := some m.contexts.length } else m

/-- A node is made, unless the context was closed while the module was loading. -/
def makesNode (m : MicAudio) (context : ℕ) (made : Bool) : Bool := made && m.contexts[context]? != some .closed

/-- The rest of `startAudioInput`. -/
def load (m : MicAudio) (stream context : ℕ) (made : Bool) : MicAudio :=
  if m.makesNode context made then
    { m with nodes := m.nodes ++ [⟨stream, context, true⟩], micWorkletRef := some m.nodes.length }
  else m

end MicAudio

namespace AudioInput

/-- `ws.close()` -/
def closeSocket : SocketState → SocketState
  | .closed => .closed
  | _ => .closing

/-- `disconnect` -/
def disconnect (s : AudioInput) : AudioInput :=
  { s with
    sockets := s.wsRef.elim s.sockets fun i => s.sockets.modify i closeSocket
    audio := s.audio.stopAudioInput }

/-- The modules that are loading when the user has granted the microphone. -/
def loadingWith (s : AudioInput) (context : Bool) : List (ℕ × ℕ) :=
  if context then s.loading ++ [(s.audio.streams.length, s.audio.contexts.length)] else s.loading

/-- The hook after something has happened, if it can happen. -/
def step (s : AudioInput) : InputAction → Option AudioInput
  | .connects => some { s with sockets := s.sockets ++ [.connecting], wsRef := some s.sockets.length }
  | .opened i =>
    if s.sockets[i]? = some .connecting then
      some { s with sockets := s.sockets.set i .opened, initializing := s.initializing ++ [i] }
    else none
  | .initialized i =>
    if i ∈ s.initializing then
      some { s with initializing := s.initializing.erase i, timers := s.timers ++ [i] }
    else none
  | .timer i =>
    if i ∈ s.timers then
      some { s with
        timers := s.timers.erase i
        prompts := if s.sockets[i]? = some .opened then s.prompts + 1 else s.prompts }
    else none
  | .granted context =>
    if 0 < s.prompts then
      some { s with prompts := s.prompts - 1, loading := s.loadingWith context, audio := s.audio.grant context }
    else none
  | .denied => if 0 < s.prompts then some { s with prompts := s.prompts - 1 } else none
  | .loaded stream context made =>
    if (stream, context) ∈ s.loading then
      some { s with loading := s.loading.erase (stream, context), audio := s.audio.load stream context made }
    else none
  | .contextClosed i =>
    if s.audio.contexts[i]? = some .closing then
      some { s with audio := { s.audio with contexts := s.audio.contexts.set i .closed } }
    else none
  | .posts i => if i < s.audio.nodes.length then some s else none
  | .socketClosed i failed =>
    if s.sockets[i]?.any (· ≠ .closed) then
      let s := { s with sockets := s.sockets.set i .closed }
      -- `onerror` hangs up before `onclose` lets go once more
      let s := if failed then s.disconnect else s
      some { s with audio := s.audio.stopAudioInput }
    else none
  | .disconnect => some s.disconnect

/-- The sockets that an array is sent on. -/
def sends (s : AudioInput) : InputAction → List ℕ
  | .posts _ => s.wsRef.toList.filter fun i => s.sockets[i]? = some .opened
  | _ => []

end AudioInput

/-! ## What is done with the references -/

/-- How often an action lets go. -/
def InputAction.stops : InputAction → ℕ
  | .socketClosed _ failed => if failed then 2 else 1
  | .disconnect => 1
  | _ => 0

/-- A kind of what is acquired: what is on, the reference to the newest, and whether an action makes one. -/
structure MicSlot where
  flags : MicAudio → List Bool
  ref : MicAudio → Option ℕ
  makes : MicAudio → InputAction → Bool

/-- The streams. -/
def streamSlot : MicSlot where
  flags := MicAudio.streams
  ref := MicAudio.streamRef
  makes _ a := match a with
    | .granted _ => true
    | _ => false

/-- The contexts. -/
def contextSlot : MicSlot where
  flags m := m.contexts.map (· == .running)
  ref := MicAudio.audioContextRef
  makes _ a := match a with
    | .granted context => context
    | _ => false

/-- The worklet nodes. -/
def nodeSlot : MicSlot where
  flags m := m.nodes.map MicNode.connected
  ref := MicAudio.micWorkletRef
  makes m a := match a with
    | .loaded _ context made => m.makesNode context made
    | _ => false

/-- What an action does with the reference. -/
def MicSlot.moves (slot : MicSlot) (s : AudioInput) (a : InputAction) : List SlotMove :=
  if slot.makes s.audio a then [.acquire] else List.replicate a.stops .release

/-! ## What a step does to the audio -/

namespace AudioInput

variable {s s' : AudioInput} {a : InputAction} {actions : List InputAction} {past : List SlotMove} {m : MicAudio}

/-- What an action does to the audio. -/
def audioAfter (m : MicAudio) : InputAction → MicAudio
  | .granted context => m.grant context
  | .loaded stream context made => m.load stream context made
  | .contextClosed i => { m with contexts := m.contexts.set i .closed }
  | a => MicAudio.stopAudioInput^[a.stops] m

/-- **What a step can do** to the audio; only a context that is closing is closed. -/
theorem audio_step (h : s.step a = some s') :
    s'.audio = audioAfter s.audio a ∧ ∀ i, a = .contextClosed i → s.audio.contexts[i]? = some .closing := by
  cases a with
  | contextClosed i =>
    obtain ⟨hclosing, hs⟩ := Option.ite_none_right_eq_some.mp h
    cases hs
    refine ⟨rfl, fun j hj => ?_⟩
    cases hj
    exact hclosing
  | socketClosed i failed =>
    obtain ⟨-, hs⟩ := Option.ite_none_right_eq_some.mp h
    cases hs
    refine ⟨?_, fun j hj => by cases hj⟩
    cases failed <;> rfl
  | connects | disconnect =>
    cases h
    exact ⟨rfl, fun j hj => by cases hj⟩
  | _ =>
    obtain ⟨-, hs⟩ := Option.ite_none_right_eq_some.mp h
    cases hs
    exact ⟨rfl, fun j hj => by cases hj⟩

/-- A slot keeps to the law of references, if every action does to it what it is said to do. -/
structure Keeps (slot : MicSlot) : Prop where
  stop : ∀ {past m}, Holds past (slot.flags m) (slot.ref m) →
    Holds (past ++ [.release]) (slot.flags m.stopAudioInput) (slot.ref m.stopAudioInput)
  make : ∀ {past m a}, slot.makes m a = true → Holds past (slot.flags m) (slot.ref m) →
    Holds (past ++ [.acquire]) (slot.flags (audioAfter m a)) (slot.ref (audioAfter m a))
  rest : ∀ {m a}, slot.makes m a = false → a.stops = 0 →
    (∀ i, a = .contextClosed i → m.contexts[i]? = some .closing) →
    slot.flags (audioAfter m a) = slot.flags m ∧ slot.ref (audioAfter m a) = slot.ref m

theorem keeps_streamSlot : Keeps streamSlot where
  stop h := h.release (Or.inl rfl)
  make {past m a} hmakes h := by
    cases a with
    | granted context =>
      have hgrant := h.acquire
      cases context <;> exact hgrant
    | _ => cases hmakes
  rest {m a} hmakes hstops _ := by
    cases a with
    | granted context => cases hmakes
    | loaded stream context made =>
      simp only [audioAfter, MicAudio.load]
      split <;> exact ⟨rfl, rfl⟩
    | contextClosed i => exact ⟨rfl, rfl⟩
    | _ =>
      simp only [audioAfter, hstops]
      exact ⟨rfl, rfl⟩

theorem keeps_contextSlot : Keeps contextSlot where
  stop {past m} h := by
    have hflags : contextSlot.flags m.stopAudioInput = released m.audioContextRef (contextSlot.flags m) := by
      apply map_elim_modify
      intro state
      cases state <;> rfl
    rw [hflags]
    exact h.release (Or.inr rfl)
  make {past m a} hmakes h := by
    cases a with
    | granted context =>
      obtain rfl : context = true := hmakes
      simpa [contextSlot, audioAfter, MicAudio.grant] using h.acquire
    | _ => cases hmakes
  rest {m a} hmakes hstops hclosing := by
    cases a with
    | granted context =>
      obtain rfl : context = false := hmakes
      exact ⟨rfl, rfl⟩
    | loaded stream context made =>
      simp only [audioAfter, MicAudio.load]
      split <;> exact ⟨rfl, rfl⟩
    | contextClosed i =>
      -- a context that is closing runs no more
      have hi := hclosing i rfl
      refine ⟨?_, rfl⟩
      simp only [contextSlot, audioAfter]
      refine List.ext_getElem? fun j => ?_
      rw [List.getElem?_map, List.getElem?_map, List.getElem?_set]
      by_cases hij : i = j
      · subst hij
        obtain ⟨hlt, hget⟩ := List.getElem?_eq_some_iff.mp hi
        simp [hlt, hget]
      · simp [hij]
    | _ =>
      simp only [audioAfter, hstops]
      exact ⟨rfl, rfl⟩

theorem keeps_nodeSlot : Keeps nodeSlot where
  stop {past m} h := by
    have hflags : nodeSlot.flags m.stopAudioInput = released m.micWorkletRef (nodeSlot.flags m) :=
      map_elim_modify (fun _ => rfl) _ _
    rw [hflags]
    exact h.release (Or.inr rfl)
  make {past m a} hmakes h := by
    cases a with
    | loaded stream context made =>
      have hmade : m.makesNode context made = true := hmakes
      simpa [nodeSlot, audioAfter, MicAudio.load, hmade] using h.acquire
    | _ => cases hmakes
  rest {m a} hmakes hstops _ := by
    cases a with
    | loaded stream context made =>
      have hmade : m.makesNode context made = false := hmakes
      simp only [audioAfter, MicAudio.load, hmade]
      exact ⟨rfl, rfl⟩
    | granted context => cases context <;> exact ⟨rfl, rfl⟩
    | contextClosed i => exact ⟨rfl, rfl⟩
    | _ =>
      simp only [audioAfter, hstops]
      exact ⟨rfl, rfl⟩

/-! ## Runs -/

variable {slot : MicSlot}

/-- Stops one behind the other. -/
theorem Keeps.iterate (hslot : Keeps slot) (h : Holds past (slot.flags m) (slot.ref m)) (n : ℕ) :
    Holds (past ++ List.replicate n .release) (slot.flags (MicAudio.stopAudioInput^[n] m))
      (slot.ref (MicAudio.stopAudioInput^[n] m)) := by
  induction n with
  | zero => simpa using h
  | succ n ih =>
    rw [Function.iterate_succ_apply', List.replicate_succ', ← List.append_assoc]
    exact hslot.stop ih

/-- **A step** makes the moves that it is said to make. -/
theorem Keeps.step (hslot : Keeps slot) (h : Holds past (slot.flags s.audio) (slot.ref s.audio))
    (hstep : s.step a = some s') :
    Holds (past ++ slot.moves s a) (slot.flags s'.audio) (slot.ref s'.audio) := by
  obtain ⟨haudio, hclosing⟩ := audio_step hstep
  rw [haudio, MicSlot.moves]
  cases hmakes : slot.makes s.audio a with
  | true => exact hslot.make hmakes h
  | false =>
    rw [if_neg Bool.false_ne_true]
    by_cases hstops : a.stops = 0
    · obtain ⟨hflags, href⟩ := hslot.rest hmakes hstops hclosing
      rw [hflags, href, hstops, List.replicate_zero, List.append_nil]
      exact h
    · -- a stop makes nothing, and there may be two of them in one action
      have hafter : audioAfter s.audio a = MicAudio.stopAudioInput^[a.stops] s.audio := by
        cases a <;> first | rfl | exact absurd rfl hstops
      rw [hafter]
      exact hslot.iterate h _

/-- **A run**: what is on was made, and there is no release directly behind it. -/
theorem Keeps.run (hslot : Keeps slot) (hstart : Holds [] (slot.flags ({} : MicAudio)) (slot.ref ({} : MicAudio)))
    (hrun : runFrom AudioInput.step {} actions = some s) (i : ℕ) :
    (slot.flags s.audio)[i]? = some true ↔ LeftOn (outputs AudioInput.step slot.moves {} actions) i := by
  have hend : Holds ([] ++ outputs AudioInput.step slot.moves {} actions) (slot.flags s.audio) (slot.ref s.audio) :=
    run_outputs (I := fun past s => Holds past (slot.flags s.audio) (slot.ref s.audio))
      (fun past s a s' h _ hstep => hslot.step h hstep) hstart along_true hrun
  exact hend.leftOn_iff i

/-! ## Hanging up -/

/-- The newest socket is not open. -/
def HungUp (s : AudioInput) : Prop := ∀ i, s.wsRef = some i → s.sockets[i]? ≠ some .opened

theorem hungUp_disconnect (s : AudioInput) : s.disconnect.HungUp := by
  intro i hi
  have href : s.wsRef = some i := hi
  simp only [disconnect, href, Option.elim_some, List.getElem?_modify]
  cases s.sockets[i]? with
  | none => simp
  | some state => cases state <;> simp [closeSocket]

/-- No step but the opening of a socket changes this. -/
theorem HungUp.step (h : s.HungUp) (hopens : ∀ i, a ≠ .opened i) (hstep : s.step a = some s') : s'.HungUp := by
  cases a with
  | connects =>
    cases hstep
    intro i hi
    obtain rfl := Option.some.inj hi
    simp
  | opened i => exact absurd rfl (hopens i)
  | disconnect =>
    cases hstep
    exact s.hungUp_disconnect
  | socketClosed j failed =>
    obtain ⟨-, hs⟩ := Option.ite_none_right_eq_some.mp hstep
    have hclosed : ({ s with sockets := s.sockets.set j .closed } : AudioInput).HungUp := by
      intro i hi
      have hi' := h i hi
      rw [List.getElem?_set]
      split
      · split <;> simp
      · exact hi'
    cases failed with
    | true =>
      cases hs
      exact fun i hi => hungUp_disconnect { s with sockets := s.sockets.set j .closed } i hi
    | false =>
      cases hs
      exact hclosed
  | _ =>
    obtain ⟨-, hs⟩ := Option.ite_none_right_eq_some.mp hstep
    cases hs
    exact h

theorem HungUp.sends (h : s.HungUp) (a : InputAction) : s.sends a = [] := by
  cases a with
  | posts node =>
    cases href : s.wsRef with
    | none => simp [AudioInput.sends, href]
    | some i => simp [AudioInput.sends, href, h i href]
  | _ => rfl

/-! ## The results -/

/-- **When the microphone is on**: in every run, a stream is on exactly if `stopAudioInput` was not called between its
grant and the next one; so are the contexts and the worklet nodes. A stream that is granted behind the last stop is on,
and so is one that a second grant has replaced. -/
theorem microphone_on (hrun : runFrom AudioInput.step {} actions = some s) (i : ℕ) :
    (s.audio.streams[i]? = some true ↔ LeftOn (outputs AudioInput.step streamSlot.moves {} actions) i) ∧
    (s.audio.contexts[i]? = some .running ↔ LeftOn (outputs AudioInput.step contextSlot.moves {} actions) i) ∧
    ((∃ node, s.audio.nodes[i]? = some node ∧ node.connected = true) ↔
      LeftOn (outputs AudioInput.step nodeSlot.moves {} actions) i) := by
  refine ⟨keeps_streamSlot.run holds_nil hrun i, ?_, ?_⟩
  · rw [← keeps_contextSlot.run holds_nil hrun i]
    simp [contextSlot]
  · rw [← keeps_nodeSlot.run holds_nil hrun i]
    simp [nodeSlot]

/-- The user hangs up while the browser still asks for the microphone, and grants it then. -/
def lateGrant : List InputAction := [.connects, .opened 0, .initialized 0, .timer 0, .disconnect, .granted true]

theorem microphone_on_lateGrant : ∃ s, runFrom AudioInput.step {} lateGrant = some s ∧
    LeftOn (outputs AudioInput.step streamSlot.moves {} lateGrant) 0 := by
  obtain ⟨s, hrun⟩ : ∃ s, runFrom AudioInput.step {} lateGrant = some s := ⟨_, rfl⟩
  refine ⟨s, hrun, (microphone_on hrun 0).1.mp ?_⟩
  obtain rfl := Option.some.inj hrun
  rfl

/-- **Nothing is sent behind a hang-up** until a socket opens, whatever microphones are on. -/
theorem silent_hungUp {before after : List InputAction}
    (hrun : runFrom AudioInput.step {} (before ++ .disconnect :: after) = some s) (hopens : ∀ i, .opened i ∉ after) :
    outputs AudioInput.step sends {} (before ++ .disconnect :: after) = outputs AudioInput.step sends {} before := by
  obtain ⟨s₁, hbefore, hrest⟩ := runFrom_append hrun
  rw [runFrom_of_step rfl] at hrest
  have hsilent : [] ++ outputs AudioInput.step sends s₁.disconnect after = [] ∧ s.HungUp :=
    run_outputs (I := fun past s => past = [] ∧ s.HungUp)
      (fun past s a s' h (hok : ∀ i, a ≠ .opened i) hstep => ⟨by rw [h.1, h.2.sends]; rfl, h.2.step hok hstep⟩)
      ⟨rfl, s₁.hungUp_disconnect⟩ (along_of_forall fun a ha i heq => hopens i (by rwa [heq] at ha)) hrest
  rw [outputs_append hbefore]
  exact (congrArg _ hsilent.1).trans (List.append_nil _)

theorem silent_hungUp_lateGrant :
    outputs AudioInput.step sends {} ([.connects, .opened 0, .initialized 0, .timer 0] ++
        .disconnect :: [.granted true, .loaded 0 0 true, .posts 0]) =
      outputs AudioInput.step sends {} [.connects, .opened 0, .initialized 0, .timer 0] := by
  obtain ⟨s, hrun⟩ : ∃ s, runFrom AudioInput.step {} ([.connects, .opened 0, .initialized 0, .timer 0] ++
      .disconnect :: [.granted true, .loaded 0 0 true, .posts 0]) = some s := ⟨_, rfl⟩
  refine silent_hungUp hrun fun i hmem => ?_
  simp at hmem

end AudioInput

end DreamWeaver.Client
