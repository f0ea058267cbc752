import DreamWeaver.Worker.LiveWebSocket

/-! # The order of messages

What the worker sends to Gemini is a part, in order, of the texts that it let through: a text waits in the
queue until Gemini's socket is open, and is sent once. It begins with the first message of the client, the
setup, in every run in which this message is within the size limit, the queue has room for every text that
comes before the opening, and the opening can send the first text that waits: a full queue gives up its
oldest text, which is the setup. -/

namespace DreamWeaver.Worker

open Transitions

variable {platform : Platform} {w w' : LiveWebSocket} {a : WorkerAction} {actions : List WorkerAction}
  {past : List Text} {setup : Text}

namespace LiveWebSocket

/-! ## Texts are sent in order -/

/-- What was sent, or waits, is a part of what was let through; nothing is sent before the opening. -/
structure Subsequent (past : List Text) (w : LiveWebSocket) : Prop where
  waiting : w.geminiOpen = false → w.toGemini = [] ∧ w.audioBufferQueue.Sublist past
  sent : w.toGemini.Sublist past

theorem Subsequent.still (h : w.Subsequent past) (hstill : w.Still w') : w'.Subsequent past where
  waiting hclosed := by
    rw [hstill.geminiOpen] at hclosed
    rw [hstill.toGemini, hstill.audioBufferQueue]
    exact h.waiting hclosed
  sent := by
    rw [hstill.toGemini]
    exact h.sent

theorem Subsequent.onGeminiOpen (h : w.Subsequent past) (hclosed : w.geminiOpen = false) (sendable : ℕ) :
    (w.onGeminiOpen sendable).Subsequent past where
  waiting hopen := nomatch hopen
  sent := by
    obtain ⟨hnone, hqueue⟩ := h.waiting hclosed
    rw [LiveWebSocket.onGeminiOpen, hnone, List.nil_append]
    exact (List.take_sublist _ _).trans hqueue

theorem Subsequent.forward (h : w.Subsequent past) (data : Text) (sends : Bool) :
    (w.forward platform data sends).Subsequent (past ++ [data]) := by
  have hmore : past.Sublist (past ++ [data]) := List.sublist_append_left _ _
  rcases forward_cases platform w data sends with ⟨hopen, heq⟩ | ⟨hopen, hstill, -⟩ | ⟨hclosed, heq⟩
  · rw [heq]
    refine ⟨fun hclosed => ?_, h.sent.append (List.Sublist.refl _)⟩
    rw [hopen] at hclosed
    cases hclosed
  · refine ⟨fun hclosed => ?_, ?_⟩
    · rw [hstill.geminiOpen, hopen] at hclosed
      cases hclosed
    · rw [hstill.toGemini]
      exact h.sent.trans hmore
  · rw [heq]
    obtain ⟨hnone, hqueue⟩ := h.waiting hclosed
    refine ⟨fun _ => ⟨hnone, ?_⟩, h.sent.trans hmore⟩
    exact (pushBounded_sublist _ _ _).trans (hqueue.append (List.Sublist.refl _))

/-- **Every event keeps the order.** -/
theorem Subsequent.step (h : w.Subsequent past) (hstep : w.step platform a = some w') :
    w'.Subsequent (past ++ w.admitted platform a) := by
  rcases step_traffic hstep with ⟨hnone, hstill⟩ | ⟨sendable, rfl, hclosed, rfl⟩ |
    ⟨message, now, sends, data, rfl, -, hsome, rfl⟩
  · rw [hnone, List.append_nil]
    exact h.still hstill
  · change (w.onGeminiOpen sendable).Subsequent (past ++ [])
    rw [List.append_nil]
    exact h.onGeminiOpen hclosed sendable
  · rw [admitted, hsome]
    exact (h.still (atChecks_still platform w message now)).forward data sends

end LiveWebSocket

/-- The texts that are let through in a run. -/
def admittedTexts (platform : Platform) (start : ℤ) (actions : List WorkerAction) : List Text :=
  outputs (LiveWebSocket.step platform) (LiveWebSocket.admitted platform) (.accepted start) actions

/-- **Every run keeps the order**, and sends nothing twice. -/
theorem sent_sublist {start : ℤ}
    (hrun : runFrom (LiveWebSocket.step platform) (.accepted start) actions = some w) :
    w.toGemini.Sublist (admittedTexts platform start actions) := by
  have hstart : (LiveWebSocket.accepted start).Subsequent [] :=
    ⟨fun _ => ⟨rfl, List.Sublist.refl _⟩, List.Sublist.refl _⟩
  have hend : w.Subsequent ([] ++ admittedTexts platform start actions) :=
    run_outputs (fun _ _ _ _ h _ hstep => h.step hstep) hstart along_true hrun
  rw [List.nil_append] at hend
  exact hend.sent

namespace LiveWebSocket

/-! ## The setup comes first -/

/-- **The condition on an event**: a text that waits finds room in the queue, and where texts wait at the
opening, the first of them is sent. -/
def InOrder (platform : Platform) (w : LiveWebSocket) : WorkerAction → Prop
  | .clientMessage message now _ => w.geminiOpen = false → (w.admits platform message now).isSome = true →
      w.audioBufferQueue.length < maxQueued
  | .geminiOpened sendable => w.audioBufferQueue ≠ [] → 0 < sendable
  | _ => True

/-- Before the client has sent anything, nothing was sent to Gemini and no text was counted. -/
structure Untouched (w : LiveWebSocket) : Prop where
  audioBufferQueue : w.audioBufferQueue = []
  toGemini : w.toGemini = []
  textCount : w.textCount = 0

/-- A text is the first that was sent or waits; or the worker is closing, and nothing was sent or waits. -/
def FirstIs (setup : Text) (isClosing : Bool) (texts : List Text) : Prop :=
  texts.head? = some setup ∨ texts = [] ∧ isClosing = true

/-- The setup leads what waits, before the opening, and what was sent. -/
structure LedBy (setup : Text) (w : LiveWebSocket) : Prop where
  waiting : w.geminiOpen = false → w.toGemini = [] ∧ FirstIs setup w.isClosing w.audioBufferQueue
  sent : w.geminiOpen = true → FirstIs setup w.isClosing w.toGemini

theorem FirstIs.closing {texts : List Text} {isClosing isClosing' : Bool}
    (h : FirstIs setup isClosing texts) (hclosing : isClosing = true → isClosing' = true) :
    FirstIs setup isClosing' texts := by
  rcases h with hfirst | ⟨hnil, hyes⟩
  · exact Or.inl hfirst
  · exact Or.inr ⟨hnil, hclosing hyes⟩

/-- While the worker is not closing, the setup stays first. -/
theorem FirstIs.append {texts : List Text} (h : FirstIs setup false texts) (data : Text) :
    FirstIs setup false (texts ++ [data]) := by
  rcases h with hfirst | ⟨-, hno⟩
  · left
    rw [List.head?_append, hfirst]
    rfl
  · cases hno

theorem LedBy.still (h : w.LedBy setup) (hstill : w.Still w') : w'.LedBy setup where
  waiting hclosed := by
    rw [hstill.geminiOpen] at hclosed
    obtain ⟨hnone, hfirst⟩ := h.waiting hclosed
    rw [hstill.toGemini, hstill.audioBufferQueue]
    exact ⟨hnone, hfirst.closing hstill.isClosing⟩
  sent hopen := by
    rw [hstill.geminiOpen] at hopen
    rw [hstill.toGemini]
    exact (h.sent hopen).closing hstill.isClosing

theorem LedBy.onGeminiOpen (h : w.LedBy setup) (hclosed : w.geminiOpen = false) {sendable : ℕ}
    (hsendable : w.audioBufferQueue ≠ [] → 0 < sendable) : (w.onGeminiOpen sendable).LedBy setup where
  waiting hopen := nomatch hopen
  sent _ := by
    obtain ⟨hnone, hfirst⟩ := h.waiting hclosed
    change FirstIs setup w.isClosing (w.toGemini ++ w.audioBufferQueue.take sendable)
    rw [hnone, List.nil_append]
    rcases hfirst with hfirst | ⟨hnil, hclosing⟩
    · left
      have hne : w.audioBufferQueue ≠ [] := by
        intro hnil
        rw [hnil] at hfirst
        cases hfirst
      rw [List.head?_take, if_neg (hsendable hne).ne', hfirst]
    · right
      rw [hnil, List.take_nil]
      exact ⟨rfl, hclosing⟩

theorem LedBy.forward (h : w.LedBy setup) (hopen : w.isClosing = false)
    (hroom : w.geminiOpen = false → w.audioBufferQueue.length < maxQueued) (data : Text) (sends : Bool) :
    (w.forward platform data sends).LedBy setup := by
  rcases forward_cases platform w data sends with ⟨hgemini, heq⟩ | ⟨-, hstill, -⟩ | ⟨hgemini, heq⟩
  · have hfirst := h.sent hgemini
    rw [hopen] at hfirst
    rw [heq]
    refine ⟨fun hclosed => ?_, fun _ => ?_⟩
    · rw [hgemini] at hclosed
      cases hclosed
    · change FirstIs setup w.isClosing (w.toGemini ++ [data])
      rw [hopen]
      exact hfirst.append data
  · exact h.still hstill
  · obtain ⟨hnone, hfirst⟩ := h.waiting hgemini
    rw [hopen] at hfirst
    rw [heq]
    refine ⟨fun _ => ⟨hnone, ?_⟩, fun hyes => ?_⟩
    · change FirstIs setup w.isClosing (pushBounded maxQueued w.audioBufferQueue data)
      rw [hopen, pushBounded_of_lt (hroom hgemini)]
      exact hfirst.append data
    · rw [hgemini] at hyes
      cases hyes

/-- **Every event that meets the condition leaves the setup first.** -/
theorem LedBy.step (h : w.LedBy setup) (hinOrder : w.InOrder platform a)
    (hstep : w.step platform a = some w') : w'.LedBy setup := by
  rcases step_traffic hstep with ⟨-, hstill⟩ | ⟨sendable, rfl, hclosed, rfl⟩ |
    ⟨message, now, sends, data, rfl, hopen, hsome, rfl⟩
  · exact h.still hstill
  · exact h.onGeminiOpen hclosed hinOrder
  · have hchecks := atChecks_rest platform w message now
    refine (h.still (atChecks_still platform w message now)).forward ?_ ?_ data sends
    · rw [hchecks]
      exact hopen
    · rw [hchecks]
      exact fun hclosed => hinOrder hclosed (by rw [hsome]; rfl)

theorem Untouched.safeClose (h : w.Untouched) (side : Side) (code : ℕ) (reason : Text) :
    (w.safeClose platform side code reason).Untouched := by
  rw [safeClose_rest]
  exact ⟨h.audioBufferQueue, h.toGemini, h.textCount⟩

/-- Events without a message of the client leave it so. -/
theorem Untouched.step (h : w.Untouched) (hnone : a.message? = none) (hstep : w.step platform a = some w') :
    w'.Untouched := by
  cases a with
  | geminiOpened sendable =>
    by_cases hopen : w.geminiOpen = true
    · rw [LiveWebSocket.step, if_pos hopen] at hstep
      cases hstep
    · rw [LiveWebSocket.step, if_neg hopen] at hstep
      obtain rfl := Option.some.inj hstep
      refine ⟨?_, ?_, h.textCount⟩
      · rw [LiveWebSocket.onGeminiOpen, h.audioBufferQueue, List.drop_nil]
      · rw [LiveWebSocket.onGeminiOpen, h.audioBufferQueue, h.toGemini, List.take_nil, List.append_nil]
  | geminiMessage message delivered =>
    obtain rfl := Option.some.inj hstep
    unfold onGeminiMessage
    split
    · exact h
    · split
      · exact ⟨h.audioBufferQueue, h.toGemini, h.textCount⟩
      · exact h.safeClose _ _ _
  | clientMessage => cases hnone
  | closed side code reason =>
    obtain rfl := Option.some.inj hstep
    exact h.safeClose _ _ _
  | failed side =>
    obtain rfl := Option.some.inj hstep
    exact h.safeClose _ _ _

/-- The first text is within every rate limit. -/
theorem Untouched.admits (h : w.Untouched) (hopen : w.isClosing = false) {message : Payload}
    (hsize : (prepare platform.toUpperCase message).data.length ≤ maxTextBytes) (now : ℤ) :
    w.admits platform message now = some (prepare platform.toUpperCase message).data := by
  have hcount : (w.countText now).textCount = 1 := by
    unfold countText
    split
    · rfl
    · rw [h.textCount]
  simp [LiveWebSocket.admits, hopen, not_lt.mpr hsize, hcount, maxTextMessagesPerWindow]

/-- **The first message of the client** leads. -/
theorem Untouched.onClientMessage (h : w.Untouched) {message : Payload}
    (hsize : (prepare platform.toUpperCase message).data.length ≤ maxTextBytes) (now : ℤ) (sends : Bool) :
    (w.onClientMessage platform message now sends).LedBy (prepare platform.toUpperCase message).data := by
  rcases onClientMessage_cases platform w message now sends with
    ⟨hclosing, -, heq⟩ | ⟨hopen, hnone, -⟩ | ⟨hopen, data, hsome, heq⟩
  · rw [heq]
    exact ⟨fun _ => ⟨h.toGemini, Or.inr ⟨h.audioBufferQueue, hclosing⟩⟩, fun _ => Or.inr ⟨h.toGemini, hclosing⟩⟩
  · rw [h.admits hopen hsize now] at hnone
    cases hnone
  · obtain rfl := Option.some.inj ((h.admits hopen hsize now).symm.trans hsome)
    have hchecks := atChecks_rest platform w message now
    rw [heq]
    rcases forward_cases platform (w.atChecks platform message now)
      (prepare platform.toUpperCase message).data sends with ⟨hgemini, heq⟩ | ⟨hgemini, hstill, hclosing⟩ |
        ⟨hgemini, heq⟩
    · rw [heq]
      refine ⟨fun hclosed => ?_, fun _ => Or.inl ?_⟩
      · rw [hgemini] at hclosed
        cases hclosed
      · rw [hchecks, h.toGemini]
        rfl
    · refine ⟨fun hclosed => ?_, fun _ => Or.inr ⟨?_, hclosing⟩⟩
      · rw [hstill.geminiOpen, hgemini] at hclosed
        cases hclosed
      · rw [hstill.toGemini, hchecks]
        exact h.toGemini
    · rw [heq]
      refine ⟨fun _ => ⟨?_, Or.inl ?_⟩, fun hyes => ?_⟩
      · rw [hchecks]
        exact h.toGemini
      · rw [hchecks, h.audioBufferQueue]
        rfl
      · rw [hgemini] at hyes
        cases hyes

end LiveWebSocket

/-- What is sent is a part, in order, of the texts that were let through, and a setup is the first of it. -/
structure Ordered (admitted : List Text) (setup : Text) (w : LiveWebSocket) : Prop where
  inOrder : w.toGemini.Sublist admitted
  setupFirst : w.toGemini = [] ∨ w.toGemini.head? = some setup

theorem LiveWebSocket.LedBy.setupFirst (h : w.LedBy setup) :
    w.toGemini = [] ∨ w.toGemini.head? = some setup := by
  by_cases hopen : w.geminiOpen = true
  · rcases h.sent hopen with hfirst | ⟨hnil, -⟩
    · exact Or.inr hfirst
    · exact Or.inl hnil
  · exact Or.inl (h.waiting (Bool.not_eq_true _ ▸ hopen)).1

/-- **Messages are sent in order and the setup first**, in every run whose events meet the condition and
whose first message of the client is within the limit. -/
theorem ordered_setupFirst {start now : ℤ} {before rest : List WorkerAction} {message : Payload} {sends : Bool}
    (hbefore : ∀ a ∈ before, a.message? = none)
    (hrun : runFrom (LiveWebSocket.step platform) (.accepted start)
      (before ++ .clientMessage message now sends :: rest) = some w)
    (hsize : (prepare platform.toUpperCase message).data.length ≤ maxTextBytes)
    (hinOrder : Along (LiveWebSocket.step platform) (LiveWebSocket.InOrder platform) (.accepted start)
      (before ++ .clientMessage message now sends :: rest)) :
    Ordered (admittedTexts platform start (before ++ .clientMessage message now sends :: rest))
      (prepare platform.toUpperCase message).data w := by
  refine ⟨sent_sublist hrun, ?_⟩
  obtain ⟨w₁, hrun₁, hrun₂⟩ := runFrom_append hrun
  obtain ⟨-, hrest⟩ := hinOrder.split
  obtain ⟨-, hrest⟩ := hrest w₁ hrun₁
  have huntouched : w₁.Untouched := by
    have hkeep : ∀ (w : LiveWebSocket) (a : WorkerAction) (w' : LiveWebSocket), w.Untouched →
        a.message? = none → w.step platform a = some w' → w'.Untouched :=
      fun _ _ _ h hnone hstep => h.step hnone hstep
    exact run_invariant hkeep ⟨rfl, rfl, rfl⟩ (along_of_forall hbefore) hrun₁
  rw [runFrom_cons] at hrun₂
  exact (run_invariant (fun _ _ _ h hok hstep => h.step hok hstep) (huntouched.onClientMessage hsize now sends)
    (hrest _ rfl) hrun₂).setupFirst

instance : Decidable (w.InOrder platform a) :=
  match a with
  | .clientMessage _ _ _ => inferInstanceAs (Decidable (_ → _ → _))
  | .geminiOpened _ => inferInstanceAs (Decidable (_ → _))
  | .geminiMessage _ _ | .closed _ _ _ | .failed _ => isTrue trivial

/-- A setup message. -/
def setupText : Text := lit "\x7b\"setup\":\x7b\"model\":\"m\"\x7d\x7d"

/-- What the client says behind its setup, of which the first waits for the opening. -/
def afterSetup : List WorkerAction :=
  [.clientMessage (.binary [1, 0]) 0 true, .geminiOpened 2, .clientMessage (.text (lit "hello")) 0 true]

theorem ordered_setupFirst_afterSetup : ∃ w,
    runFrom (LiveWebSocket.step plainPlatform) (.accepted 0)
        ([] ++ .clientMessage (.text setupText) 0 true :: afterSetup) = some w ∧
      Ordered (admittedTexts plainPlatform 0 ([] ++ .clientMessage (.text setupText) 0 true :: afterSetup))
        (prepare plainPlatform.toUpperCase (.text setupText)).data w := by
  have hsome : (runFrom (LiveWebSocket.step plainPlatform) (.accepted 0)
    ([] ++ .clientMessage (.text setupText) 0 true :: afterSetup)).isSome = true := by
    rw [setupText, lit_ofList]
    decide +kernel
  have hsize : (prepare plainPlatform.toUpperCase (.text setupText)).data.length ≤ maxTextBytes := by
    rw [setupText, lit_ofList]
    decide +kernel
  have hinOrder : Along (LiveWebSocket.step plainPlatform) (LiveWebSocket.InOrder plainPlatform) (.accepted 0)
      ([] ++ .clientMessage (.text setupText) 0 true :: afterSetup) := by
    rw [setupText, lit_ofList]
    decide +kernel
  obtain ⟨w, hrun⟩ := Option.isSome_iff_exists.mp hsome
  exact ⟨w, hrun, ordered_setupFirst (fun _ h => nomatch h) hrun hsize hinOrder⟩

/-- The client sends fifty texts behind its setup before Gemini's socket is open. -/
def eager : List WorkerAction :=
  List.replicate 50 (.clientMessage (.text (lit "hello")) 0 true) ++ [.geminiOpened 50]

/-- The setup is never sent. -/
theorem eager_not_setupFirst : ∃ w,
    runFrom (LiveWebSocket.step plainPlatform) (.accepted 0) (.clientMessage (.text setupText) 0 true :: eager) =
        some w ∧
      w.toGemini = List.replicate 50 (lit "hello") ∧
      ¬ Ordered (admittedTexts plainPlatform 0 (.clientMessage (.text setupText) 0 true :: eager)) setupText w := by
  have hsent : (runFrom (LiveWebSocket.step plainPlatform) (.accepted 0)
      (.clientMessage (.text setupText) 0 true :: eager)).map LiveWebSocket.toGemini =
        some (List.replicate 50 (lit "hello")) := by decide +kernel
  obtain ⟨w, hrun, hw⟩ := Option.map_eq_some_iff.mp hsent
  refine ⟨w, hrun, hw, fun h => ?_⟩
  rcases h.setupFirst with hnil | hfirst
  · rw [hw] at hnil
    cases hnil
  · rw [hw] at hfirst
    revert hfirst
    decide

end DreamWeaver.Worker
