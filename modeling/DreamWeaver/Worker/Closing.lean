import DreamWeaver.Worker.LiveWebSocket

/-! # Close propagation

Where a peer of the worker closes its socket, or its socket fails, the worker closes the socket to the other
peer, with the code and the reason of the event. It does so in every run in which each of these events finds
or brings a code and a reason that the other socket's `close` takes: where `close` throws, the exception is
swallowed, and `isClosing` keeps every later event from closing the socket. -/

namespace DreamWeaver.Worker

open Transitions

variable {platform : Platform} {w w' : LiveWebSocket} {a : WorkerAction} {actions : List WorkerAction}

namespace LiveWebSocket

/-- A close was issued to a peer. -/
def hasClosed (w : LiveWebSocket) (side : Side) : Bool :=
  w.closeCalls.any fun call => call.side = side && call.issued

/-- The code and the reason that the worker closes its sockets with: those it is closing with already, or
else those of an event. -/
def closingWith (w : LiveWebSocket) (side : Side) (code : ℕ) (reason : Text) : ℕ × Text :=
  if w.isClosing then w.closeCalls.getLast?.elim (1000, []) fun call => (call.code, call.reason)
  else (closeCode code, orText (some reason) side.closedReason)

/-- The other socket takes the close of an event, or was closed already because a message was refused. -/
def Passable (platform : Platform) (w : LiveWebSocket) (side : Side) (code : ℕ) (reason : Text) : Prop :=
  w.isClosing = false ∧ w.hasClosed side.other = true ∨
    platform.closes side.other (w.closingWith side code reason).1 (w.closingWith side code reason).2 = true

/-- **The condition on an event**: if it ends one side, the other side can be closed. -/
def Closable (platform : Platform) (w : LiveWebSocket) : WorkerAction → Prop
  | .closed side code reason => w.Passable platform side code reason
  | .failed side => w.Passable platform side 1011 side.errorReason
  | _ => True

/-- A worker that is closing has called `close` on both sockets with one code and reason, last of all. -/
def ClosesBoth (platform : Platform) (w : LiveWebSocket) : Prop :=
  w.isClosing = true → ∃ code reason,
    (∃ side issued, w.closeCalls.getLast? = some ⟨side, code, reason, issued⟩) ∧
      ∀ side, ⟨side, code, reason, platform.closes side code reason⟩ ∈ w.closeCalls

/-! ## Calls of `close` -/

theorem hasClosed_of_mem {side : Side} {code : ℕ} {reason : Text}
    (h : ⟨side, code, reason, true⟩ ∈ w.closeCalls) : w.hasClosed side = true :=
  List.any_eq_true.mpr ⟨_, h, by simp⟩

/-- A close that was issued stays so. -/
theorem hasClosed_mono {side : Side} (hcalls : w.closeCalls <+: w'.closeCalls)
    (h : w.hasClosed side = true) : w'.hasClosed side = true := by
  obtain ⟨call, hmem, hcall⟩ := List.any_eq_true.mp h
  exact List.any_eq_true.mpr ⟨call, hcalls.subset hmem, hcall⟩

theorem safeClose_of_isClosing (h : w.isClosing = true) (side : Side) (code : ℕ) (reason : Text) :
    w.safeClose platform side code reason = w := by
  rw [safeClose, if_pos h]

theorem Side.eq_or_eq_other (side source : Side) : side = source ∨ side = source.other := by
  cases side <;> cases source <;> simp [Side.other]

/-- **`safeClose` tries both sockets**, also where the first of them throws. -/
theorem safeClose_closesBoth (h : w.ClosesBoth platform) (side : Side) (code : ℕ) (reason : Text) :
    (w.safeClose platform side code reason).ClosesBoth platform := by
  by_cases hclosing : w.isClosing = true
  · rw [safeClose_of_isClosing hclosing]
    exact h
  · rw [safeClose, if_neg hclosing]
    intro _
    refine ⟨_, _, ⟨side, _, List.getLast?_concat⟩, fun side' => ?_⟩
    rcases Side.eq_or_eq_other side' side with rfl | rfl
    · exact List.mem_append_right _ (List.mem_singleton.mpr rfl)
    · exact List.mem_append_left _ (List.mem_append_right _ (List.mem_singleton.mpr rfl))

/-- **An event that can be passed on closes the other side.** -/
theorem hasClosed_safeClose (h : w.ClosesBoth platform) {side : Side} {code : ℕ} {reason : Text}
    (hpass : w.Passable platform side code reason) :
    (w.safeClose platform side code reason).hasClosed side.other = true := by
  rcases hpass with ⟨-, hclosed⟩ | hcloses
  · exact hasClosed_mono (closeCalls_safeClose platform w side code reason) hclosed
  by_cases hclosing : w.isClosing = true
  · -- the code and the reason are those of the last call
    obtain ⟨code', reason', ⟨side', issued, hlast⟩, hboth⟩ := h hclosing
    rw [closingWith, if_pos hclosing, hlast, Option.elim_some] at hcloses
    have hcall := hboth side.other
    rw [hcloses] at hcall
    rw [safeClose_of_isClosing hclosing]
    exact hasClosed_of_mem hcall
  · rw [closingWith, if_neg hclosing] at hcloses
    rw [safeClose, if_neg hclosing]
    apply hasClosed_of_mem
    apply List.mem_append_left
    apply List.mem_append_right
    rw [hcloses]
    exact List.mem_singleton.mpr rfl

/-! ## Events -/

/-- What was put into the sockets and the counters says nothing of closing. -/
theorem forward_closing (platform : Platform) (w : LiveWebSocket) (data : Text) (sends : Bool) :
    (w.forward platform data sends).isClosing = w.isClosing ∧
        (w.forward platform data sends).closeCalls = w.closeCalls ∨
      w.forward platform data sends = w.safeClose platform .gemini 1011 (lit "Send failed") := by
  unfold forward
  split
  · split
    · exact Or.inl ⟨rfl, rfl⟩
    · exact Or.inr rfl
  · exact Or.inl ⟨rfl, rfl⟩

theorem ClosesBoth.congr (h : w.ClosesBoth platform) (hclosing : w'.isClosing = w.isClosing)
    (hcalls : w'.closeCalls = w.closeCalls) : w'.ClosesBoth platform := by
  unfold ClosesBoth
  rw [hclosing, hcalls]
  exact h

/-- A message of the client. -/
theorem ClosesBoth.onClientMessage (h : w.ClosesBoth platform) (message : Payload) (now : ℤ) (sends : Bool) :
    (w.onClientMessage platform message now sends).ClosesBoth platform ∧
      w.closeCalls <+: (w.onClientMessage platform message now sends).closeCalls := by
  have hchecks := atChecks_rest platform w message now
  have hclosing : (w.atChecks platform message now).isClosing = w.isClosing := by rw [hchecks]
  have hcalls : (w.atChecks platform message now).closeCalls = w.closeCalls := by rw [hchecks]
  rcases onClientMessage_cases platform w message now sends with
    ⟨-, -, heq⟩ | ⟨hopen, -, code, reason, -, heq⟩ | ⟨-, data, -, heq⟩
  · rw [heq]
    exact ⟨h, List.prefix_rfl⟩
  · rw [heq]
    refine ⟨fun hclosed => ?_, ?_⟩
    · -- a refusal does not begin to close the worker
      have hno : (w.atChecks platform message now).isClosing = true := hclosed
      rw [hclosing, hopen] at hno
      cases hno
    · rw [← hcalls]
      exact List.prefix_append _ _
  · rw [heq]
    rcases forward_closing platform (w.atChecks platform message now) data sends with
      ⟨hsame, hsameCalls⟩ | hfailed
    · refine ⟨h.congr (hsame.trans hclosing) (hsameCalls.trans hcalls), ?_⟩
      rw [hsameCalls, hcalls]
    · rw [hfailed]
      refine ⟨safeClose_closesBoth (h.congr hclosing hcalls) _ _ _, ?_⟩
      rw [← hcalls]
      exact closeCalls_safeClose _ _ _ _ _

/-- **One event**: closes are not taken back, and the invariant is kept. -/
theorem ClosesBoth.step (h : w.ClosesBoth platform) (hstep : w.step platform a = some w') :
    w'.ClosesBoth platform ∧ w.closeCalls <+: w'.closeCalls := by
  cases a with
  | geminiOpened sendable =>
    by_cases hopen : w.geminiOpen = true
    · rw [LiveWebSocket.step, if_pos hopen] at hstep
      cases hstep
    · rw [LiveWebSocket.step, if_neg hopen] at hstep
      obtain rfl := Option.some.inj hstep
      exact ⟨h.congr rfl rfl, List.prefix_rfl⟩
  | geminiMessage message delivered =>
    obtain rfl := Option.some.inj hstep
    unfold onGeminiMessage
    split
    · exact ⟨h, List.prefix_rfl⟩
    · split
      · exact ⟨h.congr rfl rfl, List.prefix_rfl⟩
      · exact ⟨safeClose_closesBoth h _ _ _, closeCalls_safeClose _ _ _ _ _⟩
  | clientMessage message now sends =>
    obtain rfl := Option.some.inj hstep
    exact h.onClientMessage message now sends
  | closed side code reason =>
    obtain rfl := Option.some.inj hstep
    exact ⟨safeClose_closesBoth h _ _ _, closeCalls_safeClose _ _ _ _ _⟩
  | failed side =>
    obtain rfl := Option.some.inj hstep
    exact ⟨safeClose_closesBoth h _ _ _, closeCalls_safeClose _ _ _ _ _⟩

/-- The side that an event ends leaves the other one closed. -/
theorem hasClosed_of_step (h : w.ClosesBoth platform) (hclosable : w.Closable platform a)
    (hstep : w.step platform a = some w') {side : Side} (hended : a.ended? = some side) :
    w'.hasClosed side.other = true := by
  cases a with
  | geminiOpened | geminiMessage | clientMessage => cases hended
  | closed side' code reason =>
    obtain rfl := Option.some.inj hended
    obtain rfl := Option.some.inj hstep
    exact hasClosed_safeClose h hclosable
  | failed side' =>
    obtain rfl := Option.some.inj hended
    obtain rfl := Option.some.inj hstep
    exact hasClosed_safeClose h hclosable

end LiveWebSocket

/-- The other side of every side that has ended was closed. -/
def ClosePropagated (ended : List Side) (w : LiveWebSocket) : Prop :=
  ∀ side ∈ ended, w.hasClosed side.other = true

/-- **Closes are passed on**, in every run whose events meet the condition. -/
theorem close_propagated {now : ℤ}
    (hrun : runFrom (LiveWebSocket.step platform) (.accepted now) actions = some w)
    (hclosable : Along (LiveWebSocket.step platform) (LiveWebSocket.Closable platform) (.accepted now)
      actions) :
    ClosePropagated (actions.filterMap WorkerAction.ended?) w := by
  let I : List Side → LiveWebSocket → Prop := fun ended w => w.ClosesBoth platform ∧ ClosePropagated ended w
  have hstart : I [] (.accepted now) := ⟨fun h => (nomatch h), fun _ h => (nomatch h)⟩
  have hkeep : ∀ ended w a w', I ended w → w.Closable platform a → w.step platform a = some w' →
      I (ended ++ a.ended?.toList) w' := by
    intro ended w a w' ⟨hboth, hpropagated⟩ hclosable hstep
    obtain ⟨hboth', hcalls⟩ := hboth.step hstep
    refine ⟨hboth', fun side hside => ?_⟩
    rcases List.mem_append.mp hside with hbefore | hnow
    · exact LiveWebSocket.hasClosed_mono hcalls (hpropagated side hbefore)
    · exact LiveWebSocket.hasClosed_of_step hboth hclosable hstep (Option.mem_toList.mp hnow)
  have hend : I ([] ++ outputs (LiveWebSocket.step platform) (fun _ a => a.ended?.toList) _ actions) w :=
    run_outputs hkeep hstart hclosable hrun
  rw [List.nil_append, outputs_eq_flatMap hrun, ← List.filterMap_eq_flatMap_toList] at hend
  exact hend.2

/-- The client closes normally, and then Gemini does. -/
def goodbye : List WorkerAction :=
  [.geminiOpened 0, .closed .client 1000 [], .closed .gemini 1000 (lit "Client closed")]

theorem close_propagated_goodbye : ∃ w,
    runFrom (LiveWebSocket.step plainPlatform) (.accepted 0) goodbye = some w ∧
      ClosePropagated (goodbye.filterMap WorkerAction.ended?) w := by
  have hrun : runFrom (LiveWebSocket.step plainPlatform) (.accepted 0) goodbye = some _ := rfl
  refine ⟨_, hrun, close_propagated hrun ⟨trivial, fun w₁ h₁ => ?_⟩⟩
  obtain rfl := Option.some.inj h₁
  refine ⟨Or.inr rfl, fun w₂ h₂ => ?_⟩
  obtain rfl := Option.some.inj h₂
  exact ⟨Or.inr rfl, fun _ _ => trivial⟩

/-- The client is gone without a close frame, which its socket reports as code 1006 and as an error. -/
def clientGone : List WorkerAction := [.geminiOpened 0, .closed .client 1006 [], .failed .client]

/-- The socket to Gemini is not closed, then or later. -/
theorem clientGone_not_propagated : ∃ w,
    runFrom (LiveWebSocket.step plainPlatform) (.accepted 0) clientGone = some w ∧
      w.isClosing = true ∧ w.hasClosed .gemini = false ∧
        ¬ ClosePropagated (clientGone.filterMap WorkerAction.ended?) w := by
  refine ⟨_, rfl, rfl, rfl, fun h => ?_⟩
  have hclosed := h .client List.mem_cons_self
  cases hclosed

end DreamWeaver.Worker
