import DreamWeaver.Cache.Register
import DreamWeaver.Gateway.Account
import Mathlib.Algebra.Order.BigOperators.Group.Finset

/-! # The budget

What the totals in the cache say after a run of any calls that interleave at their awaits, on either adapter.
The token total is exact, except that Redis counts each recording as one more token; the cost total is off by
less than a millionth of a dollar for each recording. A call that begins once a total has reached its threshold
asks the provider nothing. All this holds of runs in which nobody else writes a total between the reading and
the writing of a recording. -/

namespace DreamWeaver.Gateway

open Cache Proc GeminiAIGateway

variable {σ ι : Type} [DecidableEq ι]

/-- Calls that share a world. -/
abbrev CallPool (σ ι : Type) := Pool ι (World σ) GatewayEffect GatewayEffect.Reply Unit

/-- The pool before the first step. -/
def CallPool.start (g : GeminiAIGateway) (port : CachePort σ) (start : ℕ) (calls : ι → GatewayCall) :
    CallPool σ ι := ⟨World.initial port start, fun i => (calls i).task g⟩

/-- The log of a run of calls. -/
abbrev CallLog (ι : Type) := List (ι × GatewayEvent)

/-- **Recordings are not interrupted**: between two steps of a call, where the second one writes the total,
nobody writes it. -/
def Uninterrupted (key : Text) (log : CallLog ι) : Prop :=
  ∀ before i event between write after, log = before ++ (i, event) :: between ++ (i, write) :: after →
    (∀ entry ∈ between, entry.1 ≠ i) → writes key write.effect = true →
      ∀ entry ∈ between, writes key entry.2.effect = false

theorem Uninterrupted.mono {key : Text} {log log' : CallLog ι} (h : Uninterrupted key log') (hpre : log <+: log') :
    Uninterrupted key log := by
  obtain ⟨more, rfl⟩ := hpre
  intro before i event between write after hlog hbetween
  exact h before i event between write (after ++ more) (by simp [hlog]) hbetween

/-! ## What a log has recorded -/

/-- The effect counts up under a key. -/
def countsUp (key : Text) : GatewayEffect → Bool
  | .cache (.increment counter _) => counter == key
  | _ => false

/-- How often a log counts up under a key. -/
def countings (key : Text) (log : CallLog ι) : ℕ := log.countP fun entry => countsUp key entry.2.effect

section Total

variable [Fintype ι] {amount : UsageMetadata → ℚ} {key : Text} {log log' : CallLog ι} {i : ι}
  {event : GatewayEvent}

/-- **The sum over the recorded calls.** -/
def total (amount : UsageMetadata → ℚ) (key : Text) (log : CallLog ι) : ℚ :=
  ∑ i, (recorded key (eventsOf i log)).elim 0 amount

theorem total_nil : total amount key ([] : CallLog ι) = 0 := Finset.sum_eq_zero fun _ _ => rfl

theorem total_concat_of_not_writes (h : writes key event.effect = false) :
    total amount key (log ++ [(i, event)]) = total amount key log := by
  refine Finset.sum_congr rfl fun j _ => ?_
  by_cases hij : i = j
  · subst hij
    rw [eventsOf_concat_self, recorded_concat_of_not_writes h]
  · rw [eventsOf_concat_of_ne hij]

/-- The first write of a call adds its amount. -/
theorem total_concat_of_write {usage : UsageMetadata} (howes : Owes key (eventsOf i log) usage)
    (hwrite : writes key event.effect = true) :
    total amount key (log ++ [(i, event)]) = total amount key log + amount usage := by
  have hbefore : recorded key (eventsOf i log) = none := recorded_of_unwritten howes.unwritten
  have hafter : recorded key (eventsOf i (log ++ [(i, event)])) = some usage := by
    rw [eventsOf_concat_self, recorded_of_write howes.unwritten hwrite, howes.answered]
  have hothers : ∀ j ∈ Finset.univ.erase i, (recorded key (eventsOf j (log ++ [(i, event)]))).elim 0 amount =
      (recorded key (eventsOf j log)).elim 0 amount := by
    intro j hmem
    rw [eventsOf_concat_of_ne (Finset.ne_of_mem_erase hmem).symm]
  rw [total, total, ← Finset.add_sum_erase _ _ (Finset.mem_univ i), Finset.sum_congr rfl hothers, hafter,
    ← Finset.add_sum_erase _ (fun j => (recorded key (eventsOf j log)).elim 0 amount) (Finset.mem_univ i), hbefore,
    Option.elim_some, Option.elim_none, zero_add, add_comm]

/-- What is recorded stays recorded. -/
theorem total_mono (hamount : ∀ usage, 0 ≤ amount usage) (h : log <+: log') :
    total amount key log ≤ total amount key log' := by
  obtain ⟨more, rfl⟩ := h
  refine Finset.sum_le_sum fun i _ => ?_
  rw [eventsOf_append]
  cases hrecorded : recorded key (eventsOf i log) with
  | some usage => rw [recorded_append hrecorded]
  | none =>
    cases recorded key (eventsOf i log ++ eventsOf i more) with
    | none => exact le_rfl
    | some usage => exact hamount usage

theorem total_nonneg (hamount : ∀ usage, 0 ≤ amount usage) : 0 ≤ total amount key log :=
  total_nil.symm.le.trans (total_mono hamount (List.nil_prefix))

/-- Nothing is recorded, or at least one call. -/
theorem total_eq_zero_or (key : Text) (log : CallLog ι) :
    (∀ amount, total amount key log = 0) ∨ 1 ≤ total (fun _ => 1) key log := by
  by_cases hsome : ∃ i usage, recorded key (eventsOf i log) = some usage
  · obtain ⟨i, usage, husage⟩ := hsome
    right
    have hone : (recorded key (eventsOf i log)).elim 0 (fun _ => 1) = (1 : ℚ) := by rw [husage, Option.elim_some]
    have hnonneg : ∀ j ∈ Finset.univ, (0 : ℚ) ≤ (recorded key (eventsOf j log)).elim 0 fun _ => 1 := by
      intro j _
      cases recorded key (eventsOf j log) with
      | none => exact le_rfl
      | some _ => exact zero_le_one
    exact hone.symm.le.trans (Finset.single_le_sum hnonneg (Finset.mem_univ i))
  · left
    intro amount
    refine Finset.sum_eq_zero fun i _ => ?_
    cases hrecorded : recorded key (eventsOf i log) with
    | none => rfl
    | some usage => exact absurd ⟨i, usage, hrecorded⟩ hsome

end Total

/-! ## A total in the cache -/

/-- A register whose text lasts until the horizon. -/
def Lasts (horizon : ℕ) (content : Content) : Prop :=
  ∀ text deadline, content = some (text, some deadline) → (horizon : ℚ) ≤ deadline

/-- A register that lasts shows its text. -/
theorem registerText_of_lasts {horizon now : ℕ} {content : Content} (h : Lasts horizon content)
    (hnow : now ≤ horizon) : registerText content now = content.map Prod.fst := by
  cases content with
  | none => rfl
  | some c =>
    obtain ⟨text, deadline⟩ := c
    have hwithin : Within deadline now = true := by
      cases deadline with
      | none => rfl
      | some deadline =>
        have hle : (now : ℚ) ≤ horizon := by exact_mod_cast hnow
        exact decide_eq_true (hle.trans (h text deadline rfl))
    simp [registerText, hwithin]

namespace Account

variable [Fintype ι] {g : GeminiAIGateway} (A : Account g) {port : CachePort σ} (R : Register port A.key)

/-- The counting that a register takes part in; only the token total is counted up. -/
def counted (log : CallLog ι) : ℕ := if R.counts = true ∧ A.key = tokensKey then countings A.key log else 0

/-- The sum of the recorded amounts. -/
def sum (log : CallLog ι) : ℚ := total A.amount A.key log

/-- How many calls have been recorded. -/
def entries (log : CallLog ι) : ℚ := total (fun _ => 1) A.key log

/-- **A number of units is fair**: off by the drift of each recording, and no more over than was counted. -/
structure Fair (log : CallLog ι) (n : ℕ) : Prop where
  lower : A.sum log - A.entries log * A.drift ≤ n * A.unit
  upper : n * A.unit ≤ A.sum log + A.entries log * A.drift + A.counted R log

/-- The largest total that the log can lead to is within the limit. -/
def InRange (log : CallLog ι) : Prop := A.sum log + A.entries log * A.drift + A.counted R log ≤ A.limit

/-- What a reading of the total may say. -/
def Reads (log : CallLog ι) (stored : Option Text) : Prop := ∃ n, Shows A.text n stored ∧ A.Fair R log n

/-- Every reading of the total said what was fair when it was read. -/
def ReadsFair (log : CallLog ι) : Prop :=
  ∀ before i stored after, log = before ++ (i, ⟨.cache (.get A.key), .ok stored⟩) :: after → A.Reads R before stored

/-- **The world's cache holds a fair total** until the horizon. -/
def Holds (horizon : ℕ) (log : CallLog ι) (w : World σ) : Prop :=
  ∃ content, R.rel w.now content w.cache ∧ Lasts horizon content ∧ A.Reads R log (content.map Prod.fst)

variable {A R} {log log' more : CallLog ι} {i : ι} {event : GatewayEvent} {n n' now horizon : ℕ} {w : World σ}
  {usage : UsageMetadata}

theorem counted_mono (h : log <+: log') : A.counted R log ≤ A.counted R log' := by
  unfold counted
  split
  · exact h.sublist.countP_le
  · exact le_rfl

theorem InRange.mono (h : A.InRange R log') (hpre : log <+: log') : A.InRange R log := by
  have hsum : A.sum log ≤ A.sum log' := total_mono A.amount_nonneg hpre
  have hentries : A.entries log ≤ A.entries log' := total_mono (fun _ => zero_le_one) hpre
  have hcounted : (A.counted R log : ℚ) ≤ A.counted R log' := by exact_mod_cast counted_mono hpre
  have hdrift := mul_le_mul_of_nonneg_right hentries A.drift_nonneg
  unfold InRange at h ⊢
  linarith

theorem fair_nil : A.Fair R ([] : CallLog ι) 0 := by
  have hsum : A.sum ([] : CallLog ι) = 0 := total_nil
  have hentries : A.entries ([] : CallLog ι) = 0 := total_nil
  constructor
  · simp [hsum, hentries]
  · rw [hsum, hentries, Nat.cast_zero, zero_mul, zero_add, zero_mul, zero_add]
    exact Nat.cast_nonneg _

/-- An event that is no write leaves the sum, and counts up or not. -/
theorem Fair.concat (h : A.Fair R log n) (hwrites : writes A.key event.effect = false) :
    A.Fair R (log ++ [(i, event)]) n := by
  have hsum : A.sum (log ++ [(i, event)]) = A.sum log := total_concat_of_not_writes hwrites
  have hentries : A.entries (log ++ [(i, event)]) = A.entries log := total_concat_of_not_writes hwrites
  have hcounted : (A.counted R log : ℚ) ≤ A.counted R (log ++ [(i, event)]) := by
    exact_mod_cast counted_mono (List.prefix_append _ _)
  constructor
  · rw [hsum, hentries]
    exact h.lower
  · rw [hsum, hentries]
    linarith [h.upper]

theorem Fair.append (h : A.Fair R log n) (hquiet : ∀ entry ∈ more, writes A.key entry.2.effect = false) :
    A.Fair R (log ++ more) n := by
  induction more using List.reverseRecOn with
  | nil => rwa [List.append_nil]
  | append_singleton more entry ih =>
    rw [← List.append_assoc]
    refine (ih fun other hmem => hquiet other (List.mem_append_left _ hmem)).concat (hquiet entry ?_)
    exact List.mem_append_right _ (List.mem_singleton_self _)

/-- Counting one up. -/
theorem Fair.concat_count (h : A.Fair R log n) (hcounts : R.counts = true ∧ A.key = tokensKey) (hunit : A.unit = 1)
    (hup : countsUp A.key event.effect = true) (hwrites : writes A.key event.effect = false) :
    A.Fair R (log ++ [(i, event)]) (n + 1) := by
  have hsum : A.sum (log ++ [(i, event)]) = A.sum log := total_concat_of_not_writes hwrites
  have hentries : A.entries (log ++ [(i, event)]) = A.entries log := total_concat_of_not_writes hwrites
  have hcounted : A.counted R (log ++ [(i, event)]) = A.counted R log + 1 := by
    rw [counted, counted, if_pos hcounts, if_pos hcounts, countings, List.countP_append]
    simp [hup, countings]
  have hlower := h.lower
  have hupper := h.upper
  rw [hunit, mul_one] at hlower hupper
  constructor
  · rw [hsum, hentries, hunit, mul_one, Nat.cast_succ]
    linarith
  · rw [hsum, hentries, hcounted, hunit, mul_one, Nat.cast_succ, Nat.cast_succ]
    linarith

/-- Recording one call. -/
theorem Fair.concat_write (h : A.Fair R log n) (howes : Owes A.key (eventsOf i log) usage)
    (hwrite : writes A.key event.effect = true)
    (hclose : |n' * A.unit - (n * A.unit + A.amount usage)| ≤ A.drift) : A.Fair R (log ++ [(i, event)]) n' := by
  have hsum : A.sum (log ++ [(i, event)]) = A.sum log + A.amount usage := total_concat_of_write howes hwrite
  have hentries : A.entries (log ++ [(i, event)]) = A.entries log + 1 := total_concat_of_write howes hwrite
  have hcounted : (A.counted R log : ℚ) ≤ A.counted R (log ++ [(i, event)]) := by
    exact_mod_cast counted_mono (List.prefix_append _ _)
  obtain ⟨hlow, hhigh⟩ := abs_le.mp hclose
  have hlower := h.lower
  have hupper := h.upper
  constructor
  · rw [hsum, hentries, add_mul, one_mul]
    linarith
  · rw [hsum, hentries, add_mul, one_mul]
    linarith

theorem Reads.append {stored : Option Text} (h : A.Reads R log stored)
    (hquiet : ∀ entry ∈ more, writes A.key entry.2.effect = false) : A.Reads R (log ++ more) stored :=
  h.imp fun _ ⟨hshows, hfair⟩ => ⟨hshows, hfair.append hquiet⟩

/-! ## What one effect does to a total -/

theorem Holds.concat (h : A.Holds R horizon log w) (hwrites : writes A.key event.effect = false) :
    A.Holds R horizon (log ++ [(i, event)]) w :=
  h.imp fun _ ⟨hrel, hlasts, n, hshows, hfair⟩ => ⟨hrel, hlasts, n, hshows, hfair.concat hwrites⟩

/-- Time goes by. -/
theorem Holds.later (h : A.Holds R horizon log w) (hnow : w.now ≤ now) (asked : List Asked) :
    A.Holds R horizon log ⟨w.cache, now, asked⟩ :=
  h.imp fun _ ⟨hrel, hrest⟩ => ⟨R.rel_later hrel hnow, hrest⟩

/-- An operation on another key. -/
theorem Holds.frame {op : CacheOp} (h : A.Holds R horizon log w) (hnow : w.now ≤ now) (hop : op.key ≠ A.key)
    (asked : List Asked) : A.Holds R horizon log ⟨(port.perform w.cache now op).2, now, asked⟩ :=
  h.imp fun _ ⟨hrel, hrest⟩ => ⟨R.rel_frame (R.rel_later hrel hnow) hop, hrest⟩

/-- **Reading the total.** -/
theorem Holds.get (h : A.Holds R horizon log w) (hnow : w.now ≤ now) (hhorizon : now ≤ horizon)
    (asked : List Asked) : ∃ stored, (port.perform w.cache now (.get A.key)).1 = .ok stored ∧ A.Reads R log stored ∧
      A.Holds R horizon log ⟨(port.perform w.cache now (.get A.key)).2, now, asked⟩ := by
  obtain ⟨content, hrel, hlasts, hreads⟩ := h
  obtain ⟨hreply, hrel'⟩ := R.get_eq (R.rel_later hrel hnow)
  rw [registerText_of_lasts hlasts hhorizon] at hreply
  exact ⟨_, hreply, hreads, content, hrel', hlasts, hreads⟩

/-- **Counting under the key of the total**, where the register takes part in it. -/
theorem Holds.increment (h : A.Holds R horizon log w) (hnow : w.now ≤ now) (hhorizon : now ≤ horizon)
    (hkey : A.key = tokensKey) (hevent : event.effect = .cache (.increment A.key none)) (asked : List Asked)
    (hrange : A.InRange R (log ++ [(i, event)])) : A.Holds R horizon (log ++ [(i, event)])
      ⟨(port.perform w.cache now (.increment A.key none)).2, now, asked⟩ := by
  obtain ⟨content, hrel, hlasts, n, hshows, hfair⟩ := h
  obtain ⟨hunit, hlimit, htext⟩ := A.counter hkey
  have hup : countsUp A.key event.effect = true := by rw [hevent]; exact beq_self_eq_true A.key
  have hwrites : writes A.key event.effect = false := by rw [hevent]; rfl
  have hcontent := registerText_of_lasts hlasts hhorizon
  rw [htext] at hshows
  -- where the register counts, the number stays an exact one
  have hnumber : R.counts = true → ∀ text, registerText content now = some text → ∃ m < 2 ^ 53, text = showNat m := by
    intro hcounts text hsome
    have hnext := (hfair.concat_count (i := i) ⟨hcounts, hkey⟩ hunit hup hwrites).upper
    rw [hunit, mul_one] at hnext
    have hle : ((n + 1 : ℕ) : ℚ) ≤ 2 ^ 53 := (hnext.trans hrange).trans hlimit
    rw [← hcontent, hsome] at hshows
    exact ⟨n, by exact_mod_cast hle, hshows⟩
  obtain ⟨count, content', -, hcase, hrel'⟩ := R.increment_eq (R.rel_later hrel hnow) hnumber
  cases hcounts : R.counts with
  | false =>
    rw [hcounts, if_neg Bool.false_ne_true] at hcase
    subst hcase
    exact ⟨_, hrel', hlasts, n, by rwa [htext], hfair.concat hwrites⟩
  | true =>
    rw [hcounts, if_pos rfl] at hcase
    refine ⟨content', hrel', ?_, n + 1, ?_, hfair.concat_count ⟨hcounts, hkey⟩ hunit hup hwrites⟩
    · intro text deadline heq
      cases hcase with
      | first hnone => cases heq
      | next =>
        obtain ⟨-, rfl⟩ := Prod.mk.inj (Option.some.inj heq)
        exact hlasts _ _ rfl
    · rw [htext]
      cases hcase with
      | first hnone =>
        rw [← hcontent, hnone] at hshows
        obtain rfl : n = 0 := hshows
        rfl
      | next => exact congrArg (fun m => showNat (m + 1)) (showNat_injective hshows)

/-- What one recording adds is within the limit. -/
theorem Fair.add_le (h : A.Fair R log n) (howes : Owes A.key (eventsOf i log) usage)
    (hwrite : writes A.key event.effect = true) (hrange : A.InRange R (log ++ [(i, event)])) :
    n * A.unit + A.amount usage ≤ A.limit := by
  have hsum : A.sum (log ++ [(i, event)]) = A.sum log + A.amount usage := total_concat_of_write howes hwrite
  have hentries : A.entries (log ++ [(i, event)]) = A.entries log + 1 := total_concat_of_write howes hwrite
  have hcounted : (A.counted R log : ℚ) ≤ A.counted R (log ++ [(i, event)]) := by
    exact_mod_cast counted_mono (List.prefix_append _ _)
  have hdrift := A.drift_nonneg
  have hupper := h.upper
  unfold InRange at hrange
  rw [hsum, hentries, add_mul, one_mul] at hrange
  linarith

/-- **Recording a call.** -/
theorem Holds.set {start : ℕ} {stored : Option Text} (h : A.Holds R (start + 86400000) log w) (hnow : w.now ≤ now)
    (hstart : start ≤ now) (hclock : now + 86400000 ≤ 2 ^ 53) (howes : Owes A.key (eventsOf i log) usage)
    (hreads : A.Reads R log stored)
    (hevent : event.effect = .cache (.set A.key (A.newText usage stored) (some retentionSec))) (asked : List Asked)
    (hrange : A.InRange R (log ++ [(i, event)])) : A.Holds R (start + 86400000) (log ++ [(i, event)])
      ⟨(port.perform w.cache now (.set A.key (A.newText usage stored) (some retentionSec))).2, now, asked⟩ := by
  obtain ⟨content, hrel, -, -⟩ := h
  obtain ⟨n, hshows, hfair⟩ := hreads
  have hwrite : writes A.key event.effect = true := by rw [hevent]; exact writes_set _ _ _
  obtain ⟨n', htext, hclose⟩ := A.newText_eq hshows (hfair.add_le howes hwrite hrange)
  have hseconds : some retentionSec = some ((86400 : ℕ) : ℚ) := by norm_num [retentionSec]
  obtain ⟨-, hrel'⟩ : _ ∧ R.rel now (some (A.newText usage stored, some ((now : ℚ) + (86400 : ℕ) * 1000))) _ :=
    R.set_eq (R.rel_later hrel hnow) (by decide : 0 < 86400) (by omega)
  rw [← hseconds] at hrel'
  refine ⟨_, hrel', ?_, n', htext, hfair.concat_write howes hwrite hclose⟩
  intro text deadline heq
  obtain ⟨-, hdeadline⟩ := Prod.mk.inj (Option.some.inj heq)
  rw [← Option.some.inj hdeadline]
  have hle : start + 86400000 ≤ now + 86400 * 1000 := by omega
  exact_mod_cast hle

/-! ## What a run does to a total -/

/-- A call that writes the total has read it, and nobody has written it since. -/
theorem reads_of_adds {stored : Option Text} (hadds : Adds A.key (eventsOf i log) usage stored)
    (hwrite : writes A.key event.effect = true) (hserial : Uninterrupted A.key (log ++ [(i, event)]))
    (hreads : A.ReadsFair R log) : A.Reads R log stored := by
  obtain ⟨past, hpast⟩ := hadds.read
  obtain ⟨before, after, hlog, -, hafter⟩ := exists_split_of_eventsOf hpast
  have hquiet := hserial before i _ after event [] (by rw [hlog]) hafter hwrite
  rw [hlog]
  exact (hreads before i stored after hlog).append (List.forall_mem_cons.mpr ⟨rfl, hquiet⟩)

/-- **One step** keeps the total fair, and a reading of it says what is fair. -/
theorem Holds.step {start : ℕ} {effect : GatewayEffect} {reply : Except JsError effect.Reply} {w' : World σ}
    (h : A.Holds R (start + 86400000) log w) (hstart : start ≤ w.now) (hreply : gatewayEnv port w effect reply w')
    (hnow : w'.now ≤ start + 86400000) (hclock : start + 2 * 86400000 ≤ 2 ^ 53)
    (hexpected : Expected g (eventsOf i log) effect)
    (hserial : Uninterrupted A.key (log ++ [(i, ⟨effect, reply⟩)]))
    (hreads : A.ReadsFair R log) (hrange : A.InRange R (log ++ [(i, ⟨effect, reply⟩)])) :
    A.Holds R (start + 86400000) (log ++ [(i, ⟨effect, reply⟩)]) w' ∧
      ∀ stored, (⟨effect, reply⟩ : GatewayEvent) = ⟨.cache (.get A.key), .ok stored⟩ → A.Reads R log stored := by
  cases effect with
  | cache op =>
    obtain ⟨now, hle, rfl, rfl⟩ := hreply
    by_cases hkey : op.key = A.key
    · cases op with
      | get key =>
        obtain rfl : key = A.key := hkey
        obtain ⟨stored, hstored, hread, hholds⟩ := h.get hle hnow w.asked
        refine ⟨hholds.concat rfl, fun stored' heq => ?_⟩
        have hsame := eq_of_heq (Event.mk.inj heq).2
        rw [hstored] at hsame
        rwa [← Except.ok.inj hsame]
      | set key text ttl =>
        obtain rfl : key = A.key := hkey
        obtain ⟨rfl, usage, stored, hadds, rfl⟩ := A.expected_set hexpected
        have hread := reads_of_adds hadds (writes_set _ _ _) hserial hreads
        refine ⟨h.set hle (hstart.trans hle) ?_ hadds.toOwes hread rfl w.asked hrange, fun _ heq => ?_⟩
        · dsimp only at hnow
          omega
        · exact nomatch (Event.mk.inj heq).1
      | increment key ttl =>
        obtain rfl : key = A.key := hkey
        obtain ⟨htokens, rfl⟩ := A.expected_increment hexpected
        exact ⟨h.increment hle hnow htokens rfl w.asked hrange, fun _ heq => nomatch (Event.mk.inj heq).1⟩
      | delete key =>
        obtain rfl : key = A.key := hkey
        exact absurd hexpected A.expected_delete
    · have hwrites : writes A.key (.cache op) = false := by
        cases op with
        | set key text ttl => exact beq_false_of_ne hkey
        | get key => rfl
        | increment key ttl => rfl
        | delete key => rfl
      refine ⟨(h.frame hle hkey w.asked).concat hwrites, fun stored heq => ?_⟩
      exact absurd (congrArg CacheOp.key (GatewayEffect.cache.inj (Event.mk.inj heq).1)) hkey
  | now =>
    obtain ⟨now, hle, -, rfl⟩ := hreply
    exact ⟨(h.later hle w.asked).concat rfl, fun _ heq => nomatch (Event.mk.inj heq).1⟩
  | generateContent request =>
    obtain ⟨now, hle, rfl⟩ := hreply
    exact ⟨(h.later hle _).concat rfl, fun _ heq => nomatch (Event.mk.inj heq).1⟩
  | generateContentStream request =>
    obtain ⟨now, hle, rfl⟩ := hreply
    exact ⟨(h.later hle _).concat rfl, fun _ heq => nomatch (Event.mk.inj heq).1⟩
  | streamResponse request =>
    obtain ⟨now, hle, rfl⟩ := hreply
    exact ⟨(h.later hle _).concat rfl, fun _ heq => nomatch (Event.mk.inj heq).1⟩

/-- **A run keeps the total fair**, and so every reading of it. -/
theorem holds_of_runs {start : ℕ} {calls : ι → GatewayCall} {c : CallPool σ ι}
    (hrun : Runs (gatewayEnv port) (fun _ _ => True) (CallPool.start g port start calls) log c)
    (hnow : c.state.now ≤ start + 86400000) (hclock : start + 2 * 86400000 ≤ 2 ^ 53)
    (hserial : Uninterrupted A.key log) (hrange : A.InRange R log) :
    start ≤ c.state.now ∧ A.Holds R (start + 86400000) log c.state ∧ A.ReadsFair R log := by
  induction hrun with
  | start =>
    refine ⟨le_rfl, ⟨none, R.rel_initial _, (fun _ _ h => nomatch h), 0, rfl, fair_nil⟩, fun before i stored after h => ?_⟩
    simp at h
  | @step log c i effect next reply w' hrun hproc hreply _ ih =>
    have hpre := List.prefix_append log [(i, ⟨effect, reply⟩)]
    have hmono := (gatewayEnv_mono hreply).1
    obtain ⟨hstart, hholds, hreads⟩ := ih (hmono.trans hnow) (hserial.mono hpre) (hrange.mono hpre)
    -- the effect is one that its call is expected to have here
    have hsteps := (hrun.steps (i := i) (obeys_task (calls i)).steps).1
    rw [hproc] at hsteps
    obtain ⟨hholds', hread⟩ := hholds.step hstart hreply hnow hclock hsteps.1 hserial hreads hrange
    refine ⟨hstart.trans hmono, hholds', fun before j stored after heq => ?_⟩
    rcases split_concat heq with ⟨rfl, hentry⟩ | ⟨after', hlog⟩
    · exact hread stored (Prod.mk.inj hentry).2.symm
    · exact hreads before j stored after' hlog

end Account

/-! ## The recorded totals -/

section Budget

variable [Fintype ι] {g : GeminiAIGateway}

/-- The sum of the tokens of the recorded calls. -/
def recordedTokens (log : CallLog ι) : ℚ := total (fun usage => tokenCount usage) tokensKey log

/-- **The sum of the exact costs of the recorded calls.** -/
def recordedCost (log : CallLog ι) : ℚ := total exactCost costKey log

/-- How many recordings of a cost there are. -/
def recordings (log : CallLog ι) : ℚ := total (fun _ => 1) costKey log

/-- The tokens that recordings count up one by one: Redis counts in the total itself. -/
def countedTokens (adapter : CacheAdapter) (log : CallLog ι) : ℕ :=
  if adapter = .redis then countings tokensKey log else 0

/-- **What the totals say after a run**: the token total is the recorded sum and no more over than was counted,
the cost total is within a millionth of a dollar for each recording, a call that has succeeded is recorded, and
a call that begins once a sum has reached its threshold asks the provider nothing. -/
structure BudgetKept (g : GeminiAIGateway) (adapter : CacheAdapter) (log : CallLog ι)
    (c : CallPool adapter.State ι) : Prop where
  tokens : ∃ stored, (adapter.port.perform c.state.cache c.state.now (.get tokensKey)).1 = .ok stored ∧
    ∃ n : ℕ, readTotal parseInt stored = .finite n ∧ recordedTokens log ≤ n ∧
      n ≤ recordedTokens log + countedTokens adapter log
  cost : ∃ stored, (adapter.port.perform c.state.cache c.state.now (.get costKey)).1 = .ok stored ∧
    ∃ x, readTotal parseFloat stored = .finite x ∧ |x - recordedCost log| ≤ recordings log / 10 ^ 6
  complete : ∀ i, (c.procs i).succeeded = true →
    recorded tokensKey (eventsOf i log) = answered (eventsOf i log) ∧
      recorded costKey (eventsOf i log) = answered (eventsOf i log)
  blocks : ∀ before i, before <+: log → eventsOf i before = [] →
    g.tokenBudgetPerSession ≤ recordedTokens before ∨
      g.costThresholdUsd + recordings log / 10 ^ 6 ≤ recordedCost before →
    ∀ event ∈ eventsOf i log, asks event.effect = false

variable {port : CachePort σ} {log : CallLog ι} {stored : Option Text}

/-- A fair reading of the token total. -/
theorem tokens_of_reads {R : Register port tokensKey} (hrange : (tokensAccount g).InRange R log)
    (hreads : (tokensAccount g).Reads R log stored) : ∃ n : ℕ, readTotal parseInt stored = .finite n ∧
      recordedTokens log ≤ n ∧ n ≤ recordedTokens log + (tokensAccount g).counted R log := by
  obtain ⟨n, hshows, hlower, hupper⟩ := hreads
  have hle : (n : ℚ) * 1 ≤ 2 ^ 53 := hupper.trans hrange
  rw [mul_one] at hle
  refine ⟨n, readTotal_tokens hshows hle, ?_, ?_⟩
  · simpa [tokensAccount, Account.sum, recordedTokens] using hlower
  · simpa [tokensAccount, Account.sum, recordedTokens] using hupper

/-- The register of the cost total takes part in no counting. -/
theorem counted_costAccount (R : Register port costKey) (log : CallLog ι) : (costAccount g).counted R log = 0 :=
  if_neg fun h => absurd h.2 (by decide : costKey ≠ tokensKey)

/-- A fair reading of the cost total. -/
theorem cost_of_reads {R : Register port costKey} (hrange : (costAccount g).InRange R log)
    (hreads : (costAccount g).Reads R log stored) : ∃ x, readTotal parseFloat stored = .finite x ∧
      |x - recordedCost log| ≤ recordings log / 10 ^ 6 := by
  obtain ⟨n, hshows, hlower, hupper⟩ := hreads
  have hle := hupper.trans hrange
  rw [counted_costAccount, Nat.cast_zero, add_zero] at hupper
  change recordedCost log - recordings log * (6 / 10 ^ 7) ≤ n * (1 / 10 ^ 6) at hlower
  change n * (1 / 10 ^ 6) ≤ recordedCost log + recordings log * (6 / 10 ^ 7) at hupper
  change n * (1 / 10 ^ 6) ≤ (10 ^ 8 : ℚ) at hle
  rw [mul_one_div] at hlower hupper hle
  refine ⟨_, readTotal_cost hshows (hle.trans (by norm_num)), ?_⟩
  rcases total_eq_zero_or costKey log with hzero | hone
  -- nothing is recorded, and nothing is stored
  · have hcost : recordedCost log = 0 := hzero _
    have hnone : recordings log = 0 := hzero _
    rw [hcost, hnone, zero_mul, add_zero] at hupper
    have hn : (n : ℚ) / 10 ^ 6 = 0 := le_antisymm hupper (by positivity)
    rw [hn, hcost, hnone, double_zero, sub_zero, abs_zero, zero_div]
  -- the number that is read is a double next to the one that is stored
  · change 1 ≤ recordings log at hone
    obtain ⟨hlow, hhigh⟩ := abs_le.mp (approx_millionths n).close
    have herror : ((2 : ℕ) : ℚ) * (n / 10 ^ 6) / 2 ^ 53 ≤ 4 / 10 ^ 7 := by
      rw [div_le_iff₀ (by norm_num)]
      norm_num at hle ⊢
      linarith
    rw [abs_le]
    constructor
    · linarith
    · linarith

/-- **A call that begins too late asks nothing**: one that asks has read both totals after it began, and found
them below the thresholds. -/
theorem asks_nothing {R : Register port tokensKey} {R' : Register port costKey} {before : CallLog ι} {i : ι}
    (htokensRange : (tokensAccount g).InRange R log) (hcostRange : (costAccount g).InRange R' log)
    (htokens : (tokensAccount g).ReadsFair R log) (hcost : (costAccount g).ReadsFair R' log)
    (hexpected : ∀ past event rest, eventsOf i log = past ++ event :: rest → Expected g past event.effect)
    (hpre : before <+: log) (hbegins : eventsOf i before = [])
    (hreached : g.tokenBudgetPerSession ≤ recordedTokens before ∨
      g.costThresholdUsd + recordings log / 10 ^ 6 ≤ recordedCost before) :
    ∀ event ∈ eventsOf i log, asks event.effect = false := by
  intro event hmem
  cases hasks : asks event.effect with
  | false => rfl
  | true =>
    exfalso
    obtain ⟨past, rest, hpast⟩ := List.append_of_mem hmem
    have hchecked := (hexpected past event rest hpast).passedCheck hasks
    have hlater : ∀ event ∈ past, ∃ later after, log = before ++ later ++ (i, event) :: after := fun event hevent =>
      exists_split_of_begins hpre hbegins (hpast ▸ List.mem_append_left _ hevent)
    rcases hreached with hreached | hreached
    · obtain ⟨stored, hstored, hbelow⟩ := hchecked.tokens
      obtain ⟨later, after, hlog⟩ := hlater _ hstored
      obtain ⟨n, hread, hlower, -⟩ := tokens_of_reads (htokensRange.mono (hlog ▸ List.prefix_append _ _))
        (htokens _ i stored after hlog)
      have hmono : recordedTokens before ≤ recordedTokens (before ++ later) :=
        total_mono (fun _ => Nat.cast_nonneg _) (List.prefix_append _ _)
      rw [hread, JsNumber.atLeast, decide_eq_false_iff_not] at hbelow
      exact hbelow ((hreached.trans hmono).trans hlower)
    · obtain ⟨stored, hstored, hbelow⟩ := hchecked.cost
      obtain ⟨later, after, hlog⟩ := hlater _ hstored
      have hread_before : before ++ later <+: log := hlog ▸ List.prefix_append _ _
      obtain ⟨x, hread, hclose⟩ := cost_of_reads (hcostRange.mono hread_before) (hcost _ i stored after hlog)
      have hmono : recordedCost before ≤ recordedCost (before ++ later) :=
        total_mono exactCost_nonneg (List.prefix_append _ _)
      have hmore : recordings (before ++ later) ≤ recordings log := total_mono (fun _ => zero_le_one) hread_before
      have hlower := (abs_le.mp hclose).1
      rw [hread, JsNumber.atLeast, decide_eq_false_iff_not] at hbelow
      linarith

/-- **The budget is kept** in every run of calls within a day whose recordings are not interrupted, as long as
the tokens are an exact double and the cost is at most a hundred million dollars. -/
theorem budget_kept (g : GeminiAIGateway) (adapter : CacheAdapter) {start : ℕ} {calls : ι → GatewayCall}
    {log : CallLog ι} {c : CallPool adapter.State ι}
    (hrun : Runs (gatewayEnv adapter.port) (fun _ _ => True) (CallPool.start g adapter.port start calls) log c)
    (hperiod : c.state.now ≤ start + 86400000) (hclock : start + 2 * 86400000 ≤ 2 ^ 53)
    (htokens : Uninterrupted tokensKey log) (hcost : Uninterrupted costKey log)
    (hexact : recordedTokens log + countedTokens adapter log ≤ 2 ^ 53)
    (hbound : recordedCost log + recordings log / 10 ^ 6 ≤ 10 ^ 8) : BudgetKept g adapter log c := by
  have hcounted : (tokensAccount g).counted (adapter.register tokensKey) log = countedTokens adapter log := by
    unfold Account.counted countedTokens
    exact if_congr ((and_iff_left rfl).trans (CacheAdapter.counts_register adapter tokensKey)) rfl rfl
  have htokensRange : (tokensAccount g).InRange (adapter.register tokensKey) log := by
    show recordedTokens log + _ * 0 + _ ≤ _
    rw [hcounted, mul_zero, add_zero]
    exact hexact
  have hcostRange : (costAccount g).InRange (adapter.register costKey) log := by
    have hnonneg : 0 ≤ recordings log := total_nonneg fun _ => zero_le_one
    show recordedCost log + recordings log * (6 / 10 ^ 7) + _ ≤ 10 ^ 8
    rw [counted_costAccount, Nat.cast_zero, add_zero]
    linarith
  obtain ⟨-, htokensHold, htokensRead⟩ := Account.holds_of_runs hrun hperiod hclock htokens htokensRange
  obtain ⟨-, hcostHold, hcostRead⟩ := Account.holds_of_runs hrun hperiod hclock hcost hcostRange
  have hexpected := fun i => (hrun.steps (i := i) (obeys_task (calls i)).steps).2
  refine ⟨?_, ?_, fun i hsucceeded => ?_, fun before i hpre hbegins hreached => ?_⟩
  · obtain ⟨stored, hstored, hreads, -⟩ := htokensHold.get le_rfl hperiod c.state.asked
    refine ⟨stored, hstored, ?_⟩
    rw [← hcounted]
    exact tokens_of_reads htokensRange hreads
  · obtain ⟨stored, hstored, hreads, -⟩ := hcostHold.get le_rfl hperiod c.state.asked
    exact ⟨stored, hstored, cost_of_reads hcostRange hreads⟩
  · obtain ⟨a, hdone⟩ := succeeded_iff.mp hsucceeded
    have hsettled := hrun.ended (obeys_task (calls i)).ends hdone a rfl
    exact ⟨recorded_eq_answered (.inl rfl) hsettled (hexpected i), recorded_eq_answered (.inr rfl) hsettled (hexpected i)⟩
  · exact asks_nothing htokensRange hcostRange htokensRead hcostRead (hexpected i) hpre hbegins hreached

end Budget

/-- One prompt token. -/
def oneToken : UsageMetadata := ⟨some 1, some 0, some 1⟩

/-- Calls that are answered with one token each, before their first step. -/
def oneTokenCalls (n : ℕ) (adapter : CacheAdapter) : CallPool adapter.State (Fin n) :=
  CallPool.start defaultGateway adapter.port 0 fun _ => .generateStructured ⟨none, lit "hello", .null⟩

/-- These calls in the order of a schedule. -/
def scheduled {n : ℕ} (adapter : CacheAdapter) (schedule : List (Fin n)) :
    CallLog (Fin n) × CallPool adapter.State (Fin n) :=
  drive (fun _ _ => True) (fun effect w => steadyWorld adapter.port (fun _ => .ok ⟨lit "1", some oneToken⟩) w effect)
    schedule [] (oneTokenCalls n adapter)

theorem runs_scheduled {n : ℕ} (adapter : CacheAdapter) (schedule : List (Fin n)) :
    Runs (gatewayEnv adapter.port) (fun _ _ => True) (oneTokenCalls n adapter) (scheduled adapter schedule).1
      (scheduled adapter schedule).2 :=
  drive_runs (fun effect w _ => gatewayEnv_steadyWorld _ w effect) schedule .start

/-- One call on its own. -/
def alone (adapter : CacheAdapter) := scheduled adapter (List.replicate 10 (0 : Fin 1))

/-- Two calls that take their steps in turn. -/
def inTurn (adapter : CacheAdapter) := scheduled adapter (List.replicate 10 [(0 : Fin 2), 1]).flatten

theorem budget_kept_alone : BudgetKept defaultGateway .redis (alone .redis).1 (alone .redis).2 ∧
    recordedTokens (alone .redis).1 = 1 ∧ countedTokens .redis (alone .redis).1 = 1 ∧
      recordings (alone .redis).1 = 1 := by
  have hserial : ∀ key, Uninterrupted key (alone .redis).1 := by
    intro key before i event between write after _ hbetween _ entry hmem
    exact absurd (Subsingleton.elim entry.1 i) (hbetween entry hmem)
  exact ⟨budget_kept defaultGateway .redis (runs_scheduled .redis _) (by decide +kernel) (by decide)
    (hserial _) (hserial _) (by decide +kernel) (by decide +kernel), by decide +kernel, by decide +kernel,
    by decide +kernel⟩

/-- A cost below half a millionth is recorded as nothing, and of two recordings that interleave one is lost. -/
theorem cost_rounded_tokens_lost :
    (Runs (gatewayEnv CacheAdapter.inMemory.port) (fun _ _ => True) (oneTokenCalls 1 .inMemory) (alone .inMemory).1
        (alone .inMemory).2 ∧
      (∀ i, ((alone .inMemory).2.procs i).succeeded = true) ∧
      ∑ i, (answered (eventsOf i (alone .inMemory).1)).elim 0 exactCost = 75 / 10 ^ 9 ∧
      (CacheAdapter.inMemory.port.perform (alone .inMemory).2.state.cache 0 (.get costKey)).1
        = .ok (some (lit "0.000000"))) ∧
    Runs (gatewayEnv CacheAdapter.inMemory.port) (fun _ _ => True) (oneTokenCalls 2 .inMemory) (inTurn .inMemory).1
        (inTurn .inMemory).2 ∧
      (∀ i, ((inTurn .inMemory).2.procs i).succeeded = true) ∧
      ∑ i, (answered (eventsOf i (inTurn .inMemory).1)).elim 0 tokenCount = 2 ∧
      (CacheAdapter.inMemory.port.perform (inTurn .inMemory).2.state.cache 0 (.get tokensKey)).1
        = .ok (some (lit "1")) :=
  ⟨⟨runs_scheduled .inMemory _, by decide +kernel, by decide +kernel, by decide +kernel⟩, runs_scheduled .inMemory _,
    by decide +kernel, by decide +kernel, by decide +kernel⟩

end DreamWeaver.Gateway
