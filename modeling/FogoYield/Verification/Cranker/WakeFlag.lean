import FogoYield.Library.Run
import FogoYield.Model.Cranker.WakeFlag

/-! # Wake-ups of the daemon

A `signal` sets the flag whether or not somebody waits, so no signal gets lost: the flag is set until
the next `wait`, and the promise the daemon awaits is the one that the flag holds. For the same
reason a signal that resolves a promise is not consumed by it, and wakes the next `wait` again. -/

namespace FogoYield.Cranker

open FogoYield.Library

namespace WakeCalls

variable {calls : WakeCalls}

theorem call_signal : calls.call .signal =
    ⟨⟨true, none⟩, calls.waits, calls.resolved ++ calls.flag.resolveCurrent.toList⟩ := rfl

theorem call_wait_of_flagged (h : calls.flag.flagged = true) : calls.call .wait =
    ⟨⟨false, calls.flag.resolveCurrent⟩, calls.waits + 1, calls.resolved ++ [calls.waits]⟩ := by
  simp [call, WakeFlag.wait, h]

theorem call_wait_of_clear (h : calls.flag.flagged = false) : calls.call .wait =
    ⟨⟨false, some calls.waits⟩, calls.waits + 1, calls.resolved⟩ := by
  simp [call, WakeFlag.wait, h]

end WakeCalls

/-! ## No wake-up is lost -/

namespace Daemon

def Step (s : Daemon) (event : DaemonEvent) (t : Daemon) : Prop := s.step event = some t

/-- A flag that is set holds no promise, and what the daemon awaits is resolved or held. -/
structure Inv (s : Daemon) : Prop where
  flag_empty : s.calls.flag.flagged = true → s.calls.flag.resolveCurrent = none
  held : ∀ promise, s.armed = some promise → s.calls.flag.resolveCurrent = some promise

theorem armed_eq_some {s : Daemon} {promise : ℕ} :
    s.armed = some promise ↔ s.phase = .racing promise ∧ promise ∉ s.calls.resolved := by
  unfold armed
  cases s.phase with
  | racing p =>
      by_cases hp : p ∈ s.calls.resolved
      · simp only [hp, if_true, DaemonPhase.racing.injEq]
        exact ⟨nofun, fun h => absurd hp (h.1 ▸ h.2)⟩
      · simp only [hp, if_false, Option.some.injEq, DaemonPhase.racing.injEq]
        exact ⟨fun h => ⟨h, h ▸ hp⟩, And.left⟩
  | scanning => simp
  | stopped => simp

theorem inv_start : Inv start := ⟨nofun, nofun⟩

/-- What can happen. -/
inductive Effect (s : Daemon) : DaemonEvent → Daemon → Prop where
  | signal : Effect s .signal { s with calls := s.calls.call .signal }
  | arm : Effect s .arm { s with calls := s.calls.call .wait, phase := .racing s.calls.waits }
  | idle (event : DaemonEvent) (phase : DaemonPhase) (aborted : Bool)
      (hphase : phase = s.phase ∨ ∀ promise, phase ≠ .racing promise) :
      Effect s event ⟨s.calls, phase, aborted⟩

theorem Step.effect {s t : Daemon} {event : DaemonEvent} (h : Step s event t) :
    Effect s event t := by
  cases event with
  | signal => exact Option.some.inj h ▸ .signal
  | abort => exact Option.some.inj h ▸ .idle _ s.phase true (.inl rfl)
  | arm =>
      simp only [Step, Daemon.step, Option.ite_none_right_eq_some, Option.some.injEq] at h
      exact h.2 ▸ .arm
  | raceOver winner =>
      simp only [Step, Daemon.step] at h
      split at h
      · simp only [Option.ite_none_right_eq_some, Option.some.injEq] at h
        exact h.2 ▸ .idle _ _ _ (.inr nofun)
      · cases h
  | leave =>
      simp only [Step, Daemon.step, Option.ite_none_right_eq_some, Option.some.injEq] at h
      exact h.2 ▸ .idle _ _ _ (.inr nofun)

theorem Inv.signal {s : Daemon} (hi : Inv s) :
    Inv { s with calls := s.calls.call .signal } := by
  refine ⟨fun _ => rfl, ?_⟩
  intro promise harmed
  -- the promise the daemon awaited is resolved by this very signal
  obtain ⟨hphase, hnot⟩ := armed_eq_some.mp harmed
  have hopen : promise ∉ s.calls.resolved := fun hmem => hnot (List.mem_append_left _ hmem)
  have hheld := hi.held promise (armed_eq_some.mpr ⟨hphase, hopen⟩)
  refine absurd (List.mem_append_right _ ?_) hnot
  rw [WakeFlag.signal, hheld]
  exact List.mem_singleton.mpr rfl

theorem inv_arm (s : Daemon) :
    Inv { s with calls := s.calls.call .wait, phase := .racing s.calls.waits } := by
  cases hflag : s.calls.flag.flagged with
  | true =>
      rw [WakeCalls.call_wait_of_flagged hflag]
      refine ⟨nofun, ?_⟩
      intro promise harmed
      obtain ⟨hphase, hnot⟩ := armed_eq_some.mp harmed
      obtain rfl := DaemonPhase.racing.inj hphase
      exact absurd (List.mem_append_right _ (List.mem_singleton.mpr rfl)) hnot
  | false =>
      rw [WakeCalls.call_wait_of_clear hflag]
      refine ⟨nofun, ?_⟩
      intro promise harmed
      obtain rfl := DaemonPhase.racing.inj (armed_eq_some.mp harmed).1
      rfl

theorem Inv.step {s t : Daemon} {event : DaemonEvent} (hi : Inv s) (h : Step s event t) :
    Inv t := by
  cases h.effect with
  | signal => exact hi.signal
  | arm => exact inv_arm s
  | idle event phase aborted hphase =>
      refine ⟨hi.flag_empty, ?_⟩
      intro promise harmed
      obtain ⟨hracing, hopen⟩ := armed_eq_some.mp harmed
      rcases hphase with hsame | hother
      · exact hi.held promise (armed_eq_some.mpr ⟨hsame.symm.trans hracing, hopen⟩)
      · exact absurd hracing (hother promise)

theorem inv_of_run {ts : List (Transition Daemon DaemonEvent)} {s : Daemon}
    (hr : Run Step start ts s) : Inv s :=
  hr.invariant inv_start (fun _ _ _ hi hst => hi.step hst)

/-- Only a `wait` takes the flag back. -/
theorem flagged_step {s t : Daemon} {event : DaemonEvent} (h : Step s event t)
    (hne : event ≠ .arm) (hflag : s.calls.flag.flagged = true) :
    t.calls.flag.flagged = true := by
  cases h.effect with
  | signal => rfl
  | arm => exact absurd rfl hne
  | idle event phase aborted hphase => exact hflag

theorem flagged_run {s t : Daemon} {ts : List (Transition Daemon DaemonEvent)}
    (hr : Run Step s ts t) (hne : ∀ u ∈ ts, u.act ≠ .arm)
    (hflag : s.calls.flag.flagged = true) : t.calls.flag.flagged = true := by
  induction hr with
  | nil => exact hflag
  | snoc _ hst ih =>
      have hbefore := ih (fun u hu => hne u (List.mem_append_left _ hu))
      exact flagged_step hst (hne _ (List.mem_append_right _ (List.mem_singleton.mpr rfl))) hbefore

/-- A signal resolves what the daemon awaits when it occurs, and until the daemon calls `wait`
again, that call would resolve at once. -/
theorem no_wake_up_lost {before after : List (Transition Daemon DaemonEvent)}
    {tr : Transition Daemon DaemonEvent} {s : Daemon}
    (hr : Run Step start (before ++ tr :: after) s) (hsignal : tr.act = .signal)
    (hafter : ∀ u ∈ after, u.act ≠ .arm) :
    (∀ promise, tr.pre.armed = some promise → promise ∈ tr.post.calls.resolved) ∧
      (∀ t, Step s .arm t → s.calls.waits ∈ t.calls.resolved ∧ t.armed = none) := by
  obtain ⟨hbefore, hst, hrest⟩ := hr.split
  rw [hsignal] at hst
  obtain hpost := Option.some.inj hst
  refine ⟨?_, ?_⟩
  · intro promise harmed
    have hheld := (inv_of_run hbefore).held promise harmed
    rw [← hpost]
    refine List.mem_append_right _ ?_
    rw [WakeFlag.signal, hheld]
    exact List.mem_singleton.mpr rfl
  · intro t ht
    have hflag : s.calls.flag.flagged = true := flagged_run hrest hafter (by rw [← hpost]; rfl)
    simp only [Step, Daemon.step, Option.ite_none_right_eq_some, Option.some.injEq] at ht
    obtain ⟨-, rfl⟩ := ht
    have hmem : s.calls.waits ∈ (s.calls.call .wait).resolved := by
      simp [WakeCalls.call_wait_of_flagged hflag]
    exact ⟨hmem, by simp [armed, hmem]⟩

/-- A signal behind a `wait` that the timer has cut off. -/
theorem no_wake_up_lost_abandoned :
    let idle : Daemon := ⟨⟨⟨false, some 0⟩, 1, []⟩, .scanning, false⟩
    let signalled : Daemon := ⟨⟨⟨true, none⟩, 1, [0]⟩, .scanning, false⟩
    Step idle .signal signalled ∧
      ∀ t, Step signalled .arm t → 1 ∈ t.calls.resolved ∧ t.armed = none := by
  intro idle signalled
  let racing : Daemon := ⟨⟨⟨false, some 0⟩, 1, []⟩, .racing 0, false⟩
  have hr : Run Step start
      ([⟨start, .arm, racing⟩, ⟨racing, .raceOver .timer, idle⟩] ++ ⟨idle, .signal, signalled⟩ :: [])
      signalled := .cons rfl (.cons rfl (.cons rfl (.nil signalled)))
  have hlost := no_wake_up_lost hr rfl (fun u hu => absurd hu List.not_mem_nil)
  exact ⟨rfl, hlost.2⟩

end Daemon

/-! ## One wake-up per signal -/

/-- A one-shot wake-up, where a signal is given to the `wait` that is pending or else to the next
one. -/
structure OneShot where
  set : Bool
  pending : Option ℕ
  waits : ℕ
  resolved : List ℕ
  deriving DecidableEq

namespace OneShot

def new : OneShot := ⟨false, none, 0, []⟩

def call (s : OneShot) : WakeCall → OneShot
  | .signal =>
    match s.pending with
    | some promise => { s with pending := none, resolved := s.resolved ++ [promise] }
    | none => { s with set := true }
  | .wait =>
    if s.set then
      { s with set := false, waits := s.waits + 1, resolved := s.resolved ++ [s.waits] }
    else { s with pending := some s.waits, waits := s.waits + 1 }

def callAll (history : List WakeCall) : OneShot := history.foldl call new

variable {s : OneShot}

theorem call_signal_of_none (h : s.pending = none) :
    s.call .signal = { s with set := true } := by
  simp [call, h]

theorem call_signal_of_some {promise : ℕ} (h : s.pending = some promise) :
    s.call .signal = { s with pending := none, resolved := s.resolved ++ [promise] } := by
  simp [call, h]

theorem call_wait_of_set (h : s.set = true) : s.call .wait =
    { s with set := false, waits := s.waits + 1, resolved := s.resolved ++ [s.waits] } :=
  if_pos h

theorem call_wait_of_clear (h : s.set = false) :
    s.call .wait = { s with pending := some s.waits, waits := s.waits + 1 } := by
  simp [call, h]

end OneShot

/-- A single consumer that awaits each `wait` before it calls the next. -/
def SingleConsumer (history : List WakeCall) : Prop :=
  ∀ before ∈ history.inits, before ++ [.wait] ∈ history.inits →
    (WakeCalls.callAll before).resolved.length = (WakeCalls.callAll before).waits

/-- At every moment the calls of `wait` that are resolved are those of a one-shot wake-up, and no
more than there were signals. -/
def WakesOnce (history : List WakeCall) : Prop :=
  ∀ before ∈ history.inits,
    (WakeCalls.callAll before).resolved = (OneShot.callAll before).resolved ∧
      (WakeCalls.callAll before).resolved.length ≤ before.count .signal

instance : DecidablePred SingleConsumer := fun history =>
  inferInstanceAs (Decidable (∀ before ∈ history.inits, _))

instance : DecidablePred WakesOnce := fun history =>
  inferInstanceAs (Decidable (∀ before ∈ history.inits, _))

/-- A signal that resolves a pending `wait` wakes the next one as well. -/
theorem wakes_twice :
    let history : List WakeCall := [.wait, .signal, .wait]
    SingleConsumer history ∧ history.count .signal = 1 ∧
      (WakeCalls.callAll history).resolved = [0, 1] ∧ ¬ WakesOnce history := by
  decide

/-- A `wait` that has to block is the first call or comes right behind another `wait`. -/
def BlockedWaitsSignalledTwice (history : List WakeCall) : Prop :=
  ¬ [.wait, .wait, .signal, .wait] <:+: .wait :: history

instance : DecidablePred BlockedWaitsSignalledTwice := fun history =>
  inferInstanceAs (Decidable (¬ [.wait, .wait, .signal, .wait] <:+: .wait :: history))

theorem suffix_snoc (p history : List WakeCall) (a c : WakeCall) :
    p ++ [a] <:+ .wait :: (history ++ [c]) ↔ a = c ∧ p <:+ .wait :: history := by
  rw [← List.cons_append, List.suffix_concat_iff]
  constructor
  · rintro (hnil | ⟨t, heq, hsuffix⟩)
    · simp at hnil
    · obtain ⟨rfl, hlast⟩ := List.append_inj' heq rfl
      exact ⟨List.singleton_inj.mp hlast, hsuffix⟩
  · rintro ⟨rfl, hsuffix⟩
    exact .inr ⟨p, rfl, hsuffix⟩

theorem suffix_snoc_one (history : List WakeCall) (a c : WakeCall) :
    [a] <:+ .wait :: (history ++ [c]) ↔ a = c :=
  (suffix_snoc [] history a c).trans (and_iff_left List.nil_suffix)

theorem last_suffix {p history : List WakeCall} {a : WakeCall} (h : p ++ [a] <:+ history) :
    [a] <:+ history := (List.suffix_append p [a]).trans h

theorem WakeCalls.callAll_snoc (history : List WakeCall) (c : WakeCall) :
    callAll (history ++ [c]) = (callAll history).call c := List.foldl_concat call new c history

theorem OneShot.callAll_snoc (history : List WakeCall) (c : WakeCall) :
    callAll (history ++ [c]) = (callAll history).call c := List.foldl_concat call new c history

/-- The flag and the one-shot wake-up have resolved the same promises. They differ in that the flag
stays set behind a signal that resolved one. -/
structure Synced (history : List WakeCall) (calls : WakeCalls) (s : OneShot) : Prop where
  flag_set : [.signal] <:+ .wait :: history ↔ calls.flag.flagged = true
  flag_clear : [.wait] <:+ .wait :: history ↔ calls.flag.flagged = false
  armed_iff : [.wait, .wait] <:+ .wait :: history ↔ calls.flag.resolveCurrent ≠ none
  set_iff : s.set = true ↔
    calls.flag.flagged = true ∧ ¬ [.wait, .wait, .signal] <:+ .wait :: history
  pending_eq : s.pending = calls.flag.resolveCurrent
  waits_eq : s.waits = calls.waits
  resolved_eq : calls.resolved = s.resolved
  answered : calls.resolved.length + calls.flag.resolveCurrent.toList.length = calls.waits
  budget : s.resolved.length + s.set.toNat ≤ history.count .signal

theorem synced_new : Synced [] .new .new := by
  refine ⟨?_, ?_, ?_, ?_, rfl, rfl, rfl, rfl, Nat.le_refl _⟩ <;> decide

section

variable {history : List WakeCall} {calls : WakeCalls} {s : OneShot}

theorem Synced.set_of_clear (h : Synced history calls s) (hclear : calls.flag.flagged = false) :
    s.set = false := by
  cases hset : s.set with
  | false => rfl
  | true => cases hclear.symm.trans (h.set_iff.mp hset).1

/-- The `wait` that is pending was the last call. -/
theorem Synced.clear_of_pending (h : Synced history calls s) {promise : ℕ}
    (hcurrent : calls.flag.resolveCurrent = some promise) : calls.flag.flagged = false := by
  have harmed : [.wait, .wait] <:+ .wait :: history := h.armed_iff.mpr (by simp [hcurrent])
  exact h.flag_clear.mp (last_suffix (p := [.wait]) harmed)

theorem Synced.signal (h : Synced history calls s) :
    Synced (history ++ [.signal]) (calls.call .signal) (s.call .signal) := by
  have hone (a : WakeCall) : [a] <:+ .wait :: (history ++ [.signal]) ↔ a = .signal :=
    suffix_snoc_one history a .signal
  have htwo : ¬ [.wait, .wait] <:+ .wait :: (history ++ [.signal]) := fun htwo =>
    nomatch ((suffix_snoc [.wait] history .wait .signal).mp htwo).1
  have hthree : [.wait, .wait, .signal] <:+ .wait :: (history ++ [.signal]) ↔
      calls.flag.resolveCurrent ≠ none := by
    simpa [h.armed_iff] using suffix_snoc [.wait, .wait] history .signal .signal
  have hcount : (history ++ [WakeCall.signal]).count .signal = history.count .signal + 1 := by
    simp
  have hanswered := h.answered
  have hbudget := h.budget
  rw [WakeCalls.call_signal]
  cases hcurrent : calls.flag.resolveCurrent with
  | none =>
      rw [OneShot.call_signal_of_none (h.pending_eq.trans hcurrent)]
      exact {
        flag_set := by simp [hone]
        flag_clear := by simp [hone]
        armed_iff := by simp [htwo]
        set_iff := by simp [hthree, hcurrent]
        pending_eq := h.pending_eq.trans hcurrent
        waits_eq := h.waits_eq
        resolved_eq := by simpa using h.resolved_eq
        answered := by simpa [hcurrent] using hanswered
        budget := by
          simp only [hcount, Bool.toNat_true]
          omega }
  | some promise =>
      have hset : s.set = false := h.set_of_clear (h.clear_of_pending hcurrent)
      rw [OneShot.call_signal_of_some (h.pending_eq.trans hcurrent)]
      exact {
        flag_set := by simp [hone]
        flag_clear := by simp [hone]
        armed_iff := by simp [htwo]
        set_iff := by simp [hthree, hcurrent, hset]
        pending_eq := rfl
        waits_eq := h.waits_eq
        resolved_eq := by simp [h.resolved_eq]
        answered := by simpa [hcurrent] using hanswered
        budget := by
          simp only [hcount, hset, List.length_append, List.length_singleton, Bool.toNat_false]
          omega }

/-- With one consumer nothing is pending at a `wait`. -/
theorem Synced.none_pending (h : Synced history calls s)
    (hsingle : calls.resolved.length = calls.waits) : calls.flag.resolveCurrent = none := by
  have hanswered := h.answered
  cases hcurrent : calls.flag.resolveCurrent with
  | none => rfl
  | some promise =>
      rw [hcurrent, Option.toList_some, List.length_singleton] at hanswered
      omega

theorem Synced.wait (h : Synced history calls s) (hsingle : calls.resolved.length = calls.waits)
    (hok : ¬ [.wait, .wait, .signal] <:+ .wait :: history) :
    Synced (history ++ [.wait]) (calls.call .wait) (s.call .wait) := by
  have hone (a : WakeCall) : [a] <:+ .wait :: (history ++ [.wait]) ↔ a = .wait :=
    suffix_snoc_one history a .wait
  have htwo : [.wait, .wait] <:+ .wait :: (history ++ [.wait]) ↔ calls.flag.flagged = false := by
    simpa [h.flag_clear] using suffix_snoc [.wait] history .wait .wait
  have hthree : ¬ [.wait, .wait, .signal] <:+ .wait :: (history ++ [.wait]) := fun hthree =>
    nomatch ((suffix_snoc [.wait, .wait] history .signal .wait).mp hthree).1
  have hcount : (history ++ [WakeCall.wait]).count .signal = history.count .signal := by simp
  have hcurrent := h.none_pending hsingle
  have hwaits := h.waits_eq
  have hresolved := h.resolved_eq
  have hbudget := h.budget
  cases hflag : calls.flag.flagged with
  | true =>
      have hset : s.set = true := h.set_iff.mpr ⟨hflag, hok⟩
      rw [WakeCalls.call_wait_of_flagged hflag, OneShot.call_wait_of_set hset]
      exact {
        flag_set := by simp [hone]
        flag_clear := by simp [hone]
        armed_iff := by simp [htwo, hflag, hcurrent]
        set_iff := by simp
        pending_eq := h.pending_eq
        waits_eq := congrArg Nat.succ hwaits
        resolved_eq := by rw [hresolved, hwaits]
        answered := by simp [hcurrent, hsingle]
        budget := by simpa [hcount, hset] using hbudget }
  | false =>
      have hset : s.set = false := h.set_of_clear hflag
      rw [WakeCalls.call_wait_of_clear hflag, OneShot.call_wait_of_clear hset]
      exact {
        flag_set := by simp [hone]
        flag_clear := by simp [hone]
        armed_iff := by simp [htwo, hflag]
        set_iff := by simp [hset]
        pending_eq := congrArg some hwaits
        waits_eq := congrArg Nat.succ hwaits
        resolved_eq := hresolved
        answered := by simp [hsingle]
        budget := by simpa [hcount, hset] using hbudget }

/-- A `wait` behind a signal that resolved the last one is resolved again. -/
theorem Synced.again (h : Synced history calls s)
    (hagain : [.wait, .wait, .signal] <:+ .wait :: history) :
    (calls.call .wait).resolved ≠ (s.call .wait).resolved := by
  have hflag : calls.flag.flagged = true :=
    h.flag_set.mp (last_suffix (p := [.wait, .wait]) hagain)
  have hset : s.set = false := by
    cases hs : s.set with
    | false => rfl
    | true => exact absurd hagain (h.set_iff.mp hs).2
  rw [WakeCalls.call_wait_of_flagged hflag, OneShot.call_wait_of_clear hset]
  simp [h.resolved_eq]

theorem SingleConsumer.of_prefix {rest : List WakeCall} (h : SingleConsumer (history ++ rest)) :
    SingleConsumer history := by
  intro before hbefore hwait
  rw [List.mem_inits] at hbefore hwait
  refine h before ?_ ?_
  · exact (List.mem_inits _ _).mpr (hbefore.trans (List.prefix_append _ _))
  · exact (List.mem_inits _ _).mpr (hwait.trans (List.prefix_append _ _))

theorem SingleConsumer.last (h : SingleConsumer (history ++ [.wait])) :
    (WakeCalls.callAll history).resolved.length = (WakeCalls.callAll history).waits :=
  h history ((List.mem_inits _ _).mpr (List.prefix_append _ _)) ((List.mem_inits _ _).mpr List.prefix_rfl)

theorem WakesOnce.of_snoc {c : WakeCall} (h : WakesOnce (history ++ [c])) : WakesOnce history := by
  intro before hbefore
  rw [List.mem_inits] at hbefore
  exact h before ((List.mem_inits _ _).mpr (hbefore.trans (List.prefix_append _ _)))

theorem synced_callAll (hsingle : SingleConsumer history)
    (htwice : BlockedWaitsSignalledTwice history) :
    Synced history (WakeCalls.callAll history) (OneShot.callAll history) := by
  induction history using List.reverseRecOn with
  | nil => exact synced_new
  | append_singleton history c ih =>
      rw [BlockedWaitsSignalledTwice, ← List.cons_append, List.infix_concat_iff, not_or] at htwice
      obtain ⟨hlast, hinit⟩ := htwice
      have h := ih hsingle.of_prefix hinit
      rw [WakeCalls.callAll_snoc, OneShot.callAll_snoc]
      cases c with
      | signal => exact h.signal
      | wait =>
          refine h.wait hsingle.last ?_
          intro hagain
          exact hlast ((suffix_snoc [.wait, .wait, .signal] history .wait .wait).mpr ⟨rfl, hagain⟩)

end

/-- The flag does what a one-shot wake-up does exactly if no `wait` that had to block is followed by
one signal and the next `wait`. -/
theorem wakesOnce_iff {history : List WakeCall} (hsingle : SingleConsumer history) :
    WakesOnce history ↔ BlockedWaitsSignalledTwice history := by
  constructor
  · intro honce
    induction history using List.reverseRecOn with
    | nil => decide
    | append_singleton history c ih =>
        have hinit := ih hsingle.of_prefix honce.of_snoc
        rw [BlockedWaitsSignalledTwice, ← List.cons_append, List.infix_concat_iff, not_or]
        refine ⟨?_, hinit⟩
        intro hlast
        obtain ⟨rfl, hagain⟩ :=
          (suffix_snoc [.wait, .wait, .signal] history .wait c).mp hlast
        have hdiffer := (synced_callAll hsingle.of_prefix hinit).again hagain
        rw [← WakeCalls.callAll_snoc, ← OneShot.callAll_snoc] at hdiffer
        exact hdiffer (honce _ ((List.mem_inits _ _).mpr List.prefix_rfl)).1
  · intro htwice before hbefore
    obtain ⟨rest, rfl⟩ := (List.mem_inits _ _).mp hbefore
    have htwice' : BlockedWaitsSignalledTwice before := fun hpattern =>
      htwice (hpattern.trans ⟨[], rest, rfl⟩)
    have h := synced_callAll hsingle.of_prefix htwice'
    have hbudget := h.budget
    rw [← h.resolved_eq] at hbudget
    exact ⟨h.resolved_eq, by omega⟩

/-- Two signals between the `wait` that blocks and the next one. -/
theorem wakesOnce_iff_twice : WakesOnce [.wait, .signal, .signal, .wait, .wait] :=
  (wakesOnce_iff (by decide)).mpr (by decide)

end FogoYield.Cranker
