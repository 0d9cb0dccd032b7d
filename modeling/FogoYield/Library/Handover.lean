import FogoYield.Library.Run

/-! # Two-step hand-over

A role is handed over by a proposal of its holder that the proposed key then accepts. The law of
such a protocol is about histories: who accepts was proposed by the present holder, and nothing
has replaced or withdrawn the proposal since. -/

namespace FogoYield.Library

/-- The state of one hand-over. -/
structure Handover (κ : Type*) where
  holder : κ
  pending : Option κ

/-- What a transition does to it. -/
inductive HandoverMove (κ : Type*) where
  | keep
  | create
  | propose (q : κ)
  | withdraw
  | accept

/-- The moves of the protocol. A holder never proposes itself. -/
inductive HandoverMove.Moves {κ : Type*} :
    HandoverMove κ → Option (Handover κ) → Option (Handover κ) → Prop where
  | keep (s) : Moves .keep s s
  | create (h) : Moves .create none (some ⟨h, none⟩)
  | propose {h q} (p) : q ≠ h → Moves (.propose q) (some ⟨h, p⟩) (some ⟨h, some q⟩)
  | withdraw (h p) : Moves .withdraw (some ⟨h, p⟩) (some ⟨h, none⟩)
  | accept (h q) : Moves .accept (some ⟨h, some q⟩) (some ⟨q, none⟩)

section

variable {σ α κ : Type*} {step : σ → α → σ → Prop}
variable (view : σ → Option (Handover κ)) (move : Transition σ α → HandoverMove κ)

/-- The holder `h` proposes `q`. -/
def Proposes (h q : κ) (tr : Transition σ α) : Prop :=
  move tr = .propose q ∧ ∃ p, view tr.pre = some ⟨h, p⟩

/-- The proposal that a pending key goes back to. -/
def StandingProposal (h q : κ) (ts : List (Transition σ α)) : Prop :=
  Since (Proposes view move h q) (fun tr => move tr = .keep) ts

/-- Every pending key was proposed by the present holder, who is not that key. -/
structure HandoverInv (ts : List (Transition σ α)) (s : σ) : Prop where
  not_self : ∀ h, view s = some h → h.pending ≠ some h.holder
  standing : ∀ h q, view s = some ⟨h, some q⟩ → StandingProposal view move h q ts

variable {view move}

theorem handoverInv_step {ts : List (Transition σ α)} {tr : Transition σ α}
    (hm : (move tr).Moves (view tr.pre) (view tr.post)) (hi : HandoverInv view move ts tr.pre) :
    HandoverInv view move (ts ++ [tr]) tr.post := by
  have hself := hi.not_self
  have hstand := hi.standing
  generalize hb : view tr.pre = before at hm hself hstand
  generalize ha : view tr.post = after at hm
  generalize hmv : move tr = m at hm
  cases hm with
  | keep s =>
      refine ⟨fun h hs => hself h (ha.symm.trans hs), ?_⟩
      intro h q hs
      exact (hstand h q (ha.symm.trans hs)).later hmv
  | create h =>
      constructor
      · intro g hg
        obtain rfl := Option.some.inj (ha.symm.trans hg)
        simp
      · intro g q hg
        simp [ha] at hg
  | @propose h q p hne =>
      constructor
      · intro g hg
        obtain rfl := Option.some.inj (ha.symm.trans hg)
        simpa using hne
      · intro g r hg
        obtain ⟨rfl, hr⟩ := Handover.mk.inj (Option.some.inj (ha.symm.trans hg))
        obtain rfl := Option.some.inj hr
        exact .here ts ⟨hmv, p, hb⟩
  | withdraw h p =>
      constructor
      · intro g hg
        obtain rfl := Option.some.inj (ha.symm.trans hg)
        simp
      · intro g q hg
        simp [ha] at hg
  | accept h q =>
      constructor
      · intro g hg
        obtain rfl := Option.some.inj (ha.symm.trans hg)
        simp
      · intro g r hg
        simp [ha] at hg

variable (view move)

theorem Run.handoverInv {s t : σ} {ts : List (Transition σ α)} (hs : view s = none)
    (hm : ∀ tr ∈ ts, (move tr).Moves (view tr.pre) (view tr.post)) (hr : Run step s ts t) :
    HandoverInv view move ts t := by
  induction hr with
  | nil => exact ⟨by simp [hs], by simp [hs]⟩
  | @snoc t u a ts _ _ ih =>
      have hinit := ih (fun tr htr => hm tr (List.mem_append_left _ htr))
      have hlast := hm ⟨t, a, u⟩ (by simp)
      exact handoverInv_step hlast hinit

/-- The law of the hand-over: the role is never given up, and it changes hands only when a key
accepts that the holder had proposed and nothing has replaced or withdrawn since. -/
theorem Run.handover {s t : σ} {before after : List (Transition σ α)} {tr : Transition σ α}
    (hs : view s = none)
    (hm : ∀ u ∈ before ++ tr :: after, (move u).Moves (view u.pre) (view u.post))
    (hr : Run step s (before ++ tr :: after) t) {h : Handover κ} (hv : view tr.pre = some h) :
    ∃ h', view tr.post = some h' ∧ (h'.holder = h.holder ∨
      (move tr = .accept ∧ h.pending = some h'.holder ∧
        StandingProposal view move h.holder h'.holder before)) := by
  obtain ⟨hbefore, -, -⟩ := hr.split
  have hinv := hbefore.handoverInv view move hs (fun u hu => hm u (List.mem_append_left _ hu))
  have hmove := hm tr (by simp)
  generalize ha : view tr.post = b at hmove ⊢
  generalize hmv : move tr = m at hmove ⊢
  rw [hv] at hmove
  cases hmove with
  | keep => exact ⟨h, rfl, .inl rfl⟩
  | propose p hne => exact ⟨_, rfl, .inl rfl⟩
  | withdraw g p => exact ⟨_, rfl, .inl rfl⟩
  | accept g q => exact ⟨_, rfl, .inr ⟨rfl, rfl, hinv.standing g q hv⟩⟩

end

end FogoYield.Library
