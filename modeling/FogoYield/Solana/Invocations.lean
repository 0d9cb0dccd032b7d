import FogoYield.Solana.Laws

/-! # Calls of other programs

What an instruction's calls of other programs leave alone: the accounts of the program itself, and
the addresses derived from it that nobody has used. -/

namespace FogoYield.Solana

open FogoYield.Library

variable {δ ε ρ : Type}

/-- A successful call: the accounts afterwards are what the callee made of them. -/
structure Invoked (rt : Runtime δ) (ix : Instruction) (w w' : World δ ε) : Prop where
  invoked : rt.invoke ix w.clock w.accounts = some w'.accounts
  clock_eq : w'.clock = w.clock
  cpis_eq : w'.cpis = w.cpis ++ [ix]
  events_eq : w'.events = w.events

/-- Every signature of the call is one of the transaction or of the seeds. -/
def SignedBy (rt : Runtime δ) (pid : Pubkey) (ctx : Context) (seeds : List Bytes)
    (ix : Instruction) : Prop :=
  ∀ k, ix.Signs k → k ∈ ctx.signers ∨ rt.createProgramAddress seeds pid = some k

/-- A successful `invoke_signed`. -/
structure InvokedSigned (rt : Runtime δ) (pid : Pubkey) (ctx : Context) (seeds : List Bytes)
    (ix : Instruction) (w w' : World δ ε) : Prop where
  call : Invoked rt ix w w'
  signed : SignedBy rt pid ctx seeds ix

theorem invokeSigned_invoked {rt : Runtime δ} {pid : Pubkey} {ctx : Context} {seeds : List Bytes}
    {ix : Instruction} {w w' : World δ ε}
    (h : (invokeSigned rt pid ctx seeds ix w : Result ρ (World δ ε)) = .ok w') :
    InvokedSigned rt pid ctx seeds ix w w' := by
  obtain ⟨hsigned, a, ha, rfl⟩ := invokeSigned_eq_ok.mp h
  refine ⟨⟨ha, rfl, rfl, rfl⟩, ?_⟩
  rintro k ⟨m, hm, rfl, hs⟩
  exact hsigned m hm hs

/-- What holds for a call of any program when accounts can be closed: it changes only accounts it was
given as writable; it cannot change or create an account of `pid`, which it cannot re-enter; a
token account whose owner is a derived address of `pid` loses tokens to a delegate only, unless
that address signed or a close authority is set; and a derived address that nobody has used stays
unused, since the system program wants its signature before it allocates or assigns it. -/
structure Runtime.CallLaws (rt : Runtime δ) (pid : Pubkey) : Prop where
  frame : ∀ {ix clock a a'}, rt.invoke ix clock a = some a' → ∀ k, ¬ ix.Writes k → a' k = a k
  own : ∀ {ix clock a a'}, rt.invoke ix clock a = some a' → ix.programId ≠ pid →
    ∀ k, (a k).owner = pid → SameData a a' k
  foreign : ∀ {ix clock a a'}, rt.invoke ix clock a = some a' → ix.programId ≠ pid →
    ∀ k, (a k).owner ≠ pid → programAt pid a' k = none
  guarded : ∀ {ix clock a a'}, rt.invoke ix clock a = some a' → ix.programId ≠ pid →
    ∀ k t, tokenAt a k = some t → (∃ seeds, rt.createProgramAddress seeds pid = some t.owner) →
    ¬ ix.Signs t.owner → t.closeAuthority = none → Keeps a a' k t
  unused : ∀ {ix clock a a'}, rt.invoke ix clock a = some a' → ix.programId ≠ pid →
    ∀ {seeds k}, rt.createProgramAddress seeds pid = some k → ¬ ix.Signs k → Unused a k →
    Unused a' k

/-! ## The accounts of the program -/

theorem Runtime.CallLaws.programAt_eq {rt : Runtime δ} {pid : Pubkey} (h : rt.CallLaws pid)
    {ix : Instruction} {clock : Clock} {a a' : Accounts δ} (hi : rt.invoke ix clock a = some a')
    (hne : ix.programId ≠ pid) (k : Pubkey) : programAt pid a' k = programAt pid a k := by
  by_cases hk : (a k).owner = pid
  · exact (h.own hi hne k hk).programAt
  · rw [h.foreign hi hne k hk]
    simp [programAt, hk]

/-- The program sees the same accounts. -/
def SameViews (pid : Pubkey) (w w' : World δ ε) : Prop :=
  ∀ k, programAt pid w'.accounts k = programAt pid w.accounts k

theorem SameViews.refl (pid : Pubkey) (w : World δ ε) : SameViews pid w w := fun _ => rfl

theorem SameViews.trans {pid : Pubkey} {w w₁ w₂ : World δ ε} (h : SameViews pid w w₁)
    (h' : SameViews pid w₁ w₂) : SameViews pid w w₂ :=
  fun k => (h' k).trans (h k)

theorem Invoked.sameViews {rt : Runtime δ} {pid : Pubkey} {ix : Instruction} {w w' : World δ ε}
    (hl : rt.CallLaws pid) (hne : ix.programId ≠ pid) (h : Invoked rt ix w w') :
    SameViews pid w w' :=
  hl.programAt_eq h.invoked hne

theorem CreateSpec.sameViews {pid k owner : Pubkey} {data : Data δ} {w w' : World δ ε}
    (h : CreateSpec k owner data w w') (hd : ∀ d, data ≠ .program d) : SameViews pid w w' :=
  h.programAt_eq hd

/-- The account at `k` holds `d`; the program sees every other account as before. -/
structure Rewritten (pid k : Pubkey) (d : δ) (w w' : World δ ε) : Prop where
  after : programAt pid w'.accounts k = some d
  others : ∀ j, j ≠ k → programAt pid w'.accounts j = programAt pid w.accounts j

theorem Rewritten.of_create {pid k : Pubkey} {d : δ} {w w' : World δ ε}
    (h : CreateSpec k pid (.program d) w w') : Rewritten pid k d w w' where
  after := programAt_eq_some.mpr ⟨h.owner_eq, h.data_eq⟩
  others j hj := (h.others j hj).programAt

theorem Rewritten.of_sameViews {pid k : Pubkey} {d : δ} {w w' : World δ ε}
    (h : SameViews pid w w') (hd : programAt pid w.accounts k = some d) :
    Rewritten pid k d w w' :=
  ⟨(h k).trans hd, fun j _ => h j⟩

theorem Rewritten.after_sameViews {pid k : Pubkey} {d : δ} {w w₁ w₂ : World δ ε}
    (h : SameViews pid w w₁) (h' : Rewritten pid k d w₁ w₂) : Rewritten pid k d w w₂ :=
  ⟨h'.after, fun j hj => (h'.others j hj).trans (h j)⟩

theorem Rewritten.then_sameViews {pid k : Pubkey} {d : δ} {w w₁ w₂ : World δ ε}
    (h : Rewritten pid k d w w₁) (h' : SameViews pid w₁ w₂) : Rewritten pid k d w w₂ :=
  ⟨(h' k).trans h.after, fun j hj => (h' j).trans (h.others j hj)⟩

theorem Rewritten.trans {pid k : Pubkey} {d d' : δ} {w w₁ w₂ : World δ ε}
    (h : Rewritten pid k d w w₁) (h' : Rewritten pid k d' w₁ w₂) : Rewritten pid k d' w w₂ :=
  ⟨h'.after, fun j hj => (h'.others j hj).trans (h.others j hj)⟩

/-- Writing over an account the program sees. -/
theorem Rewritten.of_setAccount {pid k : Pubkey} {d d' : δ} {w : World δ ε}
    (h : programAt pid w.accounts k = some d) :
    Rewritten pid k d' w (w.setAccount k { w.accounts k with data := .program d' }) where
  after := by
    have howner := (programAt_eq_some.mp h).1
    simp [programAt_eq_some, World.setAccount, howner]
  others j hj := programAt_congr (by simp [World.setAccount, hj])

/-! ## Unused derived addresses -/

theorem Unused.of_sameData {a a' : Accounts δ} {k : Pubkey} (h : SameData a a' k)
    (hu : Unused a k) : Unused a' k := by
  rw [Unused, h.1, h.2]
  exact hu

theorem Unused.tokenAt_none {a : Accounts δ} {k : Pubkey} (h : Unused a k) :
    tokenAt a k = none := by
  simp [tokenAt, h.1, not_isTokenProgram_systemProgram]

theorem Unused.programAt_none {pid : Pubkey} {a : Accounts δ} {k : Pubkey} (h : Unused a k) :
    programAt pid a k = none := by
  unfold programAt
  split
  · cases hd : (a k).data with
    | program d => simp [Unused, hd, Data.isEmpty] at h
    | _ => rfl
  · rfl

end FogoYield.Solana
