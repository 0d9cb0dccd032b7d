import FogoYield.Solana.Program
import FogoYield.Solana.Seeds

/-! # Laws of the runtime

What is assumed about address derivation, about the token program and about any program that is
called, and what follows for the account operations of `Program`. -/

namespace FogoYield.Solana

open FogoYield.Library

variable {δ ε ρ : Type}

/-! ## Assumptions -/

/-- An address is a hash of the concatenated seeds and of the program: it tells the program, and
the seeds if they are of shapes that are told apart. The bump that `find_program_address` returns
creates the address it returns. -/
structure Runtime.AddressLaws (rt : Runtime δ) : Prop where
  create_find : ∀ seeds p, rt.createProgramAddress
    (seeds ++ [[(rt.findProgramAddress seeds p).2]]) p = some (rt.findProgramAddress seeds p).1
  create_program : ∀ {s s' : List Bytes} {p p' k : Pubkey}, rt.createProgramAddress s p = some k →
    rt.createProgramAddress s' p' = some k → p = p'
  create_inj : ∀ {K K' : List SeedKind} {s s' : List Bytes} {p p' k : Pubkey}, Told K K' →
    Fits K s → Fits K' s' → rt.createProgramAddress s p = some k →
    rt.createProgramAddress s' p' = some k → s = s'

/-- The token programs execute the three instructions as documented. -/
structure Runtime.TokenLaws (rt : Runtime δ) : Prop where
  transferChecked : ∀ {tp : Pubkey} (source mint dest authority : Pubkey) (amount : UInt64)
    (decimals : UInt8) (clock : Clock) (a : Accounts δ), IsTokenProgram tp →
    rt.invoke (transferCheckedIx tp source mint dest authority amount decimals) clock a =
      Solana.transferChecked tp source mint dest authority amount decimals a
  approve : ∀ {tp : Pubkey} (source delegate owner : Pubkey) (amount : UInt64) (clock : Clock)
    (a : Accounts δ), IsTokenProgram tp →
    rt.invoke (approveIx tp source delegate owner amount) clock a =
      Solana.approve tp source delegate owner amount a
  revoke : ∀ {tp : Pubkey} (source owner : Pubkey) (clock : Clock) (a : Accounts δ),
    IsTokenProgram tp →
    rt.invoke (revokeIx tp source owner) clock a = Solana.revoke tp source owner a

/-- Every associated token address holds, if anything, an account of its own mint under its own
token program, which is the mint's. -/
def AtaWellFormed (rt : Runtime δ) (a : Accounts δ) : Prop :=
  ∀ wallet mint tp t, tokenAt a (rt.ata wallet mint tp) = some t →
    (a (rt.ata wallet mint tp)).owner = tp ∧ t.mint = mint ∧ (a mint).owner = tp

/-- The token account `t` at `k` survives, `Guarded`. -/
def Keeps (a a' : Accounts δ) (k : Pubkey) (t : TokenAccount) : Prop :=
  ∃ t', tokenAt a' k = some t' ∧ t.Guarded t' ∧ (a' k).owner = (a k).owner

/-- The account at `k` is the same up to lamports. -/
def SameData (a a' : Accounts δ) (k : Pubkey) : Prop :=
  (a' k).owner = (a k).owner ∧ (a' k).data = (a k).data

/-- What holds for a call of any program: it changes only accounts it was given as writable; it
cannot change, create or remove an account of `pid` unless it is `pid` itself (another program
cannot re-enter it); a token account whose owner is a derived address of `pid` can lose tokens to a
delegate only, unless that address signed or a close authority is set; mints and associated token
addresses keep their identity. -/
structure Runtime.CpiLaws (rt : Runtime δ) (pid : Pubkey) : Prop where
  frame : ∀ {ix clock a a'}, rt.invoke ix clock a = some a' → ∀ k, ¬ ix.Writes k → a' k = a k
  own : ∀ {ix clock a a'}, rt.invoke ix clock a = some a' → ix.programId ≠ pid →
    ∀ k, (a k).owner = pid → SameData a a' k
  foreign : ∀ {ix clock a a'}, rt.invoke ix clock a = some a' → ix.programId ≠ pid →
    ∀ k, (a k).owner ≠ pid → programAt pid a' k = none
  guarded : ∀ {ix clock a a'}, rt.invoke ix clock a = some a' → ix.programId ≠ pid →
    ∀ k t, tokenAt a k = some t → (∃ seeds, rt.createProgramAddress seeds pid = some t.owner) →
    ¬ ix.Signs t.owner → t.closeAuthority = none → Keeps a a' k t
  mint : ∀ {ix clock a a'}, rt.invoke ix clock a = some a' → ∀ k m, mintAt a k = some m →
    mintAt a' k = some m ∧ (a' k).owner = (a k).owner
  ata : ∀ {ix clock a a'}, rt.invoke ix clock a = some a' → AtaWellFormed rt a →
    AtaWellFormed rt a'

/-! ## Addresses -/

theorem Runtime.AddressLaws.find_program {rt : Runtime δ} (h : rt.AddressLaws)
    {s s' : List Bytes} {p p' : Pubkey}
    (he : (rt.findProgramAddress s p).1 = (rt.findProgramAddress s' p').1) : p = p' := by
  have hcreate := h.create_find s' p'
  rw [← he] at hcreate
  exact h.create_program (h.create_find s p) hcreate

theorem fits_bump {K : List SeedKind} {s : List Bytes} (h : Fits K s) (b : UInt8) :
    Fits (K ++ [.number 1]) (s ++ [[b]]) :=
  h.append (by simp)

/-- An address created from seeds and a stored bump is the canonical one of those seeds only if
the bump is. -/
theorem Runtime.AddressLaws.create_eq_find {rt : Runtime δ} (h : rt.AddressLaws)
    {K K' : List SeedKind} {s s' : List Bytes} {p p' k : Pubkey} {b : UInt8} (ht : Told K K')
    (hs : Fits K s) (hs' : Fits K' s') (hc : rt.createProgramAddress (s ++ [[b]]) p = some k)
    (hf : (rt.findProgramAddress s' p').1 = k) : s = s' ∧ p = p' := by
  have hf' := h.create_find s' p'
  rw [hf] at hf'
  have heq := h.create_inj ht.bump (fits_bump hs b) (fits_bump hs' _) hc hf'
  exact ⟨(List.append_inj' heq rfl).1, h.create_program hc hf'⟩

theorem Runtime.AddressLaws.find_inj {rt : Runtime δ} (h : rt.AddressLaws)
    {K K' : List SeedKind} {s s' : List Bytes} {p p' : Pubkey} (ht : Told K K') (hs : Fits K s)
    (hs' : Fits K' s') (he : (rt.findProgramAddress s p).1 = (rt.findProgramAddress s' p').1) :
    s = s' ∧ p = p' :=
  h.create_eq_find ht hs hs' (h.create_find s p) he.symm

theorem Runtime.AddressLaws.ata_inj {rt : Runtime δ} (h : rt.AddressLaws)
    {o o' m m' tp tp' : Pubkey} (he : rt.ata o m tp = rt.ata o' m' tp') :
    o = o' ∧ m = m' ∧ tp = tp' := by
  have hfits : ∀ o m tp : Pubkey, Fits [.word, .word, .word] [o.bytes, tp.bytes, m.bytes] := by
    intro o m tp
    simp
  obtain ⟨hs, -⟩ := h.find_inj (told_self _) (hfits o m tp) (hfits o' m' tp') he
  simp only [List.cons.injEq, and_true] at hs
  obtain ⟨ho, htp, hm⟩ := hs
  cases o; cases o'; cases m; cases m'; cases tp; cases tp'
  simp_all

/-! ## Accounts that keep owner and data -/

theorem SameData.of_eq {a a' : Accounts δ} {k : Pubkey} (h : a' k = a k) : SameData a a' k := by
  rw [SameData, h]
  exact ⟨rfl, rfl⟩

theorem SameData.tokenAt {a a' : Accounts δ} {k : Pubkey} (h : SameData a a' k) :
    tokenAt a' k = tokenAt a k := by
  simp only [Solana.tokenAt, h.1, h.2]

theorem SameData.mintAt {a a' : Accounts δ} {k : Pubkey} (h : SameData a a' k) :
    mintAt a' k = mintAt a k := by
  simp only [Solana.mintAt, h.1, h.2]

theorem SameData.programAt {pid : Pubkey} {a a' : Accounts δ} {k : Pubkey}
    (h : SameData a a' k) : programAt pid a' k = programAt pid a k := by
  simp only [Solana.programAt, h.1, h.2]

theorem SameData.bytes {a a' : Accounts δ} {k : Pubkey} (h : SameData a a' k) :
    (a' k).bytes = (a k).bytes := by
  simp only [Account.bytes, h.2]

theorem Runtime.CpiLaws.programAt_eq {rt : Runtime δ} {pid : Pubkey} (h : rt.CpiLaws pid)
    {ix : Instruction} {clock : Clock} {a a' : Accounts δ} (hi : rt.invoke ix clock a = some a')
    (hne : ix.programId ≠ pid) (k : Pubkey) : programAt pid a' k = programAt pid a k := by
  by_cases hk : (a k).owner = pid
  · exact (h.own hi hne k hk).programAt
  · rw [h.foreign hi hne k hk]
    simp [programAt, hk]

/-! ## Creating, writing and closing an account -/

/-- A created account was the system program's and empty; every other account keeps its owner
and data. -/
structure CreateSpec (k owner : Pubkey) (data : Data δ) (w w' : World δ ε) : Prop where
  was_system : (w.accounts k).owner = systemProgram
  was_empty : (w.accounts k).data.isEmpty = true
  owner_eq : (w'.accounts k).owner = owner
  data_eq : (w'.accounts k).data = data
  others : ∀ j, j ≠ k → SameData w.accounts w'.accounts j
  clock_eq : w'.clock = w.clock
  cpis_eq : w'.cpis = w.cpis
  events_eq : w'.events = w.events

theorem createAccount_spec {rt : Runtime δ} {payer k owner : Pubkey} {space : ℕ} {data : Data δ}
    {w w' : World δ ε}
    (h : (createAccount rt payer k owner space data w : Result ρ (World δ ε)) = .ok w') :
    CreateSpec k owner data w w' := by
  simp only [createAccount, bind_eq_ok, constrain_eq_ok, pure_eq_ok, exists_const] at h
  obtain ⟨⟨hs, he⟩, -, rfl⟩ := h
  refine ⟨hs, he, by simp, by simp, ?_, rfl, rfl, rfl⟩
  intro j hj
  simp [SameData, Function.update_of_ne hj]

/-- Nothing was ever created at the address; it may hold lamports. -/
def Unused (a : Accounts δ) (k : Pubkey) : Prop :=
  (a k).owner = systemProgram ∧ (a k).data.isEmpty = true

instance (a : Accounts δ) (k : Pubkey) : Decidable (Unused a k) :=
  inferInstanceAs (Decidable (_ ∧ _))

/-- What a payer adds to an address for the rent exemption of `space` bytes. -/
def rentDue (rt : Runtime δ) (a : Accounts δ) (k : Pubkey) (space : ℕ) : ℕ :=
  rt.minimumBalance space - (a k).lamports

/-- An account is created exactly where nothing was, and if the payer has the rent. -/
theorem createAccount_ok_iff {rt : Runtime δ} {payer k owner : Pubkey} {space : ℕ}
    {data : Data δ} {w : World δ ε} :
    (∃ w', (createAccount rt payer k owner space data w : Result ρ (World δ ε)) = .ok w') ↔
      Unused w.accounts k ∧ rentDue rt w.accounts k space ≤ (w.accounts payer).lamports := by
  simp only [createAccount, bind_eq_ok, constrain_eq_ok, pure_eq_ok, exists_const]
  constructor
  · rintro ⟨_, hunused, hrent, -⟩
    exact ⟨hunused, hrent⟩
  · rintro ⟨hunused, hrent⟩
    exact ⟨_, hunused, hrent, rfl⟩

/-- The payer is down by the rent; accounts of others are as they were. -/
theorem createAccount_lamports {rt : Runtime δ} {payer k owner : Pubkey} {space : ℕ}
    {data : Data δ} {w w' : World δ ε} (hk : payer ≠ k)
    (h : (createAccount rt payer k owner space data w : Result ρ (World δ ε)) = .ok w') :
    (w'.accounts payer).lamports =
        (w.accounts payer).lamports - rentDue rt w.accounts k space ∧
      ∀ j, j ≠ k → j ≠ payer → w'.accounts j = w.accounts j := by
  simp only [createAccount, bind_eq_ok, constrain_eq_ok, pure_eq_ok, exists_const] at h
  obtain ⟨-, -, rfl⟩ := h
  refine ⟨by simp [Function.update_of_ne hk, setLamports, rentDue], ?_⟩
  intro j hj hpayer
  simp [Function.update_of_ne hj, setLamports, Function.update_of_ne hpayer]

theorem CreateSpec.unused_iff {k j owner : Pubkey} {data : Data δ} {w w' : World δ ε}
    (h : CreateSpec k owner data w w') (hj : j ≠ k) :
    Unused w'.accounts j ↔ Unused w.accounts j := by
  obtain ⟨howner, hdata⟩ := h.others j hj
  rw [Unused, Unused, howner, hdata]

theorem CreateSpec.tokenAt_none {k owner : Pubkey} {data : Data δ} {w w' : World δ ε}
    (h : CreateSpec k owner data w w') : tokenAt w.accounts k = none := by
  simp [tokenAt, h.was_system, not_isTokenProgram_systemProgram]

theorem CreateSpec.programAt_none {pid k owner : Pubkey} {data : Data δ} {w w' : World δ ε}
    (h : CreateSpec k owner data w w') : programAt pid w.accounts k = none := by
  have he := h.was_empty
  unfold programAt
  split
  · cases hd : (w.accounts k).data <;> simp_all [Data.isEmpty]
  · rfl

theorem initAssociatedToken_spec {rt : Runtime δ} {payer mint authority tp k : Pubkey}
    {w w' : World δ ε}
    (h : (initAssociatedToken rt payer mint authority tp k w : Result ρ (World δ ε)) = .ok w') :
    rt.ata authority mint tp = k ∧ (∃ m, mintAt w.accounts mint = some m) ∧
      (w.accounts mint).owner = tp ∧
      CreateSpec k tp (.token ⟨mint, authority, 0, none, 0, none⟩) w w' := by
  simp only [initAssociatedToken, bind_eq_ok, constrain_eq_ok, loadMint_eq_ok,
    exists_const] at h
  obtain ⟨ha, m, hm, ho, hc⟩ := h
  exact ⟨ha, ⟨m, hm⟩, ho, createAccount_spec hc⟩

/-- A created account that holds none of `pid`'s data types leaves every view of `pid`. -/
theorem CreateSpec.programAt_eq {pid k owner : Pubkey} {data : Data δ} {w w' : World δ ε}
    (h : CreateSpec k owner data w w') (hd : ∀ d, data ≠ .program d) (j : Pubkey) :
    programAt pid w'.accounts j = programAt pid w.accounts j := by
  by_cases hj : j = k
  · subst hj
    rw [h.programAt_none]
    unfold programAt
    rw [h.data_eq]
    cases data with
    | program d => exact absurd rfl (hd d)
    | _ => simp
  · exact (h.others j hj).programAt

theorem closeAccount_others {k dest j : Pubkey} (w : World δ ε) (h : j ≠ k) :
    SameData w.accounts (closeAccount k dest w).accounts j := by
  simp [SameData, closeAccount, h]

theorem closeAccount_self_data {k dest : Pubkey} (w : World δ ε) :
    ((closeAccount k dest w).accounts k).data = .empty := by
  simp [closeAccount, Account.absent]

theorem programAt_closeAccount_self {pid k dest : Pubkey} (w : World δ ε) :
    programAt pid (closeAccount k dest w).accounts k = none := by
  simp [programAt, closeAccount_self_data]

/-- Closing hands every lamport of the account to its destination. -/
theorem closeAccount_lamports {k dest : Pubkey} (w : World δ ε) (h : dest ≠ k) :
    ((closeAccount k dest w).accounts dest).lamports =
        (w.accounts dest).lamports + (w.accounts k).lamports ∧
      ((closeAccount k dest w).accounts k).lamports = 0 := by
  simp [closeAccount, setLamports, Function.update_of_ne h, Function.update_of_ne h.symm,
    Account.absent]

end FogoYield.Solana
