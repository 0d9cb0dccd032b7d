import FogoYield.Solana.Token

/-! # Programs, cross-program calls and account constraints

The runtime is a parameter: address derivation, the hash and every program that is called are
functions about which only the laws of `Runtime.Lawful` are assumed. -/

namespace FogoYield.Solana

open FogoYield.Library

/-- What the program under study is given by the chain. `invoke` runs an instruction of any
other program, with everything that program calls in turn. -/
structure Runtime (δ : Type) where
  findProgramAddress : List Bytes → Pubkey → Pubkey × UInt8
  createProgramAddress : List Bytes → Pubkey → Option Pubkey
  keccak : Bytes → Bytes
  minimumBalance : ℕ → ℕ
  invoke : Instruction → Clock → Accounts δ → Option (Accounts δ)

/-- The chain's state, with the calls and events the program under study has made so far. -/
structure World (δ ε : Type) where
  accounts : Accounts δ
  clock : Clock
  cpis : List Instruction
  events : List ε

/-- What a transaction gives an instruction beside its named accounts. -/
structure Context where
  signers : List Pubkey
  remaining : List AccountMeta

inductive AnchorError where
  | accountNotSigner
  | accountOwnedByWrongProgram
  | accountDiscriminatorMismatch
  | constraintSeeds
  | constraintHasOne
  | constraintAddress
  | constraintAssociated
  | constraintTokenMint
  | constraintTokenOwner
  | constraintTokenProgram
  | invalidProgramId
  | accountAlreadyInUse
  | insufficientLamports
  deriving DecidableEq

/-- `ρ` is the program's own error enumeration. -/
inductive ProgramError (ρ : Type) where
  | custom (e : ρ)
  | anchor (e : AnchorError)
  | privilegeEscalation
  | cpiFailed

abbrev Result (ρ α : Type) := Except (ProgramError ρ) α

variable {δ ε ρ : Type}

def require (c : Prop) [Decidable c] (e : ρ) : Result ρ Unit :=
  if c then .ok () else .error (.custom e)

def constrain (c : Prop) [Decidable c] (e : AnchorError) : Result ρ Unit :=
  if c then .ok () else .error (.anchor e)

def liftOption {α : Type} (o : Option α) (e : ρ) : Result ρ α :=
  match o with
  | some x => .ok x
  | none => .error (.custom e)

def World.setAccount (w : World δ ε) (k : Pubkey) (a : Account δ) : World δ ε :=
  { w with accounts := Function.update w.accounts k a }

def World.emit (w : World δ ε) (e : ε) : World δ ε :=
  { w with events := w.events ++ [e] }

/-- `get_associated_token_address_with_program_id`. -/
def Runtime.ata (rt : Runtime δ) (wallet mint tp : Pubkey) : Pubkey :=
  (rt.findProgramAddress [wallet.bytes, tp.bytes, mint.bytes] associatedTokenProgram).1

/-- `invoke_signed` from program `pid`: a signer of the callee has signed the transaction or
is the address of the seeds. -/
def invokeSigned (rt : Runtime δ) (pid : Pubkey) (ctx : Context) (seeds : List Bytes)
    (ix : Instruction) (w : World δ ε) : Result ρ (World δ ε) :=
  if ∀ m ∈ ix.accounts, m.isSigner = true →
      m.pubkey ∈ ctx.signers ∨ rt.createProgramAddress seeds pid = some m.pubkey then
    match rt.invoke ix w.clock w.accounts with
    | some a => .ok { w with accounts := a, cpis := w.cpis ++ [ix] }
    | none => .error .cpiFailed
  else .error .privilegeEscalation

/-! ## Account types and constraints -/

/-- `Signer`. -/
def loadSigner (ctx : Context) (k : Pubkey) : Result ρ Unit :=
  constrain (k ∈ ctx.signers) .accountNotSigner

/-- `InterfaceAccount<TokenAccount>`, also what `reload` reads. -/
def loadToken (w : World δ ε) (k : Pubkey) : Result ρ TokenAccount :=
  match tokenAt w.accounts k with
  | some t => .ok t
  | none => .error (.anchor .accountOwnedByWrongProgram)

/-- `InterfaceAccount<Mint>`. -/
def loadMint (w : World δ ε) (k : Pubkey) : Result ρ Mint :=
  match mintAt w.accounts k with
  | some m => .ok m
  | none => .error (.anchor .accountOwnedByWrongProgram)

/-- `Account<T>`: `view` picks the data type the discriminator stands for. -/
def loadAccount {α : Type} (pid : Pubkey) (view : δ → Option α) (w : World δ ε) (k : Pubkey) :
    Result ρ α :=
  match programAt pid w.accounts k with
  | none => .error (.anchor .accountOwnedByWrongProgram)
  | some d =>
    match view d with
    | none => .error (.anchor .accountDiscriminatorMismatch)
    | some x => .ok x

/-- `Interface<TokenInterface>`. -/
def checkTokenInterface (k : Pubkey) : Result ρ Unit :=
  constrain (IsTokenProgram k) .invalidProgramId

/-- `Program<T>`. -/
def checkProgram (k pid : Pubkey) : Result ρ Unit :=
  constrain (k = pid) .invalidProgramId

/-- `seeds = [..], bump = b`. -/
def checkSeeds (rt : Runtime δ) (pid : Pubkey) (seeds : List Bytes) (bump : UInt8) (k : Pubkey) :
    Result ρ Unit :=
  constrain (rt.createProgramAddress (seeds ++ [[bump]]) pid = some k) .constraintSeeds

/-- `seeds = [..], bump`: the canonical bump, which `ctx.bumps` then holds. -/
def findSeeds (rt : Runtime δ) (pid : Pubkey) (seeds : List Bytes) (k : Pubkey) :
    Result ρ UInt8 := do
  constrain ((rt.findProgramAddress seeds pid).1 = k) .constraintSeeds
  return (rt.findProgramAddress seeds pid).2

/-- `associated_token::mint`, `::authority` and `::token_program` without `init`. -/
def checkAssociatedToken (rt : Runtime δ) (w : World δ ε) (mint authority tp k : Pubkey) :
    Result ρ TokenAccount := do
  let t ← loadToken w k
  constrain ((w.accounts k).owner = tp) .constraintTokenProgram
  constrain (t.owner = authority) .constraintTokenOwner
  constrain (rt.ata authority mint tp = k) .constraintAssociated
  return t

/-- `token::mint` and `token::token_program`. -/
def checkTokenMint (w : World δ ε) (mint tp k : Pubkey) : Result ρ TokenAccount := do
  let t ← loadToken w k
  constrain ((w.accounts k).owner = tp) .constraintTokenProgram
  constrain (t.mint = mint) .constraintTokenMint
  return t

/-- `init`: `payer` tops the address up to the rent exemption of `space` bytes and the system
program hands it to `owner`. Only an address the system program owns can be created. -/
def createAccount (rt : Runtime δ) (payer k owner : Pubkey) (space : ℕ) (data : Data δ)
    (w : World δ ε) : Result ρ (World δ ε) := do
  constrain ((w.accounts k).owner = systemProgram ∧ (w.accounts k).data.isEmpty = true)
    .accountAlreadyInUse
  let topUp := rt.minimumBalance space - (w.accounts k).lamports
  constrain (topUp ≤ (w.accounts payer).lamports) .insufficientLamports
  let paid := setLamports w.accounts payer ((w.accounts payer).lamports - topUp)
  return { w with
    accounts := Function.update paid k ⟨(w.accounts k).lamports + topUp, owner, data⟩ }

def tokenAccountLen : ℕ := 165

/-- `init` with `associated_token::..`: the mint has to be one of the token program's. -/
def initAssociatedToken (rt : Runtime δ) (payer mint authority tp k : Pubkey) (w : World δ ε) :
    Result ρ (World δ ε) := do
  constrain (rt.ata authority mint tp = k) .constraintAssociated
  let _ ← loadMint w mint
  constrain ((w.accounts mint).owner = tp) .constraintTokenProgram
  createAccount rt payer k tp tokenAccountLen
    (.token ⟨mint, authority, 0, none, 0, none⟩) w

/-- `close = dest`: all lamports go to `dest` and the address goes back to the system program. -/
def closeAccount (k dest : Pubkey) (w : World δ ε) : World δ ε :=
  let freed := Function.update w.accounts k Account.absent
  { w with accounts := setLamports freed dest ((freed dest).lamports + (w.accounts k).lamports) }

/-! ## Inversion -/

@[simp] theorem bind_eq_ok {α β : Type} {x : Result ρ α} {f : α → Result ρ β} {b : β} :
    (x >>= f) = .ok b ↔ ∃ a, x = .ok a ∧ f a = .ok b := by
  cases x <;> simp [bind, Except.bind]

@[simp] theorem pure_eq_ok {α : Type} {a b : α} : (pure a : Result ρ α) = .ok b ↔ a = b := by
  simp [pure, Except.pure]

@[simp] theorem require_eq_ok {c : Prop} [Decidable c] {e : ρ} {u : Unit} :
    require c e = .ok u ↔ c := by
  unfold require
  split <;> simp_all

@[simp] theorem constrain_eq_ok {c : Prop} [Decidable c] {e : AnchorError} {u : Unit} :
    (constrain c e : Result ρ Unit) = .ok u ↔ c := by
  unfold constrain
  split <;> simp_all

@[simp] theorem liftOption_eq_ok {α : Type} {o : Option α} {e : ρ} {x : α} :
    liftOption o e = .ok x ↔ o = some x := by
  cases o <;> simp [liftOption]

@[simp] theorem loadSigner_eq_ok {ctx : Context} {k : Pubkey} {u : Unit} :
    (loadSigner ctx k : Result ρ Unit) = .ok u ↔ k ∈ ctx.signers := by
  simp [loadSigner]

@[simp] theorem loadToken_eq_ok {w : World δ ε} {k : Pubkey} {t : TokenAccount} :
    (loadToken w k : Result ρ TokenAccount) = .ok t ↔ tokenAt w.accounts k = some t := by
  unfold loadToken
  cases tokenAt w.accounts k <;> simp

@[simp] theorem loadMint_eq_ok {w : World δ ε} {k : Pubkey} {m : Mint} :
    (loadMint w k : Result ρ Mint) = .ok m ↔ mintAt w.accounts k = some m := by
  unfold loadMint
  cases mintAt w.accounts k <;> simp

@[simp] theorem loadAccount_eq_ok {α : Type} {pid : Pubkey} {view : δ → Option α}
    {w : World δ ε} {k : Pubkey} {x : α} :
    (loadAccount pid view w k : Result ρ α) = .ok x ↔
      (programAt pid w.accounts k).bind view = some x := by
  unfold loadAccount
  cases programAt pid w.accounts k with
  | none => simp
  | some d =>
      simp only [Option.bind_some]
      cases view d <;> simp

@[simp] theorem checkTokenInterface_eq_ok {k : Pubkey} {u : Unit} :
    (checkTokenInterface k : Result ρ Unit) = .ok u ↔ IsTokenProgram k := by
  simp [checkTokenInterface]

@[simp] theorem checkProgram_eq_ok {k pid : Pubkey} {u : Unit} :
    (checkProgram k pid : Result ρ Unit) = .ok u ↔ k = pid := by
  simp [checkProgram]

@[simp] theorem checkSeeds_eq_ok {rt : Runtime δ} {pid k : Pubkey} {seeds : List Bytes}
    {bump : UInt8} {u : Unit} :
    (checkSeeds rt pid seeds bump k : Result ρ Unit) = .ok u ↔
      rt.createProgramAddress (seeds ++ [[bump]]) pid = some k := by
  simp [checkSeeds]

@[simp] theorem findSeeds_eq_ok {rt : Runtime δ} {pid k : Pubkey} {seeds : List Bytes}
    {bump : UInt8} :
    (findSeeds rt pid seeds k : Result ρ UInt8) = .ok bump ↔
      rt.findProgramAddress seeds pid = (k, bump) := by
  simp only [findSeeds, bind_eq_ok, constrain_eq_ok, pure_eq_ok, exists_const, Prod.ext_iff]

/-- An associated token account as its constraint pins it. -/
structure IsAssociatedToken (rt : Runtime δ) (a : Accounts δ) (mint authority tp k : Pubkey)
    (t : TokenAccount) : Prop where
  token : tokenAt a k = some t
  program : (a k).owner = tp
  owner : t.owner = authority
  address : rt.ata authority mint tp = k

@[simp] theorem checkAssociatedToken_eq_ok {rt : Runtime δ} {w : World δ ε}
    {mint authority tp k : Pubkey} {t : TokenAccount} :
    (checkAssociatedToken rt w mint authority tp k : Result ρ TokenAccount) = .ok t ↔
      IsAssociatedToken rt w.accounts mint authority tp k t := by
  simp only [checkAssociatedToken, bind_eq_ok, loadToken_eq_ok, constrain_eq_ok, pure_eq_ok,
    exists_const]
  constructor
  · rintro ⟨t', ht, hp, ho, hk, rfl⟩
    exact ⟨ht, hp, ho, hk⟩
  · rintro ⟨ht, hp, ho, hk⟩
    exact ⟨t, ht, hp, ho, hk, rfl⟩

@[simp] theorem checkTokenMint_eq_ok {w : World δ ε} {mint tp k : Pubkey} {t : TokenAccount} :
    (checkTokenMint w mint tp k : Result ρ TokenAccount) = .ok t ↔
      tokenAt w.accounts k = some t ∧ (w.accounts k).owner = tp ∧ t.mint = mint := by
  simp only [checkTokenMint, bind_eq_ok, loadToken_eq_ok, constrain_eq_ok, pure_eq_ok,
    exists_const]
  constructor
  · rintro ⟨t', ht, hp, hm, rfl⟩
    exact ⟨ht, hp, hm⟩
  · rintro ⟨ht, hp, hm⟩
    exact ⟨t, ht, hp, hm, rfl⟩

theorem invokeSigned_eq_ok {rt : Runtime δ} {pid : Pubkey} {ctx : Context} {seeds : List Bytes}
    {ix : Instruction} {w w' : World δ ε} :
    (invokeSigned rt pid ctx seeds ix w : Result ρ (World δ ε)) = .ok w' ↔
      (∀ m ∈ ix.accounts, m.isSigner = true →
        m.pubkey ∈ ctx.signers ∨ rt.createProgramAddress seeds pid = some m.pubkey) ∧
      ∃ a, rt.invoke ix w.clock w.accounts = some a ∧
        w' = { w with accounts := a, cpis := w.cpis ++ [ix] } := by
  unfold invokeSigned
  split
  · rename_i hs
    cases hi : rt.invoke ix w.clock w.accounts with
    | none => simp
    | some a =>
        simp only [Except.ok.injEq, Option.some.injEq, exists_eq_left']
        exact ⟨fun h => ⟨hs, h.symm⟩, fun h => h.2.symm⟩
  · rename_i hs
    simp only [reduceCtorEq, false_iff]
    rintro ⟨h, -⟩
    exact hs h

end FogoYield.Solana
