import Mathlib.Logic.Function.Basic
import FogoYield.Library.Bytes

/-! # Accounts and instructions

An account holds what its bytes deserialise to. `δ` is the type of the accounts of the
program under study; accounts of programs outside it keep their bytes. -/

namespace FogoYield.Solana

open FogoYield.Library

/-- A public key is its byte string. The length is not fixed to 32, so that a collision-free
address derivation exists and can be assumed. -/
structure Pubkey where
  bytes : Bytes
  deriving DecidableEq

def Pubkey.default : Pubkey := ⟨List.replicate 32 0⟩

/-- The system program's id is the all-zero key. -/
def systemProgram : Pubkey := Pubkey.default

def tokenProgram : Pubkey :=
  ⟨[6, 221, 246, 225, 215, 101, 161, 147, 217, 203, 225, 70, 206, 235, 121, 172,
    28, 180, 133, 237, 95, 91, 55, 145, 58, 140, 245, 133, 126, 255, 0, 169]⟩

def token2022Program : Pubkey :=
  ⟨[6, 221, 246, 225, 238, 117, 143, 222, 24, 66, 93, 188, 228, 108, 205, 218,
    182, 26, 252, 77, 131, 185, 13, 39, 254, 189, 249, 40, 216, 161, 139, 252]⟩

def associatedTokenProgram : Pubkey :=
  ⟨[140, 151, 37, 143, 78, 36, 137, 241, 187, 61, 16, 41, 20, 142, 13, 131,
    11, 90, 19, 153, 218, 255, 16, 132, 4, 142, 123, 216, 219, 233, 248, 89]⟩

/-- The ids `Interface<TokenInterface>` accepts. -/
def IsTokenProgram (k : Pubkey) : Prop := k = tokenProgram ∨ k = token2022Program

instance (k : Pubkey) : Decidable (IsTokenProgram k) :=
  inferInstanceAs (Decidable (k = tokenProgram ∨ k = token2022Program))

theorem not_isTokenProgram_systemProgram : ¬ IsTokenProgram systemProgram := by decide

theorem IsTokenProgram.ne_systemProgram {k : Pubkey} (h : IsTokenProgram k) :
    k ≠ systemProgram := by
  rintro rfl
  exact not_isTokenProgram_systemProgram h

structure AccountMeta where
  pubkey : Pubkey
  isSigner : Bool
  isWritable : Bool
  deriving DecidableEq

structure Instruction where
  programId : Pubkey
  accounts : List AccountMeta
  data : Bytes
  deriving DecidableEq

def Instruction.Signs (ix : Instruction) (k : Pubkey) : Prop :=
  ∃ m ∈ ix.accounts, m.pubkey = k ∧ m.isSigner = true

/-- The instruction was given the account `k` as writable. -/
def Instruction.Writes (ix : Instruction) (k : Pubkey) : Prop :=
  ∃ m ∈ ix.accounts, m.pubkey = k ∧ m.isWritable = true

structure TokenAccount where
  mint : Pubkey
  owner : Pubkey
  amount : UInt64
  delegate : Option Pubkey
  delegatedAmount : UInt64
  closeAuthority : Option Pubkey
  deriving DecidableEq

structure Mint where
  decimals : UInt8
  deriving DecidableEq

inductive Data (δ : Type) where
  | empty
  | raw (bytes : Bytes)
  | mint (m : Mint)
  | token (t : TokenAccount)
  | program (d : δ)

structure Account (δ : Type) where
  lamports : ℕ
  owner : Pubkey
  data : Data δ

abbrev Accounts (δ : Type) := Pubkey → Account δ

structure Clock where
  slot : UInt64
  unixTimestamp : UInt64

variable {δ : Type}

/-- The state of an address nothing was ever created at. -/
def Account.absent : Account δ := ⟨0, systemProgram, .empty⟩

def Data.isEmpty : Data δ → Bool
  | .empty => true
  | _ => false

/-- The bytes of an account of a program outside the model. -/
def Account.bytes (a : Account δ) : Bytes :=
  match a.data with
  | .raw bs => bs
  | _ => []

/-! ## Typed views of an account -/

/-- The token account at `k`, if a token program owns one there. -/
def tokenAt (a : Accounts δ) (k : Pubkey) : Option TokenAccount :=
  if IsTokenProgram (a k).owner then
    match (a k).data with
    | .token t => some t
    | _ => none
  else none

def mintAt (a : Accounts δ) (k : Pubkey) : Option Mint :=
  if IsTokenProgram (a k).owner then
    match (a k).data with
    | .mint m => some m
    | _ => none
  else none

/-- The account of program `pid` at `k`, if it holds one of its data types. -/
def programAt (pid : Pubkey) (a : Accounts δ) (k : Pubkey) : Option δ :=
  if (a k).owner = pid then
    match (a k).data with
    | .program d => some d
    | _ => none
  else none

/-- The balance of the token account at `k`, zero when there is none. -/
def balance (a : Accounts δ) (k : Pubkey) : ℕ :=
  match tokenAt a k with
  | some t => t.amount.toNat
  | none => 0

theorem tokenAt_eq_some {a : Accounts δ} {k : Pubkey} {t : TokenAccount} :
    tokenAt a k = some t ↔ IsTokenProgram (a k).owner ∧ (a k).data = .token t := by
  unfold tokenAt
  split
  · cases h : (a k).data <;> simp_all
  · simp_all

theorem mintAt_eq_some {a : Accounts δ} {k : Pubkey} {m : Mint} :
    mintAt a k = some m ↔ IsTokenProgram (a k).owner ∧ (a k).data = .mint m := by
  unfold mintAt
  split
  · cases h : (a k).data <;> simp_all
  · simp_all

theorem programAt_eq_some {pid : Pubkey} {a : Accounts δ} {k : Pubkey} {d : δ} :
    programAt pid a k = some d ↔ (a k).owner = pid ∧ (a k).data = .program d := by
  unfold programAt
  split
  · cases h : (a k).data <;> simp_all
  · simp_all

theorem balance_of_tokenAt {a : Accounts δ} {k : Pubkey} {t : TokenAccount}
    (h : tokenAt a k = some t) : balance a k = t.amount.toNat := by
  simp [balance, h]

theorem tokenAt_congr {a b : Accounts δ} {k : Pubkey} (h : a k = b k) :
    tokenAt a k = tokenAt b k := by
  simp [tokenAt, h]

theorem balance_congr {a b : Accounts δ} {k : Pubkey} (h : a k = b k) :
    balance a k = balance b k := by
  simp only [balance, tokenAt_congr h]

theorem mintAt_congr {a b : Accounts δ} {k : Pubkey} (h : a k = b k) :
    mintAt a k = mintAt b k := by
  simp [mintAt, h]

theorem programAt_congr {pid : Pubkey} {a b : Accounts δ} {k : Pubkey} (h : a k = b k) :
    programAt pid a k = programAt pid b k := by
  simp [programAt, h]

/-! ## Updates -/

/-- Replace the contents of the token account at `k`, its owner program and lamports kept. -/
def setToken (a : Accounts δ) (k : Pubkey) (t : TokenAccount) : Accounts δ :=
  Function.update a k { a k with data := .token t }

/-- Credit (or, by a smaller value, debit) an account's lamports. -/
def setLamports (a : Accounts δ) (k : Pubkey) (n : ℕ) : Accounts δ :=
  Function.update a k { a k with lamports := n }

@[simp] theorem setToken_self (a : Accounts δ) (k : Pubkey) (t : TokenAccount) :
    setToken a k t k = { a k with data := .token t } := by
  simp [setToken]

theorem setToken_of_ne (a : Accounts δ) {j k : Pubkey} (t : TokenAccount) (h : j ≠ k) :
    setToken a k t j = a j := by
  simp [setToken, h]

@[simp] theorem setToken_owner (a : Accounts δ) (j k : Pubkey) (t : TokenAccount) :
    (setToken a k t j).owner = (a j).owner := by
  by_cases h : j = k
  · subst h
    simp
  · rw [setToken_of_ne a t h]

@[simp] theorem setToken_lamports (a : Accounts δ) (j k : Pubkey) (t : TokenAccount) :
    (setToken a k t j).lamports = (a j).lamports := by
  by_cases h : j = k
  · subst h
    simp
  · rw [setToken_of_ne a t h]

theorem tokenAt_setToken_self {a : Accounts δ} {k : Pubkey} (t : TokenAccount)
    (h : IsTokenProgram (a k).owner) : tokenAt (setToken a k t) k = some t := by
  simp [tokenAt, h]

theorem tokenAt_setToken_of_ne (a : Accounts δ) {j k : Pubkey} (t : TokenAccount) (h : j ≠ k) :
    tokenAt (setToken a k t) j = tokenAt a j :=
  tokenAt_congr (setToken_of_ne a t h)

@[simp] theorem setLamports_owner (a : Accounts δ) (j k : Pubkey) (n : ℕ) :
    (setLamports a k n j).owner = (a j).owner := by
  by_cases h : j = k <;> simp [setLamports, h]

@[simp] theorem setLamports_data (a : Accounts δ) (j k : Pubkey) (n : ℕ) :
    (setLamports a k n j).data = (a j).data := by
  by_cases h : j = k <;> simp [setLamports, h]

end FogoYield.Solana
