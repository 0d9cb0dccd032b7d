import FogoYield.Model.Sdk.Verifier

/-! # Wallet and floor recovery

`packages/sdk/src/builders/min-out-memo.ts` and `packages/sdk/src/bridge/wallet-recovery.ts`: the
wallets and the floors that a FOGO transaction could encode. -/

namespace FogoYield.Sdk

open FogoYield.Library FogoYield.Solana
open FogoYield.Relayer (slice)

/-! ## Memos -/

def memoProgramId : Pubkey := Pubkey.literal "MemoSq4gqABAXKb96qnH8TysNcWxMyWCqXgDLGmfcHr"

def minSwapOutMemoPrefix : String := "onre:mso:"

inductive MemoBuildError where
  | notPositiveU64
  deriving DecidableEq

def buildMinSwapOutMemoIx (minSwapOut : ℤ) : Except MemoBuildError Instruction :=
  if minSwapOut ≤ 0 ∨ minSwapOut > u64Max then .error .notPositiveU64
  else .ok
    { programId := memoProgramId
      accounts := []
      data := utf8 (minSwapOutMemoPrefix ++ toString minSwapOut) }

/-- `CANONICAL_U64`, `/^(?:0|[1-9]\d*)$/`. -/
def canonicalU64 : List Char → Bool
  | [] => false
  | c :: digits => if c = '0' then digits.isEmpty else c.isDigit && digits.all Char.isDigit

def parseMinSwapOutMemo (memoText : List Char) : Option ℕ :=
  match stripLiteral minSwapOutMemoPrefix.toList memoText with
  | none => none
  | some body =>
    if canonicalU64 body then
      let value := Nat.ofDigitChars 10 body 0
      if value > u64Max then none else some value
    else none

/-! ## The FOGO transaction -/

def ed25519ProgramId : Pubkey := Pubkey.literal "Ed25519SigVerify111111111111111111111111111"

def onreIntentProgramId : Pubkey := Pubkey.literal "inTFf5S7ZtYr8SkwGG85mjDwAyJwjqEPdH2p2nuyrL9"

def intentTransferProgramId : Pubkey :=
  Pubkey.literal "Xfry4dW9m42ncAqm8LyEnyS5V6xu5DSJTMRQLiGkARD"

def defaultIntentProgramIds : List Pubkey := [onreIntentProgramId, intentTransferProgramId]

/-- Why the recovery throws. -/
inductive RecoveryError where
  | rpc
  | range
  | timeout
  deriving DecidableEq

structure CompiledIx where
  programIdIndex : ℕ
  accountKeyIndexes : List ℕ
  data : Bytes

structure ParsedTx where
  keys : List Pubkey
  ixs : List CompiledIx

/-- What the FOGO connection answers: the transaction with its keys, and the data of an account. -/
structure FogoConnection where
  getTransaction : String → Except RecoveryError (Option ParsedTx)
  getAccountInfo : Pubkey → Except RecoveryError (Option Bytes)

def fetchParsedTx (fogoConnection : FogoConnection) (fogoTx : String) :
    Except RecoveryError (Option ParsedTx) :=
  if fogoTx = "" then .ok none else fogoConnection.getTransaction fogoTx

/-- `programId` of the loops over the instructions. -/
def ParsedTx.programId (parsed : ParsedTx) (ix : CompiledIx) : Option Pubkey :=
  parsed.keys[ix.programIdIndex]?

/-- `sourceAta`, if the instruction is a bridge instruction. -/
def ParsedTx.sourceAta (parsed : ParsedTx) (intentProgramIds : List Pubkey) (ix : CompiledIx) :
    Option Pubkey :=
  match parsed.programId ix with
  | none => none
  | some programId =>
    if programId ∈ intentProgramIds then
      match ix.accountKeyIndexes[3]? with
      | none => none
      | some sourceIdx => parsed.keys[sourceIdx]?
    else none

/-- The owner that the data of a token account names. -/
def ataOwner : Option Bytes → Option Pubkey
  | none => none
  | some data => if data.length < 64 then none else some ⟨slice data 32 32⟩

/-- A new value goes to the end. -/
def pushNew {α : Type} [DecidableEq α] (values : List α) (value : α) : List α :=
  if value ∈ values then values else values ++ [value]

/-- The loop of `allWalletsFromParsedTx`. -/
def collectWallets (fogoConnection : FogoConnection) (parsed : ParsedTx)
    (intentProgramIds : List Pubkey) :
    List CompiledIx → List Pubkey → Except RecoveryError (List Pubkey)
  | [], wallets => .ok wallets
  | ix :: ixs, wallets =>
    match parsed.sourceAta intentProgramIds ix with
    | none => collectWallets fogoConnection parsed intentProgramIds ixs wallets
    | some sourceAta =>
      match fogoConnection.getAccountInfo sourceAta with
      | .error err => .error err
      | .ok ataInfo =>
        match ataOwner ataInfo with
        | none => collectWallets fogoConnection parsed intentProgramIds ixs wallets
        | some wallet =>
          collectWallets fogoConnection parsed intentProgramIds ixs (pushNew wallets wallet)

def allWalletsFromParsedTx (fogoConnection : FogoConnection) (parsed : ParsedTx)
    (intentProgramIds : List Pubkey) : Except RecoveryError (List Pubkey) :=
  collectWallets fogoConnection parsed intentProgramIds parsed.ixs []

/-- The loop of `allMinOutsFromParsedTx`. -/
def collectMinOuts (parsed : ParsedTx) :
    List CompiledIx → List ℕ → Except RecoveryError (List ℕ)
  | [], floors => .ok floors
  | ix :: ixs, floors =>
    if parsed.programId ix = some ed25519ProgramId then
      match ed25519InlineMessages ix.data with
      | .error _ => .error .range
      | .ok messages =>
        collectMinOuts parsed ixs ((messages.flatMap parseSignedMinOuts).foldl pushNew floors)
    else if parsed.programId ix ≠ some memoProgramId then collectMinOuts parsed ixs floors
    else
      match parseMinSwapOutMemo (textDecode ix.data) with
      | none => collectMinOuts parsed ixs floors
      | some fromMemo => collectMinOuts parsed ixs (pushNew floors fromMemo)

def allMinOutsFromParsedTx (parsed : ParsedTx) : Except RecoveryError (List ℕ) :=
  collectMinOuts parsed parsed.ixs []

structure RecoveredWalletAndMinOut where
  userWallet : Pubkey
  minSwapOut : ℤ
  deriving DecidableEq

/-- Every wallet with every floor, the floors of a wallet in a row. -/
def recoverWalletAndMinOutCandidates (fogoConnection : FogoConnection) (fogoTx : String)
    (intentProgramIds : List Pubkey) : Except RecoveryError (List RecoveredWalletAndMinOut) :=
  match fetchParsedTx fogoConnection fogoTx with
  | .error err => .error err
  | .ok none => .ok []
  | .ok (some parsed) =>
    match allMinOutsFromParsedTx parsed with
    | .error err => .error err
    | .ok minOuts =>
      if minOuts = [] then .ok []
      else
        match allWalletsFromParsedTx fogoConnection parsed intentProgramIds with
        | .error err => .error err
        | .ok wallets =>
          .ok (wallets.flatMap fun (userWallet : Pubkey) =>
            minOuts.map fun (minSwapOut : ℕ) => ⟨userWallet, minSwapOut⟩)

end FogoYield.Sdk
