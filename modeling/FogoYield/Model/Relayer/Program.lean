import FogoYield.Library.Run
import FogoYield.Model.Relayer.NttManager
import FogoYield.Model.Relayer.Outbound

/-! # The relayer as a transition system

A step is a successful instruction of the program, issued by anyone with any accounts, or
something the rest of the chain does between two of them. -/

namespace FogoYield.Relayer

open FogoYield.Library FogoYield.Solana

/-- The chain the program is deployed on: the runtime, which programs are NTT managers, with the
mint each of them manages, and their inbound rate limiters. -/
structure Env where
  runtime : RelayerRuntime
  nttMint : Pubkey → Option Pubkey
  limiter : Pubkey → RateLimiter

/-- The relayer authority PDA. -/
def relayerAuthority (rt : RelayerRuntime) : Pubkey :=
  (rt.findProgramAddress [relayerSeed] programId).1

inductive Action where
  | bootstrap (ctx : Context) (accs : BootstrapAccounts)
  | initializePair (ctx : Context) (accs : InitializeAccounts) (args : InitializeArgs)
  | setAdmin (ctx : Context) (accs : SetAdminAccounts) (newAdmin : Pubkey)
  | acceptAdmin (ctx : Context) (accs : AcceptAdminAccounts)
  | configure (ctx : Context) (accs : ConfigureAccounts) (args : ConfigureArgs)
  | acceptAuthority (ctx : Context) (accs : AcceptAuthorityAccounts)
  | receive (ctx : Context) (accs : ReceiveAccounts) (args : ReceiveArgs)
  | swap (ctx : Context) (accs : SwapAccounts) (swapIxData : Bytes)
  | send (ctx : Context) (accs : OutboundAccounts) (transferLockAccountCount : UInt8)
  | refund (ctx : Context) (accs : OutboundAccounts) (transferLockAccountCount : UInt8)
  /-- Any instruction of another program, such as a raw NTT `redeem`, release or
  `transfer_lock`. One that calls the relayer in turn is its parts, one step each. -/
  | external (ix : Instruction)
  /-- A token deposit into any token account. -/
  | deposit (account : Pubkey) (amount : UInt64)
  /-- Time passes. -/
  | tick (clock : Clock)

instance (ix : Instruction) (k : Pubkey) : Decidable (ix.Signs k) :=
  inferInstanceAs (Decidable (∃ m ∈ ix.accounts, m.pubkey = k ∧ m.isSigner = true))

/-- An instruction of another program: nobody but the relayer signs for its authority. -/
def runExternal (rt : RelayerRuntime) (ix : Instruction) (w : RelayerWorld) :
    RelayerResult RelayerWorld :=
  if ix.Signs (relayerAuthority rt) ∨ ix.programId = programId then .error .privilegeEscalation
  else
    match rt.invoke ix w.clock w.accounts with
    | some a => .ok { w with accounts := a }
    | none => .error .cpiFailed

def runDeposit (account : Pubkey) (amount : UInt64) (w : RelayerWorld) :
    RelayerResult RelayerWorld := do
  let t ← loadToken w account
  if t.amount.toNat + amount.toNat < 2 ^ 64 then
    return { w with accounts := setToken w.accounts account { t with amount := t.amount + amount } }
  else .error .cpiFailed

def runTick (clock : Clock) (w : RelayerWorld) : RelayerResult RelayerWorld :=
  if w.clock.slot ≤ clock.slot ∧ w.clock.unixTimestamp ≤ clock.unixTimestamp then
    .ok { w with clock := clock }
  else .error .cpiFailed

def Action.apply (rt : RelayerRuntime) : Action → RelayerWorld → RelayerResult RelayerWorld
  | .bootstrap ctx accs => Relayer.bootstrap rt ctx accs
  | .initializePair ctx accs args => Relayer.initializePair rt ctx accs args
  | .setAdmin ctx accs newAdmin => Relayer.setAdmin rt ctx accs newAdmin
  | .acceptAdmin ctx accs => Relayer.acceptAdmin rt ctx accs
  | .configure ctx accs args => Relayer.configure rt ctx accs args
  | .acceptAuthority ctx accs => Relayer.acceptAuthority rt ctx accs
  | .receive ctx accs args => Relayer.receive rt ctx accs args
  | .swap ctx accs swapIxData => Relayer.swap rt ctx accs swapIxData
  | .send ctx accs count => Relayer.send rt ctx accs count
  | .refund ctx accs count => Relayer.refund rt ctx accs count
  | .external ix => runExternal rt ix
  | .deposit account amount => runDeposit account amount
  | .tick clock => runTick clock

/-- `initialize` pins programs that are NTT managers. Nothing else is asked of any caller. -/
def Action.Trusted (env : Env) : Action → Prop
  | .initializePair _ _ args =>
    (env.nttMint args.nttBaseProgram).isSome ∧ (env.nttMint args.nttAssetProgram).isSome
  | _ => True

/-- One successful step of the system. A failed instruction changes nothing and is no step. -/
def Step (env : Env) (w : RelayerWorld) (act : Action) (w' : RelayerWorld) : Prop :=
  act.Trusted env ∧ act.apply env.runtime w = .ok w'

/-- The program has no account yet; what other programs hold is arbitrary. -/
structure Genesis (env : Env) (w : RelayerWorld) : Prop where
  no_account : ∀ k, (w.accounts k).owner ≠ programId
  ata : AtaWellFormed env.runtime w.accounts

/-- What is assumed of everything outside the program. -/
structure Env.Lawful (env : Env) : Prop where
  address : env.runtime.AddressLaws
  token : env.runtime.TokenLaws
  cpi : env.runtime.CpiLaws programId
  ntt : ∀ p m, env.nttMint p = some m → NttLaws env.runtime (env.limiter p) p

/-- The runs of the deployed program. -/
abbrev RelayerRun (env : Env) := Run (Step env)

abbrev RelayerTransition := Transition RelayerWorld Action

end FogoYield.Relayer
