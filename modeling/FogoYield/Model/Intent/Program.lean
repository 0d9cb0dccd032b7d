import FogoYield.Library.Run
import FogoYield.Model.Intent.Bridge
import FogoYield.Model.Intent.Config
import FogoYield.Solana.Invocations
import FogoYield.Solana.SessionToken

/-! # The intent program as a transition system

A step is a successful instruction of the program, sent by anyone with any accounts behind any
signed message, or something the rest of the chain does between two of them. -/

namespace FogoYield.Intent

open FogoYield.Library FogoYield.Solana

inductive Action where
  | sendTokens (ctx : IntentContext) (accs : SendTokensAccounts)
  | bridgeNttTokens (ctx : IntentContext) (accs : BridgeNttTokensAccounts)
      (args : BridgeNttTokensArgs)
  | registerNttConfig (ctx : Context) (accs : ConfigAccounts) (nttManager : Pubkey)
  | registerFeeConfig (ctx : Context) (accs : ConfigAccounts) (feeConfig : FeeConfig)
  | sendNative (ctx : IntentContext) (accs : SendNativeAccounts)
  | updateFeeConfig (ctx : Context) (accs : ConfigAccounts) (feeConfig : FeeConfig)
  /-- Any instruction of another program, such as a plain token transfer or an upgrade. -/
  | external (ix : Instruction)
  /-- Time passes. -/
  | tick (clock : Clock)

def runExternal (rt : IntentRuntime) (ix : Instruction) (w : IntentWorld) :
    IntentResult IntentWorld :=
  match rt.invoke ix w.clock w.accounts with
  | some a => .ok { w with accounts := a }
  | none => .error .cpiFailed

def Action.apply (K : Crates) (rt : IntentRuntime) : Action → IntentWorld → IntentResult IntentWorld
  | .sendTokens ctx accs => Intent.sendTokens K rt ctx accs
  | .bridgeNttTokens ctx accs args => Intent.bridgeNttTokens K rt ctx accs args
  | .registerNttConfig ctx accs nttManager => Intent.registerNttConfig K rt ctx accs nttManager
  | .registerFeeConfig ctx accs feeConfig => Intent.registerFeeConfig K rt ctx accs feeConfig
  | .sendNative ctx accs => Intent.sendNative K rt ctx accs
  | .updateFeeConfig ctx accs feeConfig => Intent.updateFeeConfig K rt ctx accs feeConfig
  | .external ix => runExternal rt ix
  | .tick clock => fun w => .ok { w with clock := clock }

/-- `k` is an address derived from seeds of the program. -/
def Derived (rt : IntentRuntime) (k : Pubkey) : Prop :=
  ∃ seeds, rt.createProgramAddress seeds programId = some k

/-- Nobody outside the program signs a transaction for a derived address. -/
def SignedByOthers (rt : IntentRuntime) (ctx : Context) : Prop :=
  ∀ k ∈ ctx.signers, ¬ Derived rt k

/-- A wallet that signs a message holds a key, so it is no derived address either. -/
def IntentContext.Possible (rt : IntentRuntime) (ctx : IntentContext) : Prop :=
  SignedByOthers rt ctx.toContext ∧ ∀ signed, ctx.intent = .ok signed → ¬ Derived rt signed.signer

/-- What the chain and the upgrade authority do not do: let another program sign for a derived
address or run the program in its place, and register the program itself as an NTT manager. -/
def Action.Possible (rt : IntentRuntime) : Action → Prop
  | .sendTokens ctx _ => ctx.Possible rt
  | .bridgeNttTokens ctx _ _ => ctx.Possible rt
  | .sendNative ctx _ => ctx.Possible rt
  | .registerNttConfig ctx _ nttManager => SignedByOthers rt ctx ∧ nttManager ≠ programId
  | .registerFeeConfig ctx _ _ => SignedByOthers rt ctx
  | .updateFeeConfig ctx _ _ => SignedByOthers rt ctx
  | .external ix => ix.programId ≠ programId ∧ ∀ k, Derived rt k → ¬ ix.Signs k
  | .tick _ => True

/-- One successful step of the system. A failed instruction changes nothing and is no step. -/
def Step (K : Crates) (rt : IntentRuntime) (w : IntentWorld) (act : Action) (w' : IntentWorld) :
    Prop :=
  act.Possible rt ∧ act.apply K rt w = .ok w'

/-- The runs of the deployed program. -/
abbrev IntentRun (K : Crates) (rt : IntentRuntime) := Run (Step K rt)

abbrev IntentTransition := Transition IntentWorld Action

/-! ## Burns -/

def isTransferBurn (ix : Instruction) : Bool := transferBurnDiscriminator.isPrefixOf ix.data

/-- The burns among the calls the program has made so far. -/
def burns (w : IntentWorld) : List Instruction := w.cpis.filter isTransferBurn

/-! ## Assumptions -/

/-- A transfer of the native token. -/
inductive NativeMoved (source dest : Pubkey) (amount : ℕ) (a a' : IntentAccounts) : Prop where
  | between (h : source ≠ dest) (enough : amount ≤ (a source).lamports)
      (result : a' = setLamports (setLamports a source ((a source).lamports - amount)) dest
        ((a dest).lamports + amount))
  | within (h : source = dest) (same : a' = a)

/-- The token and system programs of the chain execute the program's own calls as documented. -/
structure RailLaws (rt : IntentRuntime) : Prop where
  transfer : ∀ {source mint dest authority programSigner amount decimals clock a a'},
    rt.invoke (inSessionTransferIx tokenProgram source mint dest authority programSigner amount
      decimals) clock a = some a' → Moved tokenProgram source mint dest amount a a'
  approve : ∀ {source delegate owner amount clock a a'},
    rt.invoke (approveIx tokenProgram source delegate owner amount) clock a = some a' →
    Solana.approve tokenProgram source delegate owner amount a = some a'
  close : ∀ {account dest authority clock a a'},
    rt.invoke (closeAccountIx tokenProgram account dest authority) clock a = some a' →
    ∃ t, ClosedSpec account dest t a a'
  native : ∀ {source dest setter amount clock a a'},
    rt.invoke (intentTransferIx source dest setter amount) clock a = some a' →
    NativeMoved source dest amount.toNat a a'

/-- What is assumed of everything outside the program. -/
structure Lawful (rt : IntentRuntime) : Prop where
  address : rt.AddressLaws
  cpi : rt.CallLaws programId
  rail : RailLaws rt

/-- Nobody has used an address derived from the program yet, and no account is the program's. -/
structure Genesis (rt : IntentRuntime) (w : IntentWorld) : Prop where
  unused : ∀ k, Derived rt k → Unused w.accounts k
  no_account : ∀ k, (w.accounts k).owner ≠ programId
  no_calls : w.cpis = []

end FogoYield.Intent
