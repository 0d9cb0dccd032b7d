import FogoYield.Model.Relayer.Ntt

/-! # Cross-program calls signed by the relayer authority

`programs/relayer/src/cpi.rs`. -/

namespace FogoYield.Relayer

open FogoYield.Library FogoYield.Solana

def splTokenApproveIxTag : UInt8 := 4
def splTokenRevokeIxTag : UInt8 := 5

/-- The seeds `[RELAYER_SEED, [bump]]` every relayer signature is made with. -/
def authoritySeeds (bump : UInt8) : List Bytes := [relayerSeed, [bump]]

/-- The metas forwarded to the callee: the authority's slot is forced to sign. -/
def forwardMetas (accs : List AccountMeta) (authority : Option Pubkey) : List AccountMeta :=
  accs.map (fun a => { a with isSigner := a.isSigner || decide (authority = some a.pubkey) })

/-- `args` is the Borsh encoding of the arguments. With an authority, its key has to be one of
the forwarded accounts. -/
def invokeRelayerSigned (rt : RelayerRuntime) (ctx : Context) (program : Pubkey)
    (discriminator args : Bytes) (accs : List AccountMeta) (authority : Option Pubkey)
    (bump : UInt8) (w : RelayerWorld) : RelayerResult RelayerWorld := do
  require (authority = none ∨ ∃ a ∈ accs, authority = some a.pubkey) .authorityNotInAccounts
  invokeSigned rt programId ctx (authoritySeeds bump)
    ⟨program, forwardMetas accs authority, discriminator ++ args⟩ w

/-- Nothing is transferred, and nothing called, for a zero amount. -/
def relayerSignedTransferChecked (rt : RelayerRuntime) (ctx : Context)
    (tokenProgram source mint dest authority : Pubkey) (bump : UInt8) (amount : UInt64)
    (decimals : UInt8) (w : RelayerWorld) : RelayerResult RelayerWorld :=
  if amount = 0 then .ok w
  else invokeSigned rt programId ctx (authoritySeeds bump)
    (transferCheckedIx tokenProgram source mint dest authority amount decimals) w

/-- The SPL `Approve` both approving helpers build by hand. -/
def approveInstruction (tokenProgram source delegate authority : Pubkey) (amount : UInt64) :
    Instruction where
  programId := tokenProgram
  accounts := [⟨source, false, true⟩, ⟨delegate, false, false⟩, ⟨authority, true, false⟩]
  data := splTokenApproveIxTag :: leBytes 8 amount.toNat

def approveNttSessionAuthority (rt : RelayerRuntime) (ctx : Context)
    (tokenProgram source authority : Pubkey) (bump : UInt8) (sessionAuthority : Pubkey)
    (amount : UInt64) (w : RelayerWorld) : RelayerResult RelayerWorld := do
  require (∃ a ∈ ctx.remaining, a.pubkey = sessionAuthority) .missingSessionAuthority
  invokeSigned rt programId ctx (authoritySeeds bump)
    (approveInstruction tokenProgram source sessionAuthority authority amount) w

def approveSwapDelegate (rt : RelayerRuntime) (ctx : Context)
    (tokenProgram source authority : Pubkey) (bump : UInt8) (delegate : Pubkey)
    (amount : UInt64) (w : RelayerWorld) : RelayerResult RelayerWorld :=
  invokeSigned rt programId ctx (authoritySeeds bump)
    (approveInstruction tokenProgram source delegate authority amount) w

def revokeRelayerDelegate (rt : RelayerRuntime) (ctx : Context)
    (tokenProgram source authority : Pubkey) (bump : UInt8) (w : RelayerWorld) :
    RelayerResult RelayerWorld :=
  invokeSigned rt programId ctx (authoritySeeds bump)
    { programId := tokenProgram
      accounts := [⟨source, false, true⟩, ⟨authority, true, false⟩]
      data := [splTokenRevokeIxTag] } w

end FogoYield.Relayer
