import FogoYield.Solana.Program

/-! # State of the relayer program

`programs/relayer/src/state.rs`, with the constants, errors and events it is written with. -/

namespace FogoYield.Relayer

open FogoYield.Library FogoYield.Solana

/-- The bytes of a byte-string literal. -/
def ascii (s : String) : Bytes := s.toList.map (fun c => UInt8.ofNat c.toNat)

/-- `declare_id!`. -/
def programId : Pubkey :=
  ⟨[11, 252, 145, 27, 178, 97, 47, 252, 28, 88, 160, 121, 182, 32, 41, 123,
    239, 217, 227, 112, 59, 6, 13, 87, 164, 87, 168, 86, 245, 223, 7, 125]⟩

/-! ## Constants -/

def fogoWormholeChainId : UInt16 := 51

def relayerSeed : Bytes := ascii "relayer"
def userInboxSeed : Bytes := ascii "user_inbox"
def intentTransferSeed : Bytes := ascii "intent_transfer"
def nttSessionAuthoritySeed : Bytes := ascii "session_authority"
def globalConfigSeed : Bytes := ascii "global_config"
def pairConfigSeed : Bytes := ascii "relayer_config"
def inboundSeed : Bytes := ascii "inflight"
def outboundSeed : Bytes := ascii "outflight"

/-- Slots a `received` flow must age before `refund` returns the original token. -/
def refundTimeoutSlots : UInt64 := 54000

/-- Minimum slot delay for a fee increase. -/
def feeTimelockSlots : UInt64 := 432000

def maxFeeBps : UInt16 := 1000

/-! ## Errors -/

inductive RelayerError where
  | invalidAccountSplit
  | authorityNotInAccounts
  | zeroFogoSender
  | unauthorizedAuthority
  | flowStatusMismatch
  | balanceUnderflow
  | zeroAmountFlow
  | feeBpsTooHigh
  | feeOverflow
  | missingSessionAuthority
  | invalidTransceiverMessage
  | transceiverMessageMismatch
  | inboxItemMismatch
  | recipientAtaMismatch
  | feeVaultAliasesUserAta
  | noPendingAuthority
  | pendingAuthorityMismatch
  | emptyPendingFee
  | wrongOriginChain
  | userInboxAuthorityMismatch
  | unexpectedFogoSender
  | invalidInboxItem
  | insufficientInboxBalance
  | pendingAuthorityIsCurrent
  | ataAuthorityTampered
  | inputConsumedMismatch
  | outputBelowFloor
  | swapAccountNotAllowed
  | relayerAuthorityTampered
  | badNttProgram
  | badReceiveMint
  | refundTooEarly
  | zeroMinSwapOut
  | badConfig
  | arithmeticOverflow
  | unauthorizedAdmin
  | noPendingAdmin
  | pendingAdminMismatch
  | pendingAdminIsCurrent
  deriving DecidableEq

abbrev RelayerResult (α : Type) := Result RelayerError α

/-! ## Accounts -/

structure GlobalConfig where
  admin : Pubkey
  bump : UInt8
  pendingAdmin : Option Pubkey
  deriving DecidableEq

structure PendingFee where
  depositFeeBps : Option UInt16
  withdrawFeeBps : Option UInt16
  readySlot : UInt64
  deriving DecidableEq

structure PairConfig where
  baseMint : Pubkey
  assetMint : Pubkey
  authority : Pubkey
  feeVault : Pubkey
  nttBaseProgram : Pubkey
  nttAssetProgram : Pubkey
  intentPrograms : Pubkey × Pubkey
  depositFeeBps : UInt16
  withdrawFeeBps : UInt16
  relayerAuthorityBump : UInt8
  bump : UInt8
  pendingAuthority : Option Pubkey
  pendingFee : Option PendingFee
  deriving DecidableEq

inductive FlowStatus where
  | received
  | swapped
  deriving DecidableEq

inductive Direction where
  | deposit
  | withdraw
  deriving DecidableEq

structure Flow where
  recipient : Pubkey
  status : FlowStatus
  amount : UInt64
  payer : Pubkey
  bump : UInt8
  direction : Direction
  minSwapOut : UInt64
  receivedSlot : UInt64
  deriving DecidableEq

/-- The account types of the program, told apart by their discriminators. -/
inductive RelayerData where
  | globalConfig (g : GlobalConfig)
  | pairConfig (c : PairConfig)
  | flow (f : Flow)
  deriving DecidableEq

def RelayerData.asGlobalConfig : RelayerData → Option GlobalConfig
  | .globalConfig g => some g
  | _ => none

def RelayerData.asPairConfig : RelayerData → Option PairConfig
  | .pairConfig c => some c
  | _ => none

def RelayerData.asFlow : RelayerData → Option Flow
  | .flow f => some f
  | _ => none

/-- `8 + T::INIT_SPACE` of each account type. -/
def globalConfigSpace : ℕ := 8 + 130
def pairConfigSpace : ℕ := 8 + 374
def flowSpace : ℕ := 8 + 91

/-! ## Events -/

inductive Event where
  | received (flow nttInboxItem recipient : Pubkey) (direction : Direction) (amount : UInt64)
  | swapped (flow : Pubkey) (direction : Direction) (grossIn fee netOut floor : UInt64)
      (swapProgram : Pubkey)
  | sent (flow nttInboxItem recipient : Pubkey) (direction : Direction) (amount : UInt64)
  | refunded (flow nttInboxItem recipient : Pubkey) (direction : Direction) (amount : UInt64)
  deriving DecidableEq

abbrev RelayerWorld := World RelayerData Event
abbrev RelayerRuntime := Runtime RelayerData
abbrev RelayerAccounts := Accounts RelayerData

def globalConfigAt (a : RelayerAccounts) (k : Pubkey) : Option GlobalConfig :=
  (programAt programId a k).bind RelayerData.asGlobalConfig

def pairConfigAt (a : RelayerAccounts) (k : Pubkey) : Option PairConfig :=
  (programAt programId a k).bind RelayerData.asPairConfig

def flowAt (a : RelayerAccounts) (k : Pubkey) : Option Flow :=
  (programAt programId a k).bind RelayerData.asFlow

/-! ## Fees -/

/-- The two fee legs: the field a `leg` closure of `propose_fee_change` points at. -/
inductive Leg where
  | deposit
  | withdraw
  deriving DecidableEq

def PendingFee.leg (p : PendingFee) : Leg → Option UInt16
  | .deposit => p.depositFeeBps
  | .withdraw => p.withdrawFeeBps

def PendingFee.setLeg (p : PendingFee) (v : Option UInt16) : Leg → PendingFee
  | .deposit => { p with depositFeeBps := v }
  | .withdraw => { p with withdrawFeeBps := v }

def PendingFee.isEmpty (p : PendingFee) : Bool :=
  p.depositFeeBps.isNone && p.withdrawFeeBps.isNone

def checkedAdd (x y : UInt64) : Option UInt64 :=
  if x.toNat + y.toNat < 2 ^ 64 then some (x + y) else none

def checkedSub (x y : UInt64) : Option UInt64 :=
  if y ≤ x then some (x - y) else none

/-- A staged fee, if there is one, is bounded like a live one. -/
def checkStagedFee : Option UInt16 → RelayerResult Unit
  | none => return ()
  | some bps => require (bps ≤ maxFeeBps) .feeBpsTooHigh

def PairConfig.validate (c : PairConfig) : RelayerResult Unit := do
  require (c.depositFeeBps ≤ maxFeeBps) .feeBpsTooHigh
  require (c.withdrawFeeBps ≤ maxFeeBps) .feeBpsTooHigh
  match c.pendingFee with
  | none => return ()
  | some p =>
    require (p.isEmpty = false) .emptyPendingFee
    checkStagedFee p.depositFeeBps
    checkStagedFee p.withdrawFeeBps

/-- Promote ripe staged fees; runs at the top of `configure`. -/
def PairConfig.promotePendingFeeIfReady (c : PairConfig) (now : UInt64) : PairConfig :=
  match c.pendingFee with
  | none => c
  | some p =>
    if now < p.readySlot then c
    else { c with
      depositFeeBps := p.depositFeeBps.getD c.depositFeeBps
      withdrawFeeBps := p.withdrawFeeBps.getD c.withdrawFeeBps
      pendingFee := none }

/-- A proposal at or below the live fee applies at once and clears its leg; a higher one is
staged, and the shared `readySlot` only ever moves later. Returns the live fee and the bundle. -/
def proposeFeeChange (proposed live : UInt16) (bundle : Option PendingFee) (leg : Leg)
    (now : UInt64) : RelayerResult (UInt16 × Option PendingFee) :=
  if proposed ≤ live then
    match bundle with
    | none => return (proposed, none)
    | some p =>
      let p := p.setLeg none leg
      return (proposed, if p.isEmpty then none else some p)
  else do
    let newReady ← liftOption (checkedAdd now feeTimelockSlots) .feeOverflow
    let p := bundle.getD ⟨none, none, newReady⟩
    let p := { p with readySlot := max p.readySlot newReady }
    return (live, some (p.setLeg (some proposed) leg))

def PairConfig.proposeDepositFee (c : PairConfig) (proposed : UInt16) (now : UInt64) :
    RelayerResult PairConfig := do
  let (live, bundle) ← proposeFeeChange proposed c.depositFeeBps c.pendingFee .deposit now
  return { c with depositFeeBps := live, pendingFee := bundle }

def PairConfig.proposeWithdrawFee (c : PairConfig) (proposed : UInt16) (now : UInt64) :
    RelayerResult PairConfig := do
  let (live, bundle) ← proposeFeeChange proposed c.withdrawFeeBps c.pendingFee .withdraw now
  return { c with withdrawFeeBps := live, pendingFee := bundle }

/-- `(net, fee)` with `fee = floor(gross * bps / 10000)`. -/
def applyFeeBps (gross : UInt64) (bps : UInt16) : RelayerResult (UInt64 × UInt64) := do
  -- the product of a `u64` and a `u16` fits in the `u128` it is computed in
  let product := gross.toNat * bps.toNat
  require (product < 2 ^ 128) .feeOverflow
  let fee := product / 10000
  require (fee < 2 ^ 64) .feeOverflow
  let net ← liftOption (checkedSub gross (UInt64.ofNat fee)) .feeOverflow
  require (0 < net) .zeroAmountFlow
  return (net, UInt64.ofNat fee)

def PairConfig.applyDepositFee (c : PairConfig) (gross : UInt64) :
    RelayerResult (UInt64 × UInt64) :=
  applyFeeBps gross c.depositFeeBps

def PairConfig.applyWithdrawFee (c : PairConfig) (gross : UInt64) :
    RelayerResult (UInt64 × UInt64) :=
  applyFeeBps gross c.withdrawFeeBps

/-! ## Direction-selected fields -/

/-- NTT manager of the token a `receive` pulls in and a `refund` returns. -/
def PairConfig.receiveNttProgram (c : PairConfig) : Direction → Pubkey
  | .deposit => c.nttBaseProgram
  | .withdraw => c.nttAssetProgram

/-- NTT manager of the token a `send` pushes out. -/
def PairConfig.sendNttProgram (c : PairConfig) : Direction → Pubkey
  | .deposit => c.nttAssetProgram
  | .withdraw => c.nttBaseProgram

/-- `Flow::seed`. -/
def Flow.seed : Direction → Bytes
  | .deposit => inboundSeed
  | .withdraw => outboundSeed

end FogoYield.Relayer
