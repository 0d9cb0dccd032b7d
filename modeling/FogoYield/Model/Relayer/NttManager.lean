import FogoYield.Model.Relayer.Ntt
import FogoYield.Solana.Laws

/-! # What is assumed of an NTT manager

The manager's code is not part of the repository. These are the documented facts the relayer
relies on: which accounts `redeem` reads and what it checks, how an inbox item moves from
approval to release, and that tokens leave an account only through a delegation. -/

namespace FogoYield.Relayer

open FogoYield.Library FogoYield.Solana

/-- A validated transceiver message, as NTT reads it from its account. -/
structure TransceiverMessage where
  fromChain : UInt16
  id : Bytes
  sender : Bytes
  amount : UInt64
  decimals : UInt8
  sourceToken : Bytes
  toAddress : Bytes
  toChain : UInt16
  deriving DecidableEq

/-- The Borsh layout of the account: discriminator, origin chain, the two managers' addresses
and the message. -/
def TransceiverMessage.decode (data : Bytes) : Option TransceiverMessage :=
  if data.take 8 = validatedTransceiverMessageDisc ∧ 213 ≤ data.length then
    some
      { fromChain := UInt16.ofNat (ofLeBytes (slice data 8 2))
        id := slice data 74 32
        sender := slice data 106 32
        amount := UInt64.ofNat (ofLeBytes (slice data 138 8))
        decimals := UInt8.ofNat (ofLeBytes (slice data 146 1))
        sourceToken := slice data 147 32
        toChain := UInt16.ofNat (ofLeBytes (slice data 179 2))
        toAddress := slice data 181 32 }
  else none

/-- The canonical wire encoding: id, sender, and the length-prefixed native token transfer. -/
def TransceiverMessage.wire (m : TransceiverMessage) : Bytes :=
  let transfer := [0x99, 0x4E, 0x54, 0x54] ++ [m.decimals] ++ beBytes 8 m.amount.toNat ++
    m.sourceToken ++ m.toAddress ++ beBytes 2 m.toChain.toNat
  m.id ++ m.sender ++ beBytes 2 transfer.length ++ transfer

/-- The inbox item address of a message under a manager. -/
def inboxItemAddress (rt : RelayerRuntime) (manager : Pubkey) (m : TransceiverMessage) : Pubkey :=
  (rt.findProgramAddress
    [inboxItemSeed, rt.keccak (beBytes 2 m.fromChain.toNat ++ m.wire)] manager).1

def tokenAuthority (rt : RelayerRuntime) (manager : Pubkey) : Pubkey :=
  (rt.findProgramAddress [ascii "token_authority"] manager).1

/-- The inbox item an account of manager `p` holds. -/
def inboxItemAt (p : Pubkey) (a : RelayerAccounts) (k : Pubkey) : Option InboxItem :=
  if (a k).owner = p then
    match InboxItem.tryLoad (a k).bytes with
    | .ok item => some item
    | .error _ => none
  else none

/-- How far an item has come. -/
def ReleaseStatus.stage : ReleaseStatus → ℕ
  | .notApproved => 0
  | .releaseAfterDelay _ => 1
  | .released => 2

/-- An item's amount and recipient are written once, and its release status only advances. -/
structure InboxItem.Evolves (i j : InboxItem) : Prop where
  amount : j.amount = i.amount
  recipient : j.recipientAddress = i.recipientAddress
  stage : i.releaseStatus.stage ≤ j.releaseStatus.stage

/-- The release time an inbound rate limiter gives a message: a function of the limiter's account,
the clock and the message. -/
abbrev RateLimiter := Bytes → Clock → TransceiverMessage → UInt64

/-- The bytes of the rate-limit account of a message's origin chain. -/
def rateLimitState (rt : RelayerRuntime) (p : Pubkey) (a : RelayerAccounts)
    (m : TransceiverMessage) : Bytes :=
  (a (deriveNttInboxRateLimit rt p m.fromChain).1).bytes

/-- A successful `redeem`: the accounts are read by position, the peer is the one of the
message's origin chain, the inbox item is the one of the message, it was not approved before, and
it is now due when the rate limiter says. No token moves. -/
structure RedeemSpec (rt : RelayerRuntime) (limiter : RateLimiter) (p : Pubkey)
    (accs : List AccountMeta) (clock : Clock) (a a' : RelayerAccounts) (vtm itemKey : Pubkey)
    (m : TransceiverMessage) (item : InboxItem) : Prop where
  vtm_at : keyAt accs 3 = some vtm
  item_at : keyAt accs 6 = some itemKey
  peer_at : keyAt accs 2 = some (deriveNttPeer rt p m.fromChain).1
  message : TransceiverMessage.decode (a vtm).bytes = some m
  address : itemKey = inboxItemAddress rt p m
  fresh : ∀ i, inboxItemAt p a itemKey = some i → i.releaseStatus = .notApproved
  item_after : inboxItemAt p a' itemKey = some item
  recipient : item.recipientAddress = ⟨m.toAddress⟩
  status : item.releaseStatus = .releaseAfterDelay (limiter (rateLimitState rt p a m) clock m)
  tokens : ∀ k, tokenAt a' k = tokenAt a k

/-- A successful `release_inbound_unlock` with `revert_on_delay = false`: an item that is due is
paid out to the account in the recipient slot and marked released; any other is left alone. -/
structure ReleaseSpec (p : Pubkey) (accs : List AccountMeta) (clock : Clock)
    (a a' : RelayerAccounts) (itemKey recipient : Pubkey) (item item' : InboxItem) : Prop where
  item_at : keyAt accs 2 = some itemKey
  recipient_at : keyAt accs 3 = some recipient
  item_before : inboxItemAt p a itemKey = some item
  item_after : inboxItemAt p a' itemKey = some item'
  outcome : match item.releaseStatus with
    | .notApproved => item' = item ∧ balance a' recipient = balance a recipient
    | .releaseAfterDelay due =>
      if clock.unixTimestamp < due then
        item' = item ∧ balance a' recipient = balance a recipient
      else item' = { item with releaseStatus := .released } ∧
        balance a' recipient = balance a recipient + item.amount.toNat
    | .released => False

/-- The behaviour of an NTT manager program `p`. -/
structure NttLaws (rt : RelayerRuntime) (limiter : RateLimiter) (p : Pubkey) : Prop where
  ne_programId : p ≠ programId
  ne_system : p ≠ systemProgram
  ne_token : ¬ IsTokenProgram p
  guarded : ∀ {ix clock a a'}, ix.programId = p → rt.invoke ix clock a = some a' →
    ∀ k t, tokenAt a k = some t → t.owner ≠ tokenAuthority rt p → Keeps a a' k t
  redeem : ∀ {accs clock a a'}, rt.invoke ⟨p, accs, nttRedeemIx⟩ clock a = some a' →
    ∃ vtm itemKey m item, RedeemSpec rt limiter p accs clock a a' vtm itemKey m item
  release : ∀ {accs clock a a'},
    rt.invoke ⟨p, accs, nttReleaseInboundUnlockIx ++ [boolByte false]⟩ clock a = some a' →
    ∃ itemKey recipient item item', ReleaseSpec p accs clock a a' itemKey recipient item item'
  item : ∀ {ix clock a a'}, rt.invoke ix clock a = some a' → ∀ k i, inboxItemAt p a k = some i →
    ∃ j, inboxItemAt p a' k = some j ∧ i.Evolves j

theorem InboxItem.Evolves.refl (i : InboxItem) : i.Evolves i := ⟨rfl, rfl, le_refl _⟩

theorem InboxItem.Evolves.trans {i j k : InboxItem} (h : i.Evolves j) (h' : j.Evolves k) :
    i.Evolves k :=
  ⟨h'.amount.trans h.amount, h'.recipient.trans h.recipient, h.stage.trans h'.stage⟩

theorem inboxItemAt_eq_some {p : Pubkey} {a : RelayerAccounts} {k : Pubkey} {i : InboxItem} :
    inboxItemAt p a k = some i ↔ (a k).owner = p ∧ InboxItem.tryLoad (a k).bytes = .ok i := by
  unfold inboxItemAt
  split
  · cases InboxItem.tryLoad (a k).bytes <;> simp_all
  · simp_all

theorem inboxItemAt_of_sameData {p : Pubkey} {a a' : RelayerAccounts} {k : Pubkey}
    (h : SameData a a' k) : inboxItemAt p a' k = inboxItemAt p a k := by
  simp only [inboxItemAt, h.1, h.bytes]

end FogoYield.Relayer
