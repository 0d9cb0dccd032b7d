import Mathlib.Algebra.BigOperators.Group.Finset.Basic
import FogoYield.Model.Relayer.Program

/-! # User inboxes

NTT pays a message into the token account of its recipient, an address of the relayer that nobody
has a key of. These are the documented facts about such an account that the clients of the relayer
rely on. -/

namespace FogoYield.Relayer

open FogoYield.Library FogoYield.Solana

/-- The inbox of a user and a floor. -/
def userInbox (rt : RelayerRuntime) (userWallet : Pubkey) (minSwapOut : UInt64) : Pubkey :=
  (rt.findProgramAddress (userInboxSeeds userWallet minSwapOut) programId).1

/-- The token account of an inbox, for a mint of the classic token program. -/
def inboxAta (rt : RelayerRuntime) (inbox mint : Pubkey) : Pubkey := rt.ata inbox mint tokenProgram

/-- What the managers of `mint` have released to `inbox` for the item at `k`. -/
def releasedTo (env : Env) (inbox mint : Pubkey) (a : RelayerAccounts) (k : Pubkey) : ℕ :=
  if env.nttMint (a k).owner = some mint then
    match InboxItem.tryLoad (a k).bytes with
    | .ok i =>
      if i.releaseStatus = .released ∧ i.recipientAddress = inbox then i.amount.toNat else 0
    | .error _ => 0
  else 0

/-- Nothing but a signature of the inbox takes tokens out of its account, once there is one. -/
def Locked (env : Env) (inbox mint : Pubkey) (a : RelayerAccounts) : Prop :=
  ∀ t, tokenAt a (inboxAta env.runtime inbox mint) = some t →
    t.owner = inbox ∧ t.delegatedAmount = 0 ∧ t.closeAuthority = none

/-- The mint, once there is one, is of the classic token program. -/
def Classic (mint : Pubkey) (a : RelayerAccounts) : Prop :=
  ∀ m, mintAt a mint = some m → (a mint).owner = tokenProgram

/-- What holds for a call of another program that the inbox did not sign. Anyone can have an
associated token account created: it is its wallet's, with no delegate and no close authority. A
manager that releases an item pays its amount into the associated token account of the
recipient. -/
structure InboxLaws (env : Env) : Prop where
  created : ∀ {ix clock a a'}, env.runtime.invoke ix clock a = some a' → ∀ inbox mint t,
    ¬ ix.Signs inbox → tokenAt a (inboxAta env.runtime inbox mint) = none →
    tokenAt a' (inboxAta env.runtime inbox mint) = some t →
    t.owner = inbox ∧ t.delegatedAmount = 0 ∧ t.closeAuthority = none
  paid : ∀ {ix clock a a'}, env.runtime.invoke ix clock a = some a' → ix.programId ≠ programId →
    ∀ inbox mint, (∃ seeds, env.runtime.createProgramAddress seeds programId = some inbox) →
    ¬ ix.Signs inbox → Classic mint a' → Locked env inbox mint a → ∀ S : Finset Pubkey,
      ∑ k ∈ S, releasedTo env inbox mint a' k + balance a (inboxAta env.runtime inbox mint) ≤
        ∑ k ∈ S, releasedTo env inbox mint a k + balance a' (inboxAta env.runtime inbox mint)

end FogoYield.Relayer
