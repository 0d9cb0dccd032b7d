import FogoYield.Model.Crossing.Chains
import FogoYield.Verification.Intent.Calls
import FogoYield.Verification.Intent.Nonces
import FogoYield.Verification.Relayer.Binding
import FogoYield.Verification.Sdk.Addresses

/-! # The signature behind a flow

A flow on Solana is opened for the wallet and the floor of a message that the intent program
executed before on FOGO, and for the amount it burned there. -/

namespace FogoYield.Crossing

open FogoYield.Library FogoYield.Solana
open FogoYield.Intent
open FogoYield.Relayer hiding Action Step Genesis intentTransferSeed programId

variable {C : Chains} {B : Bridge}

/-! ## Burns -/

theorem serialize_inj {a b : TransferArgs} (h : a.serialize = b.serialize) : a = b := by
  obtain ⟨hfront, hqueue⟩ := List.append_inj' h rfl
  rw [List.append_assoc, List.append_assoc] at hfront
  obtain ⟨hamount, hrest⟩ := List.append_inj hfront (by simp)
  obtain ⟨hchain, haddress⟩ := List.append_inj hrest (by simp)
  cases a
  cases b
  simp only [TransferArgs.mk.injEq]
  refine ⟨UInt64.toNat_inj.mp (leBytes_inj (UInt64.toNat_lt _) (UInt64.toNat_lt _) hamount),
    UInt16.toNat_inj.mp (leBytes_inj (UInt16.toNat_lt _) (UInt16.toNat_lt _) hchain), haddress, ?_⟩
  rename_i q _ _ _ q'
  cases q <;> cases q' <;> simp_all [Intent.boolByte]

/-- The bridges that the intent program has executed, in their order. -/
def bridges (ts : List ChainsTransition) : List IntentTransition :=
  (ts.filterMap Transition.onLeft).filter (fun tr => tr.act.isBridge)

/-- A burn that the program has made so far is the one of the bridge at its place. -/
theorem bridge_of_burn {w₀ w : ChainsWorld} (hg : C.Genesis w₀) {ts : List ChainsTransition}
    (hr : ChainsRun C w₀ ts w) {n : ℕ} {ix : Instruction} (hn : (burns w.1)[n]? = some ix) :
    ∃ b, (bridges ts)[n]? = some b ∧ Asks C.crates C.fogo b ix := by
  obtain ⟨asked, hburns, hasks⟩ := burns_of_run hr.onLeft
  have hnone : burns w₀.1 = [] := by simp [burns, hg.fogo.no_calls]
  rw [hburns, hnone, List.nil_append] at hn
  obtain ⟨hlt, rfl⟩ := List.getElem?_eq_some_iff.mp hn
  have hlt' : n < (bridges ts).length := hasks.length_eq ▸ hlt
  exact ⟨_, List.getElem?_eq_getElem hlt', hasks.get hlt' hlt⟩

/-! ## The intent behind a flow -/

/-- What the signer named as the recipient is where the flow's tokens came in. -/
def Names (C : Chains) (recipient : Recipient) (signer : Pubkey) (f : Flow) : Prop :=
  match recipient with
  | .minOut floor => f.recipient = signer ∧ f.minSwapOut = floor
  | .address text => parseRecipientAddress text = some (C.inbox f.recipient f.minSwapOut).bytes

/-- The flow is what the message executed by `b` asked for: the signed amount of its mint, burned at
the peer of the flow's manager, for the recipient it names. -/
def SignedBy (C : Chains) (B : Bridge) (manager : Pubkey) (f : Flow) (b : IntentTransition) :
    Prop :=
  ∃ ix ctx accs args signed m source mint transferArgs,
    BurnFor C.crates C.fogo b ix ctx accs args signed m source mint transferArgs ∧
    accs.ntt.nttManager = B.peer manager ∧ f.amount = B.credited manager transferArgs.amount ∧
    Names C m.recipient signed.signer f

theorem names_of_resolved (hl : C.Lawful) {recipient : Recipient} {signer : Pubkey} {f : Flow}
    (h : resolveRecipient (addresses C.fogo) recipient signer =
      some (C.inbox f.recipient f.minSwapOut).bytes) : Names C recipient signer f := by
  cases recipient with
  | address text => exact h
  | minOut floor =>
      have hinbox : (C.inbox signer floor).bytes = (C.inbox f.recipient f.minSwapOut).bytes := by
        rw [resolveRecipient, Sdk.relayerProgramId_eq.1, Sdk.recipientSeeds_eq] at h
        rw [← Option.some.inj h, Chains.inbox, ← hl.derivation]
        rfl
      have hkey : C.inbox signer floor = C.inbox f.recipient f.minSwapOut := by
        rw [← Pubkey.mk.injEq] at hinbox
        exact hinbox
      obtain ⟨hw, hm⟩ := userInbox_inj hl.solana.address hkey
      exact ⟨hw.symm, hm.symm⟩

/-- A `receive` that opens `f`: the manager validated the message and keeps the item for it, and the
item holds the amount of `f` for the inbox of its wallet and floor. -/
structure Opens (C : Chains) (tr : ChainsTransition) (accs : ReceiveAccounts) (manager : Pubkey)
    (m : TransceiverMessage) (item : InboxItem) (f : Flow) : Prop where
  reads : Receives tr accs manager m item
  validated : m.sender = C.setter.bytes → Validated C tr accs manager m
  flow_at : flowAt tr.post.2.accounts accs.flow = some f
  amount : f.amount = item.amount
  recipient : item.recipientAddress = C.inbox f.recipient f.minSwapOut

/-- The flow that a `receive` opens is for what it read of NTT, which it has checked to belong
together. -/
theorem opens_of_receive (hl : C.Lawful) {w₀ : ChainsWorld} (hg : C.Genesis w₀)
    {before : List ChainsTransition} {tr : ChainsTransition} (hr : ChainsRun C w₀ before tr.pre)
    (hstep : C.Step tr.pre tr.act tr.post) {ctx : Context} {accs : ReceiveAccounts}
    {args : ReceiveArgs} (hact : tr.act = .inr (.receive ctx accs args)) :
    ∃ manager m item f, Opens C tr accs manager m item f := by
  have hpin := (run_effects hl.solana hg.solana.pinned hr.onRight).1
  rw [hact] at hstep
  have he := hstep.onRight.effect hl.solana hpin
  cases he.flowStep accs.flow with
  | kept hkey _ => simp [Relayer.Action.flowKey] at hkey
  | received _ hs _ hafter =>
      have hp := hpin.receiveNttProgram hs.config_at args.direction
      obtain ⟨m, hauth, htaken⟩ := receive_item hl.solana hp hs
      obtain ⟨c', hbound⟩ := flowBound_of_receive hl.solana hpin he hs
      refine ⟨_, m, _, _, ⟨⟨ctx, args, _, hact, hs.config_at, rfl⟩, hauth.message,
        receive_item_after hl.solana hp hs htaken.item_at⟩, ?_, hafter, rfl, hbound.recipient⟩
      intro hsender
      exact ⟨hauth.owner, hauth.address, hauth.from_chain, hsender⟩

/-- A `receive` reads one message and one item. -/
theorem Receives.unique {tr : ChainsTransition} {accs : ReceiveAccounts} {p p' : Pubkey}
    {m m' : TransceiverMessage} {item item' : InboxItem} (h : Receives tr accs p m item)
    (h' : Receives tr accs p' m' item') : p = p' ∧ m = m' ∧ item = item' := by
  obtain ⟨ctx, args, c, hact, hc, rfl⟩ := h.action
  obtain ⟨ctx', args', c', hact', hc', rfl⟩ := h'.action
  cases hact.symm.trans hact'
  obtain rfl := Option.some.inj (hc.symm.trans hc')
  exact ⟨rfl, Option.some.inj (h.message.symm.trans h'.message),
    Option.some.inj (h.item_at.symm.trans h'.item_at)⟩

/-- A delivered flow is what a message executed before on FOGO asked for. -/
theorem signed_of_delivered (hl : C.Lawful) {w₀ w : ChainsWorld} (hg : C.Genesis w₀)
    {ts : List ChainsTransition} (hr : ChainsRun C w₀ ts w) {manager : Pubkey}
    {m : TransceiverMessage} {item : InboxItem} {f : Flow} (hd : Delivered B w.1 manager m item)
    (hamount : f.amount = item.amount)
    (hrecipient : item.recipientAddress = C.inbox f.recipient f.minSwapOut) :
    ∃ b, (bridges ts)[B.origin manager m]? = some b ∧ SignedBy C B manager f b := by
  obtain ⟨ix, sent, hn, hpeer, hdata, haddress, hcredited⟩ := hd.burned
  obtain ⟨b, hb, ctx, accs, args, signed, nm, source, mint, transferArgs, hburn⟩ :=
    bridge_of_burn hg hr hn
  -- the arguments of the burn can be read off its data
  have hargs : sent = transferArgs := by
    apply serialize_inj
    rw [hburn.burn] at hdata
    exact (List.append_cancel_left hdata).symm
  subst hargs
  refine ⟨b, hb, ix, ctx, accs, args, signed, nm, source, mint, sent, hburn, ?_, ?_, ?_⟩
  · rw [← hpeer, hburn.burn]
    rfl
  · rw [hamount, hcredited]
  · apply names_of_resolved hl
    rw [hburn.recipient, ← haddress, hrecipient]

/-! ## Runs of both chains -/

/-- The flow at `k` was opened in `ts` for an item that names `wallet` and `floor`; and if it came
from the intent program, then on a message that the program had executed by then. -/
def OpenedFor (C : Chains) (B : Bridge) (ts : List ChainsTransition) (k wallet : Pubkey)
    (floor : UInt64) : Prop :=
  ∃ before tr after accs manager m item f, ts = before ++ tr :: after ∧
    Opens C tr accs manager m item f ∧ accs.flow = k ∧ f.recipient = wallet ∧
    f.minSwapOut = floor ∧ item.recipientAddress = C.inbox wallet floor ∧
    (m.sender = C.setter.bytes → ∃ b ∈ bridges before, SignedBy C B manager f b)

theorem OpenedFor.snoc {ts : List ChainsTransition} {k wallet : Pubkey} {floor : UInt64}
    (h : OpenedFor C B ts k wallet floor) (last : ChainsTransition) :
    OpenedFor C B (ts ++ [last]) k wallet floor := by
  obtain ⟨before, tr, after, accs, manager, m, item, f, rfl, hopened⟩ := h
  exact ⟨before, tr, after ++ [last], accs, manager, m, item, f, by simp, hopened⟩

theorem Carries.of_append {ts us : List ChainsTransition} (h : Carries C B (ts ++ us)) :
    Carries C B ts where
  delivered tr htr := h.delivered tr (List.mem_append_left _ htr)
  once tr htr tr' htr' := h.once tr (List.mem_append_left _ htr) tr' (List.mem_append_left _ htr')

theorem openedFor_of_receive (tr : ChainsTransition) (hl : C.Lawful) {w₀ : ChainsWorld}
    (hg : C.Genesis w₀) {before : List ChainsTransition} (hr : ChainsRun C w₀ before tr.pre)
    (hstep : C.Step tr.pre tr.act tr.post) (hB : Carries C B (before ++ [tr])) {ctx : Context}
    {accs : ReceiveAccounts} {args : ReceiveArgs} {f : Flow}
    (hact : tr.act = .inr (.receive ctx accs args))
    (hf : flowAt tr.post.2.accounts accs.flow = some f) :
    OpenedFor C B (before ++ [tr]) accs.flow f.recipient f.minSwapOut := by
  obtain ⟨manager, m, item, f', hopens⟩ := opens_of_receive hl hg hr hstep hact
  obtain rfl := Option.some.inj (hopens.flow_at.symm.trans hf)
  refine ⟨before, tr, [], accs, manager, m, item, f', rfl, hopens, rfl, rfl, rfl,
    hopens.recipient, ?_⟩
  intro hsender
  have hdelivered := hB.delivered tr (by simp) accs manager m item hopens.reads
    (hopens.validated hsender)
  obtain ⟨b, hb, hsigned⟩ :=
    signed_of_delivered hl hg hr hdelivered hopens.amount hopens.recipient
  exact ⟨b, List.mem_of_getElem? hb, hsigned⟩

/-- In every run, each open flow was opened for the wallet and the floor it carries. -/
theorem run_openedFor (hl : C.Lawful) {w₀ w : ChainsWorld} (hg : C.Genesis w₀)
    {ts : List ChainsTransition} (hr : ChainsRun C w₀ ts w) (hB : Carries C B ts) {k : Pubkey}
    {f : Flow} (hf : flowAt w.2.accounts k = some f) :
    OpenedFor C B ts k f.recipient f.minSwapOut := by
  induction hr generalizing f with
  | nil => simp [hg.solana.flowAt_none k] at hf
  | @snoc u v act ts hr hst ih =>
      have hB' := hB.of_append
      cases act with
      | inl act =>
          have hsame : v.2 = u.2 := by
            cases hst
            rfl
          rw [hsame] at hf
          exact (ih hB' hf).snoc _
      | inr act =>
          have hpin := (run_effects hl.solana hg.solana.pinned hr.onRight).1
          cases (hst.onRight.effect hl.solana hpin).flowStep k with
          | kept _ heq => exact (ih hB' (heq ▸ hf)).snoc _
          | received hk _ _ _ =>
              subst hk
              exact openedFor_of_receive ⟨u, .inr (.receive _ _ _), v⟩ hl hg hr hst hB rfl hf
          | swapped _ _ hbefore hafter =>
              obtain rfl := Option.some.inj (hafter.symm.trans hf)
              exact (ih hB' hbefore).snoc _
          | sent _ _ _ _ hnone => simp [hnone] at hf
          | refunded _ _ _ _ _ hnone => simp [hnone] at hf

end FogoYield.Crossing
