import FogoYield.Verification.Relayer.Effects
import FogoYield.Verification.Relayer.Reference

/-! # The life of a flow

From the `receive` that creates it to the `send` or `refund` that closes it, a flow account is
swapped at most once and keeps everything but its amount and status. -/

namespace FogoYield.Relayer

open FogoYield.Library FogoYield.Solana

/-! ## What is done to one flow -/

/-- A `swap` of the flow at `k`. -/
def Action.swaps (k : Pubkey) : Action → Bool
  | .swap _ accs _ => decide (accs.flow = k)
  | _ => false

/-- A `send` of the flow at `k`. -/
def Action.sends (k : Pubkey) : Action → Bool
  | .send _ accs _ => decide (accs.flow = k)
  | _ => false

/-- A `refund` of the flow at `k`. -/
def Action.refunds (k : Pubkey) : Action → Bool
  | .refund _ accs _ => decide (accs.flow = k)
  | _ => false

/-- A `receive` into the flow at `k`. -/
def Action.opens (k : Pubkey) : Action → Bool
  | .receive _ accs _ => decide (accs.flow = k)
  | _ => false

def Action.closes (k : Pubkey) (act : Action) : Bool := act.sends k || act.refunds k

def swapCount (k : Pubkey) (ts : List RelayerTransition) : ℕ := ts.countP (fun tr => tr.act.swaps k)

theorem swapCount_snoc (k : Pubkey) (ts : List RelayerTransition) (tr : RelayerTransition) :
    swapCount k (ts ++ [tr]) = swapCount k ts + if tr.act.swaps k then 1 else 0 := by
  rw [swapCount, List.countP_append, List.countP_singleton]
  rfl

/-- The fields of a flow that nothing writes after its creation. -/
structure SameFlow (f f' : Flow) : Prop where
  recipient : f'.recipient = f.recipient
  direction : f'.direction = f.direction
  minSwapOut : f'.minSwapOut = f.minSwapOut
  payer : f'.payer = f.payer
  bump : f'.bump = f.bump
  receivedSlot : f'.receivedSlot = f.receivedSlot

theorem SameFlow.refl (f : Flow) : SameFlow f f := ⟨rfl, rfl, rfl, rfl, rfl, rfl⟩

theorem SameFlow.trans {f f' f'' : Flow} (h : SameFlow f f') (h' : SameFlow f' f'') :
    SameFlow f f'' :=
  ⟨h'.1.trans h.1, h'.2.trans h.2, h'.3.trans h.3, h'.4.trans h.4, h'.5.trans h.5, h'.6.trans h.6⟩

/-- An action that is none of the four is quiet about the flow. -/
theorem Action.not_flowKey {k : Pubkey} {act : Action} (h : act.flowKey ≠ some k) :
    act.swaps k = false ∧ act.sends k = false ∧ act.refunds k = false ∧ act.opens k = false := by
  cases act <;>
    simp_all [Action.flowKey, Action.swaps, Action.sends, Action.refunds, Action.opens]

/-! ## The invariant of an open flow -/

/-- A flow that was created as `f₀` and has since seen the transitions `ts`: swapped as often as
its status says, and still whole when it was not. -/
structure Alive (k : Pubkey) (f₀ f : Flow) (ts : List RelayerTransition) : Prop where
  same : SameFlow f₀ f
  phase : f.status = .received ∧ f.amount = f₀.amount ∧ swapCount k ts = 0 ∨
    f.status = .swapped ∧ swapCount k ts = 1

theorem Alive.of_received {k : Pubkey} {f₀ f : Flow} {ts : List RelayerTransition}
    (h : Alive k f₀ f ts) (hs : f.status = .received) :
    f.amount = f₀.amount ∧ swapCount k ts = 0 := by
  rcases h.phase with ⟨-, h⟩ | ⟨hs', -⟩
  · exact h
  · rw [hs] at hs'
    cases hs'

theorem Alive.of_swapped {k : Pubkey} {f₀ f : Flow} {ts : List RelayerTransition}
    (h : Alive k f₀ f ts) (hs : f.status = .swapped) : swapCount k ts = 1 := by
  rcases h.phase with ⟨hs', -⟩ | ⟨-, h⟩
  · rw [hs] at hs'
    cases hs'
  · exact h

theorem alive_step {env : Env} {k : Pubkey} {w w' : RelayerWorld} {act : Action} {f₀ f : Flow}
    {ts : List RelayerTransition} (he : Effect env w act w')
    (hf : flowAt w.accounts k = some f) (ha : Alive k f₀ f ts) (hopen : act.closes k = false) :
    ∃ f', flowAt w'.accounts k = some f' ∧ Alive k f₀ f' (ts ++ [⟨w, act, w'⟩]) := by
  cases he.flowStep k with
  | kept hkey heq =>
      refine ⟨f, heq.trans hf, ha.same, ?_⟩
      have hcount : swapCount k (ts ++ [⟨w, act, w'⟩]) = swapCount k ts := by
        simp [swapCount_snoc, (Action.not_flowKey hkey).1]
      rw [hcount]
      exact ha.phase
  | received _ _ hnone _ => simp [hnone] at hf
  | swapped hk hs hbefore hafter =>
      obtain rfl := Option.some.inj (hbefore.symm.trans hf)
      have hzero := (ha.of_received hs.status).2
      refine ⟨_, hafter, ha.same.trans ⟨rfl, rfl, rfl, rfl, rfl, rfl⟩, .inr ⟨rfl, ?_⟩⟩
      simp [swapCount_snoc, hzero, Action.swaps, hk]
  | sent hk _ _ _ _ => simp [Action.closes, Action.sends, hk] at hopen
  | refunded hk _ _ _ _ _ => simp [Action.closes, Action.refunds, hk] at hopen

/-- An open flow stays `Alive` for as long as nothing closes it. -/
theorem alive_run {env : Env} (hl : env.Lawful) {k : Pubkey} {w w' : RelayerWorld} {f₀ : Flow}
    {ts : List RelayerTransition} (hp : Pinned env w) (hf : flowAt w.accounts k = some f₀)
    (hs : f₀.status = .received) (hr : RelayerRun env w ts w')
    (hopen : ∀ tr ∈ ts, tr.act.closes k = false) :
    ∃ f, flowAt w'.accounts k = some f ∧ Alive k f₀ f ts := by
  induction hr with
  | nil => exact ⟨f₀, hf, .refl f₀, .inl ⟨hs, rfl, rfl⟩⟩
  | snoc hr hstep ih =>
      obtain ⟨f, hfw, ha⟩ := ih (fun tr htr => hopen tr (List.mem_append_left _ htr))
      have hlast := hopen _ (List.mem_append_right _ (List.mem_singleton_self _))
      exact alive_step (hstep.effect hl (run_effects hl hp hr).1) hfw ha hlast

/-! ## Closing -/

/-- The account at `k` was closed and all of its lamports went to `payer`. -/
def RentReturned (k payer : Pubkey) (w w' : RelayerWorld) : Prop :=
  ∃ v : RelayerWorld, flowAt v.accounts k = flowAt w.accounts k ∧ w' = closeAccount k payer v ∧
    (payer ≠ k → (w'.accounts payer).lamports =
      (v.accounts payer).lamports + (v.accounts k).lamports ∧ (w'.accounts k).lamports = 0)

theorem OutboundSpec.rentReturned {env : Env} (hl : env.Lawful) {w w' : RelayerWorld}
    {ctx : Context} {accs : OutboundAccounts} {count : UInt8} {loaded : FlowLoaded}
    {nttProgram fromAta : Pubkey} {event : Event} {w₁ w₂ w₃ : RelayerWorld}
    (hp : nttProgram ≠ programId)
    (h : OutboundSpec env.runtime ctx accs count w w' loaded nttProgram fromAta event w₁ w₂ w₃) :
    RentReturned accs.flow loaded.flow.payer w w' := by
  have hq := quiet_of_calls hl (h.bridged.calls h.load.token_program hp)
  refine ⟨w₃.emit event, ?_, ?_, ?_⟩
  · exact congrArg (Option.bind · RelayerData.asFlow) (hq.views accs.flow)
  · rw [h.result, h.rent]
  · intro hne
    rw [h.result, h.rent]
    exact closeAccount_lamports _ hne

/-- The calls a `send` or `refund` makes, in order. -/
theorem OutboundSpec.cpis_eq {rt : RelayerRuntime} {w w' : RelayerWorld} {ctx : Context}
    {accs : OutboundAccounts} {count : UInt8} {loaded : FlowLoaded} {nttProgram fromAta : Pubkey}
    {event : Event} {w₁ w₂ w₃ : RelayerWorld}
    (h : OutboundSpec rt ctx accs count w w' loaded nttProgram fromAta event w₁ w₂ w₃) :
    w'.cpis = w.cpis ++
      [approveIx accs.tokenProgram fromAta
        (deriveSessionAuthority rt nttProgram accs.relayerAuthority loaded.flow.transferArgs).1
        accs.relayerAuthority loaded.flow.amount,
      ⟨nttProgram, forwardMetas (ctx.remaining.take count.toNat) (some accs.relayerAuthority),
        nttTransferLockIx ++ loaded.flow.transferArgs.serialize⟩,
      ⟨nttProgram, forwardMetas (ctx.remaining.drop count.toNat) none,
        nttReleaseWormholeOutboundIx ++ [boolByte false]⟩] := by
  have hw' : w'.cpis = w₃.cpis := by rw [h.result]; rfl
  rw [hw', h.bridged.publish.cpis_eq, h.bridged.lock.cpis_eq, h.bridged.approve.cpis_eq]
  simp

theorem SameFlow.transferArgs {f f' : Flow} (h : SameFlow f f') (ha : f'.amount = f.amount) :
    f'.transferArgs = f.transferArgs := by
  simp [Flow.transferArgs, h.recipient, ha]

/-! ## The lifecycle -/

/-- What the next transition `tr` can do to a flow at `k` that was created as `f₀`, is now `f` and
has seen the transitions `mid`. -/
structure NextOfFlow (k : Pubkey) (f₀ f : Flow) (mid : List RelayerTransition)
    (tr : RelayerTransition) : Prop where
  same : SameFlow f₀ f
  not_reopened : tr.act.opens k = false
  kept : tr.act.closes k = false → ∃ f', flowAt tr.post.accounts k = some f' ∧ SameFlow f₀ f' ∧
    (tr.act.swaps k = false → f' = f)
  swap_once : tr.act.swaps k = true → swapCount k mid = 0
  send_after_swap : tr.act.sends k = true → swapCount k mid = 1 ∧
    flowAt tr.post.accounts k = none ∧ RentReturned k f₀.payer tr.pre tr.post
  refund_unswapped : tr.act.refunds k = true → swapCount k mid = 0 ∧
    f₀.receivedSlot.toNat + refundTimeoutSlots.toNat ≤ tr.pre.clock.slot.toNat ∧
    f.amount = f₀.amount ∧
    (∃ p metas approve publish, tr.post.cpis = tr.pre.cpis ++
      [approve, ⟨p, metas, nttTransferLockIx ++ f₀.transferArgs.serialize⟩, publish]) ∧
    flowAt tr.post.accounts k = none ∧ RentReturned k f₀.payer tr.pre tr.post

theorem nextOfFlow {env : Env} (hl : env.Lawful) {k : Pubkey} {f₀ f : Flow}
    {mid : List RelayerTransition} {tr : RelayerTransition} (hp : Pinned env tr.pre)
    (he : Effect env tr.pre tr.act tr.post) (hf : flowAt tr.pre.accounts k = some f)
    (ha : Alive k f₀ f mid) : NextOfFlow k f₀ f mid tr := by
  obtain ⟨w, act, w'⟩ := tr
  dsimp only at hp he hf ⊢
  cases he.flowStep k with
  | kept hkey heq =>
      obtain ⟨hswap, hsend, hrefund, hopen⟩ := Action.not_flowKey hkey
      exact ⟨ha.same, hopen, fun _ => ⟨f, heq.trans hf, ha.same, fun _ => rfl⟩,
        by simp [hswap], by simp [hsend], by simp [hrefund]⟩
  | received _ _ hnone _ => simp [hnone] at hf
  | swapped hk hs hbefore hafter =>
      obtain rfl := Option.some.inj (hbefore.symm.trans hf)
      refine ⟨ha.same, rfl, fun _ => ⟨_, hafter, ha.same.trans ⟨rfl, rfl, rfl, rfl, rfl, rfl⟩, ?_⟩,
        fun _ => (ha.of_received hs.status).2, by simp [Action.sends], by simp [Action.refunds]⟩
      simp [Action.swaps, hk]
  | sent hk hstatus hs hbefore hafter =>
      obtain rfl := Option.some.inj (hbefore.symm.trans hf)
      subst hk
      have hrent := hs.rentReturned hl
        (hl.ntt_ne_programId (hp.sendNttProgram hs.load.config_at _))
      rw [ha.same.payer] at hrent
      exact ⟨ha.same, rfl, by simp [Action.closes, Action.sends], by simp [Action.swaps],
        fun _ => ⟨ha.of_swapped hstatus, hafter, hrent⟩, by simp [Action.refunds]⟩
  | refunded hk hstatus hslot hs hbefore hafter =>
      obtain rfl := Option.some.inj (hbefore.symm.trans hf)
      subst hk
      have hrent := hs.rentReturned hl
        (hl.ntt_ne_programId (hp.receiveNttProgram hs.load.config_at _))
      obtain ⟨hamount, hcount⟩ := ha.of_received hstatus
      have hcpis := hs.cpis_eq
      rw [ha.same.payer] at hrent
      rw [ha.same.receivedSlot] at hslot
      rw [ha.same.transferArgs hamount] at hcpis
      exact ⟨ha.same, rfl, by simp [Action.closes, Action.refunds], by simp [Action.swaps],
        by simp [Action.sends],
        fun _ => ⟨hcount, hslot, hamount, ⟨_, _, _, _, hcpis⟩, hafter, hrent⟩⟩

end FogoYield.Relayer
