import FogoYield.Verification.Relayer.Inbox

/-! # Items that are done with

An inbox item is finished when a flow was received for it, that flow was sent or refunded, and no
flow is open for it. Seen from the accounts alone, it is finished if it has been received and its
flow is gone. -/

namespace FogoYield.Relayer

open FogoYield.Library FogoYield.Solana

/-- The flow of an item under a pair and a direction. -/
def itemFlow (rt : RelayerRuntime) (direction : Direction) (pair item : Pubkey) : Pubkey :=
  (rt.findProgramAddress (flowSeeds direction pair item) programId).1

/-- A `receive` of the item into the flow at `k`. -/
def Receives (item k : Pubkey) (tr : RelayerTransition) : Prop :=
  ∃ ctx accs args, tr.act = .receive ctx accs args ∧ accs.nttInboxItem = item ∧ accs.flow = k

/-- A flow was received for the item and then sent or refunded, and none is open. -/
structure Finished (env : Env) (ts : List RelayerTransition) (w : RelayerWorld) (item : Pubkey) :
    Prop where
  ended : ∃ before opened mid closed after k,
    ts = before ++ opened :: mid ++ closed :: after ∧ Receives item k opened ∧
      closed.act.closes k = true
  none_open : ∀ d pair, flowAt w.accounts (itemFlow env.runtime d pair item) = none

section

variable {env : Env} {ts : List RelayerTransition} {w w' : RelayerWorld} {item : Pubkey}

theorem Receives.takes {k : Pubkey} {tr : RelayerTransition} (h : Receives item k tr) :
    tr.act.takes item = true := by
  obtain ⟨ctx, accs, args, hact, hitem, -⟩ := h
  simp [hact, Action.takes, hitem]

theorem exists_receives_of_taken (h : taken ts item = true) : ∃ tr ∈ ts, ∃ k, Receives item k tr := by
  obtain ⟨tr, htr, htakes⟩ := List.any_eq_true.mp h
  refine ⟨tr, htr, ?_⟩
  cases hact : tr.act with
  | receive ctx accs args =>
      rw [hact] at htakes
      exact ⟨accs.flow, ctx, accs, args, hact, of_decide_eq_true htakes, rfl⟩
  | _ =>
      rw [hact] at htakes
      cases htakes

theorem Finished.taken (h : Finished env ts w item) : taken ts item = true := by
  obtain ⟨before, opened, mid, closed, after, k, rfl, hopened, -⟩ := h.ended
  exact List.any_eq_true.mpr ⟨opened, by simp, hopened.takes⟩

/-- Nothing but a `receive` of the item opens a flow for it. -/
theorem flowAt_of_not_takes (hl : env.Lawful) {act : Action} (he : Effect env w act w')
    (hact : act.takes item = false)
    (h : ∀ d pair, flowAt w.accounts (itemFlow env.runtime d pair item) = none) (d : Direction)
    (pair : Pubkey) : flowAt w'.accounts (itemFlow env.runtime d pair item) = none := by
  have hnone := h d pair
  cases he.flowStep (itemFlow env.runtime d pair item) with
  | kept _ heq => exact heq.trans hnone
  | received hk hs _ _ =>
      have haddress := congrArg Prod.fst hs.flow_address
      obtain ⟨-, -, hitem⟩ := flow_inj hl.address (haddress.trans hk)
      simp [Action.takes, hitem] at hact
  | swapped _ _ hbefore _ | sent _ _ _ hbefore _ | refunded _ _ _ _ hbefore _ =>
      rw [hnone] at hbefore
      cases hbefore

theorem finished_step (hl : env.Lawful) {act : Action} (he : Effect env w act w')
    (hact : act.takes item = false) (h : Finished env ts w item) :
    Finished env (ts ++ [⟨w, act, w'⟩]) w' item := by
  refine ⟨?_, flowAt_of_not_takes hl he hact h.none_open⟩
  obtain ⟨before, opened, mid, closed, after, k, rfl, hopened, hclosed⟩ := h.ended
  exact ⟨before, opened, mid, closed, after ++ [⟨w, act, w'⟩], k, by simp, hopened, hclosed⟩

end

/-! ## A flow that is gone -/

section

variable {env : Env} {w₀ w : RelayerWorld} {ts : List RelayerTransition}
variable {item pair : Pubkey} {c : PairConfig} {d : Direction}

/-- A `receive` of an item of the manager of a pair's leg is one under this pair and leg. -/
theorem receive_leg (hl : env.Lawful) (hg : Genesis env w₀) {before after : List RelayerTransition}
    {tr : RelayerTransition} (hr : RelayerRun env w₀ (before ++ tr :: after) w)
    (hmanagers : ∀ u ∈ before ++ tr :: after, OwnManagers env u)
    (hc : pairConfigAt w.accounts pair = some c)
    (hitem : ∃ seeds, (env.runtime.findProgramAddress seeds (c.receiveNttProgram d)).1 = item)
    {k : Pubkey} (h : Receives item k tr) :
    k = itemFlow env.runtime d pair item ∧ (w.accounts item).owner = c.receiveNttProgram d ∧
      ∃ f, flowAt tr.post.accounts k = some f ∧ f.status = .received := by
  obtain ⟨ctx, accs, args, hact, rfl, rfl⟩ := h
  obtain ⟨hbefore, hstep, hafter⟩ := hr.split
  have hpin := (run_effects hl hg.pinned hbefore).1
  have he := hstep.effect hl hpin
  have hpin' := he.pinned hpin
  have hsplit := he.flowStep accs.flow
  rw [hact] at hsplit
  cases hsplit with
  | kept hkey _ => simp [Action.flowKey] at hkey
  | received _ hs _ hopened =>
      have hp := hpin.receiveNttProgram hs.config_at args.direction
      obtain ⟨m, hauth, htaken⟩ := receive_item hl hp hs
      have hafterItem := receive_item_after hl hp hs htaken.item_at
      obtain ⟨i, hi, -⟩ := (run_ambient hl hpin' hafter).item _ hp _ _ hafterItem
      -- the manager of the item is the one of the leg
      obtain ⟨c', hc', hstat⟩ := run_pair_kept hl hpin (hafter.cons hstep) hs.config_at
      obtain ⟨seeds, hseeds⟩ := hitem
      have hmanager := hl.address.find_program (hauth.address.symm.trans hseeds.symm)
      obtain ⟨hpair, hdir⟩ := pair_of_manager hl hg hr hmanagers hc' hc
        ((hstat.receiveNttProgram _).trans hmanager)
      refine ⟨?_, ?_, _, hopened, rfl⟩
      · have haddress := congrArg Prod.fst hs.flow_address
        rw [hpair, hdir] at haddress
        exact haddress.symm
      · rw [← hmanager]
        exact (inboxItemAt_eq_some.mp hi).1

/-- A flow for an item of the leg's manager is the leg's own. -/
theorem itemFlow_leg (hl : env.Lawful) (hg : Genesis env w₀) (hr : RelayerRun env w₀ ts w)
    (hmanagers : ∀ tr ∈ ts, OwnManagers env tr) (hc : pairConfigAt w.accounts pair = some c)
    (howner : (w.accounts item).owner = c.receiveNttProgram d) {d' : Direction} {pair' : Pubkey}
    {f : Flow} (hf : flowAt w.accounts (itemFlow env.runtime d' pair' item) = some f) :
    pair' = pair ∧ d' = d := by
  obtain ⟨pair₁, item₁, c₁, i₁, hb⟩ := run_flowsBound hl hg hr _ _ hf
  have haddress : itemFlow env.runtime f.direction pair₁ item₁ =
      itemFlow env.runtime d' pair' item := by rw [itemFlow, hb.address]
  obtain ⟨rfl, rfl, rfl⟩ := flow_inj hl.address haddress
  exact pair_of_manager hl hg hr hmanagers hb.config_at hc
    ((inboxItemAt_eq_some.mp hb.item_at).1.symm.trans howner)

/-- An item that has been received and has no flow under its manager's pair is finished. -/
theorem finished_of_missing (hl : env.Lawful) (hg : Genesis env w₀) (hr : RelayerRun env w₀ ts w)
    (hmanagers : ∀ tr ∈ ts, OwnManagers env tr) (hc : pairConfigAt w.accounts pair = some c)
    (hitem : ∃ seeds, (env.runtime.findProgramAddress seeds (c.receiveNttProgram d)).1 = item)
    (htaken : taken ts item = true)
    (hmissing : flowAt w.accounts (itemFlow env.runtime d pair item) = none) :
    Finished env ts w item := by
  obtain ⟨opened, hmem, k, hopened⟩ := exists_receives_of_taken htaken
  obtain ⟨before, after, rfl⟩ := List.append_of_mem hmem
  obtain ⟨rfl, howner, f, hf, hstatus⟩ := receive_leg hl hg hr hmanagers hc hitem hopened
  refine ⟨?_, ?_⟩
  · by_contra hnot
    obtain ⟨hbefore, hstep, hafter⟩ := hr.split
    have hpin := (run_effects hl hg.pinned hbefore).1
    obtain ⟨f', hf', -⟩ := alive_run hl ((hstep.effect hl hpin).pinned hpin) hf hstatus hafter
      (fun tr htr => by
        by_contra hcloses
        obtain ⟨mid, rest, rfl⟩ := List.append_of_mem htr
        exact hnot ⟨before, opened, mid, tr, rest, _, by simp, hopened, by simpa using hcloses⟩)
    rw [hmissing] at hf'
    cases hf'
  · intro d' pair'
    cases hf' : flowAt w.accounts (itemFlow env.runtime d' pair' item) with
    | none => rfl
    | some f' =>
        obtain ⟨rfl, rfl⟩ := itemFlow_leg hl hg hr hmanagers hc howner hf'
        rw [hmissing] at hf'
        cases hf'

end

/-! ## An account that was emptied -/

/-- Every `receive` of the history is the first of its item, and the item is paid out. -/
def TakesPaid (env : Env) (before : List RelayerTransition) (tr : RelayerTransition) : Prop :=
  ∀ ctx accs args, tr.act = .receive ctx accs args →
    taken before accs.nttInboxItem = false ∧ PaidOut env tr.pre accs args

/-- The inboxes as the program finds them: what was released to one is in its account. -/
def FreshInboxes (env : Env) (w₀ : RelayerWorld) : Prop :=
  ∀ userWallet minSwapOut mint, Classic mint w₀.accounts →
    Held env (userInbox env.runtime userWallet minSwapOut) mint [] w₀.accounts

/-- If the account of an inbox holds less than a released item, the item has been received. -/
theorem taken_of_short {env : Env} (hl : env.Lawful) (hi : InboxLaws env) {w₀ w : RelayerWorld}
    {ts : List RelayerTransition} (hg : Genesis env w₀) (hfresh : FreshInboxes env w₀)
    (hr : RelayerRun env w₀ ts w) (hmanagers : ∀ tr ∈ ts, OwnManagers env tr)
    {userWallet : Pubkey} {minSwapOut : UInt64}
    (hsign : ∀ tr ∈ ts, ¬ tr.act.SignedBy (userInbox env.runtime userWallet minSwapOut))
    (hpaid : ∀ before tr after, ts = before ++ tr :: after → TakesPaid env before tr)
    {p mint item : Pubkey} {i : InboxItem} (hp : env.nttMint p = some mint)
    (hclassic : Classic mint w.accounts) (hitem : inboxItemAt p w.accounts item = some i)
    (hreleased : i.releaseStatus = .released)
    (hrecipient : i.recipientAddress = userInbox env.runtime userWallet minSwapOut)
    (hshort : balance w.accounts (inboxAta env.runtime i.recipientAddress mint) < i.amount.toNat) :
    taken ts item = true := by
  by_contra hnot
  have hstart := hclassic.of_ambient (run_ambient hl hg.pinned hr)
  have hheld := run_held hl hi hg hr hmanagers hclassic hsign
    (fun before tr after hts ctx accs args hact _ => hpaid before tr after hts ctx accs args hact)
    (hfresh userWallet minSwapOut mint hstart)
  have hle := hheld.backed.claim_le item
  rw [unsettled, if_neg hnot, releasedTo_of_item hp hitem, if_pos ⟨rfl, hreleased, hrecipient⟩,
    ← hrecipient] at hle
  omega

end FogoYield.Relayer
