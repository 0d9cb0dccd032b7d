import FogoYield.Verification.Intent.ReferenceChain

/-! # No signed message is executed twice

Each signer has one nonce for the transfers within the chain and one for the bridge, and signs for
both with the same key: what keeps the two apart is the first line of the message. -/

namespace FogoYield.Intent

open FogoYield.Library FogoYield.Solana

variable {K : Crates} {rt : IntentRuntime}

/-! ## Nonces -/

theorem nonceKey_ne_config (hl : rt.AddressLaws) (c : Rail × Pubkey) {ctx : Context}
    {accs : ConfigAccounts} {seeds : List Bytes} {d : IntentData} {act : Action}
    (ha : act.configured = some (ctx, accs, seeds, d))
    (hk : accs.config = (rt.findProgramAddress seeds programId).1) :
    nonceKey rt c.1.seed c.2 ≠ accs.config := by
  intro he
  obtain ⟨hfee, hntt⟩ := c.1.seed_ne_config
  cases act with
  | registerNttConfig ctx accs nttManager =>
      cases ha
      exact hntt (keyed_inj hl (he.trans hk)).1
  | registerFeeConfig ctx accs feeConfig =>
      cases ha
      exact hfee (keyed_inj hl (he.trans hk)).1
  | updateFeeConfig ctx accs feeConfig =>
      cases ha
      exact hfee (keyed_inj hl (he.trans hk)).1
  | _ => cases ha

/-- Each executed message bears the number after its signer's last one on the same rail. -/
theorem nonces_sequenced (hl : Lawful rt) :
    Sequenced (fun w a w' => ForeignManagers w ∧ Step K rt w a w') (Action.executed K)
      Execution.counter (fun e => e.nonce.toNat) (nonceAt rt) where
  next := by
    rintro w act w' e ⟨hw, hstep⟩ he
    cases step_effect hl hw hstep with
    | executed e' hmessage hnext hwritten =>
        obtain rfl := Option.some.inj (hmessage.symm.trans he)
        refine ⟨hnext, ?_⟩
        funext c
        by_cases hc : c = e'.counter
        · subst hc
          rw [Function.update_self]
          exact nonceAt_of_stored hwritten.after
        · rw [Function.update_of_ne hc]
          exact nonceAt_congr (hwritten.others _ (fun hk => hc (nonceKey_inj hl.address hk)))
    | configured ctx accs seeds d hinstruction hmessage hspec => cases hmessage.symm.trans he
    | quiet hmessage hconfig hsame => cases hmessage.symm.trans he
  keeps := by
    rintro w act w' ⟨hw, hstep⟩ he
    funext c
    cases step_effect hl hw hstep with
    | executed e' hmessage hnext hwritten => cases he.symm.trans hmessage
    | configured ctx accs seeds d hinstruction hmessage hspec =>
        have hne := nonceKey_ne_config hl.address c hinstruction hspec.checked.address
        exact nonceAt_congr (hspec.rewritten.others _ hne)
    | quiet hmessage hconfig hsame => exact nonceAt_congr (hsame _)

/-- Over any run, the messages of a signer are executed under consecutive nonces on each rail. -/
theorem nonces_consecutive (hl : Lawful rt) {w₀ w : IntentWorld} {ts : List IntentTransition}
    (h₀ : ForeignManagers w₀) (hr : IntentRun K rt w₀ ts w) (rail : Rail) (signer : Pubkey) :
    nonceAt rt w₀ (rail, signer) ≤ nonceAt rt w (rail, signer) ∧
      ((accepted (Action.executed K) ts).filter (fun e => e.counter = (rail, signer))).map
          (fun e => e.nonce.toNat) =
        List.range' (nonceAt rt w₀ (rail, signer) + 1)
          (nonceAt rt w (rail, signer) - nonceAt rt w₀ (rail, signer)) :=
  (nonces_sequenced hl).numbers (run_foreignManagers hl h₀ hr) (rail, signer)

theorem nonces_consecutive_reference :
    ∃ ts w, IntentRun referenceCrates referenceRuntime genesis ts w ∧
      ts.map Transition.act = referenceActions ∧
      ((accepted (Action.executed referenceCrates) ts).filter
        (fun e => e.counter = (.intrachain, wallet))).map (fun e => e.nonce.toNat) = [1, 2] := by
  obtain ⟨ts, w, hr, hacts, harrived⟩ := reference_run
  obtain ⟨-, hnumbers⟩ := nonces_consecutive referenceRuntime_lawful
    genesis_ok.foreignManagers hr .intrachain wallet
  have hzero : nonceAt referenceRuntime genesis (.intrachain, wallet) = 0 := by decide +kernel
  rw [harrived.transfers, hzero] at hnumbers
  exact ⟨ts, w, hr, hacts, hnumbers⟩

/-! ## The first line -/

theorem prefix_of_messageTryFrom {I : Intents} {message : Bytes} {m : Message}
    (h : messageTryFrom I message = some m) : ∃ rest, message = utf8 messagePrefix ++ rest := by
  unfold messageTryFrom at h
  split at h
  · rename_i parsed rest hparse
    rw [messageV0] at hparse
    obtain ⟨u, rest, htag, -⟩ := Parser.bind_eq_some.mp hparse
    exact ⟨rest, Parser.tag_eq_some.mp htag⟩
  · cases h

theorem prefix_of_messageNttOf {I : Intents} {minor : ℕ} {recipientLine : Parser Recipient}
    {message : Bytes} {r : NttMessage × Bytes}
    (h : messageNttOf I minor recipientLine message = some r) :
    ∃ rest, message = utf8 bridgeMessagePrefix ++ rest := by
  rw [messageNttOf] at h
  obtain ⟨u, rest, htag, -⟩ := Parser.bind_eq_some.mp h
  exact ⟨rest, Parser.tag_eq_some.mp htag⟩

theorem prefix_of_bridgeMessageTryFrom {I : Intents} {message : Bytes} {m : BridgeMessage}
    (h : bridgeMessageTryFrom I message = some m) :
    ∃ rest, message = utf8 bridgeMessagePrefix ++ rest := by
  unfold bridgeMessageTryFrom at h
  split at h
  · rename_i parsed rest hparse
    unfold messageNtt Parser.alt at hparse
    split at hparse
    · rename_i r hv2
      exact prefix_of_messageNttOf hv2
    · exact prefix_of_messageNttOf hparse
  · cases h

/-- No message is one of both kinds. -/
theorem messages_apart {I : Intents} {message : Bytes} {m : Message} {b : BridgeMessage}
    (hm : messageTryFrom I message = some m) : bridgeMessageTryFrom I message ≠ some b := by
  intro hb
  obtain ⟨rest, hrest⟩ := prefix_of_messageTryFrom hm
  obtain ⟨rest', hrest'⟩ := prefix_of_bridgeMessageTryFrom hb
  have hlen : 6 ≤ (utf8 messagePrefix).length ∧ 6 ≤ (utf8 bridgeMessagePrefix).length := by
    decide +kernel
  have hhead : (utf8 messagePrefix).take 6 = (utf8 bridgeMessagePrefix).take 6 := by
    rw [← List.take_append_of_le_length hlen.1, ← List.take_append_of_le_length hlen.2, ← hrest,
      ← hrest']
  exact absurd hhead (by decide +kernel)

/-! ## Replays -/

/-- What a signed message is executed as, whatever instruction it is sent with. -/
def executionOf (K : Crates) (signed : SignedIntent) : Option Execution :=
  match transferExecution K signed with
  | some e => some e
  | none => bridgeExecution K signed

theorem executionOf_transfer {signed : SignedIntent} {e : Execution}
    (h : transferExecution K signed = some e) : executionOf K e.signed = some e := by
  obtain ⟨m, -, rfl⟩ := Option.map_eq_some_iff.mp h
  simp [executionOf, h]

theorem executionOf_bridge {signed : SignedIntent} {e : Execution}
    (h : bridgeExecution K signed = some e) : executionOf K e.signed = some e := by
  obtain ⟨⟨m⟩, hm, rfl⟩ := Option.map_eq_some_iff.mp h
  have hnone : transferExecution K signed = none := by
    rw [transferExecution, Option.map_eq_none_iff, Option.eq_none_iff_forall_ne_some]
    intro t ht
    exact messages_apart ht hm
  simp [executionOf, hnone, h]

theorem executionOf_executed {act : Action} {e : Execution} (h : act.executed K = some e) :
    executionOf K e.signed = some e := by
  cases act with
  | sendTokens ctx accs =>
      obtain ⟨signed, -, he⟩ := Option.bind_eq_some_iff.mp h
      exact executionOf_transfer he
  | sendNative ctx accs =>
      obtain ⟨signed, -, he⟩ := Option.bind_eq_some_iff.mp h
      exact executionOf_transfer he
  | bridgeNttTokens ctx accs args =>
      obtain ⟨signed, -, he⟩ := Option.bind_eq_some_iff.mp h
      exact executionOf_bridge he
  | _ => cases h

theorem executionOf_accepted {ts : List IntentTransition} {e : Execution}
    (h : e ∈ accepted (Action.executed K) ts) : executionOf K e.signed = some e := by
  obtain ⟨tr, -, he⟩ := List.mem_filterMap.mp h
  exact executionOf_executed he

/-- The signed messages that a run executes are distinct. -/
theorem signed_nodup (hl : Lawful rt) {w₀ w : IntentWorld} {ts : List IntentTransition}
    (h₀ : ForeignManagers w₀) (hr : IntentRun K rt w₀ ts w) :
    ((accepted (Action.executed K) ts).map Execution.signed).Nodup := by
  have hnodup : (accepted (Action.executed K) ts).Nodup :=
    .of_map _ ((nonces_sequenced hl).nodup (run_foreignManagers hl h₀ hr))
  -- a signed message says by itself what it is executed as
  have hdetermined : (accepted (Action.executed K) ts).map some =
      ((accepted (Action.executed K) ts).map Execution.signed).map (executionOf K) := by
    rw [List.map_map]
    exact List.map_congr_left (fun e he => (executionOf_accepted he).symm)
  apply List.Nodup.of_map (executionOf K)
  rw [← hdetermined]
  exact hnodup.map (Option.some_injective _)

/-- Over any run, no message is executed twice for one signer: not by the same instruction, nor by
another one of the program, nor with other accounts. -/
theorem no_replay (hl : Lawful rt) {w₀ w : IntentWorld} {ts : List IntentTransition}
    (h₀ : ForeignManagers w₀) (hr : IntentRun K rt w₀ ts w) :
    ts.Pairwise (fun tr tr' => ∀ e e', tr.act.executed K = some e → tr'.act.executed K = some e' →
      e.signed ≠ e'.signed) :=
  pairwise_of_accepted (signed_nodup hl h₀ hr)

theorem no_replay_reference :
    ∃ ts w, IntentRun referenceCrates referenceRuntime genesis ts w ∧
      ts.map Transition.act = referenceActions ∧
      ts.Pairwise (fun tr tr' => ∀ e e', tr.act.executed referenceCrates = some e →
        tr'.act.executed referenceCrates = some e' → e.signed ≠ e'.signed) := by
  obtain ⟨ts, w, hr, hacts, -⟩ := reference_run
  exact ⟨ts, w, hr, hacts, no_replay referenceRuntime_lawful genesis_ok.foreignManagers hr⟩

end FogoYield.Intent
