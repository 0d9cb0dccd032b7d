import FogoYield.Model.Sdk.Vaa
import FogoYield.Verification.Relayer.Authentication

/-! # One message, two encodings

The inbox item's keccak preimage is the same whether it is built on chain from the Borsh account
or off chain from the VAA, and it determines the message. -/

namespace FogoYield.Sdk

open FogoYield.Library FogoYield.Solana
open FogoYield.Relayer (RelayerRuntime TransceiverMessage slice)

/-! ## Reading fields back -/

theorem slice_append_right {l r : Bytes} {offset n : ℕ} (h : l.length ≤ offset) :
    slice (l ++ r) offset n = slice r (offset - l.length) n := by
  rw [slice, slice, List.drop_append, List.drop_eq_nil_of_le h, List.nil_append]

theorem slice_append_left {l r : Bytes} {n : ℕ} (h : l.length = n) : slice (l ++ r) 0 n = l := by
  simp [slice, ← h]

theorem slice_self {l : Bytes} {n : ℕ} (h : l.length = n) : slice l 0 n = l := by
  simp [slice, ← h]

theorem slice_cons {b : UInt8} {l : Bytes} {offset n : ℕ} (h : 0 < offset) :
    slice (b :: l) offset n = slice l (offset - 1) n :=
  slice_append_right (l := [b]) h

theorem slice_head {b : UInt8} {l : Bytes} : slice (b :: l) 0 1 = [b] :=
  slice_append_left (l := [b]) rfl

theorem getUintBe_append_right {l r : Bytes} {offset width : ℕ} (h : l.length ≤ offset) :
    getUintBe (l ++ r) offset width = getUintBe r (offset - l.length) width := by
  rw [getUintBe, getUintBe, slice_append_right h]

theorem getUintBe_cons {b : UInt8} {l : Bytes} {offset width : ℕ} (h : 0 < offset) :
    getUintBe (b :: l) offset width = getUintBe l (offset - 1) width := by
  rw [getUintBe, getUintBe, slice_cons h]

theorem getUintBe_beBytes {r : Bytes} {width n : ℕ} (h : n < 256 ^ width) :
    getUintBe (beBytes width n ++ r) 0 width = n := by
  rw [getUintBe, slice_append_left (by simp), ofBeBytes_beBytes width n h]

theorem byteAt_append_right {l r : Bytes} {offset : ℕ} (h : l.length ≤ offset) :
    byteAt (l ++ r) offset = byteAt r (offset - l.length) := by
  rw [byteAt, byteAt, List.getElem?_append_right h]

theorem byteAt_head {b : UInt8} {l : Bytes} : byteAt (b :: l) 0 = b := rfl

/-! ## The two encodings of the message -/

/-- What the account holds, as NTT reads it. -/
def ValidatedTransceiverMessageParams.toMessage (p : ValidatedTransceiverMessageParams) :
    TransceiverMessage where
  fromChain := p.fromChain
  id := p.message.id.bytes
  sender := p.message.sender.bytes
  amount := p.message.trimmedAmount
  decimals := p.message.trimmedDecimals
  sourceToken := p.message.sourceToken.bytes
  toAddress := p.message.toAddress.bytes
  toChain := p.message.toChain

theorem length_disc : Relayer.validatedTransceiverMessageDisc.length = 8 := by decide

theorem length_serialize (p : ValidatedTransceiverMessageParams) :
    (serializeValidatedTransceiverMessage p).length = 213 := by
  simp [serializeValidatedTransceiverMessage, nttManagerMessageBorsh, nativeTokenTransferBorsh,
    length_disc]

theorem uint64_of_leBytes (n : UInt64) : UInt64.ofNat (ofLeBytes (leBytes 8 n.toNat)) = n := by
  rw [ofLeBytes_leBytes 8 n.toNat n.toNat_lt, UInt64.ofNat_toNat]

theorem uint16_of_leBytes (n : UInt16) : UInt16.ofNat (ofLeBytes (leBytes 2 n.toNat)) = n := by
  rw [ofLeBytes_leBytes 2 n.toNat n.toNat_lt, UInt16.ofNat_toNat]

theorem decode_serialize (p : ValidatedTransceiverMessageParams) :
    TransceiverMessage.decode (serializeValidatedTransceiverMessage p) = some p.toMessage := by
  have htake : (serializeValidatedTransceiverMessage p).take 8 =
      Relayer.validatedTransceiverMessageDisc := by
    simp only [serializeValidatedTransceiverMessage, List.append_assoc]
    exact List.take_left' length_disc
  rw [TransceiverMessage.decode, if_pos ⟨htake, (length_serialize p).ge⟩]
  simp (disch := simp [length_disc]) [serializeValidatedTransceiverMessage,
    nttManagerMessageBorsh, nativeTokenTransferBorsh, slice_append_right, slice_append_left,
    slice_self, slice_cons, slice_head, length_disc, uint64_of_leBytes, uint16_of_leBytes,
    ofLeBytes, ValidatedTransceiverMessageParams.toMessage]

theorem wire_toMessage (p : ValidatedTransceiverMessageParams) :
    p.toMessage.wire = nttManagerMessageWire p.message := rfl

theorem length_transferWire (p : NttManagerMessageParams) :
    (nativeTokenTransferWire p).length = 79 := by
  simp [nativeTokenTransferWire, nativeTokenTransferPrefix]

theorem length_wire (p : NttManagerMessageParams) : (nttManagerMessageWire p).length = 145 := by
  simp [nttManagerMessageWire, length_transferWire]

/-! ## Decoding -/

theorem throwIf_of_not {c : Prop} [Decidable c] {e : VaaError} (h : ¬ c) :
    throwIf c e = .ok () := if_neg h

/-- The message as the SDK returns it. -/
def NttManagerMessageParams.parsed (p : NttManagerMessageParams) : ParsedNttManagerMessage where
  id := p.id.bytes
  sender := p.sender.bytes
  trimmedAmount := p.trimmedAmount.toNat
  trimmedDecimals := p.trimmedDecimals
  sourceToken := p.sourceToken.bytes
  toAddress := p.toAddress.bytes
  toChain := p.toChain.toNat

theorem getUintBe_self {width n : ℕ} (h : n < 256 ^ width) :
    getUintBe (beBytes width n) 0 width = n := by
  rw [getUintBe, slice_self (by simp), ofBeBytes_beBytes width n h]

/-- The fields of the inner transfer at their wire offsets. -/
theorem transferWire_fields (p : NttManagerMessageParams) :
    slice (nativeTokenTransferWire p) 0 4 = nativeTokenTransferPrefix ∧
      byteAt (nativeTokenTransferWire p) 4 = p.trimmedDecimals ∧
      getUintBe (nativeTokenTransferWire p) 5 8 = p.trimmedAmount.toNat ∧
      slice (nativeTokenTransferWire p) 13 32 = p.sourceToken.bytes ∧
      slice (nativeTokenTransferWire p) 45 32 = p.toAddress.bytes ∧
      getUintBe (nativeTokenTransferWire p) 77 2 = p.toChain.toNat := by
  have hpre : nativeTokenTransferPrefix.length = 4 := by decide
  have hamount : p.trimmedAmount.toNat < 256 ^ 8 := p.trimmedAmount.toNat_lt
  have hchain : p.toChain.toNat < 256 ^ 2 := p.toChain.toNat_lt
  refine ⟨?_, ?_, ?_, ?_, ?_, ?_⟩ <;>
    simp (disch := first | assumption | simp [hpre]) [nativeTokenTransferWire, hpre,
      slice_append_left, slice_append_right, slice_cons, byteAt_append_right, byteAt_head,
      getUintBe_append_right, getUintBe_cons, getUintBe_beBytes, getUintBe_self]

theorem parseNttManagerMessage_wire (p : NttManagerMessageParams) :
    parseNttManagerMessage (nttManagerMessageWire p) = .ok p.parsed := by
  have hlen : getUintBe (nttManagerMessageWire p) 64 2 = 79 := by
    simp (disch := simp) [nttManagerMessageWire, length_transferWire, getUintBe_append_right,
      getUintBe_beBytes]
  have hid : slice (nttManagerMessageWire p) 0 32 = p.id.bytes := by
    simp (disch := simp) [nttManagerMessageWire, slice_append_left]
  have hsender : slice (nttManagerMessageWire p) 32 32 = p.sender.bytes := by
    simp (disch := simp) [nttManagerMessageWire, slice_append_left, slice_append_right]
  have hinner : slice (nttManagerMessageWire p) 66 79 = nativeTokenTransferWire p := by
    simp (disch := simp [length_transferWire]) [nttManagerMessageWire, slice_append_right,
      slice_self]
  obtain ⟨hpre, hdecimals, hamount, hsource, hto, hchain⟩ := transferWire_fields p
  simp [parseNttManagerMessage, throwIf, bind, Except.bind, pure, Except.pure, hlen, hid, hsender,
    hinner, length_wire, length_transferWire, hpre, hdecimals, hamount, hsource, hto, hchain,
    NttManagerMessageParams.parsed]

theorem parseTransceiverMessage_wire (e : VaaEnvelope) (p : ValidatedTransceiverMessageParams) :
    parseTransceiverMessage (transceiverWire e p) = .ok
      { sourceNttManager := p.sourceNttManager.bytes
        recipientNttManager := p.recipientNttManager.bytes
        nttManagerPayload := nttManagerMessageWire p.message
        transceiverPayload := e.transceiverPayload } := by
  have hpre : whTransceiverPrefix.length = 4 := by decide
  have hpayload : e.transceiverPayload.length < 256 ^ 2 := e.transceiverPayload_length
  have hlen : (transceiverWire e p).length = 217 + e.transceiverPayload.length := by
    simp [transceiverWire, hpre, length_wire]
    omega
  have hfields : slice (transceiverWire e p) 0 4 = whTransceiverPrefix ∧
      slice (transceiverWire e p) 4 32 = p.sourceNttManager.bytes ∧
      slice (transceiverWire e p) 36 32 = p.recipientNttManager.bytes ∧
      getUintBe (transceiverWire e p) 68 2 = 145 ∧
      slice (transceiverWire e p) 70 145 = nttManagerMessageWire p.message ∧
      getUintBe (transceiverWire e p) 215 2 = e.transceiverPayload.length ∧
      slice (transceiverWire e p) 217 e.transceiverPayload.length = e.transceiverPayload := by
    refine ⟨?_, ?_, ?_, ?_, ?_, ?_, ?_⟩ <;>
      simp (disch := first | assumption | simp [hpre, length_wire]) [transceiverWire, hpre,
        length_wire, slice_append_left, slice_append_right, slice_self, getUintBe_append_right,
        getUintBe_beBytes]
  obtain ⟨h0, hsource, hrecipient, hmgr, hmanager, hxcvr, hpay⟩ := hfields
  have hfits : ¬ 217 + e.transceiverPayload.length < 70 := by omega
  simp [parseTransceiverMessage, throwIf, bind, Except.bind, pure, Except.pure, hlen, h0, hsource,
    hrecipient, hmgr, hmanager, hxcvr, hpay, hfits]

/-- The signatures are read back one after another, whatever stands before and behind them. -/
theorem parseSignatures_append (signatures : List VaaSignature) (l r : Bytes) (i : ℕ) :
    parseSignatures (l ++ ((signatures.map VaaSignature.bytes).flatten ++ r)) signatures.length i
        l.length =
      .ok (signatures.map VaaSignature.bytes, l.length + 66 * signatures.length) := by
  induction signatures generalizing l i with
  | nil => simp [parseSignatures]
  | cons signature signatures ih =>
      have hnext := ih (l ++ signature.bytes) (i + 1)
      simp only [List.append_assoc, List.length_append, signature.length_eq] at hnext
      have hslice : slice (l ++ (signature.bytes ++
          ((signatures.map VaaSignature.bytes).flatten ++ r))) l.length 66 = signature.bytes := by
        rw [slice_append_right le_rfl, Nat.sub_self, slice_append_left signature.length_eq]
      have hfits : ¬ (l ++ (signature.bytes ++
          ((signatures.map VaaSignature.bytes).flatten ++ r))).length < l.length + 66 := by
        simp only [List.length_append, signature.length_eq]
        omega
      simp only [parseSignatures, List.map_cons, List.flatten_cons, List.append_assoc,
        List.length_cons, throwIf_of_not hfits, hnext, hslice, bind, Except.bind, pure,
        Except.pure, Except.ok.injEq, Prod.mk.injEq, true_and]
      omega

theorem length_vaaHeader (e : VaaEnvelope) : (vaaHeader e).length = 6 := by simp [vaaHeader]

theorem length_vaaSignatures (e : VaaEnvelope) :
    (vaaSignatures e).length = 66 * e.signatures.length := by
  rw [vaaSignatures]
  induction e.signatures with
  | nil => rfl
  | cons signature signatures ih =>
      simp only [List.map_cons, List.flatten_cons, List.length_append, signature.length_eq, ih,
        List.length_cons]
      omega

/-- Everything behind the signatures is read at its offset from the end of them. -/
theorem vaaBody_fields (e : VaaEnvelope) (p : ValidatedTransceiverMessageParams) :
    getUintBe (vaaBody e p) 0 4 = e.timestamp.toNat ∧
      getUintBe (vaaBody e p) 4 4 = e.nonce.toNat ∧
      getUintBe (vaaBody e p) 8 2 = p.fromChain.toNat ∧
      slice (vaaBody e p) 10 32 = e.emitterAddress.bytes ∧
      getUintBe (vaaBody e p) 42 8 = e.sequence.toNat ∧
      byteAt (vaaBody e p) 50 = e.consistencyLevel ∧
      (vaaBody e p).drop 51 = transceiverWire e p := by
  have htime : e.timestamp.toNat < 256 ^ 4 := e.timestamp.toNat_lt
  have hnonce : e.nonce.toNat < 256 ^ 4 := e.nonce.toNat_lt
  have hchain : p.fromChain.toNat < 256 ^ 2 := p.fromChain.toNat_lt
  have hseq : e.sequence.toNat < 256 ^ 8 := e.sequence.toNat_lt
  refine ⟨?_, ?_, ?_, ?_, ?_, ?_, ?_⟩
  all_goals
    simp (disch := first | assumption | simp) [vaaBody, slice_append_left, slice_append_right,
      getUintBe_append_right, getUintBe_beBytes, byteAt_append_right, byteAt_head,
      List.drop_append, List.drop_eq_nil_of_le]

theorem vaaHeader_fields (e : VaaEnvelope) (r : Bytes) :
    byteAt (vaaHeader e ++ r) 0 = e.version ∧
      getUintBe (vaaHeader e ++ r) 1 4 = e.guardianSetIndex.toNat ∧
      (byteAt (vaaHeader e ++ r) 5).toNat = e.signatures.length := by
  have hindex : e.guardianSetIndex.toNat < 256 ^ 4 := e.guardianSetIndex.toNat_lt
  have hcount : e.signatures.length % 256 = e.signatures.length :=
    Nat.mod_eq_of_lt e.signatures_length
  refine ⟨rfl, ?_, ?_⟩
  · simp (disch := first | assumption | simp) [vaaHeader, getUintBe_cons, getUintBe_beBytes]
  · have hcons : vaaHeader e ++ r = ([e.version] ++ beBytes 4 e.guardianSetIndex.toNat) ++
        (UInt8.ofNat e.signatures.length :: r) := by simp [vaaHeader]
    rw [hcons, byteAt_append_right (by simp)]
    simp [byteAt_head, hcount]

/-- A VAA as the SDK returns it. -/
def VaaEnvelope.parsed (e : VaaEnvelope) (p : ValidatedTransceiverMessageParams) : ParsedVaa where
  version := e.version
  guardianSetIndex := e.guardianSetIndex.toNat
  signatures := e.signatures.map VaaSignature.bytes
  timestamp := e.timestamp.toNat
  nonce := e.nonce.toNat
  emitterChain := p.fromChain.toNat
  emitterAddress := e.emitterAddress.bytes
  sequence := e.sequence.toNat
  consistencyLevel := e.consistencyLevel
  payload := transceiverWire e p

theorem parseVaa_wire (e : VaaEnvelope) (p : ValidatedTransceiverMessageParams) :
    parseVaa (vaaWire e p) = .ok (e.parsed p) := by
  obtain ⟨hversion, hindex, hcount⟩ := vaaHeader_fields e (vaaSignatures e ++ vaaBody e p)
  obtain ⟨htime, hnonce, hchain, hemitter, hseq, hlevel, hpayload⟩ := vaaBody_fields e p
  have hsigs := parseSignatures_append e.signatures (vaaHeader e) (vaaBody e p) 0
  rw [length_vaaHeader] at hsigs
  -- what stands behind the signatures is read from the end of them on
  have hpre : (vaaHeader e ++ vaaSignatures e).length = 6 + 66 * e.signatures.length := by
    rw [List.length_append, length_vaaHeader, length_vaaSignatures]
  have huint : ∀ k w, getUintBe (vaaWire e p) (6 + 66 * e.signatures.length + k) w =
      getUintBe (vaaBody e p) k w := by
    intro k w
    rw [vaaWire, getUintBe_append_right (by omega), hpre, Nat.add_sub_cancel_left]
  have hslice : ∀ k w, slice (vaaWire e p) (6 + 66 * e.signatures.length + k) w =
      slice (vaaBody e p) k w := by
    intro k w
    rw [vaaWire, slice_append_right (by omega), hpre, Nat.add_sub_cancel_left]
  have hbyte : ∀ k, byteAt (vaaWire e p) (6 + 66 * e.signatures.length + k) =
      byteAt (vaaBody e p) k := by
    intro k
    rw [vaaWire, byteAt_append_right (by omega), hpre, Nat.add_sub_cancel_left]
  have hdrop : (vaaWire e p).drop (6 + 66 * e.signatures.length + 51) =
      (vaaBody e p).drop 51 := by
    rw [vaaWire, ← hpre, List.drop_append]
    simp
  have hlen : (vaaWire e p).length = 6 + 66 * e.signatures.length + (vaaBody e p).length := by
    rw [vaaWire, List.length_append, hpre]
  have hbody : 51 ≤ (vaaBody e p).length := by
    simp [vaaBody]
    omega
  rw [← List.append_assoc, ← vaaWire] at hversion hindex hcount
  rw [← List.append_assoc, ← vaaSignatures, ← vaaWire] at hsigs
  have htime' := (huint 0 4).trans htime
  rw [Nat.add_zero] at htime'
  have hshort : ¬ (vaaWire e p).length < 6 := by omega
  have htrunc : ¬ (vaaWire e p).length <
      6 + 66 * e.signatures.length + 4 + 4 + 2 + 32 + 8 + 1 := by omega
  simp only [parseVaa, throwIf_of_not hshort, hcount, hsigs, throwIf_of_not htrunc, bind,
    Except.bind, pure, Except.pure, VaaEnvelope.parsed, hversion, hindex, htime', huint, hslice,
    hbyte, hdrop, hnonce, hchain, hemitter, hseq, hlevel, hpayload]

/-! ## The preimage -/

/-- The preimage the client hashes for a message inside a VAA. -/
theorem resolveNttVaa_wire (rt : RelayerRuntime) (e : VaaEnvelope)
    (p : ValidatedTransceiverMessageParams) (nttProgramId : Pubkey)
    (transceiverProgramId : Option Pubkey) :
    ∃ resolved, resolveNttVaa rt (vaaWire e p) nttProgramId transceiverProgramId = .ok resolved ∧
      resolved.manager = p.message.parsed ∧ resolved.fromChain = p.fromChain.toNat ∧
      resolved.nttInboxItem = (rt.findProgramAddress [Relayer.inboxItemSeed, rt.keccak
        (inboxItemPreimage p.fromChain.toNat (nttManagerMessageWire p.message))] nttProgramId).1 := by
  simp only [resolveNttVaa, parseVaa_wire, VaaEnvelope.parsed, parseTransceiverMessage_wire,
    parseNttManagerMessage_wire, bind, Except.bind, pure, Except.pure, Except.ok.injEq,
    exists_eq_left', true_and]
  rfl

theorem hashInput_serialize (p : ValidatedTransceiverMessageParams) :
    Relayer.inboxItemHashInput (serializeValidatedTransceiverMessage p) =
      inboxItemPreimage p.fromChain.toNat (nttManagerMessageWire p.message) := by
  rw [Relayer.inboxItemHashInput_eq (decode_serialize p), wire_toMessage, inboxItemPreimage,
    setUint16_toNat]
  rfl

theorem deriveInboxItemPda_serialize (rt : RelayerRuntime)
    (p : ValidatedTransceiverMessageParams) (nttProgramId : Pubkey) :
    Relayer.deriveInboxItemPdaFromVtm rt nttProgramId (serializeValidatedTransceiverMessage p) =
      .ok (rt.findProgramAddress [Relayer.inboxItemSeed, rt.keccak
        (inboxItemPreimage p.fromChain.toNat (nttManagerMessageWire p.message))]
        nttProgramId) := by
  have hlen : Relayer.transceiverMessageTotalLen ≤
      (serializeValidatedTransceiverMessage p).length := (length_serialize p).ge
  simp only [Relayer.deriveInboxItemPdaFromVtm, bind_eq_ok, require_eq_ok, pure_eq_ok,
    exists_const, hashInput_serialize]
  exact ⟨hlen, trivial⟩

theorem NttManagerMessageParams.parsed_inj {p q : NttManagerMessageParams}
    (h : p.parsed = q.parsed) : p = q := by
  simp only [NttManagerMessageParams.parsed, ParsedNttManagerMessage.mk.injEq] at h
  obtain ⟨hid, hsender, hamount, hdecimals, hsource, hto, hchain⟩ := h
  cases p
  cases q
  simp only [NttManagerMessageParams.mk.injEq]
  exact ⟨Bytes32.ext_bytes hid, Bytes32.ext_bytes hsender, UInt64.toNat_inj.mp hamount,
    hdecimals, Bytes32.ext_bytes hsource, UInt16.toNat_inj.mp hchain, Bytes32.ext_bytes hto⟩

/-- The wire form determines the message: decoding it is a left inverse. -/
theorem wire_inj {p q : NttManagerMessageParams}
    (h : nttManagerMessageWire p = nttManagerMessageWire q) : p = q := by
  have hparsed : (Except.ok p.parsed : Except VaaError _) = .ok q.parsed := by
    rw [← parseNttManagerMessage_wire p, h, parseNttManagerMessage_wire q]
  exact NttManagerMessageParams.parsed_inj (Except.ok.inj hparsed)

theorem preimage_inj {p q : ValidatedTransceiverMessageParams}
    (h : inboxItemPreimage p.fromChain.toNat (nttManagerMessageWire p.message) =
      inboxItemPreimage q.fromChain.toNat (nttManagerMessageWire q.message)) :
    p.fromChain = q.fromChain ∧ p.message = q.message := by
  simp only [inboxItemPreimage, setUint16_toNat, viewBytes] at h
  obtain ⟨hchain, hwire⟩ := List.append_inj h (by simp)
  refine ⟨UInt16.toNat_inj.mp ?_, wire_inj hwire⟩
  exact beBytes_inj p.fromChain.toNat_lt q.fromChain.toNat_lt hchain

/-- For every message the program and the client hash the same 147 bytes, so they address the same
inbox item; those bytes determine the origin chain and every field of the message; and the client
reads from the wire form the fields that were written. -/
theorem inbox_item_preimage_agrees (rt : RelayerRuntime) (e : VaaEnvelope)
    (p : ValidatedTransceiverMessageParams) (nttProgramId : Pubkey)
    (transceiverProgramId : Option Pubkey) :
    (serializeValidatedTransceiverMessage p).length = 213 ∧
    (Relayer.inboxItemHashInput (serializeValidatedTransceiverMessage p)).length = 147 ∧
    Relayer.inboxItemHashInput (serializeValidatedTransceiverMessage p) =
      inboxItemPreimage p.fromChain.toNat (nttManagerMessageWire p.message) ∧
    (∃ resolved bump,
      resolveNttVaa rt (vaaWire e p) nttProgramId transceiverProgramId = .ok resolved ∧
      Relayer.deriveInboxItemPdaFromVtm rt nttProgramId
        (serializeValidatedTransceiverMessage p) = .ok (resolved.nttInboxItem, bump)) ∧
    (∀ q : ValidatedTransceiverMessageParams,
      Relayer.inboxItemHashInput (serializeValidatedTransceiverMessage p) =
          Relayer.inboxItemHashInput (serializeValidatedTransceiverMessage q) ↔
        p.fromChain = q.fromChain ∧ p.message = q.message) ∧
    parseNttManagerMessage (nttManagerMessageWire p.message) = .ok
      { id := p.message.id.bytes
        sender := p.message.sender.bytes
        trimmedAmount := p.message.trimmedAmount.toNat
        trimmedDecimals := p.message.trimmedDecimals
        sourceToken := p.message.sourceToken.bytes
        toAddress := p.message.toAddress.bytes
        toChain := p.message.toChain.toNat } := by
  refine ⟨length_serialize p, ?_, hashInput_serialize p, ?_, ?_, parseNttManagerMessage_wire _⟩
  · simp [hashInput_serialize, inboxItemPreimage, setUint16_toNat, viewBytes, length_wire]
  · obtain ⟨resolved, hresolved, -, -, hitem⟩ :=
      resolveNttVaa_wire rt e p nttProgramId transceiverProgramId
    exact ⟨resolved, _, hresolved, by rw [deriveInboxItemPda_serialize, hitem]⟩
  · intro q
    rw [hashInput_serialize, hashInput_serialize]
    constructor
    · exact preimage_inj
    · rintro ⟨hchain, hmessage⟩
      rw [hchain, hmessage]

end FogoYield.Sdk
