import FogoYield.Model.Sdk.VaaReads
import FogoYield.Verification.Sdk.Vaa

/-! # The wire decoders are total

On arbitrary bytes every read is in range, and every field that is returned has its full length. -/

namespace FogoYield.Sdk

open FogoYield.Library FogoYield.Solana
open FogoYield.Relayer (slice slice_length)

/-! ## Reads in range -/

theorem viewUintBe_of_le {bytes : Bytes} {offset width : ℕ} (h : offset + width ≤ bytes.length) :
    viewUintBe bytes offset width = .ok (getUintBe bytes offset width) := if_pos h

theorem indexByte_of_lt {bytes : Bytes} {offset : ℕ} (h : offset < bytes.length) :
    indexByte bytes offset = .ok (byteAt bytes offset) := by
  simp [indexByte, byteAt, h]

theorem ok_bind {ε α β : Type} (a : α) (f : α → Except ε β) : (Except.ok a >>= f) = f a := rfl

/-- What a decoder names is thrown by both, and the rest is compared where it is reached. -/
theorem named_bind {α β : Type} {x : Except VaaError α} {f : α → Except VaaError β}
    {g : α → Except Thrown β} (h : ∀ a, x = .ok a → g a = named (f a)) :
    (named x >>= g) = named (x >>= f) := by
  cases x with
  | error e => rfl
  | ok a => exact h a rfl

theorem throwIf_eq_ok {c : Prop} [Decidable c] {e : VaaError} {u : Unit} :
    throwIf c e = .ok u ↔ ¬ c := by
  unfold throwIf
  split <;> simp_all

/-! ## The decoders throw what they name -/

theorem readSignatures_eq (bytes : Bytes) (count i o : ℕ) :
    readSignatures bytes count i o = named (parseSignatures bytes count i o) := by
  induction count generalizing i o with
  | zero => rfl
  | succ count ih =>
      rw [readSignatures, parseSignatures]
      refine named_bind (fun _ _ => ?_)
      rw [ih]
      exact named_bind (fun _ _ => rfl)

theorem parseSignatures_spec {bytes : Bytes} {count i o o' : ℕ} {signatures : List Bytes}
    (h : parseSignatures bytes count i o = .ok (signatures, o')) :
    signatures.length = count ∧ (∀ s ∈ signatures, s.length = 66) ∧ o' = o + 66 * count := by
  induction count generalizing i o signatures with
  | zero =>
      obtain ⟨rfl, rfl⟩ := Prod.mk.inj (Except.ok.inj h)
      simp
  | succ count ih =>
      rw [parseSignatures] at h
      by_cases hc : bytes.length < o + 66
      · simp [throwIf, hc, bind, Except.bind] at h
      · rw [throwIf_of_not hc, ok_bind] at h
        cases hrest : parseSignatures bytes count (i + 1) (o + 66) with
        | error e => simp [hrest, bind, Except.bind] at h
        | ok rest =>
            obtain ⟨rest, o₁⟩ := rest
            rw [hrest, ok_bind] at h
            obtain ⟨rfl, rfl⟩ := Prod.mk.inj (Except.ok.inj h)
            obtain ⟨hlen, hall, rfl⟩ := ih hrest
            refine ⟨by simp [hlen], ?_, by omega⟩
            intro s hs
            rcases List.mem_cons.mp hs with rfl | hs
            · exact slice_length (by omega)
            · exact hall s hs

theorem readVaa_eq (bytes : Bytes) : readVaa bytes = named (parseVaa bytes) := by
  rw [readVaa, parseVaa]
  refine named_bind (fun _ hshort => ?_)
  have hlen := throwIf_eq_ok.mp hshort
  rw [indexByte_of_lt (by omega), ok_bind, viewUintBe_of_le (by omega), ok_bind,
    indexByte_of_lt (by omega), ok_bind, readSignatures_eq]
  refine named_bind (fun r _ => ?_)
  obtain ⟨signatures, o⟩ := r
  refine named_bind (fun _ htruncated => ?_)
  have hbody := throwIf_eq_ok.mp htruncated
  rw [viewUintBe_of_le (by omega), ok_bind, viewUintBe_of_le (by omega), ok_bind,
    viewUintBe_of_le (by omega), ok_bind, viewUintBe_of_le (by omega), ok_bind,
    indexByte_of_lt (by omega), ok_bind]
  rfl

theorem readTransceiverMessage_eq (payload : Bytes) :
    readTransceiverMessage payload = named (parseTransceiverMessage payload) := by
  rw [readTransceiverMessage, parseTransceiverMessage]
  refine named_bind (fun _ hshort => named_bind (fun _ _ => ?_))
  have hlen := throwIf_eq_ok.mp hshort
  rw [viewUintBe_of_le (by omega), ok_bind]
  refine named_bind (fun _ hmanager => ?_)
  have hmgr := throwIf_eq_ok.mp hmanager
  rw [viewUintBe_of_le (by omega), ok_bind]
  exact named_bind (fun _ _ => rfl)

theorem readNttManagerMessage_eq (wire : Bytes) :
    readNttManagerMessage wire = named (parseNttManagerMessage wire) := by
  rw [readNttManagerMessage, parseNttManagerMessage]
  refine named_bind (fun _ hshort => ?_)
  have hlen := throwIf_eq_ok.mp hshort
  rw [viewUintBe_of_le (by omega), ok_bind]
  refine named_bind (fun _ _ => named_bind (fun _ htransfer => named_bind (fun _ _ => ?_)))
  have hinner := throwIf_eq_ok.mp htransfer
  rw [indexByte_of_lt (by omega), ok_bind, viewUintBe_of_le (by omega), ok_bind,
    viewUintBe_of_le (by omega), ok_bind]
  rfl

/-! ## Every field in full -/

/-- The slices of a VAA: the declared number of signatures, the emitter, and all that is left. -/
structure VaaSlices (bytes : Bytes) (v : ParsedVaa) : Prop where
  count : v.signatures.length = (byteAt bytes 5).toNat
  signatures : ∀ s ∈ v.signatures, s.length = 66
  emitterAddress : v.emitterAddress.length = 32
  payload : 6 + 66 * v.signatures.length + 51 + v.payload.length = bytes.length

theorem parseVaa_slices {bytes : Bytes} {v : ParsedVaa} (h : parseVaa bytes = .ok v) :
    VaaSlices bytes v := by
  obtain ⟨_, -, h⟩ := bind_ok_iff.mp h
  obtain ⟨⟨signatures, o⟩, hsigs, h⟩ := bind_ok_iff.mp h
  obtain ⟨_, htruncated, h⟩ := bind_ok_iff.mp h
  obtain rfl := Except.ok.inj h
  have hbody := throwIf_eq_ok.mp htruncated
  obtain ⟨hcount, hall, rfl⟩ := parseSignatures_spec hsigs
  refine ⟨hcount, hall, slice_length (by omega), ?_⟩
  simp only [List.length_drop, hcount]
  omega

/-- The slices of a transceiver message, the last two as long as it declares. -/
structure TransceiverSlices (payload : Bytes) (m : ParsedTransceiverMessage) : Prop where
  sourceNttManager : m.sourceNttManager.length = 32
  recipientNttManager : m.recipientNttManager.length = 32
  nttManagerPayload : m.nttManagerPayload.length = getUintBe payload 68 2
  transceiverPayload :
    m.transceiverPayload.length = getUintBe payload (70 + m.nttManagerPayload.length) 2

theorem parseTransceiverMessage_slices {payload : Bytes} {m : ParsedTransceiverMessage}
    (h : parseTransceiverMessage payload = .ok m) : TransceiverSlices payload m := by
  obtain ⟨_, hshort, h⟩ := bind_ok_iff.mp h
  obtain ⟨_, -, h⟩ := bind_ok_iff.mp h
  obtain ⟨_, hmanager, h⟩ := bind_ok_iff.mp h
  obtain ⟨_, hpayload, h⟩ := bind_ok_iff.mp h
  obtain rfl := Except.ok.inj h
  have hlen := throwIf_eq_ok.mp hshort
  have hmgr := throwIf_eq_ok.mp hmanager
  have hxcvr := throwIf_eq_ok.mp hpayload
  have hmgrLen : (slice payload 70 (getUintBe payload 68 2)).length = getUintBe payload 68 2 :=
    slice_length (by omega)
  refine ⟨slice_length (by omega), slice_length (by omega), hmgrLen, ?_⟩
  dsimp only
  rw [hmgrLen]
  exact slice_length (by omega)

/-- The slices of a manager message, read out of a transfer as long as it declares. -/
structure ManagerSlices (wire : Bytes) (m : ParsedNttManagerMessage) : Prop where
  id : m.id.length = 32
  sender : m.sender.length = 32
  inner : (slice wire 66 (getUintBe wire 64 2)).length = getUintBe wire 64 2
  sourceToken : m.sourceToken.length = 32
  toAddress : m.toAddress.length = 32

theorem parseNttManagerMessage_slices {wire : Bytes} {m : ParsedNttManagerMessage}
    (h : parseNttManagerMessage wire = .ok m) : ManagerSlices wire m := by
  obtain ⟨_, hshort, h⟩ := bind_ok_iff.mp h
  obtain ⟨_, htruncated, h⟩ := bind_ok_iff.mp h
  obtain ⟨_, htransfer, h⟩ := bind_ok_iff.mp h
  obtain ⟨_, -, h⟩ := bind_ok_iff.mp h
  obtain rfl := Except.ok.inj h
  have hlen := throwIf_eq_ok.mp hshort
  have hinner := throwIf_eq_ok.mp htruncated
  have hfields := throwIf_eq_ok.mp htransfer
  exact ⟨slice_length (by omega), slice_length (by omega), slice_length (by omega),
    slice_length (by omega), slice_length (by omega)⟩

/-! ## Inverse and total -/

/-- Decoding gives back what was encoded, level by level; and on arbitrary bytes a decoder throws
an error it names, or returns every slice in full, without a read out of range. -/
theorem vaa_decoders (e : VaaEnvelope) (p : ValidatedTransceiverMessageParams) (bytes : Bytes) :
    (parseVaa (vaaWire e p) = .ok
        { version := e.version
          guardianSetIndex := e.guardianSetIndex.toNat
          signatures := e.signatures.map VaaSignature.bytes
          timestamp := e.timestamp.toNat
          nonce := e.nonce.toNat
          emitterChain := p.fromChain.toNat
          emitterAddress := e.emitterAddress.bytes
          sequence := e.sequence.toNat
          consistencyLevel := e.consistencyLevel
          payload := transceiverWire e p } ∧
      parseTransceiverMessage (transceiverWire e p) = .ok
        { sourceNttManager := p.sourceNttManager.bytes
          recipientNttManager := p.recipientNttManager.bytes
          nttManagerPayload := nttManagerMessageWire p.message
          transceiverPayload := e.transceiverPayload } ∧
      parseNttManagerMessage (nttManagerMessageWire p.message) = .ok
        { id := p.message.id.bytes
          sender := p.message.sender.bytes
          trimmedAmount := p.message.trimmedAmount.toNat
          trimmedDecimals := p.message.trimmedDecimals
          sourceToken := p.message.sourceToken.bytes
          toAddress := p.message.toAddress.bytes
          toChain := p.message.toChain.toNat }) ∧
    ((∃ err, readVaa bytes = .error (.named err)) ∨
      ∃ v, readVaa bytes = .ok v ∧ parseVaa bytes = .ok v ∧ VaaSlices bytes v) ∧
    ((∃ err, readTransceiverMessage bytes = .error (.named err)) ∨
      ∃ m, readTransceiverMessage bytes = .ok m ∧ parseTransceiverMessage bytes = .ok m ∧
        TransceiverSlices bytes m) ∧
    ((∃ err, readNttManagerMessage bytes = .error (.named err)) ∨
      ∃ m, readNttManagerMessage bytes = .ok m ∧ parseNttManagerMessage bytes = .ok m ∧
        ManagerSlices bytes m) := by
  refine ⟨⟨parseVaa_wire e p, parseTransceiverMessage_wire e p, parseNttManagerMessage_wire _⟩,
    ?_, ?_, ?_⟩
  · rw [readVaa_eq]
    cases h : parseVaa bytes with
    | error err => exact .inl ⟨err, rfl⟩
    | ok v => exact .inr ⟨v, rfl, rfl, parseVaa_slices h⟩
  · rw [readTransceiverMessage_eq]
    cases h : parseTransceiverMessage bytes with
    | error err => exact .inl ⟨err, rfl⟩
    | ok m => exact .inr ⟨m, rfl, rfl, parseTransceiverMessage_slices h⟩
  · rw [readNttManagerMessage_eq]
    cases h : parseNttManagerMessage bytes with
    | error err => exact .inl ⟨err, rfl⟩
    | ok m => exact .inr ⟨m, rfl, rfl, parseNttManagerMessage_slices h⟩

end FogoYield.Sdk
