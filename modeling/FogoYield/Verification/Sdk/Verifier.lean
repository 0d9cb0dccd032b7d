import FogoYield.Model.Sdk.Verifier
import FogoYield.Verification.Sdk.SignedFloors

/-! # The verifier instruction and back

What the verifier instruction is built from can be read at the offsets in its header, in either of
its two layouts; the floor of an intent is read whatever stands before the intent. -/

namespace FogoYield.Sdk

open FogoYield.Library FogoYield.Solana
open FogoYield.Library.Parser (newline)
open FogoYield.Relayer (slice slice_length)

/-! ## Fields of the data -/

theorem slice_field {data front field back : Bytes} {offset n : ℕ}
    (hdata : data = front ++ field ++ back) (hoffset : front.length = offset)
    (hn : field.length = n) : slice data offset n = field := by
  rw [slice, hdata, List.append_assoc, ← hoffset, List.drop_left, ← hn, List.take_left]

theorem flatMap_leBytes_length (fields : List ℕ) :
    (fields.flatMap (leBytes 2)).length = 2 * fields.length :=
  length_flatMap_of_width (leBytes_length 2) fields

/-- A field among other fields is read at its place. -/
theorem getUint16_field (front : Bytes) (before : List ℕ) {v : ℕ} (after : List ℕ) (body : Bytes)
    (hv : v < 2 ^ 16) :
    getUint16 (front ++ (before ++ v :: after).flatMap (leBytes 2) ++ body)
      (front.length + 2 * before.length) = .ok v := by
  have hdata : front ++ (before ++ v :: after).flatMap (leBytes 2) ++ body =
      (front ++ before.flatMap (leBytes 2)) ++ leBytes 2 v ++
        (after.flatMap (leBytes 2) ++ body) := by simp
  have hoffset : (front ++ before.flatMap (leBytes 2)).length =
      front.length + 2 * before.length := by
    rw [List.length_append, flatMap_leBytes_length]
  have hlen : front.length + 2 * before.length + 2 ≤
      (front ++ (before ++ v :: after).flatMap (leBytes 2) ++ body).length := by
    rw [hdata, List.length_append, List.length_append, hoffset, leBytes_length]
    omega
  rw [getUint16, if_pos hlen, slice_field hdata hoffset (leBytes_length 2 v),
    ofLeBytes_leBytes 2 v hv]

section Header

variable {signatureOffset publicKeyOffset messageOffset messageSize : ℕ} {body : Bytes}

theorem verifierData_length :
    (verifierData signatureOffset publicKeyOffset messageOffset messageSize body).length =
      16 + body.length := by
  rw [verifierData, List.length_append, List.length_append, flatMap_leBytes_length]
  rfl

theorem verifierData_signatureOffset (h : signatureOffset < 2 ^ 16) :
    getUint16 (verifierData signatureOffset publicKeyOffset messageOffset messageSize body) 2 =
      .ok signatureOffset :=
  getUint16_field [1, 0] [] _ _ h

theorem verifierData_publicKeyOffset (h : publicKeyOffset < 2 ^ 16) :
    getUint16 (verifierData signatureOffset publicKeyOffset messageOffset messageSize body) 6 =
      .ok publicKeyOffset :=
  getUint16_field [1, 0] [_, _] _ _ h

/-- The one message of the data is what its header points at. -/
theorem verifierData_messages (hoffset : messageOffset < 2 ^ 16) (hsize : messageSize < 2 ^ 16)
    (hend : messageOffset + messageSize ≤ 16 + body.length) :
    ed25519InlineMessages
        (verifierData signatureOffset publicKeyOffset messageOffset messageSize body) =
      .ok [slice (verifierData signatureOffset publicKeyOffset messageOffset messageSize body)
        messageOffset messageSize] := by
  have hlen : (verifierData signatureOffset publicKeyOffset messageOffset messageSize body).length =
      16 + body.length := verifierData_length
  have hcount : getUint8 (verifierData signatureOffset publicKeyOffset messageOffset messageSize
      body) 0 = .ok 1 := rfl
  have hindex : getUint16 (verifierData signatureOffset publicKeyOffset messageOffset messageSize
      body) 14 = .ok currentIx := getUint16_field [1, 0] [_, _, _, _, _, _] _ _ (by decide)
  have hat : getUint16 (verifierData signatureOffset publicKeyOffset messageOffset messageSize
      body) 10 = .ok messageOffset := getUint16_field [1, 0] [_, _, _, _] _ _ hoffset
  have hsize : getUint16 (verifierData signatureOffset publicKeyOffset messageOffset messageSize
      body) 12 = .ok messageSize := getUint16_field [1, 0] [_, _, _, _, _] _ _ hsize
  generalize verifierData signatureOffset publicKeyOffset messageOffset messageSize body = data
    at hlen hcount hindex hat hsize ⊢
  have hlong : ¬ data.length < ed25519CountLen := by
    rw [hlen]
    simp [ed25519CountLen]
    omega
  have hentry : ¬ ed25519CountLen + 0 * ed25519EntryLen + ed25519EntryLen > data.length := by
    rw [hlen]
    simp [ed25519CountLen, ed25519EntryLen]
  have hfits : ¬ messageOffset + messageSize > data.length := by omega
  rw [ed25519InlineMessages, if_neg hlong, hcount]
  change inlineMessages data 1 0 = _
  rw [inlineMessages, if_neg hentry]
  change (getUint16 data 14 >>= _) = _
  rw [hindex]
  change (getUint16 data 10 >>= _) = _
  rw [hat]
  change (getUint16 data 12 >>= _) = _
  rw [hsize]
  change (if messageOffset + messageSize > data.length then _ else _) = _
  rw [if_neg hfits]
  rfl

end Header

/-! ## Writing the data -/

theorem setUint16_of_lt {v : ℕ} (h : v < 2 ^ 16) : setUint16 v true = leBytes 2 v := by
  rw [setUint16, Nat.mod_eq_of_lt h]
  rfl

theorem indexOfBytes_eq_some {haystack needle : Bytes} {i : ℕ}
    (h : indexOfBytes haystack needle = some i) :
    ∃ before after, haystack = before ++ needle ++ after ∧ before.length = i := by
  induction haystack generalizing i with
  | nil =>
      rw [indexOfBytes] at h
      split at h
      · rename_i hneedle
        obtain ⟨after, hafter⟩ := List.isPrefixOf_iff_prefix.mp hneedle
        cases h
        exact ⟨[], after, hafter.symm, rfl⟩
      · cases h
  | cons b haystack ih =>
      rw [indexOfBytes] at h
      split at h
      · rename_i hneedle
        obtain ⟨after, hafter⟩ := List.isPrefixOf_iff_prefix.mp hneedle
        cases h
        exact ⟨[], after, hafter.symm, rfl⟩
      · obtain ⟨j, hj, rfl⟩ := Option.map_eq_some_iff.mp h
        obtain ⟨before, after, rfl, rfl⟩ := ih hj
        exact ⟨b :: before, after, rfl, rfl⟩

theorem overwriteAll_header (publicKeyOffset messageOffset messageSize : ℕ) (back : Bytes) :
    overwriteAll (List.replicate 16 0 ++ back) [(0, [1]), (1, [0]), (2, leBytes 2 16),
        (4, leBytes 2 currentIx), (6, leBytes 2 publicKeyOffset), (8, leBytes 2 currentIx),
        (10, leBytes 2 messageOffset), (12, leBytes 2 messageSize), (14, leBytes 2 currentIx)] =
      verifierData 16 publicKeyOffset messageOffset messageSize back := by
  rw [overwriteAll_append_of_le (by simp)]
  rfl

/-- A write behind what is written, into room of its own length. -/
theorem overwrite_verifierData (signatureOffset publicKeyOffset messageOffset messageSize : ℕ)
    (written : Bytes) {room bytes : Bytes} (hroom : room.length = bytes.length) (back : Bytes) :
    overwrite (verifierData signatureOffset publicKeyOffset messageOffset messageSize
        (written ++ room ++ back)) (16 + written.length) bytes =
      verifierData signatureOffset publicKeyOffset messageOffset messageSize
        (written ++ bytes ++ back) := by
  have hoffset : (verifierData signatureOffset publicKeyOffset messageOffset messageSize
      written).length = 16 + written.length := verifierData_length
  have hset := overwrite_room hoffset hroom back
  simp only [verifierData, List.append_assoc] at hset ⊢
  exact hset

/-- The layout with the key inside of the message. -/
theorem buildIntentVerifierIx_embedded (ed25519 : Ed25519Program) {walletPublicKey : Pubkey}
    {signature message : Bytes} {embeddedAt : ℕ}
    (hindex : indexOfBytes message walletPublicKey.bytes = some embeddedAt)
    (hat : embeddedAt ≤ message.length)
    (hend : 16 + signature.length + message.length < 2 ^ 16) :
    (buildIntentVerifierIx ed25519 walletPublicKey signature message).data =
      verifierData 16 (16 + signature.length + embeddedAt) (16 + signature.length) message.length
        (signature ++ message) := by
  have hroom : List.replicate (16 + signature.length + message.length) (0 : UInt8) =
      List.replicate 16 0 ++ (List.replicate signature.length 0 ++
        List.replicate message.length 0) := by
    rw [List.replicate_append_replicate, List.replicate_append_replicate, Nat.add_assoc]
  simp only [buildIntentVerifierIx, hindex, ed25519HeaderLen]
  rw [setUint16_of_lt (by omega), setUint16_of_lt (by decide), setUint16_of_lt (by omega),
    setUint16_of_lt (by omega), setUint16_of_lt (by omega), hroom]
  have hheader := overwriteAll_header (16 + signature.length + embeddedAt) (16 + signature.length)
    message.length (List.replicate signature.length 0 ++ List.replicate message.length 0)
  simp only [overwriteAll, List.foldl_cons, List.foldl_nil] at hheader
  have hsignature := overwrite_verifierData 16 (16 + signature.length + embeddedAt)
    (16 + signature.length) message.length []
    (List.length_replicate (n := signature.length) (a := (0 : UInt8)))
    (List.replicate message.length 0)
  have hmessage := overwrite_verifierData 16 (16 + signature.length + embeddedAt)
    (16 + signature.length) message.length signature
    (List.length_replicate (n := message.length) (a := (0 : UInt8))) []
  rw [List.append_nil, List.append_nil] at hmessage
  rw [hheader]
  exact (congrArg (overwrite · (16 + signature.length) message) hsignature).trans hmessage

/-! ## Either layout -/

theorem slice_verifierData (signatureOffset publicKeyOffset messageOffset messageSize : ℕ)
    (before field after : Bytes) :
    slice (verifierData signatureOffset publicKeyOffset messageOffset messageSize
      (before ++ field ++ after)) (16 + before.length) field.length = field := by
  have hoffset : (verifierData signatureOffset publicKeyOffset messageOffset messageSize
      before).length = 16 + before.length := verifierData_length
  have hdata : verifierData signatureOffset publicKeyOffset messageOffset messageSize
      (before ++ field ++ after) = verifierData signatureOffset publicKeyOffset messageOffset
        messageSize before ++ field ++ after := by
    simp only [verifierData, List.append_assoc]
  exact slice_field hdata hoffset rfl

/-- Where the message of a verifier instruction begins. -/
def messageStart (walletPublicKey : Pubkey) (message : Bytes) : ℕ :=
  if (indexOfBytes message walletPublicKey.bytes).isSome then 16 + 64 else 16 + 32 + 64

/-- The data of a verifier instruction gives back the message, the key and the signature. -/
structure RoundTrips (data : Bytes) (walletPublicKey : Pubkey) (signature message : Bytes) :
    Prop where
  messages : ed25519InlineMessages data = .ok [message]
  publicKey : ∃ offset, getUint16 data 6 = .ok offset ∧ slice data offset 32 = walletPublicKey.bytes
  signature : ∃ offset, getUint16 data 2 = .ok offset ∧ slice data offset 64 = signature

theorem buildIntentVerifierIx_roundTrips {ed25519 : Ed25519Program} (hed25519 : ed25519.Lawful)
    {walletPublicKey : Pubkey} (hkey : walletPublicKey.bytes.length = 32) {signature : Bytes}
    (hsignature : signature.length = 64) {message : Bytes}
    (hend : messageStart walletPublicKey message + message.length < 2 ^ 16) :
    RoundTrips (buildIntentVerifierIx ed25519 walletPublicKey signature message).data
      walletPublicKey signature message := by
  unfold messageStart at hend
  cases hindex : indexOfBytes message walletPublicKey.bytes with
  | none =>
      simp only [hindex, Option.isSome_none, Bool.false_eq_true, if_false] at hend
      have hdata : (buildIntentVerifierIx ed25519 walletPublicKey signature message).data =
          verifierData 48 16 112 message.length (walletPublicKey.bytes ++ signature ++ message) := by
        simp only [buildIntentVerifierIx, hindex]
        exact hed25519.createInstructionWithPublicKey_data _ _ _ hkey hsignature hend
      rw [hdata]
      constructor
      · have hmessage := slice_verifierData 48 16 112 message.length
          (walletPublicKey.bytes ++ signature) message []
        rw [List.append_nil, List.length_append, hkey, hsignature] at hmessage
        rw [verifierData_messages (by decide) (by omega) (by simp [hkey, hsignature]; omega), hmessage]
      · have hfield := slice_verifierData 48 16 112 message.length [] walletPublicKey.bytes
          (signature ++ message)
        rw [hkey, ← List.append_assoc] at hfield
        exact ⟨16, verifierData_publicKeyOffset (by decide), hfield⟩
      · have hfield := slice_verifierData 48 16 112 message.length walletPublicKey.bytes signature
          message
        rw [hkey, hsignature] at hfield
        exact ⟨48, verifierData_signatureOffset (by decide), hfield⟩
  | some embeddedAt =>
      simp only [hindex, Option.isSome_some, if_true] at hend
      obtain ⟨before, after, hsplit, rfl⟩ := indexOfBytes_eq_some hindex
      have hbefore : before.length + 32 ≤ message.length := by
        rw [hsplit, List.length_append, List.length_append, hkey]
        omega
      rw [buildIntentVerifierIx_embedded ed25519 hindex (by omega) (by omega), hsignature]
      constructor
      · have hmessage := slice_verifierData 16 (16 + 64 + before.length) (16 + 64) message.length
          signature message []
        rw [List.append_nil, hsignature] at hmessage
        rw [verifierData_messages (by decide) (by omega) (by simp [hsignature]; omega), hmessage]
      · have hfield := slice_verifierData 16 (16 + 64 + before.length) (16 + 64) message.length
          (signature ++ before) walletPublicKey.bytes after
        rw [List.length_append, hsignature, hkey, List.append_assoc signature, ← Nat.add_assoc] at hfield
        refine ⟨16 + 64 + before.length, verifierData_publicKeyOffset (by omega), ?_⟩
        rw [← hfield]
        congr 2
        rw [hsplit]
        simp
      · have hfield := slice_verifierData 16 (16 + 64 + before.length) (16 + 64) message.length []
          signature message
        rw [hsignature] at hfield
        exact ⟨16, verifierData_signatureOffset (by decide), hfield⟩

/-! ## Arbitrary data -/

theorem getUint16_of_le {data : Bytes} {offset : ℕ} (h : offset + 2 ≤ data.length) :
    getUint16 data offset = .ok (ofLeBytes (slice data offset 2)) := if_pos h

/-- A message that lies inside of the data. -/
def InBounds (data message : Bytes) : Prop :=
  ∃ offset, offset + message.length ≤ data.length ∧ slice data offset message.length = message

theorem inBounds_slice {data : Bytes} {offset n : ℕ} (h : offset + n ≤ data.length) :
    InBounds data (slice data offset n) :=
  ⟨offset, by rwa [slice_length h], by rw [slice_length h]⟩

theorem inlineMessages_inBounds (data : Bytes) (remaining i : ℕ) :
    ∃ messages, inlineMessages data remaining i = .ok messages ∧
      ∀ message ∈ messages, InBounds data message := by
  induction remaining generalizing i with
  | zero => exact ⟨[], rfl, by simp⟩
  | succ remaining ih =>
      obtain ⟨messages, hmessages, hbounds⟩ := ih (i + 1)
      rw [inlineMessages]
      by_cases hentry : ed25519CountLen + i * ed25519EntryLen + ed25519EntryLen > data.length
      · exact ⟨[], if_pos hentry, by simp⟩
      · have hlen : ed25519CountLen + i * ed25519EntryLen + 14 ≤ data.length := by
          simpa [ed25519EntryLen] using hentry
        rw [if_neg hentry, getUint16_of_le (by simp [messageIxIndexAt]; omega),
          getUint16_of_le (by simp [messageOffsetAt]; omega),
          getUint16_of_le (by simp [messageSizeAt]; omega)]
        simp only [bind, Except.bind]
        split
        · exact ⟨messages, hmessages, hbounds⟩
        · split
          · exact ⟨messages, hmessages, hbounds⟩
          · rename_i hfits
            rw [hmessages]
            refine ⟨_, rfl, ?_⟩
            intro message hmessage
            rcases List.mem_cons.mp hmessage with rfl | hmessage
            · exact inBounds_slice (Nat.le_of_not_lt hfits)
            · exact hbounds message hmessage

/-- On arbitrary data no read is outside of it, and every message lies inside. -/
theorem ed25519InlineMessages_inBounds (data : Bytes) :
    ∃ messages, ed25519InlineMessages data = .ok messages ∧
      ∀ message ∈ messages, InBounds data message := by
  unfold ed25519InlineMessages
  split
  · exact ⟨[], rfl, by simp⟩
  · rename_i hlen
    cases data with
    | nil => exact absurd (by decide) hlen
    | cons count data => exact inlineMessages_inBounds (count :: data) count.toNat 0

/-! ## The floor of an intent -/

/-- Behind its first newline a text is not changed by the decoder's byte order mark. -/
theorem textDecode_newline (front back : Bytes) :
    ∃ text, textDecode (front ++ newline :: back) = text ++ '\n' :: lossyDecode none back := by
  rw [textDecode, decode_newline]
  cases lossyDecode none front with
  | nil => exact ⟨[], rfl⟩
  | cons c text =>
      rw [List.cons_append]
      by_cases hc : c = byteOrderMark
      · exact ⟨text, if_pos hc⟩
      · exact ⟨c :: text, if_neg hc⟩

theorem build_amount_minOut (params : BuildBridgeOutIntentMessageParams) :
    ∃ front back, buildBridgeOutIntentMessage params =
      front ++ newline :: (utf8 ("amount: " ++ params.amount) ++
        newline :: (utf8 ("min_out: " ++ toString params.minOut) ++ newline :: back)) := by
  have hsep : utf8 "\n" = [newline] := by decide
  refine ⟨[newline].intercalate ((params.lines.take 5).map utf8),
    [newline].intercalate ((params.lines.drop 7).map utf8), ?_⟩
  rw [buildBridgeOutIntentMessage, utf8_intercalate, hsep]
  simp [BuildBridgeOutIntentMessageParams.lines, List.intercalate_cons_cons]

/-- A number behind an ASCII label. -/
theorem decode_labelled {label : List Char} (hlabel : ∀ c ∈ label, c.toNat < 128) (n : ℕ) :
    lossyDecode none ((label ++ Nat.toDigits 10 n).flatMap String.utf8EncodeChar) =
      label ++ Nat.toDigits 10 n := by
  have hascii : ∀ c ∈ label ++ Nat.toDigits 10 n, c.toNat < 128 := by
    intro c hc
    rcases List.mem_append.mp hc with hc | hc
    · exact hlabel c hc
    · have hdigit := toNat_of_isDigit (Nat.isDigit_of_mem_toDigits (by decide) (by decide) hc)
      omega
  have hdecode := lossyDecode_ascii hascii []
  have hend : lossyDecode none [] = [] := rfl
  rwa [List.append_nil, hend, List.append_nil] at hdecode

theorem decode_minOut (n : ℕ) :
    lossyDecode none (utf8 ("min_out: " ++ toString (n : ℤ))) = minOutKey ++ Nat.toDigits 10 n := by
  have htext : ("min_out: " ++ toString (n : ℤ)).toList = minOutKey ++ Nat.toDigits 10 n := by
    rw [String.toList_append]
    change minOutKey ++ (toString n).toList = _
    rw [toString_toList]
  have hkey : ∀ c ∈ minOutKey, c.toNat < 128 := ascii_of_all (by decide)
  rw [utf8, htext]
  exact decode_labelled hkey n

theorem decode_amount (amount : String) :
    lossyDecode none (utf8 ("amount: " ++ amount)) =
      "amount: ".toList ++ lossyDecode none (utf8 amount) := by
  rw [utf8_append]
  exact lossyDecode_ascii (ascii_of_all (by decide)) (utf8 amount)

/-- The floor of an intent is read whatever precedes the intent. -/
theorem parseSignedMinOuts_intent (p : Bytes) {params : BuildBridgeOutIntentMessageParams}
    {minOut : ℕ} (hminOut : params.minOut = minOut) (hmax : minOut ≤ u64Max)
    (hamount : '\n' ∉ params.amount.toList) :
    minOut ∈ parseSignedMinOuts (p ++ buildBridgeOutIntentMessage params) := by
  obtain ⟨front, back, hbuild⟩ := build_amount_minOut params
  obtain ⟨text, htext⟩ := textDecode_newline (p ++ front) (utf8 ("amount: " ++ params.amount) ++
    newline :: (utf8 ("min_out: " ++ toString (minOut : ℤ)) ++ newline :: back))
  have hfree : '\n' ∉ lossyDecode none (utf8 ("amount: " ++ params.amount)) := by
    apply newline_notMem_decode
    intro hmem
    have hchar : '\n' ∈ ("amount: " ++ params.amount).toList :=
      (mem_utf8_ascii (by decide)).mp hmem
    rw [String.toList_append] at hchar
    exact (List.mem_append.mp hchar).elim (by decide) hamount
  have hlines : (textDecode (p ++ buildBridgeOutIntentMessage params)).splitOn '\n' =
      text.splitOn '\n' ++ lossyDecode none (utf8 ("amount: " ++ params.amount)) ::
        (minOutKey ++ Nat.toDigits 10 minOut) :: (lossyDecode none back).splitOn '\n' := by
    rw [hbuild, hminOut, ← List.append_assoc, htext, decode_newline, decode_newline, decode_minOut,
      List.splitOn_append_cons_self, List.splitOn_append_cons_self_of_not_mem hfree,
      List.splitOn_append_cons_self_of_not_mem (not_mem_minOut (by decide) (by decide) minOut)]
  -- the line of the amount is none of the floor's, so the line below it is looked at
  have habove : lineFloor (withoutReturn (lossyDecode none (utf8 ("amount: " ++ params.amount)))) =
      none := by
    rw [decode_amount]
    exact (lineFloor_of_head (by simp)).2
  have hfloor : lineFloor (withoutReturn (minOutKey ++ Nat.toDigits 10 minOut)) = some minOut :=
    lineFloor_eq_some.mpr ((withoutReturn_eq (not_mem_minOut (by decide) (by decide) minOut)).mpr
      (.inl rfl))
  obtain ⟨next, rest, hrest⟩ := List.exists_cons_of_ne_nil
    (List.splitOn_ne_nil '\n' (lossyDecode none back))
  rw [mem_parseSignedMinOuts_iff, hlines, completeLines_append _ (List.cons_ne_nil _ _), hrest,
    completeLines, completeLines, scanLines_behind habove, scanLines, hfloor]
  exact ⟨hmax, List.mem_append_right _ (List.mem_cons_self ..)⟩

/-- A verifier instruction gives back what it is built from, the floor of an intent behind any
bytes included; of arbitrary data only what lies inside is read. -/
theorem verifier_round_trip {ed25519 : Ed25519Program} (hed25519 : ed25519.Lawful)
    {walletPublicKey : Pubkey} (hkey : walletPublicKey.bytes.length = 32) {signature : Bytes}
    (hsignature : signature.length = 64) :
    (∀ message : Bytes, messageStart walletPublicKey message + message.length < 2 ^ 16 →
      RoundTrips (buildIntentVerifierIx ed25519 walletPublicKey signature message).data
        walletPublicKey signature message) ∧
    (∀ (p : Bytes) (params : BuildBridgeOutIntentMessageParams) (minOut : ℕ),
      params.minOut = minOut → minOut ≤ u64Max → '\n' ∉ params.amount.toList →
      messageStart walletPublicKey (p ++ buildBridgeOutIntentMessage params) +
        (p ++ buildBridgeOutIntentMessage params).length < 2 ^ 16 →
      ∃ messages, ed25519InlineMessages (buildIntentVerifierIx ed25519 walletPublicKey signature
          (p ++ buildBridgeOutIntentMessage params)).data = .ok messages ∧
        minOut ∈ messages.flatMap parseSignedMinOuts) ∧
    ∀ data : Bytes, ∃ messages, ed25519InlineMessages data = .ok messages ∧
      ∀ message ∈ messages, InBounds data message := by
  refine ⟨?_, ?_, ed25519InlineMessages_inBounds⟩
  · intro message hend
    exact buildIntentVerifierIx_roundTrips hed25519 hkey hsignature hend
  · intro p params minOut hminOut hmax hamount hend
    have htrip := buildIntentVerifierIx_roundTrips hed25519 hkey hsignature hend
    refine ⟨_, htrip.messages, ?_⟩
    rw [List.flatMap_singleton]
    exact parseSignedMinOuts_intent p hminOut hmax hamount

/-- The precompile's instruction as documented. -/
def documentedEd25519 : Ed25519Program where
  programId := Pubkey.literal "Ed25519SigVerify111111111111111111111111111"
  createInstructionWithPublicKey publicKey signature message :=
    { programId := Pubkey.literal "Ed25519SigVerify111111111111111111111111111"
      accounts := []
      data := verifierData 48 16 112 message.length (publicKey ++ signature ++ message) }

theorem documentedEd25519_lawful : documentedEd25519.Lawful :=
  ⟨fun _ _ _ _ _ _ => rfl⟩

/-- A hardware wallet's message: the key stands inside, in front of the intent. -/
theorem verifier_round_trip_embedded :
    let walletPublicKey : Pubkey := ⟨List.replicate 32 200⟩
    let params : BuildBridgeOutIntentMessageParams :=
      ⟨"fogo-mainnet", "solana", "USDC.s", "5000.123333", "USDC.s", "2.000000", 4350, 7⟩
    ∃ messages, ed25519InlineMessages (buildIntentVerifierIx documentedEd25519 walletPublicKey
        (List.replicate 64 7) (walletPublicKey.bytes ++ buildBridgeOutIntentMessage params)).data =
          .ok messages ∧
      4350 ∈ messages.flatMap parseSignedMinOuts := by
  have hkey : (⟨List.replicate 32 200⟩ : Pubkey).bytes.length = 32 := rfl
  have hsignature : (List.replicate 64 (7 : UInt8)).length = 64 := rfl
  exact (verifier_round_trip documentedEd25519_lawful hkey hsignature).2.1
    (List.replicate 32 200) ⟨"fogo-mainnet", "solana", "USDC.s", "5000.123333", "USDC.s",
      "2.000000", 4350, 7⟩ 4350 rfl (by decide) (by decide) (by decide +kernel)

end FogoYield.Sdk
