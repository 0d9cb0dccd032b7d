import FogoYield.Library.Decimal
import FogoYield.Library.Lines
import FogoYield.Verification.Intent.Message
import FogoYield.Verification.Intent.Reference

/-! # The intent codec

What the client writes, the program reads back, and nothing a parameter holds can pass for
another line. -/

namespace FogoYield.Intent

open FogoYield.Library FogoYield.Sdk
open FogoYield.Library.Parser (IsLineEnding newline carriageReturn)

/-! ## Numbers -/

theorem u64FromStr_toString (n : UInt64) : u64FromStr (toString n.toNat) = some n := by
  have hdigits : ∀ c ∈ Nat.toDigits 10 n.toNat, c.isDigit := fun c hc =>
    Nat.isDigit_of_mem_toDigits (by decide) (by decide) hc
  have hlist : (toString n.toNat).toList = Nat.toDigits 10 n.toNat := by
    rw [Nat.toString_eq_repr, Nat.toList_repr]
  have hvalue : Nat.ofDigitChars 10 (Nat.toDigits 10 n.toNat) 0 = n.toNat :=
    Nat.ofDigitChars_ten_toDigits
  unfold u64FromStr
  extract_lets digits
  have hsign : digits = Nat.toDigits 10 n.toNat := by
    simp only [digits, hlist]
    split
    · rename_i rest heq
      have hplus := hdigits '+' (by rw [heq]; exact List.mem_cons_self ..)
      exact absurd hplus (by decide)
    · rfl
  simp only [hsign, hvalue]
  rw [if_pos ⟨Nat.toDigits_ne_nil, List.all_eq_true.mpr hdigits, n.toNat_lt⟩,
    UInt64.ofNat_toNat]

theorem isDigit_toString {n : ℕ} {c : Char} (h : c ∈ (toString (n : ℤ)).toList) : c.isDigit := by
  change c ∈ (toString n).toList at h
  rw [Nat.toString_eq_repr, Nat.toList_repr] at h
  exact Nat.isDigit_of_mem_toDigits (by decide) (by decide) h

theorem notMem_utf8_toString (n : ℕ) {c : Char} (hascii : c.toNat < 128) (hc : ¬ c.isDigit) :
    UInt8.ofNat c.toNat ∉ utf8 (toString (n : ℤ)) :=
  fun h => hc (isDigit_toString ((mem_utf8_ascii hascii).mp h))

theorem utf8_ne_nil {s : String} (h : s ≠ "") : utf8 s ≠ [] := by
  intro hnil
  have hs := fromUtf8?_utf8 s
  rw [hnil] at hs
  exact h (Option.some.inj hs).symm

theorem toString_ne_empty (n : ℕ) : toString (n : ℤ) ≠ "" := by
  change toString n ≠ ""
  rw [Nat.toString_eq_repr]
  exact Nat.repr_ne_empty

/-! ## The text a parameter list makes -/

/-- The strings among the parameters. -/
def texts (params : BuildBridgeOutIntentMessageParams) : List String :=
  [ params.fromChainId, params.toChainId, params.tokenSymbolOrMint, params.amount,
    params.feeTokenSymbolOrMint, params.feeAmount ]

/-- The message of the parameters, as lines of a text. -/
def messageText (params : BuildBridgeOutIntentMessageParams) : MessageText where
  blank := [newline]
  version := ⟨utf8 "0.3", [newline]⟩
  fromChainId := ⟨utf8 params.fromChainId, [newline]⟩
  toChainId := ⟨utf8 params.toChainId, [newline]⟩
  token := ⟨utf8 params.tokenSymbolOrMint, [newline]⟩
  amount := ⟨utf8 params.amount, [newline]⟩
  recipient := ⟨utf8 (toString params.minOut), [newline]⟩
  feeToken := ⟨utf8 params.feeTokenSymbolOrMint, [newline]⟩
  feeAmount := ⟨utf8 params.feeAmount, [newline]⟩
  nonce := ⟨utf8 (toString params.nonce), []⟩

/-- The lines of a text, without their endings. -/
def MessageText.chunks (recipientKey : String) (t : MessageText) : List Bytes :=
  (t.inner recipientKey).map (fun kl => keyValue kl.1 kl.2.text) ++ [keyValue "nonce" t.nonce.text]

theorem flatMap_bytes {lines : List (String × Line)} (last : Bytes)
    (h : ∀ kl ∈ lines, kl.2.ending = [newline]) :
    lines.flatMap (fun kl => kl.2.bytes kl.1) ++ last =
      [newline].intercalate (lines.map (fun kl => keyValue kl.1 kl.2.text) ++ [last]) := by
  induction lines with
  | nil => simp
  | cons kl lines ih =>
      have hhead := h kl (List.mem_cons_self ..)
      have ih := ih (fun kl' hkl' => h kl' (List.mem_cons_of_mem _ hkl'))
      rw [List.flatMap_cons, List.append_assoc, ih, List.map_cons, List.cons_append,
        List.intercalate_cons_of_ne_nil (by simp), Line.bytes, hhead]

/-- A text whose lines end with newlines is its lines joined. -/
theorem MessageText.bytes_eq {recipientKey : String} {t : MessageText}
    (hblank : t.blank = [newline])
    (hinner : ∀ kl ∈ t.inner recipientKey, kl.2.ending = [newline]) :
    t.bytes recipientKey = utf8 bridgeMessagePrefix ++ ([newline] ++
      ([newline].intercalate (t.chunks recipientKey) ++ t.nonce.ending)) := by
  have hlines := flatMap_bytes (keyValue "nonce" t.nonce.text) hinner
  rw [MessageText.bytes, hblank, Line.bytes, ← List.append_assoc (List.flatMap _ _), hlines,
    MessageText.chunks]

theorem lines_eq_chunks (params : BuildBridgeOutIntentMessageParams) :
    params.lines.map utf8 = utf8 bridgeMessagePrefix :: (messageText params).chunks "min_out" := by
  have hversion : utf8 ("version: " ++ toString intentVersionMajor ++ "." ++
      toString intentVersionMinor) = keyValue "version" (utf8 "0.3") := by decide
  simp only [BuildBridgeOutIntentMessageParams.lines, List.map_cons, List.map_nil, hversion]
  simp only [utf8_append]
  rfl

theorem build_eq_bytes (params : BuildBridgeOutIntentMessageParams) :
    buildBridgeOutIntentMessage params = (messageText params).bytes "min_out" := by
  have hsep : utf8 "\n" = [newline] := by decide
  rw [MessageText.bytes_eq rfl (by simp [MessageText.inner, messageText]),
    buildBridgeOutIntentMessage, utf8_intercalate, hsep, lines_eq_chunks,
    List.intercalate_cons_of_ne_nil (by simp [MessageText.chunks]), List.append_assoc]
  simp [messageText]

/-! ## One reading -/

theorem isLineEnding_newline {ending : Bytes} (h : IsLineEnding ending)
    (hcr : carriageReturn ∉ ending) : ending = [newline] := by
  rcases h with rfl | rfl
  · rfl
  · exact absurd (List.mem_cons_self ..) hcr

theorem newline_notMem_keyValue {key : String} {text : Bytes} (hkey : '\n' ∉ (key ++ ": ").toList)
    (htext : newline ∉ text) : newline ∉ keyValue key text := by
  have hbyte : newline ∉ utf8 (key ++ ": ") := fun h => hkey ((mem_utf8_ascii (by decide)).mp h)
  simp [keyValue, hbyte, htext]

theorem MessageText.Lines.chunks_free {recipientKey : String} {t : MessageText}
    (h : t.Lines recipientKey) (hkey : '\n' ∉ (recipientKey ++ ": ").toList) :
    ∀ c ∈ t.chunks recipientKey, newline ∉ c := by
  intro c hc
  rcases List.mem_append.mp hc with hc | hc
  · obtain ⟨kl, hkl, rfl⟩ := List.mem_map.mp hc
    have hline := (h.inner kl hkl).1
    refine newline_notMem_keyValue ?_ hline
    simp only [MessageText.inner, List.mem_cons, List.not_mem_nil, or_false] at hkl
    rcases hkl with rfl | rfl | rfl | rfl | rfl | rfl | rfl | rfl
    all_goals first | exact hkey | (dsimp only; decide)
  · rw [List.mem_singleton.mp hc]
    exact newline_notMem_keyValue (by decide) h.nonce.1

theorem MessageText.blank_subset (recipientKey : String) (t : MessageText) :
    t.blank ⊆ t.bytes recipientKey := by
  intro b hb
  simp [MessageText.bytes, hb]

theorem MessageText.inner_subset {recipientKey : String} {t : MessageText} {kl : String × Line}
    (h : kl ∈ t.inner recipientKey) : kl.2.bytes kl.1 ⊆ t.bytes recipientKey := by
  intro b hb
  have hmem : b ∈ (t.inner recipientKey).flatMap (fun kl => kl.2.bytes kl.1) :=
    List.mem_flatMap.mpr ⟨kl, h, hb⟩
  simp [MessageText.bytes, hmem]

theorem MessageText.getLast?_bytes {key : String} {t : MessageText}
    (h : t.nonce.text ++ t.nonce.ending ≠ []) :
    (t.bytes key).getLast? = (t.nonce.text ++ t.nonce.ending).getLast? := by
  have hsplit : t.bytes key = (utf8 bridgeMessagePrefix ++ (t.blank ++
      ((t.inner key).flatMap (fun kl => kl.2.bytes kl.1) ++ utf8 ("nonce" ++ ": ")))) ++
        (t.nonce.text ++ t.nonce.ending) := by
    simp only [MessageText.bytes, Line.bytes, keyValue, List.append_assoc]
  rw [hsplit, List.getLast?_append_of_ne_nil _ h]

/-- A text that a message of the client may be read as has the lines of that message. -/
theorem MessageText.chunks_eq {key : String} {t : MessageText} (ht : t.Lines key)
    (hkey : '\n' ∉ (key ++ ": ").toList) {params : BuildBridgeOutIntentMessageParams} {nonce : ℕ}
    (hnonce : params.nonce = nonce) (hcr : carriageReturn ∉ buildBridgeOutIntentMessage params)
    (heq : buildBridgeOutIntentMessage params = t.bytes key) :
    t.chunks key = (messageText params).chunks "min_out" := by
  have hcr' : carriageReturn ∉ t.bytes key := heq ▸ hcr
  have hblank : t.blank = [newline] :=
    isLineEnding_newline ht.blank (fun h => hcr' (t.blank_subset key h))
  have hinner : ∀ kl ∈ t.inner key, kl.2.ending = [newline] := by
    intro kl hkl
    refine isLineEnding_newline (ht.inner kl hkl).2 (fun h => hcr' (inner_subset hkl ?_))
    exact List.mem_append_right _ h
  rw [build_eq_bytes] at heq
  have hending : t.nonce.ending = [] := by
    rcases ht.nonce.2 with hends | ⟨hnil, -⟩
    · -- the message ends with a digit
      have hlast : t.nonce.ending = [newline] :=
        isLineEnding_newline hends (fun h => hcr' (by simp [MessageText.bytes, Line.bytes, h]))
      have hdigit : newline ∉ utf8 (toString params.nonce) := by
        rw [hnonce]
        exact notMem_utf8_toString nonce (c := '\n') (by decide) (by decide)
      have htext : utf8 (toString params.nonce) ≠ [] := by
        rw [hnonce]
        exact utf8_ne_nil (toString_ne_empty nonce)
      have hends := congrArg List.getLast? heq
      rw [getLast?_bytes (by simpa [messageText] using htext), getLast?_bytes (by simp [hlast]),
        hlast, List.getLast?_append_of_ne_nil _ (List.cons_ne_nil _ _)] at hends
      simp only [messageText, List.append_nil, List.getLast?_singleton] at hends
      exact absurd (List.mem_of_getLast? hends) hdigit
    · exact hnil
  rw [bytes_eq rfl (by simp [inner, messageText]), bytes_eq hblank hinner, hending] at heq
  refine intercalate_inj (ht.chunks_free hkey) (by simp [MessageText.chunks, MessageText.inner]) ?_
  simpa [messageText] using heq.symm

theorem carriageReturn_notMem_build {params : BuildBridgeOutIntentMessageParams} {minOut nonce : ℕ}
    (hminOut : params.minOut = minOut) (hnonce : params.nonce = nonce)
    (htexts : ∀ s ∈ texts params, '\r' ∉ s.toList) :
    carriageReturn ∉ buildBridgeOutIntentMessage params := by
  have htext : ∀ s ∈ texts params, carriageReturn ∉ utf8 s := fun s hs h =>
    htexts s hs ((mem_utf8_ascii (c := '\r') (by decide)).mp h)
  have hdigits : ∀ n : ℕ, carriageReturn ∉ utf8 (toString (n : ℤ)) := fun n =>
    notMem_utf8_toString n (c := '\r') (by decide) (by decide)
  have hkeys : ∀ key ∈ ["version", "from_chain_id", "to_chain_id", "token", "amount", "min_out",
      "fee_token", "fee_amount", "nonce"], carriageReturn ∉ utf8 (key ++ ": ") := by decide
  have hprefix : carriageReturn ∉ utf8 bridgeMessagePrefix := by decide
  have hversion : carriageReturn ∉ utf8 "0.3" := by decide
  have hnewline : carriageReturn ≠ newline := by decide
  simp only [texts, List.forall_mem_cons, List.not_mem_nil, false_implies, implies_true,
    and_true] at htext hkeys
  rw [build_eq_bytes]
  simp only [MessageText.bytes, MessageText.inner, messageText, Line.bytes, keyValue, hminOut,
    hnonce, List.flatMap_cons, List.flatMap_nil, List.append_nil, List.mem_append,
    List.mem_singleton, hprefix, hversion, hnewline, htext, hkeys, hdigits, or_self, not_false_iff]

/-- The parameters are what the message `m` says, with its floor and its nonce. -/
structure ReadsBack (I : Intents) (params : BuildBridgeOutIntentMessageParams)
    (minOut nonce : UInt64) (m : NttMessage) : Prop where
  version : m.version = ⟨0, 3⟩
  fromChainId : m.fromChainId = params.fromChainId
  toChainId : m.toChainId = params.toChainId
  token : I.symbolOrMintFromStr params.tokenSymbolOrMint = some m.symbolOrMint
  amount : m.amount = params.amount
  recipient : m.recipient = .minOut minOut
  feeToken : I.symbolOrMintFromStr params.feeTokenSymbolOrMint = some m.feeSymbolOrMint
  feeAmount : m.feeAmount = params.feeAmount
  nonce : m.nonce = nonce

theorem parseTo_utf8 {α : Type} (fromStr : String → Option α) (s : String) :
    parseTo fromStr (utf8 s) = fromStr s := by
  rw [parseTo, fromUtf8?_utf8, Option.bind_some]

/-- What the lines of the client's message are read as. -/
theorem reads_messageText_iff {I : Intents} (hI : I.Lawful)
    {params : BuildBridgeOutIntentMessageParams} {minOut nonce : UInt64}
    (hminOut : params.minOut = minOut.toNat) (hnonce : params.nonce = nonce.toNat)
    {m : NttMessage} :
    (messageText params).Reads I 3 readMinOut m ↔ ReadsBack I params minOut nonce m := by
  have hfloor : parseTo u64FromStr (utf8 (toString params.minOut)) = some minOut := by
    rw [hminOut, parseTo_utf8]
    exact u64FromStr_toString minOut
  have hcount : parseTo u64FromStr (utf8 (toString params.nonce)) = some nonce := by
    rw [hnonce, parseTo_utf8]
    exact u64FromStr_toString nonce
  constructor
  · rintro ⟨hv, -, -, hfrom, hto, htoken, hamount, hrecipient, hfeeToken, hfeeAmount, hn⟩
    simp only [messageText, parseTo_utf8, fromUtf8?_utf8, hI.version, hcount, readMinOut, hfloor,
      Option.map_some, Option.some.injEq]
      at hv hfrom hto htoken hamount hrecipient hfeeToken hfeeAmount hn
    exact ⟨hv.symm, hfrom.symm, hto.symm, htoken, hamount.symm, hrecipient.symm, hfeeToken,
      hfeeAmount.symm, hn.symm⟩
  · rintro ⟨hv, hfrom, hto, htoken, hamount, hrecipient, hfeeToken, hfeeAmount, hn⟩
    constructor <;>
      simp only [messageText, parseTo_utf8, fromUtf8?_utf8, hI.version, hcount, readMinOut, hfloor,
        Option.map_some, hv, hfrom, hto, htoken, hamount, hrecipient, hfeeToken, hfeeAmount, hn]

theorem keyValue_head (key : String) (text : Bytes) :
    (keyValue key text).head? = (utf8 (key ++ ": ")).head? := by
  have hne : utf8 (key ++ ": ") ≠ [] := utf8_ne_nil (by simp)
  rw [keyValue, List.head?_append_of_ne_nil _ hne]

/-- The lines of the client's message are what its parameters are. -/
theorem MessageText.eq_of_chunks {t t' : MessageText}
    (h : t.chunks "min_out" = t'.chunks "min_out") :
    t.version.text = t'.version.text ∧ t.fromChainId.text = t'.fromChainId.text ∧
      t.toChainId.text = t'.toChainId.text ∧ t.token.text = t'.token.text ∧
      t.amount.text = t'.amount.text ∧ t.recipient.text = t'.recipient.text ∧
      t.feeToken.text = t'.feeToken.text ∧ t.feeAmount.text = t'.feeAmount.text ∧
      t.nonce.text = t'.nonce.text := by
  simpa [MessageText.chunks, MessageText.inner, keyValue] using h

/-- What a text says depends on its lines only. -/
theorem MessageText.Reads.congr {I : Intents} {minor : ℕ} {read : Bytes → Option Recipient}
    {t t' : MessageText} {m : NttMessage} (h : t.chunks "min_out" = t'.chunks "min_out")
    (ht : t.Reads I minor read m) : t'.Reads I minor read m := by
  obtain ⟨h₁, h₂, h₃, h₄, h₅, h₆, h₇, h₈, h₉⟩ := eq_of_chunks h
  obtain ⟨c₁, c₂, c₃, c₄, c₅, c₆, c₇, c₈, c₉, c₁₀, c₁₁⟩ := ht
  exact ⟨h₁ ▸ c₁, c₂, c₃, h₂ ▸ c₄, h₃ ▸ c₅, h₄ ▸ c₆, h₅ ▸ c₇, h₆ ▸ c₈, h₇ ▸ c₉, h₈ ▸ c₁₀,
    h₉ ▸ c₁₁⟩

/-- An accepted message of the client says what its parameters say. -/
theorem build_reads {I : Intents} (hI : I.Lawful) (params : BuildBridgeOutIntentMessageParams)
    (minOut nonce : UInt64) (hminOut : params.minOut = minOut.toNat)
    (hnonce : params.nonce = nonce.toNat) (htexts : ∀ s ∈ texts params, '\r' ∉ s.toList)
    {m : NttMessage}
    (h : bridgeMessageTryFrom I (buildBridgeOutIntentMessage params) = some (.ntt m)) :
    ReadsBack I params minOut nonce m := by
  have hcr := carriageReturn_notMem_build hminOut hnonce htexts
  rcases bridgeMessage_reads hI h with ⟨t, heq, hlines, -⟩ | ⟨t, heq, hlines, ht⟩
  · -- the line of the floor is no line of an address
    have hchunks := t.chunks_eq hlines (by decide) hnonce hcr heq
    simp only [MessageText.chunks, MessageText.inner, List.map_cons, List.cons_append,
      List.cons.injEq] at hchunks
    have hkeys := congrArg List.head? hchunks.2.2.2.2.2.1
    rw [keyValue_head, keyValue_head] at hkeys
    exact absurd hkeys (by decide)
  · have hchunks := t.chunks_eq hlines (by decide) hnonce hcr heq
    exact (reads_messageText_iff hI hminOut hnonce).mp (ht.congr hchunks)

/-- A message of the client whose strings are not empty and have no line ending is accepted. -/
theorem build_accepts {I : Intents} (hI : I.Lawful) (params : BuildBridgeOutIntentMessageParams)
    (minOut nonce : UInt64) (hminOut : params.minOut = minOut.toNat)
    (hnonce : params.nonce = nonce.toNat)
    (htexts : ∀ s ∈ texts params, s ≠ "" ∧ '\n' ∉ s.toList ∧ '\r' ∉ s.toList) :
    ∃ m, bridgeMessageTryFrom I (buildBridgeOutIntentMessage params) = some (.ntt m) := by
  have hline : ∀ s ∈ texts params, newline ∉ utf8 s ∧ utf8 s ≠ [] ∧ carriageReturn ∉ utf8 s :=
    fun s hs => ⟨fun h => (htexts s hs).2.1 ((mem_utf8_ascii (c := '\n') (by decide)).mp h),
      utf8_ne_nil (htexts s hs).1,
      fun h => (htexts s hs).2.2 ((mem_utf8_ascii (c := '\r') (by decide)).mp h)⟩
  have hdigits : ∀ n : ℕ, newline ∉ utf8 (toString (n : ℤ)) ∧ utf8 (toString (n : ℤ)) ≠ [] ∧
      carriageReturn ∉ utf8 (toString (n : ℤ)) := fun n =>
    ⟨notMem_utf8_toString n (c := '\n') (by decide) (by decide),
      utf8_ne_nil (toString_ne_empty n),
      notMem_utf8_toString n (c := '\r') (by decide) (by decide)⟩
  have hversion : newline ∉ utf8 "0.3" ∧ utf8 "0.3" ≠ [] ∧ carriageReturn ∉ utf8 "0.3" := by decide
  simp only [texts, List.forall_mem_cons, List.not_mem_nil, false_implies, implies_true,
    and_true] at hline
  obtain ⟨h₁, h₂, h₃, h₄, h₅, h₆⟩ := hline
  have hfloor := hminOut ▸ hdigits minOut.toNat
  have hcount := hnonce ▸ hdigits nonce.toNat
  have hinner : ∀ kl ∈ (messageText params).inner "min_out", newline ∉ kl.2.text ∧
      IsLineEnding kl.2.ending ∧ kl.2.Readable := by
    have hend : IsLineEnding [newline] := .inl rfl
    simp only [MessageText.inner, messageText, List.forall_mem_cons, List.not_mem_nil,
      false_implies, implies_true, and_true, Line.Readable]
    exact ⟨⟨hversion.1, hend, hversion.2⟩, ⟨h₁.1, hend, h₁.2⟩, ⟨h₂.1, hend, h₂.2⟩,
      ⟨h₃.1, hend, h₃.2⟩, ⟨h₄.1, hend, h₄.2⟩, ⟨hfloor.1, hend, hfloor.2⟩, ⟨h₅.1, hend, h₅.2⟩,
      ⟨h₆.1, hend, h₆.2⟩⟩
  obtain ⟨token, htoken⟩ := Option.isSome_iff_exists.mp
    (hI.symbolOrMint params.tokenSymbolOrMint (htexts _ (by simp [texts])).1)
  obtain ⟨feeToken, hfeeToken⟩ := Option.isSome_iff_exists.mp
    (hI.symbolOrMint params.feeTokenSymbolOrMint (htexts _ (by simp [texts])).1)
  refine ⟨⟨⟨0, 3⟩, params.fromChainId, token, params.amount, params.toChainId, .minOut minOut,
    params.feeAmount, feeToken, nonce⟩, ?_⟩
  rw [build_eq_bytes]
  refine bridgeMessage_accepts hI
    ⟨.inl rfl, fun kl hkl => ⟨(hinner kl hkl).1, (hinner kl hkl).2.1⟩, hcount.1, .inr ⟨rfl, rfl⟩⟩
    ⟨fun kl hkl => (hinner kl hkl).2.2, hcount.2⟩ ?_
  exact (reads_messageText_iff hI hminOut hnonce).mpr
    ⟨rfl, rfl, rfl, htoken, rfl, rfl, hfeeToken, rfl, rfl⟩

/-- What the program reads of a message of the client is what the client wrote, whatever lines the
parameters hold; and it reads every message whose parameters are one line each. -/
theorem intent_codec {I : Intents} (hI : I.Lawful) (params : BuildBridgeOutIntentMessageParams)
    (minOut nonce : UInt64) (hminOut : params.minOut = minOut.toNat)
    (hnonce : params.nonce = nonce.toNat) (htexts : ∀ s ∈ texts params, '\r' ∉ s.toList) :
    (∀ m, bridgeMessageTryFrom I (buildBridgeOutIntentMessage params) = some (.ntt m) →
      ReadsBack I params minOut nonce m) ∧
    ((∀ s ∈ texts params, s ≠ "" ∧ '\n' ∉ s.toList) →
      ∃ m, bridgeMessageTryFrom I (buildBridgeOutIntentMessage params) = some (.ntt m)) := by
  constructor
  · intro m h
    exact build_reads hI params minOut nonce hminOut hnonce htexts h
  · intro h
    exact build_accepts hI params minOut nonce hminOut hnonce
      (fun s hs => ⟨(h s hs).1, (h s hs).2, htexts s hs⟩)

/-- A transfer as the reference parser reads it. -/
theorem intent_codec_bridgeOut :
    (∀ m, bridgeMessageTryFrom referenceIntents
        (buildBridgeOutIntentMessage (bridgeOutParams 9850000000)) = some (.ntt m) →
      ReadsBack referenceIntents (bridgeOutParams 9850000000) 9850000000 8 m) ∧
    ∃ m, bridgeMessageTryFrom referenceIntents
      (buildBridgeOutIntentMessage (bridgeOutParams 9850000000)) = some (.ntt m) := by
  obtain ⟨hreads, haccepts⟩ := intent_codec referenceIntents_lawful (bridgeOutParams 9850000000)
    9850000000 8 rfl rfl (by decide)
  exact ⟨hreads, haccepts (by decide)⟩

end FogoYield.Intent
