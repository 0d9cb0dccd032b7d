import FogoYield.Model.Intent.Message

/-! # What the message grammar accepts

A message is a header and nine lines. It is accepted exactly as the text of these lines is read. -/

namespace FogoYield.Intent

open FogoYield.Library FogoYield.Solana
open FogoYield.Library.Parser (IsLineEnding newline carriageReturn isLineEnding_cancel
  bind_eq_some pure_eq_some tag_eq_some lineEnding_eq_some eof_eq_some verify_eq_some alt_eq_some)

structure Line where
  text : Bytes
  ending : Bytes

def Line.bytes (key : String) (l : Line) : Bytes := keyValue key l.text ++ l.ending

/-- The text of a message: the ending of the blank line, and the lines in their order. -/
structure MessageText where
  blank : Bytes
  version : Line
  fromChainId : Line
  toChainId : Line
  token : Line
  amount : Line
  recipient : Line
  feeToken : Line
  feeAmount : Line
  nonce : Line

/-- The lines before the last, with their keys. -/
def MessageText.inner (recipientKey : String) (t : MessageText) : List (String × Line) :=
  [ ("version", t.version), ("from_chain_id", t.fromChainId), ("to_chain_id", t.toChainId),
    ("token", t.token), ("amount", t.amount), (recipientKey, t.recipient),
    ("fee_token", t.feeToken), ("fee_amount", t.feeAmount) ]

def MessageText.bytes (recipientKey : String) (t : MessageText) : Bytes :=
  utf8 bridgeMessagePrefix ++ (t.blank ++
    ((t.inner recipientKey).flatMap (fun kl => kl.2.bytes kl.1) ++ t.nonce.bytes "nonce"))

/-- The message `m` is what the lines of `t` say. -/
structure MessageText.Reads (I : Intents) (minor : ℕ) (readRecipient : Bytes → Option Recipient)
    (t : MessageText) (m : NttMessage) : Prop where
  version : parseTo I.versionFromStr t.version.text = some m.version
  major_eq : m.version.major = 0
  minor_eq : m.version.minor = minor
  fromChainId : fromUtf8? t.fromChainId.text = some m.fromChainId
  toChainId : fromUtf8? t.toChainId.text = some m.toChainId
  token : parseTo I.symbolOrMintFromStr t.token.text = some m.symbolOrMint
  amount : fromUtf8? t.amount.text = some m.amount
  recipient : readRecipient t.recipient.text = some m.recipient
  feeToken : parseTo I.symbolOrMintFromStr t.feeToken.text = some m.feeSymbolOrMint
  feeAmount : fromUtf8? t.feeAmount.text = some m.feeAmount
  nonce : parseTo u64FromStr t.nonce.text = some m.nonce

/-- Every line is one line, and only the last may end with the input. -/
structure MessageText.Lines (recipientKey : String) (t : MessageText) : Prop where
  blank : IsLineEnding t.blank
  inner : ∀ kl ∈ t.inner recipientKey, newline ∉ kl.2.text ∧ IsLineEnding kl.2.ending
  nonce : newline ∉ t.nonce.text ∧ EndsLine t.nonce.ending []

theorem keyValue_ne_nil (key : String) (text : Bytes) : keyValue key text ≠ [] := by
  intro h
  have hcolon : utf8 ": " = [58, 32] := by decide
  rw [keyValue, utf8_append, hcolon] at h
  simp at h

theorem Line.bytes_ne_nil (key : String) (l : Line) (r : Bytes) : l.bytes key ++ r ≠ [] := by
  intro h
  rw [Line.bytes] at h
  simp [keyValue_ne_nil] at h

theorem EndsLine.isLineEnding {ending rest : Bytes} (h : EndsLine ending rest) (hr : rest ≠ []) :
    IsLineEnding ending := h.resolve_right (fun he => hr he.2)

theorem parseTo_some (line : Bytes) : parseTo some line = fromUtf8? line := by
  cases h : fromUtf8? line <;> simp [parseTo, h]

/-- One line read. -/
theorem Intents.Lawful.reads_line {I : Intents} (hI : I.Lawful) {α : Type} {key : String}
    {convert : Bytes → Option α} {input rest : Bytes} {a : α}
    (h : I.tagKeyValue key convert input = some (a, rest)) :
    ∃ l : Line, input = l.bytes key ++ rest ∧ newline ∉ l.text ∧ EndsLine l.ending rest ∧
      convert l.text = some a := by
  obtain ⟨text, ending, hinput, hline, hends, hconvert⟩ := hI.reads h
  exact ⟨⟨text, ending⟩, hinput, hline, hends, hconvert⟩

/-- The reader of the line the versions differ in. -/
def recipientLine {α : Type} (I : Intents) (key : String) (convert : Bytes → Option α)
    (mk : α → Recipient) : Parser Recipient := do
  let a ← I.tagKeyValue key convert
  return mk a

theorem messageNttOf_reads {I : Intents} (hI : I.Lawful) {α : Type} {minor : ℕ} {key : String}
    {convert : Bytes → Option α} {mk : α → Recipient} {input rest : Bytes} {m : NttMessage}
    (h : messageNttOf I minor (recipientLine I key convert mk) input = some (m, rest)) :
    ∃ t : MessageText, input = t.bytes key ∧ t.Lines key ∧
      t.Reads I minor (fun text => (convert text).map mk) m := by
  simp only [messageNttOf, recipientLine, bind_eq_some, pure_eq_some, tag_eq_some,
    lineEnding_eq_some, verify_eq_some, eof_eq_some] at h
  obtain ⟨-, r₀, rfl, -, r₁, ⟨blank, hblank, rfl⟩, version, r₂, ⟨hversion, hminor⟩,
    fromChainId, r₃, hfrom, toChainId, r₄, hto, token, r₅, htoken, amount, r₆, hamount,
    recipient, r₇, ⟨floor, r₇', hrecipient, hmk⟩, feeToken, r₈, hfeeToken, feeAmount, r₉,
    hfeeAmount, nonce, r₁₀, hnonce, -, r₁₁, ⟨hlast, -⟩, hm⟩ := h
  obtain ⟨rfl, rfl⟩ := Prod.mk.inj hmk
  obtain ⟨rfl, -⟩ := Prod.mk.inj hm
  subst hlast
  -- line by line, each leaves the next as its rest
  obtain ⟨l₁, rfl, ht₁, he₁, hv₁⟩ := hI.reads_line hversion
  obtain ⟨l₂, rfl, ht₂, he₂, hv₂⟩ := hI.reads_line hfrom
  obtain ⟨l₃, rfl, ht₃, he₃, hv₃⟩ := hI.reads_line hto
  obtain ⟨l₄, rfl, ht₄, he₄, hv₄⟩ := hI.reads_line htoken
  obtain ⟨l₅, rfl, ht₅, he₅, hv₅⟩ := hI.reads_line hamount
  obtain ⟨l₆, rfl, ht₆, he₆, hv₆⟩ := hI.reads_line hrecipient
  obtain ⟨l₇, rfl, ht₇, he₇, hv₇⟩ := hI.reads_line hfeeToken
  obtain ⟨l₈, rfl, ht₈, he₈, hv₈⟩ := hI.reads_line hfeeAmount
  obtain ⟨l₉, rfl, ht₉, he₉, hv₉⟩ := hI.reads_line hnonce
  rw [decide_eq_true_eq] at hminor
  rw [parseTo_some] at hv₂ hv₃ hv₅ hv₈
  refine ⟨⟨blank, l₁, l₂, l₃, l₄, l₅, l₆, l₇, l₈, l₉⟩, ?_, ⟨hblank, ?_, ht₉, he₉⟩, ?_⟩
  · simp [MessageText.bytes, MessageText.inner]
  · simp only [MessageText.inner, List.forall_mem_cons, List.not_mem_nil, false_implies,
      implies_true, and_true]
    exact ⟨⟨ht₁, he₁.isLineEnding (Line.bytes_ne_nil _ _ _)⟩,
      ⟨ht₂, he₂.isLineEnding (Line.bytes_ne_nil _ _ _)⟩,
      ⟨ht₃, he₃.isLineEnding (Line.bytes_ne_nil _ _ _)⟩,
      ⟨ht₄, he₄.isLineEnding (Line.bytes_ne_nil _ _ _)⟩,
      ⟨ht₅, he₅.isLineEnding (Line.bytes_ne_nil _ _ _)⟩,
      ⟨ht₆, he₆.isLineEnding (Line.bytes_ne_nil _ _ _)⟩,
      ⟨ht₇, he₇.isLineEnding (Line.bytes_ne_nil _ _ _)⟩,
      ⟨ht₈, he₈.isLineEnding (Line.bytes_ne_nil _ _ _)⟩⟩
  · exact ⟨hv₁, hminor.1, hminor.2, hv₂, hv₃, hv₄, hv₅, congrArg (Option.map mk) hv₆, hv₇, hv₈, hv₉⟩

theorem messageNttV2_eq (I : Intents) :
    messageNttV2 I = messageNttOf I 2 (recipientLine I "recipient_address" (parseTo some)
      .address) := rfl

theorem messageNttV3_eq (I : Intents) :
    messageNttV3 I = messageNttOf I 3 (recipientLine I "min_out" (parseTo u64FromStr)
      .minOut) := rfl

/-- The readers of the line the versions differ in. -/
def readAddress (text : Bytes) : Option Recipient := (parseTo some text).map .address
def readMinOut (text : Bytes) : Option Recipient := (parseTo u64FromStr text).map .minOut

/-- An accepted message is the text of one of the two versions. -/
theorem bridgeMessage_reads {I : Intents} (hI : I.Lawful) {input : Bytes} {m : NttMessage}
    (h : bridgeMessageTryFrom I input = some (.ntt m)) :
    (∃ t : MessageText, input = t.bytes "recipient_address" ∧ t.Lines "recipient_address" ∧
      t.Reads I 2 readAddress m) ∨
    ∃ t : MessageText, input = t.bytes "min_out" ∧ t.Lines "min_out" ∧ t.Reads I 3 readMinOut m := by
  unfold bridgeMessageTryFrom at h
  split at h
  · rename_i m' rest hparse
    cases h
    rcases alt_eq_some.mp hparse with hv2 | ⟨-, hv3⟩
    · exact .inl (messageNttOf_reads hI hv2)
    · exact .inr (messageNttOf_reads hI hv3)
  · cases h

/-- A message with a floor is a v0.3 message. -/
theorem minOut_reads {I : Intents} (hI : I.Lawful) {input : Bytes} {m : NttMessage}
    {floor : UInt64} (h : bridgeMessageTryFrom I input = some (.ntt m))
    (hfloor : m.recipient = .minOut floor) :
    ∃ t : MessageText, input = t.bytes "min_out" ∧ t.Lines "min_out" ∧
      t.Reads I 3 readMinOut m := by
  rcases bridgeMessage_reads hI h with ⟨t, -, -, ht⟩ | hv3
  · have hrecipient := ht.recipient
    rw [readAddress, hfloor] at hrecipient
    obtain ⟨_, -, hne⟩ := Option.map_eq_some_iff.mp hrecipient
    cases hne
  · exact hv3

/-! ## Acceptance -/

/-- The text of a line can be read back: it is not empty and has no carriage return. -/
def Line.Readable (l : Line) : Prop := l.text ≠ [] ∧ carriageReturn ∉ l.text

structure MessageText.Readable (recipientKey : String) (t : MessageText) : Prop where
  inner : ∀ kl ∈ t.inner recipientKey, kl.2.Readable
  nonce : t.nonce.Readable

theorem Intents.Lawful.accepts_line {I : Intents} (hI : I.Lawful) {α : Type} {key : String}
    {convert : Bytes → Option α} {l : Line} {rest : Bytes} {a : α} (hline : newline ∉ l.text)
    (hread : l.Readable) (hends : EndsLine l.ending rest) (hconvert : convert l.text = some a) :
    I.tagKeyValue key convert (l.bytes key ++ rest) = some (a, rest) :=
  hI.accepts key convert l.text l.ending rest a hread.1 hline hread.2 hends hconvert

/-- Every text whose lines are read as the message says is accepted as that message. -/
theorem messageNttOf_accepts {I : Intents} (hI : I.Lawful) {α : Type} {minor : ℕ} {key : String}
    {convert : Bytes → Option α} {mk : α → Recipient} {t : MessageText} {m : NttMessage}
    (hlines : t.Lines key) (hreadable : t.Readable key)
    (ht : t.Reads I minor (fun text => (convert text).map mk) m) :
    messageNttOf I minor (recipientLine I key convert mk) (t.bytes key) = some (m, []) := by
  obtain ⟨a, ha, hmk⟩ := Option.map_eq_some_iff.mp ht.recipient
  have hinner := hlines.inner
  have hread := hreadable.inner
  simp only [MessageText.inner, List.forall_mem_cons, List.not_mem_nil, false_implies,
    implies_true, and_true] at hinner hread
  obtain ⟨h₁, h₂, h₃, h₄, h₅, h₆, h₇, h₈⟩ := hinner
  obtain ⟨c₁, c₂, c₃, c₄, c₅, c₆, c₇, c₈⟩ := hread
  simp only [messageNttOf, recipientLine, MessageText.bytes, MessageText.inner, List.flatMap_cons,
    List.flatMap_nil, List.append_nil, List.append_assoc, bind_eq_some, pure_eq_some, tag_eq_some,
    lineEnding_eq_some, verify_eq_some, eof_eq_some]
  refine ⟨(), _, rfl, (), _, ⟨t.blank, hlines.blank, rfl⟩, m.version, _,
    ⟨hI.accepts_line h₁.1 c₁ (.inl h₁.2) ht.version,
      decide_eq_true ⟨ht.major_eq, ht.minor_eq⟩⟩,
    _, _, hI.accepts_line h₂.1 c₂ (.inl h₂.2) ((parseTo_some _).trans ht.fromChainId),
    _, _, hI.accepts_line h₃.1 c₃ (.inl h₃.2) ((parseTo_some _).trans ht.toChainId),
    _, _, hI.accepts_line h₄.1 c₄ (.inl h₄.2) ht.token,
    _, _, hI.accepts_line h₅.1 c₅ (.inl h₅.2) ((parseTo_some _).trans ht.amount),
    _, _, ⟨a, _, hI.accepts_line h₆.1 c₆ (.inl h₆.2) ha, rfl⟩,
    _, _, hI.accepts_line h₇.1 c₇ (.inl h₇.2) ht.feeToken,
    _, _, hI.accepts_line h₈.1 c₈ (.inl h₈.2) ((parseTo_some _).trans ht.feeAmount),
    m.nonce, [], ?_, (), [], ⟨rfl, rfl⟩, ?_⟩
  · have hlast : I.tagKeyValue "nonce" (parseTo u64FromStr) (t.nonce.bytes "nonce" ++ []) =
        some (m.nonce, []) :=
      hI.accepts_line hlines.nonce.1 hreadable.nonce hlines.nonce.2 ht.nonce
    rwa [List.append_nil] at hlast
  · rw [hmk]

/-- The first alternative refuses a text whose version line says another minor version. -/
theorem messageNttV2_refuses {I : Intents} (hI : I.Lawful) {t : MessageText} {m : NttMessage}
    (hlines : t.Lines "min_out") (hreadable : t.Readable "min_out")
    (ht : t.Reads I 3 readMinOut m) : messageNttV2 I (t.bytes "min_out") = none := by
  rw [messageNttV2_eq]
  cases hparse : messageNttOf I 2 (recipientLine I "recipient_address" (parseTo some) .address)
    (t.bytes "min_out") with
  | none => rfl
  | some r =>
      exfalso
      simp only [messageNttOf, MessageText.bytes, MessageText.inner, List.flatMap_cons,
        bind_eq_some, tag_eq_some, lineEnding_eq_some, verify_eq_some] at hparse
      obtain ⟨-, r₀, hr₀, -, r₁, ⟨blank, hblank, hr₁⟩, version, r₂, ⟨hversion, hminor⟩, -⟩ := hparse
      -- up to the version line there is one reading
      obtain rfl := List.append_cancel_left hr₀
      obtain rfl := isLineEnding_cancel hlines.blank hblank hr₁
      have hline := hlines.inner ("version", t.version) (List.mem_cons_self ..)
      have hread := hreadable.inner ("version", t.version) (List.mem_cons_self ..)
      rw [List.append_assoc, tagVersion,
        hI.accepts_line hline.1 hread (.inl hline.2) ht.version] at hversion
      obtain ⟨rfl, -⟩ := Prod.mk.inj (Option.some.inj hversion)
      have hminor' := (of_decide_eq_true hminor).2
      rw [ht.minor_eq] at hminor'
      exact absurd hminor' (by decide)

/-- Every text that reads as a v0.3 message is accepted as that message. -/
theorem bridgeMessage_accepts {I : Intents} (hI : I.Lawful) {t : MessageText} {m : NttMessage}
    (hlines : t.Lines "min_out") (hreadable : t.Readable "min_out")
    (ht : t.Reads I 3 readMinOut m) :
    bridgeMessageTryFrom I (t.bytes "min_out") = some (.ntt m) := by
  have hv3 : messageNttV3 I (t.bytes "min_out") = some (m, []) := by
    rw [messageNttV3_eq]
    exact messageNttOf_accepts hI hlines hreadable ht
  have hparse : messageNtt I (t.bytes "min_out") = some (m, []) :=
    alt_eq_some.mpr (.inr ⟨messageNttV2_refuses hI hlines hreadable ht, hv3⟩)
  rw [bridgeMessageTryFrom, hparse]

end FogoYield.Intent
