import FogoYield.Verification.Intent.Codec
import FogoYield.Verification.Sdk.SignedFloors

/-! # The floor the cranker reads

The program reads a floor with a sign or leading zeros; the client's scan reads the canonical
numeral only. -/

namespace FogoYield.Intent

open FogoYield.Library FogoYield.Sdk
open FogoYield.Library.Parser (IsLineEnding newline carriageReturn)

/-! ## The lines of the text -/

/-- The key of a line and the colon are ASCII. -/
def isAsciiKey (key : String) : Bool := (key ++ ": ").toList.all (fun c => c.toNat < 128)

theorem decode_keyValue {key : String} (hkey : isAsciiKey key) (text : Bytes) :
    lossyDecode none (keyValue key text) = (key ++ ": ").toList ++ lossyDecode none text :=
  lossyDecode_ascii (fun c hc => of_decide_eq_true (List.all_eq_true.mp hkey c hc)) text

/-- A line without its newline. -/
def Line.content (key : String) (l : Line) : Bytes := keyValue key (l.text ++ l.ending.dropLast)

def MessageText.before (t : MessageText) : List Bytes :=
  [ t.blank.dropLast, t.version.content "version", t.fromChainId.content "from_chain_id",
    t.toChainId.content "to_chain_id", t.token.content "token", t.amount.content "amount" ]

def MessageText.after (t : MessageText) : List Bytes :=
  [ t.feeToken.content "fee_token", t.feeAmount.content "fee_amount", t.nonce.content "nonce" ] ++
    if t.nonce.ending = [] then [] else [[]]

theorem isLineEnding_concat {ending : Bytes} (h : IsLineEnding ending) :
    ∃ cr, (cr = [] ∨ cr = [carriageReturn]) ∧ ending = cr ++ [newline] := by
  rcases h with rfl | rfl
  · exact ⟨[], .inl rfl, rfl⟩
  · exact ⟨[carriageReturn], .inr rfl, rfl⟩

theorem MessageText.bytes_eq_lines {t : MessageText} (ht : t.Lines "min_out") :
    t.bytes "min_out" = utf8 "Fogo Bridge" ++
      (t.before ++ t.recipient.content "min_out" :: t.after).flatMap (newline :: ·) := by
  have hpre : utf8 bridgeMessagePrefix = utf8 "Fogo Bridge" ++ [newline] := by decide
  obtain ⟨cr, -, hblank⟩ := isLineEnding_concat ht.blank
  have hends : ∀ kl ∈ t.inner "min_out", ∃ cr, kl.2.ending = cr ++ [newline] := by
    intro kl hkl
    obtain ⟨cr, -, hcr⟩ := isLineEnding_concat (ht.inner kl hkl).2
    exact ⟨cr, hcr⟩
  simp only [MessageText.inner, List.forall_mem_cons, List.not_mem_nil, false_implies,
    implies_true, and_true] at hends
  obtain ⟨⟨c₁, h₁⟩, ⟨c₂, h₂⟩, ⟨c₃, h₃⟩, ⟨c₄, h₄⟩, ⟨c₅, h₅⟩, ⟨c₆, h₆⟩, ⟨c₇, h₇⟩, ⟨c₈, h₈⟩⟩ := hends
  have hlast : t.nonce.ending.dropLast ++
      (if t.nonce.ending = [] then [] else [[]] : List Bytes).flatMap (newline :: ·) =
        t.nonce.ending := by
    rcases ht.nonce.2 with hends | ⟨hnil, -⟩
    · obtain ⟨cr, -, hcr⟩ := isLineEnding_concat hends
      simp [hcr]
    · simp [hnil]
  simp only [MessageText.bytes, MessageText.inner, MessageText.before, MessageText.after,
    hlast, hpre, hblank, Line.bytes, Line.content, keyValue, h₁, h₂, h₃, h₄, h₅, h₆, h₇, h₈,
    List.dropLast_concat, List.flatMap_cons, List.flatMap_nil, List.append_assoc,
    List.cons_append, List.nil_append]

theorem notMem_dropLast {ending : Bytes} (h : IsLineEnding ending ∨ ending = []) :
    newline ∉ ending.dropLast := by
  rcases h with (rfl | rfl) | rfl <;> decide

/-- A line whose key does not begin as the floor's is skipped. -/
theorem skipped_line {key : String} {l : Line} (hkey : isAsciiKey key)
    (hnewline : '\n' ∉ (key ++ ": ").toList) (hhead : key.toList.head? ≠ some 'm')
    (hne : key.toList ≠ []) (hline : newline ∉ l.text)
    (hends : IsLineEnding l.ending ∨ l.ending = []) :
    '\n' ∉ lossyDecode none (l.content key) ∧
      (lossyDecode none (l.content key)).head? ≠ some 'm' := by
  have htext : newline ∉ l.text ++ l.ending.dropLast := by
    intro h
    exact (List.mem_append.mp h).elim hline (notMem_dropLast hends)
  constructor
  · exact newline_notMem_decode (newline_notMem_keyValue hnewline htext)
  · rw [Line.content, decode_keyValue hkey, String.toList_append, List.append_assoc,
      List.head?_append_of_ne_nil _ hne]
    exact hhead

/-- Every line but the floor's is skipped. -/
theorem MessageText.Lines.skipped {t : MessageText} (ht : t.Lines "min_out") :
    ∀ line ∈ t.before ++ t.after,
      '\n' ∉ lossyDecode none line ∧ (lossyDecode none line).head? ≠ some 'm' := by
  have hinner := ht.inner
  simp only [MessageText.inner, List.forall_mem_cons, List.not_mem_nil, false_implies,
    implies_true, and_true] at hinner
  obtain ⟨h₁, h₂, h₃, h₄, h₅, -, h₇, h₈⟩ := hinner
  have hlast : IsLineEnding t.nonce.ending ∨ t.nonce.ending = [] :=
    ht.nonce.2.imp_right And.left
  have hblank : '\n' ∉ lossyDecode none t.blank.dropLast ∧
      (lossyDecode none t.blank.dropLast).head? ≠ some 'm' := by
    rcases ht.blank with h | h <;> rw [h] <;> decide
  have hempty : '\n' ∉ lossyDecode none [] ∧ (lossyDecode none []).head? ≠ some 'm' := by decide
  intro line hline
  simp only [MessageText.before, MessageText.after, List.mem_append, List.mem_cons,
    List.not_mem_nil, or_false] at hline
  rcases hline with (rfl | rfl | rfl | rfl | rfl | rfl) | (rfl | rfl | rfl) | hend
  · exact hblank
  · exact skipped_line (by decide) (by decide) (by decide) (by decide) h₁.1 (.inl h₁.2)
  · exact skipped_line (by decide) (by decide) (by decide) (by decide) h₂.1 (.inl h₂.2)
  · exact skipped_line (by decide) (by decide) (by decide) (by decide) h₃.1 (.inl h₃.2)
  · exact skipped_line (by decide) (by decide) (by decide) (by decide) h₄.1 (.inl h₄.2)
  · exact skipped_line (by decide) (by decide) (by decide) (by decide) h₅.1 (.inl h₅.2)
  · exact skipped_line (by decide) (by decide) (by decide) (by decide) h₇.1 (.inl h₇.2)
  · exact skipped_line (by decide) (by decide) (by decide) (by decide) h₈.1 (.inl h₈.2)
  · exact skipped_line (by decide) (by decide) (by decide) (by decide) ht.nonce.1 hlast
  · split at hend
    · cases hend
    · rw [List.mem_singleton.mp hend]
      exact hempty

/-! ## The floor's line -/

/-- What stands on the line of the floor, as the scan sees it. -/
def MessageText.spelling (t : MessageText) : List Char :=
  lossyDecode none (t.recipient.text ++ t.recipient.ending.dropLast)

theorem decode_recipient (t : MessageText) :
    lossyDecode none (t.recipient.content "min_out") = minOutKey ++ t.spelling :=
  decode_keyValue (by decide) _

theorem lines_bytes {t : MessageText} (ht : t.Lines "min_out") :
    (textDecode (t.bytes "min_out")).splitOn '\n' =
      ("Fogo Bridge".toList :: t.before.map (lossyDecode none)) ++
        (minOutKey ++ t.spelling) :: t.after.map (lossyDecode none) := by
  have hfirst : lossyDecode none (utf8 "Fogo Bridge") = "Fogo Bridge".toList := by decide
  have hdecode : lossyDecode none (t.bytes "min_out") = "Fogo Bridge".toList ++
      (t.before.map (lossyDecode none) ++ (minOutKey ++ t.spelling) ::
        t.after.map (lossyDecode none)).flatMap ('\n' :: ·) := by
    rw [t.bytes_eq_lines ht, decode_lines, hfirst, List.map_append, List.map_cons,
      decode_recipient]
  have htext : textDecode (t.bytes "min_out") = "Fogo Bridge".toList ++
      (t.before.map (lossyDecode none) ++ (minOutKey ++ t.spelling) ::
        t.after.map (lossyDecode none)).flatMap ('\n' :: ·) := by
    rw [textDecode, hdecode]
    rfl
  have hspelling : '\n' ∉ t.spelling := by
    have hrecipient := ht.inner ("min_out", t.recipient) (by simp [MessageText.inner])
    refine newline_notMem_decode ?_
    intro h
    exact (List.mem_append.mp h).elim hrecipient.1 (notMem_dropLast (.inl hrecipient.2))
  have hkey : '\n' ∉ minOutKey := by decide
  rw [htext, splitOn_lines (by decide)]
  · rfl
  · intro line hline
    rcases List.mem_append.mp hline with h | h
    · obtain ⟨l, hl, rfl⟩ := List.mem_map.mp h
      exact (ht.skipped l (List.mem_append_left _ hl)).1
    · rcases List.mem_cons.mp h with rfl | h
      · exact fun hmem => (List.mem_append.mp hmem).elim hkey hspelling
      · obtain ⟨l, hl, rfl⟩ := List.mem_map.mp h
        exact (ht.skipped l (List.mem_append_right _ hl)).1

/-- The scan of an accepted text finds the canonical numeral on the line of the floor. -/
theorem mem_parseSignedMinOuts {t : MessageText} (ht : t.Lines "min_out") {n : ℕ} :
    n ∈ parseSignedMinOuts (t.bytes "min_out") ↔ n ≤ u64Max ∧
      (t.spelling = Nat.toDigits 10 n ∨ t.spelling = Nat.toDigits 10 n ++ ['\r']) := by
  have hothers : ∀ l ∈ ("Fogo Bridge".toList :: t.before.map (lossyDecode none)) ++
      t.after.map (lossyDecode none), l.head? ≠ some 'm' := by
    intro l hl
    rw [List.cons_append, ← List.map_append] at hl
    rcases List.mem_cons.mp hl with rfl | hl
    · decide
    · obtain ⟨line, hline, rfl⟩ := List.mem_map.mp hl
      exact (ht.skipped line hline).2
  have hafter : t.after.map (lossyDecode none) ≠ [] := by simp [MessageText.after]
  rw [mem_parseSignedMinOuts_iff, lines_bytes ht, mem_scanLines_single hafter hothers,
    lineFloor_eq_some, withoutReturn_eq (not_mem_minOut (by decide) (by decide) n)]
  simp

/-! ## Spellings of a floor -/

/-- A number is read from a sign and digits only. -/
theorem u64FromStr_chars {s : String} {n : UInt64} (h : u64FromStr s = some n) :
    ∀ c ∈ s.toList, c = '+' ∨ c.isDigit := by
  unfold u64FromStr at h
  extract_lets digits at h
  split at h
  · rename_i hdigits
    have hall := List.all_eq_true.mp hdigits.2.1
    intro c hc
    cases hs : s.toList with
    | nil => simp [hs] at hc
    | cons d rest =>
        by_cases hplus : d = '+'
        · have heq : digits = rest := by simp [digits, hs, hplus]
          rw [hs] at hc
          rcases List.mem_cons.mp hc with rfl | hc
          · exact .inl hplus
          · exact .inr (hall c (heq ▸ hc))
        · have heq : digits = d :: rest := by simp [digits, hs, hplus]
          exact .inr (hall c (heq ▸ hs ▸ hc))
  · cases h

/-- The line of a floor that is read, as text without its ending. -/
theorem readMinOut_text {text : Bytes} {floor : UInt64}
    (h : readMinOut text = some (.minOut floor)) : ∃ s : String, text = utf8 s ∧
      ∀ c ∈ s.toList, c.toNat < 128 ∧ c ≠ '\r' := by
  obtain ⟨n, hn, -⟩ := Option.map_eq_some_iff.mp h
  obtain ⟨s, hs, hread⟩ := Option.bind_eq_some_iff.mp hn
  refine ⟨s, utf8_of_fromUtf8? hs, ?_⟩
  intro c hc
  rcases u64FromStr_chars hread c hc with rfl | hdigit
  · decide
  · have hrange := toNat_of_isDigit hdigit
    refine ⟨by omega, ?_⟩
    rintro rfl
    cases hdigit

/-- The scan finds the floor that is read exactly if the line is its canonical numeral. -/
theorem mem_parse_iff_text {t : MessageText} (ht : t.Lines "min_out") {floor : UInt64}
    (hread : readMinOut t.recipient.text = some (.minOut floor)) :
    floor.toNat ∈ parseSignedMinOuts (t.bytes "min_out") ↔
      t.recipient.text = utf8 (toString floor.toNat) := by
  obtain ⟨s, hs, hchars⟩ := readMinOut_text hread
  have hending := (ht.inner ("min_out", t.recipient) (by simp [MessageText.inner])).2
  obtain ⟨cr, hcr, hcat⟩ := isLineEnding_concat hending
  have hspelling : t.spelling = s.toList ++ lossyDecode none cr := by
    rw [MessageText.spelling, hs, hcat, List.dropLast_concat]
    exact lossyDecode_ascii (fun c hc => (hchars c hc).1) cr
  have hcr_notMem : '\r' ∉ s.toList := fun h => (hchars _ h).2 rfl
  have hdigits : '\r' ∉ Nat.toDigits 10 floor.toNat := by
    intro h
    exact absurd (Nat.isDigit_of_mem_toDigits (by decide) (by decide) h) (by decide)
  have hle : floor.toNat ≤ u64Max := Nat.le_sub_one_of_lt floor.toNat_lt
  have htext : t.recipient.text = utf8 (toString floor.toNat) ↔
      s.toList = Nat.toDigits 10 floor.toNat := by
    rw [hs, ← toString_toList]
    constructor
    · intro h
      have heq := congrArg fromUtf8? h
      rw [fromUtf8?_utf8, fromUtf8?_utf8] at heq
      rw [Option.some.inj heq]
    · intro h
      rw [String.toList_inj.mp h]
  rw [mem_parseSignedMinOuts ht, htext, hspelling]
  rcases hcr with rfl | rfl
  · change _ ∧ (s.toList ++ [] = _ ∨ s.toList ++ [] = _) ↔ _
    rw [List.append_nil]
    constructor
    · rintro ⟨-, h | h⟩
      · exact h
      · exact absurd (h ▸ List.mem_append_right _ (List.mem_singleton_self _)) hcr_notMem
    · intro h
      exact ⟨hle, .inl h⟩
  · change _ ∧ (s.toList ++ ['\r'] = _ ∨ s.toList ++ ['\r'] = _) ↔ _
    constructor
    · rintro ⟨-, h | h⟩
      · exact absurd (h ▸ List.mem_append_right _ (List.mem_singleton_self _)) hdigits
      · exact List.append_cancel_right h
    · intro h
      exact ⟨hle, .inr (by rw [h])⟩

/-- The message has a line `min_out: ` with the canonical numeral of the floor. -/
def StatesFloor (message : Bytes) (floor : UInt64) : Prop :=
  ∃ before ending after, IsLineEnding ending ∧ message = before ++ newline ::
    (keyValue "min_out" (utf8 (toString floor.toNat)) ++ ending ++ after)

theorem newline_notMem_floorLine (n : ℕ) {cr : Bytes} (hcr : cr = [] ∨ cr = [carriageReturn]) :
    newline ∉ keyValue "min_out" (utf8 (toString n)) ++ cr := by
  have hdigits : newline ∉ utf8 (toString n) :=
    notMem_utf8_toString n (c := '\n') (by decide) (by decide)
  intro h
  rcases List.mem_append.mp h with h | h
  · exact newline_notMem_keyValue (by decide) hdigits h
  · rcases hcr with rfl | rfl <;> exact absurd h (by decide)

theorem newline_notMem_of_decode {line : Bytes} (h : '\n' ∉ lossyDecode none line) :
    newline ∉ line := by
  intro hmem
  obtain ⟨l, r, rfl⟩ := List.append_of_mem hmem
  rw [decode_newline] at h
  exact h (List.mem_append_right _ (List.mem_cons_self ..))

/-- Only the line of the floor begins with its key. -/
theorem eq_recipient_of_head {t : MessageText} (ht : t.Lines "min_out") {text : Bytes}
    (h : keyValue "min_out" text ∈ (t.bytes "min_out").splitOn newline) :
    keyValue "min_out" text = t.recipient.content "min_out" := by
  have hfirst : newline ∉ utf8 "Fogo Bridge" := by decide
  have hrecipient : newline ∉ t.recipient.content "min_out" := by
    have hline := ht.inner ("min_out", t.recipient) (by simp [MessageText.inner])
    refine newline_notMem_keyValue (by decide) ?_
    intro h
    exact (List.mem_append.mp h).elim hline.1 (notMem_dropLast (.inl hline.2))
  have hlines : ∀ line ∈ t.before ++ t.recipient.content "min_out" :: t.after,
      newline ∉ line := by
    intro line hline
    rcases List.mem_append.mp hline with hline | hline
    · exact newline_notMem_of_decode (ht.skipped line (List.mem_append_left _ hline)).1
    · rcases List.mem_cons.mp hline with rfl | hline
      · exact hrecipient
      · exact newline_notMem_of_decode (ht.skipped line (List.mem_append_right _ hline)).1
  have hhead : (lossyDecode none (keyValue "min_out" text)).head? = some 'm' := by
    rw [decode_keyValue (by decide)]
    rfl
  rw [t.bytes_eq_lines ht, splitOn_lines hfirst hlines] at h
  rcases List.mem_cons.mp h with heq | h
  · rw [heq] at hhead
    exact absurd hhead (by decide)
  · rcases List.mem_append.mp h with h | h
    · exact absurd hhead (ht.skipped _ (List.mem_append_left _ h)).2
    · rcases List.mem_cons.mp h with heq | h
      · exact heq
      · exact absurd hhead (ht.skipped _ (List.mem_append_right _ h)).2

theorem statesFloor_iff_text {t : MessageText} (ht : t.Lines "min_out") {floor : UInt64}
    (hread : readMinOut t.recipient.text = some (.minOut floor)) :
    StatesFloor (t.bytes "min_out") floor ↔ t.recipient.text = utf8 (toString floor.toNat) := by
  have hending := (ht.inner ("min_out", t.recipient) (by simp [MessageText.inner])).2
  obtain ⟨cr', hcr', hcat⟩ := isLineEnding_concat hending
  have hcontent : t.recipient.content "min_out" =
      keyValue "min_out" (t.recipient.text ++ cr') := by
    rw [Line.content, hcat, List.dropLast_concat]
  constructor
  · rintro ⟨before, ending, after, hends, heq⟩
    obtain ⟨cr, hcr, rfl⟩ := isLineEnding_concat hends
    have hmem := mem_splitOn (newline_notMem_floorLine floor.toNat hcr) before after
    have hline : keyValue "min_out" (utf8 (toString floor.toNat) ++ cr) ∈
        (t.bytes "min_out").splitOn newline := by
      rw [heq]
      simpa [keyValue] using hmem
    have hsame := eq_recipient_of_head ht hline
    rw [hcontent] at hsame
    have htext := List.append_cancel_left hsame
    obtain ⟨s, hs, hchars⟩ := readMinOut_text hread
    have hdigits : carriageReturn ∉ utf8 (toString floor.toNat) :=
      notMem_utf8_toString floor.toNat (c := '\r') (by decide) (by decide)
    have hfree : carriageReturn ∉ t.recipient.text := by
      rw [hs]
      intro h
      exact (hchars '\r' ((mem_utf8_ascii (c := '\r') (by decide)).mp h)).2 rfl
    rcases hcr with rfl | rfl <;> rcases hcr' with rfl | rfl
    · simpa using htext.symm
    · rw [List.append_nil] at htext
      exact absurd (htext ▸ List.mem_append_right _ (List.mem_singleton_self _)) hdigits
    · rw [List.append_nil] at htext
      exact absurd (htext ▸ List.mem_append_right _ (List.mem_singleton_self _)) hfree
    · exact (List.append_cancel_right htext).symm
  · intro htext
    have hafter : t.after ≠ [] := by simp [MessageText.after]
    obtain ⟨next, rest, hrest⟩ := List.exists_cons_of_ne_nil hafter
    refine ⟨utf8 "Fogo Bridge" ++ t.before.flatMap (newline :: ·), cr' ++ [newline],
      next ++ rest.flatMap (newline :: ·), hcat ▸ hending, ?_⟩
    rw [t.bytes_eq_lines ht, hcontent, htext, hrest]
    simp [keyValue]

/-! ## What the scan recovers -/

/-- The cranker's scan recovers the floor of an accepted message exactly if the message states it
in its canonical spelling: without sign, without leading zeros. -/
theorem signed_floor_recovered_iff {I : Intents} (hI : I.Lawful) {message : Bytes} {m : NttMessage}
    (h : bridgeMessageTryFrom I message = some (.ntt m)) {floor : UInt64}
    (hfloor : m.recipient = .minOut floor) :
    floor.toNat ∈ parseSignedMinOuts message ↔ StatesFloor message floor := by
  obtain ⟨t, rfl, hlines, ht⟩ := minOut_reads hI h hfloor
  have hread : readMinOut t.recipient.text = some (.minOut floor) := by
    rw [ht.recipient, hfloor]
  rw [mem_parse_iff_text hlines hread, statesFloor_iff_text hlines hread]

/-- A transfer whose floor of five is spelled `spelling`. -/
def bridgeOutText (spelling : String) : MessageText :=
  { messageText (bridgeOutParams 5) with recipient := ⟨utf8 spelling, [newline]⟩ }

def bridgeOutMessage : NttMessage where
  version := ⟨0, 3⟩
  fromChainId := "fogo-mainnet"
  symbolOrMint := .symbol "USDC.s"
  amount := "10.000000"
  toChainId := "solana"
  recipient := .minOut 5
  feeAmount := "2.000000"
  feeSymbolOrMint := .symbol "USDC.s"
  nonce := 8

theorem bridgeOutText_lines {spelling : String} (h : newline ∉ utf8 spelling) :
    (bridgeOutText spelling).Lines "min_out" := by
  have hnonce : newline ∉ utf8 (toString (bridgeOutParams 5).nonce) := by decide
  refine ⟨.inl rfl, ?_, hnonce, .inr ⟨rfl, rfl⟩⟩
  simp only [MessageText.inner, bridgeOutText, messageText, List.forall_mem_cons, List.not_mem_nil,
    false_implies, implies_true, and_true]
  have hend : IsLineEnding [newline] := .inl rfl
  simp only [hend, and_true, h, not_false_iff, true_and]
  decide

theorem bridgeOutText_accepted {spelling : String} (hread : u64FromStr spelling = some 5)
    (hline : newline ∉ utf8 spelling) (hne : utf8 spelling ≠ [])
    (hcr : carriageReturn ∉ utf8 spelling) :
    bridgeMessageTryFrom referenceIntents ((bridgeOutText spelling).bytes "min_out") =
      some (.ntt bridgeOutMessage) := by
  have hbase : (messageText (bridgeOutParams 5)).Reads referenceIntents 3 readMinOut
      bridgeOutMessage :=
    (reads_messageText_iff referenceIntents_lawful rfl rfl).mpr
      ⟨rfl, rfl, rfl, by decide +kernel, rfl, rfl, by decide +kernel, rfl, rfl⟩
  have hreadable : (bridgeOutText spelling).Readable "min_out" := by
    have hnonce : utf8 (toString (bridgeOutParams 5).nonce) ≠ [] ∧
        carriageReturn ∉ utf8 (toString (bridgeOutParams 5).nonce) := by decide
    refine ⟨?_, hnonce⟩
    simp only [MessageText.inner, bridgeOutText, messageText, List.forall_mem_cons,
      List.not_mem_nil, false_implies, implies_true, and_true, Line.Readable]
    simp only [hne, hcr, ne_eq, not_false_iff, true_and]
    decide
  refine bridgeMessage_accepts referenceIntents_lawful (bridgeOutText_lines hline) hreadable ?_
  have hrecipient : readMinOut (bridgeOutText spelling).recipient.text = some (.minOut 5) := by
    change (parseTo u64FromStr (utf8 spelling)).map Recipient.minOut = _
    rw [parseTo_utf8, hread]
    rfl
  exact { hbase with recipient := hrecipient }

theorem signed_floor_recovered_five :
    5 ∈ parseSignedMinOuts ((bridgeOutText "5").bytes "min_out") := by
  have hlines : (bridgeOutText "5").Lines "min_out" := bridgeOutText_lines (by decide)
  have haccepted : bridgeMessageTryFrom referenceIntents ((bridgeOutText "5").bytes "min_out") =
      some (.ntt bridgeOutMessage) :=
    bridgeOutText_accepted (by decide) (by decide) (by decide) (by decide)
  exact (signed_floor_recovered_iff referenceIntents_lawful haccepted rfl).mpr
    ((statesFloor_iff_text hlines (by decide)).mpr (by decide))

/-- The program reads `+5` as five, and the scan finds no five in it. -/
theorem plus_floor_not_recovered :
    referenceIntents.Lawful ∧ bridgeMessageTryFrom referenceIntents ((bridgeOutText "+5").bytes "min_out") =
      some (.ntt bridgeOutMessage) ∧
    bridgeOutMessage.version = ⟨0, 3⟩ ∧ bridgeOutMessage.recipient = .minOut 5 ∧
    5 ∉ parseSignedMinOuts ((bridgeOutText "+5").bytes "min_out") := by
  have hlines : (bridgeOutText "+5").Lines "min_out" := bridgeOutText_lines (by decide)
  refine ⟨referenceIntents_lawful,
    bridgeOutText_accepted (by decide) (by decide) (by decide) (by decide), rfl, rfl, ?_⟩
  have hread : readMinOut (bridgeOutText "+5").recipient.text = some (.minOut 5) := by decide
  intro hmem
  exact absurd ((mem_parse_iff_text hlines hread).mp hmem) (by decide)

end FogoYield.Intent
