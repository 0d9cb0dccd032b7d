import FogoYield.Model.Sdk.WalletRecovery
import FogoYield.Verification.Sdk.SignedMinOuts
import FogoYield.Verification.Sdk.Verifier

/-! # What a FOGO transaction encodes

The memos that state a floor, and the wallets and floors that are recovered from a transaction
against those it names. -/

namespace FogoYield.Sdk

open FogoYield.Library FogoYield.Solana
open FogoYield.Relayer (slice slice_length)

/-! ## Memos -/

theorem canonicalU64_iff {body : List Char} : canonicalU64 body = true ↔ IsFloorNumeral body := by
  cases body with
  | nil =>
      have hnil : ¬ IsNumeral [] := fun h => h.ne_nil rfl
      simp [canonicalU64, IsFloorNumeral, hnil]
  | cons c digits =>
      by_cases hc : c = '0'
      · have hzero : ¬ IsNumeral ('0' :: digits) := fun h => h.head_ne rfl
        simp [canonicalU64, IsFloorNumeral, hc, hzero]
      · have hnumeral : IsNumeral (c :: digits) ↔
            c.isDigit = true ∧ ∀ d ∈ digits, d.isDigit = true := by
          refine ⟨fun h => List.forall_mem_cons.mp h.isDigit, fun h => ?_⟩
          exact ⟨List.cons_ne_nil _ _, by simpa using hc, List.forall_mem_cons.mpr h⟩
        simp [canonicalU64, IsFloorNumeral, hc, hnumeral]

theorem stripLiteral_eq_some {literal text body : List Char} :
    stripLiteral literal text = some body ↔ text = literal ++ body := by
  unfold stripLiteral
  constructor
  · intro h
    split at h
    · rename_i hliteral
      obtain ⟨rest, rfl⟩ := List.isPrefixOf_iff_prefix.mp hliteral
      rw [List.drop_left] at h
      rw [Option.some.inj h]
    · cases h
  · rintro rfl
    rw [if_pos (List.isPrefixOf_iff_prefix.mpr (List.prefix_append _ _)), List.drop_left]

/-- The text of the memo for a floor. -/
def memoText (n : ℕ) : List Char := minSwapOutMemoPrefix.toList ++ Nat.toDigits 10 n

/-- A memo is accepted if and only if it is the text of the floor that is read. -/
theorem parseMinSwapOutMemo_eq_some {text : List Char} {n : ℕ} :
    parseMinSwapOutMemo text = some n ↔ n ≤ u64Max ∧ text = memoText n := by
  unfold parseMinSwapOutMemo
  constructor
  · intro h
    split at h
    · cases h
    · rename_i body hbody
      split at h
      · rename_i hcanonical
        simp only at h
        split at h
        · cases h
        · rename_i hle
          obtain rfl := Option.some.inj h
          refine ⟨Nat.le_of_not_gt hle, ?_⟩
          rw [memoText, (canonicalU64_iff.mp hcanonical).toDigits_eq]
          exact stripLiteral_eq_some.mp hbody
      · cases h
  · rintro ⟨hle, rfl⟩
    have hstrip : stripLiteral minSwapOutMemoPrefix.toList (memoText n) =
        some (Nat.toDigits 10 n) := stripLiteral_eq_some.mpr rfl
    rw [hstrip]
    simp only
    rw [if_pos (canonicalU64_iff.mpr (isFloorNumeral_toDigits n)), ofDigitChars_toDigits,
      if_neg (Nat.not_lt.mpr hle)]

/-- The decoder gives back the text of a memo. -/
theorem textDecode_memo (n : ℕ) :
    textDecode ((memoText n).flatMap String.utf8EncodeChar) = memoText n := by
  have hlabel : ∀ c ∈ minSwapOutMemoPrefix.toList, c.toNat < 128 := ascii_of_all (by decide)
  rw [textDecode, memoText, decode_labelled hlabel]
  rfl

/-- What is built for a floor is read back. -/
theorem parseMinSwapOutMemo_build {minSwapOut : ℤ} {ix : Instruction}
    (h : buildMinSwapOutMemoIx minSwapOut = .ok ix) :
    ix.programId = memoProgramId ∧
      (parseMinSwapOutMemo (textDecode ix.data)).map Int.ofNat = some minSwapOut := by
  unfold buildMinSwapOutMemoIx at h
  split at h
  · cases h
  · rename_i hrange
    obtain rfl := Except.ok.inj h
    obtain ⟨n, rfl⟩ : ∃ n : ℕ, minSwapOut = n := ⟨minSwapOut.toNat, by omega⟩
    have hdata : utf8 (minSwapOutMemoPrefix ++ toString (n : ℤ)) =
        (memoText n).flatMap String.utf8EncodeChar := by
      rw [utf8, String.toList_append]
      change List.flatMap _ (_ ++ (toString n).toList) = _
      rw [toString_toList, memoText]
    have hparse : parseMinSwapOutMemo (memoText n) = some n :=
      parseMinSwapOutMemo_eq_some.mpr ⟨by omega, rfl⟩
    refine ⟨rfl, ?_⟩
    rw [hdata, textDecode_memo, hparse]
    rfl

/-! ## Wallets -/

theorem mem_pushNew {α : Type} [DecidableEq α] {values : List α} {value x : α} :
    x ∈ pushNew values value ↔ x ∈ values ∨ x = value := by
  unfold pushNew
  split
  · rename_i hmem
    refine ⟨.inl, ?_⟩
    rintro (h | rfl)
    · exact h
    · exact hmem
  · simp

theorem mem_foldl_pushNew {α : Type} [DecidableEq α] {added values : List α} {x : α} :
    x ∈ added.foldl pushNew values ↔ x ∈ values ∨ x ∈ added := by
  induction added generalizing values with
  | nil => simp
  | cons value added ih => rw [List.foldl_cons, ih, mem_pushNew, List.mem_cons, or_assoc]

section Wallets

variable {fogoConnection : FogoConnection} {parsed : ParsedTx} {intentProgramIds : List Pubkey}

/-- The instruction is a bridge instruction whose source account is the wallet's. -/
def SourceOwned (fogoConnection : FogoConnection) (parsed : ParsedTx)
    (intentProgramIds : List Pubkey) (wallet : Pubkey) (ix : CompiledIx) : Prop :=
  ∃ sourceAta ataInfo, parsed.sourceAta intentProgramIds ix = some sourceAta ∧
    fogoConnection.getAccountInfo sourceAta = .ok ataInfo ∧ ataOwner ataInfo = some wallet

theorem ataOwner_length {ataInfo : Option Bytes} {wallet : Pubkey}
    (h : ataOwner ataInfo = some wallet) : wallet.bytes.length = 32 := by
  cases ataInfo with
  | none => cases h
  | some data =>
      unfold ataOwner at h
      simp only at h
      split at h
      · cases h
      · obtain rfl := Option.some.inj h
        exact slice_length (by omega)

theorem sourceOwned_of_none {wallet : Pubkey} {ix : CompiledIx}
    (h : parsed.sourceAta intentProgramIds ix = none) :
    ¬ SourceOwned fogoConnection parsed intentProgramIds wallet ix := by
  rintro ⟨sourceAta, ataInfo, hata, -⟩
  rw [h] at hata
  cases hata

theorem sourceOwned_iff {wallet sourceAta : Pubkey} {ix : CompiledIx} {ataInfo : Option Bytes}
    (hata : parsed.sourceAta intentProgramIds ix = some sourceAta)
    (hinfo : fogoConnection.getAccountInfo sourceAta = .ok ataInfo) :
    SourceOwned fogoConnection parsed intentProgramIds wallet ix ↔
      ataOwner ataInfo = some wallet := by
  constructor
  · rintro ⟨sourceAta', ataInfo', hata', hinfo', howner⟩
    obtain rfl := Option.some.inj (hata.symm.trans hata')
    obtain rfl := Except.ok.inj (hinfo.symm.trans hinfo')
    exact howner
  · exact fun howner => ⟨sourceAta, ataInfo, hata, hinfo, howner⟩

theorem mem_collectWallets {ixs : List CompiledIx} {wallets found : List Pubkey} {wallet : Pubkey}
    (h : collectWallets fogoConnection parsed intentProgramIds ixs wallets = .ok found) :
    wallet ∈ found ↔ wallet ∈ wallets ∨
      ∃ ix ∈ ixs, SourceOwned fogoConnection parsed intentProgramIds wallet ix := by
  induction ixs generalizing wallets with
  | nil =>
      obtain rfl := Except.ok.inj h
      simp
  | cons ix ixs ih =>
      rw [collectWallets] at h
      rw [List.exists_mem_cons_iff]
      split at h
      · rename_i hata
        rw [ih h, or_iff_right (sourceOwned_of_none hata)]
      · rename_i sourceAta hata
        split at h
        · cases h
        · rename_i ataInfo hinfo
          rw [sourceOwned_iff hata hinfo]
          split at h
          · rename_i howner
            simp [ih h, howner]
          · rename_i owner howner
            rw [ih h, mem_pushNew, howner, Option.some.injEq, or_assoc, @eq_comm _ wallet]

/-- The reads of the source accounts succeed. -/
theorem collectWallets_ok {ixs : List CompiledIx}
    (h : ∀ ix ∈ ixs, ∀ sourceAta, parsed.sourceAta intentProgramIds ix = some sourceAta →
      ∃ ataInfo, fogoConnection.getAccountInfo sourceAta = .ok ataInfo) (wallets : List Pubkey) :
    ∃ found, collectWallets fogoConnection parsed intentProgramIds ixs wallets = .ok found := by
  induction ixs generalizing wallets with
  | nil => exact ⟨wallets, rfl⟩
  | cons ix ixs ih =>
      obtain ⟨hix, hixs⟩ := List.forall_mem_cons.mp h
      rw [collectWallets]
      split
      · exact ih hixs wallets
      · rename_i sourceAta hata
        obtain ⟨ataInfo, hinfo⟩ := hix sourceAta hata
        rw [hinfo]
        simp only
        split
        · exact ih hixs wallets
        · exact ih hixs _

end Wallets

/-! ## Floors -/

/-- The floor stands on a `min_out` line of a message that the scan does not pass over. -/
def LineRead (message : Bytes) (n : ℕ) : Prop := (true, n) ∈ floorLines (textDecode message)

theorem mem_parseSignedMinOuts_lineRead {message : Bytes} {n : ℕ} :
    n ∈ parseSignedMinOuts message ↔ LineRead message n := by
  rw [parseSignedMinOuts_eq, List.mem_eraseDups, mem_marked, LineRead]

/-- The instruction is an Ed25519 instruction with a message of which `P` holds, or the memo of the
floor. -/
def IxFloor (parsed : ParsedTx) (P : Bytes → ℕ → Prop) (n : ℕ) (ix : CompiledIx) : Prop :=
  parsed.programId ix = some ed25519ProgramId ∧
      (∃ messages, ed25519InlineMessages ix.data = .ok messages ∧ ∃ message ∈ messages, P message n) ∨
    parsed.programId ix = some memoProgramId ∧ n ≤ u64Max ∧ textDecode ix.data = memoText n

/-- A floor that the transaction states. -/
def FloorStated (parsed : ParsedTx) (n : ℕ) : Prop :=
  ∃ ix ∈ parsed.ixs, IxFloor parsed (fun message n => n ∈ statedFloors (textDecode message)) n ix

/-- A floor of a memo or of a `min_out` line that is not passed over. -/
def FloorRead (parsed : ParsedTx) (n : ℕ) : Prop := ∃ ix ∈ parsed.ixs, IxFloor parsed LineRead n ix

theorem ed25519_ne_memo : ed25519ProgramId ≠ memoProgramId := by decide +kernel

theorem mem_collectMinOuts (parsed : ParsedTx) (ixs : List CompiledIx) (floors : List ℕ) :
    ∃ found, collectMinOuts parsed ixs floors = .ok found ∧
      ∀ n, n ∈ found ↔ n ∈ floors ∨ ∃ ix ∈ ixs, IxFloor parsed LineRead n ix := by
  induction ixs generalizing floors with
  | nil => exact ⟨floors, rfl, by simp⟩
  | cons ix ixs ih =>
      have hcons : ∀ n, (∃ ix' ∈ ix :: ixs, IxFloor parsed LineRead n ix') ↔
          IxFloor parsed LineRead n ix ∨ ∃ ix' ∈ ixs, IxFloor parsed LineRead n ix' := fun n =>
        List.exists_mem_cons_iff ..
      have hstep : ∀ added : List ℕ, (∀ n, n ∈ added ↔ n ∈ floors ∨ IxFloor parsed LineRead n ix) →
          ∃ found, collectMinOuts parsed ixs added = .ok found ∧
            ∀ n, n ∈ found ↔ n ∈ floors ∨ ∃ ix' ∈ ix :: ixs, IxFloor parsed LineRead n ix' := by
        intro added hadded
        obtain ⟨found, hfound, hmem⟩ := ih added
        refine ⟨found, hfound, fun n => ?_⟩
        rw [hmem, hadded, hcons, or_assoc]
      unfold collectMinOuts
      split
      · rename_i hed25519
        obtain ⟨messages, hmessages, -⟩ := ed25519InlineMessages_inBounds ix.data
        rw [hmessages]
        refine hstep _ (fun n => ?_)
        simp [mem_foldl_pushNew, mem_parseSignedMinOuts_lineRead, IxFloor, hed25519, hmessages,
          ed25519_ne_memo]
      · rename_i hed25519
        split
        · rename_i hmemo
          refine hstep _ (fun n => ?_)
          simp [IxFloor, hed25519, hmemo]
        · rename_i hmemo
          have hmemo : parsed.programId ix = some memoProgramId := not_not.mp hmemo
          split
          · rename_i hparse
            refine hstep _ (fun n => ?_)
            have hno : ¬ (n ≤ u64Max ∧ textDecode ix.data = memoText n) := by
              rw [← parseMinSwapOutMemo_eq_some, hparse]
              exact nofun
            simp [IxFloor, hed25519, hno]
          · rename_i fromMemo hparse
            refine hstep _ (fun n => ?_)
            have hmine : (n ≤ u64Max ∧ textDecode ix.data = memoText n) ↔ n = fromMemo := by
              rw [← parseMinSwapOutMemo_eq_some, hparse, Option.some.injEq, eq_comm]
            simp [mem_pushNew, IxFloor, hmemo, hmine, ed25519_ne_memo.symm]

theorem FloorRead.le {parsed : ParsedTx} {n : ℕ} (h : FloorRead parsed n) : n ≤ u64Max := by
  obtain ⟨ix, -, ⟨-, messages, -, message, -, hline⟩ | ⟨-, hle, -⟩⟩ := h
  · exact of_decide_eq_true (List.mem_filter.mp hline).2
  · exact hle

/-- Without Ed25519 instructions every floor that is stated is a memo's, and read. -/
theorem floorRead_of_memo {parsed : ParsedTx}
    (h : ∀ ix ∈ parsed.ixs, parsed.programId ix ≠ some ed25519ProgramId) {n : ℕ}
    (hstated : FloorStated parsed n) : FloorRead parsed n := by
  obtain ⟨ix, hix, ⟨hed25519, -⟩ | hmemo⟩ := hstated
  · exact absurd hed25519 (h ix hix)
  · exact ⟨ix, hix, .inr hmemo⟩

/-! ## Candidates -/

/-- The wallet owns the source account of a bridge instruction. -/
def SourceOwner (fogoConnection : FogoConnection) (parsed : ParsedTx)
    (intentProgramIds : List Pubkey) (wallet : Pubkey) : Prop :=
  ∃ ix ∈ parsed.ixs, SourceOwned fogoConnection parsed intentProgramIds wallet ix

/-- The candidates are the owners with the floors that are read. -/
theorem mem_candidates {fogoConnection : FogoConnection} {fogoTx : String}
    {intentProgramIds : List Pubkey} {candidates : List RecoveredWalletAndMinOut}
    (h : recoverWalletAndMinOutCandidates fogoConnection fogoTx intentProgramIds = .ok candidates)
    (c : RecoveredWalletAndMinOut) :
    c ∈ candidates ↔ ∃ parsed, fetchParsedTx fogoConnection fogoTx = .ok (some parsed) ∧
      SourceOwner fogoConnection parsed intentProgramIds c.userWallet ∧
      ∃ n : ℕ, c.minSwapOut = n ∧ FloorRead parsed n := by
  unfold recoverWalletAndMinOutCandidates at h
  split at h
  · cases h
  · rename_i hfetch
    obtain rfl := Except.ok.inj h
    simp [hfetch]
  · rename_i parsed hfetch
    obtain ⟨minOuts, hminOuts, hfloors⟩ := mem_collectMinOuts parsed parsed.ixs []
    have hfloors : ∀ n, n ∈ minOuts ↔ FloorRead parsed n := by
      simpa [FloorRead] using hfloors
    rw [allMinOutsFromParsedTx, hminOuts] at h
    simp only at h
    have hparsed : (∃ parsed', fetchParsedTx fogoConnection fogoTx = .ok (some parsed') ∧
        SourceOwner fogoConnection parsed' intentProgramIds c.userWallet ∧
        ∃ n : ℕ, c.minSwapOut = n ∧ FloorRead parsed' n) ↔
        SourceOwner fogoConnection parsed intentProgramIds c.userWallet ∧
          ∃ n : ℕ, c.minSwapOut = n ∧ n ∈ minOuts := by
      simp [hfetch, hfloors]
    rw [hparsed]
    split at h
    · rename_i hempty
      obtain rfl := Except.ok.inj h
      simp [hempty]
    · split at h
      · cases h
      · rename_i wallets hwallets
        have howners : c.userWallet ∈ wallets ↔
            SourceOwner fogoConnection parsed intentProgramIds c.userWallet := by
          simpa [SourceOwner] using mem_collectWallets hwallets
        obtain rfl := Except.ok.inj h
        rw [← howners, List.mem_flatMap]
        constructor
        · rintro ⟨wallet, hwallet, hc⟩
          obtain ⟨n, hn, rfl⟩ := List.mem_map.mp hc
          exact ⟨hwallet, n, rfl, hn⟩
        · rintro ⟨hwallet, n, hc, hn⟩
          exact ⟨c.userWallet, hwallet, List.mem_map.mpr ⟨n, hn, by rw [← hc]⟩⟩

/-- The connection has the transaction and answers for its source accounts. -/
structure FogoConnection.Answers (fogoConnection : FogoConnection) (fogoTx : String)
    (intentProgramIds : List Pubkey) (parsed : ParsedTx) : Prop where
  fetched : fetchParsedTx fogoConnection fogoTx = .ok (some parsed)
  accounts : ∀ ix ∈ parsed.ixs, ∀ sourceAta,
    parsed.sourceAta intentProgramIds ix = some sourceAta →
      ∃ ataInfo, fogoConnection.getAccountInfo sourceAta = .ok ataInfo

theorem FogoConnection.Answers.candidates {fogoConnection : FogoConnection} {fogoTx : String}
    {intentProgramIds : List Pubkey} {parsed : ParsedTx}
    (h : fogoConnection.Answers fogoTx intentProgramIds parsed) :
    ∃ candidates, recoverWalletAndMinOutCandidates fogoConnection fogoTx intentProgramIds =
      .ok candidates := by
  obtain ⟨minOuts, hminOuts, -⟩ := mem_collectMinOuts parsed parsed.ixs []
  obtain ⟨wallets, hwallets⟩ := collectWallets_ok h.accounts []
  unfold recoverWalletAndMinOutCandidates
  rw [h.fetched]
  simp only [allMinOutsFromParsedTx, allWalletsFromParsedTx, hminOuts, hwallets]
  split
  · exact ⟨_, rfl⟩
  · exact ⟨_, rfl⟩

end FogoYield.Sdk
