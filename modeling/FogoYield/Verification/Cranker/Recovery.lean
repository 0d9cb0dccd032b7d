import FogoYield.Model.Cranker.Recovery
import FogoYield.Model.Relayer.Reference
import FogoYield.Verification.Sdk.WalletRecovery

/-! # The pair behind a recipient

The pair that `receive` selects against the wallets and floors of the source transaction, whatever
the cache holds. -/

namespace FogoYield.Cranker

open FogoYield.Library FogoYield.Solana FogoYield.Sdk
open FogoYield.Relayer (RelayerRuntime referenceBase referenceBook)

/-- A pair of a public key and a `u64`. -/
structure WellFormed (c : RecoveredWalletAndMinOut) : Prop where
  wallet : c.userWallet.bytes.length = 32
  floor : ∃ n : ℕ, n ≤ u64Max ∧ c.minSwapOut = n

/-- No two pairs derive one inbox. -/
def InjectiveInboxes (rt : RelayerRuntime) (programId : Pubkey) : Prop :=
  ∀ c c' : RecoveredWalletAndMinOut, WellFormed c → WellFormed c' →
    deriveInboxAuthority rt programId c.userWallet c.minSwapOut =
      deriveInboxAuthority rt programId c'.userWallet c'.minSwapOut → c = c'

/-- A `u64` is read back from its field. -/
theorem setBigUint64_inj {n n' : ℕ} (hn : n ≤ u64Max) (hn' : n' ≤ u64Max)
    (h : setBigUint64 n true = setBigUint64 n' true) : n = n' := by
  have hfield : ∀ m : ℕ, m ≤ u64Max → setBigUint64 m true = leBytes 8 m := by
    intro m hm
    have hmod : ((m : ℤ) % 2 ^ 64).toNat = m := by
      simp only [u64Max] at hm
      omega
    rw [setBigUint64, hmod]
    rfl
  rw [hfield n hn, hfield n' hn'] at h
  simp only [u64Max] at hn hn'
  exact leBytes_inj (by omega) (by omega) h

theorem injectiveInboxes {rt : RelayerRuntime} (h : rt.AddressLaws) (programId : Pubkey) :
    InjectiveInboxes rt programId := by
  rintro ⟨wallet, floor⟩ ⟨wallet', floor'⟩ ⟨-, n, hn, rfl⟩ ⟨-, n', hn', rfl⟩ heq
  have hfits : ∀ (w : Pubkey) (m : ℕ),
      Fits [.text userInboxSeed, .word, .number 8] (userInboxWithMinSeeds w m) := by
    intro w m
    simp [userInboxWithMinSeeds, setBigUint64, viewBytes]
  obtain ⟨hseeds, -⟩ := h.find_inj (told_self _) (hfits _ _) (hfits _ _) heq
  simp only [userInboxWithMinSeeds, List.cons.injEq, true_and, and_true] at hseeds
  obtain ⟨hwallet, hfloor⟩ := hseeds
  rw [setBigUint64_inj hn hn' hfloor]
  cases wallet
  cases wallet'
  exact congrArg (fun bytes => RecoveredWalletAndMinOut.mk ⟨bytes⟩ n') hwallet

/-- Every remembered pair is well formed. -/
def CacheWellFormed (userWalletCache : UserWalletCache) : Prop :=
  ∀ fogoTx c, userWalletCache.get fogoTx = some c → WellFormed c

section Recovery

variable {rt : RelayerRuntime} {programId recipientOnSolana : Pubkey}
  {fogoConnection : FogoConnection} {timesOut : Bool} {input : ReceiveInput}
  {userWalletCache : UserWalletCache}

theorem derivesRecipient_inj (hinj : InjectiveInboxes rt programId)
    {c c' : RecoveredWalletAndMinOut} (hc : WellFormed c) (hc' : WellFormed c')
    (h : derivesRecipient rt programId recipientOnSolana c = true)
    (h' : derivesRecipient rt programId recipientOnSolana c' = true) : c = c' :=
  hinj c c' hc hc' ((of_decide_eq_true h).trans (of_decide_eq_true h').symm)

theorem wellFormed_candidate {fogoTx : String} {intentProgramIds : List Pubkey}
    {candidates : List RecoveredWalletAndMinOut}
    (h : recoverWalletAndMinOutCandidates fogoConnection fogoTx intentProgramIds = .ok candidates)
    {c : RecoveredWalletAndMinOut} (hc : c ∈ candidates) : WellFormed c := by
  obtain ⟨parsed, -, ⟨ix, -, sourceAta, ataInfo, -, -, howner⟩, n, hn, hread⟩ :=
    (mem_candidates h c).mp hc
  exact ⟨ataOwner_length howner, n, hread.le, hn⟩

/-! ## One recovery -/

/-- The pair comes from the cache, or the candidates decide. -/
theorem recoverForReceive_cases (hinput : input.userWallet = none ∨ input.minSwapOut = none)
    {outcome : Recovery × UserWalletCache}
    (h : recoverForReceive rt programId fogoConnection timesOut input recipientOnSolana
      userWalletCache = outcome) :
    (∃ c, userWalletCache.get input.fogoTx = some c ∧
        derivesRecipient rt programId recipientOnSolana c = true ∧
        outcome = (.selected c, userWalletCache.set input.fogoTx c)) ∨
      (∀ c, userWalletCache.get input.fogoTx = some c →
        ¬ derivesRecipient rt programId recipientOnSolana c = true) ∧
      ((∃ err, withTimeout timesOut (recoverWalletAndMinOutCandidates fogoConnection input.fogoTx
            defaultIntentProgramIds) = .error err ∧ outcome = (.error err, userWalletCache)) ∨
        ∃ candidates, withTimeout timesOut (recoverWalletAndMinOutCandidates fogoConnection
            input.fogoTx defaultIntentProgramIds) = .ok candidates ∧
          ((∀ c ∈ candidates, ¬ derivesRecipient rt programId recipientOnSolana c = true) ∧
              outcome = (.noop, userWalletCache) ∨
            ∃ c ∈ candidates, derivesRecipient rt programId recipientOnSolana c = true ∧
              outcome = (.selected c, userWalletCache.set input.fogoTx c))) := by
  subst h
  have hbranch : recoverForReceive rt programId fogoConnection timesOut input recipientOnSolana
      userWalletCache = recoverForReceive rt programId fogoConnection timesOut
        ⟨input.fogoTx, none, none⟩ recipientOnSolana userWalletCache := by
    unfold recoverForReceive
    rcases hinput with h | h
    · rw [h]
    · rw [h]
      cases input.userWallet <;> rfl
  rw [hbranch]
  unfold recoverForReceive
  simp only
  split
  · rename_i c hcached
    obtain ⟨hget, hderives⟩ := Option.filter_eq_some_iff.mp hcached
    exact .inl ⟨c, hget, hderives, rfl⟩
  · rename_i hcached
    refine .inr ⟨fun c hget hderives => ?_, ?_⟩
    · rw [Option.filter_eq_none_iff] at hcached
      exact hcached c hget hderives
    · split
      · rename_i err herr
        exact .inl ⟨err, herr, rfl⟩
      · rename_i candidates hcandidates
        refine .inr ⟨candidates, hcandidates, ?_⟩
        split
        · rename_i hfind
          exact .inl ⟨List.find?_eq_none.mp hfind, rfl⟩
        · rename_i c hfind
          exact .inr ⟨c, List.mem_of_find?_eq_some hfind, List.find?_some hfind, rfl⟩

theorem withTimeout_eq_ok {α : Type} {result : Except RecoveryError α} {a : α} :
    withTimeout timesOut result = .ok a ↔ timesOut = false ∧ result = .ok a := by
  unfold withTimeout
  cases timesOut <;> simp

/-- A selected pair derives the recipient and was remembered or recovered. -/
theorem selected_spec (hinput : input.userWallet = none ∨ input.minSwapOut = none)
    {c : RecoveredWalletAndMinOut}
    (h : (recoverForReceive rt programId fogoConnection timesOut input recipientOnSolana
      userWalletCache).1 = .selected c) :
    derivesRecipient rt programId recipientOnSolana c = true ∧
      (recoverForReceive rt programId fogoConnection timesOut input recipientOnSolana
        userWalletCache).2 = userWalletCache.set input.fogoTx c ∧
      (userWalletCache.get input.fogoTx = some c ∨
        ∃ candidates, recoverWalletAndMinOutCandidates fogoConnection input.fogoTx
          defaultIntentProgramIds = .ok candidates ∧ c ∈ candidates) := by
  rcases recoverForReceive_cases hinput rfl with ⟨c', hget, hderives, heq⟩ |
    ⟨-, ⟨err, -, heq⟩ | ⟨candidates, hcandidates, ⟨-, heq⟩ | ⟨c', hc', hderives, heq⟩⟩⟩
  · rw [heq] at h ⊢
    obtain rfl := Recovery.selected.inj h
    exact ⟨hderives, rfl, .inl hget⟩
  · rw [heq] at h
    cases h
  · rw [heq] at h
    cases h
  · rw [heq] at h ⊢
    obtain rfl := Recovery.selected.inj h
    exact ⟨hderives, rfl, .inr ⟨candidates, (withTimeout_eq_ok.mp hcandidates).2, hc'⟩⟩

theorem selected_wellFormed (hinput : input.userWallet = none ∨ input.minSwapOut = none)
    (hcache : CacheWellFormed userWalletCache) {c : RecoveredWalletAndMinOut}
    (h : (recoverForReceive rt programId fogoConnection timesOut input recipientOnSolana
      userWalletCache).1 = .selected c) : WellFormed c := by
  obtain ⟨-, -, hget | ⟨candidates, hcandidates, hc⟩⟩ := selected_spec hinput h
  · exact hcache _ c hget
  · exact wellFormed_candidate hcandidates hc

/-- A recovery keeps the cache well formed. -/
theorem CacheWellFormed.recover (hinput : input.userWallet = none ∨ input.minSwapOut = none)
    (hcache : CacheWellFormed userWalletCache) :
    CacheWellFormed (recoverForReceive rt programId fogoConnection timesOut input recipientOnSolana
      userWalletCache).2 := by
  have hset : ∀ c, WellFormed c → CacheWellFormed (userWalletCache.set input.fogoTx c) := by
    intro c hc fogoTx c' hget
    rcases BoundedMap.get_set_some hget with ⟨-, rfl⟩ | hget
    · exact hc
    · exact hcache fogoTx c' hget
  rcases recoverForReceive_cases hinput rfl with ⟨c, hget, -, heq⟩ |
    ⟨-, ⟨err, -, heq⟩ | ⟨candidates, hcandidates, ⟨-, heq⟩ | ⟨c, hc, -, heq⟩⟩⟩
  · rw [heq]
    exact hset c (hcache _ c hget)
  · rw [heq]
    exact hcache
  · rw [heq]
    exact hcache
  · rw [heq]
    exact hset c (wellFormed_candidate (withTimeout_eq_ok.mp hcandidates).2 hc)

/-! ## Every transaction and every cache -/

/-- What is recovered from the transaction, in time. -/
structure Recoverable (fogoConnection : FogoConnection) (timesOut : Bool) (fogoTx : String)
    (parsed : ParsedTx) : Prop where
  inTime : timesOut = false
  answers : fogoConnection.Answers fogoTx defaultIntentProgramIds parsed

/-- The pair is among the owners and the stated floors of the transaction. -/
structure Stated (fogoConnection : FogoConnection) (parsed : ParsedTx)
    (c : RecoveredWalletAndMinOut) : Prop where
  owner : SourceOwner fogoConnection parsed defaultIntentProgramIds c.userWallet
  floor : ∃ n : ℕ, c.minSwapOut = n ∧ FloorStated parsed n

/-- The recovery is sound, unique and the same for every cache, finds what the transaction states,
and reads memos back. -/
structure RecoveryCorrect (rt : RelayerRuntime) (programId : Pubkey)
    (fogoConnection : FogoConnection) (timesOut : Bool) (input : ReceiveInput)
    (recipientOnSolana : Pubkey) (userWalletCache : UserWalletCache) : Prop where
  sound : ∀ c, (recoverForReceive rt programId fogoConnection timesOut input recipientOnSolana
      userWalletCache).1 = .selected c →
    deriveInboxAuthority rt programId c.userWallet c.minSwapOut = recipientOnSolana
  unique : ∀ c, (recoverForReceive rt programId fogoConnection timesOut input recipientOnSolana
      userWalletCache).1 = .selected c → ∀ c', WellFormed c' →
    deriveInboxAuthority rt programId c'.userWallet c'.minSwapOut = recipientOnSolana → c' = c
  transparent : ∀ other : UserWalletCache, CacheWellFormed other → ∀ c c',
    (recoverForReceive rt programId fogoConnection timesOut input recipientOnSolana
      userWalletCache).1 = .selected c →
    (recoverForReceive rt programId fogoConnection timesOut input recipientOnSolana other).1 =
      .selected c' → c = c'
  found : ∀ parsed, Recoverable fogoConnection timesOut input.fogoTx parsed →
    ∀ c, Stated fogoConnection parsed c →
      deriveInboxAuthority rt programId c.userWallet c.minSwapOut = recipientOnSolana →
        (recoverForReceive rt programId fogoConnection timesOut input recipientOnSolana
          userWalletCache).1 = .selected c
  kept : CacheWellFormed (recoverForReceive rt programId fogoConnection timesOut input
    recipientOnSolana userWalletCache).2
  memo : ∀ text n, parseMinSwapOutMemo text = some n ↔ n ≤ u64Max ∧ text = memoText n
  build : ∀ minSwapOut ix, buildMinSwapOutMemoIx minSwapOut = .ok ix →
    (parseMinSwapOutMemo (textDecode ix.data)).map Int.ofNat = some minSwapOut

/-- A stated pair that derives the recipient has a floor that is read, or the cache has it. -/
def NoFloorPassedOver (rt : RelayerRuntime) (programId : Pubkey) (fogoConnection : FogoConnection)
    (timesOut : Bool) (input : ReceiveInput) (recipientOnSolana : Pubkey)
    (userWalletCache : UserWalletCache) : Prop :=
  ∀ parsed, Recoverable fogoConnection timesOut input.fogoTx parsed →
    ∀ c, Stated fogoConnection parsed c →
      deriveInboxAuthority rt programId c.userWallet c.minSwapOut = recipientOnSolana →
        userWalletCache.get input.fogoTx = some c ∨
          ∃ n : ℕ, c.minSwapOut = n ∧ FloorRead parsed n

theorem mem_statedFloors_le {parsed : ParsedTx} {n : ℕ} (h : FloorStated parsed n) :
    n ≤ u64Max := by
  obtain ⟨ix, -, ⟨-, messages, -, message, -, hline⟩ | ⟨-, hle, -⟩⟩ := h
  · exact (mem_statedFloors.mp hline).1
  · exact hle

theorem Stated.wellFormed {parsed : ParsedTx} {c : RecoveredWalletAndMinOut}
    (h : Stated fogoConnection parsed c) : WellFormed c := by
  obtain ⟨ix, -, sourceAta, ataInfo, -, -, howner⟩ := h.owner
  obtain ⟨n, hn, hstated⟩ := h.floor
  exact ⟨ataOwner_length howner, n, mem_statedFloors_le hstated, hn⟩

/-- What is selected if the recipient's pair is well formed and known. -/
theorem selected_of_derives (hinj : InjectiveInboxes rt programId)
    (hinput : input.userWallet = none ∨ input.minSwapOut = none)
    (hcache : CacheWellFormed userWalletCache) {parsed : ParsedTx}
    (hparsed : Recoverable fogoConnection timesOut input.fogoTx parsed)
    {c : RecoveredWalletAndMinOut} (hc : WellFormed c)
    (hderives : derivesRecipient rt programId recipientOnSolana c = true)
    (hknown : userWalletCache.get input.fogoTx = some c ∨
      SourceOwner fogoConnection parsed defaultIntentProgramIds c.userWallet ∧
        ∃ n : ℕ, c.minSwapOut = n ∧ FloorRead parsed n) :
    (recoverForReceive rt programId fogoConnection timesOut input recipientOnSolana
      userWalletCache).1 = .selected c := by
  obtain ⟨candidates, hcandidates⟩ := hparsed.answers.candidates
  have hok : withTimeout timesOut (recoverWalletAndMinOutCandidates fogoConnection input.fogoTx
      defaultIntentProgramIds) = .ok candidates :=
    withTimeout_eq_ok.mpr ⟨hparsed.inTime, hcandidates⟩
  rcases recoverForReceive_cases hinput rfl with ⟨c', hget, hderives', heq⟩ |
    ⟨hcached, ⟨err, herr, -⟩ | ⟨candidates', hcandidates', hfind⟩⟩
  · rw [heq, derivesRecipient_inj hinj hc (hcache _ c' hget) hderives hderives']
  · cases herr.symm.trans hok
  · obtain rfl := Except.ok.inj (hcandidates'.symm.trans hok)
    have hmem : c ∈ candidates' := by
      refine (mem_candidates hcandidates c).mpr ⟨parsed, hparsed.answers.fetched, ?_⟩
      exact hknown.resolve_left (fun hget => hcached c hget hderives)
    rcases hfind with ⟨hnone, -⟩ | ⟨c', hc', hderives', heq⟩
    · exact absurd hderives (hnone c hmem)
    · have hc'' := wellFormed_candidate hcandidates hc'
      rw [heq, derivesRecipient_inj hinj hc hc'' hderives hderives']

/-- The recovery is correct if and only if no floor of the recipient's pair is passed over. -/
theorem recovery_correct_iff (hinj : InjectiveInboxes rt programId)
    (hcache : CacheWellFormed userWalletCache)
    (hinput : input.userWallet = none ∨ input.minSwapOut = none) :
    RecoveryCorrect rt programId fogoConnection timesOut input recipientOnSolana userWalletCache ↔
      NoFloorPassedOver rt programId fogoConnection timesOut input recipientOnSolana
        userWalletCache := by
  have hderives : ∀ cache c, (recoverForReceive rt programId fogoConnection timesOut input
      recipientOnSolana cache).1 = .selected c →
        derivesRecipient rt programId recipientOnSolana c = true :=
    fun cache c h => (selected_spec hinput h).1
  have hformed : ∀ cache, CacheWellFormed cache → ∀ c, (recoverForReceive rt programId
      fogoConnection timesOut input recipientOnSolana cache).1 = .selected c → WellFormed c :=
    fun cache hcache c h => selected_wellFormed hinput hcache h
  constructor
  · intro h parsed hparsed c hstated hc
    have hselected := h.found parsed hparsed c hstated hc
    obtain ⟨-, -, hget | ⟨candidates, hcandidates, hmem⟩⟩ :=
      selected_spec hinput hselected
    · exact .inl hget
    · obtain ⟨parsed', hfetched, -, hread⟩ := (mem_candidates hcandidates c).mp hmem
      obtain rfl := Option.some.inj (Except.ok.inj (hfetched.symm.trans hparsed.answers.fetched))
      exact .inr hread
  · intro h
    refine ⟨?_, ?_, ?_, ?_, hcache.recover hinput, fun _ _ => parseMinSwapOutMemo_eq_some, fun _ _ hbuild =>
      (parseMinSwapOutMemo_build hbuild).2⟩
    · exact fun c hc => of_decide_eq_true (hderives _ c hc)
    · intro c hc c' hc' hderives'
      exact derivesRecipient_inj hinj hc' (hformed _ hcache c hc) (decide_eq_true hderives')
        (hderives _ c hc)
    · intro other hother c c' hc hc'
      exact derivesRecipient_inj hinj (hformed _ hcache c hc) (hformed _ hother c' hc')
        (hderives _ c hc) (hderives _ c' hc')
    · intro parsed hparsed c hstated hc
      refine selected_of_derives hinj hinput hcache hparsed hstated.wellFormed
        (decide_eq_true hc) ?_
      exact (h parsed hparsed c hstated hc).imp_right (fun hread => ⟨hstated.owner, hread⟩)

end Recovery

/-! ## A bridge transaction -/

def sourceWallet : Pubkey := ⟨List.replicate 32 7⟩

/-- An instruction of the given program and data, with a bridge instruction behind it. -/
def bridgeTx (programIdIndex : ℕ) (data : Bytes) : ParsedTx where
  keys := [ed25519ProgramId, memoProgramId, onreIntentProgramId, ⟨List.replicate 32 9⟩]
  ixs := [⟨programIdIndex, [], data⟩, ⟨2, [3, 3, 3, 3], []⟩]

/-- The source account is the wallet's. -/
def bridgeConnection (parsed : ParsedTx) : FogoConnection where
  getTransaction _ := .ok (some parsed)
  getAccountInfo _ := .ok (some (List.replicate 32 0 ++ sourceWallet.bytes))

theorem bridgeConnection_answers (parsed : ParsedTx) :
    (bridgeConnection parsed).Answers "tx" defaultIntentProgramIds parsed :=
  ⟨rfl, fun _ _ _ _ => ⟨_, rfl⟩⟩

theorem bridgeTx_owner (programIdIndex : ℕ) (data : Bytes) :
    SourceOwner (bridgeConnection (bridgeTx programIdIndex data)) (bridgeTx programIdIndex data)
      defaultIntentProgramIds sourceWallet := by
  refine ⟨⟨2, [3, 3, 3, 3], []⟩, by simp [bridgeTx], ⟨List.replicate 32 9⟩,
    some (List.replicate 32 0 ++ sourceWallet.bytes), ?_, rfl, by decide⟩
  have hmem : onreIntentProgramId ∈ defaultIntentProgramIds := List.mem_cons_self ..
  have hprogram : (bridgeTx programIdIndex data).programId ⟨2, [3, 3, 3, 3], []⟩ =
      some onreIntentProgramId := rfl
  unfold ParsedTx.sourceAta
  rw [hprogram]
  simp only
  rw [if_pos hmem]
  rfl

def emptyCache : UserWalletCache := ⟨1000, [], by decide, List.nodup_nil⟩

theorem emptyCache_wellFormed : CacheWellFormed emptyCache := nofun

/-- The inbox of the wallet and a floor. -/
def inboxOf (floor : ℤ) : Pubkey :=
  deriveInboxAuthority referenceBase relayerProgramId sourceWallet floor

/-- A memo's floor is found. -/
theorem recovery_correct_memo :
    (recoverForReceive referenceBase relayerProgramId
      (bridgeConnection (bridgeTx 1 (utf8 "onre:mso:5"))) false ⟨"tx", none, none⟩ (inboxOf 5)
      emptyCache).1 = .selected ⟨sourceWallet, 5⟩ := by
  have hinj := injectiveInboxes (referenceBook.laws rfl rfl : referenceBase.AddressLaws)
    relayerProgramId
  have hmemo : FloorStated (bridgeTx 1 (utf8 "onre:mso:5")) 5 :=
    ⟨⟨1, [], utf8 "onre:mso:5"⟩, List.mem_cons_self .., .inr ⟨rfl, by decide, by decide +kernel⟩⟩
  have hread : ∀ parsed, (bridgeConnection (bridgeTx 1 (utf8 "onre:mso:5"))).Answers "tx"
      defaultIntentProgramIds parsed → parsed = bridgeTx 1 (utf8 "onre:mso:5") := fun parsed h =>
    (Option.some.inj (Except.ok.inj h.fetched)).symm
  have hcorrect := (@recovery_correct_iff referenceBase relayerProgramId (inboxOf 5)
    (bridgeConnection (bridgeTx 1 (utf8 "onre:mso:5"))) false ⟨"tx", none, none⟩ emptyCache hinj
    emptyCache_wellFormed (.inl rfl)).mpr (by
      intro parsed hparsed c hstated _
      obtain rfl := hread parsed hparsed.answers
      obtain ⟨n, hn, hfloor⟩ := hstated.floor
      exact .inr ⟨n, hn, floorRead_of_memo (by decide +kernel) hfloor⟩)
  exact hcorrect.found _ ⟨rfl, bridgeConnection_answers _⟩ ⟨sourceWallet, 5⟩
    ⟨bridgeTx_owner _ _, 5, rfl, hmemo⟩ rfl

def adjacentData : Bytes :=
  verifierData 48 16 112 21 (List.replicate 96 0 ++ utf8 "min_out: 1\nmin_out: 2")

/-- Of two adjacent `min_out` lines the second is stated, but its pair is not found. -/
theorem recovery_adjacent :
    ¬ RecoveryCorrect referenceBase relayerProgramId (bridgeConnection (bridgeTx 0 adjacentData))
      false ⟨"tx", none, none⟩ (inboxOf 2) emptyCache := by
  intro h
  have hcandidates : recoverWalletAndMinOutCandidates (bridgeConnection (bridgeTx 0 adjacentData))
      "tx" defaultIntentProgramIds = .ok [⟨sourceWallet, 1⟩] := by decide +kernel
  have hmessages : ed25519InlineMessages adjacentData =
      .ok [utf8 "min_out: 1\nmin_out: 2"] := by decide +kernel
  have hfloors : 2 ∈ statedFloors (textDecode (utf8 "min_out: 1\nmin_out: 2")) := by
    decide +kernel
  have hstated : IxFloor (bridgeTx 0 adjacentData)
      (fun message n => n ∈ statedFloors (textDecode message)) 2 ⟨0, [], adjacentData⟩ :=
    .inl ⟨rfl, _, hmessages, _, List.mem_singleton_self _, hfloors⟩
  have hselected := h.found _ ⟨rfl, bridgeConnection_answers _⟩ ⟨sourceWallet, 2⟩
    ⟨bridgeTx_owner _ _, 2, rfl, _, List.mem_cons_self .., hstated⟩ rfl
  obtain ⟨-, -, hget | ⟨candidates, hcandidates', hmem⟩⟩ :=
    selected_spec (.inl rfl) hselected
  · cases hget
  · obtain rfl := Except.ok.inj (hcandidates'.symm.trans hcandidates)
    exact absurd hmem (by decide)

end FogoYield.Cranker
