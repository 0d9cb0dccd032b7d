import FogoYield.Model.Relayer.ReferenceManager

/-! # The reference manager is lawful

The executable NTT manager does what the manager laws say. What any program of a reference chain
can do to the accounts is stated once, as `Edits`, and the runtime laws follow from it. -/

namespace FogoYield.Relayer

open FogoYield.Library FogoYield.Solana

/-! ## Inbox items round-trip -/

theorem readBytes_append {n : ℕ} {l : Bytes} (r : Bytes) (h : l.length = n) :
    readBytes n (l ++ r) = some (l, r) := by
  have hle : n ≤ (l ++ r).length := by
    rw [List.length_append]
    omega
  rw [readBytes, if_pos hle, ← h, List.take_left, List.drop_left]

theorem readUInt64_append (x : UInt64) (r : Bytes) :
    readUInt64 (leBytes 8 x.toNat ++ r) = some (x, r) := by
  rw [readUInt64, readBytes_append r (leBytes_length 8 _), Option.map_some, ofLeBytes_amount]
  simp

theorem readReleaseStatus_encode (s : ReleaseStatus) : readReleaseStatus s.encode = some s := by
  cases s with
  | notApproved => rfl
  | released => rfl
  | releaseAfterDelay t =>
      have hread := readUInt64_append t []
      rw [List.append_nil] at hread
      simp [ReleaseStatus.encode, readReleaseStatus, readUInt8, hread]

theorem InboxItem.tryLoad_encode {i : InboxItem} (hlen : i.recipientAddress.bytes.length = 32)
    (hvotes : i.votes < 256 ^ 16) : InboxItem.tryLoad i.encode = .ok i := by
  have hbool : ∀ (b : Bool) (r : Bytes), readBool (boolByte b :: r) = some (b, r) := by
    intro b r
    cases b <;> rfl
  have hload : InboxItem.deserialize (i.encode.drop 8) = some i := by
    have hdrop : i.encode.drop 8 = boolByte i.init :: i.bump :: (leBytes 8 i.amount.toNat ++
        (i.recipientAddress.bytes ++ (leBytes 16 i.votes ++ i.releaseStatus.encode))) := rfl
    simp only [hdrop, InboxItem.deserialize, hbool, readUInt8, readUInt64_append,
      readBytes_append _ hlen, readBytes_append _ (leBytes_length 16 i.votes),
      readReleaseStatus_encode, ofLeBytes_leBytes 16 _ hvotes, Option.bind_eq_bind,
      Option.bind_some]
  have hdisc : 8 ≤ i.encode.length ∧ i.encode.take 8 = inboxItemDisc := by
    refine ⟨?_, rfl⟩
    simp [InboxItem.encode, inboxItemDisc]
  simp only [InboxItem.tryLoad, bind_eq_ok, require_eq_ok, liftOption_eq_ok, exists_const]
  exact ⟨hdisc, hload⟩

theorem NttTransferArgs.decode_serialize (args : NttTransferArgs) :
    NttTransferArgs.decode args.serialize = some args := by
  have hamount : UInt64.ofNat (ofLeBytes (args.serialize.take 8)) = args.amount := by
    have htake : args.serialize.take 8 = leBytes 8 args.amount.toNat := by
      rw [serialize, List.append_assoc, List.append_assoc, List.take_left' (leBytes_length _ _)]
    rw [htake, ofLeBytes_leBytes 8 _ args.amount.toNat_lt, UInt64.ofNat_toNat]
  have hchain : UInt16.ofNat (ofLeBytes (slice args.serialize 8 2)) = args.recipientChain := by
    have hslice : slice args.serialize 8 2 = leBytes 2 args.recipientChain.toNat := by
      rw [serialize, slice, List.append_assoc, List.append_assoc,
        List.drop_left' (leBytes_length _ _), List.take_left' (leBytes_length _ _)]
    rw [hslice, ofLeBytes_leBytes 2 _ args.recipientChain.toNat_lt, UInt16.ofNat_toNat]
  have haddress : (args.serialize.drop 10).dropLast = args.recipientAddress := by
    rw [serialize, List.append_assoc, List.drop_left' (by simp), List.dropLast_concat]
  have hqueue : decide (args.serialize.getLast? = some 1) = args.shouldQueue := by
    rw [serialize, List.getLast?_concat]
    cases args.shouldQueue <;> rfl
  rw [decode, hamount, hchain, haddress, hqueue]
  exact if_pos rfl

/-- What was read can be written back. -/
theorem InboxItem.tryLoad_bounds {b : Bytes} {i : InboxItem} (h : InboxItem.tryLoad b = .ok i) :
    i.recipientAddress.bytes.length = 32 ∧ i.votes < 256 ^ 16 := by
  have hread : ∀ {n : ℕ} {c l r : Bytes}, readBytes n c = some (l, r) → l.length = n := by
    intro n c l r hr
    unfold readBytes at hr
    split at hr
    · rename_i hle
      obtain ⟨rfl, -⟩ := Prod.mk.inj (Option.some.inj hr)
      rw [List.length_take, Nat.min_eq_left hle]
    · cases hr
  simp only [InboxItem.tryLoad, bind_eq_ok, require_eq_ok, liftOption_eq_ok, exists_const,
    InboxItem.deserialize, Option.bind_eq_bind, Option.bind_eq_some_iff] at h
  obtain ⟨-, _, -, _, -, _, -, ⟨r, c⟩, hr, ⟨v, c'⟩, hv, s, -, heq⟩ := h
  obtain rfl := Option.some.inj heq
  refine ⟨hread hr, ?_⟩
  have hlt := ofLeBytes_lt v
  rwa [hread hv] at hlt

/-! ## What a call can do to one account -/

/-- Manager `p` opened or advanced an inbox item. -/
inductive ItemEdit (p : Pubkey) (x y : Account RelayerData) : Prop where
  | opened (bytes : Bytes) : x.owner = systemProgram →
      y = { x with owner := p, data := .raw bytes } → ItemEdit p x y
  | advanced (i j : InboxItem) (bytes : Bytes) : x.owner = p → InboxItem.tryLoad x.bytes = .ok i →
      InboxItem.tryLoad bytes = .ok j → i.Evolves j → y = { x with data := .raw bytes } →
      ItemEdit p x y

/-- Only accounts given as writable changed: token accounts, and inbox items of the managers. -/
def Edits (managers consents : Pubkey → Prop) (ix : Instruction) (a a' : RelayerAccounts) : Prop :=
  ∀ k, a' k = a k ∨ ix.Writes k ∧
    ((∃ t t', tokenAt a k = some t ∧ a' k = { a k with data := .token t' } ∧
      t.Edited consents t') ∨ ∃ p, managers p ∧ ItemEdit p (a k) (a' k))

section

variable {managers consents : Pubkey → Prop} {ix : Instruction} {a a₁ a' : RelayerAccounts}

theorem Edits.of_tokenEdits (h : TokenEdits consents ix a a') :
    Edits managers consents ix a a' := by
  intro k
  rcases h k with heq | ⟨hw, ht⟩
  · exact .inl heq
  · exact .inr ⟨hw, .inl ht⟩

/-- Token edits, then one item. -/
theorem Edits.of_item {k p : Pubkey} {y : Account RelayerData} (h : TokenEdits consents ix a a₁)
    (hp : managers p) (hw : ix.Writes k) (hi : ItemEdit p (a k) y) :
    Edits managers consents ix a (Function.update a₁ k y) := by
  intro j
  by_cases hj : j = k
  · subst hj
    rw [Function.update_self]
    exact .inr ⟨hw, .inr ⟨p, hp, hi⟩⟩
  · rw [Function.update_of_ne hj]
    exact Edits.of_tokenEdits h j

theorem Edits.mono {consents' : Pubkey → Prop} (h : Edits managers consents ix a a')
    (himp : ∀ k, consents k → consents' k) : Edits managers consents' ix a a' := by
  intro k
  rcases h k with heq | ⟨hw, ⟨t, t', ht, ha', he⟩ | hitem⟩
  · exact .inl heq
  · exact .inr ⟨hw, .inl ⟨t, t', ht, ha', he.mint, he.owner, he.closeAuthority,
      he.covered.imp_right (himp _)⟩⟩
  · exact .inr ⟨hw, .inr hitem⟩

/-- A manager is neither the relayer, the system program nor a token program. -/
structure IsManager (p : Pubkey) : Prop where
  ne_programId : p ≠ programId
  ne_system : p ≠ systemProgram
  ne_token : ¬ IsTokenProgram p

theorem Edits.frame (h : Edits managers consents ix a a') (k : Pubkey) (hk : ¬ ix.Writes k) :
    a' k = a k := by
  rcases h k with heq | ⟨hw, -⟩
  · exact heq
  · exact absurd hw hk

theorem Edits.foreign (h : Edits managers consents ix a a') {k : Pubkey}
    (ho : (a k).owner ≠ programId) : programAt programId a' k = none := by
  rcases h k with heq | ⟨-, ⟨t, t', -, ha', -⟩ | ⟨p, hp, hitem⟩⟩
  · simp [programAt, heq, ho]
  · simp [programAt, ha']
  · cases hitem with
    | opened _ _ ha' => simp [programAt, ha']
    | advanced _ _ _ _ _ _ _ ha' => simp [programAt, ha']

variable (hm : ∀ p, managers p → IsManager p)

include hm

/-- An account of another program than the token programs, the managers and the system program
stays. -/
theorem Edits.eq_of_owner (h : Edits managers consents ix a a') {k : Pubkey}
    (ho : (a k).owner = programId) : a' k = a k := by
  rcases h k with heq | ⟨-, ⟨t, t', ht, -, -⟩ | ⟨p, hp, hitem⟩⟩
  · exact heq
  · have htp := (tokenAt_eq_some.mp ht).1
    rw [ho] at htp
    exact absurd htp (by decide)
  · cases hitem with
    | opened _ hs => exact absurd (ho.symm.trans hs) (by decide)
    | advanced _ _ _ howner => exact absurd (howner.symm.trans ho) (hm p hp).ne_programId

/-- At an account of a token program only a token edit can have happened. -/
theorem Edits.at_token (h : Edits managers consents ix a a') {k : Pubkey}
    (ho : IsTokenProgram (a k).owner) : a' k = a k ∨ ∃ t t', tokenAt a k = some t ∧
      a' k = { a k with data := .token t' } ∧ t.Edited consents t' := by
  rcases h k with heq | ⟨-, ht | ⟨p, hp, hitem⟩⟩
  · exact .inl heq
  · exact .inr ht
  · cases hitem with
    | opened _ hs => exact absurd hs ho.ne_systemProgram
    | advanced _ _ _ howner =>
        rw [howner] at ho
        exact absurd ho (hm p hp).ne_token

theorem Edits.keeps (h : Edits managers consents ix a a') {k : Pubkey} {t : TokenAccount}
    (ht : tokenAt a k = some t) (hc : ¬ consents t.owner) : Keeps a a' k t := by
  have htp := (tokenAt_eq_some.mp ht).1
  rcases h.at_token hm htp with heq | ⟨u, t', hu, ha', he⟩
  · exact ⟨t, (tokenAt_congr heq).trans ht, .refl t, by rw [heq]⟩
  · obtain rfl := Option.some.inj (hu.symm.trans ht)
    have ht' : tokenAt a' k = some t' := by
      rw [tokenAt_eq_some, ha']
      exact ⟨htp, rfl⟩
    exact ⟨t', ht', he.covered.resolve_right hc, by rw [ha']⟩

theorem Edits.mintAt (h : Edits managers consents ix a a') {k : Pubkey} {m : Mint}
    (hmint : mintAt a k = some m) : mintAt a' k = some m ∧ (a' k).owner = (a k).owner := by
  obtain ⟨htp, hdata⟩ := mintAt_eq_some.mp hmint
  rcases h.at_token hm htp with heq | ⟨u, t', hu, -, -⟩
  · exact ⟨(mintAt_congr heq).trans hmint, by rw [heq]⟩
  · have hu' := (tokenAt_eq_some.mp hu).2
    rw [hdata] at hu'
    cases hu'

theorem Edits.owner_eq (h : Edits managers consents ix a a') {k : Pubkey}
    (ho : IsTokenProgram (a k).owner) : (a' k).owner = (a k).owner := by
  rcases h.at_token hm ho with heq | ⟨_, _, -, ha', -⟩
  · rw [heq]
  · rw [ha']

theorem Edits.ata {rt : RelayerRuntime} (h : Edits managers consents ix a a')
    (hw : AtaWellFormed rt a) : AtaWellFormed rt a' := by
  intro wallet mint tp t ht
  -- the address held a token account of the same mint before
  have hbefore : ∃ t₀, tokenAt a (rt.ata wallet mint tp) = some t₀ ∧ t.mint = t₀.mint ∧
      (a' (rt.ata wallet mint tp)).owner = (a (rt.ata wallet mint tp)).owner := by
    rcases h (rt.ata wallet mint tp) with heq | ⟨-, ⟨t₀, t', ht₀, ha', he⟩ | ⟨p, hp, hitem⟩⟩
    · exact ⟨t, (tokenAt_congr heq).symm.trans ht, rfl, by rw [heq]⟩
    · have ht' := (tokenAt_eq_some.mp ht).2
      rw [ha'] at ht'
      obtain rfl := Data.token.inj ht'
      exact ⟨t₀, ht₀, he.mint, by rw [ha']⟩
    · have hraw := (tokenAt_eq_some.mp ht).2
      cases hitem with
      | opened _ _ ha' =>
          rw [ha'] at hraw
          cases hraw
      | advanced _ _ _ _ _ _ _ ha' =>
          rw [ha'] at hraw
          cases hraw
  obtain ⟨t₀, ht₀, hmint, howner⟩ := hbefore
  obtain ⟨ho, hm₀, hmo⟩ := hw wallet mint tp t₀ ht₀
  have htp : IsTokenProgram (a mint).owner := by
    rw [hmo, ← ho]
    exact (tokenAt_eq_some.mp ht₀).1
  exact ⟨howner.trans ho, hmint.trans hm₀, (h.owner_eq hm htp).trans hmo⟩

theorem Edits.item (h : Edits managers consents ix a a') {p k : Pubkey} {i : InboxItem}
    (hp : managers p) (hi : inboxItemAt p a k = some i) :
    ∃ j, inboxItemAt p a' k = some j ∧ i.Evolves j := by
  obtain ⟨ho, hload⟩ := inboxItemAt_eq_some.mp hi
  rcases h k with heq | ⟨-, ⟨t, t', ht, -, -⟩ | ⟨q, hq, hitem⟩⟩
  · refine ⟨i, ?_, .refl i⟩
    rw [inboxItemAt_eq_some, heq]
    exact ⟨ho, hload⟩
  · have htp := (tokenAt_eq_some.mp ht).1
    rw [ho] at htp
    exact absurd htp (hm p hp).ne_token
  · cases hitem with
    | opened _ hs => exact absurd (ho.symm.trans hs) (hm p hp).ne_system
    | advanced i' j bytes _ hi' hj hev ha' =>
        obtain rfl := Except.ok.inj (hi'.symm.trans hload)
        refine ⟨j, ?_, hev⟩
        rw [inboxItemAt_eq_some, ha']
        exact ⟨ho, hj⟩

end

/-! ## The manager's instructions -/

section

variable {rt : RelayerRuntime} {limiter : RateLimiter} {p mint : Pubkey} {ix : Instruction}
variable {clock : Clock} {a a' : RelayerAccounts} {managers : Pubkey → Prop}

/-- Only the manager's own custody account can lose tokens that were not delegated. -/
def isTokenAuthority (rt : RelayerRuntime) (p k : Pubkey) : Prop := k = tokenAuthority rt p

theorem nttRedeem_spec (h : nttRedeem rt limiter p ix clock a = some a') :
    ∃ vtm itemKey m, keyAt ix.accounts 3 = some vtm ∧ keyAt ix.accounts 6 = some itemKey ∧
      keyAt ix.accounts 2 = some (deriveNttPeer rt p m.fromChain).1 ∧
      TransceiverMessage.decode (a vtm).bytes = some m ∧ itemKey = inboxItemAddress rt p m ∧
      (a itemKey).owner = systemProgram ∧ ix.Writes itemKey ∧
      a' = setRaw a itemKey p (redeemedItem limiter (rateLimitState rt p a m) clock m).encode := by
  simp only [nttRedeem, Option.bind_eq_bind, Option.bind_eq_some_iff, Option.guard_eq_some',
    Option.some.injEq] at h
  obtain ⟨peer, hpeer, vtm, hvtm, itemKey, hitem, m, hm, -, ⟨-, rfl, haddr, hs, hw⟩, rfl⟩ := h
  exact ⟨vtm, itemKey, m, hvtm, hitem, hpeer, hm, haddr, hs, hw, rfl⟩

theorem nttRedeem_edits (hp : managers p) (h : nttRedeem rt limiter p ix clock a = some a') :
    Edits managers (isTokenAuthority rt p) ix a a' := by
  obtain ⟨vtm, itemKey, m, -, -, -, -, -, hs, hw, rfl⟩ := nttRedeem_spec h
  exact .of_item (.refl _ ix a) hp hw (.opened _ hs rfl)

theorem toAddress_length {data : Bytes} {m : TransceiverMessage}
    (h : TransceiverMessage.decode data = some m) : m.toAddress.length = 32 := by
  unfold TransceiverMessage.decode at h
  split at h
  · rename_i hlen
    obtain rfl := Option.some.inj h
    simp only [slice, List.length_take, List.length_drop]
    omega
  · cases h

theorem nttRedeem_redeemSpec (hne : ¬ IsTokenProgram p) (hsys : p ≠ systemProgram)
    (h : nttRedeem rt limiter p ix clock a = some a') :
    ∃ vtm itemKey m item, RedeemSpec rt limiter p ix.accounts clock a a' vtm itemKey m item := by
  obtain ⟨vtm, itemKey, m, hvtm, hitem, hpeer, hmsg, haddr, hs, -, rfl⟩ := nttRedeem_spec h
  refine ⟨vtm, itemKey, m, redeemedItem limiter (rateLimitState rt p a m) clock m, hvtm, hitem,
    hpeer, hmsg, haddr, ?_, ?_, rfl, rfl, ?_⟩
  · intro i hi
    exact absurd ((inboxItemAt_eq_some.mp hi).1.symm.trans hs) hsys
  · rw [inboxItemAt_eq_some]
    have hload := InboxItem.tryLoad_encode (i := redeemedItem limiter (rateLimitState rt p a m)
      clock m) (toAddress_length hmsg) (by simp [redeemedItem])
    simpa [setRaw, Account.bytes] using hload
  · intro k
    by_cases hk : k = itemKey
    · subst hk
      have hntp : ¬ IsTokenProgram (a k).owner := by
        rw [hs]
        exact not_isTokenProgram_systemProgram
      simp [tokenAt, setRaw, hne, hntp]
    · exact tokenAt_congr (by simp [setRaw, hk])

/-- A release leaves the accounts or pays the item out of custody. -/
theorem nttRelease_spec (h : nttRelease rt p mint ix clock a = some a') :
    ∃ itemKey recipient item, keyAt ix.accounts 2 = some itemKey ∧
      keyAt ix.accounts 3 = some recipient ∧ inboxItemAt p a itemKey = some item ∧
      match item.releaseStatus with
      | .notApproved => a' = a
      | .released => False
      | .releaseAfterDelay due => if clock.unixTimestamp < due then a' = a else
        ∃ custody c a₁, tokenAt a custody = some c ∧ c.owner = tokenAuthority rt p ∧
          recipient = rt.ata item.recipientAddress mint tokenProgram ∧
          ix.Writes itemKey ∧ ix.Writes recipient ∧ ix.Writes custody ∧
          moveTokens a custody recipient item.amount = some a₁ ∧
          a' = setRaw a₁ itemKey p { item with releaseStatus := .released }.encode := by
  simp only [nttRelease, Option.bind_eq_bind, Option.bind_eq_some_iff] at h
  obtain ⟨itemKey, hitem, recipient, hrec, custody, hcust, item, hi, h⟩ := h
  refine ⟨itemKey, recipient, item, hitem, hrec, hi, ?_⟩
  cases hstatus : item.releaseStatus with
  | notApproved =>
      rw [hstatus] at h
      exact (Option.some.inj h).symm
  | released =>
      rw [hstatus] at h
      cases h
  | releaseAfterDelay due =>
      simp only [hstatus] at h ⊢
      split at h
      · rename_i hlate
        rw [if_pos hlate]
        exact (Option.some.inj h).symm
      · rename_i hdue
        rw [if_neg hdue]
        simp only [Option.bind_eq_some_iff, Option.guard_eq_some', Option.some.injEq] at h
        obtain ⟨c, hc, -, ⟨ho, hata, hwi, hwr, hwc⟩, a₁, hmove, rfl⟩ := h
        exact ⟨custody, c, a₁, hc, ho, hata, hwi, hwr, hwc, hmove, rfl⟩

theorem balance_moveTokens {source dest : Pubkey} {n : UInt64}
    (h : moveTokens a source dest n = some a') : balance a' dest = balance a dest + n.toNat := by
  simp only [moveTokens, Option.bind_eq_bind, Option.bind_eq_some_iff, Option.guard_eq_some',
    Option.some.injEq] at h
  obtain ⟨s, -, d, hd, -, ⟨-, -, -, hroom⟩, rfl⟩ := h
  have htp := (tokenAt_eq_some.mp hd).1
  rw [balance_of_tokenAt (tokenAt_setToken_self _ (by rwa [setToken_owner])),
    balance_of_tokenAt hd]
  show (d.amount + n).toNat = _
  rw [UInt64.toNat_add, Nat.mod_eq_of_lt hroom]

/-- Paying out ends with the item, which is no token account. -/
theorem balance_setRaw {k owner : Pubkey} {bytes : Bytes} (hk : ¬ IsTokenProgram (a k).owner)
    (ho : ¬ IsTokenProgram owner) (j : Pubkey) :
    balance (setRaw a k owner bytes) j = balance a j := by
  by_cases hj : j = k
  · subst hj
    simp [balance, tokenAt, setRaw, hk, ho]
  · simp only [balance, tokenAt_congr (show setRaw a k owner bytes j = a j by simp [setRaw, hj])]

theorem released_evolves (item : InboxItem) :
    item.Evolves { item with releaseStatus := .released } := by
  refine ⟨rfl, rfl, ?_⟩
  cases item.releaseStatus <;> simp [ReleaseStatus.stage]

theorem nttRelease_edits (hp : managers p) (hne : ¬ IsTokenProgram p)
    (h : nttRelease rt p mint ix clock a = some a') :
    Edits managers (isTokenAuthority rt p) ix a a' := by
  obtain ⟨itemKey, recipient, item, -, -, hi, hout⟩ := nttRelease_spec h
  have hsame : a' = a → Edits managers (isTokenAuthority rt p) ix a a' := by
    rintro rfl
    exact .of_tokenEdits (.refl _ ix _)
  cases hstatus : item.releaseStatus with
  | notApproved =>
      rw [hstatus] at hout
      exact hsame hout
  | released =>
      rw [hstatus] at hout
      exact hout.elim
  | releaseAfterDelay due =>
      simp only [hstatus] at hout
      split at hout
      · exact hsame hout
      · obtain ⟨custody, c, a₁, hc, ho, -, hwi, hwr, hwc, hmove, rfl⟩ := hout
        obtain ⟨howner, hload⟩ := inboxItemAt_eq_some.mp hi
        have hedits : TokenEdits (isTokenAuthority rt p) ix a a₁ :=
          moveTokens_edits hwc hwr hc ho hmove
        have hitem : a₁ itemKey = a itemKey := hedits.eq_of_owner (by rwa [howner])
        obtain ⟨hlen, hvotes⟩ := InboxItem.tryLoad_bounds hload
        refine .of_item hedits hp hwi (.advanced item { item with releaseStatus := .released } _
          howner hload (InboxItem.tryLoad_encode hlen hvotes) (released_evolves item) ?_)
        rw [hitem, howner]

theorem nttRelease_releaseSpec (hne : ¬ IsTokenProgram p)
    (h : nttRelease rt p mint ix clock a = some a') :
    ∃ itemKey recipient item item', ReleaseSpec p ix.accounts clock a a' itemKey recipient item
      item' := by
  obtain ⟨itemKey, recipient, item, hkey, hrec, hi, hout⟩ := nttRelease_spec h
  cases hstatus : item.releaseStatus with
  | notApproved =>
      rw [hstatus] at hout
      subst hout
      exact ⟨itemKey, recipient, item, item, hkey, hrec, hi, hi, by simp [hstatus]⟩
  | released =>
      rw [hstatus] at hout
      exact hout.elim
  | releaseAfterDelay due =>
      simp only [hstatus] at hout
      split at hout
      · rename_i hlate
        subst hout
        exact ⟨itemKey, recipient, item, item, hkey, hrec, hi, hi, by simp [hstatus, hlate]⟩
      · rename_i hdue
        obtain ⟨custody, c, a₁, hc, ho, -, hwi, hwr, hwc, hmove, rfl⟩ := hout
        obtain ⟨howner, hload⟩ := inboxItemAt_eq_some.mp hi
        have hedits : TokenEdits (isTokenAuthority rt p) ix a a₁ :=
          moveTokens_edits hwc hwr hc ho hmove
        have hntp : ¬ IsTokenProgram (a₁ itemKey).owner := by
          rw [hedits.owner_eq, howner]
          exact hne
        obtain ⟨hlen, hvotes⟩ := InboxItem.tryLoad_bounds hload
        have hafter := InboxItem.tryLoad_encode (i := { item with releaseStatus := .released })
          hlen hvotes
        refine ⟨itemKey, recipient, item, { item with releaseStatus := .released }, hkey, hrec, hi,
          ?_, ?_⟩
        · rw [inboxItemAt_eq_some]
          simpa [setRaw, Account.bytes] using hafter
        · simp only [hstatus, if_neg hdue, true_and]
          rw [balance_setRaw hntp hne, balance_moveTokens hmove]

/-- Locking credits the manager's own account at most. -/
theorem lockTokens_edits {custody : Pubkey} {amount : UInt64} (hw : ix.Writes custody) :
    TokenEdits (isTokenAuthority rt p) ix a (lockTokens rt p custody amount a) := by
  unfold lockTokens
  split
  · rename_i c hc
    split
    · rename_i ho
      exact .of_setToken hw hc ⟨rfl, rfl, rfl, .inr ho⟩
    · exact .refl _ ix a
  · exact .refl _ ix a

/-- The session authority spends only what was delegated to it. -/
theorem nttTransferLock_edits (h : nttTransferLock rt p ix a = some a') :
    TokenEdits (isTokenAuthority rt p) ix a a' := by
  simp only [nttTransferLock, Option.bind_eq_bind, Option.bind_eq_some_iff, Option.guard_eq_some',
    Option.some.injEq] at h
  obtain ⟨source, -, custody, -, session, -, args, -, s, hs, -, ⟨-, hdel, hle, hws, hwc⟩, s', hs',
    rfl⟩ := h
  have hspent : s.Edited (isTokenAuthority rt p) s' := by
    obtain ⟨hm, ho, hclose, hamount, hd⟩ := TokenAccount.debit_spec hle hs'
    refine ⟨hm, ho, hclose, .inl ⟨hm, ho, hclose, hd, ?_⟩⟩
    unfold TokenAccount.debit at hs'
    rw [if_pos hdel] at hs'
    split at hs'
    · rename_i hled
      have hsub := UInt64.toNat_sub_of_le _ _ hled
      have hle' := UInt64.le_iff_toNat_le.mp hled
      obtain rfl := Option.some.inj hs'
      dsimp only at hamount ⊢
      omega
    · cases hs'
  exact (TokenEdits.of_setToken hws hs hspent).trans (lockTokens_edits hwc)

theorem nttInvoke_edits (hp : managers p) (hne : ¬ IsTokenProgram p)
    (h : nttInvoke rt limiter p mint ix clock a = some a') :
    Edits managers (isTokenAuthority rt p) ix a a' := by
  unfold nttInvoke at h
  split at h
  · exact nttRedeem_edits hp h
  · split at h
    · exact nttRelease_edits hp hne h
    · split at h
      · exact .of_tokenEdits (nttTransferLock_edits h)
      · split at h
        · obtain rfl := Option.some.inj h
          exact .of_tokenEdits (.refl _ ix _)
        · cases h

end

/-- A runtime that hands a manager's instructions to the reference manager, and in which every call
only edits, obeys the manager laws. -/
theorem nttLaws_of_nttInvoke {rt : RelayerRuntime} (rt' : RelayerRuntime) (mint : Pubkey)
    {limiter : RateLimiter} {p : Pubkey}
    {managers : Pubkey → Prop} {consents : Instruction → Pubkey → Prop}
    (hm : ∀ q, managers q → IsManager q) (hp : managers p)
    (hfind : rt'.findProgramAddress = rt.findProgramAddress) (hkeccak : rt'.keccak = rt.keccak)
    (hinvoke : ∀ ix clock a, ix.programId = p →
      rt.invoke ix clock a = nttInvoke rt' limiter p mint ix clock a)
    (hedits : ∀ ix clock a a', rt.invoke ix clock a = some a' →
      Edits managers (consents ix) ix a a') : NttLaws rt limiter p where
  ne_programId := (hm p hp).ne_programId
  ne_system := (hm p hp).ne_system
  ne_token := (hm p hp).ne_token
  guarded := by
    intro ix clock a a' hix h k t ht ho
    rw [hinvoke ix clock a hix] at h
    have hauth : tokenAuthority rt' p = tokenAuthority rt p := by
      rw [tokenAuthority, hfind, tokenAuthority]
    refine (nttInvoke_edits hp (hm p hp).ne_token h).keeps hm ht ?_
    rw [isTokenAuthority, hauth]
    exact ho
  redeem := by
    intro accs clock a a' h
    rw [hinvoke _ clock a rfl, nttInvoke, if_pos rfl] at h
    obtain ⟨vtm, itemKey, m, item, hs⟩ :=
      nttRedeem_redeemSpec (hm p hp).ne_token (hm p hp).ne_system h
    refine ⟨vtm, itemKey, m, item, hs.vtm_at, hs.item_at, ?_, hs.message, ?_, hs.fresh,
      hs.item_after, hs.recipient, ?_, hs.tokens⟩
    · rw [hs.peer_at, deriveNttPeer, hfind, deriveNttPeer]
    · rw [hs.address, inboxItemAddress, hfind, hkeccak, inboxItemAddress]
    · rw [hs.status, rateLimitState, deriveNttInboxRateLimit, hfind, rateLimitState,
        deriveNttInboxRateLimit]
  release := by
    intro accs clock a a' h
    have hne : nttReleaseInboundUnlockIx ++ [boolByte false] ≠ nttRedeemIx := by decide
    rw [hinvoke _ clock a rfl, nttInvoke, if_neg hne, if_pos rfl] at h
    exact nttRelease_releaseSpec (hm p hp).ne_token h
  item h k i hi := (hedits _ _ _ _ h).item hm hp hi

end FogoYield.Relayer
