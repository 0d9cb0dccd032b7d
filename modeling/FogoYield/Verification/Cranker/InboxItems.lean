import FogoYield.Model.Cranker.Enumerate

/-! # Two decoders of an inbox item

The program reads an inbox item with Borsh, the clients with readers of their own. -/

namespace FogoYield.Cranker

open FogoYield.Library FogoYield.Solana FogoYield.Sdk
open FogoYield.Relayer (InboxItem ReleaseStatus inboxItemDisc readBytes readBool readUInt8
  readUInt64 readReleaseStatus slice)

/-! ## The fields before the release status -/

/-- An item up to its release status, and the bytes that follow. -/
structure ItemHead where
  init : UInt8
  bump : UInt8
  amount : UInt64
  recipient : Bytes
  votes : Bytes
  status : Bytes

def readHead (cursor : Bytes) : Option ItemHead := do
  let (init, cursor) ← readUInt8 cursor
  let (bump, cursor) ← readUInt8 cursor
  let (amount, cursor) ← readUInt64 cursor
  let (recipient, cursor) ← readBytes 32 cursor
  let (votes, cursor) ← readBytes 16 cursor
  some ⟨init, bump, amount, recipient, votes, cursor⟩

theorem readBytes_eq_some {n : ℕ} {cursor l r : Bytes} :
    readBytes n cursor = some (l, r) ↔ l.length = n ∧ cursor = l ++ r := by
  unfold readBytes
  split
  · rename_i hle
    constructor
    · intro h
      obtain ⟨rfl, rfl⟩ := Prod.mk.inj (Option.some.inj h)
      exact ⟨List.length_take_of_le hle, (List.take_append_drop n cursor).symm⟩
    · rintro ⟨rfl, rfl⟩
      simp
  · rename_i hlt
    simp only [reduceCtorEq, false_iff, not_and]
    rintro rfl rfl
    simp at hlt

theorem readUInt8_eq_some {cursor r : Bytes} {b : UInt8} :
    readUInt8 cursor = some (b, r) ↔ cursor = b :: r := by
  cases cursor <;> simp [readUInt8]

/-- The layout of an item. -/
theorem readHead_eq_some {cursor : Bytes} {head : ItemHead} : readHead cursor = some head ↔
    ∃ amount, amount.length = 8 ∧ head.recipient.length = 32 ∧ head.votes.length = 16 ∧
      head.amount = UInt64.ofNat (ofLeBytes amount) ∧
      cursor = head.init :: head.bump :: (amount ++ (head.recipient ++ (head.votes ++
        head.status))) := by
  simp only [readHead, readUInt64, Option.bind_eq_bind, Option.bind_eq_some_iff,
    Option.map_eq_some_iff, Prod.exists, readUInt8_eq_some, readBytes_eq_some, Option.some.injEq,
    Prod.mk.injEq]
  constructor
  · rintro ⟨_, _, rfl, _, _, rfl, _, _, ⟨amount, _, ⟨hamount, rfl⟩, rfl, rfl⟩, _, _,
      ⟨hrecipient, rfl⟩, _, _, ⟨hvotes, rfl⟩, rfl⟩
    exact ⟨amount, hamount, hrecipient, hvotes, rfl, rfl⟩
  · rintro ⟨amount, hamount, hrecipient, hvotes, hval, rfl⟩
    exact ⟨_, _, rfl, _, _, rfl, _, _, ⟨amount, _, ⟨hamount, rfl⟩, hval.symm, rfl⟩, _, _,
      ⟨hrecipient, rfl⟩, _, _, ⟨hvotes, rfl⟩, rfl⟩

theorem readHead_append {cursor : Bytes} {head : ItemHead} (h : readHead cursor = some head)
    (rest : Bytes) :
    readHead (cursor ++ rest) = some { head with status := head.status ++ rest } := by
  obtain ⟨amount, hamount, hrecipient, hvotes, hval, rfl⟩ := readHead_eq_some.mp h
  exact readHead_eq_some.mpr ⟨amount, hamount, hrecipient, hvotes, hval, by simp⟩

/-! ## The release status -/

/-- The same kind of status, and the same time if it is one that both sides can name. -/
def StatusAgrees : ReleaseStatus → NttInboxReleaseStatus → Prop
  | .notApproved, .notApproved => True
  | .releaseAfterDelay due, .releaseAfter timestamp => due.toNat < 2 ^ 63 → timestamp = due.toNat
  | .released, .released => True
  | _, _ => False

theorem releaseStatus_agrees (cursor : Bytes) :
    Option.Rel StatusAgrees (readReleaseStatus cursor) (decodeReleaseStatus cursor) := by
  cases cursor with
  | nil => exact .none
  | cons tag cursor =>
      simp only [readReleaseStatus, decodeReleaseStatus, readUInt8, Option.bind_eq_bind,
        Option.bind_some]
      by_cases hzero : tag = 0
      · rw [if_pos hzero, if_pos hzero]
        exact .some trivial
      · rw [if_neg hzero, if_neg hzero]
        by_cases hone : tag = 1
        · rw [if_pos hone, if_pos hone]
          cases readUInt64 cursor with
          | none => exact .none
          | some read =>
              refine .some ?_
              intro hlt
              rw [int64OfNat, if_pos hlt]
        · rw [if_neg hone, if_neg hone]
          by_cases htwo : tag = 2
          · rw [if_pos htwo, if_pos htwo]
            exact .some trivial
          · rw [if_neg htwo, if_neg htwo]
            exact .none

theorem readUInt64_append {cursor rest : Bytes} {r : UInt64 × Bytes}
    (h : readUInt64 cursor = some r) :
    readUInt64 (cursor ++ rest) = some (r.1, r.2 ++ rest) := by
  obtain ⟨⟨l, tail⟩, hread, rfl⟩ := Option.map_eq_some_iff.mp h
  obtain ⟨hlen, rfl⟩ := readBytes_eq_some.mp hread
  have hread' : readBytes 8 (l ++ tail ++ rest) = some (l, tail ++ rest) :=
    readBytes_eq_some.mpr ⟨hlen, List.append_assoc _ _ _⟩
  rw [readUInt64, hread']
  rfl

theorem readReleaseStatus_append {cursor : Bytes} {s : ReleaseStatus}
    (h : readReleaseStatus cursor = some s) (rest : Bytes) :
    readReleaseStatus (cursor ++ rest) = some s := by
  cases cursor with
  | nil => cases h
  | cons tag cursor =>
      simp only [readReleaseStatus, readUInt8, List.cons_append, Option.bind_eq_bind,
        Option.bind_some] at h ⊢
      split_ifs at h ⊢
      · exact h
      · obtain ⟨r, hread, hs⟩ := Option.bind_eq_some_iff.mp h
        rw [readUInt64_append hread]
        exact hs
      · exact h

theorem decodeReleaseStatus_append {cursor : Bytes} {s : NttInboxReleaseStatus}
    (h : decodeReleaseStatus cursor = some s) (rest : Bytes) :
    decodeReleaseStatus (cursor ++ rest) = some s := by
  cases cursor with
  | nil => cases h
  | cons tag cursor =>
      simp only [decodeReleaseStatus, readUInt8, List.cons_append, Option.bind_eq_bind,
        Option.bind_some] at h ⊢
      split_ifs at h ⊢
      · exact h
      · obtain ⟨r, hread, hs⟩ := Option.bind_eq_some_iff.mp h
        rw [readUInt64_append hread]
        exact hs
      · exact h

/-! ## The decoders -/

def ItemHead.inboxItem (head : ItemHead) (s : ReleaseStatus) : InboxItem :=
  ⟨decide (head.init = 1), head.bump, head.amount, ⟨head.recipient⟩, ofLeBytes head.votes, s⟩

def ItemHead.nttInboxItem (head : ItemHead) (s : NttInboxReleaseStatus) : NttInboxItem :=
  ⟨decide (head.init ≠ 0), head.bump, head.amount, ⟨head.recipient⟩, ofLeBytes head.votes, s⟩

theorem readBool_eq_some {cursor rest : Bytes} {b : Bool} : readBool cursor = some (b, rest) ↔
    ∃ init, readUInt8 cursor = some (init, rest) ∧ (init = 0 ∨ init = 1) ∧
      b = decide (init = 1) := by
  cases cursor with
  | nil => simp [readBool, readUInt8]
  | cons init cursor =>
      simp only [readBool, readUInt8, Option.some.injEq, Prod.mk.injEq]
      by_cases hzero : init = 0
      · subst hzero
        simp [eq_comm, and_comm]
      · by_cases hone : init = 1
        · subst hone
          simp [eq_comm, and_comm]
        · simp [hzero, hone]

/-- The program accepts the heads whose first byte is a Borsh `bool`. -/
theorem tryLoad_eq_ok {body : Bytes} {i : InboxItem} :
    InboxItem.tryLoad (inboxItemDisc ++ body) = .ok i ↔ ∃ head s, readHead body = some head ∧
      (head.init = 0 ∨ head.init = 1) ∧ readReleaseStatus head.status = some s ∧
      i = head.inboxItem s := by
  have hdisc : inboxItemDisc.length = 8 := rfl
  have htake : 8 ≤ (inboxItemDisc ++ body).length ∧
      (inboxItemDisc ++ body).take 8 = inboxItemDisc :=
    ⟨by simp [hdisc], List.take_left' hdisc⟩
  have hdrop : (inboxItemDisc ++ body).drop 8 = body := List.drop_left' hdisc
  simp only [InboxItem.tryLoad, bind_eq_ok, require_eq_ok, liftOption_eq_ok, exists_const,
    htake, hdrop, true_and]
  simp only [InboxItem.deserialize, readHead, Option.bind_eq_bind, Option.bind_eq_some_iff,
    Option.some.injEq, Prod.exists, readBool_eq_some]
  constructor
  · rintro ⟨_, _, ⟨init, hinit, hbool, rfl⟩, bump, _, hbump, amount, _, hamount, recipient, _,
      hrecipient, votes, _, hvotes, s, hs, rfl⟩
    exact ⟨_, s, ⟨init, _, hinit, bump, _, hbump, amount, _, hamount, recipient, _, hrecipient,
      votes, _, hvotes, rfl⟩, hbool, hs, rfl⟩
  · rintro ⟨_, s, ⟨init, _, hinit, bump, _, hbump, amount, _, hamount, recipient, _, hrecipient,
      votes, _, hvotes, rfl⟩, hbool, hs, rfl⟩
    exact ⟨_, _, ⟨init, hinit, hbool, rfl⟩, bump, _, hbump, amount, _, hamount, recipient, _,
      hrecipient, votes, _, hvotes, s, hs, rfl⟩

theorem decodeNttInboxItem_eq_some {body : Bytes} {n : NttInboxItem} :
    decodeNttInboxItem (inboxItemDiscriminator ++ body) = some n ↔ ∃ head s,
      readHead body = some head ∧ decodeReleaseStatus head.status = some s ∧
      n = head.nttInboxItem s := by
  have hdisc : inboxItemDiscriminator.length = 8 := rfl
  have htake : 8 ≤ (inboxItemDiscriminator ++ body).length ∧
      (inboxItemDiscriminator ++ body).take 8 = inboxItemDiscriminator :=
    ⟨by simp [hdisc], List.take_left' hdisc⟩
  have hdrop : (inboxItemDiscriminator ++ body).drop 8 = body := List.drop_left' hdisc
  simp only [decodeNttInboxItem, Option.bind_eq_bind, Option.bind_eq_some_iff, htake, hdrop,
    and_self, guard_true, Option.pure_def, Option.some.injEq, true_and, exists_const, Prod.exists,
    readHead]
  constructor
  · rintro ⟨init, _, hinit, bump, _, hbump, amount, _, hamount, recipient, _, hrecipient, votes, _,
      hvotes, s, hs, rfl⟩
    exact ⟨_, s, ⟨init, _, hinit, bump, _, hbump, amount, _, hamount, recipient, _, hrecipient,
      votes, _, hvotes, rfl⟩, hs, rfl⟩
  · rintro ⟨_, s, ⟨init, _, hinit, bump, _, hbump, amount, _, hamount, recipient, _, hrecipient,
      votes, _, hvotes, rfl⟩, hs, rfl⟩
    exact ⟨init, _, hinit, bump, _, hbump, amount, _, hamount, recipient, _, hrecipient, votes, _,
      hvotes, s, hs, rfl⟩

/-! ## Agreement -/

/-- What the program and a client read of one item. -/
structure ItemsAgree (i : InboxItem) (n : NttInboxItem) : Prop where
  init : n.init = i.init
  bump : n.bump = i.bump
  amount : n.amount = i.amount
  recipient : n.recipientAddress = i.recipientAddress
  votes : n.votes = i.votes
  status : StatusAgrees i.releaseStatus n.releaseStatus

theorem itemsAgree_of_head {head : ItemHead} {s : ReleaseStatus} {t : NttInboxReleaseStatus}
    (hbool : head.init = 0 ∨ head.init = 1) (hs : readReleaseStatus head.status = some s)
    (ht : decodeReleaseStatus head.status = some t) :
    ItemsAgree (head.inboxItem s) (head.nttInboxItem t) := by
  refine ⟨?_, rfl, rfl, rfl, rfl, ?_⟩
  · rcases hbool with hinit | hinit <;> simp [ItemHead.inboxItem, ItemHead.nttInboxItem, hinit]
  · have hagree := releaseStatus_agrees head.status
    rw [hs, ht] at hagree
    cases hagree with
    | some h => exact h

theorem readNttInboxAmount_of_head {body : Bytes} {head : ItemHead}
    (h : readHead body = some head) :
    readNttInboxAmount (inboxItemDiscriminator ++ body) = some head.amount.toNat := by
  obtain ⟨amount, hamount, -, -, hval, rfl⟩ := readHead_eq_some.mp h
  have hlt : ofLeBytes amount < 2 ^ 64 := by
    have hlt := ofLeBytes_lt amount
    rwa [hamount] at hlt
  have hslice : slice (inboxItemDiscriminator ++ head.init :: head.bump ::
      (amount ++ (head.recipient ++ (head.votes ++ head.status)))) 10 8 = amount := by
    change (amount ++ (head.recipient ++ (head.votes ++ head.status))).take 8 = amount
    exact List.take_left' hamount
  rw [readNttInboxAmount, if_neg, hslice, hval, UInt64.toNat_ofNat', Nat.mod_eq_of_lt hlt]
  simp only [List.length_append, List.length_cons, hamount, inboxItemDiscriminator]
  omega

/-- On every account the program and the clients read the same item: the program accepts what the
SDK accepts with a first byte that is a Borsh `bool`, the fields are the same, the cranker's reader
finds the same amount and nothing depends on what follows the item. -/
theorem inbox_decoders_agree (body : Bytes) :
    ((∃ i, InboxItem.tryLoad (inboxItemDisc ++ body) = .ok i) ↔
      (∃ n, decodeNttInboxItem (inboxItemDiscriminator ++ body) = some n) ∧
        (body.head? = some 0 ∨ body.head? = some 1)) ∧
    (∀ i n, InboxItem.tryLoad (inboxItemDisc ++ body) = .ok i →
      decodeNttInboxItem (inboxItemDiscriminator ++ body) = some n →
      ItemsAgree i n ∧
        readNttInboxAmount (inboxItemDiscriminator ++ body) = some i.amount.toNat) ∧
    ∀ rest, (∀ i, InboxItem.tryLoad (inboxItemDisc ++ body) = .ok i →
        InboxItem.tryLoad (inboxItemDisc ++ (body ++ rest)) = .ok i) ∧
      ∀ n, decodeNttInboxItem (inboxItemDiscriminator ++ body) = some n →
        decodeNttInboxItem (inboxItemDiscriminator ++ (body ++ rest)) = some n := by
  have hhead : ∀ head, readHead body = some head → body.head? = some head.init := by
    intro head h
    obtain ⟨_, -, -, -, -, rfl⟩ := readHead_eq_some.mp h
    rfl
  refine ⟨⟨?_, ?_⟩, ?_, ?_⟩
  · rintro ⟨i, hi⟩
    obtain ⟨head, s, h, hbool, hs, -⟩ := tryLoad_eq_ok.mp hi
    have hagree := releaseStatus_agrees head.status
    rw [hs] at hagree
    cases ht : decodeReleaseStatus head.status with
    | none =>
        rw [ht] at hagree
        cases hagree
    | some t =>
        refine ⟨⟨_, decodeNttInboxItem_eq_some.mpr ⟨head, t, h, ht, rfl⟩⟩, ?_⟩
        rw [hhead head h, Option.some.injEq, Option.some.injEq]
        exact hbool
  · rintro ⟨⟨n, hn⟩, hbool⟩
    obtain ⟨head, t, h, ht, -⟩ := decodeNttInboxItem_eq_some.mp hn
    rw [hhead head h, Option.some.injEq, Option.some.injEq] at hbool
    have hagree := releaseStatus_agrees head.status
    rw [ht] at hagree
    cases hs : readReleaseStatus head.status with
    | none =>
        rw [hs] at hagree
        cases hagree
    | some s => exact ⟨_, tryLoad_eq_ok.mpr ⟨head, s, h, hbool, hs, rfl⟩⟩
  · intro i n hi hn
    obtain ⟨head, s, h, hbool, hs, rfl⟩ := tryLoad_eq_ok.mp hi
    obtain ⟨head', t, h', ht, rfl⟩ := decodeNttInboxItem_eq_some.mp hn
    obtain rfl := Option.some.inj (h.symm.trans h')
    exact ⟨itemsAgree_of_head hbool hs ht, readNttInboxAmount_of_head h⟩
  · intro rest
    constructor
    · intro i hi
      obtain ⟨head, s, h, hbool, hs, rfl⟩ := tryLoad_eq_ok.mp hi
      exact tryLoad_eq_ok.mpr ⟨_, s, readHead_append h rest, hbool,
        readReleaseStatus_append hs rest, rfl⟩
    · intro n hn
      obtain ⟨head, t, h, ht, rfl⟩ := decodeNttInboxItem_eq_some.mp hn
      exact decodeNttInboxItem_eq_some.mpr ⟨_, t, readHead_append h rest,
        decodeReleaseStatus_append ht rest, rfl⟩

end FogoYield.Cranker
