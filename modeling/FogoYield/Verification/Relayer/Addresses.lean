import FogoYield.Model.Relayer.Program

/-! # Derived addresses of the relayer

Each family of addresses has seeds of a shape of its own, so that an address tells its family and
what it was derived from. -/

namespace FogoYield.Relayer

open FogoYield.Library FogoYield.Solana

/-! ## Shapes -/

def relayerShape : List SeedKind := [.text relayerSeed]
def pairConfigShape : List SeedKind := [.text pairConfigSeed, .word, .word]
def flowShape (direction : Direction) : List SeedKind := [.text (Flow.seed direction), .word, .word]
def userInboxShape : List SeedKind := [.text userInboxSeed, .word, .number 8]
def peerShape : List SeedKind := [.text (ascii "peer"), .number 2]

theorem fits_relayer : Fits relayerShape [relayerSeed] := by simp [relayerShape]

theorem fits_pairConfig (base asset : Pubkey) :
    Fits pairConfigShape [pairConfigSeed, base.bytes, asset.bytes] := by
  simp [pairConfigShape]

theorem fits_flow (d : Direction) (pair item : Pubkey) :
    Fits (flowShape d) (flowSeeds d pair item) := by
  simp [flowShape, flowSeeds]

theorem fits_userInbox (wallet : Pubkey) (m : UInt64) :
    Fits userInboxShape (userInboxSeeds wallet m) := by
  simp [userInboxShape, userInboxSeeds]

theorem flowSeed_inj {d d' : Direction} (h : Flow.seed d = Flow.seed d') : d = d' := by
  cases d <;> cases d' <;> first | rfl | exact absurd h (by decide)

theorem told_flow (d d' : Direction) : Told (flowShape d) (flowShape d') := by
  by_cases h : d = d'
  · rw [h]
    exact told_self _
  · exact told_of_text (mt flowSeed_inj h) _

theorem flowSeeds_inj {d d' : Direction} {pair pair' item item' : Pubkey}
    (h : flowSeeds d pair item = flowSeeds d' pair' item') :
    d = d' ∧ pair = pair' ∧ item = item' := by
  simp only [flowSeeds, List.cons.injEq, and_true] at h
  obtain ⟨hd, hp, hi⟩ := h
  refine ⟨flowSeed_inj hd, ?_, ?_⟩
  · cases pair
    cases pair'
    exact congrArg Pubkey.mk hp
  · cases item
    cases item'
    exact congrArg Pubkey.mk hi

/-! ## What an address tells -/

section

variable {rt : RelayerRuntime} (h : rt.AddressLaws)

include h

theorem pairConfig_inj {base base' asset asset' : Pubkey}
    (heq : (rt.findProgramAddress [pairConfigSeed, base.bytes, asset.bytes] programId).1 =
      (rt.findProgramAddress [pairConfigSeed, base'.bytes, asset'.bytes] programId).1) :
    base = base' ∧ asset = asset' := by
  obtain ⟨hs, -⟩ :=
    h.find_inj (told_self pairConfigShape) (fits_pairConfig ..) (fits_pairConfig ..) heq
  cases base; cases base'; cases asset; cases asset'
  simp_all

theorem userInbox_inj {wallet wallet' : Pubkey} {m m' : UInt64}
    (heq : (rt.findProgramAddress (userInboxSeeds wallet m) programId).1 =
      (rt.findProgramAddress (userInboxSeeds wallet' m') programId).1) :
    wallet = wallet' ∧ m = m' := by
  obtain ⟨hs, -⟩ :=
    h.find_inj (told_self userInboxShape) (fits_userInbox ..) (fits_userInbox ..) heq
  simp only [userInboxSeeds, List.cons.injEq, true_and, and_true] at hs
  refine ⟨?_, UInt64.toNat_inj.mp (leBytes_inj m.toNat_lt m'.toNat_lt hs.2)⟩
  cases wallet
  cases wallet'
  exact congrArg Pubkey.mk hs.1

theorem flow_inj {d d' : Direction} {pair pair' item item' : Pubkey}
    (heq : (rt.findProgramAddress (flowSeeds d pair item) programId).1 =
      (rt.findProgramAddress (flowSeeds d' pair' item') programId).1) :
    d = d' ∧ pair = pair' ∧ item = item' :=
  flowSeeds_inj (h.find_inj (told_flow d d') (fits_flow ..) (fits_flow ..) heq).1

/-- The same, where the stored bump was used. -/
theorem flow_inj_of_create {d d' : Direction} {pair pair' item item' k : Pubkey} {bump : UInt8}
    (hcreate : rt.createProgramAddress (flowSeeds d pair item ++ [[bump]]) programId = some k)
    (hfind : (rt.findProgramAddress (flowSeeds d' pair' item') programId).1 = k) :
    d = d' ∧ pair = pair' ∧ item = item' :=
  flowSeeds_inj (h.create_eq_find (told_flow d d') (fits_flow ..) (fits_flow ..) hcreate hfind).1

/-- The relayer's own address is nobody's inbox. -/
theorem authority_ne_userInbox {authority : Pubkey} {bump : UInt8} (wallet : Pubkey) (m : UInt64)
    (hcreate : rt.createProgramAddress ([relayerSeed] ++ [[bump]]) programId = some authority) :
    authority ≠ (rt.findProgramAddress (userInboxSeeds wallet m) programId).1 := by
  intro heq
  have htold : Told relayerShape userInboxShape := told_of_width (by decide)
  obtain ⟨hs, -⟩ :=
    h.create_eq_find htold fits_relayer (fits_userInbox wallet m) hcreate heq.symm
  simp [userInboxSeeds] at hs

theorem relayerAuthority_ne_userInbox (wallet : Pubkey) (m : UInt64) :
    relayerAuthority rt ≠ (rt.findProgramAddress (userInboxSeeds wallet m) programId).1 :=
  authority_ne_userInbox h wallet m (h.create_find [relayerSeed] programId)

/-- Peer accounts tell origin chains apart. -/
theorem fromChain_of_peer {p : Pubkey} {x y : UInt16}
    (heq : (deriveNttPeer rt p x).1 = (deriveNttPeer rt p y).1) : x = y := by
  have hfits : ∀ z : UInt16, Fits peerShape [ascii "peer", beBytes 2 z.toNat] := by
    intro z
    simp [peerShape]
  obtain ⟨hs, -⟩ := h.find_inj (told_self peerShape) (hfits x) (hfits y) heq
  have hbytes : beBytes 2 x.toNat = beBytes 2 y.toNat := by simpa using hs
  have hle : leBytes 2 x.toNat = leBytes 2 y.toNat := List.reverse_injective hbytes
  exact UInt16.toNat_inj.mp (leBytes_inj x.toNat_lt y.toNat_lt hle)

end

end FogoYield.Relayer
