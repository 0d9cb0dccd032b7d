import FogoYield.Library.FirstMax
import FogoYield.Model.Sdk.OnreNav
import FogoYield.Verification.Sdk.OnreNav

/-! # The active vector of an offer

The scan over the slots keeps the first of the vectors that start last, among those in effect. A
slot that was never written starts at zero and is passed over, so the buffer stands for the list of
vectors that was written into it. -/

namespace FogoYield.Sdk

open FogoYield.Library
open FogoYield.Relayer (slice)

/-! ## One slot -/

def encodeFields (fields : List ℤ) : Bytes := fields.flatMap (fun x => setBigUint64 x true)

/-- A vector in its slot. -/
def encodeVector (v : OnreOfferVector) : Bytes :=
  encodeFields [v.startTime, v.baseTime, v.basePrice, v.apr, v.priceFixDuration]

def decodeVector (field : Bytes) : OnreOfferVector where
  startTime := getBigUint64 field 0
  baseTime := getBigUint64 field 8
  basePrice := getBigUint64 field 16
  apr := getBigUint64 field 24
  priceFixDuration := getBigUint64 field 32

theorem getBigUint64_slice {data : Bytes} {offset size i : ℕ} (h : i + 8 ≤ size) :
    getBigUint64 (slice data offset size) i = getBigUint64 data (offset + i) := by
  rw [getBigUint64, getBigUint64, slice, slice, slice, take_drop_take_drop h]

/-- A slot is read from its own bytes. -/
theorem offerVector_eq (data : Bytes) (i : ℕ) :
    offerVector data i = decodeVector
      (slice data (onreOfferVectorsOffset + i * onreOfferVectorSize) onreOfferVectorSize) := by
  have hsize : onreOfferVectorSize = 40 := rfl
  simp only [decodeVector]
  rw [getBigUint64_slice (by omega), getBigUint64_slice (by omega), getBigUint64_slice (by omega),
    getBigUint64_slice (by omega), getBigUint64_slice (by omega)]
  rfl

@[simp] theorem setBigUint64_length (x : ℤ) : (setBigUint64 x true).length = 8 :=
  leBytes_length 8 _

theorem ofLeBytes_setBigUint64 {x : ℤ} (hx : 0 ≤ x ∧ x ≤ 2 ^ 64 - 1) :
    (ofLeBytes (setBigUint64 x true) : ℤ) = x := by
  have hwidth : (256 : ℕ) ^ 8 = 2 ^ 64 := by norm_num
  have hlt : (x % 2 ^ 64).toNat < 256 ^ 8 := by omega
  have hread : ofLeBytes (setBigUint64 x true) = (x % 2 ^ 64).toNat := ofLeBytes_leBytes 8 _ hlt
  omega

/-- A field is read behind the fields before it. -/
theorem getBigUint64_encodeFields {fields : List ℤ} {k : ℕ} {x : ℤ} (hfield : fields[k]? = some x)
    (hx : 0 ≤ x ∧ x ≤ 2 ^ 64 - 1) : getBigUint64 (encodeFields fields) (8 * k) = x := by
  rw [getBigUint64, slice, encodeFields, take_drop_flatMap setBigUint64_length hfield,
    ofLeBytes_setBigUint64 hx]

theorem decodeVector_encodeVector {v : OnreOfferVector} (hv : v.InRange) :
    decodeVector (encodeVector v) = v := by
  have hstart : getBigUint64 (encodeVector v) 0 = v.startTime :=
    getBigUint64_encodeFields (k := 0) rfl hv.startTime
  have hbase : getBigUint64 (encodeVector v) 8 = v.baseTime :=
    getBigUint64_encodeFields (k := 1) rfl hv.baseTime
  have hprice : getBigUint64 (encodeVector v) 16 = v.basePrice :=
    getBigUint64_encodeFields (k := 2) rfl hv.basePrice
  have hapr : getBigUint64 (encodeVector v) 24 = v.apr :=
    getBigUint64_encodeFields (k := 3) rfl hv.apr
  have hduration : getBigUint64 (encodeVector v) 32 = v.priceFixDuration :=
    getBigUint64_encodeFields (k := 4) rfl hv.priceFixDuration
  rw [decodeVector, hstart, hbase, hprice, hapr, hduration]

theorem encodeFields_length (fields : List ℤ) :
    (encodeFields fields).length = 8 * fields.length :=
  length_flatMap_of_width setBigUint64_length fields

@[simp] theorem encodeVector_length (v : OnreOfferVector) :
    (encodeVector v).length = onreOfferVectorSize := encodeFields_length _

/-- Fields that are written one behind the other. -/
theorem foldl_viewSetBigUint64 {data : Bytes} {off : ℕ} (fields : List ℤ)
    (h : off + 8 * fields.length ≤ data.length) :
    fields.zipIdx.foldl (fun data field => viewSetBigUint64 data (off + 8 * field.2) field.1) data =
      overwrite data off (encodeFields fields) := by
  induction fields using List.reverseRecOn with
  | nil => exact (overwrite_nil data off).symm
  | append_singleton fields x ih =>
      rw [List.length_append, List.length_singleton] at h
      have hbytes : encodeFields (fields ++ [x]) = encodeFields fields ++ setBigUint64 x true := by
        simp [encodeFields]
      have hlength := encodeFields_length fields
      rw [List.zipIdx_append, List.foldl_append, ih (by omega), hbytes,
        ← overwrite_overwrite (by omega), hlength, Nat.zero_add]
      rfl

/-! ## All slots -/

/-- Where a slot begins. -/
def slotOffset (i : ℕ) : ℕ := onreOfferVectorsOffset + i * onreOfferVectorSize

theorem slotOffset_eq (i : ℕ) : slotOffset i = 72 + i * 40 := rfl

theorem putVector_eq {data : Bytes} {i : ℕ} (v : OnreOfferVector)
    (h : slotOffset i + onreOfferVectorSize ≤ data.length) :
    putVector data (v, i) = overwrite data (slotOffset i) (encodeVector v) :=
  foldl_viewSetBigUint64 [v.startTime, v.baseTime, v.basePrice, v.apr, v.priceFixDuration] h

section

variable {data : Bytes} {v : OnreOfferVector} {i j : ℕ}

theorem offerVector_putVector_self (hv : v.InRange)
    (h : slotOffset i + onreOfferVectorSize ≤ data.length) :
    offerVector (putVector data (v, i)) i = v := by
  have hfield : slice (putVector data (v, i)) (slotOffset i) onreOfferVectorSize =
      encodeVector v := by
    rw [putVector_eq v h, slice, ← encodeVector_length v]
    exact take_drop_overwrite (by omega)
  rw [offerVector_eq, ← slotOffset, hfield, decodeVector_encodeVector hv]

theorem offerVector_putVector_of_ne (hne : j ≠ i)
    (h : slotOffset i + onreOfferVectorSize ≤ data.length) :
    offerVector (putVector data (v, i)) j = offerVector data j := by
  have hlength := encodeVector_length v
  have hsize : onreOfferVectorSize = 40 := rfl
  have hdisjoint : slotOffset j + onreOfferVectorSize ≤ slotOffset i ∨
      slotOffset i + (encodeVector v).length ≤ slotOffset j := by
    rw [hlength, hsize, slotOffset_eq, slotOffset_eq]
    omega
  rw [offerVector_eq, offerVector_eq, ← slotOffset, putVector_eq v h, slice, slice,
    take_drop_overwrite_of_disjoint (by rwa [hlength]) hdisjoint]

end

/-- What a slot that was never written reads as. -/
def emptyVector : OnreOfferVector := ⟨0, 0, 0, 0, 0⟩

/-- The slots hold the vectors of a list, from the first slot on. -/
structure Filled (vs : List OnreOfferVector) (data : Bytes) : Prop where
  length_eq : data.length = onreOfferAccountSize
  slots : ∀ i < onreOfferMaxVectors, offerVector data i = vs[i]?.getD emptyVector

theorem slot_fits {i : ℕ} (h : i < onreOfferMaxVectors) :
    slotOffset i + onreOfferVectorSize ≤ onreOfferAccountSize := by
  have hmax : onreOfferMaxVectors = 10 := rfl
  have hsize : onreOfferVectorSize = 40 := rfl
  have haccount : onreOfferAccountSize = 608 := rfl
  rw [slotOffset_eq]
  omega

theorem filled_nil : Filled [] (List.replicate onreOfferAccountSize 0) where
  length_eq := List.length_replicate
  slots := by
    intro i hi
    have hfits := slot_fits hi
    have hzeros : slice (List.replicate onreOfferAccountSize 0) (slotOffset i)
        onreOfferVectorSize = List.replicate onreOfferVectorSize 0 := by
      rw [slice, List.drop_replicate, List.take_replicate, Nat.min_eq_left (by omega)]
    rw [offerVector_eq, ← slotOffset, hzeros]
    rfl

theorem Filled.put {vs : List OnreOfferVector} {data : Bytes} {v : OnreOfferVector}
    (h : Filled vs data) (hv : v.InRange) (hroom : vs.length < onreOfferMaxVectors) :
    Filled (vs ++ [v]) (putVector data (v, vs.length)) where
  length_eq := by
    have hfits := slot_fits hroom
    rw [← h.length_eq] at hfits ⊢
    rw [putVector_eq v hfits]
    exact overwrite_length (by rwa [encodeVector_length])
  slots := by
    intro i hi
    have hfits := slot_fits hroom
    rw [← h.length_eq] at hfits
    by_cases hlast : i = vs.length
    · subst hlast
      rw [offerVector_putVector_self hv hfits, List.getElem?_concat_length, Option.getD_some]
    · rw [offerVector_putVector_of_ne hlast hfits, h.slots i hi]
      rcases Nat.lt_or_gt_of_ne hlast with hlt | hgt
      · rw [List.getElem?_append_left hlt]
      · rw [List.getElem?_eq_none hgt.le,
          List.getElem?_eq_none (by rw [List.length_append, List.length_singleton]; omega)]

theorem filled_foldl {vs : List OnreOfferVector} (hlen : vs.length ≤ onreOfferMaxVectors)
    (hv : ∀ v ∈ vs, v.InRange) :
    Filled vs (vs.zipIdx.foldl putVector (List.replicate onreOfferAccountSize 0)) := by
  induction vs using List.reverseRecOn with
  | nil => exact filled_nil
  | append_singleton vs v ih =>
      rw [List.length_append, List.length_singleton] at hlen
      rw [List.forall_mem_append, List.forall_mem_singleton] at hv
      rw [List.zipIdx_append, List.foldl_append, Nat.zero_add]
      exact (ih (by omega) hv.1).put hv.2 hlen

/-- The buffer holds the vectors that have a slot. -/
theorem filled_synthOfferBuffer {vs : List OnreOfferVector} (hv : ∀ v ∈ vs, v.InRange) :
    Filled (vs.take onreOfferMaxVectors) (synthOfferBuffer vs) :=
  filled_foldl (List.length_take_le _ _) (fun v hmem => hv v (List.mem_of_mem_take hmem))

/-! ## The scan -/

theorem getBigUint64_range (data : Bytes) (offset : ℕ) :
    0 ≤ getBigUint64 data offset ∧ getBigUint64 data offset ≤ 2 ^ 64 - 1 := by
  have hlt := ofLeBytes_lt (slice data offset 8)
  have hwidth : 256 ^ (slice data offset 8).length ≤ 256 ^ 8 :=
    Nat.pow_le_pow_right (by norm_num) (List.length_take_le _ _)
  have h64 : (256 ^ 8 : ℕ) = 2 ^ 64 := by norm_num
  unfold getBigUint64
  omega

theorem offerVector_inRange (data : Bytes) (i : ℕ) : (offerVector data i).InRange :=
  ⟨getBigUint64_range _ _, getBigUint64_range _ _, getBigUint64_range _ _, getBigUint64_range _ _,
    getBigUint64_range _ _⟩

/-- The vectors in the slots. -/
def offerVectors (data : Bytes) : List OnreOfferVector :=
  (List.range onreOfferMaxVectors).map (offerVector data)

theorem offerVectors_inRange {data : Bytes} : ∀ v ∈ offerVectors data, v.InRange := by
  intro v hv
  obtain ⟨i, -, rfl⟩ := List.mem_map.mp hv
  exact offerVector_inRange data i

/-- In effect at `now`. -/
def OnreOfferVector.Active (now : ℤ) (v : OnreOfferVector) : Prop :=
  0 < v.startTime ∧ v.startTime ≤ now

instance (now : ℤ) : DecidablePred (OnreOfferVector.Active now) := fun v =>
  inferInstanceAs (Decidable (0 < v.startTime ∧ v.startTime ≤ now))

/-- The vector that a scan of the list picks. -/
def activeVector (now : ℤ) (vs : List OnreOfferVector) : Option OnreOfferVector :=
  firstMax OnreOfferVector.startTime (OnreOfferVector.Active now) vs

/-- One turn of the loop passes over a vector that is not in effect, and else compares. -/
theorem pickVector_eq {now : ℤ} {v : OnreOfferVector} (hv : 0 ≤ v.startTime)
    (best : Option OnreOfferVector) :
    pickVector now best v =
      firstMaxStep OnreOfferVector.startTime (OnreOfferVector.Active now) best v := by
  have hskip : (v.startTime = 0 ∨ now < v.startTime) ↔ ¬ v.Active now := by
    rw [OnreOfferVector.Active]
    omega
  unfold pickVector firstMaxStep
  by_cases hactive : v.Active now
  · rw [if_neg (hskip.not.mpr (not_not.mpr hactive)), if_pos hactive]
    cases best with
    | none => rfl
    | some b => rfl
  · rw [if_pos (hskip.mpr hactive), if_neg hactive]

theorem foldl_pickVector {now : ℤ} {vs : List OnreOfferVector} (hvs : ∀ v ∈ vs, v.InRange) :
    vs.foldl (pickVector now) none = activeVector now vs := by
  have hturn : ∀ best, ∀ v ∈ vs, pickVector now best v =
      firstMaxStep OnreOfferVector.startTime (OnreOfferVector.Active now) best v :=
    fun best v hv => pickVector_eq (hvs v hv).startTime.1 best
  rw [List.foldl_ext _ _ _ hturn, activeVector, firstMax_eq_foldl]

/-- The scan is the choice of a first maximum. -/
theorem parseActiveOfferVector_eq {data : Bytes} {now : ℤ}
    (h : onreOfferAccountSize ≤ data.length) :
    parseActiveOfferVector data now =
      match activeVector now (offerVectors data) with
      | none => .error (.error "OnreNoActiveVector: no qualifying pricing vector for current clock")
      | some best => .ok best := by
  have hscan :
      ((List.range onreOfferMaxVectors).map (offerVector data)).foldl (pickVector now) none =
        activeVector now (offerVectors data) := foldl_pickVector offerVectors_inRange
  rw [parseActiveOfferVector, if_neg (Nat.not_lt.mpr h)]
  cases hbest : activeVector now (offerVectors data) with
  | none => simp only [hscan, hbest]
  | some best => simp only [hscan, hbest]

theorem parseActiveOfferVector_inRange {data : Bytes} {now : ℤ} {v : OnreOfferVector}
    (h : parseActiveOfferVector data now = .ok v) : v.InRange := by
  by_cases hlen : data.length < onreOfferAccountSize
  · rw [parseActiveOfferVector, if_pos hlen] at h
    cases h
  · rw [parseActiveOfferVector_eq (Nat.not_lt.mp hlen)] at h
    split at h
    · cases h
    · rename_i best hbest
      obtain rfl := Except.ok.inj h
      exact offerVectors_inRange best (isFirstMax_of_firstMax hbest).mem

theorem Filled.offerVectors_eq {vs : List OnreOfferVector} {data : Bytes} (h : Filled vs data)
    (hlen : vs.length ≤ onreOfferMaxVectors) :
    offerVectors data = vs ++ List.replicate (onreOfferMaxVectors - vs.length) emptyVector := by
  refine List.ext_getElem ?_ ?_
  · rw [offerVectors, List.length_map, List.length_range, List.length_append,
      List.length_replicate]
    omega
  · intro i hi _
    rw [offerVectors, List.length_map, List.length_range] at hi
    simp only [offerVectors, List.getElem_map, List.getElem_range]
    rw [h.slots i hi, List.getElem_append]
    split
    · rename_i hlt
      rw [List.getElem?_eq_getElem hlt, Option.getD_some]
    · rename_i hge
      rw [List.getElem?_eq_none (Nat.not_lt.mp hge), Option.getD_none, List.getElem_replicate]

/-- The slots behind the list are passed over. -/
theorem Filled.activeVector_eq {vs : List OnreOfferVector} {data : Bytes} (h : Filled vs data)
    (hlen : vs.length ≤ onreOfferMaxVectors) (now : ℤ) :
    activeVector now (offerVectors data) = activeVector now vs := by
  rw [h.offerVectors_eq hlen]
  refine firstMax_append_of_not ?_
  intro v hv
  rw [List.eq_of_mem_replicate hv]
  exact fun hactive => absurd hactive.1 (by decide)

/-- The vectors lie in one area of the account. -/
theorem offerVectors_congr {data data' : Bytes}
    (harea : slice data onreOfferVectorsOffset (onreOfferMaxVectors * onreOfferVectorSize) =
      slice data' onreOfferVectorsOffset (onreOfferMaxVectors * onreOfferVectorSize)) :
    offerVectors data = offerVectors data' := by
  refine List.map_congr_left ?_
  intro i hi
  have hfits : i * onreOfferVectorSize + onreOfferVectorSize ≤
      onreOfferMaxVectors * onreOfferVectorSize := by
    rw [← Nat.succ_mul]
    exact Nat.mul_le_mul_right _ (List.mem_range.mp hi)
  have hslot (bytes : Bytes) : slice bytes (onreOfferVectorsOffset + i * onreOfferVectorSize)
      onreOfferVectorSize =
        slice (slice bytes onreOfferVectorsOffset (onreOfferMaxVectors * onreOfferVectorSize))
          (i * onreOfferVectorSize) onreOfferVectorSize := (take_drop_take_drop hfits).symm
  rw [offerVector_eq, offerVector_eq, hslot, hslot, harea]

/-! ## The choice -/

section

variable {data : Bytes} {now : ℤ} {vs : List OnreOfferVector}

theorem parseActiveOfferVector_eq_ok (h : Filled vs data) (hlen : vs.length ≤ onreOfferMaxVectors)
    {v : OnreOfferVector} :
    parseActiveOfferVector data now = .ok v ↔
      IsFirstMax OnreOfferVector.startTime (OnreOfferVector.Active now) vs v := by
  rw [parseActiveOfferVector_eq h.length_eq.ge, h.activeVector_eq hlen, ← firstMax_eq_some_iff,
    ← activeVector]
  cases activeVector now vs with
  | none => simp
  | some best => simp

theorem parseActiveOfferVector_eq_error (h : Filled vs data)
    (hlen : vs.length ≤ onreOfferMaxVectors) :
    parseActiveOfferVector data now =
        .error (.error "OnreNoActiveVector: no qualifying pricing vector for current clock") ↔
      ∀ v ∈ vs, ¬ v.Active now := by
  have hnone : activeVector now vs = none ↔ ∀ v ∈ vs, ¬ v.Active now := firstMax_eq_none_iff
  rw [parseActiveOfferVector_eq h.length_eq.ge, h.activeVector_eq hlen, ← hnone]
  cases activeVector now vs with
  | none => simp
  | some best => simp

end

/-- Of the vectors in a buffer the scan returns the first one whose start is the last among those
that have started, and throws exactly if none has; and nothing it returns or throws depends on the
bytes beside the slots, as long as the account is as long as an offer. -/
theorem offer_vector_selection :
    (∀ (vs : List OnreOfferVector) (now : ℤ), vs.length ≤ onreOfferMaxVectors →
      (∀ v ∈ vs, v.InRange) →
      (∀ v, parseActiveOfferVector (synthOfferBuffer vs) now = .ok v ↔
        IsFirstMax OnreOfferVector.startTime (OnreOfferVector.Active now) vs v) ∧
      (parseActiveOfferVector (synthOfferBuffer vs) now =
          .error (.error "OnreNoActiveVector: no qualifying pricing vector for current clock") ↔
        ∀ v ∈ vs, ¬ v.Active now) ∧
      ((∃ v ∈ vs, v.Active now) →
        ∃ v, parseActiveOfferVector (synthOfferBuffer vs) now = .ok v)) ∧
    ∀ (data data' : Bytes) (now : ℤ),
      (data.length < onreOfferAccountSize ↔ data'.length < onreOfferAccountSize) →
      slice data onreOfferVectorsOffset (onreOfferMaxVectors * onreOfferVectorSize) =
        slice data' onreOfferVectorsOffset (onreOfferMaxVectors * onreOfferVectorSize) →
      parseActiveOfferVector data now = parseActiveOfferVector data' now := by
  constructor
  · intro vs now hlen hvs
    have hfilled : Filled vs (synthOfferBuffer vs) := by
      have htake := filled_synthOfferBuffer hvs
      rwa [List.take_of_length_le hlen] at htake
    refine ⟨fun v => parseActiveOfferVector_eq_ok hfilled hlen,
      parseActiveOfferVector_eq_error hfilled hlen, ?_⟩
    rintro ⟨v, hv, hactive⟩
    obtain ⟨best, hbest⟩ := exists_isFirstMax OnreOfferVector.startTime hv hactive
    exact ⟨best, (parseActiveOfferVector_eq_ok hfilled hlen).mpr hbest⟩
  · intro data data' now hlen harea
    by_cases hshort : data.length < onreOfferAccountSize
    · rw [parseActiveOfferVector, parseActiveOfferVector, if_pos hshort, if_pos (hlen.mp hshort)]
    · rw [parseActiveOfferVector_eq (Nat.not_lt.mp hshort),
        parseActiveOfferVector_eq (Nat.not_lt.mp (hlen.not.mp hshort)), offerVectors_congr harea]

/-- Two vectors with one start, behind an earlier and before a later one; and a byte in front of the
slots. -/
theorem offer_vector_selection_tie :
    let vs : List OnreOfferVector :=
      [⟨5, 5, 3, 3, 60⟩, ⟨7, 5, 1, 1, 60⟩, ⟨7, 5, 2, 2, 60⟩, ⟨20, 5, 4, 4, 60⟩]
    parseActiveOfferVector (synthOfferBuffer vs) 10 = .ok ⟨7, 5, 1, 1, 60⟩ ∧
      parseActiveOfferVector (overwrite (synthOfferBuffer vs) 8 [255]) 10 =
        parseActiveOfferVector (synthOfferBuffer vs) 10 := by
  intro vs
  have hvs : ∀ v ∈ vs, v.InRange := by
    simp only [vs, List.forall_mem_cons, List.not_mem_nil]
    refine ⟨?_, ?_, ?_, ?_, nofun⟩ <;> constructor <;> decide
  have hfirst : IsFirstMax OnreOfferVector.startTime (OnreOfferVector.Active 10) vs
      ⟨7, 5, 1, 1, 60⟩ := by
    refine ⟨by decide, by decide, [⟨5, 5, 3, 3, 60⟩], [⟨7, 5, 2, 2, 60⟩, ⟨20, 5, 4, 4, 60⟩], rfl,
      ?_⟩
    decide
  refine ⟨((offer_vector_selection.1 vs 10 (by decide) hvs).1 _).mpr hfirst, ?_⟩
  exact offer_vector_selection.2 _ _ 10 (by decide +kernel) (by decide +kernel)

end FogoYield.Sdk
