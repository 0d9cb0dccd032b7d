import FogoYield.Library.Bytes

/-! # UTF-8 text

Strict encoding and decoding, and the lossy decoder of the WHATWG encoding standard, which never
fails: what is no UTF-8 becomes U+FFFD. -/

namespace FogoYield.Library

/-! ## Strict -/

def utf8 (s : String) : Bytes := s.toList.flatMap String.utf8EncodeChar

def fromUtf8? (bytes : Bytes) : Option String := String.fromUTF8? bytes.toByteArray

theorem utf8_append (s t : String) : utf8 (s ++ t) = utf8 s ++ utf8 t := by
  simp [utf8]

theorem utf8_toByteArray (s : String) : (utf8 s).toByteArray = s.toByteArray := by
  rw [← String.utf8Encode_toList]
  rfl

theorem fromUtf8?_utf8 (s : String) : fromUtf8? (utf8 s) = some s := by
  rw [fromUtf8?, utf8_toByteArray, String.fromUTF8?, dif_pos s.isValidUTF8]
  rfl

theorem utf8_of_fromUtf8? {bytes : Bytes} {s : String} (h : fromUtf8? bytes = some s) :
    bytes = utf8 s := by
  unfold fromUtf8? String.fromUTF8? at h
  split at h
  · have hs : bytes.toByteArray = (utf8 s).toByteArray := by
      rw [utf8_toByteArray, ← Option.some.inj h]
      rfl
    have hdata := congrArg (fun b => b.data.toList) hs
    simpa using hdata
  · cases h

/-- A byte below `0x80` in the encoding of a character is that character. -/
theorem utf8EncodeChar_ascii {c : Char} {b : UInt8} (h : b ∈ String.utf8EncodeChar c)
    (hb : b.toNat < 128) : c.toNat = b.toNat := by
  simp only [String.utf8EncodeChar] at h
  split at h
  · rename_i hc
    obtain rfl := List.mem_singleton.mp h
    have hc' : c.toNat ≤ 127 := hc
    rw [UInt8.toNat_ofNat', Nat.mod_eq_of_lt (by change c.toNat < 2 ^ 8; omega)]
    rfl
  · have hlarge : 128 ≤ b.toNat := by
      split at h
      · simp only [List.mem_cons, List.not_mem_nil, or_false] at h
        rcases h with rfl | rfl <;> simp only [UInt8.toNat_ofNat'] <;> omega
      · split at h
        · simp only [List.mem_cons, List.not_mem_nil, or_false] at h
          rcases h with rfl | rfl | rfl <;> simp only [UInt8.toNat_ofNat'] <;> omega
        · simp only [List.mem_cons, List.not_mem_nil, or_false] at h
          rcases h with rfl | rfl | rfl | rfl <;> simp only [UInt8.toNat_ofNat'] <;> omega
    omega

theorem utf8EncodeChar_of_ascii {c : Char} (h : c.toNat < 128) :
    String.utf8EncodeChar c = [UInt8.ofNat c.toNat] := by
  have hc : c.val.toNat ≤ 127 := Nat.le_of_lt_succ h
  simp only [String.utf8EncodeChar, if_pos hc]
  rfl

/-! ## Lossy -/

/-- A sequence that still owes `needed` continuation bytes, the next one between `lower` and
`upper`. Whatever they are, the character will not be an ASCII one. -/
structure Pending where
  codePoint : ℕ
  needed : ℕ
  lower : ℕ
  upper : ℕ
  needed_pos : 0 < needed
  lower_ge : 128 ≤ lower
  large : 128 ≤ (codePoint * 64 + (lower - 128)) * 64 ^ (needed - 1)

def replacementChar : Char := '\uFFFD'

/-- A byte read between two characters. -/
def lossyStart (b : UInt8) : List Char × Option Pending :=
  let n := b.toNat
  if n < 128 then ([Char.ofNat n], none)
  else if h : 0xC2 ≤ n ∧ n ≤ 0xDF then
    ([], some ⟨n % 32, 1, 0x80, 0xBF, by omega, by omega, by norm_num; omega⟩)
  else if n = 0xE0 then ([], some ⟨0, 2, 0xA0, 0xBF, by decide, by decide, by decide⟩)
  else if n = 0xED then ([], some ⟨13, 2, 0x80, 0x9F, by decide, by decide, by decide⟩)
  else if h : 0xE1 ≤ n ∧ n ≤ 0xEF then
    ([], some ⟨n % 16, 2, 0x80, 0xBF, by omega, by omega, by norm_num; omega⟩)
  else if n = 0xF0 then ([], some ⟨0, 3, 0x90, 0xBF, by decide, by decide, by decide⟩)
  else if n = 0xF4 then ([], some ⟨4, 3, 0x80, 0x8F, by decide, by decide, by decide⟩)
  else if h : 0xF1 ≤ n ∧ n ≤ 0xF3 then
    ([], some ⟨n % 8, 3, 0x80, 0xBF, by omega, by omega, by norm_num; omega⟩)
  else ([replacementChar], none)

theorem Pending.large_push (p : Pending) {n : ℕ} (h : p.lower ≤ n) (hn : p.needed ≠ 1) :
    128 ≤ ((p.codePoint * 64 + (n - 128)) * 64 + (0x80 - 128)) * 64 ^ (p.needed - 1 - 1) := by
  have hpos := p.needed_pos
  have hpow : 64 * 64 ^ (p.needed - 1 - 1) = 64 ^ (p.needed - 1) := by
    rw [← pow_succ']
    congr 1
    omega
  calc 128 ≤ (p.codePoint * 64 + (p.lower - 128)) * 64 ^ (p.needed - 1) := p.large
    _ ≤ (p.codePoint * 64 + (n - 128)) * 64 ^ (p.needed - 1) := by
      apply Nat.mul_le_mul_right
      omega
    _ = ((p.codePoint * 64 + (n - 128)) * 64 + (0x80 - 128)) * 64 ^ (p.needed - 1 - 1) := by
      rw [← hpow]
      ring

/-- A continuation byte of a pending sequence. -/
def Pending.push (p : Pending) (b : UInt8) (h : p.lower ≤ b.toNat) : List Char × Option Pending :=
  let codePoint := p.codePoint * 64 + (b.toNat - 128)
  if hn : p.needed = 1 then ([Char.ofNat codePoint], none)
  else ([], some
    { codePoint := codePoint
      needed := p.needed - 1
      lower := 0x80
      upper := 0xBF
      needed_pos := by have := p.needed_pos; omega
      lower_ge := le_rfl
      large := p.large_push h hn })

/-- One byte: a pending sequence that it does not continue is replaced, and the byte read anew. -/
def lossyStep (state : Option Pending) (b : UInt8) : List Char × Option Pending :=
  match state with
  | none => lossyStart b
  | some p =>
    if h : p.lower ≤ b.toNat ∧ b.toNat ≤ p.upper then p.push b h.1
    else
      let (out, next) := lossyStart b
      (replacementChar :: out, next)

/-- What is emitted when the input ends. -/
def lossyFlush (state : Option Pending) : List Char :=
  if state.isSome then [replacementChar] else []

def lossyDecode : Option Pending → Bytes → List Char
  | state, [] => lossyFlush state
  | state, b :: bytes =>
    let (out, next) := lossyStep state b
    out ++ lossyDecode next bytes

/-! ## ASCII in lossy text -/

theorem charOfNat_toNat (n : ℕ) : (Char.ofNat n).toNat = n ∨ (Char.ofNat n).toNat = 0 := by
  by_cases hvalid : n.isValidChar
  · rw [Char.ofNat, dif_pos hvalid]
    exact .inl rfl
  · rw [Char.ofNat, dif_neg hvalid]
    exact .inr rfl

theorem charOfNat_toNat_of_lt {n : ℕ} (h : n < 128) : (Char.ofNat n).toNat = n := by
  have hvalid : n.isValidChar := .inl (by omega)
  rw [Char.ofNat, dif_pos hvalid]
  rfl

theorem lossyStart_ascii {b : UInt8} (h : b.toNat < 128) :
    lossyStart b = ([Char.ofNat b.toNat], none) := by
  simp only [lossyStart, if_pos h]

/-- An ASCII byte ends whatever was pending and stands for itself. -/
theorem lossyStep_ascii (state : Option Pending) {b : UInt8} (h : b.toNat < 128) :
    lossyStep state b = (lossyFlush state ++ [Char.ofNat b.toNat], none) := by
  cases state with
  | none => simp [lossyStep, lossyFlush, lossyStart_ascii h]
  | some p =>
      have hlower := p.lower_ge
      have hout : ¬ (p.lower ≤ b.toNat ∧ b.toNat ≤ p.upper) := by omega
      simp [lossyStep, lossyFlush, hout, lossyStart_ascii h]

/-- Text is cut at an ASCII byte exactly where the bytes are. -/
theorem lossyDecode_append_ascii (state : Option Pending) (l r : Bytes) {b : UInt8}
    (h : b.toNat < 128) : lossyDecode state (l ++ b :: r) =
      lossyDecode state l ++ Char.ofNat b.toNat :: lossyDecode none r := by
  induction l generalizing state with
  | nil => simp [lossyDecode, lossyStep_ascii state h]
  | cons a l ih => simp [lossyDecode, ih]

theorem lossyStart_mem {b : UInt8} {c : Char} (h : c ∈ (lossyStart b).1) (hc : c.toNat < 128) :
    c.toNat = b.toNat := by
  simp only [lossyStart] at h
  split at h
  · rename_i hb
    rw [List.mem_singleton.mp h, charOfNat_toNat_of_lt hb]
  · exfalso
    split_ifs at h
    all_goals first
      | exact absurd h (List.not_mem_nil)
      | (rw [List.mem_singleton.mp h] at hc; exact absurd hc (by decide))

/-- A completed sequence is no ASCII character. -/
theorem Pending.push_mem {p : Pending} {b : UInt8} (hb : p.lower ≤ b.toNat) {c : Char}
    (h : c ∈ (p.push b hb).1) (hpos : 0 < c.toNat) : 128 ≤ c.toNat := by
  simp only [Pending.push] at h
  split at h
  · rename_i hn
    have hlarge := p.large
    simp only [hn, Nat.sub_self, pow_zero, mul_one] at hlarge
    rw [List.mem_singleton.mp h] at hpos ⊢
    rcases charOfNat_toNat (p.codePoint * 64 + (b.toNat - 128)) with heq | heq <;> omega
  · exact absurd h List.not_mem_nil

/-- Only an ASCII byte makes an ASCII character. -/
theorem lossyStep_mem {state : Option Pending} {b : UInt8} {c : Char}
    (h : c ∈ (lossyStep state b).1) (hpos : 0 < c.toNat) (hc : c.toNat < 128) :
    c.toNat = b.toNat := by
  cases state with
  | none => exact lossyStart_mem h hc
  | some p =>
      simp only [lossyStep] at h
      split at h
      · rename_i hrange
        have hlarge := Pending.push_mem hrange.1 h hpos
        omega
      · rcases List.mem_cons.mp h with rfl | h
        · exact absurd hc (by decide)
        · exact lossyStart_mem h hc

theorem lossyDecode_mem {state : Option Pending} {bytes : Bytes} {c : Char}
    (h : c ∈ lossyDecode state bytes) (hpos : 0 < c.toNat) (hc : c.toNat < 128) :
    ∃ b ∈ bytes, c.toNat = b.toNat := by
  induction bytes generalizing state with
  | nil =>
      simp only [lossyDecode, lossyFlush] at h
      split at h
      · rw [List.mem_singleton.mp h] at hc
        exact absurd hc (by decide)
      · exact absurd h List.not_mem_nil
  | cons b bytes ih =>
      rcases List.mem_append.mp h with h | h
      · exact ⟨b, List.mem_cons_self .., lossyStep_mem h hpos hc⟩
      · obtain ⟨b', hb', hcb⟩ := ih h
        exact ⟨b', List.mem_cons_of_mem _ hb', hcb⟩

/-- Checked character by character, so that a literal is decided by evaluation. -/
theorem ascii_of_all {chars : List Char} (h : chars.all (fun c => c.toNat < 128) = true) :
    ∀ c ∈ chars, c.toNat < 128 := by
  simpa using h

/-- ASCII text decodes to itself. -/
theorem lossyDecode_ascii {chars : List Char} (h : ∀ c ∈ chars, c.toNat < 128) (r : Bytes) :
    lossyDecode none (chars.flatMap String.utf8EncodeChar ++ r) =
      chars ++ lossyDecode none r := by
  induction chars with
  | nil => rfl
  | cons c chars ih =>
      have hc := h c (List.mem_cons_self ..)
      have hb : (UInt8.ofNat c.toNat).toNat = c.toNat := by
        rw [UInt8.toNat_ofNat', Nat.mod_eq_of_lt (by omega)]
      have hrest := ih (fun d hd => h d (List.mem_cons_of_mem _ hd))
      simp only [List.flatMap_cons, utf8EncodeChar_of_ascii hc, List.cons_append, List.nil_append,
        lossyDecode, lossyStep_ascii none (hb.trans_lt hc), lossyFlush, hb, Char.ofNat_toNat,
        hrest]
      rfl

end FogoYield.Library
