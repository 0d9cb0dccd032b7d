import Mathlib.Data.Int.Log
import Mathlib.Data.Rat.Floor
import FogoYield.Library.Decimal
import FogoYield.Library.Json

/-! # JSON values in JavaScript

What `===`, `BigInt` and `Object.entries` make of a value that `JSON.parse` returned. -/

namespace FogoYield.Library

/-! ## Numbers -/

def roundHalfEven (q : ℚ) : ℤ :=
  let rest := q - ⌊q⌋
  if rest < 1 / 2 ∨ rest = 1 / 2 ∧ ⌊q⌋ % 2 = 0 then ⌊q⌋ else ⌊q⌋ + 1

/-- The double nearest to a number, where it is finite. -/
def toDouble (x : ℚ) : Option ℚ :=
  let ulp : ℚ := (2 : ℚ) ^ (max (Int.log 2 |x|) (-1022) - 52)
  let d := roundHalfEven (x / ulp) * ulp
  if |d| < (2 : ℚ) ^ 1024 then some d else none

/-- The integer that the text of an integral double below `1e21` spells: of those that round to the
double one that ends with the most zeros, and the nearest where there are two. -/
def spelledInteger (d : ℚ) : ℤ :=
  let spelled := (List.range 21).reverse.findSome? fun zeros =>
    let unit : ℚ := (10 : ℚ) ^ zeros
    let low := ⌊d / unit⌋ * unit
    let nearest := roundHalfEven (d / unit) * unit
    let other := if nearest = low then low + unit else low
    [nearest, other].find? (fun x => toDouble x = some d)
  (spelled.getD d).num

/-! ## Integers as text -/

def IsStrWhiteSpace (c : Char) : Prop :=
  c.toNat ∈ [0x09, 0x0A, 0x0B, 0x0C, 0x0D, 0x20, 0xA0, 0x1680, 0x2028, 0x2029, 0x202F, 0x205F,
    0x3000, 0xFEFF] ∨ 0x2000 ≤ c.toNat ∧ c.toNat ≤ 0x200A

instance (c : Char) : Decidable (IsStrWhiteSpace c) := inferInstanceAs (Decidable (_ ∨ _))

def trimStart (chars : List Char) : List Char := chars.dropWhile (fun c => IsStrWhiteSpace c)

def trim (chars : List Char) : List Char := (trimStart (trimStart chars).reverse).reverse

def radixOf : Char → Option ℕ
  | 'x' => some 16
  | 'X' => some 16
  | 'o' => some 8
  | 'O' => some 8
  | 'b' => some 2
  | 'B' => some 2
  | _ => none

def addDigit (radix value : ℕ) (c : Char) : Option ℕ :=
  (Json.hexDigit c).bind fun digit => if digit < radix then some (radix * value + digit) else none

def digitsValue (radix : ℕ) (chars : List Char) : Option ℕ :=
  if chars = [] then none else chars.foldlM (addDigit radix) 0

def integerLiteral : List Char → Option ℤ
  | [] => some 0
  | '+' :: rest => (digitsValue 10 rest).map (fun n : ℕ => (n : ℤ))
  | '-' :: rest => (digitsValue 10 rest).map (fun n : ℕ => -(n : ℤ))
  | '0' :: c :: rest =>
    match radixOf c with
    | some radix => (digitsValue radix rest).map (fun n : ℕ => (n : ℤ))
    | none => (digitsValue 10 ('0' :: c :: rest)).map (fun n : ℕ => (n : ℤ))
  | chars => (digitsValue 10 chars).map (fun n : ℕ => (n : ℤ))

/-- `BigInt` of a string, without a value if it throws. -/
def stringToBigInt (s : String) : Option ℤ := integerLiteral (trim s.toList)

/-! ## Values -/

namespace Json

/-- `BigInt` of the string that an array joins to if this is its only element. Of more elements the
text has a comma, and of a number from `1e21` on it has an exponent. -/
def joinedBigInt : Json → Option ℤ
  | .null => some 0
  | .bool _ => none
  | .num x =>
    (toDouble x).bind fun d =>
      if d.den = 1 ∧ |d| < 10 ^ 21 then some (spelledInteger d) else none
  | .str s => stringToBigInt s
  | .arr [] => some 0
  | .arr [v] => v.joinedBigInt
  | .arr (_ :: _ :: _) => none
  | .obj _ => none

/-- `BigInt`, without a value if it throws. -/
def bigInt : Json → Option ℤ
  | .null => none
  | .bool b => some (if b then 1 else 0)
  | .num x => (toDouble x).bind fun d => if d.den = 1 then some d.num else none
  | .str s => stringToBigInt s
  | .arr elems => joinedBigInt (.arr elems)
  | .obj _ => none

end Json

/-! ## Properties -/

/-- The key as an array index. -/
def arrayIndex (key : String) : Option ℕ :=
  let n := Nat.ofDigitChars 10 key.toList 0
  if toString n = key ∧ n < 2 ^ 32 - 1 then some n else none

variable {ν : Type}

/-- The own properties of an object: array indices come first, in ascending order. -/
def ownProperties (fields : List (String × ν)) : List (String × ν) :=
  (fields.filter (fun f => (arrayIndex f.1).isSome)).mergeSort
      (fun f g => (arrayIndex f.1).getD 0 ≤ (arrayIndex g.1).getD 0) ++
    fields.filter (fun f => (arrayIndex f.1).isNone)

def indexed (elems : List Json) : List (String × Json) :=
  elems.mapIdx (fun i v => (toString i, v))

/-- `Object.entries`, without a value if it throws. -/
def Json.entries : Json → Option (List (String × Json))
  | .null => none
  | .bool _ => some []
  | .num _ => some []
  | .str s =>
    some (indexed ((utf16 s.toList).map (fun unit => .str (String.singleton (unitChar unit)))))
  | .arr elems => some (indexed elems)
  | .obj fields => some (ownProperties fields)

/-! ## Round trip -/

theorem hexDigit_of_isDigit {c : Char} (h : c.isDigit) : Json.hexDigit c = some (c.toNat - 48) :=
  if_pos h

theorem foldlM_addDigit {chars : List Char} (h : ∀ c ∈ chars, c.isDigit) (value : ℕ) :
    chars.foldlM (addDigit 10) value = some (Nat.ofDigitChars 10 chars value) := by
  induction chars generalizing value with
  | nil => rfl
  | cons c chars ih =>
      obtain ⟨hc, hchars⟩ := List.forall_mem_cons.mp h
      have hdigit : addDigit 10 value c = some (10 * value + (c.toNat - 48)) := by
        have hbounds := toNat_of_isDigit hc
        rw [addDigit, hexDigit_of_isDigit hc, Option.bind_some, if_pos (by omega)]
      rw [List.foldlM_cons, hdigit, Nat.ofDigitChars_cons]
      exact ih hchars _

theorem digitsValue_toDigits (n : ℕ) : digitsValue 10 (Nat.toDigits 10 n) = some n := by
  have hdigits : ∀ c ∈ Nat.toDigits 10 n, c.isDigit :=
    fun _ hc => Nat.isDigit_of_mem_toDigits (by decide) (by decide) hc
  rw [digitsValue, if_neg Nat.toDigits_ne_nil, foldlM_addDigit hdigits,
    Nat.ofDigitChars_ten_toDigits]

theorem integerLiteral_toDigits (n : ℕ) :
    integerLiteral (Nat.toDigits 10 n) = some (n : ℤ) := by
  rcases Nat.eq_zero_or_pos n with rfl | hpos
  · rfl
  · have hvalue := digitsValue_toDigits n
    have hhead := head_toDigits hpos.ne'
    have hdigits : ∀ c ∈ Nat.toDigits 10 n, c.isDigit :=
      fun _ hc => Nat.isDigit_of_mem_toDigits (by decide) (by decide) hc
    generalize Nat.toDigits 10 n = chars at hvalue hhead hdigits
    unfold integerLiteral
    split
    · cases hvalue
    · exact absurd (hdigits '+' List.mem_cons_self) (by decide)
    · exact absurd (hdigits '-' List.mem_cons_self) (by decide)
    · exact absurd rfl hhead
    · rw [hvalue]
      rfl

theorem trimStart_of_head {chars : List Char} (h : ∀ c ∈ chars, ¬ IsStrWhiteSpace c) :
    trimStart chars = chars := by
  cases chars with
  | nil => rfl
  | cons c chars =>
      have hc : ¬ IsStrWhiteSpace c := h c List.mem_cons_self
      rw [trimStart, List.dropWhile_cons_of_neg (by simpa using hc)]

theorem trim_of_forall {chars : List Char} (h : ∀ c ∈ chars, ¬ IsStrWhiteSpace c) :
    trim chars = chars := by
  have hreverse : ∀ c ∈ chars.reverse, ¬ IsStrWhiteSpace c := fun c hc => h c (List.mem_reverse.mp hc)
  rw [trim, trimStart_of_head h, trimStart_of_head hreverse, List.reverse_reverse]

theorem toString_int_toList (v : ℤ) : (toString v).toList =
    if 0 ≤ v then Nat.toDigits 10 v.toNat else '-' :: Nat.toDigits 10 (-v).toNat := by
  rw [Int.toString_eq_repr, Int.repr_eq_if]
  split
  · exact Nat.toList_repr
  · rw [String.toList_append, Nat.toList_repr]
    rfl

theorem not_isStrWhiteSpace_of_isDigit {c : Char} (h : c.isDigit) : ¬ IsStrWhiteSpace c := by
  have hbounds := toNat_of_isDigit h
  simp only [IsStrWhiteSpace, List.mem_cons, List.not_mem_nil, or_false]
  omega

/-- `BigInt` reads what `toString` writes. -/
theorem stringToBigInt_toString (v : ℤ) : stringToBigInt (toString v) = some v := by
  have hspace : ∀ n : ℕ, ∀ c ∈ Nat.toDigits 10 n, ¬ IsStrWhiteSpace c := fun _ _ hc =>
    not_isStrWhiteSpace_of_isDigit (Nat.isDigit_of_mem_toDigits (by decide) (by decide) hc)
  rw [stringToBigInt, toString_int_toList]
  split
  · rename_i hsign
    rw [trim_of_forall (hspace _), integerLiteral_toDigits, Int.toNat_of_nonneg hsign]
  · rename_i hsign
    have hminus : ∀ c ∈ '-' :: Nat.toDigits 10 (-v).toNat, ¬ IsStrWhiteSpace c :=
      List.forall_mem_cons.mpr ⟨by decide, hspace _⟩
    rw [trim_of_forall hminus, integerLiteral, digitsValue_toDigits, Option.map_some,
      Int.toNat_of_nonneg (by omega), neg_neg]

/-! ## Keys -/

theorem toList_of_arrayIndex {key : String} {n : ℕ} (h : arrayIndex key = some n) :
    key.toList = Nat.toDigits 10 n := by
  simp only [arrayIndex, Option.ite_none_right_eq_some, Option.some.injEq] at h
  obtain ⟨⟨hkey, -⟩, rfl⟩ := h
  rw [← toString_toList, hkey]

/-- A key with a colon is no array index. -/
theorem arrayIndex_of_colon {key : String} (h : ':' ∈ key.toList) : arrayIndex key = none := by
  cases hindex : arrayIndex key with
  | none => rfl
  | some n =>
      rw [toList_of_arrayIndex hindex] at h
      exact absurd (Nat.isDigit_of_mem_toDigits (by decide) (by decide) h) (by decide)

theorem ownProperties_perm (fields : List (String × ν)) : (ownProperties fields).Perm fields := by
  have hrest : fields.filter (fun f => (arrayIndex f.1).isNone) =
      fields.filter (fun f => !(arrayIndex f.1).isSome) := by
    refine List.filter_congr ?_
    intro f _
    cases arrayIndex f.1 <;> rfl
  rw [ownProperties, hrest]
  exact ((List.mergeSort_perm _ _).append_right _).trans (List.filter_append_perm _ _)

/-- Without array indices the properties keep their order. -/
theorem ownProperties_of_none {fields : List (String × ν)}
    (h : ∀ f ∈ fields, arrayIndex f.1 = none) : ownProperties fields = fields := by
  have hindices : fields.filter (fun f => (arrayIndex f.1).isSome) = [] := by
    refine List.filter_eq_nil_iff.mpr ?_
    intro f hf
    simp [h f hf]
  have hrest : fields.filter (fun f => (arrayIndex f.1).isNone) = fields := by
    refine List.filter_eq_self.mpr ?_
    intro f hf
    simp [h f hf]
  rw [ownProperties, hindices, hrest, List.mergeSort_nil, List.nil_append]

/-- `Object.entries` throws for `null` only. -/
theorem entries_eq_none {v : Json} : v.entries = none ↔ v = .null := by
  cases v with
  | null => exact ⟨fun _ => rfl, fun _ => rfl⟩
  | bool b => exact ⟨nofun, nofun⟩
  | num x => exact ⟨nofun, nofun⟩
  | str s => exact ⟨nofun, nofun⟩
  | arr elems => exact ⟨nofun, nofun⟩
  | obj fields => exact ⟨nofun, nofun⟩

end FogoYield.Library
