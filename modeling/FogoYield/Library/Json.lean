import Mathlib.Algebra.Field.Rat
import FogoYield.Library.Entries
import FogoYield.Library.Utf16

/-! # JSON

Values and their text. A reader takes the text one character at a time; a number keeps the exact
value of its literal, and of two members with one key the later value counts. -/

namespace FogoYield.Library

inductive Json where
  | null
  | bool (b : Bool)
  | num (x : ℚ)
  | str (s : String)
  | arr (elems : List Json)
  | obj (fields : List (String × Json))

namespace Json

/-! ## Words -/

/-- The digits at the head of a text, at least one. -/
def digits (chars : List Char) : Option (List Char × List Char) :=
  if chars.takeWhile Char.isDigit = [] then none
  else some (chars.takeWhile Char.isDigit, chars.dropWhile Char.isDigit)

def fraction : List Char → Option (List Char × List Char)
  | '.' :: rest => digits rest
  | rest => some ([], rest)

def exponentSign : List Char → ℤ × List Char
  | '-' :: rest => (-1, rest)
  | '+' :: rest => (1, rest)
  | rest => (1, rest)

def exponent : List Char → Option ℤ
  | [] => some 0
  | c :: rest =>
    if c = 'e' ∨ c = 'E' then
      match digits (exponentSign rest).2 with
      | some (power, []) => some ((exponentSign rest).1 * Nat.ofDigitChars 10 power 0)
      | _ => none
    else none

def unsigned (chars : List Char) : Option ℚ :=
  (digits chars).bind fun whole =>
    if whole.1.head? = some '0' ∧ whole.1 ≠ ['0'] then none
    else
      (fraction whole.2).bind fun part =>
        (exponent part.2).map fun power =>
          (Nat.ofDigitChars 10 (whole.1 ++ part.1) 0 : ℚ) *
            (10 : ℚ) ^ (power - (part.1.length : ℤ))

def number : List Char → Option ℚ
  | '-' :: rest => (unsigned rest).map (fun x => -x)
  | rest => unsigned rest

def scalar (chars : List Char) : Option Json :=
  if chars = ['n', 'u', 'l', 'l'] then some .null
  else if chars = ['t', 'r', 'u', 'e'] then some (.bool true)
  else if chars = ['f', 'a', 'l', 's', 'e'] then some (.bool false)
  else (number chars).map .num

/-! ## Tokens -/

inductive Token where
  | beginArray
  | endArray
  | beginObject
  | endObject
  | comma
  | colon
  | text (s : String)
  | scalar (v : Json)

def punctuation : Char → Option Token
  | '[' => some .beginArray
  | ']' => some .endArray
  | '{' => some .beginObject
  | '}' => some .endObject
  | ',' => some .comma
  | ':' => some .colon
  | _ => none

/-- A list or an object around the value that is being read, with the key of that value. -/
inductive Frame where
  | arr (elems : List Json)
  | obj (fields : List (String × Json)) (key : String)

inductive Position where
  /-- A value comes. -/
  | value
  | firstElem
  | firstKey
  | nextKey (fields : List (String × Json))
  | colon (fields : List (String × Json)) (key : String)
  | done (v : Json)

structure Document where
  position : Position
  stack : List Frame

def beginValue (stack : List Frame) : Token → Option Document
  | .beginArray => some ⟨.firstElem, stack⟩
  | .beginObject => some ⟨.firstKey, stack⟩
  | .text s => some ⟨.done (.str s), stack⟩
  | .scalar v => some ⟨.done v, stack⟩
  | _ => none

def endValue (v : Json) : List Frame → Token → Option Document
  | .arr elems :: stack, .comma => some ⟨.value, .arr (elems ++ [v]) :: stack⟩
  | .arr elems :: stack, .endArray => some ⟨.done (.arr (elems ++ [v])), stack⟩
  | .obj fields key :: stack, .comma => some ⟨.nextKey (setEntry key v fields), stack⟩
  | .obj fields key :: stack, .endObject => some ⟨.done (.obj (setEntry key v fields)), stack⟩
  | _, _ => none

def Document.token (d : Document) (t : Token) : Option Document :=
  match d.position, t with
  | .value, t => beginValue d.stack t
  | .firstElem, .endArray => some ⟨.done (.arr []), d.stack⟩
  | .firstElem, t => beginValue (.arr [] :: d.stack) t
  | .firstKey, .endObject => some ⟨.done (.obj []), d.stack⟩
  | .firstKey, .text key => some ⟨.colon [] key, d.stack⟩
  | .nextKey fields, .text key => some ⟨.colon fields key, d.stack⟩
  | .colon fields key, .colon => some ⟨.value, .obj fields key :: d.stack⟩
  | .done v, t => endValue v d.stack t
  | _, _ => none

def Document.result (d : Document) : Option Json :=
  match d.position, d.stack with
  | .done v, [] => some v
  | _, _ => none

/-! ## Characters -/

/-- What the next character belongs to. The characters and code units so far are newest first. -/
inductive Mode where
  | between
  | text (units : List ℕ)
  | escape (units : List ℕ)
  | hex (units : List ℕ) (count code : ℕ)
  | word (chars : List Char)

structure Reader where
  mode : Mode
  document : Document

def IsSpace (c : Char) : Prop := c = ' ' ∨ c = '\t' ∨ c = '\n' ∨ c = '\r'

instance (c : Char) : Decidable (IsSpace c) := inferInstanceAs (Decidable (_ ∨ _))

def Document.next (d : Document) (c : Char) : Option Reader :=
  if IsSpace c then some ⟨.between, d⟩
  else if c = '"' then some ⟨.text [], d⟩
  else
    match punctuation c with
    | some t => (d.token t).map (Reader.mk .between)
    | none => some ⟨.word [c], d⟩

/-- A character that ends a word. -/
def IsDelimiter (c : Char) : Prop := IsSpace c ∨ c = '"' ∨ (punctuation c).isSome

instance (c : Char) : Decidable (IsDelimiter c) := inferInstanceAs (Decidable (_ ∨ _))

def Document.word (d : Document) (chars : List Char) : Option Document :=
  (scalar chars.reverse).bind fun v => d.token (.scalar v)

/-- The code unit that a letter behind a backslash stands for. -/
def escaped : Char → Option ℕ
  | '"' => some 0x22
  | '\\' => some 0x5C
  | '/' => some 0x2F
  | 'b' => some 0x08
  | 'f' => some 0x0C
  | 'n' => some 0x0A
  | 'r' => some 0x0D
  | 't' => some 0x09
  | _ => none

def hexDigit (c : Char) : Option ℕ :=
  if c.isDigit then some (c.toNat - 48)
  else if 97 ≤ c.toNat ∧ c.toNat ≤ 102 then some (c.toNat - 87)
  else if 65 ≤ c.toNat ∧ c.toNat ≤ 70 then some (c.toNat - 55)
  else none

def Reader.step (r : Reader) (c : Char) : Option Reader :=
  let d := r.document
  match r.mode with
  | .between => d.next c
  | .text units =>
    if c = '"' then
      (d.token (.text (String.ofList (fromUtf16 units.reverse)))).map (Reader.mk .between)
    else if c = '\\' then some ⟨.escape units, d⟩
    else if c.toNat < 0x20 then none
    else some ⟨.text ((utf16Char c).reverse ++ units), d⟩
  | .escape units =>
    if c = 'u' then some ⟨.hex units 0 0, d⟩
    else (escaped c).map fun unit => ⟨.text (unit :: units), d⟩
  | .hex units count code =>
    (hexDigit c).map fun digit =>
      if count = 3 then ⟨.text ((code * 16 + digit) :: units), d⟩
      else ⟨.hex units (count + 1) (code * 16 + digit), d⟩
  | .word chars =>
    if IsDelimiter c then (d.word chars).bind fun d => d.next c
    else some ⟨.word (c :: chars), d⟩

def Reader.finish (r : Reader) : Option Json :=
  match r.mode with
  | .between => r.document.result
  | .word chars => (r.document.word chars).bind Document.result
  | _ => none

/-- `JSON.parse`, without a value if it throws. -/
def parse (text : List Char) : Option Json :=
  (text.foldlM Reader.step ⟨.between, ⟨.value, []⟩⟩).bind Reader.finish

end Json

end FogoYield.Library
