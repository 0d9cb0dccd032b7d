import FogoYield.Library.Json

/-! # Writing JSON

`JSON.stringify` with an indentation of two blanks, as far as the members of an object are written
already, and what the reader makes of it. -/

namespace FogoYield.Library

namespace Json

/-! ## Writing -/

def hexChars (n : ℕ) : List Char := [(n / 16).digitChar, (n % 16).digitChar]

/-- The letter that stands for a character behind a backslash. -/
def escapeLetter : Char → Option Char
  | '"' => some '"'
  | '\\' => some '\\'
  | '\x08' => some 'b'
  | '\x0C' => some 'f'
  | '\n' => some 'n'
  | '\r' => some 'r'
  | '\t' => some 't'
  | _ => none

def quoteChar (c : Char) : List Char :=
  match escapeLetter c with
  | some letter => ['\\', letter]
  | none => if c.toNat < 0x20 then ['\\', 'u', '0', '0'] ++ hexChars c.toNat else [c]

def quote (s : String) : List Char := '"' :: (s.toList.flatMap quoteChar ++ ['"'])

def newLine (level : ℕ) : List Char := '\n' :: List.replicate (2 * level) ' '

def writeMember (m : String × List Char) : List Char := quote m.1 ++ [':', ' '] ++ m.2

/-- An object whose members have the given texts. -/
def writeObject (level : ℕ) (members : List (String × List Char)) : List Char :=
  if members = [] then ['{', '}']
  else
    ['{'] ++ newLine (level + 1) ++
      List.intercalate (',' :: newLine (level + 1)) (members.map writeMember) ++
      newLine level ++ ['}']

/-! ## Reading on -/

variable {d : Document} {r : Reader}

theorem foldlM_of_some {r' : Reader} {front : List Char}
    (h : front.foldlM Reader.step r = some r') (back : List Char) :
    (front ++ back).foldlM Reader.step r = back.foldlM Reader.step r' := by
  rw [List.foldlM_append, h]
  rfl

theorem foldlM_char (r : Reader) (c : Char) : [c].foldlM Reader.step r = r.step c := by
  rw [List.foldlM_cons]
  cases r.step c with
  | none => rfl
  | some r' => rfl

/-! ## Strings -/

theorem hexDigit_digitChar {n : ℕ} (h : n < 16) : hexDigit n.digitChar = some n := by
  have hall : ∀ m < 16, hexDigit m.digitChar = some m := by decide
  exact hall n h

theorem utf16Char_ascii {c : Char} (h : c.toNat < 128) : utf16Char c = [c.toNat] := by
  unfold utf16Char
  rw [if_pos (by omega)]

variable {units : List ℕ}

theorem foldlM_hex {n : ℕ} (h : n < 256) :
    (['\\', 'u', '0', '0'] ++ hexChars n).foldlM Reader.step ⟨.text units, d⟩ =
      some ⟨.text (n :: units), d⟩ := by
  have hhigh : hexDigit (n / 16).digitChar = some (n / 16) := hexDigit_digitChar (by omega)
  have hlow : hexDigit (n % 16).digitChar = some (n % 16) := hexDigit_digitChar (by omega)
  have hzero : hexDigit '0' = some 0 := rfl
  have hsum : n / 16 * 16 + n % 16 = n := by omega
  simp [hexChars, Reader.step, hhigh, hlow, hzero, hsum]

theorem escaped_escapeLetter {c letter : Char} (h : escapeLetter c = some letter) :
    letter ≠ 'u' ∧ escaped letter = some c.toNat ∧ c.toNat < 128 := by
  unfold escapeLetter at h
  split at h
  case h_8 => cases h
  all_goals
    obtain rfl := Option.some.inj h
    decide

theorem foldlM_quoteChar (c : Char) : (quoteChar c).foldlM Reader.step ⟨.text units, d⟩ =
    some ⟨.text ((utf16Char c).reverse ++ units), d⟩ := by
  unfold quoteChar
  split
  · rename_i letter hletter
    obtain ⟨hu, hescaped, hascii⟩ := escaped_escapeLetter hletter
    simp [Reader.step, hu, hescaped, utf16Char_ascii hascii]
  · rename_i hnone
    split
    · rename_i hcontrol
      rw [foldlM_hex (by omega), utf16Char_ascii (by omega)]
      rfl
    · rename_i hprint
      have hquote : c ≠ '"' := by
        rintro rfl
        cases hnone
      have hslash : c ≠ '\\' := by
        rintro rfl
        cases hnone
      simp [Reader.step, hquote, hslash, hprint]

theorem foldlM_quoteChars (chars : List Char) :
    (chars.flatMap quoteChar).foldlM Reader.step ⟨.text units, d⟩ =
      some ⟨.text ((utf16 chars).reverse ++ units), d⟩ := by
  induction chars generalizing units with
  | nil => rfl
  | cons c chars ih =>
      rw [List.flatMap_cons, foldlM_of_some (foldlM_quoteChar c), ih, utf16, utf16,
        List.flatMap_cons, List.reverse_append, List.append_assoc]

theorem step_close (units : List ℕ) : Reader.step ⟨.text units, d⟩ '"' =
    (d.token (.text (String.ofList (fromUtf16 units.reverse)))).map (Reader.mk .between) := by
  simp only [Reader.step, if_true]

/-- A quoted string reads as one token. -/
theorem foldlM_quote (s : String) : (quote s).foldlM Reader.step ⟨.between, d⟩ =
    (d.token (.text s)).map (Reader.mk .between) := by
  have hopen : ['"'].foldlM Reader.step ⟨.between, d⟩ = some ⟨.text [], d⟩ := rfl
  have hs : String.ofList (fromUtf16 ((utf16 s.toList).reverse ++ []).reverse) = s := by
    rw [List.append_nil, List.reverse_reverse, fromUtf16_utf16, String.ofList_toList]
  calc
    (quote s).foldlM Reader.step ⟨.between, d⟩
        = (s.toList.flatMap quoteChar ++ ['"']).foldlM Reader.step ⟨.text [], d⟩ :=
      foldlM_of_some hopen _
    _ = ['"'].foldlM Reader.step ⟨.text ((utf16 s.toList).reverse ++ []), d⟩ :=
      foldlM_of_some (foldlM_quoteChars s.toList) _
    _ = (d.token (.text (String.ofList
          (fromUtf16 ((utf16 s.toList).reverse ++ []).reverse)))).map (Reader.mk .between) := by
      rw [foldlM_char, step_close]
    _ = (d.token (.text s)).map (Reader.mk .between) := by rw [hs]

/-! ## Values -/

/-- A text that reads as the value where a value comes and a delimiter follows. -/
def ReadsAs (text : List Char) (v : Json) : Prop :=
  ∀ (stack : List Frame) (c : Char) (rest : List Char), IsDelimiter c →
    (text ++ c :: rest).foldlM Reader.step ⟨.between, ⟨.value, stack⟩⟩ =
      (c :: rest).foldlM Reader.step ⟨.between, ⟨.done v, stack⟩⟩

theorem readsAs_of_foldlM {text : List Char} {v : Json}
    (h : ∀ stack, text.foldlM Reader.step ⟨.between, ⟨.value, stack⟩⟩ =
      some ⟨.between, ⟨.done v, stack⟩⟩) : ReadsAs text v :=
  fun stack c rest _ => foldlM_of_some (h stack) (c :: rest)

theorem readsAs_quote (s : String) : ReadsAs (quote s) (.str s) :=
  readsAs_of_foldlM fun _ => foldlM_quote s

theorem foldlM_word {chars : List Char} (h : ∀ c ∈ chars, ¬ IsDelimiter c) (read : List Char) :
    chars.foldlM Reader.step ⟨.word read, d⟩ = some ⟨.word (chars.reverse ++ read), d⟩ := by
  induction chars generalizing read with
  | nil => rfl
  | cons c chars ih =>
      obtain ⟨hc, hchars⟩ := List.forall_mem_cons.mp h
      have hstep : [c].foldlM Reader.step ⟨.word read, d⟩ = some ⟨.word (c :: read), d⟩ := by
        rw [foldlM_char]
        exact if_neg hc
      rw [← List.singleton_append, foldlM_of_some hstep, ih hchars, List.reverse_append,
        List.append_assoc]
      rfl

theorem readsAs_scalar {c : Char} {chars : List Char} {v : Json}
    (h : ∀ x ∈ c :: chars, ¬ IsDelimiter x) (hv : scalar (c :: chars) = some v) :
    ReadsAs (c :: chars) v := by
  obtain ⟨hc, hchars⟩ := List.forall_mem_cons.mp h
  obtain ⟨hspace, hquote, hnone⟩ : ¬ IsSpace c ∧ c ≠ '"' ∧ punctuation c = none := by
    simpa [IsDelimiter, not_or] using hc
  intro stack last rest hlast
  have hfirst : [c].foldlM Reader.step ⟨.between, ⟨.value, stack⟩⟩ =
      some ⟨.word [c], ⟨.value, stack⟩⟩ := by
    rw [foldlM_char]
    simp [Reader.step, Document.next, hspace, hquote, hnone]
  have hword : Document.word ⟨.value, stack⟩ (chars.reverse ++ [c]) =
      some ⟨.done v, stack⟩ := by
    rw [Document.word, List.reverse_append, List.reverse_reverse]
    change (scalar (c :: chars)).bind _ = _
    rw [hv]
    rfl
  have hend : Reader.step ⟨.word (chars.reverse ++ [c]), ⟨.value, stack⟩⟩ last =
      Reader.step ⟨.between, ⟨.done v, stack⟩⟩ last := by
    simp only [Reader.step, if_pos hlast, hword, Option.bind_some]
  calc
    (c :: chars ++ last :: rest).foldlM Reader.step ⟨.between, ⟨.value, stack⟩⟩
        = (chars ++ last :: rest).foldlM Reader.step ⟨.word [c], ⟨.value, stack⟩⟩ :=
      foldlM_of_some hfirst _
    _ = (last :: rest).foldlM Reader.step
          ⟨.word (chars.reverse ++ [c]), ⟨.value, stack⟩⟩ :=
      foldlM_of_some (foldlM_word hchars [c]) _
    _ = (last :: rest).foldlM Reader.step ⟨.between, ⟨.done v, stack⟩⟩ := by
      rw [List.foldlM_cons, List.foldlM_cons, hend]

/-! ## Objects -/

theorem foldlM_newLine (level : ℕ) :
    (newLine level).foldlM Reader.step ⟨.between, d⟩ = some ⟨.between, d⟩ := by
  have hblanks : ∀ n : ℕ, (List.replicate n ' ').foldlM Reader.step ⟨.between, d⟩ =
      some ⟨.between, d⟩ := by
    intro n
    induction n with
    | zero => rfl
    | succ n ih => exact ih
  exact hblanks (2 * level)

/-- A document that the key of a new member can follow. -/
def AwaitsKey (d : Document) (fields : List (String × Json)) (stack : List Frame) : Prop :=
  ∀ key, d.token (.text key) = some ⟨.colon fields key, stack⟩

variable {fields : List (String × Json)} {stack : List Frame} {text : List Char} {v : Json}

theorem foldlM_writeMember (hd : AwaitsKey d fields stack) (key : String) (h : ReadsAs text v)
    {c : Char} (hc : IsDelimiter c) (rest : List Char) :
    (writeMember (key, text) ++ c :: rest).foldlM Reader.step ⟨.between, d⟩ =
      (c :: rest).foldlM Reader.step ⟨.between, ⟨.done v, .obj fields key :: stack⟩⟩ := by
  have hkey : (quote key).foldlM Reader.step ⟨.between, d⟩ =
      some ⟨.between, ⟨.colon fields key, stack⟩⟩ := by
    rw [foldlM_quote, hd key]
    rfl
  rw [writeMember, List.append_assoc, List.append_assoc, foldlM_of_some hkey]
  exact h (.obj fields key :: stack) c rest hc

theorem awaitsKey_next (fields : List (String × Json)) (stack : List Frame) :
    AwaitsKey ⟨.nextKey fields, stack⟩ fields stack := fun _ => rfl

theorem awaitsKey_first (stack : List Frame) : AwaitsKey ⟨.firstKey, stack⟩ [] stack :=
  fun _ => rfl

/-- The members of an object with its end read as the object. -/
theorem foldlM_members {member : String × List Char} {field : String × Json}
    {members : List (String × List Char)} {rest : List (String × Json)}
    (hfirst : member.1 = field.1 ∧ ReadsAs member.2 field.2)
    (hrest : List.Forall₂ (fun m f => m.1 = f.1 ∧ ReadsAs m.2 f.2) members rest) (level : ℕ)
    (hd : AwaitsKey d fields stack) :
    (List.intercalate (',' :: newLine (level + 1)) ((member :: members).map writeMember) ++
      (newLine level ++ ['}'])).foldlM Reader.step ⟨.between, d⟩ =
      some ⟨.between, ⟨.done (.obj
        ((field :: rest).foldl (fun acc f => setEntry f.1 f.2 acc) fields)), stack⟩⟩ := by
  induction hrest generalizing member field d fields with
  | nil =>
      obtain ⟨key, text⟩ := member
      obtain ⟨rfl, hreads⟩ := hfirst
      have hend : (newLine level ++ ['}']).foldlM Reader.step
          ⟨.between, ⟨.done field.2, .obj fields field.1 :: stack⟩⟩ =
          some ⟨.between, ⟨.done (.obj (setEntry field.1 field.2 fields)), stack⟩⟩ := by
        rw [foldlM_of_some (foldlM_newLine level)]
        rfl
      rw [List.map_singleton, List.intercalate_singleton]
      exact (foldlM_writeMember hd field.1 hreads (by decide) _).trans hend
  | @cons next _ members _ hnext _ ih =>
      obtain ⟨key, text⟩ := member
      obtain ⟨rfl, hreads⟩ := hfirst
      have hcomma : [','].foldlM Reader.step
          ⟨.between, ⟨.done field.2, .obj fields field.1 :: stack⟩⟩ =
          some ⟨.between, ⟨.nextKey (setEntry field.1 field.2 fields), stack⟩⟩ := rfl
      have hsplit : List.intercalate (',' :: newLine (level + 1))
          (((field.1, text) :: next :: members).map writeMember) ++ (newLine level ++ ['}']) =
          writeMember (field.1, text) ++ ',' :: (newLine (level + 1) ++
            (List.intercalate (',' :: newLine (level + 1)) ((next :: members).map writeMember) ++
              (newLine level ++ ['}']))) := by
        rw [List.map_cons, List.map_cons, List.intercalate_cons_cons, ← List.map_cons]
        simp only [List.append_assoc, List.cons_append]
      rw [hsplit, foldlM_writeMember hd field.1 hreads (by decide)]
      exact (foldlM_of_some hcomma _).trans
        ((foldlM_of_some (foldlM_newLine _) _).trans (ih hnext (awaitsKey_next _ stack)))

/-- What is written for an object reads as the object. -/
theorem foldlM_writeObject {members : List (String × List Char)}
    (h : List.Forall₂ (fun m f => m.1 = f.1 ∧ ReadsAs m.2 f.2) members fields)
    (hkeys : (fields.map Prod.fst).Nodup) (level : ℕ) (stack : List Frame) :
    (writeObject level members).foldlM Reader.step ⟨.between, ⟨.value, stack⟩⟩ =
      some ⟨.between, ⟨.done (.obj fields), stack⟩⟩ := by
  cases h with
  | nil => rfl
  | cons hfirst hrest =>
      have hopen : ['{'].foldlM Reader.step ⟨.between, ⟨.value, stack⟩⟩ =
          some ⟨.between, ⟨.firstKey, stack⟩⟩ := rfl
      have hall := foldl_setEntry hkeys
      rw [writeObject, if_neg (List.cons_ne_nil _ _), List.append_assoc, List.append_assoc,
        List.append_assoc, foldlM_of_some hopen, foldlM_of_some (foldlM_newLine _),
        foldlM_members hfirst hrest level (awaitsKey_first stack), hall]

theorem readsAs_writeObject {members : List (String × List Char)}
    (h : List.Forall₂ (fun m f => m.1 = f.1 ∧ ReadsAs m.2 f.2) members fields)
    (hkeys : (fields.map Prod.fst).Nodup) (level : ℕ) :
    ReadsAs (writeObject level members) (.obj fields) :=
  readsAs_of_foldlM (foldlM_writeObject h hkeys level)

/-- What is written of fields with different keys reads back as those fields. -/
theorem parse_writeObject {members : List (String × List Char)}
    (h : List.Forall₂ (fun m f => m.1 = f.1 ∧ ReadsAs m.2 f.2) members fields)
    (hkeys : (fields.map Prod.fst).Nodup) : parse (writeObject 0 members) = some (.obj fields) := by
  rw [parse, foldlM_writeObject h hkeys]
  rfl

end Json

end FogoYield.Library
