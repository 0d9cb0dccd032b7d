import FogoYield.Library.Utf8

/-! # The signed intent on the client

`buildBridgeOutIntentMessage` of `packages/sdk/src/builders/intent-transfer.ts` writes the message
the user signs; `parseSignedMinOuts` of `packages/sdk/src/bridge/signed-intent.ts` reads the floor
back out of it. -/

namespace FogoYield.Sdk

open FogoYield.Library

/-! ## Building -/

def intentVersionMajor : ℕ := 0
def intentVersionMinor : ℕ := 3

def bridgeOutMessageHeader : String := "Fogo Bridge\n"

structure BuildBridgeOutIntentMessageParams where
  fromChainId : String
  toChainId : String
  tokenSymbolOrMint : String
  amount : String
  feeTokenSymbolOrMint : String
  feeAmount : String
  minOut : ℤ
  nonce : ℤ

/-- The lines of the message, the header with an ending of its own. -/
def BuildBridgeOutIntentMessageParams.lines (params : BuildBridgeOutIntentMessageParams) :
    List String :=
  [ bridgeOutMessageHeader,
    "version: " ++ toString intentVersionMajor ++ "." ++ toString intentVersionMinor,
    "from_chain_id: " ++ params.fromChainId,
    "to_chain_id: " ++ params.toChainId,
    "token: " ++ params.tokenSymbolOrMint,
    "amount: " ++ params.amount,
    "min_out: " ++ toString params.minOut,
    "fee_token: " ++ params.feeTokenSymbolOrMint,
    "fee_amount: " ++ params.feeAmount,
    "nonce: " ++ toString params.nonce ]

def buildBridgeOutIntentMessage (params : BuildBridgeOutIntentMessageParams) : Bytes :=
  utf8 (String.intercalate "\n" params.lines)

/-! ## Reading the floor back -/

def u64Max : ℕ := 2 ^ 64 - 1

def byteOrderMark : Char := '\uFEFF'

/-- `new TextDecoder().decode`: not fatal, and a leading byte order mark is dropped. -/
def textDecode (message : Bytes) : List Char :=
  match lossyDecode none message with
  | c :: text => if c = byteOrderMark then text else c :: text
  | [] => []

/-- The literal of the regular expression, with what stands behind it. -/
def stripLiteral (literal text : List Char) : Option (List Char) :=
  if literal.isPrefixOf text then some (text.drop literal.length) else none

/-- `(?:\r?\n|$)`: the text behind a line ending. -/
def matchLineEnd : List Char → Option (List Char)
  | [] => some []
  | '\n' :: text => some text
  | '\r' :: '\n' :: text => some text
  | _ => none

/-- `(0|[1-9]\d*)(?:\r?\n|$)`. Only the longest run of digits can stand before a line ending. -/
def matchDigits (text : List Char) : Option (List Char × List Char) :=
  match text with
  | '0' :: rest => (matchLineEnd rest).map (fun behind => (['0'], behind))
  | c :: rest =>
    if c.isDigit then
      (matchLineEnd (rest.dropWhile Char.isDigit)).map
        (fun behind => (c :: rest.takeWhile Char.isDigit, behind))
    else none
  | [] => none

/-- `min_out: (0|[1-9]\d*)(?:\r?\n|$)` from here on. -/
def matchBody (text : List Char) : Option (List Char × List Char) :=
  (stripLiteral "min_out: ".toList text).bind matchDigits

/-- `MIN_OUT_LINE` at one position: the digits it captures and the text behind the match. -/
def matchMinOutLine (atStart : Bool) (text : List Char) : Option (List Char × List Char) :=
  match if atStart then matchBody text else none with
  | some found => some found
  | none =>
    match text with
    | '\n' :: rest => matchBody rest
    | _ => none

theorem matchLineEnd_length {text behind : List Char} (h : matchLineEnd text = some behind) :
    behind.length ≤ text.length := by
  unfold matchLineEnd at h
  split at h
  · cases h
    exact le_rfl
  · cases h
    simp
  · cases h
    simp only [List.length_cons]
    omega
  · cases h

theorem matchDigits_length {text digits behind : List Char}
    (h : matchDigits text = some (digits, behind)) : behind.length < text.length := by
  unfold matchDigits at h
  split at h
  · rename_i rest
    obtain ⟨b, hb, hpair⟩ := Option.map_eq_some_iff.mp h
    cases hpair
    exact Nat.lt_succ_of_le (matchLineEnd_length hb)
  · rename_i c rest _
    split at h
    · obtain ⟨b, hb, hpair⟩ := Option.map_eq_some_iff.mp h
      cases hpair
      have hdrop := (List.dropWhile_suffix Char.isDigit (l := rest)).length_le
      exact Nat.lt_succ_of_le ((matchLineEnd_length hb).trans hdrop)
    · cases h
  · cases h

theorem matchBody_length {text digits behind : List Char}
    (h : matchBody text = some (digits, behind)) : behind.length < text.length := by
  unfold matchBody stripLiteral at h
  split at h
  · have hlt := matchDigits_length h
    rw [List.length_drop] at hlt
    omega
  · cases h

theorem matchMinOutLine_length {atStart : Bool} {text digits behind : List Char}
    (h : matchMinOutLine atStart text = some (digits, behind)) :
    behind.length < text.length := by
  unfold matchMinOutLine at h
  split at h
  · rename_i found hfound
    split at hfound
    · cases h
      exact matchBody_length hfound
    · cases hfound
  · split at h
    · exact (matchBody_length h).trans (Nat.lt_succ_self _)
    · cases h

/-- `text.matchAll(MIN_OUT_LINE)`: leftmost matches that do not overlap. -/
def matchAll (atStart : Bool) (text : List Char) : List (List Char) :=
  match _ : matchMinOutLine atStart text with
  | some (digits, behind) => digits :: matchAll false behind
  | none =>
    match text with
    | [] => []
    | _ :: rest => matchAll false rest
  termination_by text.length
  decreasing_by
    · exact matchMinOutLine_length ‹_›
    · exact Nat.lt_succ_self _

/-- Each floor that fits a `u64`, once, in order. -/
def collectFloors : List (List Char) → List ℕ → List ℕ
  | [], floors => floors
  | digits :: rest, floors =>
    let value := Nat.ofDigitChars 10 digits 0
    if value ≤ u64Max ∧ value ∉ floors then collectFloors rest (floors ++ [value])
    else collectFloors rest floors

def parseSignedMinOuts (message : Bytes) : List ℕ :=
  collectFloors (matchAll true (textDecode message)) []

end FogoYield.Sdk
