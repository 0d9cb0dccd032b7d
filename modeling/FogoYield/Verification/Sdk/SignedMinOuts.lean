import FogoYield.Verification.Sdk.SignedFloors

/-! # Every floor a message states

The list `parseSignedMinOuts` returns against the floors on the complete lines of the text. The
match of a line takes its ending, so of adjacent `min_out` lines every other one is passed over. -/

namespace FogoYield.Sdk

open FogoYield.Library

/-- The floors the complete lines of a text state, each once, in the order of the text. -/
def statedFloors (text : List Char) : List ℕ :=
  (((completeLines (text.splitOn '\n')).filterMap lineFloor).filter (· ≤ u64Max)).eraseDups

theorem mem_statedFloors {text : List Char} {n : ℕ} :
    n ∈ statedFloors text ↔ n ≤ u64Max ∧
      minOutKey ++ Nat.toDigits 10 n ∈ completeLines (text.splitOn '\n') := by
  simp [statedFloors, lineFloor_eq_some, and_comm]

theorem map_scanLines (below : Bool) (lines : List (List Char)) :
    (scanLines below lines).map Prod.snd = lines.filterMap lineFloor := by
  induction lines generalizing below with
  | nil => rfl
  | cons line lines ih =>
      rw [scanLines]
      cases hfloor : lineFloor line with
      | none => rw [List.filterMap_cons_none hfloor, ih]
      | some n => rw [List.filterMap_cons_some hfloor, List.map_cons, ih]

theorem statedFloors_eq (text : List Char) :
    statedFloors text = ((floorLines text).map Prod.snd).eraseDups := by
  rw [statedFloors, ← map_scanLines false, List.filter_map, floorLines]
  rfl

/-- Every floor that stands on a line passed over stands on a line above it, or is the next new
floor on a line that is not passed over. -/
def FloorsCaught (text : List Char) : Prop :=
  ∀ above n below, floorLines text = above ++ (false, n) :: below →
    n ∈ above.map Prod.snd ∨ (marked below).find? (· ∉ above.map Prod.snd) = some n

/-- The list is exact if and only if every floor that is passed over is caught elsewhere. -/
theorem parseSignedMinOuts_exact_iff (message : Bytes) :
    parseSignedMinOuts message = statedFloors (textDecode message) ↔
      FloorsCaught (textDecode message) := by
  rw [parseSignedMinOuts_eq, statedFloors_eq, ← fresh_none, ← fresh_none, fresh_marked_iff]
  rfl

/-- Of two adjacent lines the second is passed over. -/
theorem parseSignedMinOuts_adjacent :
    parseSignedMinOuts (utf8 "min_out: 1\nmin_out: 2") = [1] ∧
      statedFloors (textDecode (utf8 "min_out: 1\nmin_out: 2")) = [1, 2] := by
  constructor <;> decide +kernel

end FogoYield.Sdk
