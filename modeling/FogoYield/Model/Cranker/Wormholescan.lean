import FogoYield.Model.Cranker.Watermarks

/-! # The Wormholescan client

`listVaasByEmitter` of `packages/sdk/src/bridge/wormholescan.ts`, against a list of entries that does
not change while it is paged through. -/

namespace FogoYield.Cranker

open FogoYield.Library

/-- An element of `json.data`. The sequence is given as the number that `BigInt` makes of it. -/
structure ApiEntry where
  vaa : Option String
  sequence : Option ℕ
  txHash : Option String
  deriving DecidableEq

/-- One entry of a response; a malformed one is skipped. -/
def readEntry (decodeBase64 : String → Bytes) (item : ApiEntry) : Option WormholescanVaa :=
  match item.vaa, item.sequence with
  | some vaa, some sequence =>
    if vaa = "" then none
    else some { vaa := decodeBase64 vaa, sequence := sequence, txHash := item.txHash }
  | _, _ => none

/-- `listVaasByEmitter` of a response: its `data`, if there is any. -/
def listVaasByEmitter (decodeBase64 : String → Bytes) (data : Option (List ApiEntry)) :
    List WormholescanVaa :=
  match data with
  | none => []
  | some data => data.filterMap (readEntry decodeBase64)

/-- One page of the entries the API has. -/
def apiPage (entries : List ApiEntry) (pageSize page : ℕ) : List ApiEntry :=
  (entries.drop (page * pageSize)).take pageSize

/-- The API at rest: every request is answered, and nothing aborts. -/
def staticSource (decodeBase64 : String → Bytes) (entries : List ApiEntry) (pageSize : ℕ) :
    PageSource where
  fetch page := some (listVaasByEmitter decodeBase64 (some (apiPage entries pageSize page)))
  aborted _ := false

end FogoYield.Cranker
