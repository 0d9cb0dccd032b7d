import Mathlib.Data.List.Basic
import FogoYield.Library.Bytes

/-! # Watermarks and paged harvest

`packages/cranker/src/state/watermarks.ts` and `utils/wormholescan-pages.ts`. A `bigint` that is a
sequence number is a natural number. -/

namespace FogoYield.Cranker

open FogoYield.Library

/-! ## Watermarks -/

/-- `Map<string, bigint>`. -/
abbrev WatermarkStore := String → Option ℕ

def backfillCount : ℕ := 5

def watermarkKey (chainId : ℕ) (emitter : String) : String := toString chainId ++ ":" ++ emitter

/-- The recorded watermark, zero on first sighting. -/
def WatermarkStore.mark (store : WatermarkStore) (chainId : ℕ) (emitter : String) : ℕ :=
  (store (watermarkKey chainId emitter)).getD 0

def pagingFloor (store : WatermarkStore) (chainId : ℕ) (emitter : String) : ℕ :=
  let wm := store.mark chainId emitter
  if wm = 0 then 0
  else if backfillCount < wm then wm - backfillCount else 0

structure WormholescanVaa where
  vaa : Bytes
  sequence : ℕ
  txHash : Option String
  deriving DecidableEq

def isPageBelowFloor (floor : ℕ) (page : List WormholescanVaa) : Bool :=
  if page = [] then true
  else if floor = 0 then false
  else page.all (fun v => v.sequence ≤ floor)

def recordSeen (store : WatermarkStore) (chainId : ℕ) (emitter : String) (seq : ℕ) :
    WatermarkStore :=
  let k := watermarkKey chainId emitter
  let cur := (store k).getD 0
  if cur < seq then Function.update store k (some seq) else store

/-! ## Harvest -/

/-- What the pager meets: the pages as they are fetched, and the abort signal before each. -/
structure PageSource where
  /-- `listVaasByEmitter`, without a result if it throws. -/
  fetch : ℕ → Option (List WormholescanVaa)
  aborted : ℕ → Bool

/-- The pages that are yielded from page `page` on, at most `count` of them. -/
def harvestFrom (floor : ℕ) (source : PageSource) :
    (count page : ℕ) → List (List WormholescanVaa)
  | 0, _ => []
  | count + 1, page =>
    if source.aborted page then []
    else
      let items := (source.fetch page).getD []
      if items = [] then []
      else if isPageBelowFloor floor items then [items]
      else items :: harvestFrom floor source count (page + 1)

/-- `harvestVaaPages`. -/
def harvestVaaPages (store : WatermarkStore) (chainId : ℕ) (emitter : String) (maxPages : ℕ)
    (bypassWatermark : Bool) (source : PageSource) : List (List WormholescanVaa) :=
  let floor := if bypassWatermark then 0 else pagingFloor store chainId emitter
  harvestFrom floor source maxPages 0

/-! ## The feed -/

/-- One page of a newest-first list. -/
def feedPage (vaas : List WormholescanVaa) (pageSize page : ℕ) : List WormholescanVaa :=
  (vaas.drop (page * pageSize)).take pageSize

/-- One scan of a list: its options, the pages that cannot be fetched and the pages that find the
scan aborted. -/
structure Paging where
  pageSize : ℕ
  maxPages : ℕ
  fails : ℕ → Bool
  aborted : ℕ → Bool

def Paging.source (scan : Paging) (vaas : List WormholescanVaa) : PageSource where
  fetch page := if scan.fails page then none else some (feedPage vaas scan.pageSize page)
  aborted := scan.aborted

end FogoYield.Cranker
