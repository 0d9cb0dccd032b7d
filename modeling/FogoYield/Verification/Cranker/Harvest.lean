import FogoYield.Model.Cranker.Wormholescan

/-! # What a harvest leaves out

The client drops malformed entries before the harvest sees the page, so a page that has malformed
entries only looks like the end of the list. -/

namespace FogoYield.Cranker

open FogoYield.Library

/-! ## Pages of a list -/

section Pages

variable {α : Type}

theorem take_pages (xs : List α) (pageSize count : ℕ) :
    (List.range count).flatMap (fun page => (xs.drop (page * pageSize)).take pageSize) =
      xs.take (count * pageSize) := by
  induction count with
  | zero => simp
  | succ count ih =>
      rw [List.range_succ, List.flatMap_append, ih, Nat.succ_mul, List.take_add,
        List.flatMap_singleton]

theorem filterMap_pages {β : Type} (read : α → Option β) (pages : List ℕ) (page : ℕ → List α) :
    pages.flatMap (fun p => (page p).filterMap read) = (pages.flatMap page).filterMap read := by
  induction pages with
  | nil => rfl
  | cons p pages ih => rw [List.flatMap_cons, List.flatMap_cons, List.filterMap_append, ih]

end Pages

/-! ## The harvest of fixed pages -/

/-- An empty page stands only where nothing wanted follows. -/
def EndsAtEmpty (wanted : WormholescanVaa → Bool) (pages : ℕ → List WormholescanVaa)
    (page count : ℕ) : Prop :=
  ∀ i j, page ≤ i → i < j → j < page + count → pages i = [] → (pages j).filter wanted = []

theorem EndsAtEmpty.succ {wanted : WormholescanVaa → Bool} {pages : ℕ → List WormholescanVaa}
    {page count : ℕ} : EndsAtEmpty wanted pages page (count + 1) ↔
      (pages page = [] → ∀ j, page < j → j < page + 1 + count → (pages j).filter wanted = []) ∧
      EndsAtEmpty wanted pages (page + 1) count := by
  constructor
  · intro h
    refine ⟨fun hempty j hj hj' => h page j le_rfl hj (by omega) hempty, ?_⟩
    exact fun i j hi hij hj hempty => h i j (by omega) hij (by omega) hempty
  · rintro ⟨hhead, htail⟩ i j hi hij hj hempty
    rcases Nat.eq_or_lt_of_le hi with rfl | hi
    · exact hhead hempty j hij (by omega)
    · exact htail i j hi hij (by omega) hempty

theorem filter_flatMap_eq_nil {wanted : WormholescanVaa → Bool}
    {pages : ℕ → List WormholescanVaa} {l : List ℕ} :
    (l.flatMap pages).filter wanted = [] ↔ ∀ j ∈ l, (pages j).filter wanted = [] := by
  rw [List.filter_flatMap, List.flatMap_eq_nil_iff]

/-- All that is wanted is yielded, once, exactly when no empty page comes before something
wanted. The floor may stop the harvest where nothing wanted follows. -/
theorem harvestFrom_filter_iff {floor : ℕ} {source : PageSource}
    {pages : ℕ → List WormholescanVaa} {wanted : WormholescanVaa → Bool}
    (hfetch : ∀ page, source.fetch page = some (pages page))
    (habort : ∀ page, source.aborted page = false)
    (hstop : ∀ page, pages page ≠ [] → isPageBelowFloor floor (pages page) →
      ∀ j, page < j → (pages j).filter wanted = []) (count page : ℕ) :
    (harvestFrom floor source count page).flatten.filter wanted =
        ((List.range' page count).flatMap pages).filter wanted ↔
      EndsAtEmpty wanted pages page count := by
  induction count generalizing page with
  | zero =>
      simp only [harvestFrom, List.range'_zero, List.flatMap_nil, List.flatten_nil, true_iff]
      intro i j hi hij hj
      omega
  | succ count ih =>
      have hrest : ((List.range' (page + 1) count).flatMap pages).filter wanted = [] ↔
          ∀ j, page < j → j < page + 1 + count → (pages j).filter wanted = [] := by
        rw [filter_flatMap_eq_nil]
        simp only [List.mem_range'_1, and_imp]
        rfl
      rw [List.range'_succ, List.flatMap_cons, List.filter_append, EndsAtEmpty.succ, ← hrest]
      simp only [harvestFrom, habort, hfetch, Option.getD_some, Bool.false_eq_true, if_false]
      by_cases hempty : pages page = []
      · -- the harvest takes an empty page for the end
        rw [if_pos hempty, hempty]
        simp only [List.flatten_nil, List.filter_nil, List.nil_append, forall_const]
        constructor
        · intro h
          refine ⟨h.symm, fun i j hi hij hj _ => ?_⟩
          exact (hrest.mp h.symm) j (by omega) hj
        · exact fun h => h.1.symm
      · rw [if_neg hempty]
        split
        · rename_i hbelow
          have hnone := hstop page hempty hbelow
          have hend : EndsAtEmpty wanted pages (page + 1) count :=
            fun i j hi hij _ _ => hnone j (by omega)
          simp [hempty, hend, hrest.mpr (fun j hj _ => hnone j hj)]
        · rw [List.flatten_cons, List.filter_append, List.append_cancel_left_eq, ih]
          simp [hempty]

/-! ## The harvest of a list -/

/-- The well-formed entries of a list are newest first. -/
def EntriesNewestFirst (decodeBase64 : String → Bytes) (entries : List ApiEntry) : Prop :=
  (entries.filterMap (readEntry decodeBase64)).Pairwise (fun u v => v.sequence ≤ u.sequence)

/-- What the client makes of one page. -/
def readPage (decodeBase64 : String → Bytes) (entries : List ApiEntry) (pageSize page : ℕ) :
    List WormholescanVaa :=
  (apiPage entries pageSize page).filterMap (readEntry decodeBase64)

/-- Of two pages the later one is older. -/
theorem EntriesNewestFirst.le_of_page {decodeBase64 : String → Bytes} {entries : List ApiEntry}
    (h : EntriesNewestFirst decodeBase64 entries) {pageSize i j : ℕ} (hij : i < j)
    {u v : WormholescanVaa} (hu : u ∈ readPage decodeBase64 entries pageSize i)
    (hv : v ∈ readPage decodeBase64 entries pageSize j) : v.sequence ≤ u.sequence := by
  have hfirst : (apiPage entries pageSize i).Sublist (entries.take (i * pageSize + pageSize)) := by
    rw [List.take_add]
    exact List.sublist_append_right _ _
  have hsecond : (apiPage entries pageSize j).Sublist (entries.drop (i * pageSize + pageSize)) := by
    have hle : i * pageSize + pageSize ≤ j * pageSize := by
      rw [← Nat.succ_mul]
      exact Nat.mul_le_mul_right pageSize hij
    obtain ⟨n, hn⟩ := Nat.exists_eq_add_of_le hle
    rw [apiPage, hn, ← List.drop_drop]
    exact (List.take_sublist _ _).trans (List.drop_sublist _ _)
  have hpages := (hfirst.append hsecond).filterMap (readEntry decodeBase64)
  rw [List.take_append_drop, List.filterMap_append] at hpages
  exact (List.pairwise_append.mp (h.sublist hpages)).2.2 u hu v hv

/-- What a harvest is for: entries above the paging floor, or all of them. -/
def harvestWants (store : WatermarkStore) (chainId : ℕ) (emitter : String)
    (bypassWatermark : Bool) (v : WormholescanVaa) : Bool :=
  bypassWatermark || pagingFloor store chainId emitter < v.sequence

/-- What is wanted of the first `maxPages` pages is yielded, each entry once and in order. -/
def HarvestComplete (decodeBase64 : String → Bytes) (store : WatermarkStore) (chainId : ℕ)
    (emitter : String) (pageSize maxPages : ℕ) (bypassWatermark : Bool)
    (entries : List ApiEntry) : Prop :=
  (harvestVaaPages store chainId emitter maxPages bypassWatermark
      (staticSource decodeBase64 entries pageSize)).flatten.filter
        (harvestWants store chainId emitter bypassWatermark) =
    ((entries.take (maxPages * pageSize)).filterMap (readEntry decodeBase64)).filter
      (harvestWants store chainId emitter bypassWatermark)

/-- No page of malformed entries only comes before a page with a wanted entry. -/
def NoBlankPage (decodeBase64 : String → Bytes) (store : WatermarkStore) (chainId : ℕ)
    (emitter : String) (pageSize maxPages : ℕ) (bypassWatermark : Bool)
    (entries : List ApiEntry) : Prop :=
  ∀ i j, i < j → j < maxPages → readPage decodeBase64 entries pageSize i = [] →
    ∀ v ∈ readPage decodeBase64 entries pageSize j,
      harvestWants store chainId emitter bypassWatermark v = false

theorem endsAtEmpty_iff {decodeBase64 : String → Bytes} {store : WatermarkStore} {chainId : ℕ}
    {emitter : String} {pageSize maxPages : ℕ} {bypassWatermark : Bool}
    {entries : List ApiEntry} :
    EndsAtEmpty (harvestWants store chainId emitter bypassWatermark)
        (readPage decodeBase64 entries pageSize) 0 maxPages ↔
      NoBlankPage decodeBase64 store chainId emitter pageSize maxPages bypassWatermark entries := by
  simp only [EndsAtEmpty, NoBlankPage, Nat.zero_le, forall_const, Nat.zero_add,
    List.filter_eq_nil_iff, Bool.not_eq_true]

theorem harvest_complete_iff (decodeBase64 : String → Bytes) (store : WatermarkStore)
    (chainId : ℕ) (emitter : String) (pageSize maxPages : ℕ) (bypassWatermark : Bool)
    {entries : List ApiEntry} (hnewest : EntriesNewestFirst decodeBase64 entries) :
    HarvestComplete decodeBase64 store chainId emitter pageSize maxPages bypassWatermark entries ↔
      NoBlankPage decodeBase64 store chainId emitter pageSize maxPages bypassWatermark entries := by
  have hpages : (List.range' 0 maxPages).flatMap (readPage decodeBase64 entries pageSize) =
      (entries.take (maxPages * pageSize)).filterMap (readEntry decodeBase64) := by
    rw [← take_pages, ← filterMap_pages, List.range_eq_range']
    rfl
  rw [HarvestComplete, harvestVaaPages, ← hpages, ← endsAtEmpty_iff]
  refine harvestFrom_filter_iff (fun _ => rfl) (fun _ => rfl) ?_ maxPages 0
  intro page hne hbelow j hj
  unfold isPageBelowFloor at hbelow
  rw [if_neg hne] at hbelow
  cases bypassWatermark with
  | true => cases hbelow
  | false =>
      rw [if_neg Bool.false_ne_true] at hbelow
      split at hbelow
      · cases hbelow
      · -- the page is at or below the floor, and later pages are older still
        rw [List.filter_eq_nil_iff]
        intro v hv
        obtain ⟨u, hu⟩ := List.exists_mem_of_ne_nil _ hne
        have hle : u.sequence ≤ pagingFloor store chainId emitter := by
          simpa using List.all_eq_true.mp hbelow u hu
        have hlate := hnewest.le_of_page hj hu hv
        simp only [harvestWants, Bool.false_or, decide_eq_true_eq, Nat.not_lt]
        exact hlate.trans hle

/-- Pages that share malformed entries with well-formed ones, and a floor that the third of them
reaches. -/
def flooredEntries : List ApiEntry :=
  [⟨some "AQ==", some 12, none⟩, ⟨none, some 11, none⟩, ⟨some "", some 10, none⟩,
    ⟨some "AQ==", some 9, none⟩, ⟨some "AQ==", some 7, none⟩, ⟨some "AQ==", none, none⟩,
    ⟨some "AQ==", some 5, none⟩]

/-- The watermark 12 puts the floor at 7. -/
theorem harvest_complete_floored :
    HarvestComplete (fun _ => [1])
      (fun key => if key = watermarkKey 1 "aa" then some 12 else none) 1 "aa" 2 4 false
      flooredEntries := by
  refine (harvest_complete_iff (fun _ => [1])
    (fun key => if key = watermarkKey 1 "aa" then some 12 else none) 1 "aa" 2 4 false (by
      unfold EntriesNewestFirst
      decide)).mpr ?_
  intro i j hij hj hblank
  have hpages : ∀ page < 4,
      readPage (fun _ => [1]) flooredEntries 2 page ≠ [] := by decide
  exact absurd hblank (hpages i (by omega))

/-- Four pages are asked for, and the third ends the harvest. -/
example : (harvestVaaPages (fun key => if key = watermarkKey 1 "aa" then some 12 else none) 1 "aa"
    4 false (staticSource (fun _ => [1]) flooredEntries 2)).map (List.map (·.sequence)) =
    [[12], [9], [7]] := by decide

/-- A malformed entry on a page of its own hides the entry behind it. -/
theorem harvest_blank_page :
    ¬ HarvestComplete (fun _ => []) (fun _ => none) 1 "aa" 1 2 false
      [⟨none, some 9, none⟩, ⟨some "AQ==", some 8, none⟩] := by
  unfold HarvestComplete
  decide

end FogoYield.Cranker
