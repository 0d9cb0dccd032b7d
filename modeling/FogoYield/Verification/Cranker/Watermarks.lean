import FogoYield.Model.Cranker.Watermarks

/-! # What a harvest yields

A newest-first list is read page by page. A page is reached unless one before it is at or below
the floor, and no page is once every newer entry is above it. -/

namespace FogoYield.Cranker

open FogoYield.Library

/-! ## Pages -/

def PageSource.items (source : PageSource) (page : ℕ) : List WormholescanVaa :=
  (source.fetch page).getD []

theorem mem_harvestFrom_succ {floor : ℕ} {source : PageSource} {count page : ℕ}
    {x : WormholescanVaa} :
    x ∈ (harvestFrom floor source (count + 1) page).flatten ↔
      source.aborted page = false ∧ (x ∈ source.items page ∨
        (source.items page ≠ [] ∧ isPageBelowFloor floor (source.items page) = false) ∧
          x ∈ (harvestFrom floor source count (page + 1)).flatten) := by
  change x ∈ (if source.aborted page then [] else if source.items page = [] then [] else
    if isPageBelowFloor floor (source.items page) then [source.items page]
    else source.items page :: harvestFrom floor source count (page + 1)).flatten ↔ _
  cases source.aborted page with
  | true => simp
  | false =>
      by_cases hempty : source.items page = []
      · simp [hempty]
      · cases isPageBelowFloor floor (source.items page) <;> simp [hempty]

theorem mem_harvestFrom {floor : ℕ} {source : PageSource} {count page : ℕ} {x : WormholescanVaa} :
    x ∈ (harvestFrom floor source count page).flatten ↔
      ∃ q, page ≤ q ∧ q < page + count ∧ x ∈ source.items q ∧
        (∀ p, page ≤ p → p ≤ q → source.aborted p = false) ∧
        ∀ p, page ≤ p → p < q →
          source.items p ≠ [] ∧ isPageBelowFloor floor (source.items p) = false := by
  induction count generalizing page with
  | zero =>
      simp only [harvestFrom, List.flatten_nil, List.not_mem_nil, false_iff, not_exists]
      omega
  | succ count ih =>
      rw [mem_harvestFrom_succ, ih]
      constructor
      · rintro ⟨habort, hx | ⟨hpage, q, hq, hq', hx, haborts, hpages⟩⟩
        · refine ⟨page, le_rfl, by omega, hx, ?_, by omega⟩
          intro p hp hp'
          rwa [Nat.le_antisymm hp' hp]
        · refine ⟨q, by omega, by omega, hx, ?_, ?_⟩
          · intro p hp hp'
            rcases Nat.eq_or_lt_of_le hp with rfl | hp
            · exact habort
            · exact haborts p hp hp'
          · intro p hp hp'
            rcases Nat.eq_or_lt_of_le hp with rfl | hp
            · exact hpage
            · exact hpages p hp hp'
      · rintro ⟨q, hq, hq', hx, haborts, hpages⟩
        refine ⟨haborts page le_rfl hq, ?_⟩
        rcases Nat.eq_or_lt_of_le hq with rfl | hlt
        · exact .inl hx
        · refine .inr ⟨hpages page le_rfl hlt, q, hlt, by omega, hx, ?_, ?_⟩
          · exact fun p hp hp' => haborts p (by omega) hp'
          · exact fun p hp hp' => hpages p (by omega) hp'

theorem mem_feedPage {vaas : List WormholescanVaa} {pageSize page : ℕ} {x : WormholescanVaa} :
    x ∈ feedPage vaas pageSize page ↔
      ∃ i, page * pageSize ≤ i ∧ i < page * pageSize + pageSize ∧ vaas[i]? = some x := by
  rw [feedPage, List.mem_iff_getElem?]
  constructor
  · rintro ⟨j, hj⟩
    rw [List.getElem?_take] at hj
    split at hj
    · rw [List.getElem?_drop] at hj
      exact ⟨page * pageSize + j, by omega, by omega, hj⟩
    · cases hj
  · rintro ⟨i, hi, hi', hx⟩
    refine ⟨i - page * pageSize, ?_⟩
    rw [List.getElem?_take, if_pos (by omega), List.getElem?_drop,
      Nat.add_sub_cancel' hi, hx]

/-! ## Newest-first lists -/

/-- Strictly decreasing sequence numbers. -/
def NewestFirst (vaas : List WormholescanVaa) : Prop :=
  vaas.Pairwise (fun u v => v.sequence < u.sequence)

theorem NewestFirst.lt_of_index {vaas : List WormholescanVaa} (h : NewestFirst vaas) {i j : ℕ}
    {x y : WormholescanVaa} (hx : vaas[i]? = some x) (hy : vaas[j]? = some y) (hlt : j < i) :
    x.sequence < y.sequence := by
  obtain ⟨hi, rfl⟩ := List.getElem?_eq_some_iff.mp hx
  obtain ⟨hj, rfl⟩ := List.getElem?_eq_some_iff.mp hy
  exact List.pairwise_iff_getElem.mp h j i hj hi hlt

/-- The newer of two entries stands first. -/
theorem NewestFirst.lt_iff {vaas : List WormholescanVaa} (h : NewestFirst vaas) {i j : ℕ}
    {x y : WormholescanVaa} (hx : vaas[i]? = some x) (hy : vaas[j]? = some y) :
    x.sequence < y.sequence ↔ j < i := by
  constructor
  · intro hlt
    rcases Nat.lt_trichotomy j i with hji | rfl | hij
    · exact hji
    · obtain rfl := Option.some.inj (hx.symm.trans hy)
      exact absurd hlt (lt_irrefl _)
    · exact absurd hlt (h.lt_of_index hy hx hij).not_gt
  · exact h.lt_of_index hx hy

theorem NewestFirst.index_unique {vaas : List WormholescanVaa} (h : NewestFirst vaas) {i j : ℕ}
    {x : WormholescanVaa} (hi : vaas[i]? = some x) (hj : vaas[j]? = some x) : i = j := by
  have hij := (h.lt_iff hi hj).not.mp (lt_irrefl _)
  have hji := (h.lt_iff hj hi).not.mp (lt_irrefl _)
  omega

/-! ## What a scan reaches -/

/-- The scan can get as far as the entry at index `i`: it is within the last page allowed, and no
page up to its own fails or is not asked for. -/
def Paging.Reaches (scan : Paging) (i : ℕ) : Prop :=
  0 < scan.pageSize ∧ i / scan.pageSize < scan.maxPages ∧
    ∀ q ≤ i / scan.pageSize, scan.fails q = false ∧ scan.aborted q = false

/-- What the scan yields of a list under a floor. -/
def Paging.yields (scan : Paging) (vaas : List WormholescanVaa) (floor : ℕ) :
    List WormholescanVaa :=
  (harvestFrom floor (scan.source vaas) scan.maxPages 0).flatten

theorem Paging.items_of_not_fails {scan : Paging} {vaas : List WormholescanVaa} {q : ℕ}
    (h : scan.fails q = false) :
    (scan.source vaas).items q = feedPage vaas scan.pageSize q := by
  simp [PageSource.items, Paging.source, h]

theorem Paging.mem_items {scan : Paging} {vaas : List WormholescanVaa} {q : ℕ}
    {x : WormholescanVaa} (h : x ∈ (scan.source vaas).items q) :
    scan.fails q = false ∧ x ∈ feedPage vaas scan.pageSize q := by
  cases hf : scan.fails q with
  | true => simp [PageSource.items, Paging.source, hf] at h
  | false => exact ⟨rfl, items_of_not_fails hf ▸ h⟩

theorem mem_feedPage_index {vaas : List WormholescanVaa} (hvaas : NewestFirst vaas)
    {pageSize q i : ℕ} {x : WormholescanVaa} (hx : vaas[i]? = some x)
    (h : x ∈ feedPage vaas pageSize q) : 0 < pageSize ∧ q = i / pageSize := by
  obtain ⟨j, hlow, hhigh, hj⟩ := mem_feedPage.mp h
  obtain rfl := hvaas.index_unique hx hj
  have hpos : 0 < pageSize := by omega
  refine ⟨hpos, ?_⟩
  rw [Nat.div_eq_of_lt_le]
  · exact hlow
  · rw [Nat.succ_mul]
    exact hhigh

theorem Paging.mem_of_mem_yields {scan : Paging} {vaas : List WormholescanVaa} {floor : ℕ}
    {x : WormholescanVaa} (h : x ∈ scan.yields vaas floor) : x ∈ vaas := by
  obtain ⟨q, -, -, hmem, -⟩ := mem_harvestFrom.mp h
  obtain ⟨i, -, -, hi⟩ := mem_feedPage.mp (mem_items hmem).2
  exact List.mem_of_getElem? hi

theorem harvestFrom_take {scan : Paging} {vaas : List WormholescanVaa} (floor count page : ℕ) :
    (harvestFrom floor (scan.source vaas) count page).flatten <+:
      vaas.drop (page * scan.pageSize) := by
  induction count generalizing page with
  | zero => exact List.nil_prefix
  | succ count ih =>
      simp only [harvestFrom]
      split
      · exact List.nil_prefix
      · split
        · exact List.nil_prefix
        · rename_i hne
          obtain ⟨v, hv⟩ := List.exists_mem_of_ne_nil _ hne
          have hitems : ((scan.source vaas).fetch page).getD [] =
              (vaas.drop (page * scan.pageSize)).take scan.pageSize :=
            Paging.items_of_not_fails (Paging.mem_items hv).1
          rw [hitems]
          split
          · rw [List.flatten_singleton]
            exact List.take_prefix _ _
          · have hrest := ih (page + 1)
            rw [Nat.succ_mul, ← List.drop_drop] at hrest
            conv_rhs => rw [← List.take_append_drop scan.pageSize (vaas.drop _)]
            exact (List.prefix_append_right_inj _).mpr hrest

/-- What a scan yields is where the list starts. -/
theorem Paging.yields_eq_take (scan : Paging) (vaas : List WormholescanVaa) (floor : ℕ) :
    scan.yields vaas floor = vaas.take (scan.yields vaas floor).length := by
  have hpre : scan.yields vaas floor <+: vaas.drop (0 * scan.pageSize) :=
    harvestFrom_take floor scan.maxPages 0
  rw [Nat.zero_mul, List.drop_zero] at hpre
  exact List.prefix_iff_eq_take.mp hpre

theorem NewestFirst.mem_take_iff {vaas : List WormholescanVaa} (h : NewestFirst vaas) {i k : ℕ}
    {x : WormholescanVaa} (hx : vaas[i]? = some x) : x ∈ vaas.take k ↔ i < k := by
  rw [List.mem_iff_getElem?]
  constructor
  · rintro ⟨j, hj⟩
    rw [List.getElem?_take] at hj
    split at hj
    · rwa [h.index_unique hx hj]
    · cases hj
  · intro hlt
    exact ⟨i, by rw [List.getElem?_take, if_pos hlt, hx]⟩

/-- The first `k` of what is yielded are the yielded ones of the first `k`. -/
theorem Paging.mem_yields_take {scan : Paging} {vaas : List WormholescanVaa}
    (hvaas : NewestFirst vaas) {floor i k : ℕ} {x : WormholescanVaa} (hx : vaas[i]? = some x) :
    x ∈ (scan.yields vaas floor).take k ↔ x ∈ scan.yields vaas floor ∧ i < k := by
  rw [yields_eq_take, List.take_take, hvaas.mem_take_iff hx, hvaas.mem_take_iff hx, lt_min_iff,
    and_comm]

/-- An entry is yielded exactly if the scan gets to it and no page before its own is at or below
the floor. -/
theorem Paging.mem_yields {scan : Paging} {vaas : List WormholescanVaa}
    (hvaas : NewestFirst vaas) {floor i : ℕ} {x : WormholescanVaa} (hx : vaas[i]? = some x) :
    x ∈ scan.yields vaas floor ↔ scan.Reaches i ∧ ∀ q < i / scan.pageSize,
      isPageBelowFloor floor (feedPage vaas scan.pageSize q) = false := by
  rw [Paging.yields, mem_harvestFrom]
  constructor
  · rintro ⟨q, -, hq, hmem, habort, hpages⟩
    obtain ⟨hfails, hpage⟩ := mem_items hmem
    obtain ⟨hpos, rfl⟩ := mem_feedPage_index hvaas hx hpage
    have hearlier : ∀ p < i / scan.pageSize, scan.fails p = false := by
      intro p hp
      obtain ⟨y, hy⟩ := List.exists_mem_of_ne_nil _ (hpages p (Nat.zero_le _) hp).1
      exact (mem_items hy).1
    refine ⟨⟨hpos, by omega, ?_⟩, ?_⟩
    · intro p hp
      refine ⟨?_, habort p (Nat.zero_le _) hp⟩
      rcases Nat.eq_or_lt_of_le hp with rfl | hp
      · exact hfails
      · exact hearlier p hp
    · intro p hp
      rw [← items_of_not_fails (hearlier p hp)]
      exact (hpages p (Nat.zero_le _) hp).2
  · rintro ⟨⟨hpos, hmax, hpages⟩, hfloor⟩
    have hdiv := Nat.div_add_mod i scan.pageSize
    have hmod := Nat.mod_lt i hpos
    have hcomm : scan.pageSize * (i / scan.pageSize) = i / scan.pageSize * scan.pageSize :=
      Nat.mul_comm _ _
    refine ⟨i / scan.pageSize, Nat.zero_le _, by omega, ?_, ?_, ?_⟩
    · rw [items_of_not_fails (hpages _ le_rfl).1, mem_feedPage]
      exact ⟨i, by omega, by omega, hx⟩
    · exact fun p _ hp => (hpages p hp).2
    · intro p _ hp
      rw [items_of_not_fails (hpages p hp.le).1]
      refine ⟨?_, hfloor p hp⟩
      -- an earlier page starts before the entry
      have hstart : p * scan.pageSize < i := by
        have hmul := Nat.mul_le_mul_right scan.pageSize (Nat.succ_le_of_lt hp)
        rw [Nat.succ_mul] at hmul
        omega
      obtain ⟨hi, -⟩ := List.getElem?_eq_some_iff.mp hx
      have hlt : p * scan.pageSize < vaas.length := by omega
      exact List.ne_nil_of_mem (mem_feedPage.mpr
        ⟨p * scan.pageSize, le_rfl, by omega, List.getElem?_eq_getElem hlt⟩)

/-! ## The floor -/

/-- A page with an entry of sequence number `n` does not end a scan under the watermark `mark`. -/
def Clears (mark n : ℕ) : Prop := mark ≤ backfillCount ∨ mark < n + backfillCount

instance (mark n : ℕ) : Decidable (Clears mark n) := inferInstanceAs (Decidable (_ ∨ _))

theorem Clears.mono {mark mark' n n' : ℕ} (h : Clears mark n) (hmark : mark' ≤ mark)
    (hn : n ≤ n') : Clears mark' n' := by
  unfold Clears at *
  omega

theorem clears_iff_floor (store : WatermarkStore) (chainId : ℕ) (emitter : String) (n : ℕ) :
    Clears (store.mark chainId emitter) n ↔
      pagingFloor store chainId emitter = 0 ∨ pagingFloor store chainId emitter < n := by
  simp only [pagingFloor, Clears]
  split
  · simp_all
  · split <;> omega

theorem isPageBelowFloor_eq_false {floor : ℕ} {page : List WormholescanVaa} :
    isPageBelowFloor floor page = false ↔
      page ≠ [] ∧ (floor = 0 ∨ ∃ v ∈ page, floor < v.sequence) := by
  unfold isPageBelowFloor
  split
  · simp_all
  · split
    · simp_all
    · rename_i hne hfloor
      simp [hne, hfloor, List.all_eq_false]

/-- A scan that gets to an entry yields it, if everything newer clears the watermark. -/
theorem Paging.yields_of_clears {scan : Paging} {vaas : List WormholescanVaa}
    (hvaas : NewestFirst vaas) {store : WatermarkStore} {chainId : ℕ} {emitter : String} {i : ℕ}
    {x : WormholescanVaa} (hx : vaas[i]? = some x) (hreach : scan.Reaches i)
    (hclears : ∀ y ∈ vaas, x.sequence < y.sequence →
      Clears (store.mark chainId emitter) y.sequence) :
    x ∈ scan.yields vaas (pagingFloor store chainId emitter) := by
  refine (mem_yields hvaas hx).mpr ⟨hreach, ?_⟩
  intro q hq
  obtain ⟨hpos, -, -⟩ := hreach
  have hstart : q * scan.pageSize < i := by
    have hmul := Nat.mul_le_mul_right scan.pageSize (Nat.succ_le_of_lt hq)
    have hdiv := Nat.div_mul_le_self i scan.pageSize
    rw [Nat.succ_mul] at hmul
    omega
  obtain ⟨hi, -⟩ := List.getElem?_eq_some_iff.mp hx
  have hlt : q * scan.pageSize < vaas.length := by omega
  -- the first entry of the page is newer
  have hfirst : vaas[q * scan.pageSize] ∈ feedPage vaas scan.pageSize q :=
    mem_feedPage.mpr ⟨_, le_rfl, by omega, List.getElem?_eq_getElem hlt⟩
  have hnewer := hvaas.lt_of_index hx (List.getElem?_eq_getElem hlt) hstart
  have hfloor := (clears_iff_floor store chainId emitter _).mp
    (hclears _ (List.getElem_mem hlt) hnewer)
  exact isPageBelowFloor_eq_false.mpr
    ⟨List.ne_nil_of_mem hfirst, hfloor.imp_right (fun h => ⟨_, hfirst, h⟩)⟩

/-- Every page before that of an entry that is yielded has one that clears the watermark. -/
theorem Paging.clears_of_yields {scan : Paging} {vaas : List WormholescanVaa}
    (hvaas : NewestFirst vaas) {store : WatermarkStore} {chainId : ℕ} {emitter : String} {i q : ℕ}
    {x : WormholescanVaa} (hx : vaas[i]? = some x)
    (hmem : x ∈ scan.yields vaas (pagingFloor store chainId emitter))
    (hq : q < i / scan.pageSize) :
    ∃ v ∈ feedPage vaas scan.pageSize q, Clears (store.mark chainId emitter) v.sequence := by
  obtain ⟨hne, hfloor⟩ := isPageBelowFloor_eq_false.mp (((mem_yields hvaas hx).mp hmem).2 q hq)
  rcases hfloor with hzero | ⟨v, hv, hlt⟩
  · obtain ⟨v, hv⟩ := List.exists_mem_of_ne_nil _ hne
    exact ⟨v, hv, (clears_iff_floor store chainId emitter _).mpr (.inl hzero)⟩
  · exact ⟨v, hv, (clears_iff_floor store chainId emitter _).mpr (.inr hlt)⟩

/-- The scan of a whole list by pages of one entry. -/
def singles (vaas : List WormholescanVaa) : Paging where
  pageSize := 1
  maxPages := vaas.length
  fails _ := false
  aborted _ := false

/-- By pages of one entry, a newer entry that does not clear the watermark ends the scan. -/
theorem singles_not_yields {vaas : List WormholescanVaa} (hvaas : NewestFirst vaas)
    {store : WatermarkStore} {chainId : ℕ} {emitter : String} {x y : WormholescanVaa}
    (hx : x ∈ vaas) (hy : y ∈ vaas) (hnewer : x.sequence < y.sequence)
    (hclears : ¬ Clears (store.mark chainId emitter) y.sequence) :
    x ∉ (singles vaas).yields vaas (pagingFloor store chainId emitter) := by
  intro hmem
  obtain ⟨i, hi⟩ := List.mem_iff_getElem?.mp hx
  obtain ⟨j, hj⟩ := List.mem_iff_getElem?.mp hy
  have hlt := (hvaas.lt_iff hi hj).mp hnewer
  obtain ⟨v, hv, hclear⟩ := Paging.clears_of_yields hvaas hi hmem
    (show j < i / (singles vaas).pageSize by simpa [singles] using hlt)
  obtain ⟨k, hlow, hhigh, hk⟩ := mem_feedPage.mp hv
  have hkj : k = j := by
    simp only [singles] at hlow hhigh
    omega
  subst hkj
  obtain rfl := Option.some.inj (hj.symm.trans hk)
  exact hclears hclear

/-! ## Recording -/

theorem mark_recordSeen (store : WatermarkStore) (chainId : ℕ) (emitter : String) (seq : ℕ) :
    (recordSeen store chainId emitter seq).mark chainId emitter =
      max (store.mark chainId emitter) seq := by
  simp only [recordSeen, WatermarkStore.mark]
  split
  · rename_i h
    rw [Function.update_self, Option.getD_some, max_eq_right h.le]
  · rename_i h
    rw [max_eq_left (not_lt.mp h)]

/-- A watermark `mark'` is the highest of an earlier one and of what was recorded since. -/
structure Advances (recorded : List WormholescanVaa) (mark mark' : ℕ) : Prop where
  le : mark ≤ mark'
  ge : ∀ r ∈ recorded, r.sequence ≤ mark'
  attained : mark' = mark ∨ ∃ r ∈ recorded, r.sequence = mark'

theorem Advances.append {l l' : List WormholescanVaa} {m m' m'' : ℕ} (h : Advances l m m')
    (h' : Advances l' m' m'') : Advances (l ++ l') m m'' where
  le := h.le.trans h'.le
  ge := by
    intro r hr
    rcases List.mem_append.mp hr with hr | hr
    · exact (h.ge r hr).trans h'.le
    · exact h'.ge r hr
  attained := by
    rcases h'.attained with rfl | ⟨r, hr, heq⟩
    · exact h.attained.imp_right (fun ⟨r, hr, heq⟩ => ⟨r, List.mem_append_left _ hr, heq⟩)
    · exact .inr ⟨r, List.mem_append_right _ hr, heq⟩

theorem Advances.refl (mark : ℕ) : Advances [] mark mark := ⟨le_rfl, by simp, .inl rfl⟩

theorem Advances.record (store : WatermarkStore) (chainId : ℕ) (emitter : String)
    (v : WormholescanVaa) : Advances [v] (store.mark chainId emitter)
      ((recordSeen store chainId emitter v.sequence).mark chainId emitter) := by
  rw [mark_recordSeen]
  refine ⟨le_max_left _ _, ?_, ?_⟩
  · intro r hr
    rw [List.mem_singleton.mp hr]
    exact le_max_right _ _
  · rcases le_total v.sequence (store.mark chainId emitter) with h | h
    · exact .inl (max_eq_left h)
    · exact .inr ⟨v, List.mem_singleton_self v, (max_eq_right h).symm⟩

/-! ## What stays in sight -/

/-- A newest-first list whose watermark is one of its sequence numbers. -/
structure FeedOk (vaas : List WormholescanVaa) (mark : ℕ) : Prop where
  newestFirst : NewestFirst vaas
  seen : mark = 0 ∨ ∃ v ∈ vaas, v.sequence = mark

theorem FeedOk.nil : FeedOk [] 0 := ⟨List.Pairwise.nil, .inl rfl⟩

theorem FeedOk.cons {vaas : List WormholescanVaa} {mark : ℕ} {item : WormholescanVaa}
    (h : FeedOk vaas mark) (hnewest : ∀ v ∈ vaas, v.sequence < item.sequence) :
    FeedOk (item :: vaas) mark := by
  refine ⟨List.pairwise_cons.mpr ⟨hnewest, h.newestFirst⟩, ?_⟩
  rcases h.seen with hzero | ⟨v, hv, hmark⟩
  · exact .inl hzero
  · exact .inr ⟨v, List.mem_cons_of_mem _ hv, hmark⟩

theorem FeedOk.advance {vaas recorded : List WormholescanVaa} {mark mark' : ℕ}
    (h : FeedOk vaas mark) (hadv : Advances recorded mark mark')
    (hrecorded : ∀ r ∈ recorded, r ∈ vaas) : FeedOk vaas mark' := by
  refine ⟨h.newestFirst, ?_⟩
  rcases hadv.attained with rfl | ⟨r, hr, heq⟩
  · exact h.seen
  · exact .inr ⟨r, hrecorded r hr, heq⟩

/-- Everything newer than an open entry clears the watermark. -/
def InSight (opens : WormholescanVaa → Prop) (vaas : List WormholescanVaa) (mark : ℕ) : Prop :=
  ∀ x ∈ vaas, opens x → ∀ y ∈ vaas, x.sequence < y.sequence → Clears mark y.sequence

/-- The open entries are yielded by every scan that gets to them, exactly if they are in sight. -/
theorem inSight_iff {opens : WormholescanVaa → Prop} {vaas : List WormholescanVaa}
    (hvaas : NewestFirst vaas) (store : WatermarkStore) (chainId : ℕ) (emitter : String) :
    (∀ scan : Paging, (∀ page, scan.fails page = false ∧ scan.aborted page = false) →
      ∀ i x, vaas[i]? = some x → opens x → i < scan.pageSize * scan.maxPages →
      x ∈ scan.yields vaas (pagingFloor store chainId emitter)) ↔
    InSight opens vaas (store.mark chainId emitter) := by
  constructor
  · intro hfinds x hx hopen y hy hnewer
    by_contra hclears
    obtain ⟨i, hi⟩ := List.mem_iff_getElem?.mp hx
    obtain ⟨hlt, -⟩ := List.getElem?_eq_some_iff.mp hi
    have hfound := hfinds (singles vaas) (fun _ => ⟨rfl, rfl⟩) i x hi hopen
      (by simpa [singles] using hlt)
    exact singles_not_yields hvaas hx hy hnewer hclears hfound
  · intro hsight scan hpages i x hi hopen hmax
    have hpos : 0 < scan.pageSize := Nat.pos_of_ne_zero (by rintro h; simp [h] at hmax)
    have hreach : scan.Reaches i := ⟨hpos, Nat.div_lt_of_lt_mul hmax, fun q _ => hpages q⟩
    exact Paging.yields_of_clears hvaas hi hreach (hsight x (List.mem_of_getElem? hi) hopen)

/-- A new entry keeps the open ones in sight: it is the newest. -/
theorem InSight.cons {opens opens' : WormholescanVaa → Prop} {vaas : List WormholescanVaa}
    {mark : ℕ} {item : WormholescanVaa} (h : InSight opens vaas mark) (hok : FeedOk vaas mark)
    (hnewest : ∀ v ∈ vaas, v.sequence < item.sequence)
    (hopens : ∀ x ∈ vaas, opens' x → opens x) : InSight opens' (item :: vaas) mark := by
  intro x hx hopen y hy hnewer
  rcases List.mem_cons.mp hx with rfl | hx
  · rcases List.mem_cons.mp hy with rfl | hy
    · exact absurd hnewer (lt_irrefl _)
    · exact absurd hnewer (hnewest y hy).not_gt
  · rcases List.mem_cons.mp hy with rfl | hy
    · rcases hok.seen with rfl | ⟨v, hv, rfl⟩
      · exact .inl (Nat.zero_le _)
      · exact .inr (Nat.lt_add_right _ (hnewest v hv))
    · exact h x hx (hopens x hx hopen) y hy hnewer

/-- A scan that does not yield an entry it can get to has a watermark above it. -/
theorem Paging.le_mark_of_not_yields {scan : Paging} {vaas : List WormholescanVaa}
    (hvaas : NewestFirst vaas) {store : WatermarkStore} {chainId : ℕ} {emitter : String} {i : ℕ}
    {r : WormholescanVaa} (hi : vaas[i]? = some r) (hreach : scan.Reaches i)
    (hmissed : r ∉ scan.yields vaas (pagingFloor store chainId emitter)) :
    r.sequence ≤ store.mark chainId emitter := by
  by_contra hlt
  refine hmissed (yields_of_clears hvaas hi hreach ?_)
  intro y _ hnewer
  exact .inr (Nat.lt_add_right _ ((not_le.mp hlt).trans hnewer))

/-- A watermark that moves up to what a scan records keeps the open entries in sight exactly if
everything newer than one of them clears what is recorded. -/
theorem InSight.advance_iff {opens opens' : WormholescanVaa → Prop} {vaas : List WormholescanVaa}
    {mark mark' : ℕ} {records : WormholescanVaa → Prop} (h : InSight opens vaas mark)
    (hopens : ∀ x ∈ vaas, opens' x → opens x)
    (hle : ∀ r ∈ vaas, records r → r.sequence ≤ mark')
    (hattained : mark' = mark ∨ ∃ r ∈ vaas, records r ∧ r.sequence = mark') :
    InSight opens' vaas mark' ↔ ∀ r ∈ vaas, records r → InSight opens' vaas r.sequence := by
  constructor
  · intro hsight r hr hrec x hx hopen y hy hnewer
    exact (hsight x hx hopen y hy hnewer).mono (hle r hr hrec) le_rfl
  · intro hsight x hx hopen y hy hnewer
    rcases hattained with rfl | ⟨r, hr, hrec, rfl⟩
    · exact h x hx (hopens x hx hopen) y hy hnewer
    · exact hsight r hr hrec x hx hopen y hy hnewer

end FogoYield.Cranker
