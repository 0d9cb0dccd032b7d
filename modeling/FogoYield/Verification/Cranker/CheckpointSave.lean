import FogoYield.Library.Lines
import FogoYield.Library.Run
import FogoYield.Verification.Cranker.CheckpointLoad

/-! # Saving checkpoints

The file changes by renaming only, and the memo is written after it; so the memo never runs ahead of
the file, wherever a call throws. The hash tells the watermarks apart. -/

namespace FogoYield.Cranker

open FogoYield.Library

/-! ## The hash -/

def NulFree (entries : List (String × String)) : Prop :=
  ∀ e ∈ entries, '\x00' ∉ e.1.toList ∧ '\x00' ∉ e.2.toList

theorem hashedText_injective {l m : List (String × String)} (hl : NulFree l) (hm : NulFree m)
    (h : hashedText l = hashedText m) : l = m := by
  induction l generalizing m with
  | nil =>
      cases m with
      | nil => rfl
      | cons e m => simp [hashedText] at h
  | cons e l ih =>
      cases m with
      | nil => simp [hashedText] at h
      | cons f m =>
          obtain ⟨⟨hkey, hvalue⟩, hl⟩ := List.forall_mem_cons.mp hl
          obtain ⟨⟨hkey', hvalue'⟩, hm⟩ := List.forall_mem_cons.mp hm
          have hsplit : ∀ (e : String × String) (l : List (String × String)),
              hashedText (e :: l) =
                e.1.toList ++ '\x00' :: (e.2.toList ++ '\x00' :: hashedText l) := by
            intro e l
            simp [hashedText]
          rw [hsplit, hsplit] at h
          obtain ⟨hfirst, hrest⟩ := append_cons_cancel hkey hkey' h
          obtain ⟨hsecond, htail⟩ := append_cons_cancel hvalue hvalue' hrest
          rw [Prod.ext (String.toList_injective hfirst) (String.toList_injective hsecond), ih hl hm htail]

/-- The hashed entries are those of the snapshot. -/
theorem sortedEntries_perm {snapshot : Snapshot} (h : (snapshot.map Prod.fst).Nodup) :
    ((sortedKeys snapshot).map fun k => (k, (snapshot.lookup k).getD "")).Perm snapshot := by
  have hkeys : (sortedKeys snapshot).Perm (snapshot.map Prod.fst) :=
    (List.mergeSort_perm _ _).trans ((ownProperties_perm snapshot).map Prod.fst)
  have hentries : (snapshot.map Prod.fst).map (fun k => (k, (snapshot.lookup k).getD "")) =
      snapshot := by
    rw [List.map_map]
    refine (List.map_congr_left fun e he => ?_).trans (List.map_id snapshot)
    rw [Function.comp_apply, lookup_of_mem h he]
    rfl
  exact (hkeys.map _).trans (.of_eq hentries)

/-- The order of the insertions does not matter for the hash. -/
theorem hashInput_of_perm {a b : Snapshot} (ha : (a.map Prod.fst).Nodup) (h : a.Perm b) :
    hashInput a = hashInput b := by
  have hpairwise : ∀ snapshot : Snapshot, (sortedKeys snapshot).Pairwise
      (fun k l => unitsLe (utf16 k.toList) (utf16 l.toList) = true) := by
    intro snapshot
    refine List.pairwise_mergeSort ?_ ?_ _
    · intro k l m hkl hlm
      exact unitsLe_trans hkl hlm
    · intro k l
      simpa using unitsLe_total (utf16 k.toList) (utf16 l.toList)
  have hkeys : (sortedKeys a).Perm (sortedKeys b) :=
    (List.mergeSort_perm _ _).trans
      ((((ownProperties_perm a).trans (h.trans (ownProperties_perm b).symm)).map Prod.fst).trans
        (List.mergeSort_perm _ _).symm)
  have hsorted : sortedKeys a = sortedKeys b := by
    refine List.Perm.eq_of_pairwise ?_ (hpairwise a) (hpairwise b) hkeys
    intro k l _ _ hkl hlk
    exact String.toList_injective (utf16_injective (unitsLe_antisymm hkl hlk))
  have hlookup : ∀ k ∈ sortedKeys a, a.lookup k = b.lookup k := by
    intro k hk
    have hmem : k ∈ a.map Prod.fst :=
      ((List.mergeSort_perm _ _).trans ((ownProperties_perm a).map Prod.fst)).subset hk
    obtain ⟨e, he, rfl⟩ := List.mem_map.mp hmem
    have hb : (b.map Prod.fst).Nodup := (h.map Prod.fst).nodup_iff.mp ha
    rw [lookup_of_mem ha he, lookup_of_mem hb (h.subset he)]
  rw [hashInput, hashInput, ← hsorted]
  refine congrArg hashedText (List.map_congr_left ?_)
  intro k hk
  rw [hlookup k hk]

theorem perm_of_hashInput {a b : Snapshot} (ha : (a.map Prod.fst).Nodup)
    (hb : (b.map Prod.fst).Nodup) (hna : NulFree a) (hnb : NulFree b)
    (h : hashInput a = hashInput b) : a.Perm b := by
  have hpa := sortedEntries_perm ha
  have hpb := sortedEntries_perm hb
  have hsame := hashedText_injective (fun e he => hna e (hpa.subset he))
    (fun e he => hnb e (hpb.subset he)) h
  exact hpa.symm.trans ((List.Perm.of_eq hsame).trans hpb)

theorem nulFree_snapshot {store : WatermarkMap} (h : ∀ k ∈ store.keys, '\x00' ∉ k.toList) :
    NulFree (snapshotWatermarks store) := by
  intro f hf
  rw [snapshotWatermarks_eq_filter] at hf
  obtain ⟨e, he, rfl⟩ := List.mem_map.mp (List.mem_filter.mp hf).1
  refine ⟨h e.1 (List.mem_map_of_mem he), ?_⟩
  have hdigits : ∀ n, '\x00' ∉ Nat.toDigits 10 n := fun n hmem =>
    absurd (Nat.isDigit_of_mem_toDigits (by decide) (by decide) hmem) (by decide)
  rw [toString_int_toList]
  split
  · exact hdigits _
  · exact List.not_mem_cons_of_ne_of_not_mem (by decide) (hdigits _)

/-! ## One call -/

/-- Nothing happens to a file and to its memo. -/
structure Kept (path : String) (s t : SaveState) : Prop where
  disk : t.disk path = s.disk path
  memo : t.lastWrittenHash path = s.lastWrittenHash path
  moments : ∀ d ∈ t.moments, d ∈ s.moments ∨ d path = s.disk path

variable {path : String} {s t u : SaveState} {sha256 : List Char → String} {call : SaveCall}

theorem Kept.refl (s : SaveState) : Kept path s s := ⟨rfl, rfl, fun _ h => .inl h⟩

theorem Kept.trans (hst : Kept path s t) (htu : Kept path t u) : Kept path s u where
  disk := htu.disk.trans hst.disk
  memo := htu.memo.trans hst.memo
  moments := by
    intro d hd
    rcases htu.moments d hd with hold | hnew
    · exact hst.moments d hold
    · exact .inr (hnew.trans hst.disk)

theorem kept_setDisk {disk : Disk} (h : disk path = s.disk path) : Kept path s (s.setDisk disk) where
  disk := h
  memo := rfl
  moments := by
    intro d hd
    rcases List.mem_append.mp hd with hold | hnew
    · exact .inl hold
    · exact .inr (List.mem_singleton.mp hnew ▸ h)

theorem kept_write {target : String} (h : target ≠ path) (s : SaveState) (text : String) :
    Kept path s (s.write target text) :=
  kept_setDisk (Function.update_of_ne h.symm _ _)

theorem kept_partials {target : String} (h : target ≠ path) (texts : List String) (s : SaveState) :
    Kept path s (texts.foldl (fun s text => s.write target text) s) := by
  induction texts generalizing s with
  | nil => exact .refl s
  | cons text texts ih => exact (kept_write h s text).trans (ih _)

theorem kept_rename {source target : String} (hsource : source ≠ path) (htarget : target ≠ path)
    (s : SaveState) : Kept path s (s.rename source target) :=
  kept_setDisk ((Function.update_of_ne hsource.symm _ _).trans
    (Function.update_of_ne htarget.symm _ _))

theorem kept_remember {target : String} (h : target ≠ path) (s : SaveState) (hash : String) :
    Kept path s (s.remember target hash) :=
  ⟨rfl, Function.update_of_ne h.symm _ _, fun _ hd => .inl hd⟩

/-- What a call has written, with its memo. -/
structure Written (sha256 : List Char → String) (call : SaveCall) (s t : SaveState) : Prop where
  disk : t.disk call.path = some call.text
  memo : t.lastWrittenHash call.path = some (call.hash sha256)
  moments : ∀ d ∈ t.moments, d ∈ s.moments ∨ d call.path = s.disk call.path ∨
    d call.path = some call.text

theorem saveCheckpoint_at (sha256 : List Char → String) (s : SaveState) (h : call.tmp ≠ path) :
    Kept path s (saveCheckpoint sha256 s call).1 ∨
      call.path = path ∧ Written sha256 call s (saveCheckpoint sha256 s call).1 := by
  have heffect := saveCheckpoint_effect sha256 s call
  generalize saveCheckpoint sha256 s call = out at heffect ⊢
  have hopened : Kept path s (call.opened s) := kept_partials h call.faults.partials s
  have hwritten := hopened.trans (kept_write h _ call.text)
  cases heffect with
  | unchanged hsame => exact .inl (.refl s)
  | mkdir => exact .inl (.refl s)
  | write => exact .inl hopened
  | rename => exact .inl hwritten
  | done =>
      by_cases hpath : call.path = path
      · subst hpath
        refine .inr ⟨rfl, disk_done _ call _ _, Function.update_self .., ?_⟩
        intro d hd
        rcases List.mem_append.mp hd with hold | hnew
        · exact (hwritten.moments d hold).imp_right .inl
        · rw [List.mem_singleton.mp hnew]
          exact .inr (.inr (disk_done _ call _ ""))
      · exact .inl (hwritten.trans
          ((kept_rename h hpath _).trans (kept_remember hpath _ _)))

/-! ## Skipping -/

theorem memo_of_saveCheckpoint {b : Bool} (h : (saveCheckpoint sha256 s call).2 = .ok b) :
    (saveCheckpoint sha256 s call).1.lastWrittenHash call.path = some (call.hash sha256) := by
  have heffect := saveCheckpoint_effect sha256 s call
  generalize saveCheckpoint sha256 s call = out at h heffect ⊢
  cases heffect with
  | unchanged hsame => exact hsame
  | mkdir => cases h
  | write => cases h
  | rename => cases h
  | done => exact Function.update_self ..

/-- The same watermarks are not written again, in whatever order they have come. -/
theorem saveCheckpoint_again {again : SaveCall} {b : Bool} (hpath : again.path = call.path)
    (hperm : (snapshotWatermarks call.store).Perm (snapshotWatermarks again.store))
    (h : (saveCheckpoint sha256 s call).2 = .ok b) :
    saveCheckpoint sha256 (saveCheckpoint sha256 s call).1 again =
      ((saveCheckpoint sha256 s call).1, .ok false) := by
  have hmemo := memo_of_saveCheckpoint h
  have hhash : call.hash sha256 = hashWatermarks sha256 (snapshotWatermarks again.store) :=
    congrArg sha256 (hashInput_of_perm (nodup_snapshotWatermarks call.store) hperm)
  rw [hhash, ← hpath] at hmemo
  exact if_pos hmemo

/-! ## Runs -/

def SaveStep (sha256 : List Char → String) (s : SaveState) (call : SaveCall) (t : SaveState) :
    Prop :=
  (saveCheckpoint sha256 s call).1 = t

abbrev SaveHistory := List (Transition SaveState SaveCall)

/-- The content is the snapshot of a store that was to be saved. -/
def IsSaved (ts : SaveHistory) (path : String) (content : Option String) : Prop :=
  ∃ tr ∈ ts, tr.act.path = path ∧ content = some tr.act.text

theorem IsSaved.mono {ts : SaveHistory} {content : Option String} (h : IsSaved ts path content)
    (more : SaveHistory) : IsSaved (ts ++ more) path content := by
  obtain ⟨tr, htr, hsaved⟩ := h
  exact ⟨tr, List.mem_append_left _ htr, hsaved⟩

/-- The file is what it was or what was saved, and the memo is not ahead of it. -/
structure Consistent (sha256 : List Char → String) (path : String) (initial : Disk)
    (ts : SaveHistory) (s : SaveState) : Prop where
  now : s.disk path = initial path ∨ IsSaved ts path (s.disk path)
  moments : ∀ d ∈ s.moments, d path = initial path ∨ IsSaved ts path (d path)
  memo : ∀ hash, s.lastWrittenHash path = some hash → ∃ tr ∈ ts, tr.act.path = path ∧
    hash = tr.act.hash sha256 ∧ s.disk path = some tr.act.text

variable {initial : Disk} {ts : SaveHistory}

theorem consistent_start (sha256 : List Char → String) (path : String) (initial : Disk) :
    Consistent sha256 path initial [] (.start initial) where
  now := .inl rfl
  moments := by
    intro d hd
    exact .inl (List.mem_singleton.mp hd ▸ rfl)
  memo := nofun

theorem Consistent.kept (h : Consistent sha256 path initial ts s) (hkept : Kept path s t)
    (more : SaveHistory) : Consistent sha256 path initial (ts ++ more) t where
  now := by
    rw [hkept.disk]
    exact h.now.imp_right fun hsaved => hsaved.mono more
  moments := by
    intro d hd
    rcases hkept.moments d hd with hold | hsame
    · exact (h.moments d hold).imp_right fun hsaved => hsaved.mono more
    · rw [hsame]
      exact h.now.imp_right fun hsaved => hsaved.mono more
  memo := by
    intro hash hmemo
    rw [hkept.memo] at hmemo
    obtain ⟨tr, htr, hrest⟩ := h.memo hash hmemo
    rw [hkept.disk]
    exact ⟨tr, List.mem_append_left _ htr, hrest⟩

theorem Consistent.written (h : Consistent sha256 call.path initial ts s)
    (hwritten : Written sha256 call s t) :
    Consistent sha256 call.path initial (ts ++ [⟨s, call, t⟩]) t := by
  have hlast : (⟨s, call, t⟩ : Transition SaveState SaveCall) ∈ ts ++ [⟨s, call, t⟩] :=
    List.mem_append_right _ (List.mem_singleton_self _)
  refine ⟨.inr ⟨_, hlast, rfl, hwritten.disk⟩, ?_, ?_⟩
  · intro d hd
    rcases hwritten.moments d hd with hold | hsame | hnew
    · exact (h.moments d hold).imp_right fun hsaved => hsaved.mono _
    · rw [hsame]
      exact h.now.imp_right fun hsaved => hsaved.mono _
    · exact .inr ⟨_, hlast, rfl, hnew⟩
  · intro hash hmemo
    rw [hwritten.memo] at hmemo
    exact ⟨_, hlast, rfl, (Option.some.inj hmemo).symm, hwritten.disk⟩

theorem Consistent.step (h : Consistent sha256 path initial ts s) (hother : call.tmp ≠ path)
    (hstep : SaveStep sha256 s call t) :
    Consistent sha256 path initial (ts ++ [⟨s, call, t⟩]) t := by
  have hat := saveCheckpoint_at sha256 s hother
  rw [hstep] at hat
  rcases hat with hkept | ⟨rfl, hwritten⟩
  · exact h.kept hkept _
  · exact h.written hwritten

theorem consistent_of_run (hr : Run (SaveStep sha256) (.start initial) ts s)
    (hother : ∀ tr ∈ ts, tr.act.tmp ≠ path) : Consistent sha256 path initial ts s := by
  refine @Run.history_invariant _ _ _
    (fun ts s => (∀ tr ∈ ts, tr.act.tmp ≠ path) → Consistent sha256 path initial ts s)
    _ _ _ ?_ ?_ hr hother
  · exact fun _ => consistent_start sha256 path initial
  · intro ts s call t _ ih hstep hother
    rw [List.forall_mem_append, List.forall_mem_singleton] at hother
    exact (ih hother.1).step hother.2 hstep

/-- Behind a call that returned the file holds a text with the same hash. -/
theorem returned (hr : Run (SaveStep sha256) (.start initial) ts s)
    (hother : ∀ tr ∈ ts, tr.act.tmp ≠ path) {tr : Transition SaveState SaveCall} (htr : tr ∈ ts)
    (hpath : tr.act.path = path) {b : Bool}
    (hok : (saveCheckpoint sha256 tr.pre tr.act).2 = .ok b) :
    ∃ saved ∈ ts, saved.act.hash sha256 = tr.act.hash sha256 ∧
      tr.post.disk path = some saved.act.text := by
  obtain ⟨before, after, rfl⟩ := List.append_of_mem htr
  obtain ⟨hbefore, hstep, -⟩ := hr.split
  have hconsistent := consistent_of_run hbefore
    (fun u hu => hother u (List.mem_append_left _ hu))
  rw [← hstep]
  have heffect := saveCheckpoint_effect sha256 tr.pre tr.act
  generalize saveCheckpoint sha256 tr.pre tr.act = out at hok heffect ⊢
  cases heffect with
  | unchanged hsame =>
      rw [hpath] at hsame
      obtain ⟨saved, hsaved, -, hhash, hdisk⟩ := hconsistent.memo _ hsame
      exact ⟨saved, List.mem_append_left _ hsaved, hhash.symm, hdisk⟩
  | mkdir => cases hok
  | write => cases hok
  | rename => cases hok
  | done => exact ⟨tr, htr, rfl, hpath ▸ disk_done _ tr.act _ _⟩

/-! ## The watermarks of a file -/

/-- The file has the entries of the store for its watermarks. -/
def HoldsStore (content : Option String) (store : WatermarkMap) : Prop :=
  ∃ (cp : CheckpointFile) (entries : Snapshot), loadCheckpoint content = some cp ∧
    cp.watermarks = .obj (entries.map fun e => (e.1, .str e.2)) ∧ entries.Perm store.texts

theorem holdsStore_text {call : SaveCall} {store : WatermarkMap}
    (h : (snapshotWatermarks call.store).Perm store.texts) :
    HoldsStore (some call.text) store :=
  ⟨_, _, loadCheckpoint_checkpointText (nodup_snapshotWatermarks call.store) call.updatedAt, rfl,
    (ownProperties_perm _).trans h⟩

/-- Whatever calls there were and wherever they threw, the file has at no moment held anything but
its first content or the snapshot of a store; and behind a call that returned it holds the store of
that call, unless that has the key `__proto__`. -/
theorem saving_consistent (hr : Run (SaveStep sha256) (.start initial) ts s)
    (hsha : Set.InjOn sha256
      (fun text => ∃ tr ∈ ts, text = hashInput (snapshotWatermarks tr.act.store)))
    (hnul : ∀ tr ∈ ts, ∀ k ∈ tr.act.store.keys, '\x00' ∉ k.toList)
    (hother : ∀ tr ∈ ts, tr.act.tmp ≠ path) :
    (∀ d ∈ s.moments, d path = initial path ∨ IsSaved ts path (d path)) ∧
      ∀ tr ∈ ts, tr.act.path = path → "__proto__" ∉ tr.act.store.keys →
        ∀ b, (saveCheckpoint sha256 tr.pre tr.act).2 = .ok b →
          HoldsStore (tr.post.disk path) tr.act.store := by
  refine ⟨(consistent_of_run hr hother).moments, ?_⟩
  intro tr htr hpath hproto b hok
  obtain ⟨saved, hsaved, hhash, hdisk⟩ := returned hr hother htr hpath hok
  have hinput : hashInput (snapshotWatermarks saved.act.store) =
      hashInput (snapshotWatermarks tr.act.store) :=
    hsha ⟨saved, hsaved, rfl⟩ ⟨tr, htr, rfl⟩ hhash
  have hperm := perm_of_hashInput (nodup_snapshotWatermarks saved.act.store)
    (nodup_snapshotWatermarks tr.act.store) (nulFree_snapshot (hnul saved hsaved))
    (nulFree_snapshot (hnul tr htr)) hinput
  rw [snapshotWatermarks_eq hproto] at hperm
  exact hdisk ▸ holdsStore_text hperm

/-- A store that has grown in another order, which is not written again. -/
theorem saving_consistent_reordered :
    let first : WatermarkMap := ⟨[("1:ab", 7), ("51:cd", 9)], by decide⟩
    let second : WatermarkMap := ⟨[("51:cd", 9), ("1:ab", 7)], by decide⟩
    let call : SaveCall := ⟨"cp.json", first, "", ⟨false, ["half"], false, false⟩⟩
    let again : SaveCall := ⟨"cp.json", second, "", ⟨false, [], false, false⟩⟩
    ∃ s, SaveStep String.ofList (.start fun _ => none) call s ∧
      saveCheckpoint String.ofList s again = (s, .ok false) ∧
      HoldsStore (s.disk "cp.json") second := by
  intro first second call again
  have hperm : (snapshotWatermarks call.store).Perm (snapshotWatermarks again.store) := by decide
  have hfirst : (saveCheckpoint String.ofList (.start fun _ => none) call).2 = .ok true := rfl
  have hpath : again.path = call.path := rfl
  have hagain := saveCheckpoint_again hpath hperm hfirst
  have hcall : SaveStep String.ofList (.start fun _ => none) call
      (saveCheckpoint String.ofList (.start fun _ => none) call).1 := rfl
  generalize (saveCheckpoint String.ofList (.start fun _ => none) call).1 = s at hagain hcall
  have hstep : SaveStep String.ofList s again s := by rw [SaveStep, hagain]
  have hrun := Run.snoc (Run.snoc (.nil _) hcall) hstep
  generalize hts : ([] ++ [⟨.start fun _ => none, call, s⟩] ++ [⟨s, again, s⟩] : SaveHistory) = ts
    at hrun
  have hacts : ∀ tr ∈ ts, tr.act = call ∨ tr.act = again := by simp [← hts]
  have hlast : (⟨s, again, s⟩ : Transition SaveState SaveCall) ∈ ts := by simp [← hts]
  have hnul : ∀ tr ∈ ts, ∀ k ∈ tr.act.store.keys, '\x00' ∉ k.toList := by
    intro tr htr
    rcases hacts tr htr with h | h
    · rw [h]
      decide
    · rw [h]
      decide
  have hother : ∀ tr ∈ ts, tr.act.tmp ≠ "cp.json" := by
    intro tr htr
    rcases hacts tr htr with h | h
    · rw [h]
      decide
    · rw [h]
      decide
  have hproto : "__proto__" ∉ again.store.keys := by decide
  have hholds := (saving_consistent hrun (fun _ _ _ _ h => String.ofList_injective h) hnul
    hother).2 _ hlast rfl hproto false (congrArg Prod.snd hagain)
  exact ⟨s, hcall, hagain, hholds⟩

/-- A key that a plain object does not take. -/
theorem saving_loses_proto :
    let store : WatermarkMap := ⟨[("__proto__", 7)], List.nodup_singleton _⟩
    let call : SaveCall := ⟨"cp.json", store, "", ⟨false, [], false, false⟩⟩
    (∀ k ∈ store.keys, '\x00' ∉ k.toList) ∧ call.tmp ≠ "cp.json" ∧
      ∃ s, SaveStep String.ofList (.start fun _ => none) call s ∧
        (saveCheckpoint String.ofList (.start fun _ => none) call).2 = .ok true ∧
        ¬ HoldsStore (s.disk "cp.json") store := by
  intro store call
  have hsaved : (saveCheckpoint String.ofList (.start fun _ => none) call).2 = .ok true := rfl
  have hdisk := disk_of_saveCheckpoint hsaved
  refine ⟨by decide, by decide, _, rfl, hsaved, ?_⟩
  rintro ⟨cp, entries, hload, hwatermarks, hperm⟩
  have hempty : snapshotWatermarks store = [] := by decide
  rw [hdisk, SaveCall.text, loadCheckpoint_checkpointText (nodup_snapshotWatermarks _), hempty,
    Option.some.injEq] at hload
  have hnone : ownProperties ([] : Snapshot) = [] := ownProperties_of_none (by simp)
  rw [← hload, watermarksValue, hnone] at hwatermarks
  have hentries : entries = [] := List.map_eq_nil_iff.mp (Json.obj.inj hwatermarks).symm
  rw [hentries] at hperm
  exact absurd hperm.length_eq (by decide)

end FogoYield.Cranker
