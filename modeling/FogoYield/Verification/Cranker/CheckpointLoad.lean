import FogoYield.Model.Cranker.Checkpoint

/-! # Loading a checkpoint

A file that was saved reads back as the store, and of all files only one kind makes the start of the
daemon throw. -/

namespace FogoYield.Cranker

open FogoYield.Library

/-! ## Watermarks as a map -/

namespace WatermarkMap

theorem get_set (store : WatermarkMap) (key : String) (value : ℤ) (other : String) :
    (store.set key value).get other = if other = key then some value else store.get other :=
  lookup_setEntry key value store.entries other

/-- The map of the file is the store of the scans. -/
theorem toStore_recordSeen (store : WatermarkMap) (chainId : ℕ) (emitter : String) (seq : ℕ) :
    (store.recordSeen chainId emitter seq).toStore =
      FogoYield.Cranker.recordSeen store.toStore chainId emitter seq := by
  have hcur : (store.toStore (watermarkKey chainId emitter)).getD 0 =
      ((store.get (watermarkKey chainId emitter)).getD 0).toNat := by
    rw [toStore]
    cases store.get (watermarkKey chainId emitter) <;> rfl
  have hset : (store.set (watermarkKey chainId emitter) seq).toStore =
      Function.update store.toStore (watermarkKey chainId emitter) (some seq) := by
    funext key
    rw [toStore, get_set, Function.update_apply]
    split
    · rfl
    · rfl
  rw [recordSeen, FogoYield.Cranker.recordSeen, hcur]
  generalize hkey : watermarkKey chainId emitter = k at hset ⊢
  generalize hcurrent : (store.get k).getD 0 = cur
  by_cases hnew : cur < seq
  · by_cases hnat : cur.toNat < seq
    · simp only [if_pos hnew, if_pos hnat, hset]
    · -- a watermark below zero counts as zero already
      have hget : store.get k = some cur := by
        cases hk : store.get k with
        | none =>
            rw [hk, Option.getD_none] at hcurrent
            omega
        | some value => rw [← hcurrent, hk, Option.getD_some]
      have hsame : store.toStore k = some seq := by
        rw [toStore, hget, Option.map_some]
        exact congrArg some (by omega)
      simp only [if_pos hnew, if_neg hnat, hset, ← hsame, Function.update_eq_self]
  · have hnat : ¬ cur.toNat < seq := by omega
    simp only [if_neg hnew, if_neg hnat]

/-- Setting the entries of a map builds the map. -/
theorem foldl_set (store : WatermarkMap) :
    store.entries.foldl (fun out e => out.set e.1 e.2) empty = store := by
  have hentries : (store.entries.foldl (fun out e => out.set e.1 e.2) empty).entries =
      store.entries.foldl (fun acc e => setEntry e.1 e.2 acc) [] :=
    (List.foldl_hom WatermarkMap.entries fun _ _ => rfl).symm
  exact WatermarkMap.ext (hentries.trans (foldl_setEntry store.nodup))

end WatermarkMap

/-! ## Snapshots -/

/-- The entries of a store as strings. -/
def WatermarkMap.texts (store : WatermarkMap) : Snapshot :=
  store.entries.map fun e => (e.1, toString e.2)

def WatermarkMap.keys (store : WatermarkMap) : List String := store.entries.map Prod.fst

theorem WatermarkMap.keys_texts (store : WatermarkMap) :
    store.texts.map Prod.fst = store.keys := by
  rw [texts, List.map_map]
  rfl

/-- A snapshot has every entry but that of `__proto__`. -/
theorem snapshotWatermarks_eq_filter (store : WatermarkMap) :
    snapshotWatermarks store = store.texts.filter (fun e => e.1 ≠ "__proto__") := by
  have hnodup : (store.texts.map Prod.fst).Nodup := store.keys_texts ▸ store.nodup
  have hassign : ∀ (out : Snapshot) (e : String × String), assignProperty out e.1 e.2 =
      if decide (e.1 ≠ "__proto__") = true then setEntry e.1 e.2 out else out := by
    intro out e
    by_cases hkey : e.1 = "__proto__" <;> simp [assignProperty, hkey]
  calc
    snapshotWatermarks store
        = store.texts.foldl (fun out e => assignProperty out e.1 e.2) [] := by
      rw [WatermarkMap.texts, List.foldl_map]
      rfl
    _ = (store.texts.filter (fun e => e.1 ≠ "__proto__")).foldl
          (fun out e => setEntry e.1 e.2 out) [] := by
      rw [List.foldl_filter]
      simp only [hassign]
    _ = store.texts.filter (fun e => e.1 ≠ "__proto__") :=
      foldl_setEntry (hnodup.sublist (List.filter_sublist.map Prod.fst))

theorem nodup_snapshotWatermarks (store : WatermarkMap) :
    ((snapshotWatermarks store).map Prod.fst).Nodup := by
  have hnodup : (store.texts.map Prod.fst).Nodup := store.keys_texts ▸ store.nodup
  rw [snapshotWatermarks_eq_filter]
  exact hnodup.sublist (List.filter_sublist.map Prod.fst)

theorem snapshotWatermarks_eq {store : WatermarkMap} (h : "__proto__" ∉ store.keys) :
    snapshotWatermarks store = store.texts := by
  rw [snapshotWatermarks_eq_filter]
  refine List.filter_eq_self.mpr ?_
  intro e he
  refine decide_eq_true ?_
  rintro hkey
  exact h (store.keys_texts ▸ hkey ▸ List.mem_map_of_mem he)

/-! ## The text of a checkpoint -/

def watermarksValue (snapshot : Snapshot) : Json :=
  .obj ((ownProperties snapshot).map fun e => (e.1, .str e.2))

theorem nodup_ownProperties {ν : Type} {fields : List (String × ν)}
    (h : (fields.map Prod.fst).Nodup) : ((ownProperties fields).map Prod.fst).Nodup :=
  (((ownProperties_perm fields).map Prod.fst).nodup_iff).mpr h

theorem readsAs_watermarks {snapshot : Snapshot} (h : (snapshot.map Prod.fst).Nodup) :
    Json.ReadsAs
      (Json.writeObject 1 ((ownProperties snapshot).map fun e => (e.1, Json.quote e.2)))
      (watermarksValue snapshot) := by
  refine Json.readsAs_writeObject ?_ ?_ 1
  · rw [List.forall₂_map_left_iff, List.forall₂_map_right_iff]
    exact List.forall₂_same.mpr fun e _ => ⟨rfl, Json.readsAs_quote e.2⟩
  · rw [List.map_map]
    exact nodup_ownProperties h

theorem readsAs_one : Json.ReadsAs ['1'] (.num 1) := by
  have hnumber : Json.number ['1'] = some 1 := by decide +kernel
  have hscalar : Json.scalar ['1'] = some (.num 1) := by simp [Json.scalar, hnumber]
  refine Json.readsAs_scalar ?_ hscalar
  rw [List.forall_mem_singleton]
  decide

theorem parse_checkpointText {snapshot : Snapshot} (h : (snapshot.map Prod.fst).Nodup)
    (updatedAt : String) :
    Json.parse (checkpointText snapshot updatedAt).toList =
      some (.obj [("version", .num 1), ("watermarks", watermarksValue snapshot),
        ("updatedAt", .str updatedAt)]) := by
  rw [checkpointText, String.toList_ofList]
  have hkeys : ["version", "watermarks", "updatedAt"].Nodup := by decide
  refine Json.parse_writeObject ?_ hkeys
  exact .cons ⟨rfl, readsAs_one⟩
    (.cons ⟨rfl, readsAs_watermarks h⟩ (.cons ⟨rfl, Json.readsAs_quote updatedAt⟩ .nil))

theorem isOne_one : isOne (.num 1) = true := by decide +kernel

theorem loadCheckpoint_checkpointText {snapshot : Snapshot} (h : (snapshot.map Prod.fst).Nodup)
    (updatedAt : String) :
    loadCheckpoint (some (checkpointText snapshot updatedAt)) =
      some ⟨watermarksValue snapshot, some (.str updatedAt)⟩ := by
  rw [loadCheckpoint, Option.bind_some, parse_checkpointText h, Option.bind_some]
  simp [List.lookup_cons, isOne_one, typeofObject, watermarksValue]

/-! ## Restoring -/

theorem restoreEntry_text (out : WatermarkMap) {k : String} (hk : IsCompositeKey k) (v : ℤ) :
    restoreEntry out k (.str (toString v)) = out.set k v := by
  have hvalue : Json.bigInt (.str (toString v)) = some v := stringToBigInt_toString v
  rw [restoreEntry, if_pos hk, hvalue]

theorem restoreWatermarks_texts {store : WatermarkMap}
    (h : ∀ e ∈ store.entries, IsCompositeKey e.1) :
    restoreWatermarks (watermarksValue store.texts) = some store := by
  have hkeys : ∀ f ∈ store.texts, arrayIndex f.1 = none := by
    intro f hf
    obtain ⟨e, he, rfl⟩ := List.mem_map.mp hf
    exact arrayIndex_of_colon (h e he)
  have hvalues : ∀ f ∈ store.texts.map (fun e => (e.1, Json.str e.2)), arrayIndex f.1 = none := by
    intro f hf
    obtain ⟨e, he, rfl⟩ := List.mem_map.mp hf
    exact hkeys e he
  have hentries : (watermarksValue store.texts).entries =
      some (store.texts.map fun e => (e.1, Json.str e.2)) := by
    rw [watermarksValue, ownProperties_of_none hkeys]
    exact congrArg some (ownProperties_of_none hvalues)
  have hrestore : (store.texts.map fun e => (e.1, Json.str e.2)).foldl
      (fun out e => restoreEntry out e.1 e.2) WatermarkMap.empty = store := by
    rw [WatermarkMap.texts, List.map_map, List.foldl_map]
    calc
      _ = store.entries.foldl (fun out e => out.set e.1 e.2) WatermarkMap.empty :=
        List.foldl_ext _ _ _ fun out e he => restoreEntry_text out (h e he) e.2
      _ = store := store.foldl_set
  rw [restoreWatermarks, hentries, Option.map_some, hrestore]

/-- What is saved of a store with composite keys reads back as the store. -/
theorem restore_checkpointText {store : WatermarkMap}
    (h : ∀ e ∈ store.entries, IsCompositeKey e.1) (updatedAt : String) :
    watermarksFromCheckpoint
      (loadCheckpoint (some (checkpointText (snapshotWatermarks store) updatedAt))) =
      some store := by
  have hproto : "__proto__" ∉ store.keys := by
    intro hmem
    obtain ⟨e, he, hkey⟩ := List.mem_map.mp hmem
    exact absurd (hkey ▸ h e he) (by decide)
  rw [loadCheckpoint_checkpointText (nodup_snapshotWatermarks store), snapshotWatermarks_eq hproto]
  exact restoreWatermarks_texts h

/-! ## Files of any content -/

/-- A file that says `null` where the watermarks belong. -/
def HasNullWatermarks (content : Option String) : Prop :=
  ∃ raw fields version, content = some raw ∧ Json.parse raw.toList = some (.obj fields) ∧
    fields.lookup "version" = some version ∧ isOne version ∧ fields.lookup "watermarks" = some .null

theorem loadCheckpoint_eq_some {content : Option String} {cp : CheckpointFile} :
    loadCheckpoint content = some cp ↔ ∃ raw fields version, content = some raw ∧
      Json.parse raw.toList = some (.obj fields) ∧ fields.lookup "version" = some version ∧
      isOne version ∧ fields.lookup "watermarks" = some cp.watermarks ∧
      typeofObject cp.watermarks ∧ fields.lookup "updatedAt" = cp.updatedAt := by
  constructor
  · intro h
    obtain ⟨parsed, hparsed, hread⟩ := Option.bind_eq_some_iff.mp h
    obtain ⟨raw, hraw, hparse⟩ := Option.bind_eq_some_iff.mp hparsed
    split at hread
    · rename_i fields
      split at hread
      · rename_i version watermarks hversion hwatermarks
        split at hread
        · rename_i hshape
          obtain rfl := Option.some.inj hread
          exact ⟨raw, fields, version, hraw, hparse, hversion, hshape.1, hwatermarks, hshape.2, rfl⟩
        · cases hread
      · cases hread
    · cases hread
  · rintro ⟨raw, fields, version, rfl, hparse, hversion, hone, hwatermarks, hobject, hupdated⟩
    rw [loadCheckpoint, Option.bind_some, hparse, Option.bind_some]
    simp only [hversion, hwatermarks, hone, hobject, hupdated, and_self, if_true]

theorem restoreWatermarks_isSome {snapshot : Json} :
    (restoreWatermarks snapshot).isSome ↔ snapshot ≠ .null := by
  rw [restoreWatermarks, Option.isSome_map, Option.isSome_iff_ne_none, Ne, entries_eq_none]

theorem hasNullWatermarks_iff {content : Option String} :
    HasNullWatermarks content ↔ ∃ cp, loadCheckpoint content = some cp ∧ cp.watermarks = .null := by
  constructor
  · rintro ⟨raw, fields, version, hraw, hparse, hversion, hone, hwatermarks⟩
    exact ⟨⟨.null, fields.lookup "updatedAt"⟩, loadCheckpoint_eq_some.mpr
      ⟨raw, fields, version, hraw, hparse, hversion, hone, hwatermarks, rfl, rfl⟩, rfl⟩
  · rintro ⟨cp, hload, hnull⟩
    obtain ⟨raw, fields, version, hraw, hparse, hversion, hone, hwatermarks, -, -⟩ :=
      loadCheckpoint_eq_some.mp hload
    exact ⟨raw, fields, version, hraw, hparse, hversion, hone, hnull ▸ hwatermarks⟩

theorem watermarksFromCheckpoint_isSome (content : Option String) :
    (watermarksFromCheckpoint (loadCheckpoint content)).isSome ↔ ¬ HasNullWatermarks content := by
  rw [hasNullWatermarks_iff]
  cases loadCheckpoint content with
  | none => simp [watermarksFromCheckpoint]
  | some cp =>
      rw [watermarksFromCheckpoint, restoreWatermarks_isSome]
      simp

/-- The line that is logged throws for no other file. -/
theorem restoreCheckpoint_isSome (content : Option String) :
    (restoreCheckpoint content).isSome ↔
      (watermarksFromCheckpoint (loadCheckpoint content)).isSome := by
  rw [restoreCheckpoint]
  cases loadCheckpoint content with
  | none => exact Iff.rfl
  | some cp =>
      simp only [watermarksFromCheckpoint, restoreWatermarks]
      cases cp.watermarks.entries with
      | none => exact Iff.rfl
      | some entries => exact ⟨fun _ => rfl, fun _ => rfl⟩

/-! ## Saved files -/

theorem SaveCall.path_ne_tmp (call : SaveCall) : call.path ≠ call.tmp := by
  intro h
  have hlength := congrArg String.length h
  rw [SaveCall.tmp, String.length_append] at hlength
  have hsuffix : (".tmp" : String).length = 4 := rfl
  omega

/-- The whole text that a call saves. -/
def SaveCall.text (call : SaveCall) : String :=
  checkpointText (snapshotWatermarks call.store) call.updatedAt

def SaveCall.hash (sha256 : List Char → String) (call : SaveCall) : String :=
  hashWatermarks sha256 (snapshotWatermarks call.store)

/-- The state in which the temporary file is not complete yet. -/
def SaveCall.opened (s : SaveState) (call : SaveCall) : SaveState :=
  call.faults.partials.foldl (fun s text => s.write call.tmp text) s

/-- What a call can do. -/
inductive SaveEffect (sha256 : List Char → String) (s : SaveState) (call : SaveCall) :
    SaveState × Except SaveError Bool → Prop where
  | unchanged (hsame : s.lastWrittenHash call.path = some (call.hash sha256)) :
      SaveEffect sha256 s call (s, .ok false)
  | mkdir : SaveEffect sha256 s call (s, .error .mkdir)
  | write : SaveEffect sha256 s call (call.opened s, .error .write)
  | rename : SaveEffect sha256 s call ((call.opened s).write call.tmp call.text, .error .rename)
  | done : SaveEffect sha256 s call
      ((((call.opened s).write call.tmp call.text).rename call.tmp call.path).remember call.path
        (call.hash sha256), .ok true)

theorem saveCheckpoint_effect (sha256 : List Char → String) (s : SaveState) (call : SaveCall) :
    SaveEffect sha256 s call (saveCheckpoint sha256 s call) := by
  unfold saveCheckpoint
  dsimp only
  split
  · exact .unchanged ‹_›
  split
  · exact .mkdir
  split
  · exact .write
  split
  · exact .rename
  · exact .done

theorem disk_done (s : SaveState) (call : SaveCall) (text hash : String) :
    (((s.write call.tmp text).rename call.tmp call.path).remember call.path hash).disk call.path =
      some text := by
  simp only [SaveState.remember, SaveState.rename, SaveState.write, SaveState.setDisk]
  rw [Function.update_of_ne call.path_ne_tmp, Function.update_self, Function.update_self]

/-- A call that returns `true` has written the file. -/
theorem disk_of_saveCheckpoint {sha256 : List Char → String} {s : SaveState} {call : SaveCall}
    (h : (saveCheckpoint sha256 s call).2 = .ok true) :
    (saveCheckpoint sha256 s call).1.disk call.path = some call.text := by
  have heffect := saveCheckpoint_effect sha256 s call
  generalize saveCheckpoint sha256 s call = out at h heffect ⊢
  cases heffect with
  | unchanged hsame => cases h
  | mkdir => cases h
  | write => cases h
  | rename => cases h
  | done => exact disk_done _ call _ _

/-- Loading throws for the files that have `null` for their watermarks and for no others, and what
was saved of a store with composite keys loads as that store. -/
theorem checkpoint_loading (sha256 : List Char → String) :
    (∀ content, (watermarksFromCheckpoint (loadCheckpoint content)).isSome ↔
      ¬ HasNullWatermarks content) ∧
      ∀ (s : SaveState) (call : SaveCall), (∀ e ∈ call.store.entries, IsCompositeKey e.1) →
        (saveCheckpoint sha256 s call).2 = .ok true →
          watermarksFromCheckpoint
            (loadCheckpoint ((saveCheckpoint sha256 s call).1.disk call.path)) =
            some call.store := by
  refine ⟨watermarksFromCheckpoint_isSome, ?_⟩
  intro s call hkeys hsaved
  rw [disk_of_saveCheckpoint hsaved]
  exact restore_checkpointText hkeys call.updatedAt

/-- A store with one watermark. -/
theorem checkpoint_loading_one :
    let store : WatermarkMap := ⟨[("1:ab", 7)], List.nodup_singleton _⟩
    let call : SaveCall := ⟨"cp.json", store, "", ⟨false, [], false, false⟩⟩
    watermarksFromCheckpoint (loadCheckpoint
      ((saveCheckpoint String.ofList (.start fun _ => none) call).1.disk call.path)) =
      some store := by
  intro store call
  have hkeys : ∀ e ∈ store.entries, IsCompositeKey e.1 := by decide
  exact (checkpoint_loading String.ofList).2 _ call hkeys rfl

/-- A file with `null` for its watermarks. -/
theorem loading_throws : (watermarksFromCheckpoint
    (loadCheckpoint (some "\x7b\"version\":1,\"watermarks\":null\x7d"))).isSome = false := by
  decide +kernel

end FogoYield.Cranker
