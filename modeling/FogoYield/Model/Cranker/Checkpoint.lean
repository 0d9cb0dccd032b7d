import FogoYield.Library.JsValue
import FogoYield.Library.JsonText
import FogoYield.Model.Cranker.Watermarks

/-! # Checkpoints

`packages/cranker/src/state/checkpoint.ts`, with `snapshotWatermarks` and `restoreWatermarks` of
`watermarks.ts`. A file is the text that it holds. -/

namespace FogoYield.Cranker

open FogoYield.Library

/-! ## Watermarks as a map -/

/-- `Map<string, bigint>` with its order. -/
@[ext]
structure WatermarkMap where
  entries : List (String × ℤ)
  nodup : (entries.map Prod.fst).Nodup

namespace WatermarkMap

def empty : WatermarkMap := ⟨[], List.nodup_nil⟩

def get (store : WatermarkMap) (key : String) : Option ℤ := store.entries.lookup key

def set (store : WatermarkMap) (key : String) (value : ℤ) : WatermarkMap :=
  ⟨setEntry key value store.entries, nodup_setEntry store.nodup key value⟩

/-- `recordSeen`. -/
def recordSeen (store : WatermarkMap) (chainId : ℕ) (emitter : String) (seq : ℕ) : WatermarkMap :=
  let k := watermarkKey chainId emitter
  let cur := (store.get k).getD 0
  if cur < seq then store.set k seq else store

/-- The watermarks as the scans read them. -/
def toStore (store : WatermarkMap) : WatermarkStore := fun key => (store.get key).map Int.toNat

end WatermarkMap

/-- The properties of a plain object, in the order of their insertion. -/
abbrev Snapshot := List (String × String)

/-- `out[k] = v` with a string: the setter of `__proto__` takes objects only. -/
def assignProperty (out : Snapshot) (k v : String) : Snapshot :=
  if k = "__proto__" then out else setEntry k v out

def snapshotWatermarks (store : WatermarkMap) : Snapshot :=
  store.entries.foldl (fun out e => assignProperty out e.1 (toString e.2)) []

/-- Whether a key has the chain id in front of it. -/
def IsCompositeKey (k : String) : Prop := ':' ∈ k.toList

instance (k : String) : Decidable (IsCompositeKey k) := inferInstanceAs (Decidable (_ ∈ _))

def restoreEntry (out : WatermarkMap) (k : String) (v : Json) : WatermarkMap :=
  if IsCompositeKey k then
    match v.bigInt with
    | some value => out.set k value
    | none => out
  else out

/-- Without a store if `Object.entries` throws. -/
def restoreWatermarks (snapshot : Json) : Option WatermarkMap :=
  snapshot.entries.map fun entries =>
    entries.foldl (fun out e => restoreEntry out e.1 e.2) WatermarkMap.empty

/-! ## Loading -/

/-- What is read of a parsed file. -/
structure CheckpointFile where
  watermarks : Json
  updatedAt : Option Json

/-- `=== 1`. -/
def isOne : Json → Bool
  | .num x => toDouble x = some 1
  | _ => false

/-- `typeof … === 'object'`. -/
def typeofObject : Json → Bool
  | .null => true
  | .arr _ => true
  | .obj _ => true
  | _ => false

/-- `loadCheckpoint` of what `readFileSync` returned, if it returned. Reading a property of `null`
throws, and a value that is no object has no `version`. -/
def loadCheckpoint (content : Option String) : Option CheckpointFile :=
  (content.bind fun raw => Json.parse raw.toList).bind fun parsed =>
    match parsed with
    | .obj fields =>
      match fields.lookup "version", fields.lookup "watermarks" with
      | some version, some watermarks =>
        if isOne version ∧ typeofObject watermarks then
          some ⟨watermarks, fields.lookup "updatedAt"⟩
        else none
      | _, _ => none
    | _ => none

/-- Without a store if it throws. -/
def watermarksFromCheckpoint : Option CheckpointFile → Option WatermarkMap
  | none => some WatermarkMap.empty
  | some cp => restoreWatermarks cp.watermarks

/-- The start of `main`: the store, and the number of emitters that is logged. -/
def restoreCheckpoint (content : Option String) : Option (WatermarkMap × Option ℕ) :=
  let checkpoint := loadCheckpoint content
  (watermarksFromCheckpoint checkpoint).bind fun watermarks =>
    match checkpoint with
    | none => some (watermarks, none)
    | some cp => cp.watermarks.entries.map fun entries => (watermarks, some entries.length)

/-! ## Saving -/

/-- The strings that the hash is fed, with a NUL behind each. -/
def hashedText (entries : List (String × String)) : List Char :=
  entries.flatMap fun e => e.1.toList ++ ['\x00'] ++ (e.2.toList ++ ['\x00'])

/-- `Object.keys(snapshot).sort()`: strings compare by their code units. -/
def sortedKeys (snapshot : Snapshot) : List String :=
  ((ownProperties snapshot).map Prod.fst).mergeSort
    (fun k l => unitsLe (utf16 k.toList) (utf16 l.toList))

/-- What `hashWatermarks` hashes. -/
def hashInput (snapshot : Snapshot) : List Char :=
  hashedText ((sortedKeys snapshot).map fun k => (k, (snapshot.lookup k).getD ""))

def hashWatermarks (sha256 : List Char → String) (snapshot : Snapshot) : String :=
  sha256 (hashInput snapshot)

/-- `JSON.stringify(file, null, 2)`. -/
def checkpointText (watermarks : Snapshot) (updatedAt : String) : String :=
  String.ofList (Json.writeObject 0
    [("version", ['1']),
      ("watermarks", Json.writeObject 1
        ((ownProperties watermarks).map fun e => (e.1, Json.quote e.2))),
      ("updatedAt", Json.quote updatedAt)])

abbrev Disk := String → Option String

/-- The files, the memo `lastWrittenHash`, and every state that the files have been in. -/
structure SaveState where
  disk : Disk
  lastWrittenHash : String → Option String
  moments : List Disk

namespace SaveState

def start (disk : Disk) : SaveState := ⟨disk, fun _ => none, [disk]⟩

/-- The files change at once. -/
def setDisk (s : SaveState) (disk : Disk) : SaveState :=
  { s with disk := disk, moments := s.moments ++ [disk] }

def write (s : SaveState) (path text : String) : SaveState :=
  s.setDisk (Function.update s.disk path (some text))

/-- `renameSync`. -/
def rename (s : SaveState) (source target : String) : SaveState :=
  s.setDisk (Function.update (Function.update s.disk target (s.disk source)) source none)

def remember (s : SaveState) (path hash : String) : SaveState :=
  { s with lastWrittenHash := Function.update s.lastWrittenHash path (some hash) }

end SaveState

/-- What the file system does with a call. -/
structure SaveFaults where
  mkdirThrows : Bool
  /-- The texts of the temporary file while it is being written. -/
  partials : List String
  writeThrows : Bool
  renameThrows : Bool

structure SaveCall where
  path : String
  store : WatermarkMap
  updatedAt : String
  faults : SaveFaults

inductive SaveError where
  | mkdir
  | write
  | rename

def SaveCall.tmp (call : SaveCall) : String := call.path ++ ".tmp"

def saveCheckpoint (sha256 : List Char → String) (s : SaveState) (call : SaveCall) :
    SaveState × Except SaveError Bool :=
  let watermarks := snapshotWatermarks call.store
  let hash := hashWatermarks sha256 watermarks
  if s.lastWrittenHash call.path = some hash then (s, .ok false)
  else if call.faults.mkdirThrows then (s, .error .mkdir)
  else
    let opened := call.faults.partials.foldl (fun s text => s.write call.tmp text) s
    if call.faults.writeThrows then (opened, .error .write)
    else
      let written := opened.write call.tmp (checkpointText watermarks call.updatedAt)
      if call.faults.renameThrows then (written, .error .rename)
      else ((written.rename call.tmp call.path).remember call.path hash, .ok true)

end FogoYield.Cranker
