import PahoMqtt.Packets.ReadPacket
import PahoMqtt.Store.MemoryStore
import Mathlib.Data.List.Sort

namespace PahoMqtt

open Packets

def msgExt : GoString := ".msg".toList.map Char.toUInt8

def tmpExt : GoString := ".tmp".toList.map Char.toUInt8

def corruptExt : GoString := ".CORRUPT".toList.map Char.toUInt8

def fullpath (key : GoString) : GoString := key ++ msgExt

def tmppath (key : GoString) : GoString := key ++ tmpExt

def corruptpath (key : GoString) : GoString := key ++ corruptExt

structure FileInfo where
  bytes : List UInt8
  modTime : Int

abbrev Directory := AList (fun _ : GoString => FileInfo)

structure FileStore where
  directory : Directory
  opened : Bool

def rename (dir : Directory) (oldpath newpath : GoString) : Directory :=
  match dir.lookup oldpath with
  | some f => (dir.erase oldpath).insert newpath f
  | none => dir

def msgKey (name : GoString) : Option GoString :=
  if name.length < msgExt.length ∨ name.drop (name.length - msgExt.length) ≠ msgExt then none
  else some (name.take (name.length - 4))

section
variable {F : Type} [Inhabited F]
variable (writePacket : ControlPacket F → List UInt8)
variable (unpack : ControlPacket F → List UInt8 → ControlPacket F × Option GoError)

def write (dir : Directory) (key : GoString) (m : ControlPacket F) (now : Int) : Directory :=
  let temppath := tmppath key
  rename (dir.insert temppath ⟨writePacket m, now⟩) temppath (fullpath key)

def FileStore.open (store : FileStore) : FileStore := { store with opened := true }

def FileStore.close (store : FileStore) : FileStore := { store with opened := false }

def FileStore.put (store : FileStore) (key : GoString) (m : ControlPacket F) (now : Int) :
    FileStore :=
  if !store.opened then store
  else { store with directory := write writePacket store.directory key m now }

def FileStore.get (store : FileStore) (key : GoString) : Option (ControlPacket F) × FileStore :=
  if !store.opened then (none, store)
  else
    let filepath := fullpath key
    match store.directory.lookup filepath with
    | none => (none, store)
    | some mfile =>
      match (readPacket unpack mfile.bytes).1 with
      | (msg, none) => (msg, store)
      | (_, some _) =>
        (none, { store with directory := rename store.directory filepath (corruptpath key) })

def FileStore.all (store : FileStore) : List GoString :=
  if !store.opened then []
  else
    let files := store.directory.entries.mergeSort fun f g => decide (f.2.modTime ≤ g.2.modTime)
    files.filterMap fun f => msgKey f.1

def FileStore.del (store : FileStore) (key : GoString) : FileStore :=
  if !store.opened then store
  else
    let filepath := fullpath key
    match store.directory.lookup filepath with
    | none => store
    | some _ => { store with directory := store.directory.erase filepath }

def FileStore.reset (store : FileStore) : FileStore := store.all.foldl FileStore.del store

def FileStore.step (store : FileStore) :
    StoreOp (ControlPacket F) → FileStore × StoreOut (ControlPacket F)
  | .open => (store.open, .done)
  | .close => (store.close, .done)
  | .put key m now => (store.put writePacket key m now, .done)
  | .get key => ((store.get unpack key).2, .packet (store.get unpack key).1)
  | .del key => (store.del key, .done)
  | .all => (store, .keys store.all)
  | .reset => (store.reset, .done)

def FileStore.run (store : FileStore) (ops : List (StoreOp (ControlPacket F))) :
    FileStore × List (StoreOut (ControlPacket F)) :=
  runOps (FileStore.step writePacket unpack) store ops

def readFails (b : List UInt8) : Bool := (readPacket unpack b).1.2.isSome

end

theorem msgExt_length : msgExt.length = 4 := rfl

theorem msgKey_eq_some {name k : GoString} : msgKey name = some k ↔ name = fullpath k := by
  unfold msgKey fullpath
  rw [msgExt_length]
  constructor
  · intro h
    split at h
    · cases h
    · rename_i hc
      obtain ⟨h4, hd⟩ := not_or.mp hc
      cases h
      rw [← not_not.mp hd]
      exact (List.take_append_drop _ _).symm
  · rintro rfl
    simp [← msgExt_length]

theorem msgKey_fullpath (k : GoString) : msgKey (fullpath k) = some k := msgKey_eq_some.mpr rfl

theorem msgKey_tmppath (k : GoString) : msgKey (tmppath k) = none := by
  have : tmpExt ≠ msgExt := by decide
  simp [msgKey, tmppath, msgExt_length, show tmpExt.length = 4 from rfl, this]

theorem msgKey_corruptpath (k : GoString) : msgKey (corruptpath k) = none := by
  have : corruptExt.drop 4 ≠ msgExt := by decide
  simp only [msgKey, corruptpath, msgExt_length, List.length_append,
    show corruptExt.length = 8 from rfl]
  rw [if_pos (.inr (by
    rw [show k.length + 8 - 4 = k.length + 4 by omega, List.drop_append]; exact this))]

theorem fullpath_injective {k k' : GoString} (h : fullpath k = fullpath k') : k = k' :=
  List.append_cancel_right h

theorem fullpath_ne_tmppath (k k' : GoString) : fullpath k ≠ tmppath k' := fun h => by
  simpa [h, msgKey_tmppath] using msgKey_fullpath k

theorem fullpath_ne_corruptpath (k k' : GoString) : fullpath k ≠ corruptpath k' := fun h => by
  simpa [h, msgKey_corruptpath] using msgKey_fullpath k

theorem lookup_rename {dir : Directory} {oldpath newpath name : GoString} {f : FileInfo}
    (h : dir.lookup oldpath = some f) :
    (rename dir oldpath newpath).lookup name =
      if name = newpath then some f else if name = oldpath then none else dir.lookup name := by
  simp only [rename, h]
  split_ifs with h1 h2
  · subst h1; exact AList.lookup_insert _
  · subst h2; rw [AList.lookup_insert_ne h1, AList.lookup_erase]
  · rw [AList.lookup_insert_ne h1, AList.lookup_erase_ne h2]

theorem lookup_write {F : Type} (writePacket : ControlPacket F → List UInt8) (dir : Directory)
    (key : GoString) (m : ControlPacket F) (now : Int) (name : GoString) :
    (write writePacket dir key m now).lookup name =
      if name = fullpath key then some ⟨writePacket m, now⟩
      else if name = tmppath key then none else dir.lookup name := by
  simp only [write]
  rw [lookup_rename (AList.lookup_insert _)]
  split_ifs with h1 h2 <;> first | rfl | exact AList.lookup_insert_ne h2

@[simp]
theorem FileStore.del_opened (store : FileStore) (key : GoString) :
    (store.del key).opened = store.opened := by
  simp only [FileStore.del]
  repeat' split
  all_goals rfl

theorem FileStore.lookup_del {store : FileStore} (h : store.opened = true) (key name : GoString) :
    (store.del key).directory.lookup name =
      if name = fullpath key then none else store.directory.lookup name := by
  simp only [FileStore.del, h, Bool.not_true, Bool.false_eq_true, if_false]
  split
  · rename_i hn
    split_ifs with he
    · exact he ▸ hn
    · rfl
  · split_ifs with he
    · exact he ▸ AList.lookup_erase _ _
    · exact AList.lookup_erase_ne he

theorem FileStore.opened_foldl_del (keys : List GoString) (store : FileStore) :
    (keys.foldl FileStore.del store).opened = store.opened := by
  induction keys generalizing store with
  | nil => rfl
  | cons k ks ih => rw [List.foldl_cons, ih, FileStore.del_opened]

theorem FileStore.lookup_foldl_del (keys : List GoString) {store : FileStore}
    (h : store.opened = true) (name : GoString) :
    (keys.foldl FileStore.del store).directory.lookup name =
      if name ∈ keys.map fullpath then none else store.directory.lookup name := by
  induction keys generalizing store with
  | nil => simp
  | cons k ks ih =>
    rw [List.foldl_cons, ih (by rwa [FileStore.del_opened]), FileStore.lookup_del h]
    by_cases h1 : name = fullpath k <;> simp [h1]

theorem FileStore.lookup_put {F : Type} (writePacket : ControlPacket F → List UInt8)
    {store : FileStore} (h : store.opened = true) (key : GoString) (m : ControlPacket F)
    (now : Int) (name : GoString) :
    (store.put writePacket key m now).directory.lookup name =
      if name = fullpath key then some ⟨writePacket m, now⟩
      else if name = tmppath key then none else store.directory.lookup name := by
  simp only [FileStore.put, h, Bool.not_true, Bool.false_eq_true, if_false]
  exact lookup_write writePacket _ key m now name

theorem FileStore.get_directory {F : Type} [Inhabited F]
    (unpack : ControlPacket F → List UInt8 → ControlPacket F × Option GoError)
    {store : FileStore} (h : store.opened = true) (key : GoString) :
    (store.get unpack key).2 =
      match store.directory.lookup (fullpath key) with
      | some f =>
        if readFails unpack f.bytes then
          { store with directory := rename store.directory (fullpath key) (corruptpath key) }
        else store
      | none => store := by
  simp only [FileStore.get, h, Bool.not_true, Bool.false_eq_true, if_false]
  rcases store.directory.lookup (fullpath key) with _ | f
  · rfl
  · rcases hr : (readPacket unpack f.bytes).1 with ⟨msg, _ | err⟩ <;> simp [readFails, hr]

theorem FileStore.mem_all {store : FileStore} (h : store.opened = true) (k : GoString) :
    k ∈ store.all ↔ fullpath k ∈ store.directory := by
  simp only [FileStore.all, h, Bool.not_true, Bool.false_eq_true, if_false, List.mem_filterMap,
    List.mem_mergeSort, msgKey_eq_some]
  rw [AList.mem_keys, AList.keys, List.mem_keys]
  constructor
  · rintro ⟨f, hf, he⟩
    exact ⟨f.2, he ▸ hf⟩
  · rintro ⟨b, hb⟩
    exact ⟨_, hb, rfl⟩

theorem FileStore.lookup_reset {store : FileStore} (h : store.opened = true) (name : GoString) :
    store.reset.directory.lookup name =
      if (msgKey name).isSome then none else store.directory.lookup name := by
  rw [FileStore.reset, FileStore.lookup_foldl_del _ h]
  by_cases hk : (msgKey name).isSome
  · obtain ⟨k, hk'⟩ := Option.isSome_iff_exists.mp hk
    have hname := msgKey_eq_some.mp hk'
    by_cases hin : name ∈ store.directory
    · have : name ∈ store.all.map fullpath :=
        List.mem_map.mpr ⟨k, (FileStore.mem_all h k).mpr (hname ▸ hin), hname.symm⟩
      simp [this, hk]
    · simp [hk, AList.lookup_eq_none.mpr hin]
  · have : name ∉ store.all.map fullpath := fun hm => by
      obtain ⟨k, -, rfl⟩ := List.mem_map.mp hm
      simp [msgKey_fullpath] at hk
    simp [this, hk]

theorem FileStore.all_nodup (store : FileStore) : store.all.Nodup := by
  simp only [FileStore.all]
  split
  · exact List.nodup_nil
  · have e : ∀ l : List (Sigma fun _ : GoString => FileInfo),
        (l.filterMap fun f => msgKey f.1) = (l.map Sigma.fst).filterMap msgKey :=
      fun l => (List.filterMap_map Sigma.fst msgKey l).symm
    rw [e]
    refine List.Nodup.filterMap (fun a a' b ha ha' => ?_) ?_
    · rw [msgKey_eq_some.mp ha, msgKey_eq_some.mp ha']
    · exact ((List.mergeSort_perm _ _).map _).nodup_iff.mpr store.directory.nodupKeys

theorem FileStore.all_sorted (store : FileStore) :
    store.all.Pairwise fun a b => ∀ fa fb, store.directory.lookup (fullpath a) = some fa →
      store.directory.lookup (fullpath b) = some fb → fa.modTime ≤ fb.modTime := by
  simp only [FileStore.all]
  split
  · exact List.Pairwise.nil
  · rw [List.pairwise_filterMap]
    have hsorted := @List.sorted_mergeSort _
      (fun f g : Sigma (fun _ : GoString => FileInfo) => decide (f.2.modTime ≤ g.2.modTime))
      (fun a b c hab hbc => by simp only [decide_eq_true_eq] at *; omega)
      (fun a b => by simp only [Bool.or_eq_true, decide_eq_true_eq]; omega)
      store.directory.entries
    refine hsorted.imp_of_mem fun hf hg hfg a ha b hb fa fb hfa hfb => ?_
    rw [← msgKey_eq_some.mp ha, AList.mem_lookup_iff.mpr (List.mem_mergeSort.mp hf),
      Option.some_inj] at hfa
    rw [← msgKey_eq_some.mp hb, AList.mem_lookup_iff.mpr (List.mem_mergeSort.mp hg),
      Option.some_inj] at hfb
    subst hfa hfb
    exact of_decide_eq_true hfg

theorem FileStore.step_closed {F : Type} [Inhabited F]
    (writePacket : ControlPacket F → List UInt8)
    (unpack : ControlPacket F → List UInt8 → ControlPacket F × Option GoError)
    {store : FileStore} (h : store.opened = false) {op : StoreOp (ControlPacket F)}
    (hop : op ≠ .open) : (store.step writePacket unpack op).1 = store := by
  have hall : store.all = [] := by simp [FileStore.all, h]
  cases op with
  | «open» => exact absurd rfl hop
  | close => cases store; simp_all [FileStore.step, FileStore.close]
  | reset => simp [FileStore.step, FileStore.reset, hall]
  | _ => simp [FileStore.step, FileStore.put, FileStore.get, FileStore.del, h]

end PahoMqtt
