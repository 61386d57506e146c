import PahoMqtt.Store.FileStore

namespace PahoMqtt

open Packets

section
variable {F : Type} [Inhabited F]
variable (writePacket : ControlPacket F → List UInt8)
variable (unpack : ControlPacket F → List UInt8 → ControlPacket F × Option GoError)

def storeStep (a : GoString → Option (List UInt8)) :
    StoreOp (ControlPacket F) → GoString → Option (List UInt8)
  | .put key m _ => Function.update a key (some (writePacket m))
  | .get key =>
    match a key with
    | some b => if readFails unpack b then Function.update a key none else a
    | none => a
  | .del key => Function.update a key none
  | .reset => fun _ => none
  | _ => a

def storeGet (a : GoString → Option (List UInt8)) (key : GoString) : Option (ControlPacket F) :=
  match a key with
  | some b => if readFails unpack b then none else (readPacket unpack b).1.1
  | none => none

def storeRun (a : GoString → Option (List UInt8)) (ops : List (StoreOp (ControlPacket F))) :
    GoString → Option (List UInt8) :=
  ops.foldl (storeStep writePacket unpack) a

def FileStore.contents (store : FileStore) (key : GoString) : Option (List UInt8) :=
  (store.directory.lookup (fullpath key)).map FileInfo.bytes

@[simp]
theorem fullpath_inj {k k' : GoString} : fullpath k = fullpath k' ↔ k = k' :=
  ⟨fullpath_injective, congrArg fullpath⟩

theorem FileStore.step_opened {store : FileStore} (h : store.opened = true)
    {op : StoreOp (ControlPacket F)} (hop : op ≠ .close) :
    (store.step writePacket unpack op).1.opened = true := by
  cases op with
  | close => exact absurd rfl hop
  | «open» => rfl
  | put => simp [FileStore.step, FileStore.put, h]
  | get key =>
    simp only [FileStore.step, FileStore.get_directory unpack h]
    split
    · split <;> simpa
    · exact h
  | del => simpa [FileStore.step] using h
  | all => exact h
  | reset => simpa [FileStore.step, FileStore.reset, FileStore.opened_foldl_del] using h

theorem FileStore.contents_step {store : FileStore} (h : store.opened = true)
    (op : StoreOp (ControlPacket F)) :
    (store.step writePacket unpack op).1.contents =
      storeStep writePacket unpack store.contents op := by
  funext k
  cases op with
  | «open» => rfl
  | close => simp [FileStore.step, FileStore.close, FileStore.contents, storeStep]
  | put key m now =>
    simp only [FileStore.step, FileStore.contents, storeStep, FileStore.lookup_put writePacket h,
      fullpath_inj, fullpath_ne_tmppath, if_false, Function.update_apply]
    split_ifs <;> rfl
  | get key =>
    simp only [FileStore.step, FileStore.contents, storeStep, FileStore.get_directory unpack h]
    rcases hl : store.directory.lookup (fullpath key) with _ | f
    · rfl
    · simp only [Option.map_some']
      split_ifs
      · simp only [lookup_rename hl, fullpath_ne_corruptpath, if_false, fullpath_inj,
          Function.update_apply]
        split_ifs <;> rfl
      · rfl
  | del key =>
    simp only [FileStore.step, FileStore.contents, storeStep, FileStore.lookup_del h,
      fullpath_inj, Function.update_apply]
    split_ifs <;> rfl
  | all => rfl
  | reset =>
    simp [FileStore.step, FileStore.contents, storeStep, FileStore.lookup_reset h, msgKey_fullpath]

theorem FileStore.get_packet {store : FileStore} (h : store.opened = true) (key : GoString) :
    (store.get unpack key).1 = storeGet unpack store.contents key := by
  simp only [FileStore.get, storeGet, FileStore.contents, h, Bool.not_true, Bool.false_eq_true,
    if_false]
  rcases store.directory.lookup (fullpath key) with _ | f
  · rfl
  · rcases hr : (readPacket unpack f.bytes).1 with ⟨msg, _ | err⟩ <;> simp [readFails, hr]

theorem FileStore.contents_run (ops : List (StoreOp (ControlPacket F)))
    (hops : ∀ op ∈ ops, op ≠ .close) :
    ∀ store : FileStore, store.opened = true →
      (store.run writePacket unpack ops).1.opened = true ∧
        (store.run writePacket unpack ops).1.contents =
          storeRun writePacket unpack store.contents ops := by
  induction ops with
  | nil => exact fun store h => ⟨h, rfl⟩
  | cons op ops ih =>
    intro store h
    have hop := hops op (List.mem_cons_self _ _)
    obtain ⟨h1, h2⟩ := ih (fun o ho => hops o (List.mem_cons_of_mem _ ho)) _
      (FileStore.step_opened writePacket unpack h hop)
    refine ⟨h1, h2.trans ?_⟩
    rw [FileStore.contents_step writePacket unpack h]
    rfl

theorem filestore_refines_abstract_store (s0 : FileStore) (ops : List (StoreOp (ControlPacket F)))
    (hopen : s0.opened = true) (hops : ∀ op ∈ ops, op ≠ .close) :
    let s := (s0.run writePacket unpack ops).1
    s.contents = storeRun writePacket unpack s0.contents ops ∧
    s.all.Nodup ∧ (∀ k, k ∈ s.all ↔ fullpath k ∈ s.directory) ∧
    s.all.Pairwise (fun a b => ∀ fa fb, s.directory.lookup (fullpath a) = some fa →
      s.directory.lookup (fullpath b) = some fb → fa.modTime ≤ fb.modTime) ∧
    (∀ k, msgKey (tmppath k) = none ∧ msgKey (corruptpath k) = none) ∧
    (∀ (t : FileStore) key name, t.opened = true → name ≠ fullpath key → name ≠ tmppath key →
      name ≠ corruptpath key → ∀ m now,
        (t.put writePacket key m now).directory.lookup name = t.directory.lookup name ∧
        (t.del key).directory.lookup name = t.directory.lookup name ∧
        (t.get unpack key).2.directory.lookup name = t.directory.lookup name) ∧
    (∀ (t : FileStore) name, t.opened = true →
      t.reset.directory.lookup name =
        if (msgKey name).isSome then none else t.directory.lookup name) ∧
    (∀ (t : FileStore) key, t.opened = true →
      (t.get unpack key).1 = storeGet unpack t.contents key) := by
  intro s
  obtain ⟨hs, hc⟩ := FileStore.contents_run writePacket unpack ops hops s0 hopen
  refine ⟨hc, FileStore.all_nodup s, FileStore.mem_all hs, FileStore.all_sorted s,
    fun k => ⟨msgKey_tmppath k, msgKey_corruptpath k⟩, ?_,
    fun t name ht => FileStore.lookup_reset ht name,
    fun t key ht => FileStore.get_packet unpack ht key⟩
  intro t key name ht h1 h2 h3 m now
  refine ⟨by simp [FileStore.lookup_put writePacket ht, h1, h2],
    by simp [FileStore.lookup_del ht, h1], ?_⟩
  rw [FileStore.get_directory unpack ht]
  rcases hl : t.directory.lookup (fullpath key) with _ | f
  · rfl
  · dsimp only
    split_ifs
    · simp [lookup_rename hl, h1, h3]
    · rfl

end

theorem filestore_refines_abstract_store_put_all :
    let ops : List (StoreOp (ControlPacket Unit)) :=
      [.put [0x6b] ⟨.publish, ⟨3, false, 1, false, 0⟩, ()⟩ 1, .all]
    (FileStore.mk ∅ true).opened = true ∧ (∀ op ∈ ops, op ≠ .close) ∧
      ((FileStore.mk ∅ true).run (fun _ => []) (fun cp _ => (cp, none)) ops).1.all.Nodup :=
  ⟨rfl, by simp, (filestore_refines_abstract_store (fun _ => []) (fun cp _ => (cp, none))
    ⟨∅, true⟩ [.put [0x6b] ⟨.publish, ⟨3, false, 1, false, 0⟩, ()⟩ 1, .all] rfl
    (by simp)).2.1⟩

end PahoMqtt
