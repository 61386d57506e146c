import PahoMqtt.Store.Simulation

namespace PahoMqtt

open Packets

theorem tmppath_ne_corruptpath (k k' : GoString) : tmppath k ≠ corruptpath k' := fun h => by
  have h4 := congrArg (fun l : GoString => l.reverse.take 4) h
  simp only [tmppath, corruptpath, List.reverse_append] at h4
  rw [List.take_left' (show tmpExt.reverse.length = 4 from rfl),
    List.take_append_of_le_length (show 4 ≤ corruptExt.reverse.length by decide)] at h4
  exact absurd h4 (by decide)

section
variable {F : Type} [Inhabited F]
variable (writePacket : ControlPacket F → List UInt8)
variable (unpack : ControlPacket F → List UInt8 → ControlPacket F × Option GoError)

def DirInv (dir : Directory) : Prop :=
  ∀ name f, dir.lookup name = some f →
    (∃ k, name = fullpath k) ∨ ∃ k, name = corruptpath k ∧ readFails unpack f.bytes = true

theorem FileStore.lookup_step_cases {s : FileStore} {op : StoreOp (ControlPacket F)}
    {name : GoString} {g : FileInfo}
    (hg : (s.step writePacket unpack op).1.directory.lookup name = some g) :
    (s.directory.lookup name = some g ∧
      ∀ key m now, op = .put key m now → s.opened = true → name ≠ fullpath key) ∨
    (∃ key m now, op = .put key m now ∧ s.opened = true ∧ name = fullpath key ∧
      g = ⟨writePacket m, now⟩) ∨
    (∃ key, op = .get key ∧ name = corruptpath key ∧ readFails unpack g.bytes = true) := by
  cases hop : s.opened
  · by_cases ho : op = .open
    · subst ho; exact .inl ⟨hg, fun _ _ _ he => by cases he⟩
    · rw [FileStore.step_closed writePacket unpack hop ho] at hg
      exact .inl ⟨hg, fun _ _ _ _ h => by cases h⟩
  cases op with
  | put key m now =>
    rw [FileStore.step, FileStore.lookup_put writePacket hop] at hg
    split_ifs at hg with h1
    · cases hg; exact .inr (.inl ⟨key, m, now, rfl, rfl, h1, rfl⟩)
    · exact .inl ⟨hg, fun _ _ _ he _ => by cases he; exact h1⟩
  | get key =>
    rw [FileStore.step, FileStore.get_directory unpack hop] at hg
    split at hg
    · rename_i f hf
      split_ifs at hg with hr
      · rw [lookup_rename hf] at hg
        split_ifs at hg with h1
        · cases hg; exact .inr (.inr ⟨key, rfl, h1, hr⟩)
        · exact .inl ⟨hg, fun _ _ _ h => by cases h⟩
      · exact .inl ⟨hg, fun _ _ _ h => by cases h⟩
    · exact .inl ⟨hg, fun _ _ _ h => by cases h⟩
  | del key =>
    rw [FileStore.step, FileStore.lookup_del hop] at hg
    split_ifs at hg
    exact .inl ⟨hg, fun _ _ _ h => by cases h⟩
  | reset =>
    rw [FileStore.step, FileStore.lookup_reset hop] at hg
    split_ifs at hg
    exact .inl ⟨hg, fun _ _ _ h => by cases h⟩
  | _ => exact .inl ⟨hg, fun _ _ _ h => by cases h⟩

theorem dirInv_step {s : FileStore} (h : DirInv unpack s.directory)
    (op : StoreOp (ControlPacket F)) :
    DirInv unpack (s.step writePacket unpack op).1.directory := by
  intro name g hg
  rcases FileStore.lookup_step_cases writePacket unpack hg with ⟨hold, -⟩ |
    ⟨key, -, -, -, -, rfl, -⟩ | ⟨key, -, rfl, hr⟩
  · exact h name g hold
  · exact .inl ⟨key, rfl⟩
  · exact .inr ⟨key, rfl, hr⟩

theorem dirInv_run (ops : List (StoreOp (ControlPacket F))) :
    ∀ s : FileStore, DirInv unpack s.directory →
      DirInv unpack (s.run writePacket unpack ops).1.directory := by
  induction ops with
  | nil => exact fun _ h => h
  | cons op ops ih => exact fun s h => ih _ (dirInv_step writePacket unpack h op)

theorem filestore_directory_invariant (ops : List (StoreOp (ControlPacket F))) (s : FileStore)
    (h : DirInv unpack s.directory) :
    DirInv unpack (s.run writePacket unpack ops).1.directory ∧
      ∀ k, (s.run writePacket unpack ops).1.directory.lookup (tmppath k) = none := by
  have hr := dirInv_run writePacket unpack ops s h
  refine ⟨hr, fun k => Option.eq_none_iff_forall_not_mem.mpr fun f hf => ?_⟩
  rcases hr _ f hf with ⟨k', hk⟩ | ⟨k', hk, -⟩
  · exact fullpath_ne_tmppath k' k hk.symm
  · exact tmppath_ne_corruptpath k k' hk

theorem filestore_directory_invariant_empty :
    DirInv (fun (cp : ControlPacket Unit) _ => (cp, none)) (∅ : Directory) ∧
      ((FileStore.mk ∅ false).run (fun _ => [0xC0, 0x00]) (fun cp _ => (cp, none))
        [.open, .put [0x6b] ⟨.pingreq, ⟨12, false, 0, false, 0⟩, ()⟩ 1]).1.directory.lookup
          (tmppath [0x6b]) = none :=
  have h : DirInv (fun (cp : ControlPacket Unit) _ => (cp, none)) (∅ : Directory) :=
    fun _ _ hf => by simp [AList.lookup_empty] at hf
  ⟨h, (filestore_directory_invariant (fun _ => [0xC0, 0x00]) (fun cp _ => (cp, none))
    [.open, .put [0x6b] ⟨.pingreq, ⟨12, false, 0, false, 0⟩, ()⟩ 1] ⟨∅, false⟩ h).2 _⟩

end

end PahoMqtt
