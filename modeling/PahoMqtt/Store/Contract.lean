import PahoMqtt.Store.Replay
import PahoMqtt.Store.Refinement
import Mathlib.Data.List.Forall2

namespace PahoMqtt

section
variable {P : Type}

theorem closed_store_reset_wipes (k : GoString) (p : P) (now : Int) :
    let m := (MemoryStore.new.run [.open, .put k (some p) now, .close]).1
    let o := (OrderedMemoryStore.new.run [.open, .put k (some p) now, .close]).1
    m.opened = false ∧ m.messages.keys = [k] ∧ (m.step .reset).1.messages.keys = [] ∧
      o.opened = false ∧ o.messages.keys = [k] ∧ (o.step .reset).1.messages.keys = [] :=
  ⟨rfl, rfl, rfl, rfl, rfl, rfl⟩

def Agree (m : MemoryStore P) (o : OrderedMemoryStore P) : Prop :=
  m.opened = o.opened ∧ ∀ k, m.messages.lookup k = (o.messages.lookup k).map StoredMessage.msg

def NilFree (m : MemoryStore P) : Prop := ∀ k, m.messages.lookup k ≠ some none

def StoreOut.Same : StoreOut P → StoreOut P → Prop
  | .done, .done => True
  | .packet a, .packet b => a = b
  | .keys a, .keys b => a.Nodup ∧ b.Nodup ∧ a.Perm b
  | _, _ => False

def StoreOp.putsPacket : StoreOp (Option P) → Prop
  | .put _ message _ => message.isSome
  | _ => True

theorem agree_put {m : MemoryStore P} {o : OrderedMemoryStore P} (h : Agree m o)
    (hn : NilFree m) (key : GoString) {message : Option P} (hm : message.isSome) (now : Int) :
    Agree (m.put key message) (o.put key message now) ∧ NilFree (m.put key message) := by
  obtain ⟨ho, hl⟩ := h
  cases hop : m.opened
  · rw [MemoryStore.put_closed hop, OrderedMemoryStore.put_closed (ho ▸ hop)]
    exact ⟨⟨ho, hl⟩, hn⟩
  refine ⟨⟨by simp [ho], fun k => ?_⟩, fun k => ?_⟩
  · rw [MemoryStore.lookup_put hop, OrderedMemoryStore.lookup_put (ho ▸ hop)]
    split_ifs <;> simp [hl k]
  · rw [MemoryStore.lookup_put hop]
    split_ifs
    · simpa [Option.isSome_iff_ne_none] using hm
    · exact hn k

theorem agree_del {m : MemoryStore P} {o : OrderedMemoryStore P} (h : Agree m o)
    (hn : NilFree m) (key : GoString) :
    Agree (m.del key) (o.del key) ∧ NilFree (m.del key) := by
  obtain ⟨ho, hl⟩ := h
  cases hop : m.opened
  · rw [MemoryStore.del_closed hop, OrderedMemoryStore.del_closed (ho ▸ hop)]
    exact ⟨⟨ho, hl⟩, hn⟩
  refine ⟨⟨by simp [ho], fun k => ?_⟩, fun k => ?_⟩
  · rw [MemoryStore.lookup_del hop, OrderedMemoryStore.lookup_del (ho ▸ hop)]
    by_cases hk : k = key
    · subst hk
      simp only [true_and, if_true, Option.map_none']
      split_ifs with hg
      · rfl
      · rcases hmk : m.messages.lookup k with _ | (_ | p)
        · rfl
        · exact absurd hmk (hn k)
        · simp [MemoryStore.get, hop, hmk] at hg
    · simp [hk, hl k]
  · rw [MemoryStore.lookup_del hop]
    split_ifs
    · simp
    · exact hn k

theorem agree_all {m : MemoryStore P} {o : OrderedMemoryStore P} (h : Agree m o) :
    StoreOut.Same (.keys m.all : StoreOut P) (.keys o.all) := by
  obtain ⟨ho, hl⟩ := h
  cases hop : m.opened
  · simp [StoreOut.Same, MemoryStore.all, OrderedMemoryStore.all, hop, ← ho]
  have hperm := all_perm_keys (ho ▸ hop)
  simp only [StoreOut.Same, MemoryStore.all, hop, Bool.not_true, Bool.false_eq_true, if_false]
  refine ⟨m.messages.keys_nodup, hperm.nodup_iff.mpr o.messages.keys_nodup,
    ((List.perm_ext_iff_of_nodup m.messages.keys_nodup o.messages.keys_nodup).mpr
      fun k => ?_).trans hperm.symm⟩
  rw [← AList.mem_keys, ← AList.mem_keys, ← AList.lookup_isSome, ← AList.lookup_isSome,
    hl k, Option.isSome_map']

theorem agree_step {m : MemoryStore P} {o : OrderedMemoryStore P} (h : Agree m o)
    (hn : NilFree m) {op : StoreOp (Option P)} (hop : op.putsPacket) :
    Agree (m.step op).1 (o.step op).1 ∧ NilFree (m.step op).1 ∧
      StoreOut.Same (m.step op).2 (o.step op).2 := by
  cases op with
  | «open» => exact ⟨⟨rfl, h.2⟩, hn, trivial⟩
  | close =>
    refine ⟨⟨by simp [MemoryStore.step, OrderedMemoryStore.step], fun k => ?_⟩, fun k => ?_,
      trivial⟩
    · simpa [MemoryStore.step, OrderedMemoryStore.step] using h.2 k
    · simpa [MemoryStore.step] using hn k
  | reset =>
    refine ⟨⟨h.1, fun k => ?_⟩, fun k => ?_, trivial⟩ <;>
      simp [MemoryStore.step, OrderedMemoryStore.step, MemoryStore.reset, OrderedMemoryStore.reset]
  | put key message now => exact ⟨(agree_put h hn key hop now).1, (agree_put h hn key hop now).2,
      trivial⟩
  | get key =>
    refine ⟨h, hn, ?_⟩
    simp only [MemoryStore.step, OrderedMemoryStore.step, StoreOut.Same, MemoryStore.get,
      OrderedMemoryStore.get, h.1, h.2 key]
    cases o.messages.lookup key <;> rfl
  | del key => exact ⟨(agree_del h hn key).1, (agree_del h hn key).2, trivial⟩
  | all => exact ⟨h, hn, agree_all h⟩

theorem agree_run (ops : List (StoreOp (Option P))) (hops : ∀ op ∈ ops, op.putsPacket) :
    ∀ (m : MemoryStore P) (o : OrderedMemoryStore P), Agree m o → NilFree m →
      List.Forall₂ StoreOut.Same (m.run ops).2 (o.run ops).2 := by
  induction ops with
  | nil => exact fun _ _ _ _ => .nil
  | cons op ops ih =>
    intro m o h hn
    obtain ⟨h', hn', hs⟩ := agree_step h hn (hops op (List.mem_cons_self _ _))
    exact .cons hs (ih (fun o ho => hops o (List.mem_cons_of_mem _ ho)) _ _ h' hn')

theorem agree_new : Agree (MemoryStore.new : MemoryStore P) OrderedMemoryStore.new :=
  ⟨rfl, fun _ => rfl⟩

theorem nilFree_new : NilFree (MemoryStore.new : MemoryStore P) := fun _ => nofun

theorem ordered_simulates_memorystore (ops : List (StoreOp (Option P)))
    (hops : ∀ op ∈ ops, op.putsPacket) :
    List.Forall₂ StoreOut.Same (MemoryStore.new.run ops).2 (OrderedMemoryStore.new.run ops).2 :=
  agree_run ops hops _ _ agree_new nilFree_new

theorem ordered_simulates_memorystore_put_get :
    let ops : List (StoreOp (Option Unit)) :=
      [.open, .put [0x6f, 0x2e, 0x31] (some ()) 1, .get [0x6f, 0x2e, 0x31], .all]
    (∀ op ∈ ops, op.putsPacket) ∧
      List.Forall₂ StoreOut.Same (MemoryStore.new.run ops).2 (OrderedMemoryStore.new.run ops).2 :=
  have hops : ∀ op ∈ ([.open, .put [0x6f, 0x2e, 0x31] (some ()) 1, .get [0x6f, 0x2e, 0x31],
      .all] : List (StoreOp (Option Unit))), op.putsPacket := by
    intro op hop
    simp only [List.mem_cons, List.not_mem_nil, or_false] at hop
    rcases hop with rfl | rfl | rfl | rfl <;> trivial
  ⟨hops, ordered_simulates_memorystore _ hops⟩

theorem nil_put_del_diverges (k : GoString) (now : Int) :
    (MemoryStore.new.run ([.open, .put k none now, .del k, .all] : List (StoreOp (Option P)))).2 =
      [.done, .done, .done, .keys [k]] ∧
    (OrderedMemoryStore.new.run
      ([.open, .put k none now, .del k, .all] : List (StoreOp (Option P)))).2 =
      [.done, .done, .done, .keys []] := by
  have he : ∀ v : StoredMessage P,
      (((∅ : AList fun _ : GoString => StoredMessage P).insert k v).erase k).entries = [] := by
    intro v
    show List.kerase k ((∅ : AList fun _ : GoString => StoredMessage P).insert k v).entries = []
    simp [AList.insert_entries, List.kerase_cons_eq]
  simp [MemoryStore.run, OrderedMemoryStore.run, runOps, MemoryStore.step, MemoryStore.new,
    MemoryStore.open, MemoryStore.put, MemoryStore.del, MemoryStore.all, OrderedMemoryStore.step,
    OrderedMemoryStore.new, OrderedMemoryStore.open, OrderedMemoryStore.put,
    OrderedMemoryStore.del, OrderedMemoryStore.all, tsKeysOf, -AList.insert_empty,
    AList.lookup_insert, AList.keys_insert, he]

end

end PahoMqtt
