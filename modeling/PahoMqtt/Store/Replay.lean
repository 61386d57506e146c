import PahoMqtt.Store.OrderedMemoryStore

namespace PahoMqtt

section
variable {P : Type}

def putTrack (k : GoString) (opened : Bool) (acc : Option Int) : StoreOp (Option P) → Bool × Option Int
  | .open => (true, acc)
  | .close => (false, acc)
  | .put key _ now => (opened, if opened ∧ key = k then some now else acc)
  | _ => (opened, acc)

def lastPutFrom (k : GoString) (opened : Bool) (acc : Option Int) :
    List (StoreOp (Option P)) → Option Int
  | [] => acc
  | op :: ops =>
    let (opened, acc) := putTrack k opened acc op
    lastPutFrom k opened acc ops

def lastPutTime (k : GoString) (ops : List (StoreOp (Option P))) : Option Int :=
  lastPutFrom k false none ops

def Stamped (store : OrderedMemoryStore P) (acc : GoString → Option Int) : Prop :=
  ∀ k sm, store.messages.lookup k = some sm → acc k = some sm.ts

theorem putTrack_fst (k : GoString) (opened : Bool) (acc : Option Int) (op : StoreOp (Option P)) :
    (putTrack k opened acc op).1 = op.openedAfter opened := by
  cases op <;> rfl

theorem OrderedMemoryStore.opened_step (store : OrderedMemoryStore P) (op : StoreOp (Option P)) :
    (store.step op).1.opened = op.openedAfter store.opened := by
  cases op <;> simp [OrderedMemoryStore.step, StoreOp.openedAfter, OrderedMemoryStore.open,
    OrderedMemoryStore.reset]

theorem stamped_step {store : OrderedMemoryStore P} {acc : GoString → Option Int}
    (h : Stamped store acc) (op : StoreOp (Option P)) :
    Stamped (store.step op).1 (fun k => (putTrack k store.opened (acc k) op).2) := by
  intro k sm hk
  cases op with
  | put key message now =>
    simp only [OrderedMemoryStore.step] at hk
    cases ho : store.opened
    · rw [OrderedMemoryStore.put_closed ho] at hk
      simpa [putTrack, ho] using h k sm hk
    · rw [OrderedMemoryStore.lookup_put ho] at hk
      by_cases hkey : k = key
      · subst hkey
        simp only [if_true, Option.some_inj] at hk
        simp [putTrack, ho, ← hk]
      · simp only [hkey, if_false] at hk
        simpa [putTrack, ho, Ne.symm hkey] using h k sm hk
  | del key =>
    simp only [OrderedMemoryStore.step] at hk
    cases ho : store.opened
    · rw [OrderedMemoryStore.del_closed ho] at hk
      exact h k sm hk
    · rw [OrderedMemoryStore.lookup_del ho] at hk
      split_ifs at hk
      exact h k sm hk
  | reset => simp [OrderedMemoryStore.step, OrderedMemoryStore.reset] at hk
  | close => exact h k sm (by simpa [OrderedMemoryStore.step] using hk)
  | «open» => exact h k sm hk
  | get key => exact h k sm hk
  | all => exact h k sm hk

theorem stamped_run (ops : List (StoreOp (Option P))) :
    ∀ (store : OrderedMemoryStore P) (acc : GoString → Option Int), Stamped store acc →
      Stamped (store.run ops).1 (fun k => lastPutFrom k store.opened (acc k) ops) := by
  induction ops with
  | nil => intro store acc h; exact h
  | cons op ops ih =>
    intro store acc h k sm hk
    have := ih _ _ (stamped_step h op) k sm hk
    simp only [lastPutFrom]
    rwa [putTrack_fst, ← OrderedMemoryStore.opened_step store op]

def storedAfter {M : Type} (k : GoString) (opened stored : Bool) : StoreOp M → Bool
  | .put key _ _ => if opened ∧ key = k then true else stored
  | .del key => if opened ∧ key = k then false else stored
  | .reset => false
  | _ => stored

def storedFrom {M : Type} (k : GoString) : Bool → Bool → List (StoreOp M) → Bool
  | _, stored, [] => stored
  | opened, stored, op :: ops =>
    storedFrom k (op.openedAfter opened) (storedAfter k opened stored op) ops

def isStored {M : Type} (k : GoString) (ops : List (StoreOp M)) : Bool :=
  storedFrom k false false ops

def Tracked (store : OrderedMemoryStore P) (stored : GoString → Bool) : Prop :=
  ∀ k, (store.messages.lookup k).isSome = stored k

theorem tracked_step {store : OrderedMemoryStore P} {stored : GoString → Bool}
    (h : Tracked store stored) (op : StoreOp (Option P)) :
    Tracked (store.step op).1 (fun k => storedAfter k store.opened (stored k) op) := by
  intro k
  cases op with
  | put key message now =>
    cases ho : store.opened
    · simpa [OrderedMemoryStore.step, storedAfter, OrderedMemoryStore.put_closed ho] using h k
    · by_cases hk : k = key <;> simp [OrderedMemoryStore.step, storedAfter,
        OrderedMemoryStore.lookup_put ho, hk, eq_comm, h k]
  | del key =>
    cases ho : store.opened
    · simpa [OrderedMemoryStore.step, storedAfter, OrderedMemoryStore.del_closed ho] using h k
    · by_cases hk : k = key <;> simp [OrderedMemoryStore.step, storedAfter,
        OrderedMemoryStore.lookup_del ho, hk, eq_comm, h k]
  | reset => simp [OrderedMemoryStore.step, storedAfter, OrderedMemoryStore.reset]
  | close => simpa [OrderedMemoryStore.step, storedAfter] using h k
  | «open» => exact h k
  | get key => exact h k
  | all => exact h k

theorem tracked_run (ops : List (StoreOp (Option P))) :
    ∀ (store : OrderedMemoryStore P) (stored : GoString → Bool), Tracked store stored →
      Tracked (store.run ops).1 (fun k => storedFrom k store.opened (stored k) ops) := by
  induction ops with
  | nil => exact fun _ _ h => h
  | cons op ops ih =>
    intro store stored h k
    have := ih _ _ (tracked_step h op) k
    rwa [OrderedMemoryStore.opened_step] at this

theorem tsKeysOf_map_snd (m : AList (fun _ : GoString => StoredMessage P)) :
    (tsKeysOf m).map Prod.snd = m.keys := by
  simp [tsKeysOf, AList.keys, List.keys, Function.comp_def]

theorem lookup_of_mem_tsKeysOf {m : AList (fun _ : GoString => StoredMessage P)}
    {x : Int × GoString} (hx : x ∈ tsKeysOf m) : ∃ sm, m.lookup x.2 = some sm ∧ sm.ts = x.1 := by
  obtain ⟨e, he, rfl⟩ := List.mem_map.mp hx
  exact ⟨e.2, AList.mem_lookup_iff.mpr he, rfl⟩

theorem all_of_opened {store : OrderedMemoryStore P} (h : store.opened = true) :
    store.all = ((tsKeysOf store.messages).mergeSort fun a b => decide (a.1 ≤ b.1)).map Prod.snd := by
  simp [OrderedMemoryStore.all, h]

theorem all_perm_keys {store : OrderedMemoryStore P} (h : store.opened = true) :
    store.all.Perm store.messages.keys := by
  rw [all_of_opened h, ← tsKeysOf_map_snd]
  exact (List.mergeSort_perm _ _).map _

theorem all_sorted {store : OrderedMemoryStore P} {acc : GoString → Option Int}
    (hs : Stamped store acc) (h : store.opened = true) :
    store.all.Pairwise (fun a b => ∀ ta tb, acc a = some ta → acc b = some tb → ta ≤ tb) := by
  rw [all_of_opened h, List.pairwise_map]
  have hsorted := @List.sorted_mergeSort _ (fun a b : Int × GoString => decide (a.1 ≤ b.1))
    (fun a b c hab hbc => by simp only [decide_eq_true_eq] at *; omega)
    (fun a b => by simp only [Bool.or_eq_true, decide_eq_true_eq]; omega) (tsKeysOf store.messages)
  refine hsorted.imp_of_mem fun hx hy hxy ta tb ha hb => ?_
  obtain ⟨smx, hx, hxts⟩ := lookup_of_mem_tsKeysOf (List.mem_mergeSort.mp hx)
  obtain ⟨smy, hy, hyts⟩ := lookup_of_mem_tsKeysOf (List.mem_mergeSort.mp hy)
  rw [hs _ _ hx, Option.some_inj] at ha
  rw [hs _ _ hy, Option.some_inj] at hb
  have := of_decide_eq_true hxy
  omega

theorem stamped_new : Stamped (OrderedMemoryStore.new : OrderedMemoryStore P) fun _ => none := by
  intro k sm hk
  simp [OrderedMemoryStore.new, AList.lookup_empty] at hk

theorem tracked_new : Tracked (OrderedMemoryStore.new : OrderedMemoryStore P) fun _ => false :=
  fun _ => rfl

theorem ordered_all_replay_order (ops : List (StoreOp (Option P)))
    (hopen : (OrderedMemoryStore.new.run ops).1.opened = true) :
    let s := (OrderedMemoryStore.new.run ops).1
    s.all.Nodup ∧ (∀ k, k ∈ s.all ↔ isStored k ops = true) ∧
      (∀ k ∈ s.all, ∃ t, lastPutTime k ops = some t) ∧
      s.all.Pairwise (fun a b => ∀ ta tb,
        lastPutTime a ops = some ta → lastPutTime b ops = some tb → ta ≤ tb) ∧
      (∀ a b ta tb, lastPutTime a ops = some ta → lastPutTime b ops = some tb → ta < tb →
        ¬ List.Sublist [b, a] s.all) := by
  intro s
  have hs : Stamped s fun k => lastPutTime k ops := stamped_run ops _ _ stamped_new
  have ht : ∀ k, (s.messages.lookup k).isSome = isStored k ops := tracked_run ops _ _ tracked_new
  have hperm := all_perm_keys hopen
  have hsorted := all_sorted hs hopen
  refine ⟨hperm.nodup_iff.mpr s.messages.keys_nodup,
    fun k => hperm.mem_iff.trans (by rw [← ht k, AList.lookup_isSome]; exact AList.mem_keys),
    fun k hk => ?_, hsorted, fun a b ta tb ha hb hlt hba => ?_⟩
  · obtain ⟨sm, hsm⟩ := Option.isSome_iff_exists.mp
      (AList.lookup_isSome.mpr (AList.mem_keys.mp (hperm.mem_iff.mp hk)))
    exact ⟨sm.ts, hs k sm hsm⟩
  · have := List.pairwise_pair.mp (hsorted.sublist hba) tb ta hb ha
    omega

theorem ordered_all_replay_order_del_reput :
    let ops : List (StoreOp (Option Unit)) := [.open, .put [0x6f, 0x2e, 0x31] none 1,
      .put [0x6f, 0x2e, 0x32] none 2, .del [0x6f, 0x2e, 0x31], .put [0x6f, 0x2e, 0x31] none 3]
    (OrderedMemoryStore.new.run ops).1.opened = true ∧
      ∀ k, k ∈ (OrderedMemoryStore.new.run ops).1.all ↔ isStored k ops = true :=
  ⟨rfl, (ordered_all_replay_order [.open, .put [0x6f, 0x2e, 0x31] none 1,
    .put [0x6f, 0x2e, 0x32] none 2, .del [0x6f, 0x2e, 0x31], .put [0x6f, 0x2e, 0x31] none 3]
    rfl).2.1⟩

end

end PahoMqtt
