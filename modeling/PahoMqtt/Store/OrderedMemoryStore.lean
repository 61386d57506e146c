import PahoMqtt.Store.MemoryStore
import Mathlib.Data.List.Sort

namespace PahoMqtt

structure StoredMessage (P : Type) where
  ts : Int
  msg : Option P

structure OrderedMemoryStore (P : Type) where
  messages : AList (fun _ : GoString => StoredMessage P)
  opened : Bool

section
variable {P : Type}

def OrderedMemoryStore.new : OrderedMemoryStore P := ⟨∅, false⟩

def OrderedMemoryStore.open (store : OrderedMemoryStore P) : OrderedMemoryStore P :=
  { store with opened := true }

def OrderedMemoryStore.put (store : OrderedMemoryStore P) (key : GoString) (message : Option P)
    (now : Int) : OrderedMemoryStore P :=
  if !store.opened then store
  else { store with messages := store.messages.insert key ⟨now, message⟩ }

def OrderedMemoryStore.get (store : OrderedMemoryStore P) (key : GoString) : Option P :=
  if !store.opened then none
  else
    match store.messages.lookup key with
    | some m => m.msg
    | none => none

def tsKeysOf (messages : AList (fun _ : GoString => StoredMessage P)) : List (Int × GoString) :=
  messages.entries.map fun e => (e.2.ts, e.1)

def OrderedMemoryStore.all (store : OrderedMemoryStore P) : List GoString :=
  if !store.opened then []
  else ((tsKeysOf store.messages).mergeSort fun a b => decide (a.1 ≤ b.1)).map Prod.snd

def OrderedMemoryStore.del (store : OrderedMemoryStore P) (key : GoString) :
    OrderedMemoryStore P :=
  if !store.opened then store
  else
    match store.messages.lookup key with
    | none => store
    | some _ => { store with messages := store.messages.erase key }

def OrderedMemoryStore.close (store : OrderedMemoryStore P) : OrderedMemoryStore P :=
  if !store.opened then store else { store with opened := false }

def OrderedMemoryStore.reset (store : OrderedMemoryStore P) : OrderedMemoryStore P :=
  { store with messages := ∅ }

def OrderedMemoryStore.step (store : OrderedMemoryStore P) :
    StoreOp (Option P) → OrderedMemoryStore P × StoreOut P
  | .open => (store.open, .done)
  | .close => (store.close, .done)
  | .put key message now => (store.put key message now, .done)
  | .get key => (store, .packet (store.get key))
  | .del key => (store.del key, .done)
  | .all => (store, .keys store.all)
  | .reset => (store.reset, .done)

def OrderedMemoryStore.run (store : OrderedMemoryStore P) (ops : List (StoreOp (Option P))) :
    OrderedMemoryStore P × List (StoreOut P) :=
  runOps OrderedMemoryStore.step store ops

@[simp]
theorem OrderedMemoryStore.put_opened (store : OrderedMemoryStore P) (key : GoString)
    (message : Option P) (now : Int) : (store.put key message now).opened = store.opened := by
  unfold OrderedMemoryStore.put; split <;> rfl

theorem OrderedMemoryStore.put_closed {store : OrderedMemoryStore P} (h : store.opened = false)
    (key : GoString) (message : Option P) (now : Int) : store.put key message now = store := by
  simp [OrderedMemoryStore.put, h]

theorem OrderedMemoryStore.lookup_put {store : OrderedMemoryStore P} (h : store.opened = true)
    (key k : GoString) (message : Option P) (now : Int) :
    (store.put key message now).messages.lookup k =
      if k = key then some ⟨now, message⟩ else store.messages.lookup k := by
  simp only [OrderedMemoryStore.put, h, Bool.not_true, Bool.false_eq_true, if_false]
  split_ifs with hk
  · exact hk ▸ AList.lookup_insert _
  · exact AList.lookup_insert_ne hk

@[simp]
theorem OrderedMemoryStore.del_opened (store : OrderedMemoryStore P) (key : GoString) :
    (store.del key).opened = store.opened := by
  unfold OrderedMemoryStore.del; repeat' split
  all_goals rfl

theorem OrderedMemoryStore.del_closed {store : OrderedMemoryStore P} (h : store.opened = false)
    (key : GoString) : store.del key = store := by
  simp [OrderedMemoryStore.del, h]

theorem OrderedMemoryStore.lookup_del {store : OrderedMemoryStore P} (h : store.opened = true)
    (key k : GoString) :
    (store.del key).messages.lookup k = if k = key then none else store.messages.lookup k := by
  simp only [OrderedMemoryStore.del, h, Bool.not_true, Bool.false_eq_true, if_false]
  split <;> split_ifs with hk
  · rename_i hn; exact hk ▸ hn
  · rfl
  · exact hk ▸ AList.lookup_erase _ _
  · exact AList.lookup_erase_ne hk

@[simp]
theorem OrderedMemoryStore.close_messages (store : OrderedMemoryStore P) :
    store.close.messages = store.messages := by
  unfold OrderedMemoryStore.close; split <;> rfl

@[simp]
theorem OrderedMemoryStore.close_opened (store : OrderedMemoryStore P) :
    store.close.opened = false := by
  unfold OrderedMemoryStore.close; split <;> simp_all

end

end PahoMqtt
