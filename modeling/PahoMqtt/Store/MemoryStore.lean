import Mathlib.Data.List.AList
import PahoMqtt.Packets.Stream

namespace PahoMqtt

inductive StoreOp (M : Type) where
  | «open»
  | close
  | put (key : GoString) (message : M) (now : Int)
  | get (key : GoString)
  | del (key : GoString)
  | all
  | reset

inductive StoreOut (P : Type) where
  | done
  | packet (message : Option P)
  | keys (keys : List GoString)

def StoreOp.map {M N : Type} (f : M → N) : StoreOp M → StoreOp N
  | .open => .open
  | .close => .close
  | .put key message now => .put key (f message) now
  | .get key => .get key
  | .del key => .del key
  | .all => .all
  | .reset => .reset

def StoreOp.openedAfter {M : Type} (opened : Bool) : StoreOp M → Bool
  | .open => true
  | .close => false
  | _ => opened

def runOps {S O R : Type} (step : S → O → S × R) : S → List O → S × List R
  | s, [] => (s, [])
  | s, op :: ops =>
    let r := runOps step (step s op).1 ops
    (r.1, (step s op).2 :: r.2)

structure MemoryStore (P : Type) where
  messages : AList (fun _ : GoString => Option P)
  opened : Bool

section
variable {P : Type}

def MemoryStore.new : MemoryStore P := ⟨∅, false⟩

def MemoryStore.open (store : MemoryStore P) : MemoryStore P := { store with opened := true }

def MemoryStore.put (store : MemoryStore P) (key : GoString) (message : Option P) :
    MemoryStore P :=
  if !store.opened then store else { store with messages := store.messages.insert key message }

def MemoryStore.get (store : MemoryStore P) (key : GoString) : Option P :=
  if !store.opened then none else (store.messages.lookup key).getD none

def MemoryStore.all (store : MemoryStore P) : List GoString :=
  if !store.opened then [] else store.messages.keys

def MemoryStore.del (store : MemoryStore P) (key : GoString) : MemoryStore P :=
  if !store.opened then store
  else
    match (store.messages.lookup key).getD none with
    | none => store
    | some _ => { store with messages := store.messages.erase key }

def MemoryStore.close (store : MemoryStore P) : MemoryStore P :=
  if !store.opened then store else { store with opened := false }

def MemoryStore.reset (store : MemoryStore P) : MemoryStore P := { store with messages := ∅ }

def MemoryStore.step (store : MemoryStore P) : StoreOp (Option P) → MemoryStore P × StoreOut P
  | .open => (store.open, .done)
  | .close => (store.close, .done)
  | .put key message _ => (store.put key message, .done)
  | .get key => (store, .packet (store.get key))
  | .del key => (store.del key, .done)
  | .all => (store, .keys store.all)
  | .reset => (store.reset, .done)

def MemoryStore.run (store : MemoryStore P) (ops : List (StoreOp (Option P))) :
    MemoryStore P × List (StoreOut P) :=
  runOps MemoryStore.step store ops

@[simp]
theorem MemoryStore.put_opened (store : MemoryStore P) (key : GoString) (message : Option P) :
    (store.put key message).opened = store.opened := by
  unfold MemoryStore.put; split <;> rfl

theorem MemoryStore.put_closed {store : MemoryStore P} (h : store.opened = false) (key : GoString)
    (message : Option P) : store.put key message = store := by
  simp [MemoryStore.put, h]

theorem MemoryStore.lookup_put {store : MemoryStore P} (h : store.opened = true)
    (key k : GoString) (message : Option P) :
    (store.put key message).messages.lookup k =
      if k = key then some message else store.messages.lookup k := by
  simp only [MemoryStore.put, h, Bool.not_true, Bool.false_eq_true, if_false]
  split_ifs with hk
  · exact hk ▸ AList.lookup_insert _
  · exact AList.lookup_insert_ne hk

@[simp]
theorem MemoryStore.del_opened (store : MemoryStore P) (key : GoString) :
    (store.del key).opened = store.opened := by
  unfold MemoryStore.del; repeat' split
  all_goals rfl

theorem MemoryStore.del_closed {store : MemoryStore P} (h : store.opened = false) (key : GoString) :
    store.del key = store := by
  simp [MemoryStore.del, h]

theorem MemoryStore.lookup_del {store : MemoryStore P} (h : store.opened = true) (key k : GoString) :
    (store.del key).messages.lookup k =
      if k = key ∧ (store.get key).isSome then none else store.messages.lookup k := by
  simp only [MemoryStore.del, MemoryStore.get, h, Bool.not_true, Bool.false_eq_true, if_false]
  split
  · rename_i hn
    simp [hn]
  · rename_i hs
    simp only [hs, Option.isSome_some, and_true]
    split_ifs with hk
    · exact hk ▸ AList.lookup_erase _ _
    · exact AList.lookup_erase_ne hk

@[simp]
theorem MemoryStore.close_messages (store : MemoryStore P) :
    store.close.messages = store.messages := by
  unfold MemoryStore.close; split <;> rfl

@[simp]
theorem MemoryStore.close_opened (store : MemoryStore P) : store.close.opened = false := by
  unfold MemoryStore.close; split <;> simp_all

end

end PahoMqtt
