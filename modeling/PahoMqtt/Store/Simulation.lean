import PahoMqtt.Store.Contract

namespace PahoMqtt

open Packets

section
variable {F : Type} [Inhabited F]
variable (writePacket : ControlPacket F → List UInt8)
variable (unpack : ControlPacket F → List UInt8 → ControlPacket F × Option GoError)

theorem FileStore.opened_step (store : FileStore) (op : StoreOp (ControlPacket F)) :
    (store.step writePacket unpack op).1.opened = op.openedAfter store.opened := by
  cases op with
  | put => simp only [FileStore.step, FileStore.put]; split <;> rfl
  | get key =>
    simp only [FileStore.step, FileStore.get]
    repeat' split
    all_goals rfl
  | del => exact FileStore.del_opened _ _
  | reset => exact FileStore.opened_foldl_del _ _
  | _ => rfl

end

end PahoMqtt
