import PahoMqtt.Packets.FixedHeader
import PahoMqtt.Packets.Fields
import Mathlib.Data.List.Forall2
import Mathlib.Tactic.IntervalCases

namespace PahoMqtt.Packets

inductive PacketType where
  | connect | connack | publish | puback | pubrec | pubrel | pubcomp
  | subscribe | suback | unsubscribe | unsuback | pingreq | pingresp | disconnect
  deriving DecidableEq, Repr

def PacketType.messageType : PacketType → UInt8
  | .connect => 1 | .connack => 2 | .publish => 3 | .puback => 4 | .pubrec => 5
  | .pubrel => 6 | .pubcomp => 7 | .subscribe => 8 | .suback => 9 | .unsubscribe => 10
  | .unsuback => 11 | .pingreq => 12 | .pingresp => 13 | .disconnect => 14

def PacketType.ofMessageType (t : UInt8) : Option PacketType :=
  match t.toNat with
  | 1 => some .connect | 2 => some .connack | 3 => some .publish | 4 => some .puback
  | 5 => some .pubrec | 6 => some .pubrel | 7 => some .pubcomp | 8 => some .subscribe
  | 9 => some .suback | 10 => some .unsubscribe | 11 => some .unsuback | 12 => some .pingreq
  | 13 => some .pingresp | 14 => some .disconnect | _ => none

structure ControlPacket (F : Type) where
  packetType : PacketType
  fixedHeader : FixedHeader
  fields : F

section
variable {F : Type} [Inhabited F]

def newControlPacket (packetType : UInt8) : Option (ControlPacket F) :=
  (PacketType.ofMessageType packetType).map fun t =>
    let qos : UInt8 := if t = .pubrel ∨ t = .subscribe ∨ t = .unsubscribe then 1 else 0
    ⟨t, ⟨packetType, false, qos, false, 0⟩, default⟩

def newControlPacketWithHeader (fh : FixedHeader) : Except GoError (ControlPacket F) :=
  match PacketType.ofMessageType fh.messageType with
  | some t => .ok ⟨t, fh, default⟩
  | none => .error (.unsupportedPacketType fh.messageType)

variable (unpack : ControlPacket F → List UInt8 → ControlPacket F × Option GoError)

def readPacket (r : List UInt8) : (Option (ControlPacket F) × Option GoError) × List UInt8 :=
  match readFull r 1 with
  | (.error err, r) => ((none, some err), r)
  | (.ok b, r) =>
    match FixedHeader.unpack (b.getD 0 0) r with
    | ((_, some err), r) => ((none, some err), r)
    | ((fh, none), r) =>
      match newControlPacketWithHeader fh with
      | .error err => ((none, some err), r)
      | .ok cp =>
        match readFull r fh.remainingLength.toNat with
        | (.error err, r) => ((none, some err), r)
        | (.ok packetBytes, r) =>
          if (packetBytes.length : Int) ≠ fh.remainingLength then
            ((none, some .failedToReadExpectedData), r)
          else
            let (cp, err) := unpack cp packetBytes
            ((some cp, err), r)

def readPackets : Nat → List UInt8 →
    List (Option (ControlPacket F) × Option GoError) × List UInt8
  | 0, r => ([], r)
  | n + 1, r =>
    let (res, r) := readPacket unpack r
    let (rest, r) := readPackets n r
    (res :: rest, r)

theorem ofMessageType_of_range {t : UInt8} (h1 : 1 ≤ t.toNat) (h14 : t.toNat ≤ 14) :
    ∃ p, PacketType.ofMessageType t = some p ∧ p.messageType = t := by
  obtain ⟨n, hn⟩ : ∃ n, t.toNat = n := ⟨_, rfl⟩
  have ht : t = UInt8.ofNat n := UInt8.ext (by rw [hn, UInt8.toNat_ofNat']; omega)
  have hn1 : 1 ≤ n := hn ▸ h1
  have hn14 : n ≤ 14 := hn ▸ h14
  subst ht
  interval_cases n <;> exact ⟨_, rfl, rfl⟩

theorem readPacket_frame (fh : FixedHeader) (body r : List UInt8) (t : PacketType)
    (ht : PacketType.ofMessageType fh.messageType = some t) (hq : fh.qos ≤ 3)
    (h0 : 0 ≤ fh.remainingLength) (h1 : fh.remainingLength ≤ 268435455)
    (hlen : (body.length : Int) = fh.remainingLength) :
    readPacket unpack (fh.pack ++ body ++ r) =
      ((some (unpack ⟨t, fh, default⟩ body).1, (unpack ⟨t, fh, default⟩ body).2), r) := by
  have hmt : fh.messageType ≤ 15 := by
    show fh.messageType.toNat ≤ 15
    unfold PacketType.ofMessageType at ht
    split at ht <;> first | omega | cases ht
  obtain ⟨b, rest, hp, hu⟩ := unpack_pack fh (body ++ r) hmt hq h0 h1
  have hread : readFull (body ++ r) fh.remainingLength.toNat = (.ok body, r) := by
    rw [show fh.remainingLength.toNat = body.length by omega, readFull_append]
  simp only [hp, List.cons_append, List.append_assoc]
  rw [readPacket, readFull_cons_one]
  simp only [List.getD_cons_zero, hu, newControlPacketWithHeader, ht, hread, hlen, ne_eq,
    not_true_eq_false, if_false]

def FrameOk (f : FixedHeader × List UInt8) : Prop :=
  1 ≤ f.1.messageType ∧ f.1.messageType ≤ 14 ∧ f.1.qos ≤ 3 ∧ 0 ≤ f.1.remainingLength ∧
    f.1.remainingLength ≤ 268435455 ∧ (f.2.length : Int) = f.1.remainingLength

def UnpackedFrom (res : Option (ControlPacket F) × Option GoError)
    (f : FixedHeader × List UInt8) : Prop :=
  ∃ t : PacketType, t.messageType = f.1.messageType ∧
    res = (some (unpack ⟨t, f.1, default⟩ f.2).1, (unpack ⟨t, f.1, default⟩ f.2).2)

theorem readPackets_frames (frames : List (FixedHeader × List UInt8)) (r : List UInt8)
    (h : ∀ f ∈ frames, FrameOk f) :
    (readPackets unpack frames.length (frames.flatMap (fun f => f.1.pack ++ f.2) ++ r)).2 = r ∧
      List.Forall₂ (UnpackedFrom unpack)
        (readPackets unpack frames.length (frames.flatMap (fun f => f.1.pack ++ f.2) ++ r)).1 frames := by
  induction frames with
  | nil => exact ⟨rfl, .nil⟩
  | cons f fs ih =>
    obtain ⟨hm1, hm14, hq, h0, h1, hlen⟩ := h f (List.mem_cons_self _ _)
    obtain ⟨t, ht, htm⟩ := ofMessageType_of_range hm1 hm14
    obtain ⟨ih1, ih2⟩ := ih (fun g hg => h g (List.mem_cons_of_mem _ hg))
    rw [List.flatMap_cons, List.append_assoc, List.length_cons, readPackets,
      readPacket_frame unpack f.1 f.2 _ t ht hq h0 h1 hlen]
    exact ⟨ih1, .cons ⟨t, htm, rfl⟩ ih2⟩

end

theorem frame_round_trip {F : Type} [Inhabited F]
    (unpack : ControlPacket F → List UInt8 → ControlPacket F × Option GoError) :
    (∀ (fh : FixedHeader) (r : List UInt8), fh.messageType ≤ 15 → fh.qos ≤ 3 →
      0 ≤ fh.remainingLength → fh.remainingLength ≤ 268435455 →
      ∃ b rest, fh.pack = b :: rest ∧ FixedHeader.unpack b (rest ++ r) = ((fh, none), r)) ∧
    (∀ (frames : List (FixedHeader × List UInt8)) (r : List UInt8), (∀ f ∈ frames, FrameOk f) →
      (readPackets unpack frames.length (frames.flatMap (fun f => f.1.pack ++ f.2) ++ r)).2 = r ∧
      List.Forall₂ (UnpackedFrom unpack)
        (readPackets unpack frames.length (frames.flatMap (fun f => f.1.pack ++ f.2) ++ r)).1
        frames) :=
  ⟨fun fh r hmt hq h0 h1 => unpack_pack fh r hmt hq h0 h1,
    fun frames r h => readPackets_frames unpack frames r h⟩

theorem readPacket_unpack_error_keeps_packet :
    readPacket (fun (cp : ControlPacket UInt16) body =>
        match decodeUint16 body with
        | (.ok messageID, _) => ({ cp with fields := messageID }, none)
        | (.error err, _) => (cp, some err)) [0x40, 0x00] =
      ((some ⟨.puback, ⟨4, false, 0, false, 0⟩, 0⟩, some .eof), []) := rfl

end PahoMqtt.Packets
