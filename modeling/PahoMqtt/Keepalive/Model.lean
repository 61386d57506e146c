import Mathlib.Data.List.Basic
import Mathlib.Data.Int.Defs
import Mathlib.Tactic.NormNum

namespace PahoMqtt

def second : Int := 1000000000

structure ClientOptions where
  keepAlive : Int
  pingTimeout : Int

def checkInterval (o : ClientOptions) : Int :=
  if o.keepAlive > 10 then 5 * second else (o.keepAlive * second).tdiv 4

def keepAliveDuration (o : ClientOptions) : Int := (o.keepAlive * second).bmod (2 ^ 64)

def zeroTime : Int := -62135596800 * second

inductive Monitor where
  | waiting | checking | stopped | connLost
  deriving DecidableEq, Repr

inductive Event where
  | pingreq (t : Int)
  | pingresp (t : Int)
  | connLost (t : Int)
  deriving DecidableEq, Repr

structure Keepalive where
  now : Int
  lastSent : Int
  lastReceived : Int
  pingOutstanding : Int
  pingSent : Int
  nextTick : Int
  monitor : Monitor
  deriving DecidableEq, Repr

def Keepalive.init (o : ClientOptions) (start : Int) : Keepalive :=
  ⟨start, start, start, 0, zeroTime, start + checkInterval o, .waiting⟩

def pingCheck (o : ClientOptions) (s : Keepalive) : Keepalive × List Event :=
  let s := { s with monitor := .checking }
  if s.now - s.lastSent ≥ keepAliveDuration o ∨ s.now - s.lastReceived ≥ keepAliveDuration o then
    if s.pingOutstanding = 0 then
      ({ s with pingOutstanding := 1, lastSent := s.now, pingSent := s.now }, [.pingreq s.now])
    else (s, [])
  else (s, [])

def pingTimeoutCheck (o : ClientOptions) (s : Keepalive) : Keepalive × List Event :=
  if s.pingOutstanding > 0 ∧ s.now - s.pingSent ≥ o.pingTimeout then
    ({ s with monitor := .connLost }, [.connLost s.now])
  else ({ s with monitor := .waiting, nextTick := s.nextTick + checkInterval o }, [])

inductive Step (o : ClientOptions) : Keepalive → List Event → Keepalive → Prop where
  | tick {s : Keepalive} : s.monitor = .waiting → s.now = s.nextTick →
      Step o s (pingCheck o s).2 (pingCheck o s).1
  | check {s : Keepalive} : s.monitor = .checking →
      Step o s (pingTimeoutCheck o s).2 (pingTimeoutCheck o s).1
  | elapse {s : Keepalive} (t : Int) : s.now ≤ t → s.monitor ≠ .checking →
      (s.monitor = .waiting → t ≤ s.nextTick) → Step o s [] { s with now := t }
  /-- Modelled from the spec: the connection writer stamps `lastSent` when it writes a packet. -/
  | write {s : Keepalive} : Step o s [] { s with lastSent := s.now }
  /-- Modelled from the spec: the connection reader stamps `lastReceived` on every packet it
  reads, and on a PINGRESP resets `pingOutstanding` to 0. -/
  | read {s : Keepalive} (pingresp : Bool) :
      Step o s (if pingresp then [.pingresp s.now] else [])
        { s with lastReceived := s.now,
                 pingOutstanding := if pingresp then 0 else s.pingOutstanding }
  | stop {s : Keepalive} : s.monitor = .waiting → Step o s [] { s with monitor := .stopped }

inductive Reach (o : ClientOptions) (start : Int) : Keepalive → List Event → Prop where
  | init : Reach o start (Keepalive.init o start) []
  | step {s s' : Keepalive} {log out : List Event} :
      Reach o start s log → Step o s out s' → Reach o start s' (log ++ out)

def cycle (o : ClientOptions) (s : Keepalive) : Keepalive × List Event :=
  let c := pingCheck o { s with now := s.nextTick }
  let t := pingTimeoutCheck o c.1
  (t.1, c.2 ++ t.2)

def cycles (o : ClientOptions) : Nat → Keepalive → Keepalive × List Event
  | 0, s => (s, [])
  | n + 1, s =>
    let r := cycles o n (cycle o s).1
    (r.1, (cycle o s).2 ++ r.2)

theorem pingCheck_cases (o : ClientOptions) (s : Keepalive) :
    (pingCheck o s = ({ s with monitor := .checking }, []) ∧
      ¬((s.now - s.lastSent ≥ keepAliveDuration o ∨ s.now - s.lastReceived ≥ keepAliveDuration o) ∧
        s.pingOutstanding = 0)) ∨
    (pingCheck o s =
      ({ s with monitor := .checking, pingOutstanding := 1, lastSent := s.now, pingSent := s.now },
        [.pingreq s.now]) ∧
      (s.now - s.lastSent ≥ keepAliveDuration o ∨ s.now - s.lastReceived ≥ keepAliveDuration o) ∧
        s.pingOutstanding = 0) := by
  unfold pingCheck
  by_cases hc : s.now - s.lastSent ≥ keepAliveDuration o ∨ s.now - s.lastReceived ≥ keepAliveDuration o
  · by_cases ho : s.pingOutstanding = 0
    · exact .inr ⟨by simp only [hc, ho, if_true], hc, ho⟩
    · exact .inl ⟨by simp only [hc, ho, if_true, if_false], fun h => ho h.2⟩
  · exact .inl ⟨by simp only [hc, if_false], fun h => hc h.1⟩

theorem pingTimeoutCheck_cases (o : ClientOptions) (s : Keepalive) :
    (pingTimeoutCheck o s = ({ s with monitor := .connLost }, [.connLost s.now]) ∧
      s.pingOutstanding > 0 ∧ s.now - s.pingSent ≥ o.pingTimeout) ∨
    (pingTimeoutCheck o s =
      ({ s with monitor := .waiting, nextTick := s.nextTick + checkInterval o }, []) ∧
      ¬(s.pingOutstanding > 0 ∧ s.now - s.pingSent ≥ o.pingTimeout)) := by
  unfold pingTimeoutCheck
  by_cases h : s.pingOutstanding > 0 ∧ s.now - s.pingSent ≥ o.pingTimeout
  · exact .inl ⟨by rw [if_pos h], h⟩
  · exact .inr ⟨by rw [if_neg h], h⟩

theorem checkInterval_pos {o : ClientOptions} (h : 0 < o.keepAlive) : 0 < checkInterval o := by
  unfold checkInterval second
  split
  · norm_num
  · rw [Int.tdiv_eq_ediv (by omega) (by norm_num)]; omega

theorem keepAliveDuration_le {o : ClientOptions} (h : 0 ≤ o.keepAlive) :
    keepAliveDuration o ≤ o.keepAlive * second := by
  have h0 : 0 ≤ o.keepAlive * second := Int.mul_nonneg h (by decide)
  unfold keepAliveDuration Int.bmod
  dsimp only
  split <;> omega

theorem pingCheck_monitor (o : ClientOptions) (s : Keepalive) :
    (pingCheck o s).1.monitor = .checking := by
  rcases pingCheck_cases o s with ⟨h, -⟩ | ⟨h, -⟩ <;> rw [h]

theorem reach_cycle {o : ClientOptions} {start : Int} {s : Keepalive} {log : List Event}
    (h : Reach o start s log) (hw : s.monitor = .waiting) (hle : s.now ≤ s.nextTick) :
    Reach o start (cycle o s).1 (log ++ (cycle o s).2) := by
  have h1 := h.step (.elapse s.nextTick hle (by rw [hw]; nofun) fun _ => le_rfl)
  have h2 := h1.step (.tick (s := { s with now := s.nextTick }) hw rfl)
  have h3 := h2.step (.check (pingCheck_monitor o _))
  rwa [List.append_nil, List.append_assoc] at h3

theorem reach_cycles {o : ClientOptions} {start : Int} (n : Nat) :
    ∀ {s : Keepalive} {log : List Event}, Reach o start s log →
      (∀ i < n, (cycles o i s).1.monitor = .waiting ∧
        (cycles o i s).1.now ≤ (cycles o i s).1.nextTick) →
      Reach o start (cycles o n s).1 (log ++ (cycles o n s).2) := by
  induction n with
  | zero => intro s log h _; simpa [cycles] using h
  | succ n ih =>
    intro s log h hc
    have h0 := hc 0 n.succ_pos
    have := ih (reach_cycle h h0.1 h0.2) fun i hi => hc (i + 1) (by omega)
    rwa [List.append_assoc] at this

end PahoMqtt
