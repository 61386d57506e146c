import PahoMqtt.Keepalive.Model

namespace PahoMqtt

structure BoundInv (o : ClientOptions) (s : Keepalive) : Prop where
  received : s.lastReceived ≤ s.now
  outstanding : s.pingOutstanding = 0 ∨ s.pingOutstanding = 1
  probe : s.pingOutstanding ≠ 0 →
    s.pingSent ≤ s.lastReceived + max (keepAliveDuration o) 0 + checkInterval o
  waiting : s.monitor = .waiting → s.now ≤ s.nextTick ∧ s.nextTick ≤ s.now + checkInterval o ∧
    (s.pingOutstanding = 0 →
      s.nextTick ≤ s.lastReceived + max (keepAliveDuration o) 0 + checkInterval o) ∧
    (s.pingOutstanding ≠ 0 → s.nextTick ≤ s.pingSent + max o.pingTimeout 0 + checkInterval o)
  checking : s.monitor = .checking → s.now = s.nextTick ∧
    (s.pingOutstanding = 0 → s.now ≤ s.lastReceived + max (keepAliveDuration o) 0) ∧
    (s.pingOutstanding ≠ 0 → s.now ≤ s.pingSent + max o.pingTimeout 0 + checkInterval o)

theorem boundInv_init {o : ClientOptions} (hci : 0 ≤ checkInterval o) (start : Int) :
    BoundInv o (Keepalive.init o start) := by
  refine ⟨le_refl start, .inl rfl, (fun h => absurd rfl h), fun _ => ?_, nofun⟩
  refine ⟨?_, le_refl _, fun _ => ?_, (fun h => absurd rfl h)⟩ <;>
    dsimp only [Keepalive.init] <;> omega

theorem boundInv_step {o : ClientOptions} (hci : 0 ≤ checkInterval o) {s s' : Keepalive}
    {out : List Event} (hi : BoundInv o s) (hs : Step o s out s') : BoundInv o s' := by
  obtain ⟨hrec, hout, hprobe, hwait, hcheck⟩ := hi
  cases hs with
  | tick hw hnow =>
    obtain ⟨-, -, h0, h1⟩ := hwait hw
    rcases pingCheck_cases o s with ⟨heq, hc⟩ | ⟨heq, -, hz⟩ <;> rw [heq] <;> dsimp only
    · have hrecent : s.pingOutstanding = 0 → s.now - s.lastReceived < keepAliveDuration o :=
        fun hz => lt_of_not_le fun h => hc ⟨.inr h, hz⟩
      refine ⟨hrec, hout, hprobe, nofun, fun _ => ⟨hnow, fun hz => ?_, fun hz => hnow ▸ h1 hz⟩⟩
      have := hrecent hz
      dsimp only
      omega
    · have := h0 hz
      refine ⟨?_, .inr rfl, fun _ => ?_, nofun,
        fun _ => ⟨hnow, fun h => absurd h (show ¬((1 : Int) = 0) by decide), ?_⟩⟩
      all_goals dsimp only; omega
  | check hc =>
    obtain ⟨hnow, h0, h1⟩ := hcheck hc
    rcases pingTimeoutCheck_cases o s with ⟨heq, -⟩ | ⟨heq, hnl⟩ <;> rw [heq] <;> dsimp only
    · exact ⟨hrec, hout, hprobe, nofun, nofun⟩
    · have hlate : s.pingOutstanding ≠ 0 → s.now - s.pingSent < o.pingTimeout :=
        fun hz => lt_of_not_le fun h => hnl ⟨by omega, h⟩
      refine ⟨hrec, hout, hprobe, fun _ => ⟨?_, ?_, fun hz => ?_, fun hz => ?_⟩, nofun⟩ <;>
        dsimp only
      · omega
      · omega
      · have := h0 hz; omega
      · have := hlate hz; omega
  | elapse t ht hnc hle =>
    refine ⟨by dsimp only; omega, hout, hprobe, fun hw => ?_, fun h => absurd h hnc⟩
    obtain ⟨-, h1, h2, h3⟩ := hwait hw
    exact ⟨hle hw, by dsimp only; omega, h2, h3⟩
  | write => exact ⟨hrec, hout, hprobe, hwait, hcheck⟩
  | stop hw => exact ⟨hrec, hout, hprobe, nofun, nofun⟩
  | read pingresp =>
    cases pingresp with
    | false =>
      refine ⟨le_refl _, hout, fun hz => ?_, fun hw => ?_, fun hc => ?_⟩
      · have := hprobe hz; dsimp only; omega
      · obtain ⟨h0, h1, h2, h3⟩ := hwait hw
        exact ⟨h0, h1, fun hz => by have := h2 hz; dsimp only; omega, h3⟩
      · obtain ⟨h0, h1, h2⟩ := hcheck hc
        exact ⟨h0, fun hz => by have := h1 hz; dsimp only; omega, h2⟩
    | true =>
      refine ⟨le_refl _, .inl rfl, (fun h => absurd rfl h), fun hw => ?_, fun hc => ?_⟩
      · obtain ⟨h0, h1, -, -⟩ := hwait hw
        exact ⟨h0, h1, fun _ => by dsimp only at *; omega, (fun h => absurd rfl h)⟩
      · obtain ⟨h0, -, -⟩ := hcheck hc
        exact ⟨h0, fun _ => by dsimp only at *; omega, (fun h => absurd rfl h)⟩

theorem boundInv_reach {o : ClientOptions} {start : Int} {s : Keepalive} {log : List Event}
    (hci : 0 ≤ checkInterval o) (h : Reach o start s log) : BoundInv o s := by
  induction h with
  | init => exact boundInv_init hci start
  | step _ hs ih => exact boundInv_step hci ih hs

theorem keepalive_detection_bound {o : ClientOptions} {start : Int} {s : Keepalive}
    {log : List Event} (hka : 0 < o.keepAlive) (h : Reach o start s log)
    (hrun : s.monitor = .waiting ∨ s.monitor = .checking) :
    s.now ≤ s.lastReceived + o.keepAlive * second + max o.pingTimeout 0 + 2 * checkInterval o := by
  have hci := checkInterval_pos hka
  have hkd := keepAliveDuration_le hka.le
  have hd : 0 ≤ o.keepAlive * second := Int.mul_nonneg hka.le (by decide)
  obtain ⟨-, -, hprobe, hwait, hcheck⟩ := boundInv_reach hci.le h
  by_cases hz : s.pingOutstanding = 0
  · rcases hrun with hw | hc
    · have := (hwait hw).1; have := (hwait hw).2.2.1 hz; omega
    · have := (hcheck hc).2.1 hz; omega
  · have := hprobe hz
    rcases hrun with hw | hc
    · have := (hwait hw).1; have := (hwait hw).2.2.2 hz; omega
    · have := (hcheck hc).2.2 hz; omega

theorem keepalive_detection_bound_pending :
    Reach ⟨1, second⟩ 0 ⟨7 * second / 4, second, 0, 1, second, 2 * second, .waiting⟩
        [.pingreq second] ∧
      7 * second / 4 ≤ 0 + 1 * second + max second 0 + 2 * checkInterval ⟨1, second⟩ := by
  have h := reach_cycles 7 (@Reach.init ⟨1, second⟩ 0) (by decide)
  rw [show cycles ⟨1, second⟩ 7 (Keepalive.init ⟨1, second⟩ 0) =
    (⟨7 * second / 4, second, 0, 1, second, 2 * second, .waiting⟩, [.pingreq second]) by
      decide] at h
  exact ⟨h, keepalive_detection_bound (by decide) h (.inl rfl)⟩

theorem keepalive_bound_negative_timeout :
    Reach ⟨1, -100 * second⟩ 0 (Keepalive.init ⟨1, -100 * second⟩ 0) [] ∧
      (Keepalive.init ⟨1, -100 * second⟩ 0).monitor = .waiting ∧
      (Keepalive.init ⟨1, -100 * second⟩ 0).lastReceived + 1 * second + -100 * second +
        2 * checkInterval ⟨1, -100 * second⟩ < (Keepalive.init ⟨1, -100 * second⟩ 0).now :=
  ⟨.init, rfl, by decide⟩

end PahoMqtt
