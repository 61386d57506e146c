import PahoMqtt.Keepalive.Model

namespace PahoMqtt

def Event.isPingreq : Event → Bool
  | .pingreq _ => true
  | _ => false

def Event.isPingresp : Event → Bool
  | .pingresp _ => true
  | _ => false

def pendingStep (p : Option Int) : Event → Option Int
  | .pingreq t => some t
  | .pingresp _ => none
  | .connLost _ => p

def pending (log : List Event) : Option Int := log.foldl pendingStep none

def History (P : List Event → Event → Prop) (log : List Event) : Prop :=
  ∀ a x b, log = a ++ x :: b → P a x

theorem History.nil (P : List Event → Event → Prop) : History P [] := by
  intro a x b h
  exact absurd h.symm (by simp)

theorem History.append {P : List Event → Event → Prop} {log out : List Event}
    (h : History P log) (h' : ∀ a x b, out = a ++ x :: b → P (log ++ a) x) :
    History P (log ++ out) := by
  intro a x b he
  rcases List.append_eq_append_iff.mp he with ⟨a', rfl, hout⟩ | ⟨c', rfl, hc⟩
  · exact h' a' x b hout
  · cases c' with
    | nil => simpa using h' [] x b hc.symm
    | cons y c'' =>
      obtain ⟨rfl, rfl⟩ := List.cons.inj hc
      exact h a x c'' rfl

theorem History.singleton {P : List Event → Event → Prop} {log : List Event} {e : Event}
    (h : History P log) (he : P log e) : History P (log ++ [e]) :=
  h.append fun a x b hab => by
    cases a with
    | nil => obtain ⟨rfl, -⟩ := List.cons.inj hab; simpa using he
    | cons y a => simp at hab

theorem pending_append_single (log : List Event) (e : Event) :
    pending (log ++ [e]) = pendingStep (pending log) e := by
  simp [pending, List.foldl_append]

theorem foldl_pendingStep_none {l : List Event} {p : Int}
    (h : l.foldl pendingStep (some p) = none) : ∃ u, Event.pingresp u ∈ l := by
  induction l generalizing p with
  | nil => cases h
  | cons e l ih =>
    cases e with
    | pingreq t => obtain ⟨u, hu⟩ := ih h; exact ⟨u, List.mem_cons_of_mem _ hu⟩
    | pingresp t => exact ⟨t, List.mem_cons_self _ _⟩
    | connLost t => obtain ⟨u, hu⟩ := ih h; exact ⟨u, List.mem_cons_of_mem _ hu⟩

theorem foldl_pendingStep_some {l : List Event} {q : Option Int} {p : Int}
    (h : l.foldl pendingStep q = some p) :
    (q = some p ∧ ∀ u, Event.pingreq u ∉ l ∧ Event.pingresp u ∉ l) ∨
      ∃ a1 a2, l = a1 ++ Event.pingreq p :: a2 ∧ ∀ u, Event.pingreq u ∉ a2 ∧ Event.pingresp u ∉ a2 := by
  induction l generalizing q with
  | nil => exact .inl ⟨h, by simp⟩
  | cons e l ih =>
    rcases ih h with ⟨hq, hl⟩ | ⟨a1, a2, rfl, ha2⟩
    · cases e with
      | pingreq t => cases hq; exact .inr ⟨[], l, rfl, hl⟩
      | pingresp t => cases hq
      | connLost t =>
        exact .inl ⟨hq, fun u => by simpa using hl u⟩
    · exact .inr ⟨e :: a1, a2, rfl, ha2⟩

theorem pending_some {log : List Event} {p : Int} (h : pending log = some p) :
    ∃ a1 a2, log = a1 ++ Event.pingreq p :: a2 ∧ ∀ u, Event.pingreq u ∉ a2 ∧ Event.pingresp u ∉ a2 := by
  rcases foldl_pendingStep_some h with ⟨h0, -⟩ | h
  · cases h0
  · exact h

theorem pending_answered {a1 a2 : List Event} {p : Int}
    (h : pending (a1 ++ Event.pingreq p :: a2) = none) : ∃ u, Event.pingresp u ∈ a2 := by
  simp only [pending, List.foldl_append, List.foldl_cons, pendingStep] at h
  exact foldl_pendingStep_none h

structure ProbeInv (o : ClientOptions) (s : Keepalive) (log : List Event) : Prop where
  outstanding : s.pingOutstanding = 0 ∨ s.pingOutstanding = 1
  idle : s.pingOutstanding = 0 → pending log = none
  probing : s.pingOutstanding = 1 → pending log = some s.pingSent
  paced : History (fun a x => ∀ t, x = .pingreq t → pending a = none) log
  justified : History (fun a x => ∀ t, x = .connLost t →
    ∃ p, pending a = some p ∧ t - p ≥ o.pingTimeout) log
  counted : log.countP Event.isPingreq ≤ log.countP Event.isPingresp + s.pingOutstanding.toNat

theorem probeInv_init (o : ClientOptions) (start : Int) :
    ProbeInv o (Keepalive.init o start) [] :=
  ⟨.inl rfl, fun _ => rfl, fun h => absurd h (show ¬((0 : Int) = 1) by decide), History.nil _,
    History.nil _, le_refl _⟩

theorem ProbeInv.of_eq {o : ClientOptions} {s s' : Keepalive} {log : List Event}
    (hi : ProbeInv o s log) (h1 : s'.pingOutstanding = s.pingOutstanding)
    (h2 : s'.pingSent = s.pingSent) : ProbeInv o s' (log ++ []) := by
  obtain ⟨a, b, c, d, e, f⟩ := hi
  exact (List.append_nil log).symm ▸ ⟨h1 ▸ a, h1 ▸ b, h1 ▸ h2 ▸ c, d, e, h1 ▸ f⟩

theorem probeInv_step {o : ClientOptions} {s s' : Keepalive} {log out : List Event}
    (hi : ProbeInv o s log) (hs : Step o s out s') : ProbeInv o s' (log ++ out) := by
  cases hs with
  | tick =>
    rcases pingCheck_cases o s with ⟨heq, -⟩ | ⟨heq, -, h0⟩ <;> rw [heq]
    · exact hi.of_eq rfl rfl
    · have hnone := hi.idle h0
      refine ⟨.inr rfl, fun h => absurd h (show ¬((1 : Int) = 0) by decide), fun _ => ?_,
        hi.paced.singleton fun _ _ => hnone, hi.justified.singleton (fun _ ht => by cases ht), ?_⟩
      · rw [pending_append_single, hnone]; rfl
      · have := hi.counted
        simp [Event.isPingreq, Event.isPingresp, h0] at this ⊢; omega
  | check =>
    rcases pingTimeoutCheck_cases o s with ⟨heq, hpos, hto⟩ | ⟨heq, -⟩ <;> rw [heq]
    · have hp := hi.probing (by rcases hi.outstanding with h | h <;> omega)
      refine ⟨hi.outstanding, fun h => ?_, fun h => ?_,
        hi.paced.singleton (fun _ ht => by cases ht),
        hi.justified.singleton (fun t ht => ⟨s.pingSent, hp, by cases ht; exact hto⟩), ?_⟩
      · rw [pending_append_single]; exact hi.idle h
      · rw [pending_append_single]; exact hi.probing h
      · simpa [Event.isPingreq, Event.isPingresp] using hi.counted
    · exact hi.of_eq rfl rfl
  | elapse => exact hi.of_eq rfl rfl
  | write => exact hi.of_eq rfl rfl
  | stop => exact hi.of_eq rfl rfl
  | read pingresp =>
    cases pingresp with
    | false => exact hi.of_eq rfl rfl
    | true =>
      show ProbeInv o { s with lastReceived := s.now, pingOutstanding := 0 }
        (log ++ [.pingresp s.now])
      refine ⟨.inl rfl, fun _ => ?_, fun h => absurd h (show ¬((0 : Int) = 1) by decide),
        hi.paced.singleton (fun _ ht => by cases ht),
        hi.justified.singleton (fun _ ht => by cases ht), ?_⟩
      · rw [pending_append_single]; rfl
      · have := hi.counted
        have := hi.outstanding
        simp [Event.isPingreq, Event.isPingresp]; omega

theorem probeInv_reach {o : ClientOptions} {start : Int} {s : Keepalive} {log : List Event}
    (h : Reach o start s log) : ProbeInv o s log := by
  induction h with
  | init => exact probeInv_init o start
  | step _ hs ih => exact probeInv_step ih hs

theorem keepalive_probe_discipline {o : ClientOptions} {start : Int} {s : Keepalive}
    {log : List Event} (h : Reach o start s log) :
    (∀ a1 p a2 t b, log = a1 ++ Event.pingreq p :: (a2 ++ Event.pingreq t :: b) →
      ∃ u, Event.pingresp u ∈ a2) ∧
    log.countP Event.isPingreq ≤ log.countP Event.isPingresp + 1 ∧
    (∀ a t b, log = a ++ Event.connLost t :: b → ∃ a1 p a2, a = a1 ++ Event.pingreq p :: a2 ∧
      (∀ u, Event.pingreq u ∉ a2 ∧ Event.pingresp u ∉ a2) ∧ t - p ≥ o.pingTimeout) := by
  have hi := probeInv_reach h
  refine ⟨fun a1 p a2 t b he => ?_, ?_, fun a t b he => ?_⟩
  · exact pending_answered (hi.paced _ _ b (by rw [he, List.append_assoc]; rfl) t rfl)
  · have := hi.counted
    rcases hi.outstanding with h0 | h0 <;> rw [h0] at this <;> simp at this <;> omega
  · obtain ⟨p, hp, hle⟩ := hi.justified a _ b he t rfl
    obtain ⟨a1, a2, rfl, ha2⟩ := pending_some hp
    exact ⟨a1, p, a2, rfl, ha2, hle⟩

theorem keepalive_probe_discipline_conn_lost :
    Reach ⟨1, second⟩ 0 ⟨2 * second, second, 0, 1, second, 2 * second, .connLost⟩
        [.pingreq second, .connLost (2 * second)] ∧
      ∃ a1 p a2, [Event.pingreq second] = a1 ++ Event.pingreq p :: a2 ∧
        (∀ u, Event.pingreq u ∉ a2 ∧ Event.pingresp u ∉ a2) ∧ 2 * second - p ≥ second := by
  have h := reach_cycles 8 (@Reach.init ⟨1, second⟩ 0) (by decide)
  rw [show cycles ⟨1, second⟩ 8 (Keepalive.init ⟨1, second⟩ 0) =
    (⟨2 * second, second, 0, 1, second, 2 * second, .connLost⟩,
      [.pingreq second, .connLost (2 * second)]) by decide] at h
  exact ⟨h, (keepalive_probe_discipline h).2.2 [.pingreq second] (2 * second) [] rfl⟩

end PahoMqtt
