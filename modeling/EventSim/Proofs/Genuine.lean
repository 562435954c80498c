import EventSim.Proofs.Conservation
import EventSim.Proofs.Partitions

set_option autoImplicit false

/-!
# Genuine cancellations

A cancellation travels to the worker of the target that its handle names. A forged handle, with the identity
of one message and the target of another, would therefore be effective or not depending on where the targets
are. If all handles are genuine, the engine is orderly throughout the run.

## Main definitions

* `EventSim.Scheduler.Genuine` — cancellations in the run are made with the handles of messages.

## Main results

* `EventSim.Scheduler.Sound.orderly_of_stages_eq` — the engine is orderly at every stage.
* `EventSim.Scheduler.Sound.orderly_after` — the engine is orderly after every round without fault.
-/

namespace EventSim

variable {U P : Type} [Payload P] [SimUnit U P]

namespace Scheduler

variable {s : Scheduler U P} {ts us : List (Stage U P)} {e : Engine U P} {round : Nat}

/-- A handle by which a message of the run is cancelled is the handle of that message. -/
def Genuine (s : Scheduler U P) : Prop :=
  ∀ h ∈ Envelope.handles (s.envelopes s.stages), ∀ m ∈ s.posted s.stages, m.id = h.id → m.handle = h

instance (s : Scheduler U P) : Decidable s.Genuine :=
  inferInstanceAs (Decidable (∀ h ∈ Envelope.handles (s.envelopes s.stages),
    ∀ m ∈ s.posted s.stages, m.id = h.id → m.handle = h))

/-- Cancellations are genuine if they are made with handles that were handed out for messages. -/
lemma Sound.genuine (hs : s.Sound)
    (h : ∀ h ∈ Envelope.handles (s.envelopes s.stages), ∃ m ∈ s.posted s.stages, h = m.handle) :
    s.Genuine := by
  intro c hc m hm hid
  obtain ⟨m', hm', rfl⟩ := h c hc
  have hn := hs.nodup_posted (List.append_nil s.stages).symm
  rw [List.inj_on_of_nodup_map hn hm hm' hid]

/-- The engine is orderly when some stages are over, if cancellations are genuine. -/
lemma Genuine.orderly (hg : s.Genuine) (hs : s.Sound) (h : s.stages = ts ++ us)
    (hc : e.Coherent round) (hp : (s.posted ts).Perm
      (s.delivered ts ++ (withdrawn ts ++ (e.waiting ++ e.postbox.messages round))))
    (hsent : ∀ y ∈ e.postbox.envelopes round, y ∈ s.envelopes ts) : e.Orderly round where
  coherent := hc
  nodup := Sound.nodup_key_pending (hs.nodup_posted h) hp
  genuine c hcancel m hm hkey := by
    have hsub : ∀ {y}, y ∈ s.envelopes ts → y ∈ s.envelopes s.stages := by
      intro y hy
      rw [envelopes] at hy ⊢
      rw [h, List.flatMap_append, ← List.append_assoc]
      exact List.mem_append_left _ hy
    have hposted : m ∈ s.posted s.stages := mem_posted.2 (hsub (mem_posted.1 (hp.mem_iff.2
      (List.mem_append_right _ (List.mem_append_right _ hm)))))
    have hhandle := hg c (Envelope.mem_handles.2 (hsub (hsent _ hcancel))) m hposted
      (congrArg Key.id hkey).symm
    rw [← hhandle]
    rfl

namespace Sound

variable {t : Stage U P} {rest : List (Stage U P)}

/-- The engine is orderly at every stage. -/
lemma orderly_of_stages_eq (hs : s.Sound) (hg : s.Genuine) (h : s.stages = ts ++ t :: rest) :
    t.engine.Orderly t.past :=
  hg.orderly hs h (hs.coherent_of_stages_eq h) (hs.perm_of_stages_eq h)
    fun _ => hs.mem_envelopes_of_stages_eq h

/-- The engine is orderly after every round without fault. -/
lemma orderly_after (hs : s.Sound) (hg : s.Genuine) (h : s.stages = ts ++ t :: rest)
    (hf : (t.record s.config).fault = none) : (t.after s.config).Orderly (t.past + 1) := by
  have hc := hs.coherent_of_stages_eq h
  have hsplit : s.stages = (ts ++ [t]) ++ rest := h.trans (List.append_cons ..)
  refine hg.orderly hs hsplit (hc.runRound s.config t.horizon.current)
    (hs.perm_after h hf (hs.perm_of_stages_eq h)) fun y hy => ?_
  rw [envelopes, List.flatMap_append, List.flatMap_singleton]
  exact List.mem_append_right _ (List.mem_append_right _ (hc.mem_envelopes_runRound.1 hy))

end Sound

end Scheduler

end EventSim
