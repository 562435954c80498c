import EventSim.Proofs.UnitHistory
import EventSim.Traffic.Road

set_option autoImplicit false

/-!
# Units that do not heed the horizon

What a unit does may depend on the horizon and on the round. It does not if it looks at neither, and if it
lets every refusal stand: then a call that succeeds has been refused nothing, and so nothing would have been
refused under an earlier horizon. Roads are of this kind.

## Main definitions

* `EventSim.Slot.Heedless` — the call for a message comes to the same under an earlier horizon.
* `EventSim.Script.Steady` — a refusal is never given up.

## Main results

* `EventSim.Script.Steady.run_withView` — a steady script that succeeds would succeed under an earlier horizon.
* `EventSim.Slot.heedless_of_steady` — when a call does not heed the horizon.
* `EventSim.Road.heedless` — roads do not heed the horizon.
-/

namespace EventSim

variable {U P : Type}

/-- The same requests with another view. -/
def Context.withView (c : Context P) (v : View) : Context P := { c with view := v }

/-- The same call with another view. -/
def Call.withView (k : Call U P) (v : View) : Call U P := { k with context := k.context.withView v }

/-! ## Requests under an earlier horizon -/

namespace Context

variable {c : Context P} {v : View}

/-- A refusal is recorded. -/
lemma isSome_fault_record (c : Context P) (e : UnitError) : (c.record e).fault.isSome := by
  simp [record]

/-- A recorded refusal stays recorded when something else is scheduled. -/
lemma isSome_fault_schedule [Payload P] {target : UnitId} {time : SimTime} {payload : P}
    {r : Except UnitError Handle × Context P} (h : c.schedule target time payload = .ok r)
    (hc : c.fault.isSome) : r.2.fault.isSome := by
  unfold schedule at h
  split at h
  · cases h
    exact isSome_fault_record _ _
  split at h
  · split at h <;> cases h
    exact isSome_fault_record _ _
  split at h
  · cases h
    exact isSome_fault_record _ _
  · cases h
    exact hc

/-- A recorded refusal stays recorded when something is withdrawn. -/
lemma isSome_fault_unschedule (h : Handle) (hc : c.fault.isSome) : (c.unschedule h).2.fault.isSome := by
  unfold unschedule
  split
  · exact isSome_fault_record _ _
  · exact hc

/-- What is not refused would not have been refused under an earlier horizon. -/
lemma schedule_withView [Payload P] {target : UnitId} {time : SimTime} {payload : P}
    {r : Except UnitError Handle × Context P} (h : c.schedule target time payload = .ok r)
    (hr : r.2.fault = none) (hunit : v.unit = c.view.unit) (hle : v.horizon ≤ c.view.horizon) :
    (c.withView v).schedule target time payload = .ok (r.1, r.2.withView v) := by
  have hrefuse : ∀ {e : UnitError}, c.record e ≠ r.2 := fun {e} heq => by
    have hsome := isSome_fault_record c e
    rw [heq, hr] at hsome
    cases hsome
  unfold schedule at h ⊢
  split at h
  · cases h
    exact absurd rfl hrefuse
  rename_i hfin
  split at h
  · split at h <;> cases h
    exact absurd rfl hrefuse
  rename_i hlate
  split at h
  · cases h
    exact absurd rfl hrefuse
  rename_i route hroute
  cases h
  have hlate' : ¬ time < (c.withView v).view.horizon := fun hlt => hlate (lt_of_lt_of_le hlt hle)
  rw [if_neg hfin, if_neg hlate', show (c.withView v).table.route target = .ok route from hroute]
  simp only [withView, hunit]

/-- Whether a withdrawal is refused does not depend on the view. -/
lemma unschedule_withView (h : Handle) : (c.withView v).unschedule h =
    ((c.unschedule h).1, (c.unschedule h).2.withView v) := by
  unfold unschedule
  rw [show (c.withView v).table = c.table from rfl]
  split <;> rfl

end Context

/-! ## Steady scripts -/

namespace Script

/-- No refusal is given up. -/
def Steady : Script U P → Prop
  | .stop _ _ => True
  | .schedule _ _ _ _ next => ∀ reply, (next reply).Steady
  | .unschedule _ next => ∀ reply, (next reply).Steady
  | .takeFault _ => False
  | .counts next => ∀ produced cancelled, (next produced cancelled).Steady

variable [Payload P] {s : Script U P} {c : Context P} {v : View}

/-- Once something has been refused, a steady script does not succeed. -/
lemma Steady.isSome_fault (hs : s.Steady) (hc : c.fault.isSome)
    (hend : (s.run c).ending = .completed) : (s.run c).context.fault.isSome := by
  induction s generalizing c with
  | stop unit ending => exact hc
  | schedule unit target time payload next ih =>
    simp only [Script.run] at hend ⊢
    cases h : c.schedule target time payload with
    | error crash =>
      rw [h] at hend
      cases hend
    | ok r =>
      rw [h] at hend
      exact ih r.1 (hs r.1) (Context.isSome_fault_schedule h hc) hend
  | unschedule handle next ih => exact ih _ (hs _) (Context.isSome_fault_unschedule handle hc) hend
  | takeFault next ih => exact hs.elim
  | counts next ih => exact ih _ _ (hs _ _) hc hend

/-- **A steady script that succeeds would succeed under an earlier horizon**, with the same effect. -/
theorem Steady.run_withView (hs : s.Steady) (hend : (s.run c).ending = .completed)
    (hfault : (s.run c).context.fault = none) (hunit : v.unit = c.view.unit)
    (hle : v.horizon ≤ c.view.horizon) : s.run (c.withView v) = (s.run c).withView v := by
  induction s generalizing c with
  | stop unit ending => rfl
  | schedule unit target time payload next ih =>
    simp only [Script.run] at hend hfault ⊢
    cases h : c.schedule target time payload with
    | error crash =>
      rw [h] at hend
      cases hend
    | ok r =>
      rw [h] at hend hfault
      dsimp only at hend hfault
      have hr : r.2.fault = none := by
        apply Option.not_isSome_iff_eq_none.1
        intro hsome
        have hsome' := (hs r.1).isSome_fault hsome hend
        rw [hfault] at hsome'
        cases hsome'
      obtain ⟨new, hnew⟩ := Context.sends_schedule h
      rw [Context.schedule_withView h hr hunit hle]
      exact ih r.1 (hs r.1) hend hfault (hnew.view ▸ hunit) (hnew.view ▸ hle)
  | unschedule handle next ih =>
    simp only [Script.run, Context.unschedule_withView] at hend hfault ⊢
    obtain ⟨new, hnew⟩ := c.sends_unschedule handle
    exact ih _ (hs _) hend hfault (hnew.view ▸ hunit) (hnew.view ▸ hle)
  | takeFault next ih => exact hs.elim
  | counts next ih =>
    exact ih c.produced c.cancelled (hs _ _) hend hfault hunit hle

end Script

/-! ## Steady routines -/

namespace Routine

variable {α β : Type}

/-- The routine gives up no refusal, whatever follows it. -/
def Steady (r : Routine U P α) : Prop := ∀ u k, (∀ a u, (k a u : Script U P).Steady) → (r u k).Steady

lemma Steady.script {r : Routine U P Unit} (h : r.Steady) (u : U) : (r.script u).Steady :=
  h u _ fun _ _ => trivial

lemma steady_pure (a : α) : (pure a : Routine U P α).Steady := fun u _ hk => hk a u

lemma Steady.bind {r : Routine U P α} {f : α → Routine U P β} (hr : r.Steady)
    (hf : ∀ a, (f a).Steady) : (r >>= f).Steady := fun u _ hk => hr u _ fun a u => hf a u _ hk

lemma Steady.discard {r : Routine U P α} (hr : r.Steady) :
    (Functor.discard r : Routine U P PUnit).Steady := fun u _ hk => hr u _ fun _ u => hk _ u

lemma steady_state : (state : Routine U P U).Steady := fun u _ hk => hk u u

lemma steady_update (f : U → U) : (update f : Routine U P Unit).Steady := fun u _ hk => hk () (f u)

lemma steady_fail (e : UnitError) : (fail e : Routine U P α).Steady := fun _ _ _ => trivial

lemma steady_require (reply : Except UnitError α) : (require reply : Routine U P α).Steady := by
  cases reply with
  | error e => exact steady_fail e
  | ok a => exact steady_pure a

lemma steady_schedule (target : UnitId) (time : SimTime) (payload : P) :
    (schedule target time payload : Routine U P _).Steady := fun u _ hk reply => hk reply u

end Routine

/-! ## Units that do not heed the horizon -/

namespace Slot

variable [Payload P] [SimUnit U P] {s : Setting} {x : Slot U} {m : Message P}

/-- The call for the message comes to the same under any horizon between the time of the message and the
actual one, in any round and at any worker. -/
def Heedless (s : Setting) (x : Slot U) (m : Message P) : Prop :=
  ∀ s' : Setting, s'.table = s.table → m.time ≤ s'.horizon → s'.horizon ≤ s.horizon →
    (x.handle s' m).1 = (x.handle s m).1 ∧ outline (x.handle s' m).2 = outline (x.handle s m).2

omit [SimUnit U P] in
/-- A call that has not failed was completed, and nothing was refused in the end. -/
lemma of_failure_eq_none {w : WorkerId} {k : Call U P} (h : Worker.failure w m k = none) :
    k.ending = .completed ∧ k.context.fault = none := by
  unfold Worker.failure Call.fault at h
  cases hend : k.ending with
  | completed => simpa [hend] using h
  | failed e => simp [hend] at h
  | crashed c => simp [hend] at h

/-- **A call does not heed the horizon** if it does not look at horizon and round, gives up no refusal, and
succeeds. -/
theorem heedless_of_steady (hview : ∀ v v' : View, v.unit = v'.unit → v.now = v'.now →
      SimUnit.process x.unit m v = SimUnit.process x.unit m v')
    (hsteady : ∀ v, (SimUnit.process x.unit m v).Steady) (hok : (x.handle s m).2.failure = none) :
    x.Heedless s m := by
  intro s' htable _ hle
  obtain ⟨hend, hfault⟩ := of_failure_eq_none hok
  have hcall : x.call s' m = (x.call s m).withView ⟨x.id, m.time, s'.horizon, s'.round⟩ := by
    rw [call, htable, hview ⟨x.id, m.time, s'.horizon, s'.round⟩ ⟨x.id, m.time, s.horizon, s.round⟩
      rfl rfl]
    exact (hsteady _).run_withView hend hfault rfl hle
  have hfailure : Worker.failure s'.worker m (x.call s' m) = none := by
    unfold Worker.failure Call.fault
    rw [hcall]
    simp [Call.withView, Context.withView, hend, hfault]
  refine ⟨?_, ?_⟩
  · simp only [handle, hcall]
    rfl
  · rw [outline, outline, hok]
    simp only [handle, hfailure]
    rw [hcall]
    rfl

end Slot

lemma Road.steady_pass (m : Message TrafficEvent) : (Road.pass m).Steady := by
  apply Routine.steady_state.bind
  intro r
  dsimp only
  split
  · exact Routine.steady_fail _
  split
  · exact Routine.steady_fail _
  apply (Routine.steady_update _).bind
  intro _
  split
  · exact (Routine.steady_schedule _ _ _).bind fun reply => (Routine.steady_require reply).discard
  · exact Routine.steady_update _

/-- **Roads do not heed the horizon** when they let a vehicle pass. -/
theorem Road.heedless {s : Setting} {x : Slot Road} {m : Message TrafficEvent}
    (hok : (x.handle s m).2.failure = none) : x.Heedless s m := by
  refine Slot.heedless_of_steady (fun v v' _ _ => rfl) (fun v => ?_) hok
  exact (steady_pass m).script x.unit

end EventSim
