import EventSim.Unit.Script
import EventSim.Proofs.QueueContents

set_option autoImplicit false

/-!
# What a call can send

Whatever script a unit follows, the messages that it sends in one call carry consecutive identities of its
own, are finite and not earlier than the horizon, and go to units that exist; and nothing in a call depends
on the routing table except which units exist.

## Main definitions

* `EventSim.Context.Sends` — one context arises from another by sending envelopes.
* `EventSim.Context.withTable` — the same requests with another routing table.

## Main results

* `EventSim.Script.run_sends` — every call only sends.
* `EventSim.Script.run_withTable` — a call depends only on which units exist.
-/

namespace EventSim

variable {U P : Type}

namespace Context

/-! ## Sending -/

/-- The second context arises from the first by sending the envelopes. -/
structure Sends (c c' : Context P) (new : List (Envelope P)) : Prop where
  /-- The view stays. -/
  view : c'.view = c.view
  /-- The units that exist stay. -/
  table : c'.table = c.table
  /-- The envelopes are sent last. -/
  sent : c'.sent.toList = c.sent.toList ++ new
  /-- Every message takes a running number. -/
  nextSeq : c'.nextSeq = c.nextSeq + (Envelope.messages new).length
  /-- Every message is counted. -/
  produced : c'.produced = c.produced + (Envelope.messages new).length
  /-- The running numbers are consecutive. -/
  ids : (Envelope.messages new).map (·.id) =
    (List.range' c.nextSeq (Envelope.messages new).length).map (MessageId.mk c.view.unit)
  /-- No message is earlier than the horizon. -/
  horizon_le : ∀ m ∈ Envelope.messages new, c.view.horizon ≤ m.time
  /-- All targets exist. -/
  routed : ∀ e ∈ new, (c.table.route? e.target).isSome

namespace Sends

variable {c c' c'' : Context P} {new new' : List (Envelope P)}

/-- Nothing is sent. -/
lemma of_eq (view : c'.view = c.view) (table : c'.table = c.table) (sent : c'.sent = c.sent)
    (nextSeq : c'.nextSeq = c.nextSeq) (produced : c'.produced = c.produced) : c.Sends c' [] where
  view := view
  table := table
  sent := by simp [sent]
  nextSeq := by simp [nextSeq]
  produced := by simp [produced]
  ids := rfl
  horizon_le := by simp
  routed := by simp

lemma refl (c : Context P) : c.Sends c [] := of_eq rfl rfl rfl rfl rfl

/-- One batch is sent after another. -/
lemma trans (h : c.Sends c' new) (h' : c'.Sends c'' new') : c.Sends c'' (new ++ new') where
  view := h'.view.trans h.view
  table := h'.table.trans h.table
  sent := by rw [h'.sent, h.sent, List.append_assoc]
  nextSeq := by
    rw [h'.nextSeq, h.nextSeq, Envelope.messages_append, List.length_append, Nat.add_assoc]
  produced := by
    rw [h'.produced, h.produced, Envelope.messages_append, List.length_append, Nat.add_assoc]
  ids := by
    rw [Envelope.messages_append, List.map_append, h.ids, h'.ids, h.view, h.nextSeq,
      List.length_append, ← List.range'_append_1, List.map_append]
  horizon_le m hm := by
    rw [Envelope.messages_append, List.mem_append] at hm
    exact hm.elim (h.horizon_le m) fun hm => h.view ▸ h'.horizon_le m hm
  routed e he := (List.mem_append.1 he).elim (h.routed e) fun he => h.table ▸ h'.routed e he

end Sends

/-- A target that the routing table knows exists. -/
lemma isSome_route?_of_route_eq_ok {t : RoutingTable} {u : UnitId} {r : Route}
    (h : t.route u = .ok r) : (t.route? u).isSome := by
  unfold RoutingTable.route at h
  split at h
  · rename_i hr
    simp [hr]
  · cases h

/-- Scheduling sends at most one message. -/
lemma sends_schedule [Payload P] {c c' : Context P} {target : UnitId} {time : SimTime} {payload : P}
    {reply : Except UnitError Handle} (h : c.schedule target time payload = .ok (reply, c')) :
    ∃ new, c.Sends c' new := by
  have hrefuse : ∀ e, c' = c.record e → ∃ new, c.Sends c' new := by
    rintro e rfl
    exact ⟨[], .of_eq rfl rfl rfl rfl rfl⟩
  unfold schedule at h
  split at h
  · cases h
    exact hrefuse _ rfl
  · split at h
    · split at h
      · cases h
      · cases h
        exact hrefuse _ rfl
    · rename_i hlate
      split at h
      · cases h
        exact hrefuse _ rfl
      · rename_i r hr
        cases h
        refine ⟨[.deliver ⟨⟨c.view.unit, c.nextSeq⟩, target, time, payload⟩], ?_⟩
        exact {
          view := rfl
          table := rfl
          sent := Array.toList_push
          nextSeq := rfl
          produced := rfl
          ids := rfl
          horizon_le := fun m hm => by
            rw [Envelope.mem_messages, List.mem_singleton] at hm
            cases hm
            exact not_lt.1 hlate
          routed := fun e he => by
            rw [List.mem_singleton.1 he]
            exact isSome_route?_of_route_eq_ok hr }

/-- Withdrawing sends at most one handle. -/
lemma sends_unschedule (c : Context P) (h : Handle) : ∃ new, c.Sends (c.unschedule h).2 new := by
  unfold unschedule
  split
  · exact ⟨[], .of_eq rfl rfl rfl rfl rfl⟩
  · rename_i r hr
    refine ⟨[.cancel h], ?_⟩
    exact {
      view := rfl
      table := rfl
      sent := Array.toList_push
      nextSeq := rfl
      produced := rfl
      ids := rfl
      horizon_le := fun m hm => by simp at hm
      routed := fun e he => by
        rw [List.mem_singleton.1 he]
        exact isSome_route?_of_route_eq_ok hr }

/-- Giving up a refusal sends nothing. -/
lemma sends_takeFault (c : Context P) : c.Sends c.takeFault.2 [] := .of_eq rfl rfl rfl rfl rfl

end Context

/-- **Every call only sends.** Whatever a script does, the context at its end arises from the one at its
beginning by sending. -/
theorem Script.run_sends [Payload P] (s : Script U P) (c : Context P) :
    ∃ new, c.Sends (s.run c).context new := by
  induction s generalizing c with
  | stop unit ending => exact ⟨[], .refl c⟩
  | schedule unit target time payload next ih =>
    rw [Script.run]
    split
    · exact ⟨[], .refl c⟩
    · rename_i reply c' h
      obtain ⟨new, hnew⟩ := Context.sends_schedule h
      obtain ⟨new', hnew'⟩ := ih reply c'
      exact ⟨new ++ new', hnew.trans hnew'⟩
  | unschedule handle next ih =>
    obtain ⟨new, hnew⟩ := c.sends_unschedule handle
    obtain ⟨new', hnew'⟩ := ih (c.unschedule handle).1 (c.unschedule handle).2
    exact ⟨new ++ new', hnew.trans hnew'⟩
  | takeFault next ih =>
    obtain ⟨new, hnew⟩ := ih c.takeFault.1 c.takeFault.2
    exact ⟨[] ++ new, c.sends_takeFault.trans hnew⟩
  | counts next ih => exact ih c.produced c.cancelled c

/-! ## The routing table of a call -/

/-- The same requests with another routing table. -/
def Context.withTable (c : Context P) (t : RoutingTable) : Context P := { c with table := t }

/-- The same call with another routing table. -/
def Call.withTable (k : Call U P) (t : RoutingTable) : Call U P :=
  { k with context := k.context.withTable t }

/-- Two routing tables know the same units. -/
def RoutingTable.SameUnits (t t' : RoutingTable) : Prop :=
  ∀ u, (t.route? u).isSome = (t'.route? u).isSome

namespace Context

variable {c : Context P} {t : RoutingTable}

/-- Whether a target is refused depends only on which units exist. -/
lemma route_cases {t t' : RoutingTable} (ht : t.SameUnits t') (u : UnitId) :
    (∃ e, t.route u = .error e ∧ t'.route u = .error e) ∨
      ∃ r r', t.route u = .ok r ∧ t'.route u = .ok r' := by
  have h := ht u
  unfold RoutingTable.route
  cases hr : t.route? u with
  | none =>
    cases hr' : t'.route? u with
    | none => exact Or.inl ⟨_, rfl, rfl⟩
    | some r' => simp [hr, hr'] at h
  | some r =>
    cases hr' : t'.route? u with
    | none => simp [hr, hr'] at h
    | some r' => exact Or.inr ⟨r, r', rfl, rfl⟩

lemma schedule_withTable [Payload P] (ht : t.SameUnits c.table) (target : UnitId) (time : SimTime)
    (payload : P) : (c.withTable t).schedule target time payload =
      (c.schedule target time payload).map fun r => (r.1, r.2.withTable t) := by
  unfold schedule
  by_cases hfin : !time.isFinite
  · rw [if_pos hfin, if_pos hfin]
    rfl
  rw [if_neg hfin, if_neg hfin]
  by_cases hearly : time < c.view.horizon
  · rw [if_pos hearly, if_pos (show time < (c.withTable t).view.horizon from hearly)]
    cases Payload.describe payload <;> rfl
  rw [if_neg hearly, if_neg (show ¬ time < (c.withTable t).view.horizon from hearly)]
  have htable : (c.withTable t).table = t := rfl
  rcases route_cases ht target with ⟨e, h, h'⟩ | ⟨r, r', h, h'⟩ <;> rw [htable, h, h'] <;> rfl

lemma unschedule_withTable (ht : t.SameUnits c.table) (h : Handle) :
    (c.withTable t).unschedule h = ((c.unschedule h).1, (c.unschedule h).2.withTable t) := by
  unfold unschedule
  have htable : (c.withTable t).table = t := rfl
  rcases route_cases ht h.target with ⟨e, h, h'⟩ | ⟨r, r', h, h'⟩ <;> rw [htable, h, h'] <;> rfl

end Context

/-- **A call depends only on which units exist**, and not on where they are. -/
theorem Script.run_withTable [Payload P] {t : RoutingTable} (s : Script U P) {c : Context P}
    (ht : t.SameUnits c.table) : s.run (c.withTable t) = (s.run c).withTable t := by
  induction s generalizing c with
  | stop unit ending => rfl
  | schedule unit target time payload next ih =>
    simp only [Script.run, Context.schedule_withTable ht]
    cases h : c.schedule target time payload with
    | error crash => rfl
    | ok r =>
      obtain ⟨new, hnew⟩ := Context.sends_schedule h
      exact ih r.1 (hnew.table.symm ▸ ht)
  | unschedule handle next ih =>
    obtain ⟨new, hnew⟩ := c.sends_unschedule handle
    simp only [Script.run, Context.unschedule_withTable ht]
    exact ih _ (hnew.table.symm ▸ ht)
  | takeFault next ih => exact ih c.takeFault.1 (c := c.takeFault.2) ht
  | counts next ih => exact ih c.produced c.cancelled ht

end EventSim
