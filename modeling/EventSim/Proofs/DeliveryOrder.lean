import EventSim.Proofs.Leftovers
import EventSim.Proofs.PartitionIndependence

set_option autoImplicit false

/-!
# The order in which a unit is handed messages

In one round a unit is handed messages in the order of their keys: by time, and at equal times by identity. Over a
whole run the order is the same, with one exception. A round takes what is due just at its horizon, and such
messages may still be scheduled in it. These are handed over in the next round, after the messages of the same
instant that were already there, whatever their identities are.

## Main definitions

* `EventSim.Scheduler.AcrossHorizon` — two messages that are due at the horizon between them.

## Main results

* `EventSim.Scheduler.Sound.key_lt_or_across` — messages of one round and of a later one.
* `EventSim.Scheduler.IsSetUp.ordered_course` — the order of all messages that a unit is handed.
* `EventSim.Scheduler.not_sorted_course_couriers` — messages at a horizon that are not in the order of their keys.
-/

namespace EventSim

namespace Scheduler

variable {U P : Type} [Payload P] [SimUnit U P] {s : Scheduler U P} {t t' : Stage U P}
  {ts rest : List (Stage U P)} {u : UnitId} {m n : Message P}

/-- Two messages, with the views in which they are handed over, that are due at the horizon between them. The
second one was scheduled for the horizon of a round when the first one, due at the same instant, was already to be
handed over in it. -/
structure AcrossHorizon (s : Scheduler U P) (x y : Message P × View) : Prop where
  /-- The first message is due at the horizon of its round. -/
  due_left : x.1.time = x.2.horizon
  /-- So is the second. -/
  due_right : y.1.time = x.2.horizon
  /-- It is handed over in the next round. -/
  next : y.2.round = x.2.round + 1
  /-- It was scheduled in the round of the first. -/
  accepted : ∃ r ∈ s.history, r.round = x.2.round ∧ y.1 ∈ r.accepted
  /-- The messages are not the same. -/
  distinct : x.1.id ≠ y.1.id

/-- What is pending at a stage and what is scheduled in its round have identities of their own. -/
lemma Sound.id_ne_of_accepted (hs : s.Sound) (h : s.stages = ts ++ t :: rest) (hm : m ∈ t.pending)
    (hn : n ∈ (t.record s.config).accepted) : m.id ≠ n.id := by
  have hnodup := hs.nodup_posted (h.trans (List.append_cons ts t rest))
  rw [posted_append, List.flatMap_singleton, List.map_append, List.nodup_append] at hnodup
  exact hnodup.2.2 _ (List.mem_map_of_mem (hs.mem_posted_of_mem_pending h hm)) _ (List.mem_map_of_mem hn)

/-- **Messages of one round and of a later one.** The later message has a later key, or both are due at the horizon
of the first round.

**Proof sketch.** The first message is due by the horizon of its round, and the second one is not due before it. It
can be due just then only if it was scheduled in that very round and comes in the next one. -/
lemma Sound.key_lt_or_across (hs : s.Sound) (h : s.stages = ts ++ t :: rest) (ht' : t' ∈ rest)
    (hm : m ∈ (t.record s.config).received u) (hn : n ∈ (t'.record s.config).received u) :
    m.key < n.key ∨ s.AcrossHorizon (m, ⟨u, m.time, t.horizon.current, t.past + 1⟩)
      (n, ⟨u, n.time, t'.horizon.current, t'.past + 1⟩) := by
  obtain ⟨hpending, hlimit⟩ := hs.mem_pending_of_delivered h (List.mem_of_mem_filter hm)
  have hle := (RunConfig.le_deliveryLimit_iff.1 hlimit).1
  obtain ⟨y, hy, rfl⟩ := List.mem_map.1 (List.mem_of_mem_filter hn)
  rcases hs.horizon_lt_or_next (history_eq_of_stages_eq h) (List.mem_map_of_mem ht') hy with
    hlt | ⟨hge, haccepted, hhead⟩
  · exact Or.inl (Or.inl (lt_of_le_of_lt hle hlt))
  rcases lt_or_eq_of_le hle with hlt | hleft
  · exact Or.inl (Or.inl (lt_of_lt_of_le hlt hge))
  rcases lt_or_eq_of_le hge with hlt | hright
  · exact Or.inl (Or.inl (lt_of_le_of_lt hle hlt))
  have hnext : t'.past = t.past + 1 := by
    rw [List.head?_map] at hhead
    obtain ⟨next, hhead, hrecord⟩ := Option.map_eq_some_iff.1 hhead
    obtain ⟨_, _, hpast, _⟩ := Stage.next?_eq_some_iff.1 ((next?_eq_head? h).trans hhead)
    have hround := congrArg RoundRecord.round hrecord
    rw [Stage.round_record, Stage.round_record] at hround
    omega
  have hmem : t.record s.config ∈ s.history := by
    rw [history_eq_of_stages_eq h]
    exact List.mem_append_right _ List.mem_cons_self
  exact Or.inr {
    due_left := hleft
    due_right := hright.symm
    next := congrArg (· + 1) hnext
    accepted := ⟨_, hmem, rfl, haccepted⟩
    distinct := hs.id_ne_of_accepted h hpending haccepted }

/-- **The order of all messages that a unit is handed.** Of any two messages that a unit is handed in a run the later
one has the later key, unless both are due at the horizon between them.

**Proof sketch.** In one round the order is that of the keys (`Engine.Coherent.sorted_received`). For messages of
different rounds it is a matter of horizons (`Sound.key_lt_or_across`). -/
theorem IsSetUp.ordered_course (hs : s.IsSetUp) (u : UnitId) :
    (s.course u).Pairwise fun x y => x.1.key < y.1.key ∨ s.AcrossHorizon x y := by
  have hsound := hs.sound
  rw [course, history_eq_map, List.flatMap_map, List.pairwise_flatMap]
  constructor
  · intro t ht
    obtain ⟨ts, rest, hstages⟩ := List.append_of_mem ht
    have hsorted := (hsound.coherent_of_stages_eq hstages).sorted_received s.config t.horizon.current u
    exact List.pairwise_map.2 (hsorted.imp Or.inl)
  · apply pairwise_of_append
    intro ts t rest hstages t' ht' x hx y hy
    obtain ⟨m, hm, rfl⟩ := List.mem_map.1 hx
    obtain ⟨n, hn, rfl⟩ := List.mem_map.1 hy
    exact hsound.key_lt_or_across hstages ht' hm hn

/-- The first courier is handed a nine in the third round, just at its horizon, and sends itself a two for that
instant. The two has the earlier key, for it is not a seed, but it comes in the fourth round. -/
theorem ordered_course_couriers :
    (couriers (some ⟨Binary64.ofNat 3⟩)).IsSetUp ∧
      ((couriers (some ⟨Binary64.ofNat 3⟩)).course (Id.ofNat 0)).map (fun x => (x.1.payload.value, x.2.round)) =
        [(5, 1), (4, 2), (3, 3), (9, 3), (2, 4)] ∧
      ((couriers (some ⟨Binary64.ofNat 3⟩)).course (Id.ofNat 0)).Pairwise fun x y =>
        x.1.key < y.1.key ∨ (couriers (some ⟨Binary64.ofNat 3⟩)).AcrossHorizon x y := by
  have hs : (couriers (some ⟨Binary64.ofNat 3⟩)).IsSetUp := isSetUp_pair rfl courier _ _
  exact ⟨hs, by decide +kernel, hs.ordered_course _⟩

/-- So the order as a whole is not that of the keys, though the run succeeds and every unit keeps to its
lookahead. -/
theorem not_sorted_course_couriers :
    (couriers (some ⟨Binary64.ofNat 3⟩)).IsSetUp ∧
      (∃ stats, (couriers (some ⟨Binary64.ofNat 3⟩)).outcome = .finished stats) ∧
      ¬ ∀ u, ((couriers (some ⟨Binary64.ofNat 3⟩)).course u).Pairwise fun x y => x.1.key < y.1.key := by
  refine ⟨isSetUp_pair rfl courier _ _, ⟨_, outcome_couriers⟩, fun hall => ?_⟩
  exact absurd (hall (Id.ofNat 0)) (by decide +kernel)

end Scheduler

end EventSim
