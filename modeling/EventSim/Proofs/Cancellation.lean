import EventSim.Proofs.Genuine
import EventSim.Proofs.Transcript
import Mathlib.Data.Nat.Find

set_option autoImplicit false

/-!
# Cancellation

A message that is scheduled in one round becomes due in a later one. If it is cancelled before that round, it
is withdrawn at the next merge and never delivered; if not, it is delivered in the first round in which it is
due. Whoever cancels, and how often, nothing else is withdrawn or held up.

## Main definitions

* `EventSim.Scheduler.round?`, `EventSim.Scheduler.sentIn` — the rounds of a run by number.
* `EventSim.Scheduler.UnscheduledIn` — a handle is used in a round.
* `EventSim.Scheduler.FirstDue` — the round in which a message first becomes due.
* `EventSim.Scheduler.Cancels` — how cancellations take effect in a run.

## Main results

* `EventSim.Scheduler.Sound.sentIn_eq` — what is sent in a round are the requests that are accepted in it.
* `EventSim.Scheduler.Sound.mem_withdrawn_iff`, `mem_delivered_iff` — what becomes of a pending message in a
  round.
* `EventSim.Scheduler.Sound.mem_pending_of_le` — a message is pending until it is cancelled or due.
* `EventSim.Scheduler.IsSetUp.cancels` — cancellation in every run that finishes.
-/

namespace EventSim

namespace Scheduler

variable {U P : Type} [Payload P] [SimUnit U P] {s : Scheduler U P} {t : Stage U P}
  {ts rest : List (Stage U P)} {m : Message P}

/-! ## Rounds by number -/

/-- The stage before the round with the given number. Round 0 is the setup. -/
def round? (s : Scheduler U P) : Nat → Option (Stage U P)
  | 0 => none
  | r + 1 => s.stages[r]?

/-- What is sent in the round with the given number. The seeds are sent in round 0. -/
def sentIn (s : Scheduler U P) : Nat → List (Envelope P)
  | 0 => s.opening
  | r + 1 => (s.stages[r]?.map fun t => (t.record s.config).sent).getD []

/-- In the round with the given number some unit withdraws a message by the handle. -/
def UnscheduledIn (s : Scheduler U P) (r : Nat) (h : Handle) : Prop :=
  ∃ xs ∈ s.transcriptsIn r, ∃ reply, .unschedule h reply ∈ xs

/-- A message that is scheduled in round `p` is first due in round `d`. -/
structure FirstDue (s : Scheduler U P) (m : Message P) (p d : Nat) : Prop where
  /-- The round is a later one. -/
  lt : p < d
  /-- The message is due in it. -/
  due : ∃ t ∈ s.round? d, m.time ≤ s.config.deliveryLimit t.horizon.current
  /-- The message is not due in any round between the two. -/
  first : ∀ r, p < r → r < d → ∀ t ∈ s.round? r, ¬ m.time ≤ s.config.deliveryLimit t.horizon.current

/-- The rounds of a run are its stages. -/
lemma exists_of_round? {r : Nat} (h : s.round? r = some t) :
    ∃ ts rest, s.stages = ts ++ t :: rest ∧ r = ts.length + 1 := by
  cases r with
  | zero => cases h
  | succ r =>
    obtain ⟨hr, rfl⟩ := List.getElem?_eq_some_iff.1 (show s.stages[r]? = some t from h)
    refine ⟨s.stages.take r, s.stages.drop (r + 1), by simp, ?_⟩
    rw [List.length_take]
    omega

lemma round?_length (h : s.stages = ts ++ t :: rest) : s.round? (ts.length + 1) = some t := by
  change s.stages[ts.length]? = some t
  rw [h]
  simp

lemma sentIn_length (h : s.stages = ts ++ t :: rest) :
    s.sentIn (ts.length + 1) = (t.record s.config).sent := by
  have hround : s.stages[ts.length]? = some t := round?_length h
  rw [sentIn, hround]
  rfl

/-- Whatever is sent in a round is sent in the run. -/
lemma mem_envelopes_of_sentIn {r : Nat} {y : Envelope P} (hy : y ∈ s.sentIn r) :
    y ∈ s.envelopes s.stages := by
  cases r with
  | zero => exact List.mem_append_left _ hy
  | succ r =>
    refine List.mem_append_right _ (List.mem_flatMap.2 ?_)
    rw [sentIn] at hy
    cases ht : s.stages[r]? with
    | none => simp [ht] at hy
    | some t =>
      rw [ht] at hy
      exact ⟨t, List.mem_of_getElem? ht, hy⟩

/-- Something is sent only in the rounds of the run. -/
lemma le_length_of_mem_sentIn {r : Nat} {y : Envelope P} (hy : y ∈ s.sentIn r) : r ≤ s.stages.length := by
  cases r with
  | zero => exact Nat.zero_le _
  | succ r =>
    by_contra hlt
    rw [sentIn, List.getElem?_eq_none (by omega)] at hy
    cases hy

/-- **What is sent in a round** are the envelopes of its transcripts, and in round 0 the seeds as well. -/
theorem Sound.sentIn_eq (hs : s.Sound) (r : Nat) :
    s.sentIn r = (if r = 0 then s.seeds.toList.map .deliver else []) ++
      (s.transcriptsIn r).flatMap (·.filterMap Exchange.envelope?) := by
  cases r with
  | zero =>
    rw [sentIn, opening, transcriptsIn, if_pos rfl, List.flatMap_map]
    exact congrArg _ (List.flatMap_congr fun x _ => Slot.opening_eq s.table s.config.startTime x)
  | succ r =>
    rw [sentIn, transcriptsIn, if_neg (Nat.succ_ne_zero r), List.nil_append]
    cases ht : s.stages[r]? with
    | none => rfl
    | some t => exact Stage.sent_eq (hs.coherent_of_mem (List.mem_of_getElem? ht))

/-- What is cancelled in a round is in the transcripts of its calls. -/
lemma Sound.cancel_mem_sentIn_iff (hs : s.Sound) {r : Nat} {h : Handle} : .cancel h ∈ s.sentIn r ↔
    ∃ xs ∈ s.transcriptsIn r, .cancel h ∈ xs.filterMap Exchange.envelope? := by
  rw [hs.sentIn_eq, List.mem_append, List.mem_flatMap, or_iff_right]
  split <;> simp

/-! ## What is staged and pending at a stage -/

namespace Sound

/-- **What is staged at a stage** is what was sent in the round before. -/
theorem mem_envelopes_iff (hs : s.Sound) (h : s.stages = ts ++ t :: rest) {y : Envelope P} :
    y ∈ t.engine.postbox.envelopes t.past ↔ y ∈ s.sentIn ts.length := by
  refine hs.engine_induction (motive := fun ts past e => y ∈ e.postbox.envelopes past ↔ y ∈ s.sentIn ts.length)
    hs.mem_envelopes_firstEngine (fun ts t rest hstages _ _ => ?_) h
  rw [List.length_append, List.length_singleton, sentIn_length hstages]
  exact (hs.coherent_of_stages_eq hstages).mem_envelopes_runRound

/-- What is pending at a stage has been scheduled. -/
lemma mem_posted_of_pending (hs : s.Sound) (h : s.stages = ts ++ t :: rest) (hm : m ∈ t.pending) :
    m ∈ s.posted s.stages := by
  rw [h, posted_append]
  exact List.mem_append_left _ (hs.mem_posted_of_mem_pending h hm)

/-- **What is cancelled at a stage**: a pending message stands unless its handle was used in the round
before. -/
theorem stands_iff (hs : s.Sound) (hg : s.Genuine) (h : s.stages = ts ++ t :: rest) :
    t.engine.Stands t.past m ↔ m ∈ t.pending ∧ .cancel m.handle ∉ s.sentIn ts.length := by
  rw [Engine.Stands, Stage.pending, List.mem_append]
  refine and_congr_right fun hm => ?_
  have hposted := hs.mem_posted_of_pending h (List.mem_append.2 hm)
  constructor
  · intro hstands hcancel
    exact hstands _ ((hs.mem_envelopes_iff h).2 hcancel) rfl
  · intro hnone c hc hkey
    have hsent := (hs.mem_envelopes_iff h).1 hc
    have hhandle := hg c (Envelope.mem_handles.2 (mem_envelopes_of_sentIn hsent)) m hposted
      (congrArg Key.id hkey).symm
    exact hnone (hhandle ▸ hsent)

/-- **What is delivered in a round without fault**: the pending messages that are due and were not cancelled
in the round before. -/
theorem mem_delivered_iff (hs : s.Sound) (hg : s.Genuine) (h : s.stages = ts ++ t :: rest)
    (hf : (t.record s.config).fault = none) : m ∈ t.delivered s.config ↔
      m ∈ t.pending ∧ .cancel m.handle ∉ s.sentIn ts.length ∧
        m.time ≤ s.config.deliveryLimit t.horizon.current := by
  rw [Stage.delivered, Stage.record, Engine.handed_of_success hf,
    (hs.orderly_of_stages_eq hg h).mem_due_iff, hs.stands_iff hg h, and_assoc]

/-- What waits after a round: the pending messages that are not due and were not cancelled in the round
before. -/
lemma mem_waiting_after_iff (hs : s.Sound) (hg : s.Genuine) (h : s.stages = ts ++ t :: rest) :
    m ∈ (t.after s.config).waiting ↔ m ∈ t.pending ∧ .cancel m.handle ∉ s.sentIn ts.length ∧
      ¬ m.time ≤ s.config.deliveryLimit t.horizon.current := by
  rw [Stage.after, (hs.orderly_of_stages_eq hg h).mem_waiting_runRound_iff, hs.stands_iff hg h, and_assoc]

/-- **What is withdrawn in a round**: the pending messages that were cancelled in the round before. -/
theorem mem_withdrawn_iff (hs : s.Sound) (hg : s.Genuine) (h : s.stages = ts ++ t :: rest) :
    m ∈ t.withdrawn ↔ m ∈ t.pending ∧ .cancel m.handle ∈ s.sentIn ts.length := by
  have ho := hs.orderly_of_stages_eq hg h
  have hperm := ho.coherent.perm_runRound s.config t.horizon.current ho.nodup
  have hmem : m ∈ t.pending ↔ m ∈ t.engine.due s.config t.horizon.current t.past ∨
      m ∈ t.withdrawn ∨ m ∈ (t.after s.config).waiting := by
    rw [Stage.pending, hperm.mem_iff, List.mem_append, List.mem_append]
    rfl
  have hnodup := hperm.nodup_iff.1 (ho.nodup.of_map _)
  obtain ⟨_, hrest, hdue⟩ := List.nodup_append.1 hnodup
  obtain ⟨_, _, hwaiting⟩ := List.nodup_append.1 hrest
  have hstands := hs.stands_iff (m := m) hg h
  constructor
  · intro hw
    have hpending := hmem.2 (Or.inr (Or.inl hw))
    by_contra hnot
    have hst : m ∈ t.pending ∧ .cancel m.handle ∉ s.sentIn ts.length :=
      ⟨hpending, fun hc => hnot ⟨hpending, hc⟩⟩
    by_cases hle : m.time ≤ s.config.deliveryLimit t.horizon.current
    · exact hdue m (ho.mem_due_iff.2 ⟨hstands.2 hst, hle⟩) m (List.mem_append_left _ hw) rfl
    · exact hwaiting m hw m (ho.mem_waiting_runRound_iff.2 ⟨hstands.2 hst, hle⟩) rfl
  · rintro ⟨hpending, hcancel⟩
    rcases hmem.1 hpending with hd | hw | hw
    · exact absurd hcancel (hstands.1 (ho.mem_due_iff.1 hd).1).2
    · exact hw
    · exact absurd hcancel (hs.mem_waiting_after_iff hg h |>.1 hw).2.1

/-- What remains after a round: what was scheduled in it, and the pending messages that still wait. -/
lemma mem_remaining_iff (hs : s.Sound) (h : s.stages = ts ++ t :: rest) : m ∈ t.remaining s.config ↔
    m ∈ (t.after s.config).waiting ∨ m ∈ (t.record s.config).accepted := by
  rw [Stage.remaining, List.mem_append]
  exact or_congr_right
    ((hs.coherent_of_stages_eq h).perm_messages_runRound s.config t.horizon.current).mem_iff

/-- A message that is pending by a round, and neither cancelled before it nor due in it, remains after it. -/
lemma mem_remaining_of_le (hs : s.Sound) (hg : s.Genuine) (h : s.stages = ts ++ t :: rest) {p : Nat}
    (hm : m ∈ Envelope.messages (s.sentIn p)) (hp : p ≤ ts.length + 1)
    (hpending : p ≤ ts.length → m ∈ t.pending)
    (hcancel : ∀ r, p ≤ r → r < ts.length + 1 → .cancel m.handle ∉ s.sentIn r)
    (hdue : ∀ r, p < r → r ≤ ts.length + 1 → ∀ t' ∈ s.round? r,
      ¬ m.time ≤ s.config.deliveryLimit t'.horizon.current) : m ∈ t.remaining s.config := by
  rw [hs.mem_remaining_iff h]
  rcases Nat.lt_or_ge ts.length p with hlt | hle
  · obtain rfl : p = ts.length + 1 := by omega
    rw [sentIn_length h] at hm
    exact Or.inr hm
  · refine Or.inl ((hs.mem_waiting_after_iff hg h).2 ⟨hpending hle, ?_, ?_⟩)
    · exact hcancel _ hle (by omega)
    · exact hdue _ (by omega) (le_refl _) t (round?_length h)

/-- **A message is pending until it is cancelled or due.**

**Proof sketch.** It is staged at the stage after the round in which it was scheduled. From there on it stands
in every round, and is beyond the limit, so it waits at the next stage. -/
theorem mem_pending_of_le (hs : s.Sound) (hg : s.Genuine) (h : s.stages = ts ++ t :: rest) {p : Nat}
    (hm : m ∈ Envelope.messages (s.sentIn p)) (hp : p ≤ ts.length)
    (hcancel : ∀ r, p ≤ r → r < ts.length → .cancel m.handle ∉ s.sentIn r)
    (hdue : ∀ r, p < r → r ≤ ts.length → ∀ t' ∈ s.round? r,
      ¬ m.time ≤ s.config.deliveryLimit t'.horizon.current) : m ∈ t.pending := by
  refine stages_induction (motive := fun ts t => p ≤ ts.length →
    (∀ r, p ≤ r → r < ts.length → .cancel m.handle ∉ s.sentIn r) →
    (∀ r, p < r → r ≤ ts.length → ∀ t' ∈ s.round? r,
      ¬ m.time ≤ s.config.deliveryLimit t'.horizon.current) → m ∈ t.pending)
    (fun t ht hp _ _ => ?_) (fun ts t t' rest h hnext ih hp hcancel hdue => ?_) h hp hcancel hdue
  · obtain rfl : p = 0 := Nat.le_zero.1 hp
    obtain ⟨delta, _, _, _, rfl⟩ := hs.firstStage?_eq_some_iff.1 ht
    exact List.mem_append_right _ (hs.perm_messages_firstEngine.mem_iff.2 hm)
  · rw [List.length_append, List.length_singleton] at hp hcancel hdue
    rw [Stage.pending_of_next? hnext]
    exact hs.mem_remaining_of_le hg h hm hp (fun hle => ih hle
      (fun r hr hlt => hcancel r hr (by omega)) fun r hr hle => hdue r hr (by omega)) hcancel hdue

/-! ## Requests to withdraw -/

/-- Whatever is sent is for a unit that exists. -/
lemma isSome_route?_of_sentIn (hs : s.Sound) {r : Nat} {y : Envelope P} (hy : y ∈ s.sentIn r) :
    (s.table.route? y.target).isSome := by
  cases r with
  | zero =>
    obtain ⟨i, _, howner⟩ := hs.opening_owned y hy
    rw [RoutingTable.owner?, Option.map_eq_some_iff] at howner
    obtain ⟨route, hroute, _⟩ := howner
    rw [hroute]
    rfl
  | succ r =>
    rw [sentIn] at hy
    cases hround : s.stages[r]? with
    | none => simp [hround] at hy
    | some t =>
      rw [hround] at hy
      obtain ⟨ts, rest, h⟩ := List.append_of_mem (List.mem_of_getElem? hround)
      rw [← hs.table_of_stages_eq h]
      exact (Engine.sent_runRound s.config t.past t.horizon.current t.engine).2 y hy

omit [SimUnit U P] in
/-- A request to withdraw is granted if the target exists. -/
lemma reply_eq_ok_of_mem_transcript {script : Script U P} {c : Context P} {h : Handle}
    {reply : Except UnitError Unit} (hx : .unschedule h reply ∈ script.transcript c)
    (ht : (c.table.route? h.target).isSome) : reply = .ok () := by
  obtain ⟨c', new, hsends, hin⟩ := Script.exists_of_mem_transcript hx
  obtain ⟨route, hroute⟩ := Option.isSome_iff_exists.1 ht
  rw [Exchange.In, Context.unschedule, hsends.table, RoutingTable.route, hroute] at hin
  exact hin.symm

/-- **A request to withdraw a scheduled message is granted**, whoever makes it and however often. -/
theorem reply_eq_ok (hs : s.Sound) {p r : Nat} {xs : List (Exchange P)} {reply : Except UnitError Unit}
    (hm : m ∈ Envelope.messages (s.sentIn p)) (hxs : xs ∈ s.transcriptsIn r)
    (hx : .unschedule m.handle reply ∈ xs) : reply = .ok () := by
  have ht : (s.table.route? m.handle.target).isSome :=
    hs.isSome_route?_of_sentIn (Envelope.mem_messages.1 hm)
  cases r with
  | zero =>
    obtain ⟨x, _, rfl⟩ := List.mem_map.1 hxs
    exact reply_eq_ok_of_mem_transcript hx ht
  | succ r =>
    rw [transcriptsIn] at hxs
    cases hround : s.stages[r]? with
    | none => simp [hround] at hxs
    | some t =>
      rw [hround] at hxs
      obtain ⟨v, _, rfl⟩ := List.mem_map.1 hxs
      obtain ⟨ts, rest, h⟩ := List.append_of_mem (List.mem_of_getElem? hround)
      rw [← hs.table_of_stages_eq h] at ht
      exact reply_eq_ok_of_mem_transcript hx ht

/-- A handle whose cancellation is sent in a round is used in it. -/
lemma unscheduledIn_of_cancel (hs : s.Sound) {r : Nat} {h : Handle} (hh : .cancel h ∈ s.sentIn r) :
    s.UnscheduledIn r h := by
  obtain ⟨xs, hxs, hcancel⟩ := hs.cancel_mem_sentIn_iff.1 hh
  obtain ⟨x, hx, henvelope⟩ := List.mem_filterMap.1 hcancel
  exact ⟨xs, hxs, _, Exchange.envelope?_eq_cancel_iff.1 henvelope ▸ hx⟩

/-- The handle of a scheduled message is used in a round just if its cancellation is sent. -/
lemma unscheduledIn_iff (hs : s.Sound) {p r : Nat} (hm : m ∈ Envelope.messages (s.sentIn p)) :
    s.UnscheduledIn r m.handle ↔ .cancel m.handle ∈ s.sentIn r := by
  refine ⟨?_, hs.unscheduledIn_of_cancel⟩
  rintro ⟨xs, hxs, reply, hx⟩
  obtain rfl := hs.reply_eq_ok hm hxs hx
  exact hs.cancel_mem_sentIn_iff.2 ⟨xs, hxs, List.mem_filterMap.2 ⟨_, hx, rfl⟩⟩

end Sound

/-! ## Cancellation in a run -/

/-- How cancellations take effect in a run that finishes with the given figures. -/
structure Cancels (s : Scheduler U P) (stats : RunStats) : Prop where
  /-- Of what is cancelled before it is due, nothing is delivered; if another round follows, it is withdrawn
  just once. -/
  cancelled : ∀ p r m, m ∈ Envelope.messages (s.sentIn p) → p ≤ r → s.UnscheduledIn r m.handle →
    (∀ d, s.FirstDue m p d → r < d) → (∀ n ∈ s.delivered s.stages, n.id ≠ m.id) ∧
      (r < s.stages.length → (withdrawn s.stages).filter (·.id = m.id) = [m])
  /-- The withdrawn messages are counted. -/
  count : stats.cancelled = (withdrawn s.stages).length
  /-- What is not cancelled before it is due is delivered in the round in which it is first due, and in no
  other. -/
  delivered : ∀ p d m, m ∈ Envelope.messages (s.sentIn p) → s.FirstDue m p d →
    (∀ r, p ≤ r → r < d → ¬ s.UnscheduledIn r m.handle) →
      ∀ r t, s.round? r = some t → (m ∈ t.delivered s.config ↔ r = d)
  /-- Every request to withdraw a message that has been scheduled is granted. -/
  granted : ∀ p m, m ∈ Envelope.messages (s.sentIn p) → ∀ r, ∀ xs ∈ s.transcriptsIn r, ∀ reply,
    .unschedule m.handle reply ∈ xs → reply = .ok ()
  /-- What is withdrawn in a round, some unit has withdrawn by its handle in the round before. -/
  named : ∀ r t, s.round? (r + 1) = some t → ∀ m ∈ t.withdrawn, s.UnscheduledIn r m.handle

/-- What is not first due by a round is not due by then. -/
lemma not_due_of_firstDue {p r : Nat} (h : ∀ d, s.FirstDue m p d → r < d) :
    ∀ r', p < r' → r' ≤ r → ∀ t' ∈ s.round? r',
      ¬ m.time ≤ s.config.deliveryLimit t'.horizon.current := by
  intro r'
  induction r' using Nat.strong_induction_on with
  | _ r' ih =>
    intro hp hr t' hround hdue
    have hfirst : s.FirstDue m p r' := ⟨hp, ⟨t', hround, hdue⟩, fun q hpq hq =>
      ih q hq hpq (by omega)⟩
    exact absurd (h r' hfirst) (by omega)

namespace Sound

variable {stats : RunStats}

/-- At the end of a run that finishes, every message is delivered, withdrawn or left. -/
lemma perm_of_finished (hs : s.Sound) (hstats : s.outcome = .finished stats) (h : s.stages = ts ++ [t]) :
    (s.posted s.stages).Perm
      (s.delivered s.stages ++ (withdrawn s.stages ++ t.remaining s.config)) := by
  have hf := fault_eq_none_of_finished hstats t (h ▸ by simp)
  rw [h]
  exact hs.perm_after h hf (hs.perm_of_stages_eq h)

/-- **A message that is cancelled before it is due is withdrawn or left**: it is withdrawn at the first
cancellation if a round follows. -/
theorem mem_withdrawn_or_remaining (hs : s.Sound) (hg : s.Genuine) (h : s.stages = ts ++ [t]) {p r : Nat}
    (hm : m ∈ Envelope.messages (s.sentIn p)) (hp : p ≤ r) (hcancel : .cancel m.handle ∈ s.sentIn r)
    (hdue : ∀ d, s.FirstDue m p d → r < d) :
    m ∈ withdrawn s.stages ∨ s.stages.length ≤ r ∧ m ∈ t.remaining s.config := by
  classical
  have hex : ∃ r, p ≤ r ∧ .cancel m.handle ∈ s.sentIn r := ⟨r, hp, hcancel⟩
  obtain ⟨hp₁, hcancel₁⟩ := Nat.find_spec hex
  have hle : Nat.find hex ≤ r := Nat.find_min' hex ⟨hp, hcancel⟩
  have hbefore : ∀ q, p ≤ q → q < Nat.find hex → .cancel m.handle ∉ s.sentIn q :=
    fun q hq hlt hc => Nat.find_min hex hlt ⟨hq, hc⟩
  have hnot := not_due_of_firstDue fun d hd => lt_of_le_of_lt hle (hdue d hd)
  rcases Nat.lt_or_ge (Nat.find hex) s.stages.length with hlt | hge
  · obtain ⟨ts₁, rest₁, h₁, hlength⟩ :=
      exists_of_round? (r := Nat.find hex + 1) (List.getElem?_eq_getElem hlt)
    obtain hlength : Nat.find hex = ts₁.length := Nat.succ.inj hlength
    rw [hlength] at hp₁ hcancel₁ hbefore hnot
    have hpending := hs.mem_pending_of_le hg h₁ hm hp₁ hbefore hnot
    refine Or.inl (List.mem_flatMap.2 ⟨_, ?_, (hs.mem_withdrawn_iff hg h₁).2 ⟨hpending, hcancel₁⟩⟩)
    exact List.getElem_mem hlt
  · have hlength : s.stages.length = ts.length + 1 := by rw [h, List.length_append]; rfl
    rw [hlength] at hge
    have hbefore' : ∀ q, p ≤ q → q < ts.length + 1 → .cancel m.handle ∉ s.sentIn q :=
      fun q hq hlt => hbefore q hq (by omega)
    have hnot' : ∀ q, p < q → q ≤ ts.length + 1 → ∀ t' ∈ s.round? q,
        ¬ m.time ≤ s.config.deliveryLimit t'.horizon.current := fun q hq hle => hnot q hq (by omega)
    have hp' : p ≤ ts.length + 1 := hlength ▸ le_length_of_mem_sentIn (Envelope.mem_messages.1 hm)
    refine Or.inr ⟨by omega, hs.mem_remaining_of_le hg h hm hp' (fun hp => ?_) hbefore' hnot'⟩
    exact hs.mem_pending_of_le hg h hm hp (fun q hq hlt => hbefore' q hq (by omega))
      fun q hq hle => hnot' q hq (by omega)

/-- What is delivered, withdrawn and left has identities of its own. -/
lemma nodup_of_finished (hs : s.Sound) (hstats : s.outcome = .finished stats) (h : s.stages = ts ++ [t]) :
    ((s.delivered s.stages ++ (withdrawn s.stages ++ t.remaining s.config)).map (·.id)).Nodup :=
  ((hs.perm_of_finished hstats h).map _).nodup_iff.1 (hs.nodup_posted (List.append_nil s.stages).symm)

/-- A message that is cancelled before it is due is not delivered, and is withdrawn just once if another round
follows. -/
lemma not_delivered_of_cancel (hs : s.Sound) (hg : s.Genuine) (hstats : s.outcome = .finished stats)
    {p r : Nat} (hm : m ∈ Envelope.messages (s.sentIn p)) (hp : p ≤ r)
    (hcancel : .cancel m.handle ∈ s.sentIn r) (hdue : ∀ d, s.FirstDue m p d → r < d) :
    (∀ n ∈ s.delivered s.stages, n.id ≠ m.id) ∧
      (r < s.stages.length → (withdrawn s.stages).filter (·.id = m.id) = [m]) := by
  rcases stages_eq_nil_or_append s with ⟨hnil, _⟩ | ⟨ts, t, h⟩
  · rw [hnil]
    exact ⟨fun n hn => absurd hn List.not_mem_nil, fun hr => absurd hr (Nat.not_lt_zero r)⟩
  have hnodup := hs.nodup_of_finished hstats h
  rw [List.map_append, List.nodup_append, List.map_append] at hnodup
  obtain ⟨_, hrest, hdisjoint⟩ := hnodup
  have hmem := hs.mem_withdrawn_or_remaining hg h hm hp hcancel hdue
  constructor
  · intro n hn
    refine hdisjoint _ (List.mem_map_of_mem hn) _ ?_
    rw [← List.map_append]
    exact List.mem_map_of_mem (List.mem_append.2 (hmem.imp_right And.right))
  · intro hr
    have hw : m ∈ withdrawn s.stages := hmem.resolve_right fun hge => absurd hr (by omega)
    have hids := (List.nodup_append.1 hrest).1
    refine List.perm_singleton.1 ((List.perm_ext_iff_of_nodup (hids.of_map.filter _) (by simp)).2
      fun n => ?_)
    rw [List.mem_filter, List.mem_singleton, decide_eq_true_eq]
    constructor
    · rintro ⟨hn, hid⟩
      exact List.inj_on_of_nodup_map hids hn hw hid
    · rintro rfl
      exact ⟨hw, rfl⟩

/-- The figures of a run that finishes count the withdrawn messages. -/
lemma cancelled_eq (hs : s.Sound) (hstats : s.outcome = .finished stats) :
    stats.cancelled = (withdrawn s.stages).length := by
  rcases stages_eq_nil_or_append s with ⟨hnil, hfirst⟩ | ⟨ts, t, h⟩
  · rw [hnil]
    rcases (run_of_none hfirst).2 with ⟨_, _, hfinished, _⟩ | ⟨e, hfailed, _⟩ | ⟨c, hcrashed, _⟩
    · cases hstats.symm.trans hfinished
      rfl
    · cases hstats.symm.trans hfailed
    · cases hstats.symm.trans hcrashed
  · obtain ⟨_, delta, _, hfigures⟩ := hs.stats_of_finished h hstats
    rw [hfigures, (length_delivered (fault_eq_none_of_finished hstats)).2, h]

/-- No message is delivered in two rounds. -/
lemma round_eq_of_delivered (hs : s.Sound) (hstats : s.outcome = .finished stats) {r r' : Nat}
    {t' : Stage U P} (ht : s.round? r = some t) (ht' : s.round? r' = some t')
    (hm : m ∈ t.delivered s.config) (hm' : m ∈ t'.delivered s.config) : r = r' := by
  rcases stages_eq_nil_or_append s with ⟨hnil, _⟩ | ⟨ts, l, h⟩
  · obtain ⟨_, _, hstages, _⟩ := exists_of_round? ht
    simp [hnil] at hstages
  have hnodup := (List.nodup_append.1 (hs.nodup_of_finished hstats h).of_map).1
  have hpairwise := (List.nodup_flatMap.1 hnodup).2
  cases r with
  | zero => cases ht
  | succ r =>
    cases r' with
    | zero => cases ht'
    | succ r' =>
      obtain ⟨hr, rfl⟩ := List.getElem?_eq_some_iff.1 (show s.stages[r]? = some t from ht)
      obtain ⟨hr', rfl⟩ := List.getElem?_eq_some_iff.1 (show s.stages[r']? = some t' from ht')
      rw [List.pairwise_iff_getElem] at hpairwise
      rcases Nat.lt_trichotomy r r' with hlt | heq | hlt
      · exact absurd hm' (hpairwise r r' hr hr' hlt hm)
      · rw [heq]
      · exact absurd hm (hpairwise r' r hr' hr hlt hm')

/-- A message that is not cancelled before it is due is delivered in the round in which it is first due. -/
lemma mem_delivered_of_firstDue (hs : s.Sound) (hg : s.Genuine) (hstats : s.outcome = .finished stats)
    {p d : Nat} (hm : m ∈ Envelope.messages (s.sentIn p)) (hfirst : s.FirstDue m p d)
    (hnone : ∀ r, p ≤ r → r < d → .cancel m.handle ∉ s.sentIn r) (ht : s.round? d = some t) :
    m ∈ t.delivered s.config := by
  obtain ⟨ts, rest, h, rfl⟩ := exists_of_round? ht
  obtain ⟨t', ht', hdue⟩ := hfirst.due
  cases ht.symm.trans ht'
  have hp : p ≤ ts.length := Nat.le_of_lt_succ hfirst.lt
  have hf := fault_eq_none_of_finished hstats t (h ▸ by simp)
  refine (hs.mem_delivered_iff hg h hf).2 ⟨?_, hnone _ hp (Nat.lt_succ_self _), hdue⟩
  exact hs.mem_pending_of_le hg h hm hp (fun r hr hlt => hnone r hr (by omega))
    fun r hr hle => hfirst.first r hr (by omega)

end Sound

/-- **Cancellation.** In every run that finishes, a message is withdrawn if it is cancelled before the round
in which it is due, and delivered in that round if it is not; it does not matter who cancels it, how often, or
what else is cancelled.

**Proof sketch.** A message is pending until it is cancelled or due (`Sound.mem_pending_of_le`). In the round
after its first cancellation it is withdrawn (`Sound.mem_withdrawn_iff`), and in the round in which it is due
it is delivered (`Sound.mem_delivered_iff`). Neither happens twice, because all messages are accounted for at
the end (`Sound.perm_of_finished`). -/
theorem IsSetUp.cancels (hs : s.IsSetUp) (hg : s.Genuine) {stats : RunStats}
    (hstats : s.outcome = .finished stats) : s.Cancels stats := by
  have hsound := hs.sound
  refine ⟨fun p r m hm hp hr hdue => ?_, hsound.cancelled_eq hstats,
    fun p d m hm hfirst hnone r t hround => ?_,
    fun p m hm r xs hxs reply hx => hsound.reply_eq_ok hm hxs hx, fun r t hround m hw => ?_⟩
  · exact hsound.not_delivered_of_cancel hg hstats hm hp ((hsound.unscheduledIn_iff hm).1 hr) hdue
  · have hnone' : ∀ r, p ≤ r → r < d → .cancel m.handle ∉ s.sentIn r := fun r hr hlt hc =>
      hnone r hr hlt ((hsound.unscheduledIn_iff hm).2 hc)
    obtain ⟨t', ht', _⟩ := hfirst.due
    constructor
    · intro hdelivered
      exact hsound.round_eq_of_delivered hstats hround ht' hdelivered
        (hsound.mem_delivered_of_firstDue hg hstats hm hfirst hnone' ht')
    · rintro rfl
      exact hsound.mem_delivered_of_firstDue hg hstats hm hfirst hnone' hround
  · obtain ⟨ts, rest, h, hlength⟩ := exists_of_round? hround
    obtain rfl : r = ts.length := Nat.succ.inj hlength
    exact hsound.unscheduledIn_of_cancel ((hsound.mem_withdrawn_iff hg h).1 hw).2

/-- The first correspondent's letter, which arrives, and its second one, which it withdraws. -/
def letter (seq secs : Nat) (payload : Int) : Message Mark :=
  ⟨⟨Id.ofNat 0, seq⟩, Id.ofNat 1, ⟨Binary64.ofNat secs⟩, ⟨payload⟩⟩

/-- Of the two messages that the first correspondent sends when it starts, the first one is delivered in the
second round. The second one is cancelled in the fourth round, is never delivered, and is withdrawn once. -/
theorem cancels_correspondents :
    ∃ stats, correspondents.outcome = .finished stats ∧ stats.cancelled = 2 ∧
      (withdrawn correspondents.stages).length = 2 ∧
      (∀ t, correspondents.round? 2 = some t → letter 0 2 5 ∈ t.delivered correspondents.config) ∧
      correspondents.UnscheduledIn 4 (letter 1 9 7).handle ∧
      (∀ n ∈ correspondents.delivered correspondents.stages, n.id ≠ (letter 1 9 7).id) ∧
      (withdrawn correspondents.stages).filter (·.id = (letter 1 9 7).id) = [letter 1 9 7] := by
  have hg : correspondents.Genuine := by decide +kernel
  have hfinished := outcome_correspondents
  obtain ⟨hcancelled, hcount, hdelivered, _, _⟩ := isSetUp_correspondents.cancels hg hfinished
  have hsent : letter 0 2 5 ∈ Envelope.messages (correspondents.sentIn 0) := by decide +kernel
  have hsent' : letter 1 9 7 ∈ Envelope.messages (correspondents.sentIn 0) := by decide +kernel
  have hfirst : correspondents.FirstDue (letter 0 2 5) 0 2 := by
    refine ⟨by decide, by decide +kernel, fun r hr hlt => ?_⟩
    obtain rfl : r = 1 := by omega
    decide +kernel
  have hnone : ∀ r, r < 2 → .cancel (letter 0 2 5).handle ∉ correspondents.sentIn r := by decide +kernel
  have hcancel : .cancel (letter 1 9 7).handle ∈ correspondents.sentIn 4 := by decide +kernel
  have hunscheduled := isSetUp_correspondents.sound.unscheduledIn_of_cancel hcancel
  have hnever : ∀ t ∈ correspondents.stages,
      ¬ (letter 1 9 7).time ≤ correspondents.config.deliveryLimit t.horizon.current := by decide +kernel
  obtain ⟨hnot, honce⟩ := hcancelled 0 4 _ hsent' (by decide) hunscheduled fun d hd => by
    obtain ⟨t, ht, hdue⟩ := hd.due
    obtain ⟨ts, rest, h, _⟩ := exists_of_round? ht
    exact absurd hdue (hnever t (h ▸ by simp))
  refine ⟨_, hfinished, rfl, hcount.symm, fun t ht => ?_, hunscheduled, hnot, honce (by decide +kernel)⟩
  refine (hdelivered 0 2 _ hsent hfirst (fun r _ hr hun => ?_) 2 t ht).2 rfl
  exact hnone r hr ((isSetUp_correspondents.sound.unscheduledIn_iff hsent).1 hun)

end Scheduler

end EventSim
