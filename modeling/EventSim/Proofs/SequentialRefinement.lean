import EventSim.Proofs.Genuine
import EventSim.Proofs.Heedless
import EventSim.Proofs.Recovery
import EventSim.Proofs.SequentialLoop

set_option autoImplicit false

/-!
# Rounds refine the sequential loop

In a round the messages of different units are handled out of order, and what they send is not seen before
the next round. Nevertheless a successful run is the same, for every unit, as the sequential simulation of
the same setup: every unit handles its own messages in order of time, and nothing is sent into the past, so
that what the engine has handled makes up a chronicle.

This holds for runs that are not cut off and in which no unit cancels anything or heeds the horizon, and if
no two messages for the same unit are due at the same time. A message that is sent to another unit for the
very horizon may come, in the order of keys, before one that the other unit has handled already.

## Main definitions

* `EventSim.Scheduler.Heedless` — no unit heeds the horizon in the run.
* `EventSim.Scheduler.Untied` — messages for the same unit are due at different times.
* `EventSim.Scheduler.chronicle` — what has been handled.
* `EventSim.Scheduler.loop` — the sequential simulation of the setup.

## Main results

* `EventSim.Scheduler.Sound.chronicle_of_finished` — what was handled in a run makes up a chronicle.
* `EventSim.Scheduler.IsSetUp.refines_sequential` — a successful run refines the sequential loop.
-/

namespace EventSim

variable {U P : Type} [Payload P] [SimUnit U P]

/-! ## Replaying what was handled -/

namespace Slot

variable {s : Setting} {x y z : Slot U} {m : Message P} {ms : List (Message P)}
  {table : RoutingTable} {hs hs' : List (Handled P)}

omit [SimUnit U P] [Payload P] in
/-- What was handled without failure is determined by its outline. -/
lemma eq_of_outline {h h' : Handled P} (heq : outline h = outline h') (hok : h.failure = none) :
    h = h' := by
  obtain ⟨m, sent, failure⟩ := h
  obtain ⟨m', sent', failure'⟩ := h'
  obtain rfl : failure = none := hok
  simp only [outline, Prod.mk.injEq, Option.isSome_none] at heq
  obtain ⟨rfl, rfl, hnone⟩ := heq
  rw [Option.isSome_eq_false_iff.1 hnone.symm |> Option.isNone_iff_eq_none.1]

omit [SimUnit U P] [Payload P] in
lemma eq_of_map_outline (heq : hs.map outline = hs'.map outline) (hok : ∀ h ∈ hs, h.failure = none) :
    hs = hs' := by
  induction hs generalizing hs' with
  | nil => exact (List.map_eq_nil_iff.1 heq.symm).symm
  | cons h hs ih =>
    obtain ⟨h', rest, rfl, hh, hrest⟩ := List.map_eq_cons_iff.1 heq.symm
    rw [eq_of_outline hh.symm (hok h List.mem_cons_self),
      ih hrest.symm fun g hg => hok g (List.mem_cons_of_mem _ hg)]

/-- A replay goes on where another one has ended. -/
lemma Replays.append (h : x.Replays table hs y) (h' : y.Replays table hs' z) :
    x.Replays table (hs ++ hs') z := by
  induction hs generalizing x with
  | nil =>
    obtain rfl : x = y := h
    exact h'
  | cons g hs ih => exact ⟨h.1, h.2.1, ih h.2.2⟩

/-- What a unit does in a round it would do alone, if it does not heed the horizon. -/
lemma replays_handleAll (hok : ∀ h ∈ (x.handleAll s ms).2, h.failure = none)
    (hle : ∀ m ∈ ms, m.time ≤ s.horizon)
    (hheed : ∀ as m bs, ms = as ++ m :: bs → (x.handleAll s as).1.Heedless s m) :
    x.Replays s.table (x.handleAll s ms).2 (x.handleAll s ms).1 := by
  induction ms generalizing x with
  | nil => rfl
  | cons m ms ih =>
    have hsuccess : ¬ (x.handle s m).2.failure.isSome := by
      intro hf
      rw [handleAll_cons_of_failure hf] at hok
      rw [hok _ List.mem_cons_self] at hf
      cases hf
    rw [handleAll_cons_of_success hsuccess] at hok ⊢
    have hfirst : x.Heedless s m := hheed [] m ms rfl
    obtain ⟨hslot, hout⟩ := hfirst (.alone s.table m) rfl (SimTime.le_refl _) (hle m List.mem_cons_self)
    have hhandled := eq_of_outline hout.symm (hok _ List.mem_cons_self)
    refine ⟨hhandled.symm, hok _ List.mem_cons_self, ?_⟩
    rw [show (x.handle s m).2.message = m from rfl, hslot]
    refine ih (fun h hh => hok h (List.mem_cons_of_mem _ hh)) (fun m hm => hle m (List.mem_cons_of_mem _ hm))
      fun as m' bs heq => ?_
    have hrest := hheed (m :: as) m' bs (by rw [heq]; rfl)
    rwa [handleAll_cons_of_success hsuccess] at hrest

end Slot

namespace Stage

variable {config : RunConfig} {t : Stage U P} {u : UnitId} {x : Slot U}
  (hc : t.engine.Coherent t.past) (hf : (t.record config).fault = none)
  (hx : t.engine.slot? u = some x)

include hf in
/-- No message fails in a round without fault. -/
lemma failure_eq_none_of_filter {h : Handled P}
    (hh : h ∈ (t.record config).handled.filter (·.message.target = u)) : h.failure = none :=
  Engine.failure_eq_none_of_success hf (List.mem_filter.1 hh).1

include hc hf hx

/-- In a round without fault a unit handles just what it is handed. -/
lemma filter_handled_of_success :
    (t.record config).handled.filter (·.message.target = u) =
      (x.handleAll (t.engine.setting t.past t.horizon.current) ((t.record config).received u)).2 :=
  Slot.eq_of_map_outline (hc.slot?_runRound config t.horizon.current hx).2 fun _ hh =>
    failure_eq_none_of_filter hf hh

/-- **What a unit does in a round without fault it would do alone**, if it does not heed the horizon. -/
theorem replays (hheed : ∀ as m bs, (t.record config).received u = as ++ m :: bs →
      (x.handleAll (t.engine.setting t.past t.horizon.current) as).1.Heedless
        (t.engine.setting t.past t.horizon.current) m) :
    ∃ y, (t.after config).slot? u = some y ∧ x.Replays t.engine.postbox.table
      ((t.record config).handled.filter (·.message.target = u)) y := by
  have heq := filter_handled_of_success hc hf hx
  refine ⟨_, (hc.slot?_runRound config t.horizon.current hx).1, ?_⟩
  rw [heq]
  refine Slot.replays_handleAll (s := t.engine.setting t.past t.horizon.current) ?_ ?_ hheed
  · intro h hh
    rw [← heq] at hh
    exact failure_eq_none_of_filter hf hh
  · intro m hm
    obtain ⟨h, hh, rfl⟩ := List.mem_map.1 (List.mem_filter.1 hm).1
    have hh' : h ∈ (t.record config).handled := hh
    exact (of_handled hc hh').2.1

end Stage

namespace Scheduler

variable {s : Scheduler U P} {t : Stage U P} {ts us rest : List (Stage U P)}

/-! ## What is asked of the run -/

/-- No unit heeds the horizon in the run, or the round. -/
def Heedless (s : Scheduler U P) : Prop :=
  ∀ t ∈ s.stages, ∀ u x, t.engine.slot? u = some x →
    ∀ as m bs, (t.record s.config).received u = as ++ m :: bs →
      (x.handleAll (t.engine.setting t.past t.horizon.current) as).1.Heedless
        (t.engine.setting t.past t.horizon.current) m

/-- No unit heeds the horizon in a run without fault, if none ever does when it handles a message. -/
lemma Sound.heedless (hs : s.Sound) (hf : ∀ t ∈ s.stages, (t.record s.config).fault = none)
    (h : ∀ (c : Setting) (x : Slot U) (m : Message P), (x.handle c m).2.failure = none →
      x.Heedless c m) : s.Heedless := by
  intro t ht u x hx as m bs heq
  refine h _ _ _ ?_
  have hok : ∀ g ∈ (x.handleAll (t.engine.setting t.past t.horizon.current) (as ++ m :: bs)).2,
      g.failure = none := by
    intro g hg
    rw [← heq, ← Stage.filter_handled_of_success (hs.coherent_of_mem ht) (hf t ht) hx] at hg
    exact Stage.failure_eq_none_of_filter (hf t ht) hg
  have hbefore : ¬ x.Fails (t.engine.setting t.past t.horizon.current) as := fun hfails => by
    rw [Slot.handleAll_append_of_failure hfails] at hok
    obtain ⟨g, hg, hfail⟩ := hfails
    rw [hok g hg] at hfail
    cases hfail
  rw [Slot.handleAll_append_of_success hbefore] at hok
  refine hok _ (List.mem_append_right _ ?_)
  rw [Slot.handleAll]
  split <;> exact List.mem_cons_self

/-- No two messages for the same unit are due at the same time. -/
def Untied (s : Scheduler U P) : Prop :=
  ∀ m ∈ s.posted s.stages, ∀ m' ∈ s.posted s.stages,
    m.target = m'.target → m.time = m'.time → m.id = m'.id

instance (s : Scheduler U P) : Decidable s.Untied :=
  inferInstanceAs (Decidable (∀ m ∈ s.posted s.stages, ∀ m' ∈ s.posted s.stages,
    m.target = m'.target → m.time = m'.time → m.id = m'.id))

/-! ## The chronicle of a run -/

/-- What has been handled when some stages are over. -/
def chronicle (s : Scheduler U P) (ts : List (Stage U P)) : List (Handled P) :=
  ts.flatMap fun t => (t.record s.config).handled

lemma chronicle_append (ts us : List (Stage U P)) :
    s.chronicle (ts ++ us) = s.chronicle ts ++ s.chronicle us := List.flatMap_append

lemma chronicle_singleton (t : Stage U P) : s.chronicle [t] = (t.record s.config).handled :=
  List.flatMap_singleton ..

/-- What has been scheduled was there from the beginning or has been sent. -/
lemma posted_eq_append (ts : List (Stage U P)) :
    s.posted ts = Envelope.messages s.opening ++ Handled.posted (s.chronicle ts) := by
  rw [posted, chronicle, Handled.posted, List.flatMap_assoc, Envelope.messages_flatMap]
  rfl

/-- The messages that have been delivered are those that have been handled. -/
lemma delivered_eq_map (ts : List (Stage U P)) :
    s.delivered ts = (s.chronicle ts).map (·.message) := by
  rw [delivered, chronicle, List.map_flatMap]
  rfl

/-- What has been handled belongs to some round. -/
lemma mem_chronicle {h : Handled P} :
    h ∈ s.chronicle ts ↔ ∃ t ∈ ts, h ∈ (t.record s.config).handled := List.mem_flatMap

/-- What has been handled for a unit, by rounds. -/
lemma map_filter_chronicle (u : UnitId) :
    ((s.chronicle s.stages).filter (·.message.target = u)).map (·.message) =
      s.history.flatMap (·.received u) := by
  rw [chronicle, history_eq_map, List.filter_flatMap, List.map_flatMap, List.flatMap_map]
  apply List.flatMap_congr
  intro t _
  rw [RoundRecord.received, List.filter_map]
  rfl

namespace Sound

/-- A message is handled after it was sent. -/
lemma grounded (hs : s.Sound) (hstages : s.stages = ts ++ us) :
    ∀ as h bs, s.chronicle ts = as ++ h :: bs →
      h.message ∈ Envelope.messages s.opening ∨ h.message ∈ Handled.posted as := by
  induction ts using List.reverseRecOn generalizing us with
  | nil =>
    intro as h bs heq
    simp [chronicle] at heq
  | append_singleton ts t ih =>
    intro as h bs heq
    rw [List.append_assoc, List.singleton_append] at hstages
    rw [chronicle_append, chronicle_singleton] at heq
    -- what is handled in the last round was pending before it
    have hlast : ∀ cs, as = s.chronicle ts ++ cs → h ∈ (t.record s.config).handled →
        h.message ∈ Envelope.messages s.opening ∨ h.message ∈ Handled.posted as := by
      rintro cs rfl hh
      have hmem : h.message ∈ s.posted ts := by
        refine hs.mem_posted_of_mem_pending hstages (List.mem_append.2 ?_)
        exact (Stage.of_handled (hs.coherent_of_stages_eq hstages) hh).1
      rw [posted_eq_append, List.mem_append] at hmem
      apply hmem.imp_right
      intro hposted
      rw [Handled.posted_append]
      exact List.mem_append_left _ hposted
    rcases List.append_eq_append_iff.1 heq with ⟨cs, has, hhandled⟩ | ⟨cs, hbefore, hafter⟩
    · exact hlast cs has (hhandled ▸ List.mem_append_right _ List.mem_cons_self)
    · cases cs with
      | nil =>
        rw [List.append_nil] at hbefore
        rw [List.nil_append] at hafter
        exact hlast [] (by rw [List.append_nil, hbefore]) (hafter ▸ List.mem_cons_self)
      | cons c cs =>
        rw [List.cons_append] at hafter
        obtain ⟨rfl, -⟩ := List.cons.inj hafter
        exact ih hstages as h cs hbefore

/-- A unit has done alone what it has done in the run, if no unit heeds the horizon. -/
lemma replays_of_stages_eq (hs : s.Sound) (hheed : s.Heedless) (h : s.stages = ts ++ t :: rest)
    {u : UnitId} {x : Slot U} (hx : s.firstEngine.slot? u = some x) :
    ∃ y, t.engine.slot? u = some y ∧
      x.Replays s.table ((s.chronicle ts).filter (·.message.target = u)) y := by
  refine hs.engine_induction (motive := fun ts _ e => ∃ y, e.slot? u = some y ∧
    x.Replays s.table ((s.chronicle ts).filter (·.message.target = u)) y) ⟨x, hx, rfl⟩
    (fun ts t rest hstages hf ih => ?_) h
  obtain ⟨y, hy, hxy⟩ := ih
  have hmem : t ∈ s.stages := hstages ▸ List.mem_append_right _ List.mem_cons_self
  obtain ⟨z, hz, hyz⟩ := Stage.replays (hs.coherent_of_stages_eq hstages) hf hy (hheed t hmem u y hy)
  rw [hs.table_of_stages_eq hstages] at hyz
  refine ⟨z, hz, ?_⟩
  rw [chronicle_append, chronicle_singleton, List.filter_append]
  exact hxy.append hyz

omit [Payload P] [SimUnit U P] in
/-- Where nothing is cancelled, nothing is withdrawn. -/
lemma withdrawn_eq_nil {e : Engine U P} {round : Nat}
    (h : ∀ c, .cancel c ∉ e.postbox.envelopes round) : e.withdrawn round = [] := by
  apply List.eq_nil_iff_forall_not_mem.2
  intro m hm
  obtain ⟨w, _, hm⟩ := List.mem_flatMap.1 hm
  obtain ⟨c, hc, _⟩ := MessageQueue.named_eq_true_iff.1 (List.mem_filter.1 hm).2
  refine h c (Postbox.mem_envelopes.2 ⟨w.id.index, ?_⟩)
  rw [← Engine.stagedFor_eq]
  exact Envelope.mem_handles.1 hc

/-- Every unit handles its messages in order of time. -/
lemma pairwise_time (hs : s.Sound) (u : UnitId) :
    ((s.chronicle s.stages).filter (·.message.target = u)).Pairwise
      (·.message.time ≤ ·.message.time) := by
  rw [chronicle, List.filter_flatMap, List.pairwise_flatMap]
  constructor
  · intro t ht
    obtain ⟨ts, rest, hstages⟩ := List.append_of_mem ht
    have hsorted := (hs.coherent_of_stages_eq hstages).sorted_received s.config t.horizon.current u
    rw [RoundRecord.received, List.filter_map] at hsorted
    refine (List.pairwise_map.1 hsorted).imp fun hlt => ?_
    rcases hlt with hlt | ⟨heq, _⟩
    · exact le_of_lt hlt
    · exact le_of_eq heq
  · apply pairwise_of_append
    intro ts t us hstages t' ht' h hh h' hh'
    have hbefore : h.message.time ≤ t.horizon.current :=
      (Stage.of_handled (hs.coherent_of_stages_eq hstages) (List.mem_filter.1 hh).1).2.1
    exact le_trans hbefore (hs.horizon_le_of_history_eq (history_eq_of_stages_eq hstages)
      (List.mem_map_of_mem ht') (List.mem_filter.1 hh').1)

/-- When a run that is not cut off has succeeded, nothing is left. -/
lemma remaining_eq_nil (hend : s.config.endTime = none) {p : Progress}
    (hout : t.outcome s.config = .ok p) : t.remaining s.config = [] := by
  obtain ⟨hf, _, _, hpending⟩ := Stage.of_outcome hout
  have hzero : (t.record s.config).summary.pending = 0 := by
    refine hpending.resolve_right ?_
    rw [RunConfig.reachedEnd, hend]
    exact Bool.false_ne_true
  have hqueued := (Engine.summary_of_success hf).2.1
  have hstaged := (Engine.counts_runRound s.config t.past t.horizon.current t.engine).2
  rw [RoundSummary.pending, Stage.record, hqueued] at hzero
  rw [Stage.remaining, Stage.after, List.append_eq_nil_iff, ← List.length_eq_zero_iff,
    ← List.length_eq_zero_iff, ← hstaged]
  exact Nat.add_eq_zero_iff.1 hzero

/-- A unit is there after a round just if it was there before the first one. -/
lemma slot?_after_eq_none (hs : s.Sound) (h : s.stages = ts ++ t :: rest) {u : UnitId}
    (hu : s.firstEngine.slot? u = none) : (t.after s.config).slot? u = none := by
  have hfirst := hs.coherent_firstEngine.isSome_slot? (u := u)
  have hlast := ((hs.coherent_of_stages_eq h).runRound s.config t.horizon.current).isSome_slot? (u := u)
  rw [Engine.table_runRound, hs.table_of_stages_eq h] at hlast
  rw [hs.table_firstEngine, ← hlast, hu] at hfirst
  exact Option.isSome_eq_false_iff.1 hfirst.symm |> Option.isNone_iff_eq_none.1

/-- A unit that handles something was there before the first round. -/
lemma isSome_slot?_of_mem_chronicle (hs : s.Sound) {h : Handled P} (hh : h ∈ s.chronicle s.stages) :
    (s.firstEngine.slot? h.message.target).isSome := by
  obtain ⟨t, ht, hh⟩ := mem_chronicle.1 hh
  obtain ⟨x, hx⟩ := (hs.coherent_of_mem ht).exists_slot_of_handled hh
  obtain ⟨ts, rest, hstages⟩ := List.append_of_mem ht
  rw [hs.coherent_firstEngine.isSome_slot?, hs.table_firstEngine, ← hs.table_of_stages_eq hstages,
    ← (hs.coherent_of_stages_eq hstages).isSome_slot?, hx]
  rfl

/-- Nothing is sent into the past. -/
lemma time_le_of_mem_chronicle (hs : s.Sound) {h : Handled P} (hh : h ∈ s.chronicle s.stages)
    {m : Message P} (hm : .deliver m ∈ h.sent) : h.message.time ≤ m.time := by
  obtain ⟨t, ht, hh⟩ := mem_chronicle.1 hh
  have hbefore := (Stage.of_handled (hs.coherent_of_mem ht) hh).2.1
  have haccepted : m ∈ (t.record s.config).accepted :=
    Envelope.mem_messages.2 (List.mem_flatMap.2 ⟨h, hh, hm⟩)
  have hafter := (Engine.sent_runRound s.config t.past t.horizon.current t.engine).1 m haccepted
  exact le_trans hbefore hafter

/-! ### Runs without cancellations -/

section Plain

variable (hs : s.Sound) (hplain : Envelope.handles (s.envelopes s.stages) = [])

include hplain

/-- What a message sends holds no cancellation. -/
lemma handles_sent_eq_nil {h : Handled P} (hh : h ∈ s.chronicle s.stages) :
    Envelope.handles h.sent = [] := by
  obtain ⟨t, ht, hh⟩ := mem_chronicle.1 hh
  refine List.eq_nil_iff_forall_not_mem.2 fun c hc => Envelope.not_mem_of_handles_eq_nil hplain c ?_
  refine List.mem_append_right _ (List.mem_flatMap.2 ⟨t, ht, List.mem_flatMap.2 ⟨h, hh, ?_⟩⟩)
  exact Envelope.mem_handles.1 hc

include hs

/-- In no round is anything withdrawn. -/
lemma withdrawn_stages_eq_nil : withdrawn s.stages = [] := by
  refine List.flatMap_eq_nil_iff.2 fun t ht => withdrawn_eq_nil fun c hc => ?_
  obtain ⟨ts, rest, hstages⟩ := List.append_of_mem ht
  have hbefore : .cancel c ∈ s.envelopes ts := hs.mem_envelopes_of_stages_eq hstages hc
  refine Envelope.not_mem_of_handles_eq_nil hplain c ?_
  rw [hstages, envelopes, List.flatMap_append, ← List.append_assoc]
  exact List.mem_append_left _ hbefore

/-- What was handled in a successful run that is not cut off is all that was scheduled. -/
lemma perm_chronicle (h : s.stages = ts ++ [t]) (hend : s.config.endTime = none) {p : Progress}
    (hout : t.outcome s.config = .ok p) :
    ((s.chronicle s.stages).map (·.message)).Perm (s.posted s.stages) := by
  have hall := hs.perm_after h (Stage.of_outcome hout).1 (hs.perm_of_stages_eq h)
  rw [← h, hs.withdrawn_stages_eq_nil hplain, remaining_eq_nil hend hout, List.append_nil,
    List.append_nil, delivered_eq_map] at hall
  exact hall.symm

end Plain

/-- Every unit handles its messages in strict order of time, if no two of them are due together. -/
lemma pairwise_time_lt (hs : s.Sound) (huntied : s.Untied)
    (hperm : ((s.chronicle s.stages).map (·.message)).Perm (s.posted s.stages)) (u : UnitId) :
    ((s.chronicle s.stages).filter (·.message.target = u)).Pairwise
      (·.message.time < ·.message.time) := by
  have hdistinct : ((s.chronicle s.stages).filter (·.message.target = u)).Pairwise
      (·.message.id ≠ ·.message.id) := by
    have hids := ((hperm.map (·.id)).nodup_iff).2 (hs.nodup_posted (List.append_nil _).symm)
    rw [List.map_map] at hids
    exact (List.pairwise_map.1 hids).filter _
  refine ((hs.pairwise_time u).and hdistinct).imp_of_mem fun {a b} ha hb hab => ?_
  refine lt_of_le_of_ne hab.1 fun heq => hab.2 ?_
  obtain ⟨ha, hau⟩ := List.mem_filter.1 ha
  obtain ⟨hb, hbu⟩ := List.mem_filter.1 hb
  have hposted : ∀ g ∈ s.chronicle s.stages, g.message ∈ s.posted s.stages := fun g hg =>
    hperm.mem_iff.1 (List.mem_map_of_mem hg)
  refine huntied _ (hposted a ha) _ (hposted b hb) ?_ heq
  rw [of_decide_eq_true hau, of_decide_eq_true hbu]

/-- **What was handled in a successful run makes up a chronicle.** -/
theorem chronicle_of_finished (hs : s.Sound) (h : s.stages = ts ++ [t]) {stats : RunStats}
    (hstats : s.outcome = .finished stats) (hend : s.config.endTime = none)
    (hplain : Envelope.handles (s.envelopes s.stages) = []) (hheed : s.Heedless) (huntied : s.Untied) :
    Chronicle s.table s.firstEngine.slot? (t.after s.config).slot? (Envelope.messages s.opening)
      (s.chronicle s.stages) := by
  obtain ⟨p, hout⟩ : ∃ p, t.outcome s.config = .ok p := by
    rcases outcome_cases h with ⟨e, _, he⟩ | ⟨p, _, hp, _⟩
    · cases hstats.symm.trans he
    · exact ⟨p, hp⟩
  have hf := (Stage.of_outcome hout).1
  have hfaults : ∀ t ∈ s.stages, (t.record s.config).fault = none := h ▸ forall_fault_eq_none h hf
  have hg : s.Genuine := fun c hc =>
    absurd (Envelope.mem_handles.1 hc) (Envelope.not_mem_of_handles_eq_nil hplain c)
  have hperm := hs.perm_chronicle hplain h hend hout
  refine
    { perm := posted_eq_append s.stages ▸ hperm
      nodup := posted_eq_append s.stages ▸ hs.nodup_posted (List.append_nil _).symm
      grounded := hs.grounded (List.append_nil _).symm
      later := fun g hg m hm => hs.time_le_of_mem_chronicle hg hm
      plain := fun g hg => handles_sent_eq_nil hplain hg
      increasing := hs.pairwise_time_lt huntied hperm
      present := fun g hg => hs.isSome_slot?_of_mem_chronicle hg
      absent := fun u hu => hs.slot?_after_eq_none h hu
      replays := fun u x hx => ?_ }
  obtain ⟨y, hy, hxy⟩ := hs.replays_of_stages_eq hheed h hx
  have hmem : t ∈ s.stages := h ▸ List.mem_append_right _ List.mem_cons_self
  obtain ⟨z, hz, hyz⟩ := Stage.replays (hs.coherent_of_stages_eq h) hf hy (hheed t hmem u y hy)
  rw [hs.table_of_stages_eq h] at hyz
  refine ⟨z, hz, ?_⟩
  rw [h, chronicle_append, chronicle_singleton, List.filter_append]
  exact hxy.append hyz

end Sound

/-! ## Refinement -/

/-- The sequential simulation of the setup, when all units have started. -/
def loop (s : Scheduler U P) : Loop U P where
  slot? u := (s.slot? u).map (·.started s.table s.config.startTime)
  queue := (MessageQueue.empty.merge s.opening).2
  handled := []

/-- Without units there is nothing to simulate. -/
lemma Sound.loop_of_leastLookahead_eq_none (hs : s.Sound) (h : s.leastLookahead = none) :
    s.loop.queue.entries = [] ∧ ∀ u, s.loop.slot? u = none := by
  have hslot : ∀ u, s.slot? u = none := fun u => by rw [slot?, registered?_eq_none h, Option.map_none]
  have hseeds : s.seeds.toList = [] := List.eq_nil_iff_forall_not_mem.2 fun m hm => by
    have hsome := hs.seed_target m hm
    rw [registered?_eq_none h] at hsome
    cases hsome
  have hopening : s.opening = [] := by rw [opening, hseeds, hs.placed_eq_nil h]; rfl
  refine ⟨?_, fun u => Option.map_eq_none_iff.2 (hslot u)⟩
  simp only [loop, hopening, MessageQueue.merge_entries, Envelope.messages_nil,
    MessageQueue.putAll_eq_foldl]
  rfl

/-- **Rounds refine the sequential loop.** In a successful run that is not cut off, in which nothing is
cancelled, no unit heeds the horizon and no two messages for the same unit are due at the same time, every
unit receives the same messages in the same order, and ends in the same state, as in the sequential
simulation of the setup.

**Proof sketch.** A unit is handed its messages window by window, and in order within a window, so in order
of time. What is sent in a round is not earlier than its horizon, and so not earlier than what was handled
in it, and is handled in a later round. So the run makes up a chronicle (`Sound.chronicle_of_finished`),
and the loop handles what the chronicle says (`Chronicle.reaches`). -/
theorem IsSetUp.refines_sequential (hs : s.IsSetUp) {stats : RunStats}
    (hstats : s.outcome = .finished stats) (hend : s.config.endTime = none)
    (hplain : Envelope.handles (s.envelopes s.stages) = []) (hheed : s.Heedless) (huntied : s.Untied) :
    ∃ l, Loop.Reaches s.table s.loop l ∧ l.queue.entries = [] ∧
      (∀ u, (l.handled.filter (·.message.target = u)).map (·.message) =
        s.history.flatMap (·.received u)) ∧
      ∀ u, (l.slot? u).map (·.unit) = s.afterRun.unit? u := by
  rcases stages_eq_nil_or_append s with ⟨hnil, hfirst⟩ | ⟨ts, t, h⟩
  · rcases (run_of_none hfirst).2 with ⟨_, hnone, _, hunits⟩ | ⟨e, hfailed, _⟩ | ⟨c, hcrashed, _⟩
    · obtain ⟨hqueue, hslot⟩ := hs.sound.loop_of_leastLookahead_eq_none hnone
      refine ⟨s.loop, .refl, hqueue, fun u => ?_, fun u => ?_⟩
      · rw [← map_filter_chronicle, hnil]
        rfl
      · rw [hslot, afterRun, unit?_congr hunits, unit?, registered?_eq_none hnone]
        rfl
    · cases hstats.symm.trans hfailed
    · cases hstats.symm.trans hcrashed
  · have hc := hs.sound.chronicle_of_finished h hstats hend hplain hheed huntied
    have hopening : Envelope.handles s.opening = [] := by
      rw [envelopes, Envelope.handles, List.filterMap_append, List.append_eq_nil_iff] at hplain
      exact hplain.1
    have hloop : s.loop = ⟨s.firstEngine.slot?,
        MessageQueue.empty.putAll (Envelope.messages s.opening), []⟩ := by
      have hslot : s.firstEngine.slot? = fun u => (s.slot? u).map
          (·.started s.table s.config.startTime) := funext hs.sound.slot?_firstEngine
      rw [hslot, loop, MessageQueue.merge, show s.opening.filterMap Envelope.cancellation? = [] from
        hopening]
      rfl
    obtain ⟨l, hreaches, hempty, hhandled, hslot⟩ := hc.reaches
    refine ⟨l, hloop ▸ hreaches, hempty, fun u => ?_, fun u => ?_⟩
    · rw [hhandled, map_filter_chronicle]
    · rw [hslot, hs.sound.unit?_afterRun h]

/-! ## Two streets -/

/-- Three vehicles that go to and fro between two streets. -/
def commuters : Population where
  vehicles := #[⟨Id.ofNat 0, [Id.ofNat 0, Id.ofNat 1], ⟨Binary64.ofNat 3⟩⟩,
    ⟨Id.ofNat 1, [Id.ofNat 1, Id.ofNat 0], ⟨Binary64.ofNat 4⟩⟩,
    ⟨Id.ofNat 2, [Id.ofNat 0, Id.ofNat 1, Id.ofNat 0], ⟨Binary64.ofNat 5⟩⟩]

/-- A street of ten seconds that vehicles leave every two seconds. -/
def street (link : LinkId) : Road :=
  Road.ofLink link ⟨Id.ofNat 0, Id.ofNat 1, Binary64.ofNat 100, Binary64.ofNat 10, Binary64.ofNat 1800⟩
    commuters (commuters.departures.remove link).1

/-- Two streets at two workers. -/
def streets : Scheduler Road TrafficEvent :=
  ((({ config := { workers := 2 } } : Scheduler Road TrafficEvent).register (street (Id.ofNat 0))
    (Id.ofNat 0)).2.register (street (Id.ofNat 1)) (Id.ofNat 1)).2

lemma isSetUp_streets : streets.IsSetUp :=
  ((IsSetUp.new (show Scheduler.new { workers := 2 } = .ok _ from rfl)).register _ _).register _ _

/-- Three vehicles go to and fro between two streets in three rounds, as in the sequential simulation. -/
theorem refines_sequential_streets :
    streets.IsSetUp ∧ (∃ stats, streets.outcome = .finished stats ∧ stats.rounds = 3 ∧
        stats.delivered = 7) ∧
      streets.config.endTime = none ∧ Envelope.handles (streets.envelopes streets.stages) = [] ∧
      streets.Heedless ∧ streets.Untied ∧
      ∃ l, Loop.Reaches streets.table streets.loop l ∧ l.queue.entries = [] ∧
        (∀ u, (l.handled.filter (·.message.target = u)).map (·.message) =
          streets.history.flatMap (·.received u)) ∧
        ∀ u, (l.slot? u).map (·.unit) = streets.afterRun.unit? u := by
  have houtcome : streets.outcome = .finished {
      rounds := 3, horizonDelta := ⟨Binary64.ofNat 10⟩, finalHorizon := ⟨Binary64.ofNat 30⟩
      seeded := 3, delivered := 7, produced := 4, cancelled := 0, undelivered := 0
      workers := [⟨Id.ofNat 0, 4, 2, 0, 3, 0⟩, ⟨Id.ofNat 1, 3, 2, 0, 2, 1⟩] } := by decide +kernel
  have hfault : ∀ t ∈ streets.stages, (t.record streets.config).fault = none := by decide +kernel
  have hplain : Envelope.handles (streets.envelopes streets.stages) = [] := by decide +kernel
  have huntied : streets.Untied := by decide +kernel
  have hheed : streets.Heedless := isSetUp_streets.sound.heedless hfault fun _ _ _ => Road.heedless
  exact ⟨isSetUp_streets, ⟨_, houtcome, rfl, rfl⟩, rfl, hplain, hheed, huntied,
    isSetUp_streets.refines_sequential houtcome rfl hplain hheed huntied⟩

end Scheduler

end EventSim
