import EventSim.Proofs.SetupLog

set_option autoImplicit false

/-!
# The order of messages from one sender

Messages from one origin to one target overtake each other only in time. If two of them are accepted one after
the other and the later one is not due earlier, then it is not handed over earlier: when it is handed over, the
other one has been handed over before, or has been withdrawn. This holds across rounds. A message that has been
accepted stays pending until it is handed over or withdrawn, and a round that hands over a message hands over
whatever is pending and due no later. In one round the running numbers of the origin decide between messages that
are due at the same time.

## Main definitions

* `EventSim.SetupStep.withdraws` — a seed is withdrawn before the run.
* `EventSim.Scheduler.acceptedInOrder` — all messages of a setup and a run.

## Main results

* `EventSim.KeySorted.pair_sublist` — the order of keys is the order in which messages are handed over.
* `EventSim.Scheduler.Sound.withdrawn_or_before` — a message is not overtaken by one with a later key.
* `EventSim.Scheduler.SetUpBy.seed_cases` — what becomes of an accepted seed in the setup.
* `EventSim.Scheduler.SetUpBy.seq_lt_of_sublist` — running numbers follow the order of acceptance.
* `EventSim.Scheduler.SetUpBy.withdrawn_or_delivered_before` — messages from one sender stay in order.
-/

namespace EventSim

variable {U P : Type}

/-! ## Messages in order of keys -/

/-- If two messages are in one list, the one with the earlier key comes first. -/
lemma KeySorted.pair_sublist {ms : List (Message P)} {a b : Message P} (h : KeySorted ms) (ha : a ∈ ms)
    (hb : b ∈ ms) (hlt : a.key < b.key) : [a, b].Sublist ms := by
  obtain ⟨before, after, rfl⟩ := List.append_of_mem hb
  obtain ⟨_, hafter, _⟩ := List.pairwise_append.1 h
  have hmem : a ∈ before := by
    rcases List.mem_append.1 ha with ha | ha
    · exact ha
    rcases List.mem_cons.1 ha with rfl | ha
    · exact absurd hlt (Key.lt_irrefl _)
    · exact absurd (Key.lt_trans hlt ((List.pairwise_cons.1 hafter).1 a ha)) (Key.lt_irrefl _)
  exact (List.singleton_sublist.2 hmem).append (List.singleton_sublist.2 List.mem_cons_self)

/-- If the list is broken off after a message, those with earlier keys are before the break. -/
lemma KeySorted.mem_of_key_lt {ms rest : List (Message P)} {a b : Message P} (h : KeySorted (ms ++ rest))
    (ha : a ∈ ms ++ rest) (hb : b ∈ ms) (hlt : a.key < b.key) : a ∈ ms := by
  rcases List.mem_append.1 ha with ha | ha
  · exact ha
  · exact absurd (Key.lt_trans hlt ((List.pairwise_append.1 h).2.2 b hb a ha)) (Key.lt_irrefl _)

/-- Of two messages from one origin, the earlier one has the earlier key, and at the same time the one with the
smaller number. -/
lemma Message.key_lt_of_seq_lt {a b : Message P} (horigin : a.id.origin = b.id.origin)
    (hseq : a.id.seq < b.id.seq) (htime : a.time ≤ b.time) : a.key < b.key := by
  rcases lt_or_eq_of_le htime with htime | htime
  · exact Key.lt_def.2 (Or.inl htime)
  · exact Key.lt_def.2 (Or.inr ⟨htime, MessageId.lt_def.2 (Or.inr ⟨congrArg Id.index horigin, hseq⟩)⟩)

namespace Engine

variable [Payload P] [SimUnit U P] {config : RunConfig} {e : Engine U P} {round : Nat} {horizon : SimTime}
  {a b : Message P}

/-- **A worker hands over messages in the order of their keys.** If the later of two messages for one target is
handed over in a round in which both are due, the earlier one is handed over before it. -/
theorem Coherent.pair_sublist_handled (hc : e.Coherent round) (ha : a ∈ e.due config horizon round)
    (hb : b ∈ (e.runRound config (round + 1) horizon).2.handled.map (·.message)) (htarget : a.target = b.target)
    (hlt : a.key < b.key) :
    [a, b].Sublist ((e.runRound config (round + 1) horizon).2.handled.map (·.message)) := by
  rw [handled_runRound, List.map_flatMap] at hb ⊢
  obtain ⟨w, hw, hb⟩ := List.mem_flatMap.1 hb
  obtain ⟨i, hi⟩ := List.getElem?_of_mem hw
  rw [Array.getElem?_toList] at hi
  obtain ⟨rest, hrest⟩ := prefix_messages_part config round horizon e w
  have hbdue : b ∈ w.due config horizon (e.stagedFor w.id round) := hrest ▸ List.mem_append_left rest hb
  -- the same worker owns the target
  have hadue : a ∈ w.due config horizon (e.stagedFor w.id round) := by
    have howner : e.postbox.table.owner? b.target = some i := by
      rw [owns_iff.1 (hc.due_owned config horizon hi b hbdue), hc.index_eq hi]
    have hfilter : a ∈ (e.due config horizon round).filter (·.target = b.target) :=
      List.mem_filter.2 ⟨ha, by simpa using htarget⟩
    rw [hc.filter_due hi howner] at hfilter
    exact List.mem_of_mem_filter hfilter
  have hsorted : KeySorted (w.due config horizon (e.stagedFor w.id round)) := Worker.sorted_due
  rw [← hrest] at hsorted hadue
  have hpair := KeySorted.pair_sublist (List.pairwise_append.1 hsorted).1
    (hsorted.mem_of_key_lt hadue hb hlt) hb hlt
  obtain ⟨as, bs, hsplit⟩ := List.append_of_mem hw
  rw [hsplit, List.flatMap_append, List.flatMap_cons]
  exact (hpair.trans (List.sublist_append_left _ _)).trans (List.sublist_append_right _ _)

end Engine

/-! ## Rounds -/

namespace Scheduler

variable [Payload P] [SimUnit U P] {s : Scheduler U P} {t : Stage U P} {ts rest : List (Stage U P)}
  {log : List (SetupStep U P)} {m m₁ m₂ : Message P}

lemma delivered_append (s : Scheduler U P) (ts us : List (Stage U P)) :
    s.delivered (ts ++ us) = s.delivered ts ++ s.delivered us := List.flatMap_append

omit [Payload P] [SimUnit U P] in
lemma withdrawn_append (ts us : List (Stage U P)) : withdrawn (ts ++ us) = withdrawn ts ++ withdrawn us :=
  List.flatMap_append

/-- What is handed over is for a unit that is registered. -/
lemma Sound.isSome_registered?_of_delivered (hs : s.Sound) (h : s.stages = ts ++ t :: rest)
    (hm : m ∈ t.delivered s.config) : (s.registered? m.target).isSome := by
  obtain ⟨x, hx, rfl⟩ := List.mem_map.1 hm
  have hc := hs.coherent_of_stages_eq h
  obtain ⟨y, hy⟩ := hc.exists_slot_of_handled hx
  rw [← hs.isSome_route?, ← hs.table_of_stages_eq h, ← hc.isSome_slot?, hy]
  rfl

/-- What is accepted before a message that is handed over in a round is accepted before the round. -/
lemma Sound.mem_posted_of_sublist (hs : s.Sound) (h : s.stages = ts ++ t :: rest)
    (horder : [m₁, m₂].Sublist (s.posted s.stages)) (h₂ : m₂ ∈ t.delivered s.config) : m₁ ∈ s.posted ts := by
  have hnodup := (hs.nodup_posted (List.append_nil s.stages).symm).of_map _
  have hbefore := hs.mem_posted_of_mem_pending h (hs.mem_pending_of_delivered h h₂).1
  rw [h, posted_append] at horder hnodup
  obtain ⟨xs, ys, hsplit, hxs, hys⟩ := List.sublist_append_iff.1 horder
  cases xs with
  | nil =>
    have hafter := hys.subset (hsplit ▸ List.mem_cons_of_mem _ (List.mem_singleton_self m₂))
    exact absurd rfl ((List.nodup_append.1 hnodup).2.2 m₂ hbefore m₂ hafter)
  | cons x xs =>
    obtain ⟨rfl, _⟩ := List.cons.inj hsplit
    exact hxs.subset List.mem_cons_self

/-- **A message is not overtaken by one with a later key.** When that one is handed over, the message has been
handed over before, or has been withdrawn.

**Proof sketch.** If the message is still pending, it is withdrawn in this round or due in it: it cannot be left in
the queue, for it is not later than the one that is handed over. -/
theorem Sound.withdrawn_or_before (hs : s.Sound) (h : s.stages = ts ++ t :: rest) (h₁ : m₁ ∈ s.posted ts)
    (h₂ : m₂ ∈ t.delivered s.config) (htarget : m₁.target = m₂.target) (htime : m₁.time ≤ m₂.time)
    (hlt : m₁.key < m₂.key) :
    [m₁, m₂].Sublist (s.delivered (ts ++ [t])) ∨ m₁ ∈ withdrawn (ts ++ [t]) := by
  have hdelivered : s.delivered [t] = t.delivered s.config := List.flatMap_singleton ..
  have hwithdrawn : withdrawn [t] = t.withdrawn := List.flatMap_singleton ..
  rw [delivered_append, withdrawn_append, hdelivered, hwithdrawn]
  rcases List.mem_append.1 ((hs.perm_of_stages_eq h).subset h₁) with hbefore | hrest
  · exact Or.inl ((List.singleton_sublist.2 hbefore).append (List.singleton_sublist.2 h₂))
  rcases List.mem_append.1 hrest with hgone | hpending
  · exact Or.inr (List.mem_append_left _ hgone)
  have hc := hs.coherent_of_stages_eq h
  have hround := (hc.perm_runRound s.config t.horizon.current (hs.nodup_pending h)).subset hpending
  rcases List.mem_append.1 hround with hdue | hround
  · exact Or.inl ((hc.pair_sublist_handled hdue h₂ htarget hlt).trans (List.sublist_append_right _ _))
  rcases List.mem_append.1 hround with hgone | hwaiting
  · exact Or.inr (List.mem_append_right _ hgone)
  · have hle := le_trans htime (hs.mem_pending_of_delivered h h₂).2
    exact absurd (Engine.lt_of_mem_waiting_runRound hwaiting) (not_lt.2 hle)

end Scheduler

/-! ## Seeds in the setup -/

namespace SetupStep

/-- The message is among the seeds, and is withdrawn. -/
def withdraws (m : Message P) : SetupStep U P → Bool
  | ⟨.unschedule h, .ok true⟩ => h.id = m.id
  | _ => false

/-- A seed is dropped in two ways. -/
lemma drops_eq_true_iff {x : SetupStep U P} {m : Message P} : x.drops m = true ↔
    (∃ h found, x = ⟨.unschedule h, .ok found⟩ ∧ h.id = m.id) ∨
      ∃ id unit, x = ⟨.unregister id, .ok unit⟩ ∧ id = m.target := by
  constructor
  · intro h
    unfold drops at h
    split at h
    · exact Or.inl ⟨_, _, rfl, of_decide_eq_true h⟩
    · exact Or.inr ⟨_, _, rfl, of_decide_eq_true h⟩
    · cases h
  · rintro (⟨h, found, rfl, hid⟩ | ⟨id, unit, rfl, hid⟩)
    · exact decide_eq_true hid
    · exact decide_eq_true hid

end SetupStep

namespace Scheduler

variable [Payload P] [SimUnit U P] {s s' : Scheduler U P} {t : Stage U P} {ts rest : List (Stage U P)}
  {log : List (SetupStep U P)} {m m₁ m₂ : Message P}

/-- The handles that the steps of a log have handed out are those of the seeds that they have accepted. -/
lemma SetUpBy.handedOut (h : SetUpBy log s) : HandedOut ((log.filterMap (·.seed?)).map Message.handle) s := by
  induction h with
  | new h => exact .new h
  | @step log s _ c ih =>
    rw [List.filterMap_append, List.map_append]
    have hnone : ∀ {x : SetupStep U P} {s' : Scheduler U P}, x.seed? = none →
        HandedOut ((log.filterMap (·.seed?)).map Message.handle) s' →
        HandedOut ((log.filterMap (·.seed?)).map Message.handle ++ ([x].filterMap (·.seed?)).map Message.handle)
          s' := fun hseed h => by simpa [hseed] using h
    cases c with
    | register unit worker => exact hnone rfl (ih.register unit worker)
    | unregister id => exact hnone rfl (ih.unregister id)
    | unschedule handle => exact hnone rfl (ih.unschedule handle)
    | updateUnit id f => exact hnone rfl (ih.updateUnit id f)
    | schedule target time payload =>
      rcases s.perform_schedule_cases target time payload with ⟨reply, s', hreply, hp⟩ | ⟨c, hp⟩ <;> rw [hp]
      · have hhanded := ih.schedule hreply
        rcases schedule_reply hreply with ⟨⟨e, rfl⟩, _⟩ | ⟨m, hm, rfl, _⟩
        · exact hnone rfl (by simpa [Except.toOption] using hhanded)
        · simpa [Except.toOption, SetupStep.seed?, hm, Message.handle] using hhanded
      · exact hnone rfl ih

omit [Payload P] [SimUnit U P] in
/-- A unit whose number has been given and that is not there is not given that number again. -/
lemma Changes.not_mem_residents {x : SetupStep U P} (hs : s'.Sound) (h : s.Changes x s') {u : UnitId}
    (hgiven : u ∈ s.numbers) (hgone : ∀ w, (u, w) ∉ s.residents) :
    u ∈ s'.numbers ∧ ∀ w, (u, w) ∉ s'.residents := by
  rw [h.numbers, h.residents]
  refine ⟨List.mem_append_left _ hgiven, fun w hw => ?_⟩
  rcases List.mem_append.1 hw with hw | hw
  · exact hgone w (List.mem_of_mem_filter hw)
  · have hnodup := hs.nodup_numbers
    rw [h.numbers, List.nodup_append] at hnodup
    have hnew : u ∈ (x.resident?.map (·.1)).toList := by
      rw [Option.mem_toList] at hw ⊢
      exact Option.mem_map_of_mem (·.1) hw
    exact hnodup.2.2 u hgiven u hnew rfl

/-- A seed that a call drops is withdrawn, or its target is taken away. -/
lemma Sound.withdraws_or_gone (hs : s.Sound) (c : SetupCall U P) (hm : m ∈ s.seeds.toList)
    (hdrops : SetupStep.drops m ⟨c, (s.perform c).1⟩ = true) :
    SetupStep.withdraws m ⟨c, (s.perform c).1⟩ = true ∨
      m.target ∈ (s.perform c).2.numbers ∧ ∀ w, (m.target, w) ∉ (s.perform c).2.residents := by
  have hchanges := hs.changes_perform c
  rcases SetupStep.drops_eq_true_iff.1 hdrops with ⟨h, found, hx, hid⟩ | ⟨id, unit, hx, hid⟩
  · -- the reply tells that the message is there
    obtain ⟨rfl, _⟩ := SetupStep.mk.inj hx
    have hfound : s.seeds.any (·.id = h.id) = true := by
      rw [Array.any_eq_true']
      exact ⟨m, Array.mem_toList_iff.1 hm, decide_eq_true hid.symm⟩
    have hreply : (s.perform (.unschedule h)).1 = .ok true := by rw [perform, hs.unschedule_reply h, hfound]
    rw [hreply]
    exact Or.inl (decide_eq_true hid)
  · rw [hx] at hchanges
    obtain ⟨r, hr⟩ := Option.isSome_iff_exists.1 (hs.seed_target m hm)
    rw [hchanges.numbers, hchanges.residents]
    refine Or.inr ⟨List.mem_append_left _ (hs.mem_numbers hr), fun w hw => ?_⟩
    rcases List.mem_append.1 hw with hw | hw
    · have hstays := (List.mem_filter.1 hw).2
      rw [SetupStep.evicts, decide_eq_true hid] at hstays
      cases hstays
    · cases hw

/-- **What becomes of an accepted seed in the setup**: it is among the seeds of the run, or it was withdrawn, or its
target was taken away. -/
theorem SetUpBy.seed_cases (h : SetUpBy log s) (hm : m ∈ log.filterMap (·.seed?)) :
    m ∈ s.seeds.toList ∨ (∃ x ∈ log, x.withdraws m = true) ∨
      m.target ∈ s.numbers ∧ ∀ w, (m.target, w) ∉ s.residents := by
  induction h with
  | new h => cases hm
  | @step log s h c ih =>
    have hs := h.isSetUp.sound
    have hchanges := hs.changes_perform c
    have hs' : (s.perform c).2.Sound := (h.isSetUp.perform c).sound
    rw [List.filterMap_append] at hm
    rcases List.mem_append.1 hm with hm | hm
    · rcases ih hm with hseed | ⟨x, hx, hwithdraws⟩ | ⟨hgiven, hgone⟩
      · by_cases hdrops : SetupStep.drops m ⟨c, (s.perform c).1⟩ = true
        · rcases hs.withdraws_or_gone c hseed hdrops with hwithdraws | hgone
          · exact Or.inr (Or.inl ⟨_, List.mem_append_right _ (List.mem_singleton_self _), hwithdraws⟩)
          · exact Or.inr (Or.inr hgone)
        · rw [hchanges.seeds]
          exact Or.inl (List.mem_append_left _ (List.mem_filter.2 ⟨hseed, by simpa using hdrops⟩))
      · exact Or.inr (Or.inl ⟨x, List.mem_append_left _ hx, hwithdraws⟩)
      · exact Or.inr (Or.inr (hchanges.not_mem_residents hs' hgiven hgone))
    · rw [hchanges.seeds]
      refine Or.inl (List.mem_append_right _ ?_)
      simpa using hm

/-! ## The order of acceptance -/

/-- What units send when they start and in some rounds. -/
def requested (s : Scheduler U P) (ts : List (Stage U P)) : List (Message P) :=
  Envelope.messages (s.placed.flatMap (·.opening s.table s.config.startTime)) ++
    ts.flatMap fun t => (t.record s.config).accepted

/-- All messages that are accepted in a setup with the given log and in the run after it: those of the setup,
whatever becomes of them, in the order of the calls; then those that units send when they start and those of the
rounds. The messages of each origin come in the order in which they are accepted. -/
def acceptedInOrder (log : List (SetupStep U P)) (s : Scheduler U P) : List (Message P) :=
  log.filterMap (·.seed?) ++ s.requested s.stages

lemma posted_eq_append_requested (s : Scheduler U P) (ts : List (Stage U P)) :
    s.posted ts = s.seeds.toList ++ s.requested ts := by
  rw [posted, opening, Envelope.messages_append, Envelope.messages_map_deliver, requested, List.append_assoc]

/-- What units send has its origin at a registered unit. -/
lemma Sound.isSome_registered?_of_requested (hs : s.Sound) (hm : m ∈ s.requested s.stages) :
    (s.registered? m.id.origin).isSome := by
  have hids : (s.requested s.stages).map (·.id) = s.accepted.map (·.id) := by
    have hposted := hs.map_id_posted
    rw [posted_eq_append_requested, List.map_append] at hposted
    exact List.append_cancel_left hposted
  obtain ⟨x, hx, hid⟩ := List.mem_map.1 (hids ▸ List.mem_map_of_mem hm)
  obtain ⟨c, hc, hx⟩ := List.mem_flatMap.1 hx
  obtain ⟨hregistered, horigin⟩ := hs.of_mem_calls hc
  rw [← hid, horigin x hx]
  exact hregistered

omit [Payload P] [SimUnit U P] in
/-- In a list that is numbered through, later messages have greater numbers. -/
lemma seq_lt_of_map_id {ms : List (Message P)} {o : UnitId} {n : ℕ}
    (h : ms.map (·.id) = (List.range n).map (MessageId.mk o)) (hsub : [m₁, m₂].Sublist ms) :
    m₁.id.seq < m₂.id.seq := by
  have hseqs : ms.map (·.id.seq) = List.range n := by
    have hmap := congrArg (List.map MessageId.seq) h
    rw [List.map_map, List.map_map] at hmap
    exact hmap.trans (List.map_id _)
  have hpairwise := List.pairwise_lt_range (n := n)
  rw [← hseqs] at hpairwise
  simpa using hpairwise.sublist (hsub.map (·.id.seq))

namespace SetUpBy

/-- The accepted seeds are numbered through. -/
lemma map_id_seeds (h : SetUpBy log s) : (log.filterMap (·.seed?)).map (·.id) =
    (List.range s.nextSetupSeq).map (MessageId.mk UnitId.setup) := by
  have hids := h.handedOut.map_id
  rwa [List.map_map] at hids

/-- The setup is the origin of all accepted seeds. -/
lemma origin_eq_setup (h : SetUpBy log s) (hm : m ∈ log.filterMap (·.seed?)) : m.id.origin = UnitId.setup := by
  have hid := List.mem_map_of_mem (f := fun m : Message P => m.id) hm
  rw [h.map_id_seeds] at hid
  obtain ⟨n, _, hn⟩ := List.mem_map.1 hid
  rw [← hn]

/-- Two messages of one origin are both seeds, or both sent by one unit. -/
lemma sublist_cases (h : SetUpBy log s) (horder : [m₁, m₂].Sublist (acceptedInOrder log s))
    (horigin : m₁.id.origin = m₂.id.origin) :
    [m₁, m₂].Sublist (log.filterMap (·.seed?)) ∨ [m₁, m₂].Sublist (s.requested s.stages) := by
  obtain ⟨xs, ys, hsplit, hxs, hys⟩ := List.sublist_append_iff.1 horder
  cases xs with
  | nil => exact Or.inr (by rwa [hsplit])
  | cons x xs =>
    cases xs with
    | nil =>
      obtain ⟨rfl, rfl⟩ := List.cons.inj hsplit
      have hregistered := h.isSetUp.sound.isSome_registered?_of_requested
        (hys.subset (List.mem_singleton_self m₂))
      rw [← horigin, h.origin_eq_setup (hxs.subset (List.mem_singleton_self m₁))] at hregistered
      exact absurd rfl (h.isSetUp.sound.ne_setup hregistered)
    | cons y xs =>
      obtain ⟨rfl, hrest⟩ := List.cons.inj hsplit
      obtain ⟨rfl, hnil⟩ := List.cons.inj hrest
      obtain ⟨rfl, _⟩ := List.append_eq_nil_iff.1 hnil.symm
      exact Or.inl hxs

/-- **Running numbers follow the order of acceptance.** -/
theorem seq_lt_of_sublist (h : SetUpBy log s) (horder : [m₁, m₂].Sublist (acceptedInOrder log s))
    (horigin : m₁.id.origin = m₂.id.origin) : m₁.id.seq < m₂.id.seq := by
  rcases h.sublist_cases horder horigin with hseeds | hrequested
  · exact seq_lt_of_map_id h.map_id_seeds hseeds
  · have hregistered := h.isSetUp.sound.isSome_registered?_of_requested
      (hrequested.subset (List.mem_cons_of_mem _ (List.mem_singleton_self m₂)))
    obtain ⟨n, hn⟩ := h.isSetUp.sound.exists_filter_posted hregistered
    refine seq_lt_of_map_id hn ?_
    have hposted : [m₁, m₂].Sublist (s.posted s.stages) := by
      rw [posted_eq_append_requested]
      exact hrequested.trans (List.sublist_append_right _ _)
    have hfilter := hposted.filter (·.id.origin = m₂.id.origin)
    rwa [List.filter_eq_self.2 (by simp [horigin])] at hfilter

/-- **Messages from one sender to one target stay in order.** Let two messages of one origin, the setup or a unit, be
accepted one after the other, in whatever rounds, for one target and for times in this order or the same time. When
the later one is handed over, the other one has been handed over before, or has been withdrawn: by a cancellation
in the run, or in the setup.

**Proof sketch.** The running numbers follow the order of acceptance, so the key of the first message is the
earlier one. It has been accepted before the round in which the second one is handed over, for that one has been, and
then `Sound.withdrawn_or_before` applies. A seed can be missing in the run only if it has been withdrawn or its target
has been taken away, and then nothing is handed over to that target. -/
theorem withdrawn_or_delivered_before (h : SetUpBy log s)
    (horder : [m₁, m₂].Sublist (acceptedInOrder log s)) (horigin : m₁.id.origin = m₂.id.origin)
    (htarget : m₁.target = m₂.target) (htime : m₁.time ≤ m₂.time) (hstages : s.stages = ts ++ t :: rest)
    (hdelivered : m₂ ∈ t.delivered s.config) :
    [m₁, m₂].Sublist (s.delivered (ts ++ [t])) ∨ m₁ ∈ withdrawn (ts ++ [t]) ∨
      ∃ x ∈ log, x.withdraws m₁ = true := by
  have hs := h.isSetUp.sound
  have hkey := Message.key_lt_of_seq_lt horigin (h.seq_lt_of_sublist horder horigin) htime
  have hrun : m₁ ∈ s.posted ts → [m₁, m₂].Sublist (s.delivered (ts ++ [t])) ∨ m₁ ∈ withdrawn (ts ++ [t]) :=
    fun h₁ => hs.withdrawn_or_before hstages h₁ hdelivered htarget htime hkey
  rcases h.sublist_cases horder horigin with hseeds | hrequested
  · rcases h.seed_cases (hseeds.subset List.mem_cons_self) with hseed | hwithdrawn | ⟨_, hgone⟩
    · rw [← or_assoc]
      refine Or.inl (hrun ?_)
      rw [posted_eq_append_requested]
      exact List.mem_append_left _ hseed
    · exact Or.inr (Or.inr hwithdrawn)
    · obtain ⟨r, hr⟩ := Option.isSome_iff_exists.1 (hs.isSome_registered?_of_delivered hstages hdelivered)
      rw [← htarget] at hr
      exact absurd (hs.mem_residents.2 (by rw [workerOf?, hr, Option.map_some])) (hgone r.worker)
  · rw [← or_assoc]
    refine Or.inl (hrun (hs.mem_posted_of_sublist hstages ?_ hdelivered))
    rw [posted_eq_append_requested]
    exact hrequested.trans (List.sublist_append_right _ _)

end SetUpBy

end Scheduler

/-! ### Letters for the same instant -/

/-- A unit that sends a message to the other one when it starts, and another one for the same instant a second
later. -/
def clerk : RuleTable where
  lookahead := ⟨Binary64.ofNat 1⟩
  opening :=
    [.send (.fromNow (Binary64.ofNat 3)) (.hop 1 2) (.exactly ⟨5⟩) none false,
      .send (.fromNow (Binary64.ofNat 1)) .self (.exactly ⟨2⟩) none false]
  rules :=
    [⟨some 2, some 2, none, [.send (.fromNow (Binary64.ofNat 2)) (.hop 1 2) (.exactly ⟨6⟩) none false]⟩]

namespace Scheduler

/-- Two clerks at two workers, and two seeds for the second one, of which the first is withdrawn. -/
def postOffice : List (SetupStep RuleTable Mark) × Scheduler RuleTable Mark :=
  ({ config := { workers := 2 } } : Scheduler RuleTable Mark).performAll
    [.register clerk (Id.ofNat 0), .register clerk (Id.ofNat 1),
      .schedule (Id.ofNat 1) ⟨Binary64.ofNat 3⟩ ⟨4⟩, .schedule (Id.ofNat 1) ⟨Binary64.ofNat 3⟩ ⟨4⟩,
      .unschedule ⟨⟨UnitId.setup, 0⟩, Id.ofNat 1, ⟨Binary64.ofNat 3⟩⟩]

lemma setUpBy_postOffice : SetUpBy postOffice.1 postOffice.2 := setUpBy_performAll rfl _

/-- A message for the second clerk. -/
def parcel (origin : UnitId) (seq : ℕ) (payload : Mark) : Message Mark :=
  ⟨⟨origin, seq⟩, Id.ofNat 1, ⟨Binary64.ofNat 3⟩, payload⟩

/-- Two messages of the first clerk, which are sent in different rounds, are handed over in their order. Of the two
seeds the first one has been withdrawn when the second one is handed over. -/
theorem withdrawn_or_delivered_before_postOffice :
    [parcel (Id.ofNat 0) 0 ⟨5⟩, parcel (Id.ofNat 0) 2 ⟨6⟩].Sublist (postOffice.2.delivered postOffice.2.stages) ∧
      parcel (Id.ofNat 0) 2 ⟨6⟩ ∉ Envelope.messages postOffice.2.opening ∧
      parcel UnitId.setup 1 ⟨4⟩ ∈ postOffice.2.delivered postOffice.2.stages ∧
      ∃ x ∈ postOffice.1, x.withdraws (parcel UnitId.setup 0 ⟨4⟩) = true := by
  have hround : ∀ m ∈ postOffice.2.delivered postOffice.2.stages, ∃ ts t rest,
      postOffice.2.stages = ts ++ t :: rest ∧ m ∈ t.delivered postOffice.2.config ∧
        (postOffice.2.delivered (ts ++ [t])).Sublist (postOffice.2.delivered postOffice.2.stages) ∧
        withdrawn (ts ++ [t]) ⊆ withdrawn postOffice.2.stages := fun m hm => by
    obtain ⟨t, ht, hm⟩ := List.mem_flatMap.1 hm
    obtain ⟨ts, rest, h⟩ := List.append_of_mem ht
    have hsplit : postOffice.2.stages = (ts ++ [t]) ++ rest := by rw [h, List.append_assoc, List.singleton_append]
    refine ⟨ts, t, rest, h, hm, ?_, ?_⟩
    · rw [hsplit, delivered_append _ (ts ++ [t])]
      exact List.sublist_append_left _ _
    · rw [hsplit, withdrawn_append (ts ++ [t])]
      exact List.subset_append_left _ _
  have hnone : withdrawn postOffice.2.stages = [] := by decide +kernel
  have hseed : parcel UnitId.setup 1 ⟨4⟩ ∈ postOffice.2.delivered postOffice.2.stages := by decide +kernel
  have hsecond : parcel (Id.ofNat 0) 2 ⟨6⟩ ∈ postOffice.2.delivered postOffice.2.stages := by decide +kernel
  refine ⟨?_, by decide +kernel, hseed, ?_⟩
  · have horder : [parcel (Id.ofNat 0) 0 ⟨5⟩, parcel (Id.ofNat 0) 2 ⟨6⟩].Sublist
        (acceptedInOrder postOffice.1 postOffice.2) := by decide +kernel
    have hstands : ∀ x ∈ postOffice.1, x.withdraws (parcel (Id.ofNat 0) 0 ⟨5⟩) = false := by decide +kernel
    obtain ⟨ts, t, rest, h, hm, hdelivered, hwithdrawn⟩ := hround _ hsecond
    rcases setUpBy_postOffice.withdrawn_or_delivered_before horder rfl rfl (le_refl _) h hm with
      hpair | hgone | ⟨x, hx, hw⟩
    · exact hpair.trans hdelivered
    · exact absurd (hwithdrawn hgone) (by simp [hnone])
    · cases (hstands x hx).symm.trans hw
  · have horder : [parcel UnitId.setup 0 ⟨4⟩, parcel UnitId.setup 1 ⟨4⟩].Sublist
        (acceptedInOrder postOffice.1 postOffice.2) := by decide +kernel
    have hmissing : parcel UnitId.setup 0 ⟨4⟩ ∉ postOffice.2.delivered postOffice.2.stages := by decide +kernel
    obtain ⟨ts, t, rest, h, hm, hdelivered, hwithdrawn⟩ := hround _ hseed
    rcases setUpBy_postOffice.withdrawn_or_delivered_before horder rfl rfl (le_refl _) h hm with hpair | hgone | hw
    · exact absurd (hdelivered.subset (hpair.subset List.mem_cons_self)) hmissing
    · exact absurd (hwithdrawn hgone) (by simp [hnone])
    · exact hw

end Scheduler

end EventSim
