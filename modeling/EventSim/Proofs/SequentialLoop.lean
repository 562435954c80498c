import EventSim.Proofs.QueueContents
import EventSim.Proofs.UnitHistory
import Mathlib.Data.List.Nodup
import Mathlib.Logic.Relation

set_option autoImplicit false

/-!
# The sequential event loop

The textbook simulation knows neither workers nor rounds: it takes the first message out of one queue,
hands it to its unit at once, and puts what the unit sends into the queue. While a unit handles a message,
its horizon is the time of that message.

A *chronicle* tells what was handled in a simulation of some other kind. If every message in it was sent
before it was handled, if nothing is sent into the past, and if each unit handled its messages in order of
time, then the sequential loop handles the same messages, and each unit handles them in the same order. The
chronicle need not be in order of time as a whole.

## Main definitions

* `EventSim.Loop`, `EventSim.Loop.step?` — the sequential simulation.
* `EventSim.Slot.Replays` — a unit, handling messages alone, does what was recorded.
* `EventSim.Chronicle` — a record of what was handled in a simulation.
* `EventSim.Loop.Follows` — the loop has handled a part of a chronicle.

## Main results

* `EventSim.Loop.Follows.exists_le` — while something remains, something is due before it.
* `EventSim.Loop.Follows.step` — the loop goes on with the next message of some unit.
* `EventSim.Chronicle.reaches` — the loop handles what the chronicle says.
-/

namespace EventSim

variable {U P : Type}

/-! ## The loop -/

/-- The state of a sequential simulation. -/
structure Loop (U P : Type) where
  /-- The units. -/
  slot? : UnitId → Option (Slot U)
  /-- The messages that are to come. -/
  queue : MessageQueue P
  /-- What has been handled, in order. -/
  handled : List (Handled P)

/-- The setting of a message that is handled alone. -/
def Setting.alone (table : RoutingTable) (m : Message P) : Setting := ⟨Id.invalid, table, 0, m.time⟩

variable [Payload P] [SimUnit U P]

/-- One step of the simulation: the first message is handled, and what its unit sends is put into the queue.
There is no step if the queue is empty, or if the message cannot be handled. -/
def Loop.step? (table : RoutingTable) (l : Loop U P) : Option (Loop U P) :=
  match l.queue with
  | ⟨[], _⟩ => none
  | ⟨m :: ms, sorted⟩ =>
    (l.slot? m.target).bind fun x =>
      let (x, h) := x.handle (.alone table m) m
      if h.failure.isSome then none
      else
        some
          { slot? := fun u => if u = m.target then some x else l.slot? u
            queue := ((⟨ms, sorted.rest⟩ : MessageQueue P).merge h.sent).2
            handled := l.handled ++ [h] }

/-- What the simulation comes to when a unit has handled a message and the queue holds the others. -/
def Loop.advance (l : Loop U P) (x : Slot U) (h : Handled P) (others : MessageQueue P) : Loop U P where
  slot? u := if u = h.message.target then some x else l.slot? u
  queue := (others.merge h.sent).2
  handled := l.handled ++ [h]

/-- A step that is taken. -/
lemma Loop.step?_eq_some {table : RoutingTable} {l : Loop U P} {x : Slot U} {h : Handled P}
    {ms : List (Message P)} {sorted : KeySorted (h.message :: ms)}
    (hq : l.queue = ⟨h.message :: ms, sorted⟩) (hx : l.slot? h.message.target = some x)
    (hhandle : (x.handle (.alone table h.message) h.message).2 = h) (hok : h.failure = none) :
    l.step? table = some
      (l.advance (x.handle (.alone table h.message) h.message).1 h ⟨ms, sorted.rest⟩) := by
  unfold step?
  rw [hq]
  dsimp only
  rw [hx, Option.bind_some, hhandle, hok]
  rfl

/-- The simulation comes from one state to another. -/
def Loop.Reaches (table : RoutingTable) : Loop U P → Loop U P → Prop :=
  Relation.ReflTransGen fun l l' => l.step? table = some l'

/-! ## Chronicles -/

/-- The unit handles these messages alone as it was recorded, and then is in the other state. -/
def Slot.Replays (table : RoutingTable) : Slot U → List (Handled P) → Slot U → Prop
  | x, [], y => x = y
  | x, h :: hs, y => (x.handle (.alone table h.message) h.message).2 = h ∧ h.failure = none ∧
      (x.handle (.alone table h.message) h.message).1.Replays table hs y

/-- The messages that were sent when some messages were handled. -/
def Handled.posted (hs : List (Handled P)) : List (Message P) :=
  Envelope.messages (hs.flatMap (·.sent))

/-- What is recorded of a simulation that has begun with some units and some messages, and in which some
messages were handled. -/
structure Chronicle (table : RoutingTable) (start final : UnitId → Option (Slot U))
    (opening : List (Message P)) (hs : List (Handled P)) : Prop where
  /-- Just the messages that there are were handled. -/
  perm : (hs.map (·.message)).Perm (opening ++ Handled.posted hs)
  /-- All messages have identities of their own. -/
  nodup : ((opening ++ Handled.posted hs).map (·.id)).Nodup
  /-- A message was there from the beginning or was sent before. -/
  grounded : ∀ as h bs, hs = as ++ h :: bs → h.message ∈ opening ∨ h.message ∈ Handled.posted as
  /-- Nothing was sent into the past. -/
  later : ∀ h ∈ hs, ∀ m, .deliver m ∈ h.sent → h.message.time ≤ m.time
  /-- Nothing was cancelled. -/
  plain : ∀ h ∈ hs, Envelope.handles h.sent = []
  /-- Every unit handled its messages in order of time. -/
  increasing : ∀ u, (hs.filter (·.message.target = u)).Pairwise (·.message.time < ·.message.time)
  /-- Only units that are there handle messages. -/
  present : ∀ h ∈ hs, (start h.message.target).isSome
  /-- No unit comes into being. -/
  absent : ∀ u, start u = none → final u = none
  /-- Every unit would have done alone what it did. -/
  replays : ∀ u x, start u = some x →
    ∃ y, final u = some y ∧ x.Replays table (hs.filter (·.message.target = u)) y

/-! ### Internal helpers: what some messages have sent -/

omit [Payload P] [SimUnit U P] in
@[simp] lemma Handled.posted_append (as bs : List (Handled P)) :
    posted (as ++ bs) = posted as ++ posted bs := by
  simp [posted]

omit [Payload P] [SimUnit U P] in
@[simp] lemma Handled.posted_singleton (h : Handled P) : posted [h] = Envelope.messages h.sent := by
  simp [posted]

omit [Payload P] [SimUnit U P] in
lemma Handled.mem_posted {hs : List (Handled P)} {m : Message P} :
    m ∈ posted hs ↔ ∃ h ∈ hs, .deliver m ∈ h.sent := by
  simp [posted]

omit [Payload P] [SimUnit U P] in
lemma Handled.perm_posted {as bs : List (Handled P)} (h : as.Perm bs) :
    (posted as).Perm (posted bs) := by
  simp only [posted, Envelope.messages_flatMap]
  exact h.flatMap_right _

omit [Payload P] [SimUnit U P] in
/-- The first of a unit's records comes before its others, wherever those of other units are. -/
lemma Handled.filter_middle {as bs : List (Handled P)} {h : Handled P}
    (has : as.filter (·.message.target = h.message.target) = []) (u : UnitId) :
    (as ++ h :: bs).filter (·.message.target = u) =
      [h].filter (·.message.target = u) ++ (as ++ bs).filter (·.message.target = u) := by
  rw [List.filter_append, List.filter_append, ← List.singleton_append, List.filter_append]
  by_cases hu : u = h.message.target
  · subst hu
    rw [has, List.nil_append, List.nil_append]
  · rw [List.filter_cons_of_neg (by simpa using Ne.symm hu), List.filter_nil, List.nil_append,
      List.nil_append]

/-! ## Following a chronicle -/

namespace Loop

variable {table : RoutingTable} {start final : UnitId → Option (Slot U)} {opening : List (Message P)}
  {hs rest : List (Handled P)} {l : Loop U P}

/-- The loop has handled a part of the chronicle, and the rest remains. -/
structure Follows (table : RoutingTable) (final : UnitId → Option (Slot U)) (opening : List (Message P))
    (hs : List (Handled P)) (l : Loop U P) (rest : List (Handled P)) : Prop where
  /-- What has been handled and what remains make up the chronicle. -/
  perm : hs.Perm (l.handled ++ rest)
  /-- This is so for each unit in order. -/
  order : ∀ u, hs.filter (·.message.target = u) =
    l.handled.filter (·.message.target = u) ++ rest.filter (·.message.target = u)
  /-- What has been sent is in the queue or has been handled. -/
  queued : (l.queue.entries ++ l.handled.map (·.message)).Perm (opening ++ Handled.posted l.handled)
  /-- The units for which messages remain are there. -/
  present : ∀ h ∈ rest, (l.slot? h.message.target).isSome
  /-- Units that are not there will not be. -/
  absent : ∀ u, l.slot? u = none → final u = none
  /-- Every unit would do with the rest what it did. -/
  replays : ∀ u x, l.slot? u = some x →
    ∃ y, final u = some y ∧ x.Replays table (rest.filter (·.message.target = u)) y

namespace Follows

variable (hc : Chronicle table start final opening hs) (hf : l.Follows table final opening hs rest)

include hc

/-- Messages that belong to a part of the chronicle have identities of their own. -/
lemma nodup_posted {as bs : List (Handled P)} (hp : hs.Perm (as ++ bs)) :
    ((opening ++ Handled.posted as).map (·.id)).Nodup := by
  have hposted := (Handled.perm_posted hp).append_left opening
  rw [Handled.posted_append, ← List.append_assoc] at hposted
  have hnodup := ((hposted.map (·.id)).nodup_iff).1 hc.nodup
  rw [List.map_append] at hnodup
  exact (List.nodup_append.1 hnodup).1

include hf

/-- What remains has not been handled. -/
lemma not_mem_handled {h : Handled P} (hh : h ∈ rest) : h.message ∉ l.handled.map (·.message) := by
  have hnodup := (((hf.perm.map (·.message)).symm.trans hc.perm).nodup_iff).2 (hc.nodup.of_map _)
  rw [List.map_append] at hnodup
  exact fun hmem => (List.nodup_append.1 hnodup).2.2 _ hmem _ (List.mem_map_of_mem hh) rfl

/-- What remains and is there or has been sent is in the queue. -/
lemma mem_queue {h : Handled P} (hh : h ∈ rest)
    (hm : h.message ∈ opening ∨ h.message ∈ Handled.posted l.handled) :
    h.message ∈ l.queue.entries := by
  have hmem := hf.queued.mem_iff.2 (List.mem_append.2 hm)
  exact (List.mem_append.1 hmem).resolve_right (hf.not_mem_handled hc hh)

/-- **While something remains, something in the queue is due no later.** Either the message itself is in
the queue, or the message in response to which it is sent remains, which is earlier in the chronicle. -/
theorem exists_le {as bs : List (Handled P)} {h : Handled P} (heq : hs = as ++ h :: bs) (hh : h ∈ rest) :
    ∃ m ∈ l.queue.entries, m.time ≤ h.message.time := by
  induction hn : as.length using Nat.strong_induction_on generalizing as h bs with
  | _ n ih =>
    subst hn
    rcases hc.grounded as h bs heq with hopen | hposted
    · exact ⟨_, hf.mem_queue hc hh (Or.inl hopen), SimTime.le_refl _⟩
    · obtain ⟨g, hg, hsent⟩ := Handled.mem_posted.1 hposted
      have hmem : g ∈ hs := heq ▸ List.mem_append_left _ hg
      rcases List.mem_append.1 (hf.perm.mem_iff.1 hmem) with hdone | hrest
      · exact ⟨_, hf.mem_queue hc hh (Or.inr (Handled.mem_posted.2 ⟨g, hdone, hsent⟩)),
          SimTime.le_refl _⟩
      · obtain ⟨as₁, as₂, rfl⟩ := List.append_of_mem hg
        rw [List.append_assoc] at heq
        obtain ⟨m, hm, hle⟩ := ih as₁.length (by simp) heq hrest rfl
        exact ⟨m, hm, SimTime.le_trans hle (hc.later g hmem _ hsent)⟩

/-- **The first message in the queue is the next one of its unit.** -/
theorem exists_next {m : Message P} {ms : List (Message P)} (hq : l.queue.entries = m :: ms) :
    ∃ as h bs, rest = as ++ h :: bs ∧ h.message = m ∧
      as.filter (·.message.target = m.target) = [] := by
  have hnodup : (l.queue.entries ++ l.handled.map (·.message)).Nodup :=
    hf.queued.nodup_iff.2 ((nodup_posted hc hf.perm).of_map _)
  have hmem : m ∈ l.queue.entries := hq ▸ List.mem_cons_self
  -- the message belongs to the chronicle and has not been handled
  have hposted : m ∈ opening ++ Handled.posted hs := by
    have hm := hf.queued.mem_iff.1 (List.mem_append_left _ hmem)
    rcases List.mem_append.1 hm with hm | hm
    · exact List.mem_append_left _ hm
    · refine List.mem_append_right _ ((Handled.perm_posted hf.perm).mem_iff.2 ?_)
      rw [Handled.posted_append]
      exact List.mem_append_left _ hm
  obtain ⟨h, hh, rfl⟩ := List.mem_map.1 (hc.perm.mem_iff.2 hposted)
  have hrest : h ∈ rest := by
    apply (List.mem_append.1 (hf.perm.mem_iff.1 hh)).resolve_left
    intro hdone
    exact (List.nodup_append.1 hnodup).2.2 _ hmem _ (List.mem_map_of_mem hdone) rfl
  obtain ⟨as, bs, rfl⟩ := List.append_of_mem hrest
  refine ⟨as, h, bs, rfl, rfl, List.filter_eq_nil_iff.2 fun g hg htarget => ?_⟩
  -- an earlier message of the same unit would have to wait for something before `m`
  have hlt : g.message.time < h.message.time := by
    have hsorted := hc.increasing h.message.target
    rw [hf.order, List.filter_append, List.filter_cons_of_pos (by simp)] at hsorted
    have hpair := (List.pairwise_append.1 (List.pairwise_append.1 hsorted).2.1).2.2
    exact hpair g (List.mem_filter.2 ⟨hg, htarget⟩) h List.mem_cons_self
  have hgrest : g ∈ as ++ h :: bs := List.mem_append_left _ hg
  obtain ⟨cs, ds, hcs⟩ := List.append_of_mem (hf.perm.mem_iff.2 (List.mem_append_right _ hgrest))
  obtain ⟨m', hm', hle⟩ := hf.exists_le hc hcs hgrest
  have hfirst : h.message.time ≤ m'.time := by
    have hsorted := l.queue.sorted
    rw [hq] at hm' hsorted
    rcases List.mem_cons.1 hm' with rfl | hm'
    · exact SimTime.le_refl _
    · rcases (List.pairwise_cons.1 hsorted).1 m' hm' with hlt' | ⟨heq', _⟩
      · exact le_of_lt hlt'
      · exact le_of_eq heq'
  exact absurd (lt_of_lt_of_le hlt hfirst) (not_lt.2 hle)

/-- If the queue is empty, nothing remains. -/
lemma rest_eq_nil (hq : l.queue.entries = []) : rest = [] := by
  apply List.eq_nil_iff_forall_not_mem.2
  intro h hh
  obtain ⟨as, bs, heq⟩ := List.append_of_mem (hf.perm.mem_iff.2 (List.mem_append_right _ hh))
  obtain ⟨m, hm, _⟩ := hf.exists_le hc heq hh
  rw [hq] at hm
  cases hm

/-- After a message has been handled, the queue holds the others and what was sent in response. -/
lemma perm_merge {as bs : List (Handled P)} {h : Handled P} {ms : List (Message P)}
    {sorted : KeySorted (h.message :: ms)} (hrest : rest = as ++ h :: bs)
    (hq : l.queue = ⟨h.message :: ms, sorted⟩) :
    (((⟨ms, sorted.rest⟩ : MessageQueue P).merge h.sent).2.entries ++
      (l.handled ++ [h]).map (·.message)).Perm (opening ++ Handled.posted (l.handled ++ [h])) := by
  have hmem : h ∈ hs := hf.perm.mem_iff.2 (List.mem_append_right _ (hrest ▸ by simp))
  have hperm : hs.Perm ((l.handled ++ [h]) ++ (as ++ bs)) := by
    rw [List.append_assoc, List.singleton_append]
    exact (hrest ▸ hf.perm).trans (List.perm_middle.append_left _)
  have hqueued := hf.queued
  rw [hq] at hqueued
  -- what is in the queue, what has been sent now and what has been handled, taken together
  have htogether : ((ms ++ Envelope.messages h.sent) ++ (l.handled ++ [h]).map (·.message)).Perm
      (opening ++ Handled.posted (l.handled ++ [h])) := by
    rw [Handled.posted_append, Handled.posted_singleton, ← List.append_assoc, List.map_append,
      List.map_singleton]
    refine List.Perm.trans ?_ (hqueued.append_right (Envelope.messages h.sent))
    classical
    apply List.perm_iff_count.2
    intro m
    simp only [List.count_append, List.count_cons, List.count_nil, List.cons_append]
    omega
  have hkeys : ((ms ++ Envelope.messages h.sent).map Message.key).Nodup := by
    have hids := ((htogether.map (·.id)).nodup_iff).2 (nodup_posted hc hperm)
    rw [List.map_append] at hids
    exact Message.nodup_keys (List.nodup_append.1 hids).1
  refine List.Perm.trans (List.Perm.append_right _ ?_) htogether
  rw [MessageQueue.merge_entries, hc.plain h hmem]
  simpa using MessageQueue.perm_putAll (q := ⟨ms, sorted.rest⟩) hkeys

/-- The chronicle is still followed when the next message of a unit has been handled. -/
lemma advance {as bs : List (Handled P)} {h : Handled P} {ms : List (Message P)}
    {sorted : KeySorted (h.message :: ms)} {y z : Slot U} (hrest : rest = as ++ h :: bs)
    (has : as.filter (·.message.target = h.message.target) = [])
    (hq : l.queue = ⟨h.message :: ms, sorted⟩) (hz : final h.message.target = some z)
    (hreplays : y.Replays table ((as ++ bs).filter (·.message.target = h.message.target)) z) :
    (l.advance y h ⟨ms, sorted.rest⟩).Follows table final opening hs (as ++ bs) where
  perm := by
    rw [Loop.advance, List.append_assoc, List.singleton_append]
    exact (hrest ▸ hf.perm).trans (List.perm_middle.append_left _)
  order u := by
    rw [hf.order, hrest, Handled.filter_middle has, ← List.append_assoc, ← List.filter_append]
    rfl
  queued := hf.perm_merge hc hrest hq
  present g hg := by
    have hg' : g ∈ rest := by
      rw [hrest]
      rcases List.mem_append.1 hg with hg | hg
      · exact List.mem_append_left _ hg
      · exact List.mem_append_right _ (List.mem_cons_of_mem _ hg)
    dsimp only [Loop.advance]
    split
    · rfl
    · exact hf.present g hg'
  absent u hu := by
    dsimp only [Loop.advance] at hu
    split at hu
    · cases hu
    · exact hf.absent u hu
  replays u x hx := by
    dsimp only [Loop.advance] at hx
    split at hx
    · rename_i hu
      subst hu
      cases hx
      exact ⟨z, hz, hreplays⟩
    · rename_i hu
      obtain ⟨w, hw, hxw⟩ := hf.replays u x hx
      rw [hrest, Handled.filter_middle has, List.filter_cons_of_neg (by simpa using Ne.symm hu),
        List.filter_nil, List.nil_append] at hxw
      exact ⟨w, hw, hxw⟩

/-- **The loop goes on with the next message of some unit**, as long as there are any. -/
theorem step (hq : l.queue.entries ≠ []) : ∃ l' rest', l.step? table = some l' ∧
    l'.Follows table final opening hs rest' ∧ rest'.length < rest.length := by
  obtain ⟨m, ms, sorted, hm⟩ : ∃ m ms sorted, l.queue = ⟨m :: ms, sorted⟩ := by
    rcases hqueue : l.queue with ⟨_ | ⟨m, ms⟩, sorted⟩
    · rw [hqueue] at hq
      exact absurd rfl hq
    · exact ⟨m, ms, sorted, rfl⟩
  obtain ⟨as, h, bs, hrest, rfl, has⟩ := hf.exists_next hc (congrArg MessageQueue.entries hm)
  obtain ⟨x, hx⟩ := Option.isSome_iff_exists.1 (hf.present h (hrest ▸ by simp))
  obtain ⟨z, hz, hreplays⟩ := hf.replays _ x hx
  rw [hrest, Handled.filter_middle has, List.filter_cons_of_pos (by simp), List.filter_nil,
    List.singleton_append] at hreplays
  obtain ⟨hhandle, hok, hthen⟩ := hreplays
  refine ⟨_, as ++ bs, step?_eq_some hm hx hhandle hok, hf.advance hc hrest has hm hz hthen, ?_⟩
  rw [hrest, List.length_append, List.length_append, List.length_cons]
  omega

/-- The loop goes on until nothing remains. -/
lemma exists_reaches : ∃ l', l.Reaches table l' ∧ l'.queue.entries = [] ∧
    l'.Follows table final opening hs [] := by
  induction hn : rest.length using Nat.strong_induction_on generalizing l rest with
  | _ n ih =>
    by_cases hq : l.queue.entries = []
    · have hnil := hf.rest_eq_nil hc hq
      exact ⟨l, .refl, hq, hnil ▸ hf⟩
    · obtain ⟨l₁, rest₁, hstep, hf₁, hlt⟩ := hf.step hc hq
      obtain ⟨l', hreaches, hend, hf'⟩ := ih _ (hn ▸ hlt) hf₁ rfl
      exact ⟨l', .head hstep hreaches, hend, hf'⟩

end Follows

end Loop

/-- **The loop handles what the chronicle says.** It begins with the units and the messages that the
chronicle begins with, and comes to an end; then every unit has handled the same messages in the same order
and is in the same state.

**Proof sketch.** The loop has always handled, for each unit, the first of its messages in the chronicle.
While something remains, the queue holds something that is due no later (`Loop.Follows.exists_le`), so
the first message in the queue cannot be preceded by another one of its unit (`Loop.Follows.exists_next`). -/
theorem Chronicle.reaches {table : RoutingTable} {start final : UnitId → Option (Slot U)}
    {opening : List (Message P)} {hs : List (Handled P)}
    (hc : Chronicle table start final opening hs) :
    ∃ l, Loop.Reaches table ⟨start, MessageQueue.empty.putAll opening, []⟩ l ∧ l.queue.entries = [] ∧
      (∀ u, l.handled.filter (·.message.target = u) = hs.filter (·.message.target = u)) ∧
      ∀ u, l.slot? u = final u := by
  have hkeys : ((MessageQueue.empty.entries ++ opening).map Message.key).Nodup := by
    have hids := hc.nodup
    rw [List.map_append] at hids
    exact Message.nodup_keys (List.nodup_append.1 hids).1
  have hf : Loop.Follows table final opening hs ⟨start, MessageQueue.empty.putAll opening, []⟩ hs :=
    { perm := List.Perm.refl _
      order := fun u => rfl
      queued := by simpa [Handled.posted, MessageQueue.empty] using MessageQueue.perm_putAll hkeys
      present := hc.present
      absent := hc.absent
      replays := hc.replays }
  obtain ⟨l, hreaches, hend, hl⟩ := hf.exists_reaches hc
  refine ⟨l, hreaches, hend, fun u => ?_, fun u => ?_⟩
  · rw [hl.order, List.filter_nil, List.append_nil]
  · cases hu : l.slot? u with
    | none => exact (hl.absent u hu).symm
    | some x =>
      obtain ⟨y, hy, hxy⟩ := hl.replays u x hu
      rw [hy, show x = y from hxy]

end EventSim
