import EventSim.Proofs.QueueContents
import Mathlib.Data.Set.Card
import Mathlib.Logic.Function.Basic

set_option autoImplicit false

/-!
# Queues as finite maps

A queue is meant to be a finite map from keys to messages that is read in order of keys. Here this is
said without lists: a *message map* is a function that looks messages up by their keys, and a step of it
is described by what may be looked up before and afterwards. Whatever is asked of an empty queue, one
request after another, it answers as the map does, and the map leaves no choice of answers. Keys are
compared by the total order of times, so infinities, NaNs and both zeros are keys like any other.

## Main definitions

* `EventSim.MessageMap` — what can be looked up, by keys.
* `EventSim.QueueRequest`, `EventSim.QueueReply` — the requests that change a queue, and their answers.
* `EventSim.MessageMap.Step`, `EventSim.MessageMap.Run` — what a request does to a map, and what requests
  do one after another.
* `EventSim.MessageQueue.perform`, `EventSim.MessageQueue.performAll` — the same for a queue.
* `EventSim.MessageQueue.contents` — the map that a queue stands for.
* `EventSim.MessageQueue.Describes` — everything that can be read off a queue fits a map.

## Main results

* `EventSim.MessageQueue.step_perform` — one request is one step of the map.
* `EventSim.MessageMap.Step.unique` — a step has one answer and one outcome.
* `EventSim.MessageQueue.describes_contents` — a queue describes the map that it stands for.
* `EventSim.MessageQueue.refines_map` — so a queue answers as its map does, whatever it is asked.
* `EventSim.MessageQueue.popUpTo_eq_cons` — draining is taking out the first message again and again.
-/

namespace EventSim

variable {P : Type}

/-! ## Requests and replies -/

/-- What can be asked of a queue such that it may change. -/
inductive QueueRequest (P : Type) where
  /-- A message is put into the queue. -/
  | put (message : Message P)
  /-- The named message is withdrawn. -/
  | remove (handle : Handle)
  /-- The first message is taken out if it is due by the limit. -/
  | popNextUpTo (limit : SimTime)
  /-- Every message that is due by the limit is taken out. -/
  | popUpTo (limit : SimTime)
  /-- A batch of envelopes is applied. -/
  | merge (envelopes : List (Envelope P))

/-- What a queue answers. -/
inductive QueueReply (P : Type) where
  /-- There is nothing to say. -/
  | done
  /-- Whether the named message was there. -/
  | found (present : Bool)
  /-- The message that was taken out, if there is one. -/
  | next (message : Option (Message P))
  /-- The messages that were taken out, in order. -/
  | batch (messages : List (Message P))
  /-- How many withdrawals found their message. -/
  | count (withdrawn : Nat)
  deriving DecidableEq

/-! ## Message maps -/

/-- What can be looked up, by keys. -/
abbrev MessageMap (P : Type) := Key → Option (Message P)

namespace MessageMap

/-- The map in which there is nothing. -/
def nothing : MessageMap P := fun _ => none

/-- The map with a message under its key. -/
def insert (c : MessageMap P) (m : Message P) : MessageMap P := Function.update c m.key (some m)

/-- The map without what is under a key. -/
def erase (c : MessageMap P) (k : Key) : MessageMap P := Function.update c k none

/-- The map without what is under the keys of some handles. -/
def eraseAll (c : MessageMap P) (hs : List Handle) : MessageMap P :=
  fun k => if k ∈ hs.map Handle.key then none else c k

/-- The map without what is due by a limit. -/
def after (c : MessageMap P) (limit : SimTime) : MessageMap P :=
  fun k => if k.time ≤ limit then none else c k

/-- The message is the one with the least key. -/
def IsFirst (c : MessageMap P) (m : Message P) : Prop :=
  c m.key = some m ∧ ∀ k, c k ≠ none → k ≠ m.key → m.key < k

/-- What a request does to a map: the map before, the request, the answer and the map afterwards. -/
inductive Step : MessageMap P → QueueRequest P → QueueReply P → MessageMap P → Prop where
  /-- A message is put under its key, in the place of what was there. -/
  | put (c : MessageMap P) (m : Message P) : Step c (.put m) .done (c.insert m)
  /-- A withdrawal succeeds just if there is something under the key, and takes nothing else away. -/
  | remove (c : MessageMap P) (h : Handle) :
      Step c (.remove h) (.found (c h.key).isSome) (c.erase h.key)
  /-- The message with the least key is taken out. -/
  | next (c : MessageMap P) (limit : SimTime) (m : Message P) :
      c.IsFirst m → m.time ≤ limit → Step c (.popNextUpTo limit) (.next (some m)) (c.erase m.key)
  /-- Nothing is taken out, for nothing is due. -/
  | late (c : MessageMap P) (limit : SimTime) :
      (∀ k, c k ≠ none → limit < k.time) → Step c (.popNextUpTo limit) (.next none) c
  /-- Exactly the messages that are due are taken out, in order of keys. -/
  | batch (c : MessageMap P) (limit : SimTime) (ms : List (Message P)) :
      KeySorted ms → (∀ m, m ∈ ms ↔ c m.key = some m ∧ m.time ≤ limit) →
      Step c (.popUpTo limit) (.batch ms) (c.after limit)
  /-- The deliveries are put into the map one after another. Then the messages that are named are
  withdrawn, each of them once, however often it is named. -/
  | merge (c : MessageMap P) (es : List (Envelope P)) (d : MessageMap P) :
      d = (Envelope.messages es).foldl insert c →
      Step c (.merge es)
        (.count (Set.ncard {k | k ∈ (Envelope.handles es).map Handle.key ∧ d k ≠ none}))
        (d.eraseAll (Envelope.handles es))

/-- What requests do to a map one after another, with their answers. -/
inductive Run : MessageMap P → List (QueueRequest P) → List (QueueReply P) → MessageMap P → Prop where
  /-- Nothing is asked. -/
  | nil (c : MessageMap P) : Run c [] [] c
  /-- A request and those after it. -/
  | cons {c d e : MessageMap P} {r : QueueRequest P} {rs : List (QueueRequest P)} {a : QueueReply P}
      {as : List (QueueReply P)} : Step c r a d → Run d rs as e → Run c (r :: rs) (a :: as) e

/-- There is at most one message with the least key. -/
lemma IsFirst.unique {c : MessageMap P} {m n : Message P} (hm : c.IsFirst m) (hn : c.IsFirst n) :
    m = n := by
  by_cases hkey : m.key = n.key
  · exact Option.some.inj (hm.1.symm.trans ((congrArg c hkey).trans hn.1))
  · have hmn : m.key < n.key := hm.2 _ (by simp [hn.1]) (Ne.symm hkey)
    have hnm : n.key < m.key := hn.2 _ (by simp [hm.1]) hkey
    exact absurd (Key.lt_trans hmn hnm) (Key.lt_irrefl _)

/-- **A step leaves no choice.** The map and the request determine the answer and the map afterwards. -/
theorem Step.unique {c d d' : MessageMap P} {r : QueueRequest P} {a a' : QueueReply P}
    (h : Step c r a d) (h' : Step c r a' d') : a = a' ∧ d = d' := by
  cases h with
  | put m => cases h'; exact ⟨rfl, rfl⟩
  | remove k => cases h'; exact ⟨rfl, rfl⟩
  | next limit m hm hdue =>
    cases h' with
    | next limit n hn _ => cases hm.unique hn; exact ⟨rfl, rfl⟩
    | late limit hlate => exact absurd (hlate m.key (by simp [hm.1])) (not_lt.2 hdue)
  | late limit hlate =>
    cases h' with
    | next limit n hn hdue => exact absurd (hlate n.key (by simp [hn.1])) (not_lt.2 hdue)
    | late limit _ => exact ⟨rfl, rfl⟩
  | batch limit ms hsorted hms =>
    cases h' with
    | batch limit ns hsorted' hns =>
      have heq : ms = ns :=
        MessageQueue.eq_of_mem_iff hsorted hsorted' fun m => (hms m).trans (hns m).symm
      exact ⟨congrArg _ heq, rfl⟩
  | merge es d hd => cases h' with | merge es d' hd' => subst hd hd'; exact ⟨rfl, rfl⟩

/-- Requests one after another leave no choice either. -/
theorem Run.unique {c d d' : MessageMap P} {rs : List (QueueRequest P)} {as as' : List (QueueReply P)}
    (h : Run c rs as d) (h' : Run c rs as' d') : as = as' ∧ d = d' := by
  induction h generalizing as' with
  | nil c => cases h'; exact ⟨rfl, rfl⟩
  | cons hstep _ ih =>
    cases h' with
    | cons hstep' hrun' =>
      obtain ⟨rfl, rfl⟩ := hstep.unique hstep'
      obtain ⟨rfl, rfl⟩ := ih hrun'
      exact ⟨rfl, rfl⟩

end MessageMap

namespace MessageQueue

/-! ## What a queue is asked -/

/-- Does what is asked of a queue. -/
def perform (q : MessageQueue P) : QueueRequest P → QueueReply P × MessageQueue P
  | .put m => (.done, q.put m)
  | .remove h => (q.remove h).map .found id
  | .popNextUpTo limit => (q.popNextUpTo limit).map .next id
  | .popUpTo limit => (q.popUpTo limit).map .batch id
  | .merge es => (q.merge es).map .count id

/-- Does what is asked of a queue, one request after another. -/
def performAll (q : MessageQueue P) : List (QueueRequest P) → List (QueueReply P) × MessageQueue P
  | [] => ([], q)
  | r :: rs =>
    let (reply, q) := q.perform r
    (q.performAll rs).map (reply :: ·) id

/-! ## The map that a queue stands for -/

variable {q : MessageQueue P}

/-- The message that waits under a key. -/
def contents (q : MessageQueue P) : MessageMap P := fun k => q.entries.find? fun m => m.key = k

/-- What waits under a key is the message with that key. -/
lemma contents_eq_some_iff {k : Key} {m : Message P} :
    q.contents k = some m ↔ m ∈ q.entries ∧ m.key = k := by
  constructor
  · intro h
    exact ⟨List.mem_of_find?_eq_some h, by simpa using List.find?_some h⟩
  · rintro ⟨hm, rfl⟩
    cases hfind : q.contents m.key with
    | none => exact absurd (List.find?_eq_none.1 hfind m hm) (by simp)
    | some n =>
      have hn : n ∈ q.entries := List.mem_of_find?_eq_some hfind
      have hkey : n.key = m.key := by simpa using List.find?_some hfind
      rw [List.inj_on_of_nodup_map q.nodup_keys hn hm hkey]

/-- Something waits under a key just if some message has that key. -/
lemma contents_ne_none_iff {k : Key} : q.contents k ≠ none ↔ k ∈ q.entries.map Message.key := by
  rw [Option.ne_none_iff_exists', List.mem_map]
  simp only [contents_eq_some_iff]

/-- A map with the messages of a queue under their keys is the one that the queue stands for. -/
lemma contents_eq {c : MessageMap P} (h : ∀ k m, c k = some m ↔ m ∈ q.entries ∧ m.key = k) :
    q.contents = c := by
  funext k
  exact Option.ext fun m => contents_eq_some_iff.trans (h k m).symm

/-- Nothing waits in the empty queue. -/
@[simp] lemma contents_empty : (empty : MessageQueue P).contents = MessageMap.nothing := rfl

lemma contents_put (q : MessageQueue P) (m : Message P) :
    (q.put m).contents = q.contents.insert m := by
  refine contents_eq fun k x => ?_
  rw [mem_put, MessageMap.insert]
  by_cases hk : k = m.key
  · subst hk
    rw [Function.update_self]
    grind
  · rw [Function.update_of_ne hk, contents_eq_some_iff]
    grind

lemma contents_erase (q : MessageQueue P) (k : Key) : (q.erase k).contents = q.contents.erase k := by
  refine contents_eq fun l x => ?_
  simp only [erase, List.mem_filter, decide_eq_true_eq]
  rw [MessageMap.erase]
  by_cases hl : l = k
  · subst hl
    rw [Function.update_self]
    grind
  · rw [Function.update_of_ne hl, contents_eq_some_iff]
    grind

/-- A withdrawal succeeds just if something waits under the key. -/
lemma contains_eq (q : MessageQueue P) (k : Key) : q.contains k = (q.contents k).isSome := by
  rw [Bool.eq_iff_iff, contents, List.find?_isSome, contains, List.any_eq_true]

/-- Withdrawals leave what is under none of the keys. -/
lemma contents_removeAll (q : MessageQueue P) (hs : List Handle) :
    (q.removeAll hs).2.contents = q.contents.eraseAll hs := by
  refine contents_eq fun k x => ?_
  rw [removeAll_entries, MessageMap.eraseAll, List.mem_filter, Bool.not_eq_true', named_eq_false_iff]
  by_cases hk : k ∈ hs.map Handle.key
  · obtain ⟨h, hh, rfl⟩ := List.mem_map.1 hk
    rw [if_pos hk]
    grind
  · rw [if_neg hk, contents_eq_some_iff]
    grind

/-- Deliveries are put into the map one after another. -/
lemma contents_putAll (q : MessageQueue P) (ms : List (Message P)) :
    (q.putAll ms).contents = ms.foldl MessageMap.insert q.contents := by
  rw [putAll_eq_foldl]
  induction ms generalizing q with
  | nil => rfl
  | cons m ms ih => rw [List.foldl_cons, ih, contents_put, List.foldl_cons]

/-- Withdrawals count the keys of theirs under which something waits. -/
lemma removeAll_count_eq_ncard (q : MessageQueue P) (hs : List Handle) :
    (q.removeAll hs).1 = Set.ncard {k | k ∈ hs.map Handle.key ∧ q.contents k ≠ none} := by
  have hnodup : ((q.entries.filter (named hs)).map Message.key).Nodup :=
    q.nodup_keys.sublist (List.filter_sublist.map _)
  have hset : {k | k ∈ hs.map Handle.key ∧ q.contents k ≠ none} =
      ((q.entries.filter (named hs)).map Message.key).toFinset := by
    ext k
    simp only [Set.mem_ofPred_eq, contents_ne_none_iff, List.coe_toFinset, List.mem_map,
      List.mem_filter, named_eq_true_iff]
    grind
  rw [hset, Set.ncard_coe_finset, List.toFinset_card_of_nodup hnodup, List.length_map, removeAll_count]

lemma contents_popUpTo (q : MessageQueue P) (limit : SimTime) :
    (q.popUpTo limit).2.contents = q.contents.after limit := by
  refine contents_eq fun k x => ?_
  rw [mem_popUpTo.2, MessageMap.after]
  by_cases hk : k.time ≤ limit
  · rw [if_pos hk]
    grind [Message.key]
  · rw [if_neg hk, contents_eq_some_iff]
    grind [Message.key]

/-! ## One request -/

/-- The first message of a queue is the one with the least key. -/
lemma peekNext_eq_some_iff {m : Message P} : q.peekNext = some m ↔ q.contents.IsFirst m := by
  obtain ⟨es, hs⟩ := q
  cases es with
  | nil => exact ⟨fun h => absurd h (by simp [peekNext]), fun h => absurd h.1 (by simp [contents])⟩
  | cons e es =>
    have hfirst : (MessageQueue.mk (e :: es) hs).contents.IsFirst e := by
      refine ⟨contents_eq_some_iff.2 ⟨List.mem_cons_self, rfl⟩, fun k hk hne => ?_⟩
      obtain ⟨x, hx, rfl⟩ := List.mem_map.1 (contents_ne_none_iff.1 hk)
      rcases List.mem_cons.1 hx with rfl | hx
      · exact absurd rfl hne
      · exact (List.pairwise_cons.1 hs).1 x hx
    constructor
    · intro h
      obtain rfl : e = m := Option.some.inj h
      exact hfirst
    · exact fun h => congrArg some (hfirst.unique h)

/-- There is no first message just if nothing waits. -/
lemma peekNext_eq_none_iff : q.peekNext = none ↔ ∀ k, q.contents k = none := by
  rw [peekNext, List.head?_eq_none_iff, List.eq_nil_iff_forall_not_mem]
  constructor
  · exact fun h k => Option.eq_none_iff_forall_not_mem.2 fun m hm => h m (contents_eq_some_iff.1 hm).1
  · intro h m hm
    have hsome : q.contents m.key = some m := contents_eq_some_iff.2 ⟨hm, rfl⟩
    exact absurd (h m.key) (by simp [hsome])

/-- The first message is taken out if it is due, and otherwise the queue stays as it is. -/
lemma popNextUpTo_eq (q : MessageQueue P) (limit : SimTime) :
    (∃ m, q.peekNext = some m ∧ m.time ≤ limit ∧ q.popNextUpTo limit = (some m, q.erase m.key)) ∨
      (∀ m, q.peekNext = some m → limit < m.time) ∧ q.popNextUpTo limit = (none, q) := by
  obtain ⟨es, hs⟩ := q
  cases es with
  | nil => exact Or.inr ⟨fun m h => absurd h (by simp [peekNext]), rfl⟩
  | cons e es =>
    by_cases hlate : limit < e.time
    · refine Or.inr ⟨fun m h => ?_, if_pos hlate⟩
      obtain rfl : e = m := Option.some.inj h
      exact hlate
    · refine Or.inl ⟨e, rfl, not_lt.1 hlate, (if_neg hlate).trans (congrArg _ (ext_entries ?_))⟩
      -- the messages behind the first one have other keys
      have hrest : ∀ x ∈ es, x.key ≠ e.key := fun x hx heq =>
        Key.lt_irrefl _ (heq ▸ (List.pairwise_cons.1 hs).1 x hx)
      change es = (e :: es).filter fun m => m.key ≠ e.key
      rw [List.filter_cons_of_neg (by simp), List.filter_eq_self.2 fun x hx => by simpa using hrest x hx]

/-- What waits is no earlier than the first message. -/
lemma time_le_of_isFirst {c : MessageMap P} {m : Message P} (hm : c.IsFirst m) {k : Key}
    (hk : c k ≠ none) : m.time ≤ k.time := by
  by_cases hkey : k = m.key
  · exact hkey ▸ le_refl _
  · rcases hm.2 k hk hkey with h | ⟨h, _⟩
    · exact le_of_lt h
    · exact le_of_eq h

/-- **One request is one step of the map.** Whatever a queue is asked, it answers as the map does for which
it stands, and it stands for the map that the step leads to.

**Proof sketch.** One case for each request. The lemmas above say what is looked up in a queue after each
of its operations; in what order the queue holds its messages only matters for the first message, which
has the least key. -/
theorem step_perform (q : MessageQueue P) (r : QueueRequest P) :
    MessageMap.Step q.contents r (q.perform r).1 (q.perform r).2.contents := by
  cases r with
  | put m => exact contents_put q m ▸ .put q.contents m
  | remove h =>
    change MessageMap.Step _ _ (.found (q.contains h.key)) (q.erase h.key).contents
    rw [contains_eq, contents_erase]
    exact .remove _ h
  | popNextUpTo limit =>
    rw [perform]
    rcases popNextUpTo_eq q limit with ⟨m, hm, hdue, heq⟩ | ⟨hlate, heq⟩
    · rw [heq]
      change MessageMap.Step _ _ (.next (some m)) (q.erase m.key).contents
      rw [contents_erase]
      exact .next _ limit m (peekNext_eq_some_iff.1 hm) hdue
    · rw [heq]
      refine .late _ limit fun k hk => ?_
      cases hfirst : q.peekNext with
      | none => exact absurd (peekNext_eq_none_iff.1 hfirst k) hk
      | some m =>
        exact lt_of_lt_of_le (hlate m hfirst) (time_le_of_isFirst (peekNext_eq_some_iff.1 hfirst) hk)
  | popUpTo limit =>
    change MessageMap.Step _ _ (.batch (q.popUpTo limit).1) (q.popUpTo limit).2.contents
    rw [contents_popUpTo]
    refine .batch _ limit _ (sorted_popUpTo q limit) fun m => ?_
    rw [mem_popUpTo.1, contents_eq_some_iff, and_iff_left rfl]
  | merge es =>
    change MessageMap.Step _ _ (.count (q.merge es).1) (q.merge es).2.contents
    rw [merge, removeAll_count_eq_ncard, contents_removeAll]
    exact .merge _ es _ (contents_putAll q _)

/-! ## What can be read off a queue -/

/-- Everything that can be read off a queue fits a map. -/
structure Describes (q : MessageQueue P) (c : MessageMap P) : Prop where
  /-- Every message is under its own key. -/
  keyed : ∀ k m, c k = some m → m.key = k
  /-- There are finitely many messages. -/
  finite : Set.Finite {k | c k ≠ none}
  /-- The size is their number. -/
  size_eq : q.size = Set.ncard {k | c k ≠ none}
  /-- The queue is empty just if there is none. -/
  isEmpty_iff : q.isEmpty = true ↔ c = MessageMap.nothing
  /-- The first message is the one with the least key. -/
  peekNext_iff : ∀ m, q.peekNext = some m ↔ c.IsFirst m
  /-- There is no first message just if there is none at all. -/
  peekNext_none_iff : q.peekNext = none ↔ c = MessageMap.nothing
  /-- The next time is the least time of all messages. -/
  nextTime_iff : ∀ t, q.nextTime = some t ↔ (∃ k, c k ≠ none ∧ k.time = t) ∧ ∀ k, c k ≠ none → t ≤ k.time
  /-- There is no next time just if there is no message. -/
  nextTime_none_iff : q.nextTime = none ↔ c = MessageMap.nothing

/-- **A queue describes the map that it stands for**: its size, whether it is empty, its first message and
the time of that. -/
theorem describes_contents (q : MessageQueue P) : q.Describes q.contents := by
  have hset : {k | q.contents k ≠ none} = (q.entries.map Message.key).toFinset := by
    ext k
    rw [Set.mem_ofPred_eq, contents_ne_none_iff, List.coe_toFinset, Set.mem_ofPred_eq]
  have hnone : q.peekNext = none ↔ q.contents = MessageMap.nothing :=
    peekNext_eq_none_iff.trans funext_iff.symm
  refine ⟨fun k m h => (contents_eq_some_iff.1 h).2, ?_, ?_, ?_, fun m => peekNext_eq_some_iff, hnone,
    fun t => ?_, ?_⟩
  · rw [hset]
    exact Finset.finite_toSet _
  · rw [hset, Set.ncard_coe_finset, List.toFinset_card_of_nodup q.nodup_keys, List.length_map, size]
  · rw [← hnone, isEmpty, peekNext, List.isEmpty_iff, List.head?_eq_none_iff]
  · have htimes : ∀ x, x ∈ q.entries.map (·.time) ↔ ∃ k, q.contents k ≠ none ∧ k.time = x := by
      simp only [contents_ne_none_iff, ← List.mem_map, List.map_map]
      exact fun x => Iff.rfl
    rw [nextTime_eq, SimTime.earliest?_eq_some_iff, htimes]
    simp only [htimes, forall_exists_index, and_imp, forall_apply_eq_imp_iff₂]
  · rw [nextTime, Option.map_eq_none_iff, hnone]

/-! ## Any requests -/

/-- Requests one after another are as many steps of the map. -/
theorem run_performAll (q : MessageQueue P) (rs : List (QueueRequest P)) :
    MessageMap.Run q.contents rs (q.performAll rs).1 (q.performAll rs).2.contents := by
  induction rs generalizing q with
  | nil => exact .nil _
  | cons r rs ih => exact .cons (step_perform q r) (ih (q.perform r).2)

/-- **A queue is a finite map that is read in order.** Whatever is asked of the empty queue, one request
after another, its answers are those of the map that is empty at first, and what can be read off the queue
afterwards fits what the map holds then. The map leaves no choice of answers, and none of what it holds.

The requests are any at all: their times may be infinite or NaNs, their messages may have keys that are
there already, and their handles may name nothing.

**Proof sketch.** A queue stands for the map that looks its messages up. One request is one step of that map,
so by induction any requests are as many steps. -/
theorem refines_map (rs : List (QueueRequest P)) :
    ∃ c : MessageMap P, MessageMap.Run .nothing rs (empty.performAll rs).1 c ∧
      (empty.performAll rs).2.Describes c ∧
      ∀ as d, MessageMap.Run .nothing rs as d → as = (empty.performAll rs).1 ∧ d = c := by
  have hrun := run_performAll (empty : MessageQueue P) rs
  exact ⟨_, hrun, describes_contents _, fun as d h => h.unique hrun⟩

/-- The zeros are keys of their own, and a NaN is due only by a limit that is one. -/
example :
    let due := fun t : Binary64 => (⟨⟨.setup, 0⟩, .setup, ⟨t⟩, 0⟩ : Message Int)
    ((empty : MessageQueue Int).performAll [.put (due .nan), .put (due .zero), .put (due (-.zero)),
      .popUpTo ⟨.zero⟩, .popUpTo ⟨.infinity⟩, .popUpTo ⟨.nan⟩]).1 =
      [.done, .done, .done, .batch [due (-.zero), due .zero], .batch [], .batch [due .nan]] := by
  decide +kernel

/-! ## Draining -/

/-- **Draining is taking out the first message as long as one is due.** -/
theorem popUpTo_eq_cons (q : MessageQueue P) (limit : SimTime) :
    q.popUpTo limit = match q.popNextUpTo limit with
      | (some m, rest) => (m :: (rest.popUpTo limit).1, (rest.popUpTo limit).2)
      | (none, rest) => ([], rest) := by
  obtain ⟨es, hs⟩ := q
  cases es with
  | nil => rfl
  | cons e es =>
    by_cases hlate : limit < e.time
    · have hdue : ¬ e.time ≤ limit := not_le.2 hlate
      simp [popUpTo, popNextUpTo, hlate, hdue]
    · have hdue : e.time ≤ limit := not_lt.1 hlate
      simp [popUpTo, popNextUpTo, hlate, hdue]

end MessageQueue

end EventSim
