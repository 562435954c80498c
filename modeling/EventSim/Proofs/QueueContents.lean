import EventSim.Message.Queue
import EventSim.Proofs.TimeOrder
import Mathlib.Data.List.Nodup
import Mathlib.Data.List.Perm.Basic

set_option autoImplicit false

/-!
# The contents of queues

A queue whose messages have keys of their own neither loses nor doubles anything: what is merged into it
either stays or is withdrawn by a cancellation of the same batch, and what is drained from it is exactly
what is due.

## Main definitions

* `EventSim.Envelope.messages`, `EventSim.Envelope.handles` — the two parts of a batch.
* `EventSim.MessageQueue.withdrawn` — the messages that the cancellations of a batch remove.

## Main results

* `EventSim.MessageQueue.perm_merge` — a merge splits old and new messages into withdrawn and waiting ones.
* `EventSim.MessageQueue.mem_merge` — the contents after a merge.
* `EventSim.MessageQueue.merge_count` — a merge counts what it withdraws.
* `EventSim.MessageQueue.merge_congr` — the order of a batch does not matter.
* `EventSim.MessageQueue.popUpTo_append` — draining splits a queue.
-/

namespace EventSim

/-! ## The parts of a batch -/

namespace Envelope

variable {P : Type}

/-- The messages of a batch, in order. -/
def messages (es : List (Envelope P)) : List (Message P) := es.filterMap delivery?

/-- The handles of a batch, in order. -/
def handles (es : List (Envelope P)) : List Handle := es.filterMap cancellation?

@[simp] lemma messages_nil : messages ([] : List (Envelope P)) = [] := rfl

@[simp] lemma messages_append (es fs : List (Envelope P)) :
    messages (es ++ fs) = messages es ++ messages fs := List.filterMap_append

@[simp] lemma messages_map_deliver (ms : List (Message P)) : messages (ms.map .deliver) = ms := by
  induction ms with
  | nil => rfl
  | cons m ms ih => exact congrArg (m :: ·) ih

@[simp] lemma mem_messages {es : List (Envelope P)} {m : Message P} :
    m ∈ messages es ↔ .deliver m ∈ es := by
  rw [messages, List.mem_filterMap]
  constructor
  · rintro ⟨e, he, hm⟩
    cases e with
    | deliver n => cases hm; exact he
    | cancel h => cases hm
  · exact fun h => ⟨_, h, rfl⟩

@[simp] lemma mem_handles {es : List (Envelope P)} {h : Handle} :
    h ∈ handles es ↔ .cancel h ∈ es := by
  rw [handles, List.mem_filterMap]
  constructor
  · rintro ⟨e, he, hm⟩
    cases e with
    | deliver n => cases hm
    | cancel k => cases hm; exact he
  · exact fun hh => ⟨_, hh, rfl⟩

/-- Where no message is named, nothing is cancelled. -/
lemma not_mem_of_handles_eq_nil {es : List (Envelope P)} (hes : handles es = []) (h : Handle) :
    .cancel h ∉ es := by
  intro hh
  rw [← mem_handles, hes] at hh
  cases hh

lemma messages_flatMap {α : Type} (f : α → List (Envelope P)) (xs : List α) :
    messages (xs.flatMap f) = xs.flatMap fun x => messages (f x) := List.filterMap_flatMap ..

end Envelope

/-! ## Messages with keys of their own -/

/-- Messages with different identities have different keys. -/
lemma Message.nodup_keys {P : Type} {ms : List (Message P)} (h : (ms.map (·.id)).Nodup) :
    (ms.map Message.key).Nodup := by
  have hids : (ms.map Message.key).map Key.id = ms.map (·.id) := by
    rw [List.map_map]
    rfl
  rw [← hids] at h
  exact h.of_map _

namespace MessageQueue

variable {P : Type} {q : MessageQueue P}

/-- The messages of a queue have different keys. -/
lemma nodup_keys (q : MessageQueue P) : (q.entries.map Message.key).Nodup := by
  refine List.pairwise_map.2 (List.Pairwise.imp ?_ q.sorted)
  intro a b h heq
  exact Key.lt_irrefl _ (heq ▸ h)

/-- The messages of a queue are different. -/
lemma nodup_entries (q : MessageQueue P) : q.entries.Nodup := q.nodup_keys.of_map _

/-- Whatever is in a queue after some messages were put into it was there before or is one of them. -/
lemma mem_of_mem_putAll {ms : List (Message P)} {x : Message P} (hx : x ∈ (q.putAll ms).entries) :
    x ∈ q.entries ∨ x ∈ ms := by
  rw [putAll_eq_foldl] at hx
  induction ms generalizing q with
  | nil => exact Or.inl hx
  | cons m ms ih =>
    rcases ih hx with h | h
    · rcases mem_put.1 h with rfl | ⟨h, _⟩
      · exact Or.inr List.mem_cons_self
      · exact Or.inl h
    · exact Or.inr (List.mem_cons_of_mem _ h)

/-- Messages with keys of their own are all kept when they are put into a queue. -/
lemma mem_putAll {ms : List (Message P)} (hk : ((q.entries ++ ms).map Message.key).Nodup)
    {x : Message P} : x ∈ (q.putAll ms).entries ↔ x ∈ q.entries ∨ x ∈ ms := by
  refine ⟨mem_of_mem_putAll, fun hx => ?_⟩
  rw [putAll_eq_foldl]
  induction ms generalizing q with
  | nil => simpa using hx
  | cons m ms ih =>
    simp only [List.map_append, List.map_cons] at hk
    obtain ⟨hmiss, hrest⟩ := List.nodup_cons.1 (List.nodup_middle.1 hk)
    have hnew : ∀ y ∈ q.entries ++ ms, y.key ≠ m.key := fun y hy heq =>
      hmiss (heq ▸ List.map_append ▸ List.mem_map_of_mem hy)
    -- the queue with `m` in it has the keys of `q` and that of `m`
    have hput : ((q.put m).entries.map Message.key).Perm (m.key :: q.entries.map Message.key) := by
      refine (List.perm_ext_iff_of_nodup (nodup_keys _) ?_).2 fun k => ?_
      · refine List.nodup_cons.2 ⟨fun h => hmiss (List.mem_append_left _ h), q.nodup_keys⟩
      · simp only [List.mem_map, List.mem_cons, mem_put]
        constructor
        · rintro ⟨y, rfl | ⟨hy, _⟩, rfl⟩
          · exact Or.inl rfl
          · exact Or.inr ⟨y, hy, rfl⟩
        · rintro (rfl | ⟨y, hy, rfl⟩)
          · exact ⟨m, Or.inl rfl, rfl⟩
          · exact ⟨y, Or.inr ⟨hy, hnew y (List.mem_append_left _ hy)⟩, rfl⟩
    refine ih ?_ ?_
    · rw [List.map_append]
      exact ((hput.append_right _).nodup_iff).2 (List.nodup_middle.1 hk)
    · rcases hx with hx | hx
      · exact Or.inl (mem_put.2 (Or.inr ⟨hx, hnew x (List.mem_append_left _ hx)⟩))
      · rcases List.mem_cons.1 hx with rfl | hx
        · exact Or.inl (mem_put.2 (Or.inl rfl))
        · exact Or.inr hx

/-- Messages with keys of their own are neither lost nor doubled when they are put into a queue. -/
lemma perm_putAll {ms : List (Message P)} (hk : ((q.entries ++ ms).map Message.key).Nodup) :
    ((q.putAll ms).entries).Perm (q.entries ++ ms) :=
  (List.perm_ext_iff_of_nodup (nodup_entries _) (hk.of_map _)).2 fun x => by
    rw [mem_putAll hk, List.mem_append]

/-! ## Merging -/

/-- The message is named by one of the handles. -/
def named (hs : List Handle) (m : Message P) : Bool := hs.any fun h => h.key = m.key

@[simp] lemma named_nil (m : Message P) : named [] m = false := rfl

lemma named_eq_true_iff {hs : List Handle} {m : Message P} :
    named hs m = true ↔ ∃ h ∈ hs, h.key = m.key := by
  simp [named]

lemma named_eq_false_iff {hs : List Handle} {m : Message P} :
    named hs m = false ↔ ∀ h ∈ hs, h.key ≠ m.key := by
  simp [named]

/-- The messages that the cancellations of a batch remove from a queue. -/
def withdrawn (q : MessageQueue P) (es : List (Envelope P)) : List (Message P) :=
  (q.putAll (Envelope.messages es)).entries.filter (named (Envelope.handles es))

/-- Withdrawals leave the messages that none of them names. -/
lemma removeAll_entries (hs : List Handle) :
    (q.removeAll hs).2.entries = q.entries.filter fun m => !named hs m := by
  induction hs generalizing q with
  | nil => simp [removeAll]
  | cons h hs ih =>
    simp only [removeAll, ih, remove, erase, List.filter_filter]
    apply List.filter_congr
    intro m _
    by_cases hm : h.key = m.key <;> simp [named, hm, Ne.symm]

/-- A withdrawal that finds its message makes the queue shorter by one. -/
lemma size_erase (q : MessageQueue P) (k : Key) :
    (q.erase k).size + (if q.contains k then 1 else 0) = q.size := by
  have hcount : (q.entries.filter fun m => decide (m.key = k)).length =
      (q.entries.map Message.key).count k := by
    rw [List.count, List.countP_map, ← List.countP_eq_length_filter]
    exact List.countP_congr fun m _ => by simp
  have hone : (if q.contains k then 1 else 0) =
      (q.entries.filter fun m => decide (m.key = k)).length := by
    rw [hcount, q.nodup_keys.count]
    simp [contains, List.mem_map]
  have hsplit := List.length_eq_length_filter_add (l := q.entries) fun m => decide (m.key = k)
  rw [hone, size, size, hsplit, erase, Nat.add_comm]
  simp

/-- Withdrawals make the queue shorter by their count. -/
lemma removeAll_count_add_size (hs : List Handle) :
    (q.removeAll hs).1 + (q.removeAll hs).2.size = q.size := by
  induction hs generalizing q with
  | nil => simp [removeAll]
  | cons h hs ih =>
    have hone := size_erase q h.key
    have hrest := ih (q := q.erase h.key)
    simp only [removeAll, remove]
    split at hone <;> rename_i hc <;> simp only [hc] <;> simp <;> omega

/-- Withdrawals count the messages that one of them names, each once. -/
lemma removeAll_count (hs : List Handle) :
    (q.removeAll hs).1 = (q.entries.filter (named hs)).length := by
  have hsum := removeAll_count_add_size (q := q) hs
  have hsplit := List.length_eq_length_filter_add (l := q.entries) (named hs)
  rw [size, size, removeAll_entries, hsplit] at hsum
  exact Nat.add_right_cancel hsum

/-- A merge leaves the old and new messages that no cancellation of the batch names. -/
lemma merge_entries (es : List (Envelope P)) :
    (q.merge es).2.entries = (q.putAll (Envelope.messages es)).entries.filter
      fun m => !named (Envelope.handles es) m := removeAll_entries _

/-- A merge counts the messages that it withdraws. -/
lemma merge_count (es : List (Envelope P)) : (q.merge es).1 = (q.withdrawn es).length :=
  removeAll_count _

/-- Whatever waits after a merge waited before or came with the batch. -/
lemma mem_of_mem_merge {es : List (Envelope P)} {x : Message P} (hx : x ∈ (q.merge es).2.entries) :
    x ∈ q.entries ∨ .deliver x ∈ es := by
  rw [merge_entries] at hx
  exact (mem_of_mem_putAll (List.mem_of_mem_filter hx)).imp_right Envelope.mem_messages.1

/-- **The contents after a merge.** Among messages with keys of their own, those wait after a merge that
waited before or came with the batch, and that the batch does not cancel. -/
theorem mem_merge {es : List (Envelope P)}
    (hk : ((q.entries ++ Envelope.messages es).map Message.key).Nodup) {x : Message P} :
    x ∈ (q.merge es).2.entries ↔
      (x ∈ q.entries ∨ .deliver x ∈ es) ∧ ∀ h, .cancel h ∈ es → h.key ≠ x.key := by
  rw [merge_entries, List.mem_filter, mem_putAll hk, Envelope.mem_messages, Bool.not_eq_true',
    named_eq_false_iff]
  simp only [Envelope.mem_handles]

/-- **A merge loses nothing.** Old and new messages with keys of their own are split into those that are
withdrawn and those that wait. -/
theorem perm_merge {es : List (Envelope P)}
    (hk : ((q.entries ++ Envelope.messages es).map Message.key).Nodup) :
    (q.entries ++ Envelope.messages es).Perm (q.withdrawn es ++ (q.merge es).2.entries) := by
  rw [merge_entries, withdrawn]
  exact (perm_putAll hk).symm.trans (List.filter_append_perm _ _).symm

/-- **The order of a batch does not matter**, if old and new messages have keys of their own. -/
theorem merge_congr {es es' : List (Envelope P)}
    (hk : ((q.entries ++ Envelope.messages es).map Message.key).Nodup) (h : es.Perm es') :
    q.merge es = q.merge es' := by
  have hmessages : (Envelope.messages es).Perm (Envelope.messages es') := h.filterMap _
  have hnamed : named (P := P) (Envelope.handles es) = named (Envelope.handles es') :=
    funext fun m => (h.filterMap Envelope.cancellation?).any_eq
  have hput : q.putAll (Envelope.messages es) = q.putAll (Envelope.messages es') := by
    refine ext_mem fun x => ?_
    rw [mem_putAll hk, mem_putAll (((hmessages.append_left _).map _).nodup_iff.1 hk), hmessages.mem_iff]
  apply Prod.ext
  · rw [merge_count, merge_count, withdrawn, withdrawn, hput, hnamed]
  · apply ext_entries
    rw [merge_entries, merge_entries, hput, hnamed]

/-! ## Draining -/

/-- Draining splits a queue in two. -/
lemma popUpTo_append (q : MessageQueue P) (limit : SimTime) :
    (q.popUpTo limit).1 ++ (q.popUpTo limit).2.entries = q.entries :=
  List.takeWhile_append_dropWhile

/-- What is drained comes in order of keys. -/
lemma sorted_popUpTo (q : MessageQueue P) (limit : SimTime) : KeySorted (q.popUpTo limit).1 :=
  q.sorted.sublist (List.takeWhile_sublist _)

/-- When the first message is due is the earliest time of all. -/
lemma nextTime_eq (q : MessageQueue P) : q.nextTime = SimTime.earliest? (q.entries.map (·.time)) := by
  obtain ⟨es, hs⟩ := q
  cases es with
  | nil => rfl
  | cons e es =>
    refine (SimTime.earliest?_eq_some_iff.2 ⟨List.mem_cons_self, fun t ht => ?_⟩).symm
    obtain ⟨m, hm, rfl⟩ : ∃ m ∈ e :: es, m.time = t := List.mem_map.1 ht
    rcases List.mem_cons.1 hm with rfl | hm
    · exact le_refl _
    · rcases (List.pairwise_cons.1 hs).1 m hm with h | ⟨h, _⟩
      · exact le_of_lt h
      · exact le_of_eq h

end MessageQueue

end EventSim
