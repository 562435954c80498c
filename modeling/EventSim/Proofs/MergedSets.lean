import EventSim.Proofs.QueueRefinement

set_option autoImplicit false

/-!
# Merges as operations on sets

A queue is determined by the set of its messages (`MessageQueue.ext_mem`). If the messages of a batch have keys of their
own, what a merge does to that set can be said without any order: the messages of the batch are added to it, and those
whose keys the batch names are taken away, each of them once. So it does not matter in what order the envelopes of a batch
were posted, whether a message is named before it is delivered, how often it is named, and whether it is there at all.

## Main definitions

* `EventSim.MessageQueue.messageSet` — the messages of a queue.
* `EventSim.Envelope.messageSet`, `EventSim.Envelope.cancelledKeys` — the messages of a batch, and the keys that it names.

## Main results

* `EventSim.MessageQueue.messageSet_merge` — the messages after a merge.
* `EventSim.MessageQueue.merge_count_eq_ncard` — what a merge counts.
* `EventSim.MessageQueue.merge_reordered` — a merge is an operation on sets, in any order of the batch.
-/

namespace EventSim

variable {P : Type}

/-! ## Sets of messages and keys -/

/-- The messages that wait in a queue. -/
def MessageQueue.messageSet (q : MessageQueue P) : Set (Message P) := {m | m ∈ q.entries}

namespace Envelope

/-- The messages that a batch delivers. -/
def messageSet (es : List (Envelope P)) : Set (Message P) := {m | .deliver m ∈ es}

/-- The keys that the cancellations of a batch name. -/
def cancelledKeys (es : List (Envelope P)) : Set Key := {k | ∃ h, .cancel h ∈ es ∧ h.key = k}

end Envelope

namespace MessageQueue

variable {q : MessageQueue P} {es es' : List (Envelope P)}

/-- **The messages after a merge**: those that waited and those of the batch, but not those whose keys it names. -/
theorem messageSet_merge (hk : ((q.entries ++ Envelope.messages es).map Message.key).Nodup) :
    (q.merge es).2.messageSet =
      (q.messageSet ∪ Envelope.messageSet es) \ {m | m.key ∈ Envelope.cancelledKeys es} := by
  ext m
  refine (mem_merge hk).trans (and_congr Iff.rfl ?_)
  exact ⟨fun h ⟨c, hc, hkey⟩ => h c hc hkey, fun h c hc hkey => h ⟨c, hc, hkey⟩⟩

/-- **What a merge counts**: the keys that the batch names and under which there is a message, however often each of them
is named. -/
theorem merge_count_eq_ncard (hk : ((q.entries ++ Envelope.messages es).map Message.key).Nodup) :
    (q.merge es).1 =
      (Envelope.cancelledKeys es ∩ Message.key '' (q.messageSet ∪ Envelope.messageSet es)).ncard := by
  have hnamed : ∀ k, k ∈ (Envelope.handles es).map Handle.key ↔ k ∈ Envelope.cancelledKeys es := by
    simp only [List.mem_map, Envelope.mem_handles]
    exact fun k => Iff.rfl
  have hpresent : ∀ k, (q.putAll (Envelope.messages es)).contents k ≠ none ↔
      k ∈ Message.key '' (q.messageSet ∪ Envelope.messageSet es) := by
    simp only [contents_ne_none_iff, List.mem_map, mem_putAll hk, Envelope.mem_messages]
    exact fun k => Iff.rfl
  have hset : {k | k ∈ (Envelope.handles es).map Handle.key ∧ (q.putAll (Envelope.messages es)).contents k ≠ none} =
      Envelope.cancelledKeys es ∩ Message.key '' (q.messageSet ∪ Envelope.messageSet es) :=
    Set.ext fun k => and_congr (hnamed k) (hpresent k)
  exact (removeAll_count_eq_ncard _ _).trans (congrArg Set.ncard hset)

/-- **A merge is an operation on sets.** Let the messages of a batch have keys that differ from each other and from those
in the queue. In whatever order the batch is posted, its merge leaves the same queue: the messages that waited and those
of the batch, without those whose keys it names. And it counts the same number: that of the different keys which the batch
names and under which there is a message.

**Proof sketch.** The deliveries go into the queue first, and with keys of their own none of them replaces another message
(`mem_putAll`), so what waits then is a union. Every cancellation takes away what is under its key. The first one that
names a key finds the message there, and all later ones find nothing, so keys are counted and not cancellations. -/
theorem merge_reordered (hk : ((q.entries ++ Envelope.messages es).map Message.key).Nodup) (h : es.Perm es') :
    q.merge es' = q.merge es ∧
      (q.merge es').2.messageSet =
        (q.messageSet ∪ Envelope.messageSet es) \ {m | m.key ∈ Envelope.cancelledKeys es} ∧
      (q.merge es').1 =
        (Envelope.cancelledKeys es ∩ Message.key '' (q.messageSet ∪ Envelope.messageSet es)).ncard := by
  have hmerge : q.merge es' = q.merge es := (merge_congr hk h).symm
  rw [hmerge]
  exact ⟨rfl, messageSet_merge hk, merge_count_eq_ncard hk⟩

/-! ### A mailbag -/

/-- A letter with a number, for a day. -/
def letter (number day : Nat) : Message Int := ⟨⟨.setup, number⟩, .setup, ⟨Binary64.ofNat day⟩, 0⟩

/-- A shelf on which two letters wait. -/
def shelf : MessageQueue Int := (empty.put (letter 0 2)).put (letter 1 1)

/-- A mailbag with two letters, of which one is called back twice, once before it comes. One of the letters on the shelf is
called back as well, and a letter that is nowhere. -/
def mailbag : List (Envelope Int) :=
  [.cancel (letter 2 1).handle, .deliver (letter 2 1), .cancel (letter 0 2).handle, .deliver (letter 3 3),
    .cancel (letter 2 1).handle, .cancel (letter 4 1).handle]

/-- The mailbag may be emptied from the bottom: two letters are called back, and the two others wait. -/
theorem merge_reordered_mailbag :
    (((shelf.entries ++ Envelope.messages mailbag).map Message.key).Nodup ∧ mailbag.Perm mailbag.reverse) ∧
      (shelf.merge mailbag.reverse = shelf.merge mailbag ∧
        (shelf.merge mailbag.reverse).2.messageSet =
          (shelf.messageSet ∪ Envelope.messageSet mailbag) \ {m | m.key ∈ Envelope.cancelledKeys mailbag} ∧
        (shelf.merge mailbag.reverse).1 =
          (Envelope.cancelledKeys mailbag ∩
            Message.key '' (shelf.messageSet ∪ Envelope.messageSet mailbag)).ncard) ∧
      (shelf.merge mailbag.reverse).1 = 2 ∧
        (shelf.merge mailbag.reverse).2.entries = [letter 1 1, letter 3 3] := by
  have hk : ((shelf.entries ++ Envelope.messages mailbag).map Message.key).Nodup := by decide +kernel
  have hperm : mailbag.Perm mailbag.reverse := mailbag.reverse_perm.symm
  exact ⟨⟨hk, hperm⟩, merge_reordered hk hperm, by decide +kernel, by decide +kernel⟩

end MessageQueue

end EventSim
