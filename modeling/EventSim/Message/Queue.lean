import EventSim.Message.Basic

set_option autoImplicit false

/-!
# Queues of waiting messages

A queue holds the messages that wait for the units of one worker, as a list in strictly increasing order
of keys. So a queue is a finite map from keys to messages that is read in order, and two queues with the
same entries are equal.

## Main definitions

* `EventSim.MessageQueue` — the waiting messages in order.
* `EventSim.MessageQueue.union` — the messages of two queues.
* `EventSim.MessageQueue.put`, `ofList`, `putAll`, `remove`, `popUpTo` — the basic operations.
* `EventSim.MessageQueue.merge` — a batch of envelopes, deliveries before cancellations.

## Main results

* `EventSim.MessageQueue.ext_mem` — a queue is determined by its messages.
* `EventSim.MessageQueue.mem_union`, `mem_put`, `mem_remove`, `mem_popUpTo` — the contents after each
  operation.
* `EventSim.MessageQueue.ofList_eq_foldl`, `putAll_eq_foldl` — putting many messages at once is putting them
  one by one.
-/

namespace EventSim

/-- Messages in strictly increasing order of keys. -/
def KeySorted {P : Type} (ms : List (Message P)) : Prop :=
  ms.Pairwise (fun a b => a.key < b.key)

/-- What follows the first of some sorted messages is sorted. -/
theorem KeySorted.rest {P : Type} {m : Message P} {ms : List (Message P)} (h : KeySorted (m :: ms)) :
    KeySorted ms :=
  (List.pairwise_cons.1 h).2

/-- The messages that wait at one worker. -/
structure MessageQueue (P : Type) where
  /-- The messages, in order of keys. -/
  entries : List (Message P)
  /-- The order is strict. -/
  sorted : KeySorted entries

namespace MessageQueue

variable {P : Type}

/-- The queue in which nothing waits. -/
def empty : MessageQueue P := ⟨[], List.Pairwise.nil⟩

instance : Inhabited (MessageQueue P) := ⟨empty⟩

/-- Two queues with the same entries are equal. -/
theorem ext_entries {q r : MessageQueue P} (h : q.entries = r.entries) : q = r := by
  cases q; cases r; cases h; rfl

/-! ## Unions -/

/-- In a sorted list nothing comes before its head. -/
theorem lt_key_of_mem {k : Key} {e x : Message P} {es : List (Message P)} (hs : KeySorted (e :: es))
    (hk : k < e.key) (hx : x ∈ e :: es) : k < x.key := by
  rcases List.mem_cons.1 hx with hx | hx
  · exact hx ▸ hk
  · exact Key.lt_trans hk ((List.pairwise_cons.1 hs).1 x hx)

/-- Sorted lists with the same messages are equal. -/
theorem eq_of_mem_iff {as bs : List (Message P)} (ha : KeySorted as) (hb : KeySorted bs)
    (h : ∀ x, x ∈ as ↔ x ∈ bs) : as = bs := by
  induction as generalizing bs with
  | nil =>
    cases bs with
    | nil => rfl
    | cons b bs => exact absurd ((h b).2 List.mem_cons_self) List.not_mem_nil
  | cons a as ih =>
    cases bs with
    | nil => exact absurd ((h a).1 List.mem_cons_self) List.not_mem_nil
    | cons b bs =>
      have hcons := List.pairwise_cons.1 ha
      have hcons' := List.pairwise_cons.1 hb
      have hab : a = b := by
        rcases List.mem_cons.1 ((h a).1 List.mem_cons_self) with hab | hab
        · exact hab
        · rcases List.mem_cons.1 ((h b).2 List.mem_cons_self) with hba | hba
          · exact hba.symm
          · exact absurd (Key.lt_trans (hcons'.1 a hab) (hcons.1 b hba)) (Key.lt_irrefl _)
      subst hab
      rw [ih hcons.2 hcons'.2 fun x => ?_]
      constructor
      · intro hx
        rcases List.mem_cons.1 ((h x).1 (List.mem_cons_of_mem _ hx)) with hxa | hxb
        · exact absurd (hxa ▸ hcons.1 x hx) (Key.lt_irrefl _)
        · exact hxb
      · intro hx
        rcases List.mem_cons.1 ((h x).2 (List.mem_cons_of_mem _ hx)) with hxa | hxb
        · exact absurd (hxa ▸ hcons'.1 x hx) (Key.lt_irrefl _)
        · exact hxb

/-- Two sorted lists as one. Of two messages with the same key, that of the first list is kept. -/
def unionEntries : List (Message P) → List (Message P) → List (Message P)
  | [], bs => bs
  | a :: as, [] => a :: as
  | a :: as, b :: bs =>
    if a.key < b.key then a :: unionEntries as (b :: bs)
    else if b.key < a.key then b :: unionEntries (a :: as) bs
    else a :: unionEntries as bs
termination_by as bs => as.length + bs.length

theorem mem_unionEntries_imp {x : Message P} {as bs : List (Message P)} (h : x ∈ unionEntries as bs) :
    x ∈ as ∨ x ∈ bs := by
  fun_induction unionEntries as bs with
  | case1 bs => exact Or.inr h
  | case2 a as => exact Or.inl h
  | case3 a as b bs _ ih => grind
  | case4 a as b bs _ _ ih => grind
  | case5 a as b bs _ _ ih => grind

theorem sorted_unionEntries {as bs : List (Message P)} (ha : KeySorted as) (hb : KeySorted bs) :
    KeySorted (unionEntries as bs) := by
  fun_induction unionEntries as bs with
  | case1 bs => exact hb
  | case2 a as => exact ha
  | case3 a as b bs hab ih =>
    refine List.pairwise_cons.2 ⟨fun x hx => ?_, ih ha.rest hb⟩
    rcases mem_unionEntries_imp hx with hx | hx
    · exact (List.pairwise_cons.1 ha).1 x hx
    · exact lt_key_of_mem hb hab hx
  | case4 a as b bs _ hba ih =>
    refine List.pairwise_cons.2 ⟨fun x hx => ?_, ih ha hb.rest⟩
    rcases mem_unionEntries_imp hx with hx | hx
    · exact lt_key_of_mem ha hba hx
    · exact (List.pairwise_cons.1 hb).1 x hx
  | case5 a as b bs hab hba ih =>
    have heq : a.key = b.key := Key.eq_of_not_lt hab hba
    refine List.pairwise_cons.2
      ⟨fun x hx => ?_, ih ha.rest hb.rest⟩
    rcases mem_unionEntries_imp hx with hx | hx
    · exact (List.pairwise_cons.1 ha).1 x hx
    · exact heq ▸ (List.pairwise_cons.1 hb).1 x hx

/-- The messages of the first list survive, and those of the second one whose keys are new. -/
theorem mem_unionEntries {x : Message P} {as bs : List (Message P)} (ha : KeySorted as)
    (hb : KeySorted bs) : x ∈ unionEntries as bs ↔ x ∈ as ∨ x ∈ bs ∧ ∀ a ∈ as, a.key ≠ x.key := by
  fun_induction unionEntries as bs with
  | case1 bs => simp
  | case2 a as => simp
  | case3 a as b bs hab ih =>
    have hnew : x ∈ b :: bs → a.key ≠ x.key := fun hx h =>
      Key.lt_irrefl _ (h ▸ lt_key_of_mem hb hab hx)
    have ih := ih ha.rest hb
    grind
  | case4 a as b bs _ hba ih =>
    have hnew : ∀ y ∈ a :: as, y.key ≠ b.key := fun y hy h =>
      Key.lt_irrefl _ (h ▸ lt_key_of_mem ha hba hy)
    have ih := ih ha hb.rest
    grind
  | case5 a as b bs hab hba ih =>
    have heq : a.key = b.key := Key.eq_of_not_lt hab hba
    have hnew : x ∈ bs → a.key ≠ x.key := fun hx h =>
      Key.lt_irrefl _ (h ▸ heq ▸ (List.pairwise_cons.1 hb).1 x hx)
    have ih := ih ha.rest hb.rest
    grind

/-- All messages of two queues. Of two messages with the same key, that of the first queue is kept. -/
def union (q r : MessageQueue P) : MessageQueue P :=
  ⟨unionEntries q.entries r.entries, sorted_unionEntries q.sorted r.sorted⟩

/-- Two queues with the same messages are equal. -/
theorem ext_mem {q r : MessageQueue P} (h : ∀ x, x ∈ q.entries ↔ x ∈ r.entries) : q = r :=
  ext_entries (eq_of_mem_iff q.sorted r.sorted h)

/-- The messages of a union. -/
theorem mem_union {q r : MessageQueue P} {x : Message P} :
    x ∈ (q.union r).entries ↔ x ∈ q.entries ∨ x ∈ r.entries ∧ ∀ m ∈ q.entries, m.key ≠ x.key :=
  mem_unionEntries q.sorted r.sorted

/-! ## Insertion -/

/-- Puts a message into the queue. A message with the same key is replaced. -/
def put (q : MessageQueue P) (m : Message P) : MessageQueue P :=
  union ⟨[m], List.pairwise_singleton _ _⟩ q

/-- The messages after an insertion: the new one, and the old ones with other keys. -/
theorem mem_put {q : MessageQueue P} {m x : Message P} :
    x ∈ (q.put m).entries ↔ x = m ∨ x ∈ q.entries ∧ x.key ≠ m.key := by
  rw [put, mem_union]
  simp [eq_comm]

/-- The queue of some messages. Of two messages with the same key, the later one is kept. The halves are
brought into order one by one and then united. -/
def ofList : List (Message P) → MessageQueue P
  | [] => empty
  | [m] => ⟨[m], List.pairwise_singleton _ _⟩
  | m :: n :: ms =>
    (ofList ((m :: n :: ms).drop ((ms.length + 2) / 2))).union
      (ofList ((m :: n :: ms).take ((ms.length + 2) / 2)))
termination_by ms => ms.length
decreasing_by
  · simp only [List.length_drop, List.length_cons]
    omega
  · simp only [List.length_take, List.length_cons]
    omega

/-- Puts messages into the queue, as if one after another. They are brought into order first, so that the
queue is gone through once. -/
def putAll (q : MessageQueue P) (ms : List (Message P)) : MessageQueue P := (ofList ms).union q

/-- What is put into the first of two queues goes into their union. -/
theorem put_union {q r : MessageQueue P} {m : Message P} : (q.put m).union r = (q.union r).put m := by
  refine ext_mem fun x => ?_
  simp only [mem_union, mem_put]
  grind

/-- What is put into the first of two queues, one after another, goes into their union. -/
theorem foldl_put_union {q r : MessageQueue P} {ms : List (Message P)} :
    (ms.foldl put q).union r = ms.foldl put (q.union r) := by
  induction ms generalizing q with
  | nil => rfl
  | cons m ms ih => rw [List.foldl_cons, List.foldl_cons, ih, put_union]

/-- Nothing is added to a queue by the empty one. -/
theorem empty_union {q : MessageQueue P} : empty.union q = q :=
  ext_mem fun x => by simp [mem_union, empty]

/-- The queue of some messages arises when they are put into the empty queue one after another. -/
theorem ofList_eq_foldl {ms : List (Message P)} : ofList ms = ms.foldl put empty := by
  fun_induction ofList ms with
  | case1 => rfl
  | case2 m => exact (ext_mem fun x => by simp [mem_put, empty])
  | case3 m n ms ih₁ ih₂ =>
    rw [ih₁, ih₂, foldl_put_union, empty_union, ← List.foldl_append, List.take_append_drop]

/-- Messages are put into the queue one after another. -/
theorem putAll_eq_foldl {q : MessageQueue P} {ms : List (Message P)} : q.putAll ms = ms.foldl put q := by
  rw [putAll, ofList_eq_foldl, foldl_put_union, empty_union]

/-! ## Removal -/

/-- The queue holds a message with this key. -/
def contains (q : MessageQueue P) (k : Key) : Bool := q.entries.any (fun m => m.key = k)

/-- Removes the message with this key, if there is one. -/
def erase (q : MessageQueue P) (k : Key) : MessageQueue P :=
  ⟨q.entries.filter (fun m => m.key ≠ k), q.sorted.filter _⟩

/-- Withdraws the named message. Tells whether it was still there; a message that has been delivered or
withdrawn before is simply not found. -/
def remove (q : MessageQueue P) (h : Handle) : Bool × MessageQueue P :=
  (q.contains h.key, q.erase h.key)

/-- The messages after a withdrawal. -/
theorem mem_remove {q : MessageQueue P} {h : Handle} {x : Message P} :
    x ∈ (q.remove h).2.entries ↔ x ∈ q.entries ∧ x.key ≠ h.key := by
  simp [remove, erase]

/-! ## Reading and draining -/

/-- The message that is due first. -/
def peekNext (q : MessageQueue P) : Option (Message P) := q.entries.head?

/-- When the first message is due. -/
def nextTime (q : MessageQueue P) : Option SimTime := q.peekNext.map (·.time)

/-- Takes out the first message if it is due by the limit. -/
def popNextUpTo (q : MessageQueue P) (limit : SimTime) : Option (Message P) × MessageQueue P :=
  match q with
  | ⟨[], h⟩ => (none, ⟨[], h⟩)
  | ⟨m :: ms, h⟩ =>
    if limit < m.time then (none, ⟨m :: ms, h⟩) else (some m, ⟨ms, h.rest⟩)

/-- Takes out every message that is due by the limit, in order. -/
def popUpTo (q : MessageQueue P) (limit : SimTime) : List (Message P) × MessageQueue P :=
  (q.entries.takeWhile (fun m => m.time ≤ limit),
    ⟨q.entries.dropWhile (fun m => m.time ≤ limit), q.sorted.sublist (List.dropWhile_sublist _)⟩)

/-- Every message is taken out or stays, whichever its time says. -/
theorem mem_popUpTo {q : MessageQueue P} {limit : SimTime} {x : Message P} :
    (x ∈ (q.popUpTo limit).1 ↔ x ∈ q.entries ∧ x.time ≤ limit) ∧
      (x ∈ (q.popUpTo limit).2.entries ↔ x ∈ q.entries ∧ ¬ x.time ≤ limit) := by
  have key : ∀ es : List (Message P), KeySorted es →
      (x ∈ es.takeWhile (fun m => m.time ≤ limit) ↔ x ∈ es ∧ x.time ≤ limit) ∧
        (x ∈ es.dropWhile (fun m => m.time ≤ limit) ↔ x ∈ es ∧ ¬ x.time ≤ limit) := by
    intro es hs
    induction es with
    | nil => simp
    | cons e es ih =>
      have hcons := List.pairwise_cons.1 hs
      have ih := ih hcons.2
      by_cases he : e.time ≤ limit
      · rw [List.takeWhile_cons_of_pos (by simpa using he),
          List.dropWhile_cons_of_pos (by simpa using he), List.mem_cons, List.mem_cons, ih.1, ih.2]
        constructor
        · constructor
          · rintro (h | h)
            · exact ⟨Or.inl h, h ▸ he⟩
            · exact ⟨Or.inr h.1, h.2⟩
          · rintro ⟨h | h, hx⟩
            · exact Or.inl h
            · exact Or.inr ⟨h, hx⟩
        · constructor
          · rintro h
            exact ⟨Or.inr h.1, h.2⟩
          · rintro ⟨h | h, hx⟩
            · exact absurd (h ▸ he) hx
            · exact ⟨h, hx⟩
      · have hlate : ∀ y ∈ e :: es, ¬ y.time ≤ limit := by
          intro y hy
          rcases List.mem_cons.1 hy with hy | hy
          · exact hy ▸ he
          · have hle : e.time.rank.toNat ≤ y.time.rank.toNat := by
              rcases hcons.1 y hy with h | ⟨h, _⟩
              · exact Nat.le_of_lt (SimTime.lt_iff_toNat.1 h)
              · exact Nat.le_of_eq (congrArg (fun t => t.rank.toNat) h)
            rw [SimTime.le_iff_toNat] at he ⊢
            omega
        rw [List.takeWhile_cons_of_neg (by simpa using he),
          List.dropWhile_cons_of_neg (by simpa using he)]
        exact ⟨⟨fun h => absurd h (List.not_mem_nil), fun h => absurd h.2 (hlate x h.1)⟩,
          ⟨fun h => ⟨h, hlate x h⟩, fun h => h.1⟩⟩
  exact key q.entries q.sorted

/-- The number of waiting messages. -/
def size (q : MessageQueue P) : Nat := q.entries.length

/-- Nothing waits. -/
def isEmpty (q : MessageQueue P) : Bool := q.entries.isEmpty

/-! ## Batches of envelopes -/

/-- Withdraws the named messages one after another and counts those that were there. -/
def removeAll (q : MessageQueue P) : List Handle → Nat × MessageQueue P
  | [] => (0, q)
  | h :: hs =>
    let (found, q) := q.remove h
    let (n, q) := q.removeAll hs
    (if found then n + 1 else n, q)

/-- Applies a batch of envelopes: all deliveries first, then all cancellations, so that a message that
was scheduled and cancelled in one batch is never seen. Returns how many cancellations removed a
message. -/
def merge (q : MessageQueue P) (envelopes : List (Envelope P)) : Nat × MessageQueue P :=
  (q.putAll (envelopes.filterMap Envelope.delivery?)).removeAll
    (envelopes.filterMap Envelope.cancellation?)

end MessageQueue

end EventSim
