import EventSim.Message.Postbox
import EventSim.Proofs.QueueContents

set_option autoImplicit false

/-!
# Staged envelopes

What a worker finds in the slot of a round is what was there before and what was posted in rounds of that
parity for units of its own, in the order of posting. A batch whose targets all have an owner is divided
among the workers without loss.

## Main definitions

* `EventSim.RoutingTable.owner?` — the number of the worker that owns a unit.
* `EventSim.Postbox.staged` — what is staged for one worker.
* `EventSim.Postbox.envelopes`, `EventSim.Postbox.messages` — what is staged for all of them.

## Main results

* `EventSim.Postbox.staged_postAll` — posting appends each worker's share.
* `EventSim.Postbox.staged_postAll_of_ne`, `EventSim.Postbox.staged_clear_of_ne` — the slot of the other
  parity is not touched.
* `EventSim.Postbox.messages_postAll` — no message gets lost on its way to an inbox.
* `EventSim.Postbox.earliest_eq` — when the first staged message is due.
-/

namespace EventSim

/-! ### Internal helpers: dividing a list -/

/-- A list is divided completely by keys that are all different. -/
lemma flatMap_filter_perm {α κ : Type} [DecidableEq κ] {keys : List κ} (hn : keys.Nodup) {f : α → κ} (xs : List α)
    (h : ∀ x ∈ xs, f x ∈ keys) : (keys.flatMap fun k => xs.filter (f · = k)).Perm xs := by
  induction keys generalizing xs with
  | nil =>
    obtain rfl : xs = [] := List.eq_nil_iff_forall_not_mem.2 fun x hx => List.not_mem_nil (h x hx)
    exact List.Perm.refl _
  | cons k keys ih =>
    obtain ⟨hk, hn⟩ := List.nodup_cons.1 hn
    -- the other keys divide what does not have the first one
    have hrest : (keys.flatMap fun k' => xs.filter (f · = k')) =
        keys.flatMap fun k' => (xs.filter fun x => !decide (f x = k)).filter (f · = k') := by
      refine List.flatMap_congr fun k' hk' => ?_
      rw [List.filter_filter]
      refine List.filter_congr fun x _ => ?_
      by_cases hx : f x = k'
      · have hne : k' ≠ k := fun heq => hk (heq ▸ hk')
        simp [hx, hne]
      · simp [hx]
    rw [List.flatMap_cons, hrest]
    refine (List.Perm.append_left _ (ih hn _ fun x hx => ?_)).trans (List.filter_append_perm _ xs)
    rw [List.mem_filter] at hx
    exact (List.mem_cons.1 (h x hx.1)).resolve_left (by simpa using hx.2)

/-- Keys that are all different pick elements of a list, none of them twice. -/
lemma flatMap_filter_subperm {α κ : Type} [DecidableEq κ] {keys : List κ} (hn : keys.Nodup) (f : α → κ) (xs : List α) :
    (keys.flatMap fun k => xs.filter (f · = k)).Subperm xs := by
  have hpicked : (keys.flatMap fun k => xs.filter (f · = k)) =
      keys.flatMap fun k => (xs.filter (f · ∈ keys)).filter (f · = k) := by
    refine List.flatMap_congr fun k hk => ?_
    rw [List.filter_filter]
    refine List.filter_congr fun x _ => ?_
    by_cases hx : f x = k
    · simp [hx, hk]
    · simp [hx]
  rw [hpicked]
  refine (flatMap_filter_perm hn _ fun x hx => ?_).subperm.trans List.filter_sublist.subperm
  exact of_decide_eq_true (List.mem_filter.1 hx).2

/-- A list is divided completely if all of its elements have numbers in range. -/
lemma flatMap_range_filter_perm_self {α : Type} {f : α → Option Nat} {xs : List α} {n : Nat}
    (h : ∀ x ∈ xs, ∃ i < n, f x = some i) :
    ((List.range n).flatMap fun i => xs.filter fun x => f x = some i).Perm xs := by
  have hkeys : ((List.range n).map some).Nodup := List.nodup_range.map fun _ _ => Option.some.inj
  have hdivided := flatMap_filter_perm hkeys (f := f) xs fun x hx => by
    obtain ⟨i, hi, hf⟩ := h x hx
    rw [hf]
    exact List.mem_map_of_mem (List.mem_range.2 hi)
  rwa [List.flatMap_map] at hdivided

/-- A list can be read by numbers. -/
lemma flatMap_range_getElem? {α β : Type} (xs : List α) (f : α → List β) :
    ((List.range xs.length).flatMap fun i => (xs[i]?.map f).getD []) = xs.flatMap f := by
  induction xs with
  | nil => rfl
  | cons x xs ih =>
    rw [List.length_cons, List.range_succ_eq_map, List.flatMap_cons, List.flatMap_map,
      List.flatMap_cons, ← ih]
    rfl

/-! ## Owners -/

/-- The number of the worker that owns a unit. -/
def RoutingTable.owner? (t : RoutingTable) (unit : UnitId) : Option Nat :=
  (t.route? unit).map (·.worker.index)

/-! ## Inboxes -/

namespace Inbox

variable {P : Type}

lemma slot_post (b : Inbox P) (round round' : Nat) (e : Envelope P) :
    (b.post round e).slot round' =
      if round' % 2 = round % 2 then (b.slot round').push e else b.slot round' := by
  rcases Nat.mod_two_eq_zero_or_one round with h | h <;>
    rcases Nat.mod_two_eq_zero_or_one round' with h' | h' <;> simp [post, slot, h, h']

lemma slot_clear (b : Inbox P) (round round' : Nat) :
    (b.clear round).slot round' = if round' % 2 = round % 2 then #[] else b.slot round' := by
  rcases Nat.mod_two_eq_zero_or_one round with h | h <;>
    rcases Nat.mod_two_eq_zero_or_one round' with h' | h' <;> simp [clear, slot, h, h']

end Inbox

namespace Postbox

variable {P : Type} {b : Postbox P} {round round' : Nat}

/-! ## What is staged for one worker -/

/-- The envelopes that are staged from the given round for the worker with the given number. -/
def staged (b : Postbox P) (worker round : Nat) : List (Envelope P) :=
  (b.inboxes[worker]?.map fun x => (x.slot round).toList).getD []

/-- The envelopes that are staged from the given round for all workers. -/
def envelopes (b : Postbox P) (round : Nat) : List (Envelope P) :=
  (List.range b.inboxes.size).flatMap fun i => b.staged i round

/-- The messages that are staged from the given round for all workers. -/
def messages (b : Postbox P) (round : Nat) : List (Message P) :=
  (List.range b.inboxes.size).flatMap fun i => Envelope.messages (b.staged i round)

@[simp] lemma table_deposit (e : Envelope P) : (b.deposit round e).table = b.table := by
  unfold deposit
  split <;> rfl

@[simp] lemma size_deposit (e : Envelope P) : (b.deposit round e).inboxes.size = b.inboxes.size := by
  unfold deposit
  split
  · exact Array.size_modify
  · rfl

@[simp] lemma table_postAll (es : List (Envelope P)) : (b.postAll round es).table = b.table := by
  induction es generalizing b with
  | nil => rfl
  | cons e es ih => exact ih.trans (table_deposit e)

@[simp] lemma size_postAll (es : List (Envelope P)) :
    (b.postAll round es).inboxes.size = b.inboxes.size := by
  induction es generalizing b with
  | nil => rfl
  | cons e es ih => exact ih.trans (size_deposit e)

@[simp] lemma table_clear : (b.clear round).table = b.table := rfl

@[simp] lemma size_clear : (b.clear round).inboxes.size = b.inboxes.size := Array.size_map

/-- Posting an envelope appends it to the slot of the round at the owner of its target. -/
lemma staged_deposit {i : Nat} (hi : i < b.inboxes.size) (e : Envelope P) :
    (b.deposit round e).staged i round' =
      b.staged i round' ++
        if round' % 2 = round % 2 ∧ b.table.owner? e.target = some i then [e] else [] := by
  unfold deposit RoutingTable.owner?
  cases hr : b.table.route? e.target with
  | none => simp
  | some r =>
    have hget : b.inboxes[i]? = some b.inboxes[i] := Array.getElem?_eq_getElem hi
    simp only [staged, Array.getElem?_modify, hget, Option.map_some, Option.getD_some]
    by_cases hw : r.worker.index = i
    · simp only [hw, ↓reduceIte, Option.map_some, Option.getD_some, Inbox.slot_post]
      by_cases hp : round' % 2 = round % 2 <;> simp [hp]
    · simp [hw]

/-- **Posting divides a batch among the workers**: the slot of the round is extended by each worker's
share, in order. -/
theorem staged_postAll {i : Nat} (hi : i < b.inboxes.size) (hr : round' % 2 = round % 2)
    (es : List (Envelope P)) :
    (b.postAll round es).staged i round' =
      b.staged i round' ++ es.filter fun e => b.table.owner? e.target = some i := by
  induction es generalizing b with
  | nil => simp [postAll]
  | cons e es ih =>
    have hcons : b.postAll round (e :: es) = (b.deposit round e).postAll round es := rfl
    rw [hcons, ih (by simpa using hi), staged_deposit hi, table_deposit, List.append_assoc,
      List.filter_cons]
    by_cases ho : b.table.owner? e.target = some i <;> simp [hr, ho]

/-- Posting does not touch the slot of the other parity. -/
theorem staged_postAll_of_ne {i : Nat} (hr : round' % 2 ≠ round % 2) (es : List (Envelope P)) :
    (b.postAll round es).staged i round' = b.staged i round' := by
  induction es generalizing b with
  | nil => rfl
  | cons e es ih =>
    have hcons : b.postAll round (e :: es) = (b.deposit round e).postAll round es := rfl
    rw [hcons, ih]
    by_cases hi : i < b.inboxes.size
    · rw [staged_deposit hi]
      simp [hr]
    · have hi' : ¬ i < (b.deposit round e).inboxes.size := by simpa using hi
      simp only [staged, Array.getElem?_eq_none (Nat.le_of_not_lt hi),
        Array.getElem?_eq_none (Nat.le_of_not_lt hi')]

/-- Rounds of the same parity use the same slot. -/
lemma staged_congr {i : Nat} (hr : round' % 2 = round % 2) : b.staged i round' = b.staged i round := by
  simp only [staged, Inbox.slot, hr]

/-- The slot that is cleared is empty. -/
lemma staged_clear {i : Nat} (hr : round' % 2 = round % 2) : (b.clear round).staged i round' = [] := by
  simp only [staged, clear, Array.getElem?_map]
  cases b.inboxes[i]? <;> simp [Inbox.slot_clear, hr]

/-- Clearing does not touch the slot of the other parity. -/
lemma staged_clear_of_ne {i : Nat} (hr : round' % 2 ≠ round % 2) :
    (b.clear round).staged i round' = b.staged i round' := by
  simp only [staged, clear, Array.getElem?_map]
  cases b.inboxes[i]? <;> simp [Inbox.slot_clear, hr]

/-- Nothing is staged in a postbox with empty inboxes. -/
@[simp] lemma staged_empty (t : RoutingTable) (n i round : Nat) :
    (empty t n : Postbox P).staged i round = [] := by
  simp only [staged, empty, Array.getElem?_replicate]
  split <;> simp [Inbox.slot]

/-- Nothing is staged for a worker that is not there. -/
lemma staged_eq_nil_of_size_le {i : Nat} (hi : b.inboxes.size ≤ i) : b.staged i round = [] := by
  simp [staged, Array.getElem?_eq_none hi]

/-! ## What is staged for all workers -/

lemma messages_eq (b : Postbox P) (round : Nat) :
    b.messages round = b.inboxes.toList.flatMap (·.deliveries round) := by
  rw [← flatMap_range_getElem?, messages, Array.length_toList]
  apply List.flatMap_congr
  intro i _
  rw [staged, Array.getElem?_toList]
  cases b.inboxes[i]? <;> rfl

/-- The staged messages are counted. -/
lemma pendingDeliveries_eq (b : Postbox P) (round : Nat) :
    b.pendingDeliveries round = (b.messages round).length := by
  rw [messages_eq, List.length_flatMap]
  rfl

/-- The first staged message is found inbox by inbox. -/
lemma earliest_eq (b : Postbox P) (round : Nat) :
    b.earliest round = SimTime.earliest? ((b.messages round).map (·.time)) := by
  rw [messages_eq, List.map_flatMap]
  exact SimTime.earliest?_filterMap _ _

/-- What is found in a postbox describes the messages that are staged, in whatever order they are. -/
lemma figures_of_perm {ms : List (Message P)} (h : (b.messages round).Perm ms) :
    b.pendingDeliveries round = ms.length ∧ b.earliest round = SimTime.earliest? (ms.map (·.time)) := by
  rw [pendingDeliveries_eq, earliest_eq]
  exact ⟨h.length_eq, SimTime.earliest?_congr fun _ => (h.map _).mem_iff⟩

/-- **No message gets lost on its way to an inbox**, if all targets have owners. -/
theorem messages_postAll (hr : round' % 2 = round % 2) {es : List (Envelope P)}
    (ho : ∀ e ∈ es, ∃ i < b.inboxes.size, b.table.owner? e.target = some i) :
    ((b.postAll round es).messages round').Perm (b.messages round' ++ Envelope.messages es) := by
  have hstep : (b.postAll round es).messages round' = (List.range b.inboxes.size).flatMap fun i =>
      Envelope.messages (b.staged i round') ++
        Envelope.messages (es.filter fun e => b.table.owner? e.target = some i) := by
    rw [messages, size_postAll]
    apply List.flatMap_congr
    intro i hi
    rw [staged_postAll (List.mem_range.1 hi) hr, Envelope.messages_append]
  rw [hstep]
  refine (List.flatMap_append_perm _ _ _).symm.trans (List.Perm.append_left _ ?_)
  rw [← Envelope.messages_flatMap]
  exact (flatMap_range_filter_perm_self ho).filterMap _

/-- An envelope is staged if it is staged for some worker. -/
lemma mem_envelopes {e : Envelope P} : e ∈ b.envelopes round ↔ ∃ i, e ∈ b.staged i round := by
  rw [envelopes, List.mem_flatMap]
  constructor
  · rintro ⟨i, _, he⟩
    exact ⟨i, he⟩
  · rintro ⟨i, he⟩
    by_cases hi : i < b.inboxes.size
    · exact ⟨i, List.mem_range.2 hi, he⟩
    · rw [staged_eq_nil_of_size_le (Nat.le_of_not_lt hi)] at he
      cases he

/-- The staged messages are those of the staged envelopes. -/
lemma mem_messages {m : Message P} : m ∈ b.messages round ↔ .deliver m ∈ b.envelopes round := by
  rw [messages, ← Envelope.messages_flatMap, Envelope.mem_messages]
  rfl

end Postbox

end EventSim
