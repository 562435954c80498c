import EventSim.Engine.Scheduler
import EventSim.Proofs.Traversal
import EventSim.Proofs.UnitHistory

set_option autoImplicit false

/-!
# Starting units

The units of one worker start one after another. None of them can tell which others have started before, so
either all start, each as if it were alone, or the first that cannot ends the setup.

## Main definitions

* `EventSim.Slot.startCall`, `started`, `opening` — a unit that starts by itself.
* `EventSim.Slot.Survives`, `EventSim.Slot.Starts` — it does not break down, and it starts.

## Main results

* `EventSim.StartUp.ofSlots_cases` — how far the units of a worker come with starting.
* `EventSim.StartUp.ofSlots_eq_iff` — when all units of a worker start, and what comes of it.
* `EventSim.StartUp.mapM_ofSlots_iff` — the same for the units of all workers.
* `EventSim.StartUp.exists_ofSlots` — the setup is over unless a unit breaks down.
* `EventSim.Slot.startCall_congr` — a unit starts alike wherever it is placed.
-/

namespace EventSim

variable {U P : Type} [Payload P] [SimUnit U P] {table table' : RoutingTable} {start : SimTime}
  {x : Slot U} {xs : List (Slot U)}

namespace Slot

/-- The call in which a unit starts. -/
def startCall (table : RoutingTable) (start : SimTime) (x : Slot U) : Call U P :=
  (SimUnit.start x.unit ⟨x.id, start, start, 0⟩).run
    { view := ⟨x.id, start, start, 0⟩, table, nextSeq := x.nextSeq }

/-- The unit after it has started. -/
def started (table : RoutingTable) (start : SimTime) (x : Slot U) : Slot U :=
  { x with unit := (x.startCall table start).unit, nextSeq := (x.startCall table start).context.nextSeq }

/-- What the unit sends when it starts. -/
def opening (table : RoutingTable) (start : SimTime) (x : Slot U) : List (Envelope P) :=
  (x.startCall table start).context.sent.toList

/-- The unit does not break down when it starts. -/
def Survives (table : RoutingTable) (start : SimTime) (x : Slot U) : Prop :=
  ∀ c, (x.startCall table start).ending ≠ .crashed c

/-- The unit starts without complaint. -/
def Starts (table : RoutingTable) (start : SimTime) (x : Slot U) : Prop :=
  x.Survives table start ∧ (x.startCall table start).fault = none

@[simp] lemma started_id : (x.started table start).id = x.id := rfl

/-- A unit that starts only sends. -/
lemma startCall_sends (table : RoutingTable) (start : SimTime) (x : Slot U) :
    Context.Sends { view := ⟨x.id, start, start, 0⟩, table, nextSeq := x.nextSeq }
      (x.startCall table start).context (x.opening table start) := by
  obtain ⟨new, hnew⟩ := Script.run_sends (SimUnit.start x.unit ⟨x.id, start, start, 0⟩)
    { view := ⟨x.id, start, start, 0⟩, table, nextSeq := x.nextSeq }
  have hsent : x.opening table start = new := hnew.sent
  rw [hsent]
  exact hnew

lemma started_advances (table : RoutingTable) (start : SimTime) (x : Slot U) :
    x.Advances (x.started table start) (Envelope.messages (x.opening table start)) :=
  ⟨rfl, (startCall_sends table start x).nextSeq, (startCall_sends table start x).ids⟩

/-- **A unit starts alike wherever it is placed.** -/
theorem startCall_congr (ht : table.SameUnits table') (start : SimTime) (x : Slot U) :
    x.startCall table start = (x.startCall table' start).withTable table :=
  Script.run_withTable (SimUnit.start x.unit ⟨x.id, start, start, 0⟩)
    (c := { view := ⟨x.id, start, start, 0⟩, table := table', nextSeq := x.nextSeq }) ht

lemma started_congr (ht : table.SameUnits table') (start : SimTime) (x : Slot U) :
    x.started table start = x.started table' start ∧ x.opening table start = x.opening table' start := by
  simp only [started, opening, startCall_congr ht]
  exact ⟨rfl, rfl⟩

lemma survives_congr (ht : table.SameUnits table') (start : SimTime) (x : Slot U) :
    x.Survives table start ↔ x.Survives table' start := by
  simp only [Survives, startCall_congr ht]
  exact Iff.rfl

lemma starts_congr (ht : table.SameUnits table') (start : SimTime) (x : Slot U) :
    x.Starts table start ↔ x.Starts table' start := by
  simp only [Starts, survives_congr ht, Call.fault, startCall_congr ht]
  exact Iff.rfl

end Slot

namespace StartUp

/-- The first unit starts, and then the others. -/
lemma ofSlots_cons_of_starts (hx : x.Starts table start) : ofSlots table start (x :: xs) =
    (ofSlots table start xs).map fun others =>
      ⟨x.started table start :: others.slots, x.opening table start ++ others.sent, others.fault⟩ := by
  obtain ⟨hsurvives, hfault⟩ := hx
  rw [ofSlots]
  dsimp only
  split
  · rename_i c hc
    exact absurd hc (hsurvives c)
  · split
    · rename_i e he
      exact absurd (hfault.symm.trans he) (by simp)
    · cases ofSlots table start xs <;> rfl

/-- If the first unit complains, the others do not start. -/
lemma ofSlots_cons_of_fault (hsurvives : x.Survives table start) {e : UnitError}
    (hfault : (x.startCall table start).fault = some e) : ofSlots table start (x :: xs) =
      .ok ⟨x.started table start :: xs, x.opening table start, some (.startUp x.id e)⟩ := by
  rw [ofSlots]
  dsimp only
  split
  · rename_i c hc
    exact absurd hc (hsurvives c)
  · split
    · rename_i e' he
      cases hfault.symm.trans he
      rfl
    · rename_i he
      exact absurd (hfault.symm.trans he) (by simp)

/-- If the first unit breaks down, the setup does. -/
lemma ofSlots_cons_of_crashed {c : Crash} (h : (x.startCall table start).ending = .crashed c) :
    ofSlots table start (x :: xs) = .error c := by
  rw [ofSlots]
  dsimp only
  split
  · rename_i c' hc
    cases h.symm.trans hc
    rfl
  · rename_i hno
    exact absurd h (hno c)

/-- **If the setup of a worker is over**, all its units have started, or those before the first one that
complains. That one has made its call, and the others are as they were. -/
theorem ofSlots_cases {u : StartUp U P} (h : ofSlots table start xs = .ok u) :
    (∀ x ∈ xs, x.Starts table start) ∧
        u = ⟨xs.map (·.started table start), xs.flatMap (·.opening table start), none⟩ ∨
      ∃ before x rest e, xs = before ++ x :: rest ∧ (∀ y ∈ before, y.Starts table start) ∧
        x.Survives table start ∧ (x.startCall table start).fault = some e ∧
          u = ⟨before.map (·.started table start) ++ x.started table start :: rest,
            before.flatMap (·.opening table start) ++ x.opening table start, some (.startUp x.id e)⟩ := by
  induction xs generalizing u with
  | nil =>
    cases h
    exact Or.inl ⟨by simp, rfl⟩
  | cons x xs ih =>
    by_cases hx : x.Survives table start
    · cases hfault : (x.startCall table start).fault with
      | some e =>
        rw [ofSlots_cons_of_fault hx hfault] at h
        exact Or.inr ⟨[], x, xs, e, rfl, by simp, hx, hfault, (Except.ok.inj h).symm⟩
      | none =>
        rw [ofSlots_cons_of_starts ⟨hx, hfault⟩] at h
        cases hothers : ofSlots table start xs with
        | error c =>
          rw [hothers] at h
          cases h
        | ok others =>
          rw [hothers] at h
          cases h
          rcases ih hothers with ⟨hall, rfl⟩ | ⟨before, y, rest, e, rfl, hbefore, hy, he, rfl⟩
          · exact Or.inl ⟨List.forall_mem_cons.2 ⟨⟨hx, hfault⟩, hall⟩, rfl⟩
          · exact Or.inr ⟨x :: before, y, rest, e, rfl, List.forall_mem_cons.2 ⟨⟨hx, hfault⟩, hbefore⟩, hy, he,
              by simp⟩
    · simp only [Slot.Survives, not_forall, not_not] at hx
      obtain ⟨c, hc⟩ := hx
      rw [ofSlots_cons_of_crashed hc] at h
      cases h

/-- Unless a unit breaks down, the setup is over, with or without a complaint. -/
lemma exists_ofSlots (h : ∀ x ∈ xs, x.Survives table start) : ∃ u, ofSlots table start xs = .ok u := by
  induction xs with
  | nil => exact ⟨_, rfl⟩
  | cons x xs ih =>
    have hx := h x List.mem_cons_self
    cases hfault : (x.startCall table start).fault with
    | some e => exact ⟨_, ofSlots_cons_of_fault hx hfault⟩
    | none =>
      obtain ⟨u, hu⟩ := ih fun y hy => h y (List.mem_cons_of_mem _ hy)
      rw [ofSlots_cons_of_starts ⟨hx, hfault⟩, hu]
      exact ⟨_, rfl⟩

/-- **All units of a worker start** just if each of them does by itself. -/
theorem ofSlots_eq_iff {u : StartUp U P} : ofSlots table start xs = .ok u ∧ u.fault = none ↔
    (∀ x ∈ xs, x.Starts table start) ∧
      u = ⟨xs.map (·.started table start), xs.flatMap (·.opening table start), none⟩ := by
  constructor
  · rintro ⟨h, hnone⟩
    rcases ofSlots_cases h with hall | ⟨_, _, _, _, _, _, _, _, rfl⟩
    · exact hall
    · cases hnone
  · rintro ⟨hall, rfl⟩
    obtain ⟨u, hu⟩ := exists_ofSlots fun x hx => (hall x hx).1
    rcases ofSlots_cases hu with ⟨_, rfl⟩ | ⟨before, x, rest, e, rfl, _, _, hfault, _⟩
    · exact ⟨hu, rfl⟩
    · cases hfault.symm.trans (hall x (by simp)).2

/-- **All units of all workers start** just if each of them does by itself. -/
theorem mapM_ofSlots_iff {xss : List (List (Slot U))} {us : List (StartUp U P)} :
    xss.mapM (ofSlots table start) = .ok us ∧ us.findSome? (·.fault) = none ↔
      (∀ xs ∈ xss, ∀ x ∈ xs, x.Starts table start) ∧ us = xss.map fun xs =>
        ⟨xs.map (·.started table start), xs.flatMap (·.opening table start), none⟩ := by
  rw [mapM_eq_ok_iff, List.findSome?_eq_none_iff]
  induction xss generalizing us with
  | nil => cases us <;> simp
  | cons xs xss ih =>
    cases us with
    | nil => simp
    | cons u us =>
      rw [List.map_cons, List.map_cons, List.map_cons, List.cons.injEq, List.cons.injEq,
        List.forall_mem_cons, List.forall_mem_cons]
      constructor
      · rintro ⟨⟨hu, hus⟩, hfault, hfaults⟩
        obtain ⟨hall, rfl⟩ := ofSlots_eq_iff.1 ⟨hu, hfault⟩
        obtain ⟨halls, rfl⟩ := ih.1 ⟨hus, hfaults⟩
        exact ⟨⟨hall, halls⟩, rfl, rfl⟩
      · rintro ⟨⟨hall, halls⟩, hu, hus⟩
        obtain ⟨hu', hfault⟩ := ofSlots_eq_iff.2 ⟨hall, hu⟩
        obtain ⟨hus', hfaults⟩ := ih.2 ⟨halls, hus⟩
        exact ⟨⟨hu', hus'⟩, hfault, hfaults⟩

/-- Unless a unit breaks down, the setup is over at all workers. -/
lemma exists_mapM_ofSlots {xss : List (List (Slot U))}
    (h : ∀ xs ∈ xss, ∀ x ∈ xs, x.Survives table start) :
    ∃ us, xss.mapM (ofSlots table start) = .ok us := by
  induction xss with
  | nil => exact ⟨[], rfl⟩
  | cons xs xss ih =>
    obtain ⟨u, hu⟩ := exists_ofSlots (h xs List.mem_cons_self)
    obtain ⟨us, hus⟩ := ih fun ys hys => h ys (List.mem_cons_of_mem _ hys)
    exact ⟨u :: us, mapM_eq_ok_iff.2 (by rw [List.map_cons, List.map_cons, hu, mapM_eq_ok_iff.1 hus])⟩

end StartUp

end EventSim
