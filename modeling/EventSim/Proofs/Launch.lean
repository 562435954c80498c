import EventSim.Proofs.Placement
import EventSim.Proofs.Stages
import EventSim.Proofs.StartUp

set_option autoImplicit false

/-!
# From the setup to the first round

A run comes to a first round if there are units, the horizon moves, and all units start. From there on the
run is the sequence of its stages.

## Main definitions

* `EventSim.Scheduler.firstStage?` — the run before its first round, if it comes to one.
* `EventSim.Scheduler.slot?`, `EventSim.Scheduler.opening` — the units that are registered, and what is
  staged when they have started.
* `EventSim.Scheduler.history`, `outcome`, `afterRun` — what comes of a run.

## Main results

* `EventSim.Scheduler.Sound.firstStage?_eq_some_iff` — when a run comes to a first round.
* `EventSim.Scheduler.run_of_some` — the run from its first stage on.
* `EventSim.Scheduler.history_eq` — its history.
-/

namespace EventSim

namespace Scheduler

variable {U P : Type} [Payload P] [SimUnit U P] {s : Scheduler U P} {t : Stage U P} {u : UnitId}
  {x : Slot U}

/-! ## The first stage -/

/-- A registered unit, as it is placed. -/
def slot? (s : Scheduler U P) (u : UnitId) : Option (Slot U) :=
  (s.registered? u).map fun r => ⟨u, r.unit, r.nextSeq⟩

omit [Payload P] [SimUnit U P] in
lemma slot?_of_registered? {r : Registered U} (hr : s.registered? u = some r) :
    s.slot? u = some ⟨u, r.unit, r.nextSeq⟩ := by
  rw [slot?, hr, Option.map_some]

/-- All units that are placed, worker by worker. -/
def placed (s : Scheduler U P) : List (Slot U) := s.placement.slots.toList.flatMap (·.toList)

/-- What is staged before the first round: the seeds, and what the units send when they start. -/
def opening (s : Scheduler U P) : List (Envelope P) :=
  s.seeds.toList.map .deliver ++ s.placed.flatMap (·.opening s.table s.config.startTime)

/-- The engine before the first round, if all units start. -/
def firstEngine (s : Scheduler U P) : Engine U P :=
  engineOf s.table s.seeds (s.placement.slots.toList.map fun xs =>
    ⟨xs.toList.map (·.started s.table s.config.startTime),
      xs.toList.flatMap (·.opening s.table s.config.startTime), none⟩)

/-- The computation that starts all units. -/
def startUp (s : Scheduler U P) : Except Crash (List (StartUp U P)) :=
  (s.placement.slots.toList.map (·.toList)).mapM (StartUp.ofSlots s.table s.config.startTime)

/-- The run before its first round, if it comes to one. -/
def firstStage? (s : Scheduler U P) : Option (Stage U P) :=
  if s.state ≠ .setup then none
  else
    match s.leastLookahead with
    | none => none
    | some delta =>
      if s.config.startTime < (Horizon.first s.config.startTime delta).current then
        match s.seeds.find? fun m => (s.table.route? m.target).isNone with
        | some _ => none
        | none =>
          match s.startUp with
          | .error _ => none
          | .ok started =>
            match started.findSome? (·.fault) with
            | some _ => none
            | none =>
              some ⟨0, Horizon.first s.config.startTime delta, engineOf s.table s.seeds started⟩
      else none

/-- Everything that a run must pass before its first round. -/
lemma firstStage?_eq_some : s.firstStage? = some t ↔ ∃ delta started, s.state = .setup ∧
    s.leastLookahead = some delta ∧
    s.config.startTime < (Horizon.first s.config.startTime delta).current ∧
    (s.seeds.find? fun m => (s.table.route? m.target).isNone) = none ∧
    s.startUp = .ok started ∧ started.findSome? (·.fault) = none ∧
    t = ⟨0, Horizon.first s.config.startTime delta, engineOf s.table s.seeds started⟩ := by
  constructor
  · intro h
    unfold firstStage? at h
    split at h
    · cases h
    rename_i hstate
    split at h
    · cases h
    rename_i delta hdelta
    split at h
    rotate_left
    · cases h
    rename_i hlt
    split at h
    · cases h
    rename_i hseeds
    split at h
    · cases h
    rename_i started hstarted
    split at h
    · cases h
    rename_i hfault
    exact ⟨delta, started, not_not.1 hstate, hdelta, hlt, hseeds, hstarted, hfault,
      (Option.some.inj h).symm⟩
  · rintro ⟨delta, started, hstate, hdelta, hlt, hseeds, hstarted, hfault, rfl⟩
    unfold firstStage?
    rw [if_neg (not_not.2 hstate), hdelta]
    dsimp only
    rw [if_pos hlt, hseeds]
    dsimp only
    rw [hstarted]
    dsimp only
    rw [hfault]

/-! ## The run from its first stage -/

/-- The scheduler while its units are with the workers. -/
def vacated (s : Scheduler U P) : Scheduler U P :=
  { s with state := .running, units := Array.replicate s.units.size none, seeds := #[] }

/-- The scheduler when the workers have handed their units back. -/
def recovered (s : Scheduler U P) (e : Engine U P) : Scheduler U P :=
  s.vacated.restore (e.workers.toList.map (·.slots.toList))

/-- The end of a run that began at the given stage. -/
def concluded {α : Type} (observe : α → Observation P → α) (s : Scheduler U P) (t : Stage U P) (a : α)
    (e : Engine U P) : Except RunError Progress → α × Scheduler U P × RunOutcome
  | .error err => (a, { s.recovered e with state := .failed }, .failed err)
  | .ok p =>
    let stats := statsOf t.horizon.delta (t.engine.postbox.pendingDeliveries 0) e p
    (observe a (.runEnd stats), { s.recovered e with state := .finished, stats }, .finished stats)

/-- A run that comes to a first round goes through its stages. -/
lemma run_of_some {α : Type} (observe : α → Observation P → α) (a : α) (h : s.firstStage? = some t)
    {ts : List (Stage U P)} {l : Stage U P} (hl : t.stages s.config = ts ++ [l]) :
    s.run observe a = concluded observe s t ((ts ++ [l]).foldl (Stage.observed observe s.config)
      (observe a (.runStart t.horizon.delta s.config.workers))) (l.after s.config)
        (l.outcome s.config) := by
  obtain ⟨delta, started, hstate, hdelta, hlt, hseeds, hstarted, hfault, rfl⟩ := firstStage?_eq_some.1 h
  have hdrive := Stage.drive_eq observe (observe a (.runStart delta s.config.workers)) hl
  rw [Nat.zero_add] at hdrive
  unfold run
  rw [if_neg (not_not.2 hstate), hdelta]
  dsimp only
  rw [if_pos hlt]
  unfold execute
  dsimp only
  rw [show (s.seeds.find? fun m => ((⟨(Placement.ofUnits s.units s.config.workers).routes⟩ :
    RoutingTable).route? m.target).isNone) = none from hseeds]
  dsimp only
  rw [show ((Placement.ofUnits s.units s.config.workers).slots.toList.map (·.toList)).mapM
    (StartUp.ofSlots (P := P) ⟨(Placement.ofUnits s.units s.config.workers).routes⟩
      s.config.startTime) = .ok started from hstarted]
  dsimp only
  rw [hfault]
  dsimp only
  rw [show (engineOf ⟨(Placement.ofUnits s.units s.config.workers).routes⟩ s.seeds started).drive
    observe s.config 1 (Horizon.first s.config.startTime delta)
      (observe a (.runStart delta s.config.workers)) = _ from hdrive]
  dsimp only
  cases l.outcome s.config <;> rfl

/-- A run that does not come to a first round has no rounds. It ends without error just if there are no
units, and then changes nothing; a unit may also break down while it starts. -/
lemma run_of_none (h : s.firstStage? = none) :
    (s.run Engine.keepRecords #[]).1 = (#[] : Array (RoundRecord P)) ∧
      (s.state = .setup ∧ s.leastLookahead = none ∧
          (s.run (P := P) Engine.keepRecords #[]).2.2 =
            .finished { finalHorizon := s.config.startTime } ∧
          (s.run Engine.keepRecords #[]).2.1.units = s.units ∨
        (∃ e, (s.run (P := P) Engine.keepRecords #[]).2.2 = .failed e ∧
          (s.state = .setup → s.leastLookahead ≠ none)) ∨
        ∃ c, (s.run (P := P) Engine.keepRecords #[]).2.2 = .crashed c ∧ s.startUp = .error c) := by
  unfold run
  dsimp only
  split
  · rename_i hstate
    exact ⟨rfl, Or.inr (Or.inl ⟨_, rfl, fun h => absurd h hstate⟩)⟩
  rename_i hstate
  split
  · rename_i hnone
    exact ⟨rfl, Or.inl ⟨not_not.1 hstate, hnone, rfl, rfl⟩⟩
  rename_i delta hdelta
  have hsome : s.state = .setup → s.leastLookahead ≠ none := fun _ => by simp [hdelta]
  split
  rotate_left
  · exact ⟨rfl, Or.inr (Or.inl ⟨_, rfl, hsome⟩)⟩
  rename_i hlt
  unfold execute
  dsimp only
  split
  · exact ⟨rfl, Or.inr (Or.inl ⟨_, rfl, hsome⟩)⟩
  rename_i hseeds
  split
  · rename_i c hc
    exact ⟨rfl, Or.inr (Or.inr ⟨c, rfl, hc⟩)⟩
  rename_i started hstarted
  split
  · exact ⟨rfl, Or.inr (Or.inl ⟨_, rfl, hsome⟩)⟩
  rename_i hfault
  -- otherwise the run would come to a first round
  cases h.symm.trans
    (firstStage?_eq_some.2 ⟨delta, started, not_not.1 hstate, hdelta, hlt, hseeds, hstarted, hfault, rfl⟩)

/-- The records of all rounds of the run. -/
def history (s : Scheduler U P) : List (RoundRecord P) := (s.run Engine.keepRecords #[]).1.toList

/-- How the run ends. -/
def outcome (s : Scheduler U P) : RunOutcome := (s.run (P := P) Engine.keepRecords #[]).2.2

/-- The scheduler after the run. -/
def afterRun (s : Scheduler U P) : Scheduler U P := (s.run Engine.keepRecords #[]).2.1

/-- **The history of a run** consists of the records of its stages. -/
theorem history_eq (s : Scheduler U P) :
    s.history = (s.firstStage?.elim [] (·.stages s.config)).map (·.record s.config) := by
  cases h : s.firstStage? with
  | none => rw [history, (run_of_none h).1]; rfl
  | some t =>
    obtain ⟨ts, l, hl, _⟩ := Stage.exists_last s.config t
    rw [history, run_of_some _ _ h hl, Option.elim_some, hl]
    have hrecords : ((ts ++ [l]).foldl (Stage.observed Engine.keepRecords s.config) #[]).toList =
        (ts ++ [l]).map (·.record s.config) := by
      change ((ts ++ [l]).foldl (fun rs t => rs.push (t.record s.config)) #[]).toList = _
      simp
    rw [← hrecords]
    cases l.outcome s.config <;> rfl

/-! ## When there is a first round -/

omit [Payload P] [SimUnit U P] in
/-- The list of all units contains those that are registered. -/
lemma mem_unitList {r : Registered U} (h : s.registered? u = some r) :
    (Id.ofNat u.index, r.unit) ∈ s.unitList := by
  rw [registered?_eq, Option.join_eq_some_iff] at h
  refine List.mem_filterMap.2 ⟨(some r, u.index), List.mem_zipIdx_iff_getElem?.2 ?_, rfl⟩
  rwa [Array.getElem?_toList]

omit [Payload P] in
/-- If there is no least lookahead, there are no units. -/
lemma registered?_eq_none (h : s.leastLookahead = none) (u : UnitId) : s.registered? u = none := by
  rw [leastLookahead, SimTime.earliest?_eq_none_iff, List.map_eq_nil_iff] at h
  by_contra hne
  obtain ⟨r, hr⟩ := Option.ne_none_iff_exists'.1 hne
  have hmem := mem_unitList hr
  rw [h] at hmem
  cases hmem

namespace Sound

omit [Payload P] [SimUnit U P] in
/-- The units that are placed are those that are registered. -/
lemma mem_placed (hs : s.Sound) : x ∈ s.placed ↔ s.slot? x.id = some x := by
  rw [placed, List.mem_flatMap]
  constructor
  · rintro ⟨xs, hxs, hx⟩
    obtain ⟨w, hw⟩ := List.getElem?_of_mem hxs
    obtain ⟨k, hk⟩ := List.getElem?_of_mem hx
    rw [Array.getElem?_toList] at hw hk
    obtain ⟨r, hr, _, hxr, _⟩ := hs.of_slot (w := w) (k := k) (x := x) (by
      rw [Placement.slot?, hw]; exact hk)
    rw [slot?, hr, Option.map_some, ← hxr]
  · intro h
    obtain ⟨r, hr, hxr⟩ := Option.map_eq_some_iff.1 h
    obtain ⟨k, _, hk⟩ := hs.exists_route hr
    obtain ⟨xs, hxs, hx⟩ := Option.bind_eq_some_iff.1 hk
    rw [hxr] at hx
    rw [← Array.getElem?_toList] at hxs hx
    exact ⟨xs, List.mem_of_getElem? hxs, List.mem_of_getElem? hx⟩

omit [Payload P] in
/-- If there is no least lookahead, no unit is placed. -/
lemma placed_eq_nil (hs : s.Sound) (h : s.leastLookahead = none) : s.placed = [] :=
  List.eq_nil_iff_forall_not_mem.2 fun x hx => by
    have hx := hs.mem_placed.1 hx
    rw [slot?, registered?_eq_none h] at hx
    cases hx

omit [Payload P] [SimUnit U P] in
lemma id_of_slot? (hx : s.slot? u = some x) : x.id = u := by
  obtain ⟨r, _, rfl⟩ := Option.map_eq_some_iff.1 hx
  rfl

omit [Payload P] [SimUnit U P] in
/-- All units of all workers are those that are registered. -/
lemma forall_placed (hs : s.Sound) {p : Slot U → Prop} :
    (∀ xs ∈ s.placement.slots.toList.map (·.toList), ∀ x ∈ xs, p x) ↔
      ∀ u x, s.slot? u = some x → p x := by
  have hflat : (∀ xs ∈ s.placement.slots.toList.map (·.toList), ∀ x ∈ xs, p x) ↔
      ∀ x ∈ s.placed, p x := by
    rw [placed]
    simp only [List.forall_mem_map, List.forall_mem_flatMap]
  rw [hflat]
  constructor
  · intro h u x hx
    exact h x (hs.mem_placed.2 (by rw [id_of_slot? hx, hx]))
  · intro h x hx
    exact h x.id x (hs.mem_placed.1 hx)

omit [Payload P] [SimUnit U P] in
/-- All seeds are for units that are there. -/
lemma find?_seeds (hs : s.Sound) : (s.seeds.find? fun m => (s.table.route? m.target).isNone) = none := by
  rw [← Array.find?_toList, List.find?_eq_none]
  intro m hm hnone
  have hsome := hs.seed_target m hm
  rw [← hs.isSome_route?] at hsome
  rw [Option.isNone_iff_eq_none] at hnone
  simp [hnone] at hsome

/-- The setup of the run succeeds just if all registered units start. -/
lemma startUp_eq_iff (hs : s.Sound) {started : List (StartUp U P)} :
    s.startUp = .ok started ∧ started.findSome? (·.fault) = none ↔
      (∀ u x, s.slot? u = some x → x.Starts s.table s.config.startTime) ∧
        started = s.placement.slots.toList.map fun xs =>
          ⟨xs.toList.map (·.started s.table s.config.startTime),
            xs.toList.flatMap (·.opening s.table s.config.startTime), none⟩ := by
  rw [startUp, StartUp.mapM_ofSlots_iff, hs.forall_placed, List.map_map]
  rfl

/-- No unit breaks down when the units are started, if none does by itself. -/
lemma startUp_ne_error (hs : s.Sound)
    (h : ∀ u x, s.slot? u = some x → x.Survives s.table s.config.startTime) (c : Crash) :
    s.startUp ≠ .error c := by
  obtain ⟨us, hus⟩ := StartUp.exists_mapM_ofSlots (hs.forall_placed.2 h)
  rw [startUp, hus]
  simp

/-- **A run comes to a first round** if there are units, the horizon moves, and all units start. -/
theorem firstStage?_eq_some_iff (hs : s.Sound) : s.firstStage? = some t ↔
    ∃ delta, s.leastLookahead = some delta ∧
      s.config.startTime < (Horizon.first s.config.startTime delta).current ∧
      (∀ u x, s.slot? u = some x → x.Starts s.table s.config.startTime) ∧
      t = ⟨0, Horizon.first s.config.startTime delta, s.firstEngine⟩ := by
  rw [firstStage?_eq_some]
  constructor
  · rintro ⟨delta, started, _, hdelta, hlt, _, hstarted, hfault, rfl⟩
    obtain ⟨hall, rfl⟩ := hs.startUp_eq_iff.1 ⟨hstarted, hfault⟩
    exact ⟨delta, hdelta, hlt, hall, rfl⟩
  · rintro ⟨delta, hdelta, hlt, hall, rfl⟩
    obtain ⟨hstarted, hfault⟩ := hs.startUp_eq_iff.2 ⟨hall, rfl⟩
    exact ⟨delta, _, hs.state_eq, hdelta, hlt, hs.find?_seeds, hstarted, hfault, rfl⟩

end Sound

end Scheduler

end EventSim
