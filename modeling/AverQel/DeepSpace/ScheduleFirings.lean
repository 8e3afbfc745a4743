/- digest: Every due occurrence of a schedule fires once, in the runs that keep what they submit. -/
import AverQel.DeepSpace.Schedules

namespace AverQel.DeepSpace

open Foundation Interleaving Transition

namespace SchedulePoint

def holding : SchedulePoint → List Schedule
  | .looping _ rows firings => firings.map Firing.schedule ++ rows
  | _ => []

def inFlight : SchedulePoint → List Firing
  | .looping _ _ firings => firings
  | _ => []

end SchedulePoint

namespace ScheduleState

def Recorded (state : ScheduleState) (firing : Firing) : Prop :=
  ∃ run ∈ state.runs.rows, run.requestId = firing.requestId ∧
    run.scheduleId = firing.schedule.id ∧ run.tenantId = firing.schedule.tenantId ∧
    run.userId = firing.schedule.userId

/-- Every occurrence has one task, and once its invocation has ended, the task has a committed row
and is the last run of its schedule, up to a later occurrence. -/
structure FiresOnce (state : ScheduleState) : Prop where
  once : (state.submitted.map Firing.occurrence).Nodup
  recorded : ∀ firing ∈ state.ended, state.Recorded firing
  last : ∀ firing ∈ state.ended, (∀ other ∈ state.ended,
      other.schedule.id = firing.schedule.id →
        other.schedule.nextRunAt ≤ firing.schedule.nextRunAt) →
    ∀ schedule ∈ state.schedules.rows, schedule.id = firing.schedule.id →
      schedule.lastRunId = some firing.requestId

def KeepsFirings (state : ScheduleState) (turn : DispatchTurn) : SchedulePoint → Prop
  | .looping _ (_ :: _) firings => firings ≠ [] → turn.accepted = true
  | .looping _ [] firings => firings ≠ [] → turn.commits = true ∧
      (state.runs.rows.map ScheduleRun.requestId ++ firings.map Firing.requestId).Nodup
  | _ => True

/-- The rows of an invocation are locked, stored as they were claimed, and due. -/
structure Holds (state : ScheduleState) (point : SchedulePoint) : Prop where
  distinct : (point.holding.map Schedule.id).Nodup
  locked : ∀ row ∈ point.holding, row.id ∈ state.locked
  stored : ∀ row ∈ point.holding, state.schedules.find? row.id = some row
  past : ∀ now rows firings, point = .looping now rows firings →
    ∀ row ∈ point.holding, row.nextRunAt ≤ now

def Behind (state : ScheduleState) : Prop :=
  ∀ firing ∈ state.ended, ∀ row, state.schedules.find? firing.schedule.id = some row →
    firing.schedule.nextRunAt < row.nextRunAt

/-- What a step may do: it keeps the rows of others, locks rows that nobody holds, and hands its
tasks over to the ended ones. -/
structure Moves (state : ScheduleState) (point : SchedulePoint) (state' : ScheduleState)
    (point' : SchedulePoint) : Prop where
  holds : state'.Holds point'
  frame : ∀ row, row.id ∉ point.holding.map Schedule.id → row.id ∈ state.locked →
    state.schedules.find? row.id = some row →
      row.id ∈ state'.locked ∧ state'.schedules.find? row.id = some row
  fresh : ∀ row ∈ point'.holding, row.id ∈ point.holding.map Schedule.id ∨ row.id ∉ state.locked
  submits : ∀ firing ∈ state'.submitted, firing ∈ state.submitted ∨ firing ∈ point'.inFlight
  keeps : ∀ firing ∈ state.ended, firing ∈ state'.ended
  passes : ∀ firing ∈ point.inFlight, firing ∈ point'.inFlight ∨ firing ∈ state'.ended
  behind : state'.Behind
  fires : state'.FiresOnce

end ScheduleState

namespace ScheduleSystem

open ScheduleState

/-- What holds throughout a run that keeps its firings. -/
structure Orderly (s : ScheduleSystem) : Prop where
  holds : ∀ (i : Nat) (point : SchedulePoint), s.calls[i]? = some point → s.shared.Holds point
  apart : ∀ (i j : Nat) (point other : SchedulePoint), i ≠ j → s.calls[i]? = some point →
    s.calls[j]? = some other → ∀ row ∈ point.holding, row.id ∉ other.holding.map Schedule.id
  accounted : ∀ firing ∈ s.shared.submitted, firing ∈ s.shared.ended ∨
    ∃ (i : Nat) (point : SchedulePoint), s.calls[i]? = some point ∧ firing ∈ point.inFlight
  behind : s.shared.Behind
  fires : s.shared.FiresOnce

theorem orderly_of_moves {s : ScheduleSystem} (orderly : s.Orderly) {i : Nat}
    {point point' : SchedulePoint} {state' : ScheduleState} (here : s.calls[i]? = some point)
    (moves : s.shared.Moves point state' point') :
    Orderly ⟨state', s.calls.set i point'⟩ where
  holds j other at_ := by
    rcases (getElem?_set_iff here).mp at_ with ⟨_, rfl⟩ | ⟨differ, old⟩
    · exact moves.holds
    · have held := orderly.holds j other old
      have kept : ∀ row ∈ other.holding,
          row.id ∈ state'.locked ∧ state'.schedules.find? row.id = some row := fun row member =>
        moves.frame row (orderly.apart j i other point differ old here row member)
          (held.locked row member) (held.stored row member)
      exact ⟨held.distinct, fun row member => (kept row member).1,
        fun row member => (kept row member).2, held.past⟩
  apart j k p q differ atJ atK row member := by
    rcases (getElem?_set_iff here).mp atJ with ⟨mine, rfl⟩ | ⟨notMine, oldJ⟩
    · rcases (getElem?_set_iff here).mp atK with ⟨alsoMine, _⟩ | ⟨_, oldK⟩
      · exact absurd (mine.trans alsoMine.symm) differ
      · intro shared
        obtain ⟨other, held, same⟩ := List.mem_map.mp shared
        rcases moves.fresh row member with owned | free
        · obtain ⟨own, ownHeld, ownSame⟩ := List.mem_map.mp owned
          have apart := orderly.apart i k point q (mine ▸ differ) here oldK own ownHeld
          exact apart (List.mem_map.mpr ⟨other, held, same.trans ownSame.symm⟩)
        · exact free (same ▸ (orderly.holds k q oldK).locked other held)
    · rcases (getElem?_set_iff here).mp atK with ⟨mine, rfl⟩ | ⟨_, oldK⟩
      · intro shared
        obtain ⟨other, held, same⟩ := List.mem_map.mp shared
        rcases moves.fresh other held with owned | free
        · exact orderly.apart j i p point notMine oldJ here row member (same ▸ owned)
        · exact free (same ▸ (orderly.holds j p oldJ).locked row member)
      · exact orderly.apart j k p q differ oldJ oldK row member
  accounted firing submitted := by
    have self : (s.calls.set i point')[i]? = some point' := (getElem?_set_iff here).mpr (.inl ⟨rfl, rfl⟩)
    rcases moves.submits firing submitted with old | new
    · rcases orderly.accounted firing old with ended | ⟨j, p, atJ, flying⟩
      · exact .inl (moves.keeps firing ended)
      · by_cases mine : j = i
        · rw [mine, here] at atJ
          cases atJ
          rcases moves.passes firing flying with still | ended
          · exact .inr ⟨i, point', self, still⟩
          · exact .inl ended
        · exact .inr ⟨j, p, (getElem?_set_iff here).mpr (.inr ⟨mine, atJ⟩), flying⟩
    · exact .inr ⟨i, point', self, new⟩
  behind := moves.behind
  fires := moves.fires

variable {s : ScheduleSystem}

theorem mem_due {state : ScheduleState} {now : Time} {rank : Uuid → Nat} {row : Schedule}
    (member : row ∈ state.due now rank) :
    row ∈ state.schedules.rows ∧ row.nextRunAt ≤ now ∧ row.id ∉ state.locked := by
  have sorted := List.mem_of_mem_take member
  obtain ⟨known, due⟩ := List.mem_filter.mp ((List.mem_insertionSort _).mp sorted)
  exact ⟨known, (of_decide_eq_true due).2⟩

theorem nodup_due (state : ScheduleState) (now : Time) (rank : Uuid → Nat) :
    ((state.due now rank).map Schedule.id).Nodup := by
  let rows := state.schedules.rows.filter fun schedule => schedule.status = "active" ∧
    schedule.nextRunAt ≤ now ∧ schedule.id ∉ state.locked
  have kept : (rows.map Schedule.id).Nodup :=
    state.schedules.keys_nodup.sublist (List.filter_sublist.map _)
  have sorted : ((rows.insertionSort fun a b => rank a.id ≤ rank b.id).map Schedule.id).Nodup :=
    ((List.perm_insertionSort _ rows).map _).nodup_iff.mpr kept
  exact sorted.sublist ((List.take_sublist 100 _).map _)

theorem moves_claim (orderly : s.Orderly) (now : Time) (rank : Uuid → Nat) :
    s.shared.Moves (.called .dispatch) (s.shared.claim (s.shared.due now rank))
      (.looping now (s.shared.due now rank) []) where
  holds :=
    { distinct := nodup_due s.shared now rank
      locked := fun row member => List.mem_append_left _ (List.mem_map_of_mem member)
      stored := fun row member => Table.find?_eq_some_iff.mpr ⟨(mem_due member).1, rfl⟩
      past := by
        rintro _ _ _ ⟨⟩ row member
        exact (mem_due member).2.1 }
  frame _ _ locked stored := ⟨List.mem_append_right _ locked, stored⟩
  fresh row member := .inr (mem_due member).2.2
  submits _ submitted := .inl submitted
  keeps _ ended := ended
  passes _ flying := by cases flying
  behind := orderly.behind
  fires := ⟨orderly.fires.once, orderly.fires.recorded, orderly.fires.last⟩

theorem moves_submit (orderly : s.Orderly) {i : Nat} {now : Time} {schedule : Schedule}
    {rows : List Schedule} {firings : List Firing}
    (here : s.calls[i]? = some (.looping now (schedule :: rows) firings)) (requestId : String) :
    s.shared.Moves (.looping now (schedule :: rows) firings)
      (s.shared.submit ⟨schedule, requestId⟩)
      (.looping now rows (firings ++ [⟨schedule, requestId⟩])) := by
  have held := orderly.holds i _ here
  have same : (SchedulePoint.looping now rows (firings ++ [⟨schedule, requestId⟩])).holding =
      (SchedulePoint.looping now (schedule :: rows) firings).holding := by
    simp [SchedulePoint.holding]
  have own : schedule ∈ (SchedulePoint.looping now (schedule :: rows) firings).holding :=
    List.mem_append_right _ List.mem_cons_self
  have new : ∀ firing ∈ s.shared.submitted,
      firing.occurrence ≠ (schedule.id, schedule.nextRunAt) := by
    intro firing submitted equal
    obtain ⟨sameId, sameTime⟩ := Prod.mk.inj equal
    rcases orderly.accounted firing submitted with ended | ⟨j, point, atJ, flying⟩
    · have later := orderly.behind firing ended schedule (sameId ▸ held.stored schedule own)
      exact Int.ne_of_lt later sameTime
    · have holds : firing.schedule ∈ point.holding := by
        cases point with
        | looping => exact List.mem_append_left _ (List.mem_map_of_mem flying)
        | called _ | returned _ | raised => cases flying
      by_cases mine : j = i
      · rw [mine, here] at atJ
        cases atJ
        have distinct := held.distinct
        rw [SchedulePoint.holding, List.map_append, List.nodup_append] at distinct
        exact distinct.2.2 _ (List.mem_map_of_mem (List.mem_map_of_mem flying)) _
          (List.mem_map_of_mem List.mem_cons_self) sameId
      · exact orderly.apart j i point _ mine atJ here _ holds
          (sameId ▸ List.mem_map_of_mem own)
  exact
    { holds :=
        { distinct := same ▸ held.distinct
          locked := fun row member => held.locked row (same ▸ member)
          stored := fun row member => held.stored row (same ▸ member)
          past := by
            rintro _ _ _ ⟨⟩ row member
            exact held.past now _ firings rfl row (same ▸ member) }
      frame := fun _ _ locked stored => ⟨locked, stored⟩
      fresh := fun row member => .inl (List.mem_map_of_mem (same ▸ member))
      submits := fun firing submitted =>
        (List.mem_append.mp submitted).imp_right fun last =>
          List.mem_append_right _ last
      keeps := fun _ ended => ended
      passes := fun _ flying => .inl (List.mem_append_left _ flying)
      behind := orderly.behind
      fires :=
        { once := by
            show ((s.shared.submitted ++ [_]).map Firing.occurrence).Nodup
            rw [List.map_append, List.nodup_append]
            refine ⟨orderly.fires.once, List.nodup_singleton _, ?_⟩
            rintro a old b last equal
            obtain ⟨firing, submitted, rfl⟩ := List.mem_map.mp old
            rw [List.mem_singleton.mp last] at equal
            exact new firing submitted equal
          recorded := orderly.fires.recorded
          last := orderly.fires.last } }

theorem holds_of_idle {state : ScheduleState} {point : SchedulePoint}
    (idle : point.holding = []) : state.Holds point where
  distinct := idle ▸ List.nodup_nil
  locked row member := by rw [idle] at member; cases member
  stored row member := by rw [idle] at member; cases member
  past _ _ _ _ row member := by rw [idle] at member; cases member

theorem moves_self (orderly : s.Orderly) {point : SchedulePoint} (idle : point.holding = [])
    (grounded : point.inFlight = []) : s.shared.Moves point s.shared point where
  holds := holds_of_idle idle
  frame _ _ locked stored := ⟨locked, stored⟩
  fresh row member := by rw [idle] at member; cases member
  submits _ submitted := .inl submitted
  keeps _ ended := ended
  passes firing flying := by rw [grounded] at flying; cases flying
  behind := orderly.behind
  fires := orderly.fires

theorem moves_finish (orderly : s.Orderly) {point point' : SchedulePoint} {rows : List Schedule}
    (released : ∀ row ∈ rows, row.id ∈ point.holding.map Schedule.id)
    (idle : point.inFlight = []) (ended : point'.holding = []) (idle' : point'.inFlight = []) :
    s.shared.Moves point (s.shared.finish rows []) point' where
  holds := holds_of_idle ended
  frame row other locked stored := by
    refine ⟨List.mem_filter.mpr ⟨locked, decide_eq_true fun own => ?_⟩, stored⟩
    obtain ⟨mine, member, same⟩ := List.mem_map.mp own
    exact other (same ▸ released mine member)
  fresh row member := by rw [ended] at member; cases member
  submits _ submitted := .inl submitted
  keeps _ member := List.mem_append_left _ member
  passes firing flying := by rw [idle] at flying; cases flying
  behind firing member := orderly.behind firing ((List.mem_append.mp member).resolve_right
    List.not_mem_nil)
  fires := by
    have same : (s.shared.finish rows []).ended = s.shared.ended := List.append_nil _
    exact ⟨orderly.fires.once, same ▸ orderly.fires.recorded, same ▸ orderly.fires.last⟩

variable {firing : Firing}

theorem recorded_mono {state state' : ScheduleState}
    (grown : ∀ run ∈ state.runs.rows, ∃ run' ∈ state'.runs.rows, run'.requestId = run.requestId ∧
      run'.scheduleId = run.scheduleId ∧ run'.tenantId = run.tenantId ∧ run'.userId = run.userId)
    (recorded : state.Recorded firing) : state'.Recorded firing := by
  obtain ⟨run, member, request, schedule, tenant, user⟩ := recorded
  obtain ⟨run', member', request', schedule', tenant', user'⟩ := grown run member
  exact ⟨run', member', request'.trans request, schedule'.trans schedule, tenant'.trans tenant,
    user'.trans user⟩

theorem moves_report (orderly : s.Orderly) (now : Time) (task : RunTask) (status : String)
    (error : Option String) (count : Nat) :
    s.shared.Moves (.called (.report task status error))
      (s.shared.updateScheduleRun now task status error) (.returned count) := by
  have grown : ∀ run ∈ s.shared.runs.rows,
      ∃ run' ∈ (s.shared.updateScheduleRun now task status error).runs.rows,
        run'.requestId = run.requestId ∧ run'.scheduleId = run.scheduleId ∧
          run'.tenantId = run.tenantId ∧ run'.userId = run.userId := by
    intro run member
    unfold updateScheduleRun
    split
    · exact ⟨run, member, rfl, rfl, rfl, rfl⟩
    · have listed : (if run.requestId = task.clientRequestId then
          run.reported now task status error else run) ∈
          (s.shared.runs.modify task.clientRequestId (fun run => run.reported now task status error)
            fun run => run.requestId_reported now task status error).rows :=
        Table.mem_modify.mpr ⟨run, member, rfl⟩
      refine ⟨_, listed, ?_⟩
      unfold ScheduleRun.reported
      split
      · split <;> exact ⟨rfl, rfl, rfl, rfl⟩
      · exact ⟨rfl, rfl, rfl, rfl⟩
  obtain ⟨runs, rows⟩ : ∃ runs, s.shared.updateScheduleRun now task status error =
      { s.shared with runs := runs } := by
    unfold updateScheduleRun
    split
    · exact ⟨s.shared.runs, rfl⟩
    · exact ⟨_, rfl⟩
  rw [rows] at grown ⊢
  exact
    { holds := holds_of_idle rfl
      frame := fun _ _ locked stored => ⟨locked, stored⟩
      fresh := fun _ member => by cases member
      submits := fun _ submitted => .inl submitted
      keeps := fun _ ended => ended
      passes := fun _ flying => by cases flying
      behind := orderly.behind
      fires := ⟨orderly.fires.once, fun firing ended =>
        recorded_mono grown (orderly.fires.recorded firing ended), orderly.fires.last⟩ }

theorem fired_cases (now : Time) (firings : List Firing) (row : Schedule) :
    (fired now firings row = row ∧ ∀ firing ∈ firings, firing.schedule.id ≠ row.id) ∨
      ∃ firing ∈ firings, firing.schedule.id = row.id ∧
        (fired now firings row).lastRunId = some firing.requestId ∧
        now < (fired now firings row).nextRunAt := by
  unfold fired
  cases found : firings.find? (fun firing => firing.schedule.id = row.id) with
  | none =>
    refine .inl ⟨rfl, fun firing member => ?_⟩
    have other := List.find?_eq_none.mp found firing member
    simpa using other
  | some firing =>
    have same : firing.schedule.id = row.id := by simpa using List.find?_some found
    refine .inr ⟨firing, List.mem_of_find?_eq_some found, same, rfl, ?_⟩
    have paced := firing.schedule.paced
    have positive : (0 : Int) < 60000000 * (firing.schedule.intervalMinutes : Int) := by omega
    exact Int.lt_add_of_pos_right now positive

variable {i : Nat} {now : Time} {rows : List Schedule} {firings : List Firing}

theorem holding_of_firing (member : firing ∈ firings) :
    firing.schedule ∈ (SchedulePoint.looping now rows firings).holding :=
  List.mem_append_left _ (List.mem_map_of_mem member)

theorem stored_firing (orderly : s.Orderly)
    (here : s.calls[i]? = some (.looping now rows firings)) (member : firing ∈ firings) :
    s.shared.schedules.find? firing.schedule.id = some firing.schedule ∧
      firing.schedule.nextRunAt ≤ now := by
  have held := orderly.holds i _ here
  exact ⟨held.stored _ (holding_of_firing member),
    held.past now rows firings rfl _ (holding_of_firing member)⟩

theorem firing_of_id (orderly : s.Orderly)
    (here : s.calls[i]? = some (.looping now rows firings)) {firing other : Firing}
    (member : firing ∈ firings) (otherMember : other ∈ firings)
    (same : firing.schedule.id = other.schedule.id) : firing = other := by
  have distinct := (orderly.holds i _ here).distinct
  rw [SchedulePoint.holding, List.map_append, List.map_map] at distinct
  exact List.inj_on_of_nodup_map (List.nodup_append.mp distinct).1 member otherMember same

theorem ended_before_firing (orderly : s.Orderly)
    (here : s.calls[i]? = some (.looping now rows firings)) {firing old : Firing}
    (member : firing ∈ firings) (ended : old ∈ s.shared.ended)
    (same : old.schedule.id = firing.schedule.id) :
    old.schedule.nextRunAt < firing.schedule.nextRunAt :=
  orderly.behind old ended firing.schedule (same ▸ (stored_firing orderly here member).1)

theorem behind_commit (orderly : s.Orderly) (here : s.calls[i]? = some (.looping now [] firings))
    (ended : firing ∈ s.shared.ended ++ firings) {row : Schedule}
    (old : s.shared.schedules.find? firing.schedule.id = some row) :
    firing.schedule.nextRunAt < (fired now firings row).nextRunAt := by
  have sameRow := (Table.find?_eq_some_iff.mp old).2
  rcases fired_cases now firings row with ⟨same, apart⟩ | ⟨other, fires, same, _, later⟩
  · rw [same]
    rcases List.mem_append.mp ended with before | new
    · exact orderly.behind firing before row old
    · exact absurd sameRow.symm (apart firing new)
  · refine Int.lt_of_le_of_lt ?_ later
    rcases List.mem_append.mp ended with before | new
    · have earlier := ended_before_firing orderly here fires before (sameRow.symm.trans same.symm)
      exact Int.le_of_lt (Int.lt_of_lt_of_le earlier (stored_firing orderly here fires).2)
    · exact (stored_firing orderly here new).2

theorem last_commit (orderly : s.Orderly) (here : s.calls[i]? = some (.looping now [] firings))
    (ended : firing ∈ s.shared.ended ++ firings)
    (latest : ∀ other ∈ s.shared.ended ++ firings, other.schedule.id = firing.schedule.id →
      other.schedule.nextRunAt ≤ firing.schedule.nextRunAt)
    {row : Schedule} (member : row ∈ s.shared.schedules.rows)
    (sameRow : row.id = firing.schedule.id) :
    (fired now firings row).lastRunId = some firing.requestId := by
  rcases fired_cases now firings row with ⟨kept, apart⟩ | ⟨other, fires, same, ran, _⟩
  · rw [kept]
    rcases List.mem_append.mp ended with before | new
    · refine orderly.fires.last firing before (fun g listed => ?_) row member sameRow
      exact latest g (List.mem_append_left _ listed)
    · exact absurd sameRow.symm (apart firing new)
  · rw [ran]
    have here' : other.schedule.id = firing.schedule.id := same.trans sameRow
    rcases List.mem_append.mp ended with before | new
    · have earlier := ended_before_firing orderly here fires before here'.symm
      exact absurd (latest other (List.mem_append_right _ fires) here') (Int.not_le.mpr earlier)
    · rw [firing_of_id orderly here fires new here']

theorem moves_commit (orderly : s.Orderly)
    (here : s.calls[i]? = some (.looping now [] firings)) {state' : ScheduleState}
    (done : s.shared.commit now firings = some state') (count : Nat) :
    s.shared.Moves (.looping now [] firings) (state'.finish (firings.map Firing.schedule) firings)
      (.returned count) := by
  obtain ⟨runs, inserted, rfl⟩ := Option.map_eq_some_iff.mp done
  have runRows := Table.rows_of_foldlM_insert? inserted
  exact
    { holds := holds_of_idle rfl
      frame := by
        intro row other locked old
        have apart : ∀ firing ∈ firings, firing.schedule.id ≠ row.id := fun firing member same =>
          other (same ▸ List.mem_map_of_mem (holding_of_firing member))
        constructor
        · refine List.mem_filter.mpr ⟨locked, decide_eq_true fun mine => ?_⟩
          obtain ⟨schedule, member, same⟩ := List.mem_map.mp mine
          obtain ⟨firing, fires, rfl⟩ := List.mem_map.mp member
          exact apart firing fires same
        · show (s.shared.schedules.mapRows (fired now firings) (id_fired now firings)).find? row.id =
            some row
          rw [Table.find?_mapRows, old]
          rcases fired_cases now firings row with ⟨same, _⟩ | ⟨firing, fires, same, _⟩
          · exact congrArg some same
          · exact absurd same (apart firing fires)
      fresh := fun _ member => by cases member
      submits := fun _ submitted => .inl submitted
      keeps := fun _ ended => List.mem_append_left _ ended
      passes := fun _ flying => .inr (List.mem_append_right _ flying)
      behind := by
        intro firing ended row' present
        have present : ((s.shared.schedules.find? firing.schedule.id).map (fired now firings)) =
            some row' := by
          rw [← present]
          exact (Table.find?_mapRows s.shared.schedules _ (id_fired now firings) _).symm
        obtain ⟨row, old, rfl⟩ := Option.map_eq_some_iff.mp present
        exact behind_commit orderly here ended old
      fires :=
        { once := orderly.fires.once
          recorded := by
            have listed : ∀ run, run ∈ runs.rows ↔
                run ∈ s.shared.runs.rows ∨ run ∈ firings.map Firing.run := fun run => by
              rw [runRows, List.mem_append]
            intro firing ended
            rcases List.mem_append.mp ended with before | new
            · refine recorded_mono (fun run member => ?_) (orderly.fires.recorded firing before)
              exact ⟨run, (listed run).mpr (.inl member), rfl, rfl, rfl, rfl⟩
            · exact ⟨firing.run, (listed _).mpr (.inr (List.mem_map_of_mem new)), rfl, rfl, rfl, rfl⟩
          last := by
            intro firing ended latest row' member same
            have member : row' ∈ (s.shared.schedules.mapRows (fired now firings)
              (id_fired now firings)).rows := member
            obtain ⟨row, old, rfl⟩ := Table.mem_mapRows.mp member
            rw [id_fired] at same
            exact last_commit orderly here ended latest old same } }

theorem isSome_commit {state : ScheduleState} (now : Time) {firings : List Firing}
    (distinct : (state.runs.rows.map ScheduleRun.requestId ++
      firings.map Firing.requestId).Nodup) : (state.commit now firings).isSome := by
  have same : (firings.map Firing.run).map ScheduleRun.requestId =
      firings.map Firing.requestId := by
    rw [List.map_map]
    rfl
  unfold commit
  rw [Option.isSome_map]
  exact Table.isSome_foldlM_insert? (same ▸ distinct)

variable {showUuid : Uuid → String}

theorem moves_next (orderly : s.Orderly) {i : Nat} {point : SchedulePoint}
    (here : s.calls[i]? = some point) {turn : DispatchTurn}
    (careful : s.shared.KeepsFirings turn point) :
    s.shared.Moves point (s.shared.next showUuid turn point).1
      (s.shared.next showUuid turn point).2 := by
  cases point with
  | called call =>
    cases call with
    | dispatch => exact moves_claim orderly turn.now turn.rank
    | report task status error => exact moves_report orderly turn.now task status error 0
  | returned | raised => exact moves_self orderly rfl rfl
  | looping now rows firings =>
    cases rows with
    | cons schedule rows =>
      unfold ScheduleState.next
      simp only
      split
      · exact moves_submit orderly here _
      · rename_i refused
        have none_ : firings = [] := by
          by_contra some_
          exact refused (careful some_)
        rw [none_]
        refine moves_finish orderly (fun row member => ?_) rfl rfl rfl
        exact List.mem_map_of_mem member
    | nil =>
      unfold ScheduleState.next
      simp only
      split
      · rename_i refused
        have none_ : firings = [] := by
          by_contra some_
          obtain ⟨commits, distinct⟩ := careful some_
          rw [if_pos commits] at refused
          have done := isSome_commit now distinct
          rw [refused] at done
          cases done
        rw [none_]
        exact moves_finish orderly (fun row member => by cases member) rfl rfl rfl
      · rename_i state' committed
        have done : s.shared.commit now firings = some state' := by
          split at committed
          · exact committed
          · cases committed
        exact moves_commit orderly here done firings.length

def Careful (s : ScheduleSystem) (turn : Nat × DispatchTurn) : Prop :=
  ∀ point ∈ s.calls[turn.1]?, s.shared.KeepsFirings turn.2 point

theorem orderly_step (orderly : s.Orderly) {turn : Nat × DispatchTurn} (careful : s.Careful turn) :
    (s.step showUuid turn).Orderly := by
  unfold step
  cases here : s.calls[turn.1]? with
  | none =>
    rw [advance_of_none _ _ here]
    exact orderly
  | some point =>
    rw [advance_of_free _ _ here (blocked_of_lockFree s _ _)]
    exact orderly_of_moves orderly here (moves_next orderly here (careful point here))

theorem orderly_start (schedules : Table Schedule Schedule.id)
    (runs : Table ScheduleRun ScheduleRun.requestId) (calls : List ScheduleCall) :
    (start schedules runs calls).Orderly := by
  have idle : ∀ (i : Nat) (point : SchedulePoint),
      (start schedules runs calls).calls[i]? = some point → point.holding = [] := by
    intro i point at_
    obtain ⟨call, _, rfl⟩ := List.mem_map.mp (List.mem_of_getElem? at_)
    rfl
  refine ⟨fun i point at_ => holds_of_idle (idle i point at_), ?_, ?_, ?_, ?_⟩
  · intro i j point other _ at_ _ row member
    rw [idle i point at_] at member
    cases member
  · intro firing submitted
    cases submitted
  · intro firing ended
    cases ended
  · exact ⟨List.nodup_nil, fun _ ended => (by cases ended), fun _ ended => (by cases ended)⟩

/-- In a run in which no invocation fails after its first task, every due occurrence fires once. -/
theorem due_occurrences_fire_once (showUuid : Uuid → String)
    (schedules : Table Schedule Schedule.id) (runs : Table ScheduleRun ScheduleRun.requestId)
    (calls : List ScheduleCall) (turns : List (Nat × DispatchTurn))
    (careful : Guarded Careful (step showUuid) (start schedules runs calls) turns) :
    ∀ s ∈ trace (step showUuid) (start schedules runs calls) turns, s.shared.FiresOnce := by
  intro s visited
  have orderly := invariant_of_guarded (I := fun s : ScheduleSystem => s.Orderly)
    (fun s turn orderly careful => orderly_step orderly careful)
    (orderly_start schedules runs calls) careful s visited
  exact orderly.fires

instance (state : ScheduleState) (turn : DispatchTurn) :
    ∀ point : SchedulePoint, Decidable (state.KeepsFirings turn point)
  | .looping _ (_ :: _) [] => .isTrue fun some_ => absurd rfl some_
  | .looping _ (_ :: _) (_ :: _) =>
    decidable_of_iff (turn.accepted = true) ⟨fun accepted _ => accepted, fun keeps =>
      keeps (List.cons_ne_nil _ _)⟩
  | .looping _ [] [] => .isTrue fun some_ => absurd rfl some_
  | .looping _ [] (_ :: _) =>
    decidable_of_iff _ ⟨fun commits _ => commits, fun keeps => keeps (List.cons_ne_nil _ _)⟩
  | .called _ | .returned _ | .raised => .isTrue trivial

instance (s : ScheduleSystem) (turn : Nat × DispatchTurn) : Decidable (s.Careful turn) :=
  inferInstanceAs (Decidable (∀ point ∈ s.calls[turn.1]?, _))

def tally (id : Uuid) : String := String.ofList (List.replicate id 'x')

def twoDue : Table Schedule Schedule.id :=
  ⟨[⟨1, 1, 1, 1, "news", 5, "active", 0, none, none, by decide⟩,
    ⟨2, 1, 1, 1, "mail", 5, "active", 0, none, none, by decide⟩], by decide⟩

/-- A turn of call `i` at time `now`; `uuid4()` gives `id`. -/
def turnOf (accepted : Bool) (i : Nat) (now : Time) (id : Uuid) : Nat × DispatchTurn :=
  (i, ⟨now, fun id => id, id, accepted, true⟩)

/-- Two invocations at once: the second one finds both rows locked. -/
theorem two_pollers_fire_once :
    Guarded Careful (step tally) (start twoDue .empty [.dispatch, .dispatch])
        ([(0, 1), (1, 2), (0, 3), (0, 4), (1, 5), (0, 6)].map fun t => turnOf true t.1 0 t.2) ∧
      ∀ s ∈ trace (step tally) (start twoDue .empty [.dispatch, .dispatch])
          ([(0, 1), (1, 2), (0, 3), (0, 4), (1, 5), (0, 6)].map fun t => turnOf true t.1 0 t.2),
        s.shared.FiresOnce :=
  have careful : Guarded Careful (step tally) (start twoDue .empty [.dispatch, .dispatch])
      ([(0, 1), (1, 2), (0, 3), (0, 4), (1, 5), (0, 6)].map fun t => turnOf true t.1 0 t.2) := by
    decide +kernel
  ⟨careful, due_occurrences_fire_once _ _ _ _ _ careful⟩

def refusedSecond : List (Nat × DispatchTurn) :=
  [turnOf true 0 0 1, turnOf true 0 0 2, turnOf false 0 0 3, turnOf true 1 1 4, turnOf true 1 1 5,
    turnOf true 1 1 6, turnOf true 1 1 7]

/-- The first occurrence has two tasks, and the first of them has no row. -/
theorem refused_batch_fires_twice :
    ∃ s ∈ trace (step tally) (start twoDue .empty [.dispatch, .dispatch]) refusedSecond,
      s.shared.submitted.map Firing.occurrence = [(1, 0), (1, 0), (2, 0)] ∧
        ¬ s.shared.FiresOnce := by
  have last : (run (step tally) (start twoDue .empty [.dispatch, .dispatch])
      refusedSecond).shared.submitted.map Firing.occurrence = [(1, 0), (1, 0), (2, 0)] := by
    decide +kernel
  refine ⟨_, run_mem_trace _ _ _, last, fun fires => ?_⟩
  have once := fires.once
  rw [last] at once
  exact absurd once (by decide)

end ScheduleSystem

end AverQel.DeepSpace
