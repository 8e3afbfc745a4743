/- digest: When the counts, limits, subscriptions and Redis counters of the sockets agree. -/
import AverQel.Documents.ConnectionManager
import AverQel.Foundation.Interleaving

namespace AverQel.Documents.Connections

open Foundation.Transition Foundation.Interleaving

universe u v
variable {κ : Type u} {υ : Type v}

namespace Point

def users : Point → Option Nat
  | .incrementing users | .expiring users | .decrementing users | .rejecting users => some users
  | .accepting users _ => some users
  | _ => none

def isConnecting (point : Point) : Bool := point.users.isSome

def isEntered : Point → Bool
  | .entered _ => true
  | _ => false

def isReleasing : Point → Bool
  | .releasing => true
  | _ => false

def isOwed : Point → Bool
  | .expiring _ | .decrementing _ | .releasing => true
  | .accepting _ counted | .entered counted => counted
  | _ => false

def isAway : Point → Bool
  | .arriving | .ended => true
  | _ => false

end Point

def Outcome.isOk : Outcome → Bool
  | .ok _ => true
  | .fails _ => false

section Tallies

variable [DecidableEq κ] [DecidableEq υ]

def number (calls : List (Call κ υ)) (space : κ) (p : Point → Bool) : Nat :=
  calls.countP fun call => decide (call.space = space) && p call.point

def numberOf (calls : List (Call κ υ)) (space : κ) (user : υ) (p : Point → Bool) : Nat :=
  calls.countP fun call => decide (call.space = space ∧ call.user = user) && p call.point

namespace Manager

/-- The sockets of a user in `active_connections` of a space. -/
def socketsOf (manager : Manager κ υ) (space : κ) (user : υ) : Nat :=
  ((manager.room space).active.getD []).count user

/-- The count of a user in `active_connection_users` of a space. -/
def countOf (manager : Manager κ υ) (space : κ) (user : υ) : Nat :=
  match (manager.room space).users with
  | none => 0
  | some users => (manager.room space).counts users user

end Manager

/-- The accounting of a server is exact. A count is the number of sockets, but for a disconnect of
the user that awaits Redis between the two. -/
structure Exact (maxConnections : Nat) (server : Server κ υ) : Prop where
  counted : ∀ space user, server.manager.countOf space user = server.manager.socketsOf space user ↔
    numberOf server.calls space user Point.isReleasing = 0 ∨
      (server.manager.room space).users = none
  limited : ∀ space user, server.manager.countOf space user ≤ limit maxConnections
  reported : ∀ space user, 0 < server.manager.socketsOf space user →
    server.manager.hasUserConnection user = true
  subscribed : ∀ space user, 0 < server.manager.socketsOf space user →
    (server.manager.room space).loops.countP LoopPoint.isLive = 1 ∧
      ∃ task point, server.manager.redisTasks.lookup space = some task ∧
        (server.manager.room space).loops[task]? = some point ∧ point.isLive = true
  closed : (∀ call ∈ server.calls, call.point.isAway = true) →
    server.manager.activeConnections = ∅ ∧ server.manager.activeConnectionUsers = ∅ ∧
      server.manager.redisTasks = ∅ ∧ ∀ space user,
        (server.manager.room space).increments user = (server.manager.room space).decrements user

/-- The condition on the step of a socket, with the numbers of sockets of its space that hold a
dictionary and that await Redis in their disconnect. -/
def Room.Careful (maxConnections : Nat) (room : Room υ) (user : υ) (connecting releasing : Nat)
    (outcome : Outcome) : Point → Prop
  | .arriving => room.users = none → releasing = 0
  | .incrementing _ => outcome ≠ .fails true
  | .decrementing _ => outcome ≠ .fails true
  | .rejecting _ => outcome.isOk = true ∧ (room.active ≠ none ∨ 1 < connecting)
  | .accepting users counted =>
    (outcome.isOk = true → room.counts users user < limit maxConnections) ∧
      (outcome.isOk = false → counted = false ∧ (room.active ≠ none ∨ 1 < connecting))
  | .entered counted =>
    counted = false → (room.active.getD []).erase user = [] → connecting = 0
  | .releasing => outcome.executed = true ∧ (room.active = some [] → connecting = 0)
  | .refusing => True
  | .expiring _ => True
  | .ended => True

instance (maxConnections : Nat) (room : Room υ) (user : υ) (connecting releasing : Nat)
    (outcome : Outcome) :
    ∀ point, Decidable (room.Careful maxConnections user connecting releasing outcome point)
  | .arriving | .incrementing .. | .decrementing .. | .rejecting .. | .accepting .. | .entered ..
  | .releasing => by dsimp only [Room.Careful]; infer_instance
  | .refusing | .expiring _ | .ended => .isTrue trivial

/-- The condition on a turn. A new dictionary is made only when no disconnect of the space awaits,
and the entries of a space are deleted only when no connect holds its dictionary. A connect counts
a socket while its limit check still holds, and ends without one only in a space that is not left
empty. No Redis command is executed without an answer, except for a decrement of a disconnect, which
is always executed; no socket fails to be accepted or closed once Redis has counted it; and no
subscribe fails. -/
def Careful (maxConnections : Nat) (server : Server κ υ) : Turn κ → Prop
  | .socket i outcome => ∀ call ∈ server.calls[i]?,
      (server.manager.room call.space).Careful maxConnections call.user
        (number server.calls call.space Point.isConnecting)
        (number server.calls call.space Point.isReleasing) outcome call.point
  | .loop space task event => event = .subscribeFails →
      (server.manager.room space).loops[task]? ≠ some .subscribing

instance (maxConnections : Nat) (server : Server κ υ) :
    ∀ turn, Decidable (Careful maxConnections server turn)
  | .socket .. | .loop .. => by dsimp only [Careful]; infer_instance

end Tallies

/-- The numbers of sockets of a space at the points that matter. -/
structure Tally (υ : Type v) where
  entered : υ → Nat
  releasing : υ → Nat
  owed : υ → Nat
  (allReleasing connecting : Nat)

/-- The tallies before and after a socket of a user moves. -/
structure Tally.Moves [DecidableEq υ] (before after : Tally υ) (user : υ) (old new : Point) :
    Prop where
  entered : ∀ u, after.entered u + (decide (user = u) && old.isEntered).toNat =
    before.entered u + (decide (user = u) && new.isEntered).toNat
  releasing : ∀ u, after.releasing u + (decide (user = u) && old.isReleasing).toNat =
    before.releasing u + (decide (user = u) && new.isReleasing).toNat
  owed : ∀ u, after.owed u + (decide (user = u) && old.isOwed).toNat =
    before.owed u + (decide (user = u) && new.isOwed).toNat
  allReleasing : after.allReleasing + old.isReleasing.toNat =
    before.allReleasing + new.isReleasing.toNat
  connecting : after.connecting + old.isConnecting.toNat =
    before.connecting + new.isConnecting.toNat
  bounded : ∀ u, after.releasing u ≤ after.allReleasing

/-- The task of a space is the only live one, and there is one when the space has sockets. -/
structure Subscribed (room : Room υ) : Prop where
  entry : room.task = none ↔ room.active = none
  running : ∀ task, room.task = some task →
    ∃ point, room.loops[task]? = some point ∧ point.isLive = true
  live : ∀ (task : Nat) (point : LoopPoint), room.loops[task]? = some point →
    point.isLive = true → room.task = some task

/-- What is there of a space agrees with its sockets. -/
structure Accounted [DecidableEq υ] (maxConnections : Nat) (room : Room υ) (tally : Tally υ) :
    Prop where
  sockets : ∀ u, (room.active.getD []).count u = tally.entered u
  counts : ∀ users, room.users = some users → ∀ u,
    room.counts users u = tally.entered u + tally.releasing u
  limited : ∀ users, room.users = some users → ∀ u, room.counts users u ≤ limit maxConnections
  known : room.users = none → room.active = none
  emptied : room.active = some [] → 0 < tally.allReleasing
  lasting : 0 < tally.allReleasing → room.active = none → room.users = none
  alone : room.active = none → room.users ≠ none → 0 < tally.connecting
  fresh : ∀ users, room.users = some users → users < room.made
  unused : ∀ users, room.made ≤ users → ∀ u, room.counts users u = 0
  subscribed : Subscribed room
  redis : ∀ u, room.increments u = room.decrements u + tally.owed u

section Subscriptions

variable {room : Room υ}

theorem subscribed_createTask (sub : Subscribed room) (closed : room.active = none)
    (sockets : List υ) : Subscribed { room.createTask with active := some sockets } where
  entry := by simp [Room.createTask]
  running task here := by
    obtain rfl : room.loops.length = task := Option.some.inj here
    exact ⟨.subscribing, List.getElem?_concat_length, rfl⟩
  live task point here alive := by
    have inside := (List.getElem?_eq_some_iff.mp here).1
    simp only [Room.createTask, List.length_append, List.length_singleton] at inside
    by_cases old : task < room.loops.length
    · simp only [Room.createTask] at here
      rw [List.getElem?_append_left old] at here
      have entry := sub.live task point here alive
      rw [sub.entry.mpr closed] at entry
      cases entry
    · have last : task = room.loops.length := by omega
      rw [last]
      rfl

theorem subscribed_cancelTask (sub : Subscribed room) :
    Subscribed { room.cancelTask with active := none, users := none } := by
  cases known : room.task with
  | none =>
    simp only [Room.cancelTask, known]
    refine ⟨iff_of_true rfl rfl, fun task here => (by cases here), fun other point here alive => ?_⟩
    have entry := sub.live other point here alive
    rw [known] at entry
    cases entry
  | some task =>
    simp only [Room.cancelTask, known]
    refine ⟨iff_of_true rfl rfl, fun task here => (by cases here), fun other point here alive => ?_⟩
    simp only [List.getElem?_modify] at here
    obtain ⟨old, found, rfl⟩ := Option.map_eq_some_iff.mp here
    exfalso
    by_cases same : task = other
    · simp only [if_pos same] at alive
      split at alive <;> cases alive
    · simp only [if_neg same] at alive
      have entry := sub.live other old found alive
      rw [known] at entry
      exact same (Option.some.inj entry)

theorem subscribed_set (sub : Subscribed room) {task : Nat} {old new : LoopPoint}
    (here : room.loops[task]? = some old) (alive : old.isLive = true) (still : new.isLive = true) :
    Subscribed { room with loops := room.loops.set task new } := by
  have entry := sub.live task old here alive
  refine ⟨sub.entry, fun other known => ?_, fun other point found living => ?_⟩
  · obtain rfl : task = other := Option.some.inj (entry.symm.trans known)
    exact ⟨new, (getElem?_set_iff here).mpr (.inl ⟨rfl, rfl⟩), still⟩
  · rcases (getElem?_set_iff here).mp found with ⟨rfl, _⟩ | ⟨_, before⟩
    · exact entry
    · exact sub.live other point before living

theorem subscribed_loopNext (sub : Subscribed room) (task : Nat) (event : LoopEvent)
    (careful : event = .subscribeFails → room.loops[task]? ≠ some .subscribing) :
    Subscribed (room.loopNext task event) := by
  cases here : room.loops[task]? with
  | none =>
    simp only [Room.loopNext, here]
    exact sub
  | some point =>
    cases point <;> cases event <;> simp only [Room.loopNext, here] <;> try exact sub
    · exact subscribed_set sub here rfl rfl
    · exact absurd here (careful rfl)
    · exact subscribed_set sub here rfl rfl
    · have entry := sub.live task .backingOff here rfl
      have awake : room.active.isSome = true := by
        rw [Option.isSome_iff_ne_none]
        intro closed
        rw [sub.entry.mpr closed] at entry
        cases entry
      simp only [awake, if_true]
      refine ⟨?_, fun other known => ?_, fun other point found living => ?_⟩
      · simp only [Room.createTask, reduceCtorEq, false_iff]
        exact Option.isSome_iff_ne_none.mp awake
      · obtain rfl := Option.some.inj known
        exact ⟨.subscribing, List.getElem?_concat_length, rfl⟩
      · simp only [Room.createTask] at found ⊢
        by_cases old : other < (room.loops.set task .ended).length
        · rw [List.getElem?_append_left old] at found
          rcases (getElem?_set_iff here).mp found with ⟨_, rfl⟩ | ⟨apart, before⟩
          · cases living
          · have mine := sub.live other point before living
            exact absurd (Option.some.inj (mine.symm.trans entry)) apart
        · have inside := (List.getElem?_eq_some_iff.mp found).1
          simp only [List.length_append, List.length_singleton] at inside
          have last : other = (room.loops.set task .ended).length := by omega
          rw [last]

end Subscriptions

variable [DecidableEq υ] {maxConnections : Nat} {room : Room υ} {before after : Tally υ}
variable {user : υ} {old new : Point}

theorem limit_pos (maxConnections : Nat) : 0 < limit maxConnections := by
  unfold limit
  omega

namespace Tally.Moves

variable (moves : before.Moves after user old new)
include moves

theorem entered_eq (same : old.isEntered = new.isEntered) : after.entered = before.entered := by
  funext u
  have count := moves.entered u
  rw [same] at count
  omega

theorem releasing_eq (same : old.isReleasing = new.isReleasing) :
    after.releasing = before.releasing := by
  funext u
  have count := moves.releasing u
  rw [same] at count
  omega

theorem owed_eq (same : old.isOwed = new.isOwed) : after.owed = before.owed := by
  funext u
  have count := moves.owed u
  rw [same] at count
  omega

theorem allReleasing_eq (same : old.isReleasing = new.isReleasing) :
    after.allReleasing = before.allReleasing := by
  have count := moves.allReleasing
  rw [same] at count
  omega

theorem connecting_eq (same : old.isConnecting = new.isConnecting) :
    after.connecting = before.connecting := by
  have count := moves.connecting
  rw [same] at count
  omega

end Tally.Moves

theorem Accounted.recount (acc : Accounted maxConnections room before)
    (moves : before.Moves after user old new) (oldPoint : old.isEntered = false)
    (newPoint : new.isEntered = false) (oldReleasing : old.isReleasing = false)
    (newReleasing : new.isReleasing = false)
    (alone : room.active = none → room.users ≠ none → 0 < after.connecting)
    (increments decrements : υ → Nat)
    (redis : ∀ u, increments u = decrements u + after.owed u) :
    Accounted maxConnections { room with increments := increments, decrements := decrements }
      after := by
  have entered := moves.entered_eq (oldPoint.trans newPoint.symm)
  have waiting := oldReleasing.trans newReleasing.symm
  constructor
  · rw [entered]
    exact acc.sockets
  · rw [entered, moves.releasing_eq waiting]
    exact acc.counts
  · exact acc.limited
  · exact acc.known
  · rw [moves.allReleasing_eq waiting]
    exact acc.emptied
  · rw [moves.allReleasing_eq waiting]
    exact acc.lasting
  · exact alone
  · exact acc.fresh
  · exact acc.unused
  · exact ⟨acc.subscribed.entry, acc.subscribed.running, acc.subscribed.live⟩
  · exact redis

theorem Accounted.setDefault (acc : Accounted maxConnections room before)
    (careful : room.users = none → before.allReleasing = 0)
    (bounded : ∀ u, before.releasing u ≤ before.allReleasing)
    (connecting : room.users = none → 0 < after.connecting)
    (entered : after.entered = before.entered) (releasing : after.releasing = before.releasing)
    (owed : after.owed = before.owed) (all : after.allReleasing = before.allReleasing)
    (more : before.connecting ≤ after.connecting) :
    Accounted maxConnections room.setDefault.1 after := by
  cases known : room.users with
  | some =>
    simp only [Room.setDefault, known]
    refine ⟨?_, ?_, acc.limited, acc.known, ?_, ?_, ?_, acc.fresh, acc.unused, acc.subscribed, ?_⟩
    · rw [entered]
      exact acc.sockets
    · rw [entered, releasing]
      exact acc.counts
    · rw [all]
      exact acc.emptied
    · rw [all]
      exact acc.lasting
    · intro closed kept
      have some_connect := acc.alone closed kept
      omega
    · rw [owed]
      exact acc.redis
  | none =>
    have closed := acc.known known
    have none_releasing := careful known
    have none_entered : ∀ u, before.entered u = 0 := by
      intro u
      rw [← acc.sockets u, closed]
      rfl
    simp only [Room.setDefault, known]
    refine ⟨?_, ?_, ?_, fun wrong => (by cases wrong), ?_, ?_, fun _ _ => connecting known, ?_, ?_,
      ⟨acc.subscribed.entry, acc.subscribed.running, acc.subscribed.live⟩, ?_⟩
    · rw [entered]
      exact acc.sockets
    · intro users same u
      obtain rfl : room.made = users := Option.some.inj same
      have zero := acc.unused room.made (Nat.le_refl _) u
      have bound := bounded u
      rw [entered, releasing, none_entered]
      show room.counts room.made u = _
      omega
    · intro users same u
      obtain rfl : room.made = users := Option.some.inj same
      show room.counts room.made u ≤ _
      rw [acc.unused room.made (Nat.le_refl _) u]
      exact Nat.zero_le _
    · intro emptied
      rw [show _ = room.active from rfl, closed] at emptied
      cases emptied
    · intro waits
      omega
    · intro users same
      obtain rfl : room.made = users := Option.some.inj same
      exact Nat.lt_succ_self _
    · intro users above u
      exact acc.unused users (Nat.le_of_succ_le above) u
    · rw [owed]
      exact acc.redis

theorem counts_addCount (room : Room υ) (user : υ) (users other : Nat) (u : υ) :
    (room.addCount user users).counts other u =
      room.counts other u + (decide (users = other) && decide (user = u)).toNat := by
  simp only [Room.addCount, Function.update_apply]
  by_cases same : other = users
  · subst same
    by_cases mine : u = user
    · subst mine
      simp
    · simp [mine, Ne.symm mine]
  · simp [same, Ne.symm same]

theorem counts_removeCount (room : Room υ) (user : υ) (users other : Nat) (u : υ) :
    (room.removeCount user users).counts other u =
      room.counts other u - (decide (users = other) && decide (user = u)).toNat := by
  simp only [Room.removeCount, Function.update_apply]
  by_cases same : other = users
  · subst same
    by_cases mine : u = user
    · subst mine
      simp
    · simp [mine, Ne.symm mine]
  · simp [same, Ne.symm same]

/-- A connect counts its socket while the limit check still holds. -/
theorem Accounted.enter (acc : Accounted maxConnections room before) {users : Nat}
    {counted : Bool}
    (moves : before.Moves after user (.accepting users counted) (.entered counted))
    (held : room.users = some users) (below : room.counts users user < limit maxConnections) :
    Accounted maxConnections (room.enter user users) after := by
  have entered : ∀ u, after.entered u = before.entered u + (decide (user = u)).toNat := by
    intro u
    simpa [Point.isEntered] using moves.entered u
  have releasing : ∀ u, after.releasing u = before.releasing u := by
    intro u
    simpa [Point.isReleasing] using moves.releasing u
  have shape : ∃ sockets, (room.enter user users).active = some sockets ∧
      (∀ u, sockets.count u = (room.active.getD []).count u + (decide (user = u)).toNat) ∧
      sockets ≠ [] ∧ Subscribed (room.enter user users) := by
    cases active : room.active with
    | none =>
      simp only [Room.enter, active]
      have sub := subscribed_createTask acc.subscribed active [user]
      refine ⟨[user], rfl, fun u => ?_, List.cons_ne_nil _ _, ⟨sub.entry, sub.running, sub.live⟩⟩
      simp only [List.count_singleton, Option.getD_none, List.count_nil, Nat.zero_add, beq_iff_eq]
      by_cases mine : user = u <;> simp [mine]
    | some sockets =>
      simp only [Room.enter, active]
      refine ⟨sockets ++ [user], rfl, fun u => ?_, by simp, ?_⟩
      · simp only [List.count_append, List.count_singleton, Option.getD_some, beq_iff_eq]
        by_cases mine : user = u <;> simp [mine]
      · have sub := acc.subscribed
        refine ⟨?_, sub.running, sub.live⟩
        refine (sub.entry.trans ?_)
        rw [active]
        exact iff_of_false (by simp) (by simp [Room.addCount])
  obtain ⟨sockets, active, count, nonempty, sub⟩ := shape
  have same_users : (room.enter user users).users = some users := by
    unfold Room.enter
    split <;> exact held
  have same_made : (room.enter user users).made = room.made := by
    unfold Room.enter
    split <;> rfl
  have counts : ∀ other u, (room.enter user users).counts other u =
      room.counts other u + (decide (users = other) && decide (user = u)).toNat := by
    intro other u
    unfold Room.enter
    split <;> exact counts_addCount _ user users other u
  have redis : ∀ u, (room.enter user users).increments u = (room.enter user users).decrements u +
      before.owed u := by
    unfold Room.enter
    split <;> exact acc.redis
  refine ⟨?_, ?_, ?_, ?_, ?_, ?_, ?_, ?_, ?_, sub, ?_⟩
  · intro u
    rw [active, Option.getD_some, count, acc.sockets, entered]
  · intro other known u
    obtain rfl : users = other := Option.some.inj (same_users.symm.trans known)
    have before_counts := acc.counts users held u
    rw [counts, entered, releasing]
    simp only [decide_true, Bool.true_and]
    omega
  · intro other known u
    obtain rfl : users = other := Option.some.inj (same_users.symm.trans known)
    rw [counts]
    have bound := acc.limited users held u
    by_cases mine : user = u
    · subst mine
      simp only [decide_true, Bool.and_self, Bool.toNat_true]
      omega
    · simpa [mine] using bound
  · intro wrong
    rw [same_users] at wrong
    cases wrong
  · intro emptied
    rw [active] at emptied
    exact absurd (Option.some.inj emptied) nonempty
  · intro _ closed
    rw [active] at closed
    cases closed
  · intro closed
    rw [active] at closed
    cases closed
  · intro other known
    obtain rfl : users = other := Option.some.inj (same_users.symm.trans known)
    rw [same_made]
    exact acc.fresh users held
  · intro other above u
    rw [same_made] at above
    have apart : users ≠ other := by
      have known := acc.fresh users held
      omega
    rw [counts, acc.unused other above u]
    simp [apart]
  · rw [moves.owed_eq rfl]
    exact redis

/-- What is there of a space when a disconnect of a user comes to its end. -/
structure Leaving (maxConnections : Nat) (room : Room υ) (after : Tally υ) (user : υ) : Prop where
  sockets : ∀ u, (room.active.getD []).count u = after.entered u
  counts : ∀ users, room.users = some users → ∀ u,
    room.counts users u = after.entered u + after.releasing u + (decide (user = u)).toNat
  limited : ∀ users, room.users = some users → ∀ u, room.counts users u ≤ limit maxConnections
  both : room.users = none ↔ room.active = none
  fresh : ∀ users, room.users = some users → users < room.made
  unused : ∀ users, room.made ≤ users → ∀ u, room.counts users u = 0
  subscribed : Subscribed room
  redis : ∀ u, room.increments u = room.decrements u + after.owed u

theorem Leaving.accounted (leaving : Leaving maxConnections room after user) :
    Accounted maxConnections (room.leave user) after := by
  obtain ⟨sockets, counts, limited, both, fresh, unused, sub, redis⟩ := leaving
  cases known : room.users with
  | none =>
    have closed := both.mp known
    simp only [Room.leave, known, closed]
    refine ⟨sockets, ?_, ?_, both.mp, ?_, fun _ _ => known, fun _ kept => absurd known kept, fresh,
      unused, sub, redis⟩
    · intro users wrong
      rw [known] at wrong
      cases wrong
    · intro users wrong
      rw [known] at wrong
      cases wrong
    · intro emptied
      rw [closed] at emptied
      cases emptied
  | some users =>
    have removed : ∀ u, (room.removeCount user users).counts users u =
        after.entered u + after.releasing u := by
      intro u
      rw [counts_removeCount, counts users known u]
      simp
    have smaller : ∀ other u, (room.removeCount user users).counts other u ≤
        room.counts other u := by
      intro other u
      rw [counts_removeCount]
      exact Nat.sub_le _ _
    have still_unused : ∀ other, room.made ≤ other → ∀ u,
        (room.removeCount user users).counts other u = 0 := by
      intro other above u
      have less := smaller other u
      rw [unused other above u] at less
      omega
    cases active : room.active with
    | none =>
      rw [both.mpr active] at known
      cases known
    | some left =>
      cases left with
      | nil =>
        simp only [Room.leave, known, active]
        have cancelled : ({ (room.removeCount user users).cancelTask with
            active := none, users := none } : Room υ).counts =
              (room.removeCount user users).counts ∧
            ({ (room.removeCount user users).cancelTask with
              active := none, users := none } : Room υ).made = room.made ∧
            ({ (room.removeCount user users).cancelTask with
              active := none, users := none } : Room υ).increments = room.increments ∧
            ({ (room.removeCount user users).cancelTask with
              active := none, users := none } : Room υ).decrements = room.decrements := by
          unfold Room.cancelTask
          split <;> exact ⟨rfl, rfl, rfl, rfl⟩
        have gone : ∀ u, after.entered u = 0 := by
          intro u
          rw [← sockets u, active]
          rfl
        have sub' : Subscribed (room.removeCount user users) := ⟨sub.entry, sub.running, sub.live⟩
        refine ⟨fun u => (gone u).symm, fun other wrong => (by cases wrong),
          fun other wrong => (by cases wrong), fun _ => rfl, fun wrong => (by cases wrong),
          fun _ _ => rfl, fun _ kept => absurd rfl kept, fun other wrong => (by cases wrong), ?_,
          subscribed_cancelTask sub', ?_⟩
        · intro other above u
          rw [cancelled.1]
          exact still_unused other (cancelled.2.1 ▸ above) u
        · intro u
          rw [cancelled.2.2.1, cancelled.2.2.2]
          exact redis u
      | cons =>
        simp only [Room.leave, known, active]
        refine ⟨?_, ?_, ?_, ?_, ?_, ?_, ?_, ?_, still_unused, ⟨sub.entry, sub.running, sub.live⟩,
          redis⟩
        · exact sockets
        · intro other same u
          obtain rfl : users = other := Option.some.inj (known.symm.trans same)
          exact removed u
        · intro other same u
          exact Nat.le_trans (smaller other u) (limited other same u)
        · exact both.mp
        · intro emptied
          rw [show (room.removeCount user users).active = room.active from rfl, active] at emptied
          cases emptied
        · intro _ closed
          exact both.mpr closed
        · intro closed kept
          exact absurd (both.mpr closed) kept
        · exact fresh

theorem alone_of_end (moves : before.Moves after user old .ended)
    (last : room.active ≠ none ∨ 1 < before.connecting) :
    room.active = none → room.users ≠ none → 0 < after.connecting := by
  intro closed _
  have more := last.resolve_left (fun opened => opened closed)
  have count := moves.connecting
  have one : old.isConnecting.toNat ≤ 1 := by cases old.isConnecting <;> decide
  rw [show Point.ended.isConnecting.toNat = 0 from rfl] at count
  omega

theorem update_add (f : υ → Nat) (user u : υ) (executed : Bool) :
    Function.update f user (f user + executed.toNat) u =
      f u + (decide (user = u) && executed).toNat := by
  rw [Function.update_apply]
  by_cases mine : u = user
  · subst mine
    simp
  · simp [mine, Ne.symm mine]

theorem Accounted.goesOn (acc : Accounted maxConnections room before)
    (moves : before.Moves after user old new) (oldConnecting : old.isConnecting = true)
    (newConnecting : new.isConnecting = true) (increment decrement : Bool)
    (redis : ∀ u, (decide (user = u) && increment).toNat + before.owed u =
      (decide (user = u) && decrement).toNat + after.owed u) :
    Accounted maxConnections ((room.countIncrement user increment).countDecrement user decrement)
      after := by
  refine acc.recount moves ?_ ?_ ?_ ?_ ?_ _ _ fun u => ?_
  · cases old <;> first | rfl | cases oldConnecting
  · cases new <;> first | rfl | cases newConnecting
  · cases old <;> first | rfl | cases oldConnecting
  · cases new <;> first | rfl | cases newConnecting
  · rw [moves.connecting_eq (oldConnecting.trans newConnecting.symm)]
    exact acc.alone
  · have count := redis u
    have known := acc.redis u
    show Function.update room.increments user (room.increments user + increment.toNat) u =
      Function.update room.decrements user (room.decrements user + decrement.toNat) u + _
    rw [update_add, update_add]
    omega

theorem countIncrement_false (room : Room υ) (user : υ) :
    room.countIncrement user false = room := by
  unfold Room.countIncrement
  rw [Bool.toNat_false, Nat.add_zero, Function.update_eq_self]

theorem countDecrement_false (room : Room υ) (user : υ) :
    room.countDecrement user false = room := by
  unfold Room.countDecrement
  rw [Bool.toNat_false, Nat.add_zero, Function.update_eq_self]

theorem Accounted.ends (acc : Accounted maxConnections room before)
    (moves : before.Moves after user old .ended) (notEntered : old.isEntered = false)
    (notReleasing : old.isReleasing = false) (notOwed : old.isOwed = false)
    (alone : room.active = none → room.users ≠ none → 0 < after.connecting) :
    Accounted maxConnections room after := by
  refine acc.recount moves notEntered rfl notReleasing rfl alone room.increments room.decrements
    ?_
  rw [moves.owed_eq notOwed]
  exact acc.redis

theorem Accounted.arriving (acc : Accounted maxConnections room before) (outcome : Outcome)
    (moves : before.Moves after user .arriving
      (room.next maxConnections user outcome .arriving).2)
    (bounded : ∀ u, before.releasing u ≤ before.allReleasing)
    (careful : room.users = none → before.allReleasing = 0) :
    Accounted maxConnections (room.next maxConnections user outcome .arriving).1 after := by
  have neutral : ∀ point : Point, point.isEntered = false → point.isReleasing = false →
      point.isOwed = false → before.Moves after user .arriving point →
      (room.users = none → 0 < after.connecting) →
      Accounted maxConnections room.setDefault.1 after := by
    intro point notEntered notReleasing notOwed moved connecting
    refine acc.setDefault careful bounded connecting (moved.entered_eq notEntered.symm)
      (moved.releasing_eq notReleasing.symm) (moved.owed_eq notOwed.symm)
      (moved.allReleasing_eq notReleasing.symm) ?_
    have count := moved.connecting
    rw [show Point.arriving.isConnecting.toNat = 0 from rfl] at count
    omega
  by_cases full : limit maxConnections ≤ room.setDefault.1.counts room.setDefault.2 user
  · simp only [Room.next, if_pos full] at moves ⊢
    refine neutral .refusing rfl rfl rfl moves fun known => ?_
    -- a new dictionary counts nobody
    simp only [Room.setDefault, known] at full
    rw [acc.unused room.made (Nat.le_refl _) user] at full
    have positive := limit_pos maxConnections
    omega
  · simp only [Room.next, if_neg full] at moves ⊢
    refine neutral _ rfl rfl rfl moves fun _ => ?_
    have count := moves.connecting
    simp only [Point.isConnecting, Point.users, Option.isSome_some, Option.isSome_none,
      Bool.toNat_true, Bool.toNat_false] at count
    omega

theorem Accounted.leaves (acc : Accounted maxConnections room before) {counted : Bool}
    (outcome : Outcome)
    (moves : before.Moves after user (.entered counted)
      (room.next maxConnections user outcome (.entered counted)).2) :
    Accounted maxConnections (room.next maxConnections user outcome (.entered counted)).1
      after := by
  cases active : room.active with
  | none =>
    simp only [Room.next, active] at moves
    have count := moves.entered user
    have none_entered := acc.sockets user
    rw [active] at none_entered
    simp only [Point.isEntered, decide_true, Bool.and_true, Bool.toNat_true, Bool.and_false,
      Bool.toNat_false] at count
    simp only [Option.getD_none, List.count_nil] at none_entered
    omega
  | some sockets =>
    have inside : user ∈ sockets := by
      have count : 0 < before.entered user := by
        have moved := moves.entered user
        have left : (room.next maxConnections user outcome (.entered counted)).2.isEntered =
            false := by
          simp only [Room.next, active]
          cases counted <;> rfl
        rw [left, show (Point.entered counted).isEntered = true from rfl] at moved
        simp only [decide_true, Bool.and_true, Bool.toNat_true, Bool.and_false,
          Bool.toNat_false] at moved
        omega
      rw [← acc.sockets user, active] at count
      exact List.count_pos_iff.mp count
    have remaining : ∀ u, (sockets.erase user).count u + (decide (user = u)).toNat =
        before.entered u := by
      intro u
      have all := acc.sockets u
      rw [active, Option.getD_some] at all
      rw [List.count_erase, ← all]
      by_cases mine : user = u
      · subst mine
        have positive := List.count_pos_iff.mpr inside
        simp only [beq_self_eq_true, if_true, decide_true, Bool.toNat_true]
        omega
      · simp [mine]
    have opened : room.users ≠ none := by
      intro unknown
      have closed := acc.known unknown
      rw [active] at closed
      cases closed
    have sub : Subscribed { room with active := some (sockets.erase user) } := by
      refine ⟨acc.subscribed.entry.trans ?_, acc.subscribed.running, acc.subscribed.live⟩
      rw [active]
      exact iff_of_false (Option.some_ne_none _) (Option.some_ne_none _)
    simp only [Room.next, active] at moves ⊢
    cases counted with
    | true =>
      simp only [if_true] at moves ⊢
      have entered : ∀ u, after.entered u + (decide (user = u)).toNat = before.entered u := by
        intro u
        simpa [Point.isEntered] using moves.entered u
      have releasing : ∀ u, after.releasing u =
          before.releasing u + (decide (user = u)).toNat := by
        intro u
        simpa [Point.isReleasing] using moves.releasing u
      have all : after.allReleasing = before.allReleasing + 1 := by
        simpa [Point.isReleasing] using moves.allReleasing
      refine ⟨?_, ?_, acc.limited, fun unknown => absurd unknown opened, ?_, fun _ closed => ?_,
        fun closed => ?_, acc.fresh, acc.unused, sub, ?_⟩
      · intro u
        have here := remaining u
        have count := entered u
        show (sockets.erase user).count u = _
        omega
      · intro users known u
        have here := acc.counts users known u
        have count := entered u
        have more := releasing u
        show room.counts users u = _
        omega
      · intro _
        omega
      · cases closed
      · cases closed
      · rw [moves.owed_eq rfl]
        exact acc.redis
    | false =>
      simp only [Bool.false_eq_true, if_false] at moves ⊢
      have entered : ∀ u, after.entered u + (decide (user = u)).toNat = before.entered u := by
        intro u
        simpa [Point.isEntered] using moves.entered u
      refine Leaving.accounted ⟨?_, ?_, acc.limited, ?_, acc.fresh, acc.unused, sub, ?_⟩
      · intro u
        have here := remaining u
        have count := entered u
        show (sockets.erase user).count u = _
        omega
      · intro users known u
        have here := acc.counts users known u
        have count := entered u
        rw [moves.releasing_eq rfl]
        show room.counts users u = _
        omega
      · exact iff_of_false opened (Option.some_ne_none _)
      · rw [moves.owed_eq rfl]
        exact acc.redis

theorem Accounted.releases (acc : Accounted maxConnections room before) {outcome : Outcome}
    (moves : before.Moves after user .releasing .ended) (executed : outcome.executed = true) :
    Accounted maxConnections ((room.countDecrement user outcome.executed).leave user) after := by
  have releasing : ∀ u, after.releasing u + (decide (user = u)).toNat = before.releasing u := by
    intro u
    simpa [Point.isReleasing] using moves.releasing u
  have owed : ∀ u, after.owed u + (decide (user = u)).toNat = before.owed u := by
    intro u
    simpa [Point.isOwed] using moves.owed u
  have waits : 0 < before.allReleasing := by
    have all : after.allReleasing + 1 = before.allReleasing := by
      simpa [Point.isReleasing] using moves.allReleasing
    omega
  refine Leaving.accounted ⟨?_, ?_, acc.limited, ⟨acc.known, acc.lasting waits⟩, acc.fresh,
    acc.unused, ⟨acc.subscribed.entry, acc.subscribed.running, acc.subscribed.live⟩, ?_⟩
  · rw [moves.entered_eq rfl]
    exact acc.sockets
  · intro users known u
    have here := acc.counts users known u
    have count := releasing u
    rw [moves.entered_eq rfl]
    show room.counts users u = _
    omega
  · intro u
    have known := acc.redis u
    have count := owed u
    show room.increments u =
      Function.update room.decrements user (room.decrements user + outcome.executed.toNat) u + _
    rw [update_add, executed, Bool.and_true]
    omega

/-- A careful step of a socket keeps what is there of its space in agreement. -/
theorem Accounted.next (acc : Accounted maxConnections room before) {outcome : Outcome}
    {point : Point}
    (moves : before.Moves after user point (room.next maxConnections user outcome point).2)
    (held : ∀ users ∈ point.users, room.users = some users)
    (bounded : ∀ u, before.releasing u ≤ before.allReleasing)
    (careful : room.Careful maxConnections user before.connecting before.allReleasing outcome
      point) :
    Accounted maxConnections (room.next maxConnections user outcome point).1 after := by
  cases point with
  | arriving => exact acc.arriving outcome moves bounded careful
  | refusing =>
    refine acc.ends moves rfl rfl rfl ?_
    rw [moves.connecting_eq rfl]
    exact acc.alone
  | incrementing users =>
    cases outcome with
    | ok count =>
      simp only [Room.next] at moves ⊢
      rw [← countDecrement_false (room.countIncrement user true) user]
      refine acc.goesOn moves rfl ?_ true false fun u => ?_
      · split
        · rfl
        · split <;> rfl
      · have owed := moves.owed u
        have counted : ((if count = 1 then Point.expiring users
            else if limit maxConnections < count then .decrementing users
            else .accepting users true) : Point).isOwed = true := by
          split
          · rfl
          · split <;> rfl
        rw [counted, show (Point.incrementing users).isOwed = false from rfl] at owed
        simp only [Bool.and_true, Bool.and_false, Bool.toNat_false] at owed ⊢
        omega
    | fails executed =>
      cases executed with
      | true => exact absurd rfl careful
      | false =>
        simp only [Room.next] at moves ⊢
        rw [← countDecrement_false (room.countIncrement user false) user]
        refine acc.goesOn moves rfl rfl false false fun u => ?_
        rw [moves.owed_eq rfl]
  | expiring =>
    simp only [Room.next] at moves ⊢
    rw [← countIncrement_false room user, ← countDecrement_false (room.countIncrement user false) user]
    refine acc.goesOn moves rfl rfl false false fun u => ?_
    rw [moves.owed_eq rfl]
  | decrementing =>
    cases outcome with
    | ok =>
      simp only [Room.next] at moves ⊢
      have going := acc.goesOn moves rfl rfl false true fun u => by
        have owed := moves.owed u
        simp only [Point.isOwed, Bool.and_true, Bool.and_false, Bool.toNat_false] at owed ⊢
        omega
      rwa [countIncrement_false] at going
    | fails executed =>
      cases executed with
      | true => exact absurd rfl careful
      | false =>
        simp only [Room.next] at moves ⊢
        have going := acc.goesOn moves rfl rfl false false fun u => by
          rw [moves.owed_eq rfl]
        rwa [countIncrement_false] at going
  | rejecting =>
    obtain ⟨closes, last⟩ := careful
    cases outcome with
    | ok => exact acc.ends moves rfl rfl rfl (alone_of_end moves last)
    | fails => cases closes
  | accepting users =>
    cases outcome with
    | ok => exact acc.enter moves (held users rfl) (careful.1 rfl)
    | fails =>
      obtain ⟨uncounted, last⟩ := careful.2 rfl
      subst uncounted
      exact acc.ends moves rfl rfl rfl (alone_of_end moves last)
  | entered => exact acc.leaves outcome moves
  | releasing => exact acc.releases moves careful.1
  | ended =>
    refine acc.ends moves rfl rfl rfl ?_
    rw [moves.connecting_eq rfl]
    exact acc.alone

end AverQel.Documents.Connections
