/- digest: Runs of connects, disconnects and subscriptions keep the accounting exact. -/
import AverQel.Documents.ConnectionAccounting

namespace AverQel.Documents.Connections

open Foundation.Transition Foundation.Interleaving

universe u v
variable {κ : Type u} {υ : Type v}

section Rooms

variable [DecidableEq υ] {maxConnections : Nat} {room : Room υ} {user : υ}

theorem users_leave (room : Room υ) (user : υ) (kept : room.active ≠ some []) :
    (room.leave user).users = room.users := by
  unfold Room.leave
  cases known : room.users with
  | none | some =>
    simp only
    exact known

theorem users_next {point : Point} {outcome : Outcome} {connecting releasing users : Nat}
    (careful : room.Careful maxConnections user connecting releasing outcome point)
    (held : room.users = some users) (waits : 0 < connecting) :
    (room.next maxConnections user outcome point).1.users = some users := by
  cases point with
  | arriving =>
    simp only [Room.next, Room.setDefault, held]
    split <;> exact held
  | refusing | expiring | ended => exact held
  | incrementing | decrementing | rejecting => cases outcome <;> exact held
  | accepting =>
    cases outcome with
    | ok =>
      simp only [Room.next, Room.enter]
      split <;> exact held
    | fails => exact held
  | entered counted =>
    cases active : room.active with
    | none =>
      simp only [Room.next, active]
      exact held
    | some =>
      cases counted with
      | true =>
        simp only [Room.next, active, if_true]
        exact held
      | false =>
        simp only [Room.next, active, Bool.false_eq_true, if_false]
        rw [users_leave]
        · exact held
        · intro emptied
          have last := careful rfl (by rw [active]; exact Option.some.inj emptied)
          omega
  | releasing =>
    simp only [Room.next]
    rw [users_leave]
    · exact held
    · intro emptied
      have last := careful.2 emptied
      omega

theorem held_next {point : Point} {outcome : Outcome} {connecting releasing : Nat}
    (careful : room.Careful maxConnections user connecting releasing outcome point)
    (held : ∀ users ∈ point.users, room.users = some users)
    (waits : point.isConnecting = true → 0 < connecting) :
    ∀ users ∈ (room.next maxConnections user outcome point).2.users,
      (room.next maxConnections user outcome point).1.users = some users := by
  intro users holds
  have same : ∀ old, point.users = some old →
      (room.next maxConnections user outcome point).2.users = some old →
      (room.next maxConnections user outcome point).1.users = some users := by
    intro old before after
    obtain rfl : users = old := Option.some.inj (holds.symm.trans after)
    refine users_next careful (held users before) (waits ?_)
    rw [Point.isConnecting, before]
    rfl
  cases point with
  | arriving =>
    cases known : room.users with
    | none =>
      simp only [Room.next, Room.setDefault, known] at holds ⊢
      split at holds
      · cases holds
      · rename_i below
        rw [if_neg below]
        exact holds
    | some old =>
      simp only [Room.next, Room.setDefault, known] at holds ⊢
      split at holds
      · cases holds
      · rename_i below
        rw [if_neg below]
        exact known.trans holds
  | refusing => cases holds
  | incrementing old =>
    refine same old rfl ?_
    cases outcome with
    | ok =>
      simp only [Room.next]
      split
      · rfl
      · split <;> rfl
    | fails => rfl
  | expiring old => exact same old rfl rfl
  | decrementing old => cases outcome <;> exact same old rfl rfl
  | rejecting old =>
    cases outcome with
    | ok => cases holds
    | fails => exact same old rfl rfl
  | accepting => cases outcome <;> cases holds
  | entered counted =>
    exfalso
    revert holds
    simp only [Room.next]
    cases room.active with
    | none => exact fun holds => by cases holds
    | some => cases counted <;> exact fun holds => by cases holds
  | releasing | ended => cases holds

end Rooms

section Managers

variable [DecidableEq κ]

theorem lookup_setEntry {β : Type v} (key other : κ) (value : Option β)
    (entries : AList fun _ : κ => β) :
    (setEntry key value entries).lookup other =
      if other = key then value else entries.lookup other := by
  by_cases same : other = key
  · subst same
    rw [if_pos rfl]
    cases value with
    | none => exact AList.lookup_erase other entries
    | some => exact AList.lookup_insert entries
  · rw [if_neg same]
    cases value with
    | none => exact AList.lookup_erase_ne same
    | some => exact AList.lookup_insert_ne same

theorem room_put (manager : Manager κ υ) (space : κ) (room : Room υ) :
    (manager.put space room).room space = room := by
  simp only [Manager.room, Manager.put, lookup_setEntry, if_true, Function.update_self]

theorem room_put_of_ne (manager : Manager κ υ) {space other : κ} (room : Room υ)
    (apart : other ≠ space) : (manager.put space room).room other = manager.room other := by
  simp only [Manager.room, Manager.put, lookup_setEntry, if_neg apart,
    Function.update_of_ne apart]

theorem eq_empty_of_lookup {β : Type v} {entries : AList fun _ : κ => β}
    (nothing : ∀ key, entries.lookup key = none) : entries = ∅ := by
  apply AList.ext
  refine List.eq_nil_iff_forall_not_mem.mpr fun entry inside => ?_
  have known := AList.mem_lookup_iff.mpr inside
  rw [nothing] at known
  cases known

end Managers

variable [DecidableEq κ] [DecidableEq υ] {maxConnections : Nat}

def tallyAt (calls : List (Call κ υ)) (space : κ) : Tally υ where
  entered user := numberOf calls space user Point.isEntered
  releasing user := numberOf calls space user Point.isReleasing
  owed user := numberOf calls space user Point.isOwed
  allReleasing := number calls space Point.isReleasing
  connecting := number calls space Point.isConnecting

theorem numberOf_le_number (calls : List (Call κ υ)) (space : κ) (user : υ) (p : Point → Bool) :
    numberOf calls space user p ≤ number calls space p := by
  apply List.countP_mono_left
  intro call _ here
  simp only [Bool.and_eq_true, decide_eq_true_eq] at here ⊢
  exact ⟨here.1.1, here.2⟩

omit [DecidableEq υ] in
theorem number_pos {calls : List (Call κ υ)} {call : Call κ υ} {p : Point → Bool}
    (inside : call ∈ calls) (here : p call.point = true) : 0 < number calls call.space p := by
  refine List.countP_pos_iff.mpr ⟨call, inside, ?_⟩
  rw [here, decide_eq_true rfl]
  rfl

theorem numberOf_set {calls : List (Call κ υ)} {i : Nat} {call : Call κ υ}
    (here : calls[i]? = some call) (new : Point) (space : κ) (u : υ) (p : Point → Bool) :
    numberOf (calls.set i { call with point := new }) space u p +
        (decide (call.space = space ∧ call.user = u) && p call.point).toNat =
      numberOf calls space u p + (decide (call.space = space ∧ call.user = u) && p new).toNat :=
  countP_set_add (⟨call.space, call.user, new⟩ : Call κ υ)
    (fun other : Call κ υ => decide (other.space = space ∧ other.user = u) && p other.point) here

omit [DecidableEq υ] in
theorem number_set {calls : List (Call κ υ)} {i : Nat} {call : Call κ υ}
    (here : calls[i]? = some call) (new : Point) (space : κ) (p : Point → Bool) :
    number (calls.set i { call with point := new }) space p +
        (decide (call.space = space) && p call.point).toNat =
      number calls space p + (decide (call.space = space) && p new).toNat :=
  countP_set_add (⟨call.space, call.user, new⟩ : Call κ υ)
    (fun other : Call κ υ => decide (other.space = space) && p other.point) here

theorem moves_tallyAt {calls : List (Call κ υ)} {i : Nat} {call : Call κ υ}
    (here : calls[i]? = some call) (new : Point) :
    (tallyAt calls call.space).Moves (tallyAt (calls.set i { call with point := new }) call.space)
      call.user call.point new := by
  have byUser : ∀ (p : Point → Bool) (u : υ),
      numberOf (calls.set i { call with point := new }) call.space u p +
          (decide (call.user = u) && p call.point).toNat =
        numberOf calls call.space u p + (decide (call.user = u) && p new).toNat := by
    intro p u
    simpa only [true_and] using numberOf_set here new call.space u p
  have bySpace : ∀ p : Point → Bool,
      number (calls.set i { call with point := new }) call.space p + (p call.point).toNat =
        number calls call.space p + (p new).toNat := by
    intro p
    simpa only [decide_true, Bool.true_and] using number_set here new call.space p
  exact ⟨byUser _, byUser _, byUser _, bySpace _, bySpace _, fun u => numberOf_le_number _ _ u _⟩

theorem tallyAt_set_of_ne {calls : List (Call κ υ)} {i : Nat} {call : Call κ υ}
    (here : calls[i]? = some call) (new : Point) {space : κ} (apart : space ≠ call.space) :
    tallyAt (calls.set i { call with point := new }) space = tallyAt calls space := by
  have byUser : ∀ (p : Point → Bool) (u : υ),
      numberOf (calls.set i { call with point := new }) space u p = numberOf calls space u p := by
    intro p u
    simpa only [Ne.symm apart, false_and, decide_false, Bool.false_and, Bool.toNat_false,
      Nat.add_zero] using numberOf_set here new space u p
  have bySpace : ∀ p : Point → Bool,
      number (calls.set i { call with point := new }) space p = number calls space p := by
    intro p
    simpa only [Ne.symm apart, decide_false, Bool.false_and, Bool.toNat_false,
      Nat.add_zero] using number_set here new space p
  simp only [tallyAt, byUser, bySpace]

/-- Every space agrees with its sockets, and every connect holds the dictionary of its space. -/
structure Sound (maxConnections : Nat) (server : Server κ υ) : Prop where
  accounted : ∀ space,
    Accounted maxConnections (server.manager.room space) (tallyAt server.calls space)
  held : ∀ call ∈ server.calls, ∀ users ∈ call.point.users,
    (server.manager.room call.space).users = some users

theorem sound_socket {server : Server κ υ} {i : Nat} {outcome : Outcome}
    (sound : Sound maxConnections server) (careful : Careful maxConnections server (.socket i outcome)) :
    Sound maxConnections (server.step maxConnections (.socket i outcome)) := by
  cases here : server.calls[i]? with
  | none =>
    simp only [Server.step, here]
    exact sound
  | some call =>
    have inside := List.mem_of_getElem? here
    have holds := careful call here
    have mine := sound.held call inside
    simp only [Server.step, here]
    constructor
    · intro space
      by_cases same : space = call.space
      · subst same
        simp only [room_put]
        exact (sound.accounted call.space).next (moves_tallyAt here _) mine
          (fun u => numberOf_le_number _ _ u _) holds
      · simp only [room_put_of_ne _ _ same, tallyAt_set_of_ne here _ same]
        exact sound.accounted space
    · intro other among users waits
      obtain ⟨j, at_j⟩ := List.mem_iff_getElem?.mp among
      rcases (getElem?_set_iff here).mp at_j with ⟨_, rfl⟩ | ⟨_, before⟩
      · simp only [room_put]
        exact held_next holds mine (number_pos inside) users waits
      · have known := sound.held other (List.mem_of_getElem? before) users waits
        by_cases same : other.space = call.space
        · rw [same] at known ⊢
          simp only [room_put]
          refine users_next holds known ?_
          rw [← same]
          refine number_pos (List.mem_of_getElem? before) ?_
          rw [Point.isConnecting, show other.point.users = some users from waits]
          rfl
        · simp only [room_put_of_ne _ _ same]
          exact known

theorem Accounted.loopNext {room : Room υ} {tally : Tally υ}
    (acc : Accounted maxConnections room tally) (task : Nat) (event : LoopEvent)
    (careful : event = .subscribeFails → room.loops[task]? ≠ some .subscribing) :
    Accounted maxConnections (room.loopNext task event) tally := by
  have same : ∃ loops entry, room.loopNext task event =
      { room with loops := loops, task := entry } := by
    unfold Room.loopNext
    split
    · exact ⟨_, _, rfl⟩
    · exact ⟨_, _, rfl⟩
    · exact ⟨_, _, rfl⟩
    · split <;> exact ⟨_, _, rfl⟩
    · exact ⟨_, _, rfl⟩
  have sub := subscribed_loopNext acc.subscribed task event careful
  obtain ⟨loops, entry, shape⟩ := same
  rw [shape] at sub ⊢
  exact ⟨acc.sockets, acc.counts, acc.limited, acc.known, acc.emptied, acc.lasting, acc.alone,
    acc.fresh, acc.unused, sub, acc.redis⟩

omit [DecidableEq υ] in
theorem users_loopNext (room : Room υ) (task : Nat) (event : LoopEvent) :
    (room.loopNext task event).users = room.users := by
  unfold Room.loopNext
  split
  · rfl
  · rfl
  · rfl
  · split <;> rfl
  · rfl

theorem sound_step {server : Server κ υ} {turn : Turn κ} (sound : Sound maxConnections server)
    (careful : Careful maxConnections server turn) :
    Sound maxConnections (server.step maxConnections turn) := by
  cases turn with
  | socket => exact sound_socket sound careful
  | loop space task event =>
    constructor
    · intro other
      by_cases same : other = space
      · subst same
        simp only [Server.step, room_put]
        exact (sound.accounted other).loopNext task event careful
      · simp only [Server.step, room_put_of_ne _ _ same]
        exact sound.accounted other
    · intro call inside users waits
      have known := sound.held call inside users waits
      by_cases same : call.space = space
      · subst same
        simp only [Server.step, room_put, users_loopNext]
        exact known
      · simp only [Server.step, room_put_of_ne _ _ same]
        exact known

theorem sound_empty {calls : List (Call κ υ)} (fresh : ∀ call ∈ calls, call.point = .arriving) :
    Sound maxConnections ⟨Manager.empty, calls⟩ := by
  have byUser : ∀ (space : κ) (u : υ) (p : Point → Bool), p .arriving = false →
      numberOf calls space u p = 0 := by
    intro space u p away
    refine List.countP_eq_zero.mpr fun call inside => ?_
    simp [fresh call inside, away]
  constructor
  · intro space
    have closed : (Manager.empty : Manager κ υ).room space =
        { toObjects := Objects.none, active := none, users := none, task := none } := by
      simp only [Manager.room, Manager.empty, AList.lookup_empty]
    rw [closed]
    refine ⟨fun u => ?_, fun _ known => (by cases known), fun _ known => (by cases known),
      fun _ => rfl, fun emptied => (by cases emptied), fun _ _ => rfl,
      fun _ kept => absurd rfl kept, fun _ known => (by cases known), fun _ _ _ => rfl,
      ⟨iff_of_true rfl rfl, fun _ known => (by cases known), fun _ _ here => ?_⟩, fun u => ?_⟩
    · exact (byUser space u _ rfl).symm
    · cases here
    · show 0 = 0 + numberOf calls space u Point.isOwed
      rw [byUser space u _ rfl]
  · intro call inside users waits
    rw [fresh call inside] at waits
    cases waits

omit [DecidableEq υ] in
theorem countP_isLive {room : Room υ} (sub : Subscribed room) {task : Nat}
    (entry : room.task = some task) : room.loops.countP LoopPoint.isLive = 1 := by
  obtain ⟨point, here, alive⟩ := sub.running task entry
  have others : (room.loops.set task .ended).countP LoopPoint.isLive = 0 := by
    refine List.countP_eq_zero.mpr fun other among living => ?_
    obtain ⟨j, at_j⟩ := List.mem_iff_getElem?.mp among
    rcases (getElem?_set_iff here).mp at_j with ⟨_, rfl⟩ | ⟨apart, before⟩
    · cases living
    · have mine := sub.live j other before living
      exact apart (Option.some.inj (mine.symm.trans entry))
  have count := countP_set_add LoopPoint.ended LoopPoint.isLive here
  rw [others, alive, show LoopPoint.ended.isLive = false from rfl] at count
  exact count.symm

theorem Sound.closed {server : Server κ υ} (sound : Sound maxConnections server)
    (away : ∀ call ∈ server.calls, call.point.isAway = true) (space : κ) :
    (server.manager.room space).active = none ∧ (server.manager.room space).users = none ∧
      (server.manager.room space).task = none ∧ ∀ user,
        (server.manager.room space).increments user =
          (server.manager.room space).decrements user := by
  have acc := sound.accounted space
  have bySpace : ∀ p : Point → Bool, (∀ point : Point, point.isAway = true → p point = false) →
      number server.calls space p = 0 := by
    intro p absent
    refine List.countP_eq_zero.mpr fun call inside => ?_
    rw [absent call.point (away call inside)]
    simp
  have byUser : ∀ (p : Point → Bool) (user : υ),
      (∀ point : Point, point.isAway = true → p point = false) →
      numberOf server.calls space user p = 0 := by
    intro p user absent
    have bound := numberOf_le_number server.calls space user p
    have nothing := bySpace p absent
    omega
  have entered : ∀ user, numberOf server.calls space user Point.isEntered = 0 := by
    intro user
    apply byUser
    intro point gone
    cases point <;> first | rfl | cases gone
  have owed : ∀ user, numberOf server.calls space user Point.isOwed = 0 := by
    intro user
    apply byUser
    intro point gone
    cases point <;> first | rfl | cases gone
  have releasing : number server.calls space Point.isReleasing = 0 := by
    apply bySpace
    intro point gone
    cases point <;> first | rfl | cases gone
  have connecting : number server.calls space Point.isConnecting = 0 := by
    apply bySpace
    intro point gone
    cases point <;> first | rfl | cases gone
  have closed : (server.manager.room space).active = none := by
    cases active : (server.manager.room space).active with
    | none => rfl
    | some sockets =>
      cases sockets with
      | nil => exact absurd (acc.emptied active) (by simp [tallyAt, releasing])
      | cons user =>
        have count := acc.sockets user
        rw [active, Option.getD_some, List.count_cons_self] at count
        have nobody : (tallyAt server.calls space).entered user = 0 := entered user
        omega
  refine ⟨closed, ?_, acc.subscribed.entry.mpr closed, fun user => ?_⟩
  · by_contra kept
    exact absurd (acc.alone closed kept) (by simp [tallyAt, connecting])
  · rw [acc.redis user]
    exact congrArg _ (owed user)

theorem Sound.exact {server : Server κ υ} (sound : Sound maxConnections server) :
    Exact maxConnections server := by
  have opened : ∀ space user, 0 < server.manager.socketsOf space user →
      (server.manager.room space).active ≠ none := by
    intro space user some_socket closed
    rw [Manager.socketsOf, closed] at some_socket
    exact absurd some_socket (Nat.lt_irrefl 0)
  constructor
  · intro space user
    have acc := sound.accounted space
    have sockets := acc.sockets user
    rw [Manager.socketsOf, sockets, Manager.countOf]
    cases known : (server.manager.room space).users with
    | none =>
      rw [acc.known known] at sockets
      exact iff_of_true sockets (.inr rfl)
    | some users =>
      simp only [acc.counts users known user, reduceCtorEq, or_false]
      show _ + (tallyAt server.calls space).releasing user = _ ↔
        (tallyAt server.calls space).releasing user = 0
      omega
  · intro space user
    have acc := sound.accounted space
    rw [Manager.countOf]
    cases known : (server.manager.room space).users with
    | none => exact Nat.zero_le _
    | some users => exact acc.limited users known user
  · intro space user some_socket
    have acc := sound.accounted space
    cases known : (server.manager.room space).users with
    | none => exact absurd (acc.known known) (opened space user some_socket)
    | some users =>
      have count := acc.counts users known user
      rw [← acc.sockets user] at count
      refine List.any_eq_true.mpr ⟨⟨space, users⟩, AList.mem_lookup_iff.mp known, ?_⟩
      rw [decide_eq_true_eq]
      show 0 < (server.manager.room space).counts users user
      rw [Manager.socketsOf] at some_socket
      omega
  · intro space user some_socket
    have sub := (sound.accounted space).subscribed
    obtain ⟨task, entry⟩ := Option.ne_none_iff_exists'.mp
      fun nothing => opened space user some_socket (sub.entry.mp nothing)
    obtain ⟨point, here, alive⟩ := sub.running task entry
    exact ⟨countP_isLive sub entry, task, point, entry, here, alive⟩
  · intro away
    exact ⟨eq_empty_of_lookup fun space => (sound.closed away space).1,
      eq_empty_of_lookup fun space => (sound.closed away space).2.1,
      eq_empty_of_lookup fun space => (sound.closed away space).2.2.1,
      fun space user => (sound.closed away space).2.2.2 user⟩

/-- From an empty manager, in every run of careful turns of any sockets of any users and spaces, the
accounting is exact in every state. -/
theorem exact_of_careful (maxConnections : Nat) {calls : List (Call κ υ)}
    (fresh : ∀ call ∈ calls, call.point = .arriving) {turns : List (Turn κ)}
    (careful : Guarded (Careful maxConnections) (Server.step maxConnections)
      ⟨Manager.empty, calls⟩ turns) :
    ∀ reached ∈ trace (Server.step maxConnections) ⟨Manager.empty, calls⟩ turns,
      Exact maxConnections reached := by
  have all := invariant_of_guarded (I := Sound maxConnections)
    (fun _ _ sound holds => sound_step sound holds) (sound_empty fresh) careful
  exact fun reached visited => (all reached visited).exact

def comesAndGoes : List (Turn Nat) :=
  [.socket 0 (.ok 0), .socket 1 (.ok 0), .socket 0 (.ok 1), .socket 0 (.ok 1), .socket 0 (.ok 0),
    .loop 5 0 .subscribed, .socket 1 (.fails false), .socket 1 (.ok 0), .socket 0 (.ok 0),
    .loop 5 0 .listenFails, .socket 0 (.ok 0), .loop 5 0 .wakes, .socket 1 (.ok 0)]

def twoArriving : Server Nat Nat := ⟨Manager.empty, [⟨5, 70, .arriving⟩, ⟨5, 71, .arriving⟩]⟩

theorem exact_of_careful_comesAndGoes :
    Guarded (Careful 1) (Server.step 1) twoArriving comesAndGoes ∧
      ∀ reached ∈ trace (Server.step 1) twoArriving comesAndGoes, Exact 1 reached := by
  have guarded : Guarded (Careful 1) (Server.step 1) twoArriving comesAndGoes := by
    decide +kernel
  exact ⟨guarded, exact_of_careful 1 (by decide) guarded⟩

def leavesMeanwhile : List (Turn Nat) :=
  [.socket 0 (.ok 0), .socket 0 (.fails false), .socket 0 (.ok 0), .socket 1 (.ok 0),
    .socket 1 (.fails false), .socket 0 (.ok 0), .socket 1 (.ok 0)]

theorem not_exact_leavesMeanwhile :
    let server := run (Server.step 1)
      (⟨Manager.empty, [⟨5, 70, .arriving⟩, ⟨5, 71, .arriving⟩]⟩ : Server Nat Nat) leavesMeanwhile
    server.calls = [⟨5, 70, .ended⟩, ⟨5, 71, .entered false⟩] ∧
      server.manager.socketsOf 5 71 = 1 ∧ server.manager.countOf 5 71 = 0 ∧
      server.manager.hasUserConnection 71 = false := by
  decide +kernel

end AverQel.Documents.Connections
