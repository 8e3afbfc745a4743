/- digest: A socket that comes back to the events of a space: the log, the replay and the channel. -/
import AverQel.Foundation.Transition

namespace AverQel.Documents.EventReplay

open Foundation.Transition

universe u
variable {α : Type u}

structure Wire (α : Type u) where
  cursor : Option Nat
  event : α
  deriving DecidableEq

/-- How far a socket has come; `registered` has not read the replay yet. -/
inductive SocketPoint (α : Type u) where
  | away
  | registered
  | replaying (rest : List (Wire α))
  | live

namespace SocketPoint

def isAway : SocketPoint α → Bool
  | .away => true
  | _ => false

def isLive : SocketPoint α → Bool
  | .live => true
  | _ => false

def hasRead : SocketPoint α → Bool
  | .replaying _ => true
  | .live => true
  | _ => false

def rest : SocketPoint α → List (Wire α)
  | .replaying rest => rest
  | _ => []

end SocketPoint

/-- The events of a space and one socket: the log, the publications that have written it or failed
to and have not reached the channel yet, what the channel holds for the socket, and what the client
has received. -/
structure Feed (α : Type u) where
  log : List α
  (publishing channel : List (Wire α))
  point : SocketPoint α
  received : List (Wire α)

/-- The steps of `publish_event` and of a connection, in any order. -/
inductive FeedMove (α : Type u) where
  | append (event : α)
  | appendFails (event : α)
  | publish (i : Nat)
  | publishFails (i : Nat)
  | register
  | replay
  | sendReplayed
  | sendLive

def replayCount : Nat := 100

/-- `replay_events`, one batch of the entries after the cursor. -/
def replayEvents (log : List α) (last : Nat) : List (Wire α) :=
  ((log.zipIdx.drop last).take replayCount).map fun entry => ⟨some entry.2, entry.1⟩

namespace Feed

/-- One step. `last` is the `last_event_id` of the client: the log had that many entries up to it. -/
def step (last : Nat) (s : Feed α) : FeedMove α → Feed α
  | .append event =>
    { s with
      log := s.log ++ [event]
      publishing := s.publishing ++ [⟨some s.log.length, event⟩] }
  | .appendFails event => { s with publishing := s.publishing ++ [⟨none, event⟩] }
  | .publish i =>
    match s.publishing[i]? with
    | none => s
    | some wire =>
      { s with
        publishing := s.publishing.eraseIdx i
        channel := if s.point.isAway then s.channel else s.channel ++ [wire] }
  | .publishFails i => { s with publishing := s.publishing.eraseIdx i }
  | .register => if s.point.isAway then { s with point := .registered } else s
  | .replay =>
    match s.point with
    | .registered => { s with point := .replaying (replayEvents s.log last) }
    | _ => s
  | .sendReplayed =>
    match s.point with
    | .replaying (wire :: rest) =>
      { s with point := .replaying rest, received := s.received ++ [wire] }
    | .replaying [] => { s with point := .live }
    | _ => s
  | .sendLive =>
    match s.channel with
    | wire :: rest => { s with channel := rest, received := s.received ++ [wire] }
    | [] => s

end Feed

def keep (last : Nat) (kept : List Nat) (wire : Wire α) : List Nat :=
  match wire.cursor with
  | none => kept
  | some place => if place < last ∨ place ∈ kept then kept else kept ++ [place]

namespace Feed

variable (last : Nat) (s : Feed α)

def kept : List Nat := s.received.foldl (keep last) []

def Settled : Prop := s.point.isLive = true ∧ s.publishing = [] ∧ s.channel = []

structure LosesNothing : Prop where
  complete : s.Settled → ∀ place event, last ≤ place → s.log[place]? = some event →
    ⟨some place, event⟩ ∈ s.received
  ordered : (s.kept last).Pairwise (· < ·)

def places (wires : List (Wire α)) : List Nat := wires.filterMap Wire.cursor

/-- The condition on a step. The replay leaves out only events that still come from the channel.
While the socket is there, publications reach the channel in the order of the log, and once it has
read the replay, none of a logged event fails. Before the replay is sent, the channel sends no event
before one that is not received yet. -/
def Careful : FeedMove α → Prop
  | .publish i => s.point.isAway = false → ∀ wire ∈ s.publishing[i]?, ∀ place ∈ wire.cursor,
      ∀ earlier ∈ places s.publishing, place ≤ earlier
  | .publishFails i => s.point.hasRead = true → ∀ wire ∈ s.publishing[i]?, wire.cursor.isNone = true
  | .replay => s.point.hasRead = false → s.point.isAway = false →
      ∀ place < s.log.length, last + replayCount ≤ place →
        place ∈ places (s.publishing ++ s.channel ++ s.received)
  | .sendLive => s.point.isLive = false → ∀ wire ∈ s.channel.head?, ∀ place ∈ wire.cursor,
      ∀ earlier < place, last ≤ earlier → earlier ∈ s.kept last
  | _ => True

instance : ∀ move : FeedMove α, Decidable (s.Careful last move)
  | .publish .. | .publishFails .. | .replay => by dsimp only [Careful]; infer_instance
  | .sendLive => by dsimp only [Careful]; exact instDecidableForall
  | .append _ | .appendFails _ | .register | .sendReplayed => .isTrue trivial

/-- Where the client comes back: the log and the publications under way are any. -/
structure Away : Prop where
  away : s.point = .away
  channel : s.channel = []
  received : s.received = []
  logged : ∀ wire ∈ s.publishing, ∀ place ∈ wire.cursor, s.log[place]? = some wire.event

end Feed

section Kept

variable {last : Nat} {kept : List Nat} {wire : Wire α}

theorem mem_foldl_keep (last : Nat) (kept : List Nat) (wires : List (Wire α)) (place : Nat) :
    place ∈ wires.foldl (keep last) kept ↔
      place ∈ kept ∨ last ≤ place ∧ place ∈ Feed.places wires := by
  induction wires generalizing kept with
  | nil => simp [Feed.places]
  | cons wire rest ih =>
    rw [List.foldl_cons, ih]
    cases cursor : wire.cursor with
    | none => simp [keep, cursor, Feed.places]
    | some here =>
      have step : place ∈ keep last kept wire ↔ place ∈ kept ∨ last ≤ place ∧ place = here := by
        simp only [keep, cursor]
        split
        · rename_i seen
          constructor
          · exact .inl
          · rintro (old | ⟨late, rfl⟩)
            · exact old
            · exact seen.resolve_left (by omega)
        · rename_i new
          rw [List.mem_append, List.mem_singleton]
          constructor
          · rintro (old | rfl)
            · exact .inl old
            · exact .inr ⟨by omega, rfl⟩
          · rintro (old | ⟨_, same⟩)
            · exact .inl old
            · exact .inr same
      rw [step]
      simp only [Feed.places, List.filterMap_cons, cursor, List.mem_cons]
      tauto

theorem keep_next (shape : kept = List.range' last kept.length)
    (next : ∀ place ∈ wire.cursor, place ≤ last + kept.length) :
    keep last kept wire = List.range' last (keep last kept wire).length ∧
      kept.length ≤ (keep last kept wire).length ∧
      ∀ place ∈ wire.cursor, place < last + (keep last kept wire).length := by
  cases cursor : wire.cursor with
  | none =>
    simp only [keep, cursor]
    exact ⟨shape, Nat.le_refl _, fun place found => by cases found⟩
  | some here =>
    have bound := next here cursor
    simp only [keep, cursor]
    split
    · rename_i seen
      refine ⟨shape, Nat.le_refl _, ?_⟩
      rintro _ ⟨⟩
      rcases seen with old | listed
      · omega
      · rw [shape, List.mem_range'_1] at listed
        simpa using listed.2
    · rename_i new
      have exact_place : here = last + kept.length := by
        have unseen : here ∉ List.range' last kept.length := fun listed =>
          new (.inr (shape ▸ listed))
        rw [List.mem_range'_1] at unseen
        omega
      refine ⟨?_, ?_, ?_⟩
      · rw [List.length_append, List.length_singleton, List.range'_1_concat, ← shape, exact_place]
      · simp
      · rintro _ ⟨⟩
        simp only [List.length_append, List.length_singleton]
        omega

end Kept

namespace Feed

variable {last : Nat} {s : Feed α} {wire : Wire α}

/-- What holds of a socket while its steps are careful. -/
structure Following (last : Nat) (s : Feed α) : Prop where
  logged : ∀ wire ∈ s.publishing ++ s.channel ++ s.point.rest ++ s.received,
    ∀ place ∈ wire.cursor, s.log[place]? = some wire.event
  shape : s.kept last = List.range' last (s.kept last).length
  away : s.point.isAway = true → s.channel = []
  sorted : (places s.channel).Pairwise (· ≤ ·)
  apart : ∀ a ∈ places s.channel, ∀ b ∈ places s.publishing, a ≤ b
  rest : ∃ first, s.point.rest.map Wire.cursor =
    (List.range' first s.point.rest.length).map some ∧ first ≤ last + (s.kept last).length
  onWay : s.point.hasRead = true → ∀ place < s.log.length, last ≤ place →
    place ∈ s.kept last ∨ place ∈ places (s.point.rest ++ s.channel ++ s.publishing)

variable {wires : List (Wire α)}

theorem mem_places {place : Nat} :
    place ∈ places wires ↔ ∃ wire ∈ wires, wire.cursor = some place :=
  List.mem_filterMap

theorem mem_places_append {first second : List (Wire α)} {place : Nat} :
    place ∈ places (first ++ second) ↔ place ∈ places first ∨ place ∈ places second := by
  rw [places, List.filterMap_append, List.mem_append]
  rfl

theorem mem_kept (last : Nat) (s : Feed α) (place : Nat) :
    place ∈ s.kept last ↔ last ≤ place ∧ place ∈ places s.received := by
  rw [kept, mem_foldl_keep]
  simp

theorem Following.mem_kept_iff (follows : s.Following last) {place : Nat} :
    place ∈ s.kept last ↔ last ≤ place ∧ place < last + (s.kept last).length := by
  rw [follows.shape, List.mem_range'_1, List.length_range']

theorem Following.lt_log (follows : s.Following last) {place : Nat}
    (known : wires ⊆ s.publishing ++ s.channel ++ s.point.rest ++ s.received)
    (listed : place ∈ places wires) : place < s.log.length := by
  obtain ⟨wire, member, cursor⟩ := mem_places.mp listed
  exact (List.getElem?_eq_some_iff.mp (follows.logged wire (known member) place cursor)).1

theorem kept_receive (last : Nat) (s : Feed α) (wire : Wire α) (point : SocketPoint α)
    (channel : List (Wire α)) :
    kept last { s with
      point := point
      channel := channel
      received := s.received ++ [wire] } = keep last (s.kept last) wire := by
  rw [kept, List.foldl_append]
  rfl

theorem following_away (begins : s.Away) : s.Following last where
  logged wire member place cursor := by
    rw [begins.channel, begins.away, begins.received] at member
    simp only [SocketPoint.rest, List.append_nil] at member
    exact begins.logged wire member place cursor
  shape := by
    rw [kept, begins.received]
    rfl
  away _ := begins.channel
  sorted := by
    rw [begins.channel]
    exact List.Pairwise.nil
  apart a listed := by
    rw [begins.channel] at listed
    exact absurd listed List.not_mem_nil
  rest := by
    rw [begins.away]
    exact ⟨0, rfl, Nat.zero_le _⟩
  onWay read := by
    rw [begins.away] at read
    cases read

theorem following_append (follows : s.Following last) (event : α) :
    (s.step last (.append event)).Following last := by
  have grows : ∀ (place : Nat) (known : α), s.log[place]? = some known →
      (s.log ++ [event])[place]? = some known := by
    intro place known here
    rw [List.getElem?_append_left (List.getElem?_eq_some_iff.mp here).1]
    exact here
  refine ⟨?_, follows.shape, follows.away, follows.sorted, ?_, follows.rest, ?_⟩
  · intro wire member place cursor
    simp only [step, List.mem_append, List.mem_singleton] at member
    by_cases new : wire = ⟨some s.log.length, event⟩
    · subst new
      cases cursor
      exact List.getElem?_concat_length
    · refine grows place wire.event (follows.logged wire ?_ place cursor)
      simp only [List.mem_append]
      tauto
  · intro a listed b published
    rcases mem_places_append.mp published with old | new
    · exact follows.apart a listed b old
    · obtain rfl : b = s.log.length := by simpa [places] using new
      refine Nat.le_of_lt (follows.lt_log (fun wire member => ?_) listed)
      simp only [List.mem_append]
      exact .inl (.inl (.inr member))
  · intro read place inside late
    simp only [step, List.length_append, List.length_singleton] at inside
    by_cases new : place = s.log.length
    · right
      rw [mem_places_append, new]
      exact .inr (mem_places.mpr ⟨_, List.mem_append_right _ (List.mem_singleton_self _), rfl⟩)
    · rcases follows.onWay read place (by omega) late with arrived | coming
      · exact .inl arrived
      · right
        rw [mem_places_append] at coming ⊢
        refine coming.imp_right fun published => ?_
        exact mem_places_append.mpr (.inl published)

theorem following_appendFails (follows : s.Following last) (event : α) :
    (s.step last (.appendFails event)).Following last := by
  have same : places (s.publishing ++ [⟨none, event⟩]) = places s.publishing := by
    simp [places]
  refine ⟨?_, follows.shape, follows.away, follows.sorted, ?_, follows.rest, ?_⟩
  · intro wire member place cursor
    simp only [step, List.mem_append, List.mem_singleton] at member
    by_cases new : wire = ⟨none, event⟩
    · subst new
      cases cursor
    · refine follows.logged wire ?_ place cursor
      simp only [List.mem_append]
      tauto
  · intro a listed b published
    exact follows.apart a listed b (same ▸ published)
  · intro read place inside late
    refine (follows.onWay read place inside late).imp_right fun coming => ?_
    rw [mem_places_append] at coming ⊢
    exact coming.imp_right fun published => same.symm ▸ published

theorem mem_of_publishing {i : Nat} (here : s.publishing[i]? = some wire) {place : Nat}
    (listed : place ∈ places s.publishing) :
    wire.cursor = some place ∨ place ∈ places (s.publishing.eraseIdx i) := by
  obtain ⟨other, member, cursor⟩ := mem_places.mp listed
  obtain ⟨j, there⟩ := List.mem_iff_getElem?.mp member
  by_cases same : j = i
  · left
    rw [same, here] at there
    cases there
    exact cursor
  · right
    exact mem_places.mpr ⟨other, List.mem_eraseIdx_iff_getElem?.mpr ⟨j, same, there⟩, cursor⟩

theorem mem_of_eraseIdx {i place : Nat} (listed : place ∈ places (wires.eraseIdx i)) :
    place ∈ places wires := by
  obtain ⟨wire, member, cursor⟩ := mem_places.mp listed
  exact mem_places.mpr ⟨wire, List.mem_of_mem_eraseIdx member, cursor⟩

theorem mem_places_singleton {place : Nat} : place ∈ places [wire] ↔ wire.cursor = some place := by
  simp [mem_places]

/-- A message leaves the publisher, and no socket waits for it. -/
theorem following_eraseIdx (follows : s.Following last) {i : Nat}
    (spared : s.point.hasRead = true →
      ∀ place ∈ places s.publishing, place ∈ places (s.publishing.eraseIdx i)) :
    { s with publishing := s.publishing.eraseIdx i }.Following last := by
  refine ⟨?_, follows.shape, follows.away, follows.sorted, ?_, follows.rest, ?_⟩
  · intro other member place cursor
    refine follows.logged other ?_ place cursor
    simp only [List.mem_append] at member ⊢
    have known := @List.mem_of_mem_eraseIdx _ s.publishing i other
    tauto
  · exact fun a listed b published => follows.apart a listed b (mem_of_eraseIdx published)
  · intro read place before late
    refine (follows.onWay read place before late).imp_right fun coming => ?_
    rw [mem_places_append] at coming ⊢
    exact coming.imp_right (spared read place)

theorem following_publish (follows : s.Following last) {i : Nat}
    (careful : s.Careful last (.publish i)) : (s.step last (.publish i)).Following last := by
  cases here : s.publishing[i]? with
  | none =>
    simp only [step, here]
    exact follows
  | some wire =>
    have inside := List.mem_of_getElem? here
    cases away : s.point.isAway with
    | true =>
      simp only [step, here, away, if_true]
      refine following_eraseIdx follows fun read => ?_
      cases point : s.point <;> simp [point, SocketPoint.isAway, SocketPoint.hasRead] at away read
    | false =>
      have first := careful away wire here
      simp only [step, here, away, Bool.false_eq_true, if_false]
      refine ⟨?_, follows.shape, ?_, ?_, ?_, follows.rest, ?_⟩
      · intro other member place cursor
        refine follows.logged other ?_ place cursor
        simp only [List.mem_append, List.mem_singleton] at member ⊢
        have known := @List.mem_of_mem_eraseIdx _ s.publishing i other
        by_cases own : other = wire
        · rw [own]
          exact .inl (.inl (.inl inside))
        · tauto
      · intro wrong
        rw [away] at wrong
        cases wrong
      · show (places (s.channel ++ [wire])).Pairwise _
        rw [places, List.filterMap_append, List.pairwise_append]
        refine ⟨follows.sorted, ?_, ?_⟩
        · cases cursor : wire.cursor <;> simp [cursor]
        · intro a listed b own
          have cursor := mem_places_singleton.mp own
          exact follows.apart a listed b (mem_places.mpr ⟨wire, inside, cursor⟩)
      · intro a listed b published
        have old := mem_of_eraseIdx published
        rcases mem_places_append.mp listed with sent | own
        · exact follows.apart a sent b old
        · exact first a (mem_places_singleton.mp own) b old
      · intro read place before late
        refine (follows.onWay read place before late).imp_right fun coming => ?_
        simp only [mem_places_append] at coming ⊢
        rcases coming with (rest | sent) | published
        · exact .inl (.inl rest)
        · exact .inl (.inr (.inl sent))
        · rcases mem_of_publishing here published with own | waits
          · exact .inl (.inr (.inr (mem_places_singleton.mpr own)))
          · exact .inr waits

theorem following_publishFails (follows : s.Following last) {i : Nat}
    (careful : s.Careful last (.publishFails i)) :
    (s.step last (.publishFails i)).Following last := by
  refine following_eraseIdx follows fun read place published => ?_
  cases here : s.publishing[i]? with
  | none =>
    rw [List.eraseIdx_of_length_le (List.getElem?_eq_none_iff.mp here)]
    exact published
  | some wire =>
    refine (mem_of_publishing here published).resolve_left fun own => ?_
    have unlogged := careful read wire here
    rw [own] at unlogged
    cases unlogged

theorem following_register (follows : s.Following last) :
    (s.step last .register).Following last := by
  simp only [step]
  split
  · rename_i away
    refine ⟨?_, follows.shape, fun wrong => (by cases wrong), follows.sorted, follows.apart,
      ⟨0, rfl, Nat.zero_le _⟩, fun wrong => (by cases wrong)⟩
    intro wire member place cursor
    refine follows.logged wire ?_ place cursor
    simp only [SocketPoint.rest, List.mem_append, List.append_nil] at member ⊢
    tauto
  · exact follows

theorem places_of_map {listed : List Nat} (cursors : wires.map Wire.cursor = listed.map some) :
    places wires = listed := by
  have flat : places wires = (wires.map Wire.cursor).filterMap id := by
    rw [List.filterMap_map]
    rfl
  rw [flat, cursors, List.filterMap_map]
  exact List.filterMap_some

theorem length_replayEvents (log : List α) (last : Nat) :
    (replayEvents log last).length = min replayCount (log.length - last) := by
  simp [replayEvents]

theorem cursors_replayEvents (log : List α) (last : Nat) :
    (replayEvents log last).map Wire.cursor =
      (List.range' last (replayEvents log last).length).map some := by
  have entries : ((log.zipIdx.drop last).take replayCount).map Prod.snd =
      List.range' last (min replayCount (log.length - last)) := by
    rw [List.map_take, List.map_drop, List.zipIdx_map_snd, List.drop_range']
    by_cases all : log.length - last ≤ replayCount
    · rw [List.take_range'_of_length_le all, Nat.min_eq_right all]
      simp
    · rw [List.take_range'_of_length_ge (by omega), Nat.min_eq_left (by omega)]
      simp
  rw [length_replayEvents, ← entries, replayEvents, List.map_map, List.map_map]
  rfl

theorem logged_replayEvents {log : List α} {last place : Nat}
    (member : wire ∈ replayEvents log last) (cursor : wire.cursor = some place) :
    log[place]? = some wire.event := by
  obtain ⟨entry, taken, rfl⟩ := List.mem_map.mp member
  obtain rfl : entry.2 = place := Option.some.inj cursor
  exact List.mem_zipIdx_iff_getElem?.mp (List.mem_of_mem_drop (List.mem_of_mem_take taken))

theorem following_replay (follows : s.Following last) (careful : s.Careful last .replay) :
    (s.step last .replay).Following last := by
  cases point : s.point with
  | away | replaying | live =>
    simp only [step, point]
    exact follows
  | registered =>
    simp only [step, point]
    have beyond := careful (by rw [point]; rfl) (by rw [point]; rfl)
    refine ⟨?_, follows.shape, fun wrong => (by cases wrong), follows.sorted, follows.apart,
      ⟨last, cursors_replayEvents s.log last, Nat.le_add_right _ _⟩, ?_⟩
    · intro wire member place cursor
      by_cases replayed : wire ∈ replayEvents s.log last
      · exact logged_replayEvents replayed cursor
      · refine follows.logged wire ?_ place cursor
        simp only [SocketPoint.rest, List.mem_append] at member ⊢
        tauto
    · intro _ place inside late
      by_cases early : place < last + replayCount
      · right
        rw [mem_places_append, mem_places_append]
        refine .inl (.inl ?_)
        show place ∈ places (replayEvents s.log last)
        rw [places_of_map (cursors_replayEvents s.log last), List.mem_range'_1,
          length_replayEvents]
        simp only at inside
        omega
      · have coming := beyond place inside (by omega)
        simp only [mem_places_append] at coming ⊢
        rcases coming with (published | sent) | arrived
        · exact .inr (.inr published)
        · exact .inr (.inl (.inr sent))
        · exact .inl ((mem_kept last s place).mpr ⟨late, arrived⟩)

theorem following_sendReplayed (follows : s.Following last) :
    (s.step last .sendReplayed).Following last := by
  cases point : s.point with
  | away | registered | live =>
    simp only [step, point]
    exact follows
  | replaying rest =>
    obtain ⟨first, cursors, bound⟩ := follows.rest
    have logged := follows.logged
    have onWay := follows.onWay
    rw [point] at cursors logged onWay
    cases rest with
    | nil =>
      simp only [step, point]
      exact ⟨logged, follows.shape, fun wrong => (by cases wrong), follows.sorted, follows.apart,
        ⟨first, cursors, bound⟩, onWay⟩
    | cons wire rest =>
      simp only [step, point]
      simp only [SocketPoint.rest, List.map_cons, List.length_cons, List.range'_succ,
        List.cons.injEq] at cursors
      obtain ⟨here, later⟩ := cursors
      have next : ∀ place ∈ wire.cursor, place ≤ last + (s.kept last).length := by
        intro place cursor
        rw [here] at cursor
        cases cursor
        exact bound
      obtain ⟨shape, grows, arrives⟩ := keep_next follows.shape next
      have after := kept_receive last s wire (.replaying rest) s.channel
      have more : ∀ place ∈ s.kept last, place ∈ keep last (s.kept last) wire := by
        intro place listed
        rw [shape, List.mem_range'_1]
        have range := follows.mem_kept_iff.mp listed
        omega
      refine ⟨?_, ?_, fun wrong => (by cases wrong), follows.sorted, follows.apart, ?_, ?_⟩
      · intro other member place cursor
        refine logged other ?_ place cursor
        simp only [SocketPoint.rest, List.mem_append, List.mem_cons] at member ⊢
        tauto
      · rw [after]
        exact shape
      · rw [after]
        refine ⟨first + 1, later, ?_⟩
        have arrived := arrives first here
        omega
      · intro _ place inside late
        rw [after]
        rcases onWay rfl place inside late with arrived | coming
        · exact .inl (more place arrived)
        · simp only [SocketPoint.rest, mem_places_append] at coming ⊢
          rcases coming with (replayed | sent) | published
          · obtain ⟨other, member, cursor⟩ := mem_places.mp replayed
            rcases List.mem_cons.mp member with rfl | further
            · left
              rw [shape, List.mem_range'_1]
              exact ⟨late, arrives place cursor⟩
            · exact .inr (.inl (.inl (mem_places.mpr ⟨other, further, cursor⟩)))
          · exact .inr (.inl (.inr sent))
          · exact .inr (.inr published)

theorem next_of_sendLive (follows : s.Following last) {rest : List (Wire α)}
    (sent : s.channel = wire :: rest) (careful : s.Careful last .sendLive) :
    ∀ place ∈ wire.cursor, place ≤ last + (s.kept last).length := by
  intro place cursor
  by_contra ahead
  -- the event after the kept ones is missing, and would be sent before this one
  have missing : last + (s.kept last).length ∉ s.kept last := by
    rw [follows.mem_kept_iff]
    omega
  cases live : s.point.isLive with
  | false =>
    have head : wire ∈ s.channel.head? := by
      rw [sent]
      rfl
    exact missing (careful live wire head place cursor _ (by omega) (by omega))
  | true =>
    have none_left : s.point.rest = [] ∧ s.point.hasRead = true := by
      cases point : s.point <;> rw [point] at live <;> first | exact ⟨rfl, rfl⟩ | cases live
    have head : place ∈ places s.channel := by
      rw [sent]
      exact mem_places.mpr ⟨wire, List.mem_cons_self, cursor⟩
    have logged : place < s.log.length := by
      refine follows.lt_log (fun wire member => ?_) head
      simp only [List.mem_append]
      exact .inl (.inl (.inr member))
    rcases follows.onWay none_left.2 (last + (s.kept last).length) (by omega)
      (Nat.le_add_right _ _) with arrived | coming
    · exact missing arrived
    · rw [none_left.1, List.nil_append, mem_places_append] at coming
      rcases coming with behind | published
      · have ordered := follows.sorted
        rw [sent, places, List.filterMap_cons, cursor] at ordered
        rw [sent, places, List.filterMap_cons, cursor] at behind
        rcases List.mem_cons.mp behind with same | further
        · omega
        · have after := (List.pairwise_cons.mp ordered).1 _ further
          omega
      · have after := follows.apart place head _ published
        omega

theorem following_sendLive (follows : s.Following last) (careful : s.Careful last .sendLive) :
    (s.step last .sendLive).Following last := by
  cases sent : s.channel with
  | nil =>
    simp only [step, sent]
    exact follows
  | cons wire rest =>
    simp only [step, sent]
    obtain ⟨shape, grows, arrives⟩ :=
      keep_next follows.shape (next_of_sendLive follows sent careful)
    have after := kept_receive last s wire s.point rest
    have shorter : ∀ place ∈ places rest, place ∈ places s.channel := by
      intro place listed
      obtain ⟨other, member, cursor⟩ := mem_places.mp listed
      rw [sent]
      exact mem_places.mpr ⟨other, List.mem_cons_of_mem wire member, cursor⟩
    refine ⟨?_, ?_, ?_, ?_, ?_, ?_, ?_⟩
    · intro other member place cursor
      refine follows.logged other ?_ place cursor
      simp only [sent, List.mem_append, List.mem_cons] at member ⊢
      tauto
    · rw [after]
      exact shape
    · intro away
      have nothing := follows.away away
      rw [sent] at nothing
      cases nothing
    · have ordered := follows.sorted
      rw [sent, ← List.singleton_append, places, List.filterMap_append] at ordered
      exact (List.pairwise_append.mp ordered).2.1
    · exact fun a listed b published => follows.apart a (shorter a listed) b published
    · rw [after]
      obtain ⟨first, cursors, bound⟩ := follows.rest
      exact ⟨first, cursors, by omega⟩
    · intro read place inside late
      rw [after]
      have more : place ∈ s.kept last → place ∈ keep last (s.kept last) wire := by
        intro listed
        rw [shape, List.mem_range'_1]
        have range := follows.mem_kept_iff.mp listed
        omega
      rcases follows.onWay read place inside late with arrived | coming
      · exact .inl (more arrived)
      · simp only [mem_places_append] at coming ⊢
        rcases coming with (replayed | behind) | published
        · exact .inr (.inl (.inl replayed))
        · obtain ⟨other, member, cursor⟩ := mem_places.mp behind
          rw [sent] at member
          rcases List.mem_cons.mp member with rfl | further
          · left
            rw [shape, List.mem_range'_1]
            exact ⟨late, arrives place cursor⟩
          · exact .inr (.inl (.inr (mem_places.mpr ⟨other, further, cursor⟩)))
        · exact .inr (.inr published)

theorem losesNothing_of_following (follows : s.Following last) : s.LosesNothing last where
  complete settled place event late here := by
    obtain ⟨live, published, sent⟩ := settled
    have inside := (List.getElem?_eq_some_iff.mp here).1
    have read : s.point.hasRead = true := by
      cases point : s.point <;> rw [point] at live <;> first | rfl | cases live
    have none_left : s.point.rest = [] := by
      cases point : s.point <;> rw [point] at live <;> first | rfl | cases live
    have kept_place : place ∈ s.kept last := by
      rcases follows.onWay read place inside late with arrived | coming
      · exact arrived
      · rw [none_left, sent, published] at coming
        exact absurd coming List.not_mem_nil
    obtain ⟨wire, member, cursor⟩ := mem_places.mp ((mem_kept last s place).mp kept_place).2
    have same := follows.logged wire (List.mem_append_right _ member) place cursor
    have equal : wire = ⟨some place, event⟩ := by
      obtain ⟨cursor', event'⟩ := wire
      rw [here] at same
      cases cursor
      cases same
      rfl
    rw [← equal]
    exact member
  ordered := by
    rw [follows.shape]
    exact List.pairwise_lt_range'

theorem following_step (follows : s.Following last) (move : FeedMove α)
    (careful : s.Careful last move) : (s.step last move).Following last := by
  cases move with
  | append event => exact following_append follows event
  | appendFails event => exact following_appendFails follows event
  | publish => exact following_publish follows careful
  | publishFails => exact following_publishFails follows careful
  | register => exact following_register follows
  | replay => exact following_replay follows careful
  | sendReplayed => exact following_sendReplayed follows
  | sendLive => exact following_sendLive follows careful

/-- In every run of publications and of the steps of a socket that comes back, all of them careful,
the client loses no event after its cursor and keeps them in log order. -/
theorem losesNothing_of_careful (last : Nat) (s : Feed α) (moves : List (FeedMove α))
    (begins : s.Away) (careful : Guarded (Careful last) (step last) s moves) :
    ∀ reached ∈ trace (step last) s moves, reached.LosesNothing last := by
  intro reached member
  have follows : reached.Following last :=
    invariant_of_guarded (C := Careful last) (I := Following last)
      (fun _ move held guard => following_step held move guard) (following_away begins) careful
      reached member
  exact losesNothing_of_following follows

def afresh (log : List Nat) : Feed Nat := ⟨log, [], [], .away, []⟩

theorem away_afresh (log : List Nat) : (afresh log).Away :=
  ⟨rfl, rfl, rfl, fun _ member => absurd member List.not_mem_nil⟩

def comesBack : List (FeedMove Nat) :=
  [.register, .replay, .sendReplayed, .append 13, .sendReplayed, .publish 0, .sendReplayed,
    .sendLive]

theorem losesNothing_of_careful_comesBack :
    Guarded (Careful 1) (step 1) (afresh [10, 11, 12]) comesBack ∧
      ∀ reached ∈ trace (step 1) (afresh [10, 11, 12]) comesBack, reached.LosesNothing 1 := by
  have careful : Guarded (Careful 1) (step 1) (afresh [10, 11, 12]) comesBack := by decide +kernel
  exact ⟨careful, losesNothing_of_careful 1 _ comesBack (away_afresh _) careful⟩

def longAway : List (FeedMove Nat) :=
  [.register, .replay] ++ List.replicate (replayCount + 1) .sendReplayed

def overtaking : List (FeedMove Nat) :=
  [.register, .replay, .sendReplayed, .append 12, .publish 0, .sendLive, .sendReplayed]

def swapping : List (FeedMove Nat) :=
  [.register, .replay, .sendReplayed, .append 10, .append 11, .publish 1, .publish 0, .sendLive,
    .sendLive]

/-- The last of many events is lost, and events arrive out of order. -/
theorem not_losesNothing :
    ¬ (run (step 0) (afresh (List.range 101)) longAway).LosesNothing 0 ∧
      ¬ (run (step 0) (afresh [10, 11]) overtaking).LosesNothing 0 ∧
        ¬ (run (step 0) (afresh []) swapping).LosesNothing 0 := by
  refine ⟨fun lossless => ?_, fun lossless => ?_, fun lossless => ?_⟩
  · have settled : (run (step 0) (afresh (List.range 101)) longAway).Settled := by
      unfold Settled
      decide +kernel
    have logged : (run (step 0) (afresh (List.range 101)) longAway).log[100]? = some 100 := by
      decide +kernel
    have lost : (⟨some 100, 100⟩ : Wire Nat) ∉
        (run (step 0) (afresh (List.range 101)) longAway).received := by
      decide +kernel
    exact lost (lossless.complete settled 100 100 (Nat.zero_le _) logged)
  · have ordered := lossless.ordered
    revert ordered
    decide +kernel
  · have ordered := lossless.ordered
    revert ordered
    decide +kernel

end Feed

end AverQel.Documents.EventReplay
