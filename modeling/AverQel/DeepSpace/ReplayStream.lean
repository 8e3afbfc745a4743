/- digest: When a subscriber that merges durable replays and a lossy channel misses no frame. -/
import AverQel.DeepSpace.RunEvents

namespace AverQel.DeepSpace

open Foundation.Transition

/-- The frames from `first` on, under their sequences. -/
def numbered (frame : Nat → String) (first count : Nat) : List (Nat × String) :=
  (List.range' first count).map fun sequence => (sequence, frame sequence)

section Numbered

variable (frame : Nat → String) (first count : Nat)

@[simp] theorem length_numbered : (numbered frame first count).length = count := by
  simp [numbered]

theorem numbered_cons :
    numbered frame first (count + 1) = (first, frame first) :: numbered frame (first + 1) count := by
  unfold numbered
  rw [List.range'_succ, List.map_cons]

theorem numbered_concat :
    numbered frame first (count + 1) =
      numbered frame first count ++ [(first + count, frame (first + count))] := by
  unfold numbered
  rw [List.range'_concat, Nat.one_mul, List.map_append, List.map_singleton]

theorem mem_numbered {sequence : Nat} (lower : first ≤ sequence) (upper : sequence < first + count) :
    (sequence, frame sequence) ∈ numbered frame first count := by
  have member : sequence ∈ List.range' first count := List.mem_range'_1.mpr ⟨lower, upper⟩
  exact List.mem_map_of_mem member

theorem filter_numbered (cursor : Nat) :
    (numbered frame 1 count).filter (fun event => cursor < event.1) =
      numbered frame (cursor + 1) (count - cursor) := by
  induction count with
  | zero =>
    rw [Nat.zero_sub]
    rfl
  | succ count ih =>
    rw [numbered_concat, List.filter_append, ih]
    by_cases behind : cursor < 1 + count
    · have more : count + 1 - cursor = count - cursor + 1 := by omega
      have place : cursor + 1 + (count - cursor) = 1 + count := by omega
      rw [more, numbered_concat, place]
      simp [behind]
    · have none_left : count + 1 - cursor = 0 := by omega
      have none_before : count - cursor = 0 := by omega
      rw [none_left, none_before]
      simp [behind, numbered]

end Numbered

/-- What the iterator does behind a replay. -/
inductive AfterReplay where
  | loop
  | await
  | keepAlive
  | deliver (sequence : Nat) (text : String)
  deriving DecidableEq, Repr

/-- Where the iterator stands. -/
inductive Reader where
  | starting
  | replaying (frames : List (Nat × String)) (next : AfterReplay)
  | looping
  | awaiting
  | returned
  deriving DecidableEq, Repr

/-- One request's log and channel, and the iterator of `_stream_deepspace_chat_payload` with the
data frames that it has yielded. -/
structure ReplayStream where
  (committed sent : Nat)
  channel : List (Nat × String)
  hasConversation : Bool
  lastSequence : Nat
  reader : Reader
  yielded : List (Nat × String)

/-- A commit, a publication, or one move of the iterator. For the latter, `due` says whether a
second has passed since the last replay, and `silent` whether the channel gives no message. -/
inductive ReplayMove where
  | commit
  | publish (delivered : Bool)
  | advance (due silent : Bool)
  deriving DecidableEq, Repr

namespace ReplayStream

def start (hasConversation : Bool) (committed sent afterSequence : Nat) : ReplayStream where
  committed := committed
  sent := sent
  channel := []
  hasConversation := hasConversation
  lastSequence := afterSequence
  reader := .starting
  yielded := []

/-- `read_replay`: `load_events` and `frames_after` -/
def readReplay (frame : Nat → String) (s : ReplayStream) : List (Nat × String) :=
  if s.hasConversation then
    (numbered frame 1 s.committed).filter fun event => s.lastSequence < event.1
  else []

def yieldFrame (sequence : Nat) (text : String) (reader : Reader) (s : ReplayStream) :
    ReplayStream :=
  { s with
    lastSequence := sequence
    reader := reader
    yielded := s.yielded ++ [(sequence, text)] }

def ends (text : String) : Bool := isTerminalEvent (eventNameFromFrame text)

def quiet (frame : Nat → String) (due : Bool) (s : ReplayStream) : ReplayStream :=
  if s.hasConversation && due then
    { s with reader := .replaying (s.readReplay frame) .keepAlive }
  else { s with reader := .looping }

def receive (frame : Nat → String) (sequence : Nat) (text : String) (s : ReplayStream) :
    ReplayStream :=
  if sequence ≤ s.lastSequence then { s with reader := .looping }
  else if ends text then
    { s with reader := .replaying (s.readReplay frame) (.deliver sequence text) }
  else s.yieldFrame sequence text .looping

/-- `iterator`, up to its next `await` or `yield` -/
def advance (frame : Nat → String) (due silent : Bool) (s : ReplayStream) : ReplayStream :=
  match s.reader with
  | .starting => { s with reader := .replaying (s.readReplay frame) .loop }
  | .replaying ((sequence, text) :: rest) next =>
    s.yieldFrame sequence text (if ends text then .returned else .replaying rest next)
  | .replaying [] (.deliver sequence text) => s.yieldFrame sequence text .returned
  | .replaying [] .await => { s with reader := .awaiting }
  | .replaying [] .loop | .replaying [] .keepAlive => { s with reader := .looping }
  | .looping =>
    if s.hasConversation && due then { s with reader := .replaying (s.readReplay frame) .await }
    else { s with reader := .awaiting }
  | .awaiting =>
    match silent, s.channel with
    | false, (sequence, text) :: rest => { s with channel := rest }.receive frame sequence text
    | _, _ => s.quiet frame due
  | .returned => s

def step (frame : Nat → String) (s : ReplayStream) : ReplayMove → ReplayStream
  | .commit => { s with committed := s.committed + 1 }
  | .publish delivered =>
    { s with
      sent := s.sent + 1
      channel :=
        if delivered then s.channel ++ [(s.sent + 1, frame (s.sent + 1))] else s.channel }
  | .advance due silent => s.advance frame due silent

structure GapFree (frame : Nat → String) (afterSequence : Nat) (s : ReplayStream) : Prop where
  inOrder : s.yielded = numbered frame (afterSequence + 1) s.yielded.length
  complete : ∀ sequence, afterSequence < sequence → sequence ≤ s.lastSequence →
    sequence ≤ s.committed → (sequence, frame sequence) ∈ s.yielded

/-- What the iterator passes on from the channel is the frame behind its cursor. -/
def NoJump (s : ReplayStream) : ReplayMove → Prop
  | .advance _ silent =>
    (s.reader = .awaiting → silent = false → ∀ sequence text rest,
      s.channel = (sequence, text) :: rest → s.lastSequence < sequence → ends text = false →
        sequence = s.lastSequence + 1) ∧
    ∀ sequence text, s.reader = .replaying [] (.deliver sequence text) →
      sequence = s.lastSequence + 1
  | .commit | .publish _ => True

/-- What the channel and a replay carry are frames of the request, and the cursor is the last
yielded one. -/
structure Sound (frame : Nat → String) (afterSequence : Nat) (s : ReplayStream) : Prop where
  channel : ∀ event ∈ s.channel, event.2 = frame event.1
  replay : ∀ frames next, s.reader = .replaying frames next →
    frames = numbered frame (s.lastSequence + 1) frames.length
  deliver : ∀ frames sequence text, s.reader = .replaying frames (.deliver sequence text) →
    text = frame sequence
  cursor : s.lastSequence = (s.yielded.getLast?.map Prod.fst).getD afterSequence

variable {frame : Nat → String} {afterSequence : Nat} {s : ReplayStream}

theorem readReplay_eq (frame : Nat → String) (s : ReplayStream) :
    s.readReplay frame =
      numbered frame (s.lastSequence + 1) (s.readReplay frame).length := by
  unfold readReplay
  split
  · rw [filter_numbered, length_numbered]
  · rfl

theorem lastSequence_of_inOrder (sound : s.Sound frame afterSequence)
    (inOrder : s.yielded = numbered frame (afterSequence + 1) s.yielded.length) :
    s.lastSequence = afterSequence + s.yielded.length := by
  rw [sound.cursor]
  cases count : s.yielded.length with
  | zero =>
    rw [List.length_eq_zero_iff.mp count]
    rfl
  | succ count' =>
    rw [inOrder, count, numbered_concat, List.getLast?_concat]
    show afterSequence + 1 + count' = _
    omega

theorem gapFree_iff (sound : s.Sound frame afterSequence) :
    s.GapFree frame afterSequence ↔
      s.yielded = numbered frame (afterSequence + 1) s.yielded.length := by
  refine ⟨GapFree.inOrder, fun inOrder => ⟨inOrder, fun sequence lower upper _ => ?_⟩⟩
  have counted := lastSequence_of_inOrder sound inOrder
  rw [inOrder]
  exact mem_numbered frame _ _ (by omega) (by omega)

theorem sound_reader (sound : s.Sound frame afterSequence) {reader : Reader}
    (other : ∀ frames next, reader ≠ .replaying frames next) :
    { s with reader := reader }.Sound frame afterSequence := by
  refine ⟨sound.channel, ?_, ?_, sound.cursor⟩
  · intro frames next here
    exact absurd here (other frames next)
  · intro frames sequence text here
    exact absurd here (other frames _)

theorem sound_read (sound : s.Sound frame afterSequence) {next : AfterReplay}
    (kept : ∀ sequence text, next = .deliver sequence text → text = frame sequence) :
    { s with reader := .replaying (s.readReplay frame) next }.Sound frame afterSequence := by
  refine ⟨sound.channel, ?_, ?_, sound.cursor⟩
  · intro frames after here
    obtain ⟨rfl, _⟩ := Reader.replaying.inj here
    exact readReplay_eq frame s
  · intro frames sequence text here
    obtain ⟨_, later⟩ := Reader.replaying.inj here
    exact kept sequence text later

variable {sequence : Nat}

theorem sound_yieldFrame (sound : s.Sound frame afterSequence) {text : String} {reader : Reader}
    (replay : ∀ frames next, reader = .replaying frames next →
      frames = numbered frame (sequence + 1) frames.length)
    (deliver : ∀ frames n later, reader = .replaying frames (.deliver n later) → later = frame n) :
    (s.yieldFrame sequence text reader).Sound frame afterSequence := by
  refine ⟨sound.channel, replay, deliver, ?_⟩
  show sequence = ((s.yielded ++ [(sequence, text)]).getLast?.map Prod.fst).getD afterSequence
  rw [List.getLast?_concat]
  rfl

theorem sound_quiet (sound : s.Sound frame afterSequence) (due : Bool) :
    (s.quiet frame due).Sound frame afterSequence := by
  unfold quiet
  split
  · exact sound_read sound fun _ _ same => AfterReplay.noConfusion same
  · exact sound_reader sound fun _ _ => Reader.noConfusion

theorem sound_receive (sound : s.Sound frame afterSequence) {text : String}
    (same : text = frame sequence) : (s.receive frame sequence text).Sound frame afterSequence := by
  unfold receive
  split
  · exact sound_reader sound fun _ _ => Reader.noConfusion
  · split
    · refine sound_read sound fun n later here => ?_
      obtain ⟨rfl, rfl⟩ := AfterReplay.deliver.inj here
      exact same
    · exact sound_yieldFrame sound (fun _ _ => Reader.noConfusion)
        (fun _ _ _ => Reader.noConfusion)

theorem sound_advance (sound : s.Sound frame afterSequence) (due silent : Bool) :
    (s.advance frame due silent).Sound frame afterSequence := by
  unfold advance
  split
  · exact sound_read sound fun _ _ same => AfterReplay.noConfusion same
  · rename_i sequence text rest next here
    have frames := sound.replay _ _ here
    rw [List.length_cons, numbered_cons] at frames
    obtain ⟨head, tail⟩ := List.cons.inj frames
    obtain ⟨rfl, _⟩ := Prod.mk.inj head
    refine sound_yieldFrame sound ?_ ?_
    · intro frames after there
      split at there
      · cases there
      · obtain ⟨rfl, _⟩ := Reader.replaying.inj there
        exact tail
    · intro frames n later there
      split at there
      · cases there
      · obtain ⟨_, rfl⟩ := Reader.replaying.inj there
        exact sound.deliver _ n later here
  · exact sound_yieldFrame sound (fun _ _ => Reader.noConfusion) (fun _ _ _ => Reader.noConfusion)
  · exact sound_reader sound fun _ _ => Reader.noConfusion
  · exact sound_reader sound fun _ _ => Reader.noConfusion
  · exact sound_reader sound fun _ _ => Reader.noConfusion
  · split
    · exact sound_read sound fun _ _ same => AfterReplay.noConfusion same
    · exact sound_reader sound fun _ _ => Reader.noConfusion
  · split
    · rename_i sequence text rest waiting
      have message := sound.channel
      rw [waiting] at message
      have same := message _ List.mem_cons_self
      have rested : { s with channel := rest }.Sound frame afterSequence :=
        ⟨fun event later => message event (List.mem_cons_of_mem _ later), sound.replay,
          sound.deliver, sound.cursor⟩
      exact sound_receive rested same
    · exact sound_quiet sound due
  · exact sound

theorem sound_step (sound : s.Sound frame afterSequence) (move : ReplayMove) :
    (s.step frame move).Sound frame afterSequence := by
  cases move with
  | commit => exact ⟨sound.channel, sound.replay, sound.deliver, sound.cursor⟩
  | publish =>
    refine ⟨?_, sound.replay, sound.deliver, sound.cursor⟩
    intro event member
    simp only [step] at member
    split at member
    · rcases List.mem_append.mp member with old | new
      · exact sound.channel event old
      · rw [List.mem_singleton.mp new]
    · exact sound.channel event member
  | advance due silent => exact sound_advance sound due silent

theorem inOrder_yieldFrame_iff (sound : s.Sound frame afterSequence)
    (inOrder : s.yielded = numbered frame (afterSequence + 1) s.yielded.length) {text : String}
    (same : text = frame sequence) (reader : Reader) :
    (s.yieldFrame sequence text reader).yielded =
        numbered frame (afterSequence + 1) (s.yieldFrame sequence text reader).yielded.length ↔
      sequence = s.lastSequence + 1 := by
  have counted := lastSequence_of_inOrder sound inOrder
  have place : afterSequence + 1 + s.yielded.length = s.lastSequence + 1 := by omega
  show s.yielded ++ [(sequence, text)] =
    numbered frame (afterSequence + 1) (s.yielded ++ [(sequence, text)]).length ↔ _
  rw [List.length_append, List.length_singleton, numbered_concat, ← inOrder, place,
    List.append_cancel_left_eq, List.singleton_inj, same, Prod.mk.injEq]
  constructor
  · exact And.left
  · rintro rfl
    exact ⟨rfl, rfl⟩

theorem noJump_of_reader {due silent : Bool} (busy : s.reader ≠ .awaiting)
    (other : ∀ sequence text, s.reader ≠ .replaying [] (.deliver sequence text)) :
    s.NoJump (.advance due silent) :=
  ⟨fun here => absurd here busy, fun sequence text here => absurd here (other sequence text)⟩

theorem inOrder_receive_iff (sound : s.Sound frame afterSequence)
    (inOrder : s.yielded = numbered frame (afterSequence + 1) s.yielded.length) {text : String}
    (same : text = frame sequence) :
    (s.receive frame sequence text).yielded = numbered frame (afterSequence + 1)
        (s.receive frame sequence text).yielded.length ↔
      (s.lastSequence < sequence → ends text = false → sequence = s.lastSequence + 1) := by
  unfold receive
  split
  · rename_i seen
    exact iff_of_true inOrder fun new => absurd new (Nat.not_lt.mpr seen)
  · rename_i new
    split
    · rename_i terminal
      exact iff_of_true inOrder fun _ progress => absurd (terminal.symm.trans progress) (by decide)
    · rename_i progress
      rw [inOrder_yieldFrame_iff sound inOrder same]
      constructor
      · exact fun next _ _ => next
      · exact fun next => next (Nat.lt_of_not_le new) (eq_false_of_ne_true progress)

theorem inOrder_advance_iff (sound : s.Sound frame afterSequence)
    (inOrder : s.yielded = numbered frame (afterSequence + 1) s.yielded.length)
    (due silent : Bool) :
    (s.advance frame due silent).yielded = numbered frame (afterSequence + 1)
        (s.advance frame due silent).yielded.length ↔
      s.NoJump (.advance due silent) := by
  cases here : s.reader with
  | starting | returned =>
    simp only [advance, here]
    exact iff_of_true inOrder (noJump_of_reader (by simp [here]) (by simp [here]))
  | looping =>
    have quiet : s.NoJump (.advance due silent) :=
      noJump_of_reader (by simp [here]) (by simp [here])
    simp only [advance, here]
    split
    · exact iff_of_true inOrder quiet
    · exact iff_of_true inOrder quiet
  | replaying frames next =>
    cases frames with
    | cons event =>
      have quiet : s.NoJump (.advance due silent) :=
        noJump_of_reader (by simp [here]) (by simp [here])
      obtain ⟨sequence, text⟩ := event
      have replay := sound.replay _ _ here
      rw [List.length_cons, numbered_cons] at replay
      obtain ⟨rfl, rfl⟩ := Prod.mk.inj (List.cons.inj replay).1
      simp only [advance, here]
      exact iff_of_true ((inOrder_yieldFrame_iff sound inOrder rfl _).mpr rfl) quiet
    | nil =>
      cases next with
      | deliver sequence text =>
        have same := sound.deliver _ sequence text here
        simp only [advance, here]
        rw [inOrder_yieldFrame_iff sound inOrder same]
        constructor
        · rintro next
          refine ⟨fun awaiting => by simp [here] at awaiting, fun n later there => ?_⟩
          rw [here] at there
          obtain ⟨_, delivers⟩ := Reader.replaying.inj there
          obtain ⟨rfl, _⟩ := AfterReplay.deliver.inj delivers
          exact next
        · intro quiet
          exact quiet.2 sequence text here
      | loop | await | keepAlive =>
        simp only [advance, here]
        exact iff_of_true inOrder (noJump_of_reader (by simp [here]) (by simp [here]))
  | awaiting =>
    have busy : ∀ sequence text, s.reader = .replaying [] (.deliver sequence text) →
        sequence = s.lastSequence + 1 := by
      intro sequence text there
      rw [here] at there
      cases there
    have nothing : (s.quiet frame due).yielded = s.yielded := by
      unfold quiet
      split <;> rfl
    simp only [advance, here]
    split
    · rename_i sequence text rest waiting
      have message := sound.channel
      rw [waiting] at message
      have same : text = frame sequence := message _ List.mem_cons_self
      have rested : { s with channel := rest, reader := .awaiting }.Sound frame afterSequence :=
        ⟨fun event later => message event (List.mem_cons_of_mem _ later),
          fun _ _ => Reader.noConfusion, fun _ _ _ => Reader.noConfusion, sound.cursor⟩
      refine (inOrder_receive_iff rested inOrder same).trans ?_
      constructor
      · intro next
        refine ⟨fun _ _ n later more there => ?_, busy⟩
        obtain ⟨head, _⟩ := List.cons.inj (waiting.symm.trans there)
        obtain ⟨rfl, rfl⟩ := Prod.mk.inj head
        exact next
      · intro quiet
        exact quiet.1 here rfl sequence text rest waiting
    · rename_i silence
      rw [nothing]
      refine iff_of_true inOrder ⟨fun _ speaks sequence text rest there => ?_, busy⟩
      exact absurd there (silence sequence text rest speaks)

theorem gapFree_step_iff (sound : s.Sound frame afterSequence)
    (free : s.GapFree frame afterSequence) (move : ReplayMove) :
    (s.step frame move).GapFree frame afterSequence ↔ s.NoJump move := by
  rw [gapFree_iff (sound_step sound move)]
  cases move with
  | commit | publish => exact iff_of_true free.inOrder trivial
  | advance due silent => exact inOrder_advance_iff sound free.inOrder due silent

/-- What is yielded is true to its frames and moves forward, and a terminal frame that waits behind
a replay is further on. -/
structure Forward (frame : Nat → String) (afterSequence : Nat) (s : ReplayStream) : Prop where
  ascending : s.yielded.Pairwise (fun a b => a.1 < b.1)
  within : ∀ e ∈ s.yielded, afterSequence < e.1 ∧ e.1 ≤ s.lastSequence ∧ e.2 = frame e.1
  reached : afterSequence ≤ s.lastSequence
  ahead : ∀ frames n text, s.reader = .replaying frames (.deliver n text) →
    s.lastSequence < n ∧ ends (frame n) = true

theorem forward_reader (forward : s.Forward frame afterSequence) {reader : Reader}
    (ahead : ∀ frames n text, reader = .replaying frames (.deliver n text) →
      s.lastSequence < n ∧ ends (frame n) = true) :
    { s with reader := reader }.Forward frame afterSequence :=
  ⟨forward.ascending, forward.within, forward.reached, ahead⟩

theorem forward_yieldFrame (forward : s.Forward frame afterSequence)
    (new : s.lastSequence < sequence) {reader : Reader}
    (ahead : ∀ frames n text, reader = .replaying frames (.deliver n text) →
      sequence < n ∧ ends (frame n) = true) :
    (s.yieldFrame sequence (frame sequence) reader).Forward frame afterSequence := by
  have reached := forward.reached
  refine ⟨List.pairwise_append.mpr ⟨forward.ascending, List.pairwise_singleton _ _, ?_⟩, ?_,
    Nat.le_of_lt (Nat.lt_of_le_of_lt reached new), ahead⟩
  · intro e old e' last
    rw [List.mem_singleton.mp last]
    exact Nat.lt_of_le_of_lt (forward.within e old).2.1 new
  · intro e member
    rcases List.mem_append.mp member with old | last
    · obtain ⟨lower, upper, same⟩ := forward.within e old
      exact ⟨lower, Nat.le_of_lt (Nat.lt_of_le_of_lt upper new), same⟩
    · rw [List.mem_singleton.mp last]
      exact ⟨Nat.lt_of_le_of_lt reached new, Nat.le_refl _, rfl⟩

theorem forward_receive (forward : s.Forward frame afterSequence) :
    (s.receive frame sequence (frame sequence)).Forward frame afterSequence := by
  unfold receive
  split
  · exact forward_reader forward fun _ _ _ => Reader.noConfusion
  · rename_i new
    split
    · rename_i terminal
      refine forward_reader forward fun frames n text here => ?_
      obtain ⟨_, delivers⟩ := Reader.replaying.inj here
      obtain ⟨rfl, _⟩ := AfterReplay.deliver.inj delivers
      exact ⟨Nat.lt_of_not_le new, terminal⟩
    · exact forward_yieldFrame forward (Nat.lt_of_not_le new) fun _ _ _ => Reader.noConfusion

theorem forward_advance (sound : s.Sound frame afterSequence)
    (forward : s.Forward frame afterSequence) (due silent : Bool) :
    (s.advance frame due silent).Forward frame afterSequence := by
  have read : ∀ next, (∀ n text, next ≠ .deliver n text) →
      { s with reader := .replaying (s.readReplay frame) next }.Forward frame afterSequence :=
    fun next other => forward_reader forward fun _ n text here =>
      absurd (Reader.replaying.inj here).2 (other n text)
  unfold advance
  split
  · exact read .loop fun _ _ => AfterReplay.noConfusion
  · rename_i sequence text rest next here
    have frames := sound.replay _ _ here
    rw [List.length_cons, numbered_cons] at frames
    obtain ⟨rfl, rfl⟩ := Prod.mk.inj (List.cons.inj frames).1
    refine forward_yieldFrame forward (Nat.lt_succ_self _) fun frames n text there => ?_
    split at there
    · cases there
    · rename_i progress
      obtain ⟨_, rfl⟩ := Reader.replaying.inj there
      obtain ⟨later, terminal⟩ := forward.ahead _ n text here
      refine ⟨Nat.lt_of_le_of_ne later ?_, terminal⟩
      rintro rfl
      exact progress terminal
  · rename_i sequence text here
    rw [sound.deliver _ sequence text here]
    exact forward_yieldFrame forward (forward.ahead _ sequence text here).1
      fun _ _ _ => Reader.noConfusion
  · exact forward_reader forward fun _ _ _ => Reader.noConfusion
  · exact forward_reader forward fun _ _ _ => Reader.noConfusion
  · exact forward_reader forward fun _ _ _ => Reader.noConfusion
  · split
    · exact read .await fun _ _ => AfterReplay.noConfusion
    · exact forward_reader forward fun _ _ _ => Reader.noConfusion
  · split
    · rename_i sequence text rest waiting
      have same : text = frame sequence := sound.channel (sequence, text) (by simp [waiting])
      rw [same]
      exact forward_receive
        ⟨forward.ascending, forward.within, forward.reached, forward.ahead⟩
    · unfold quiet
      split
      · exact read .keepAlive fun _ _ => AfterReplay.noConfusion
      · exact forward_reader forward fun _ _ _ => Reader.noConfusion
  · exact forward

variable (frame : Nat → String) (hasConversation : Bool) (committed sent afterSequence : Nat)
  (moves : List ReplayMove)

theorem sound_start :
    (start hasConversation committed sent afterSequence).Sound frame afterSequence := by
  refine ⟨fun event waiting => ?_, fun _ _ => Reader.noConfusion, fun _ _ _ => Reader.noConfusion,
    rfl⟩
  cases waiting

theorem gapFree_start :
    (start hasConversation committed sent afterSequence).GapFree frame afterSequence := by
  refine ⟨rfl, fun sequence lower upper _ => ?_⟩
  have upper : sequence ≤ afterSequence := upper
  omega

def dropFirst : List ReplayMove :=
  [.advance false false, .advance false false, .advance false false, .commit, .publish false,
    .commit, .publish true, .advance false false]

end ReplayStream

end AverQel.DeepSpace
