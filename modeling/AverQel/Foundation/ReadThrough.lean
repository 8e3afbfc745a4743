/- digest: A cache that readers fill and writers clear, and the runs in which it never lags. -/
import AverQel.Foundation.Interleaving

namespace AverQel.Foundation.ReadThrough

open Interleaving Transition

universe u v w x y
variable {δ : Type u} {γ : Type v} {κ : Type w} {α : Type x} {μ : Type y}

/-- What is cached: a view of the data on one subject, under keys that are about it. -/
structure Source (δ : Type u) (γ : Type v) (κ : Type w) (α : Type x) (μ : Type y) where
  subject : κ → γ
  view : δ → γ → α
  /-- An entry as it is read back. -/
  restore : α → α
  /-- The subject that a change is about. -/
  touched : μ → γ
  apply : μ → δ → δ

/-- Views are read back unchanged, and a change alters the view on its own subject only. -/
structure Source.Lawful (source : Source δ γ κ α μ) : Prop where
  restore_view : ∀ data subject, source.restore (source.view data subject) =
    source.view data subject
  view_apply : ∀ change data subject, subject ≠ source.touched change →
    source.view (source.apply change data) subject = source.view data subject

inductive Step (γ : Type v) (κ : Type w) (μ : Type y) where
  | commit (change : μ)
  | forget (key : κ)
  | forgetAll (subject : γ)

/-- Where a reader or a writer stands. -/
inductive Point (δ : Type u) (γ : Type v) (κ : Type w) (α : Type x) (μ : Type y) where
  | asking (key : κ)
  | missed (key : κ) (since : Nat)
  | read (key : κ) (since : Nat) (value : α)
  /-- The answer, and the data at every moment between the question and it. -/
  | answered (key : κ) (moments : List δ) (value : α)
  | writing (committed : Bool) (rest : List (Step γ κ μ))

structure Shared (δ : Type u) (κ : Type w) (α : Type x) where
  data : δ
  past : List δ
  entries : List (κ × α)

/-- The data at every moment since the `since`-th change. -/
def Shared.during (s : Shared δ κ α) (since : Nat) : List δ :=
  (s.data :: s.past).take (s.past.length - since + 1)

theorem Shared.data_mem_during (s : Shared δ κ α) (since : Nat) : s.data ∈ s.during since :=
  List.mem_cons_self

def Point.fresh : Point δ γ κ α μ → Bool
  | asking _ => true
  | writing committed _ => !committed
  | missed _ _ => false
  | read _ _ _ => false
  | answered _ _ _ => false

variable (source : Source δ γ κ α μ) [DecidableEq γ] [DecidableEq κ]

def Step.forgets (key : κ) : Step γ κ μ → Bool
  | commit _ => false
  | forget other => key = other
  | forgetAll subject => source.subject key = subject

/-- The writer has committed, and has still to clear the key. -/
def Point.owes (key : κ) : Point δ γ κ α μ → Bool
  | writing true rest => rest.any (Step.forgets source key)
  | writing false _ => false
  | asking _ => false
  | missed _ _ => false
  | read _ _ _ => false
  | answered _ _ _ => false

def Point.holds (subject : γ) : Point δ γ κ α μ → Bool
  | read key _ _ => source.subject key = subject
  | asking _ => false
  | missed _ _ => false
  | answered _ _ _ => false
  | writing _ _ => false

def Step.act (s : Shared δ κ α) : Step γ κ μ → Shared δ κ α
  | commit change => { s with data := source.apply change s.data, past := s.data :: s.past }
  | forget key => { s with entries := s.entries.filter fun entry => entry.1 ≠ key }
  | forgetAll subject =>
    { s with entries := s.entries.filter fun entry => source.subject entry.1 ≠ subject }

def Step.isCommit : Step γ κ μ → Bool
  | commit _ => true
  | forget _ => false
  | forgetAll _ => false

def Shared.get (s : Shared δ κ α) (key : κ) : Option α :=
  (s.entries.find? fun entry => entry.1 = key).map Prod.snd

def Shared.set (s : Shared δ κ α) (key : κ) (value : α) : Shared δ κ α :=
  { s with entries := (key, value) :: s.entries.filter fun entry => entry.1 ≠ key }

/-- A reader asks the cache, reads the data and stores the view; a writer takes its steps. -/
def next (_ : Unit) (s : Shared δ κ α) : Point δ γ κ α μ → Shared δ κ α × Point δ γ κ α μ
  | .asking key =>
    match s.get key with
    | some value => (s, .answered key [s.data] (source.restore value))
    | none => (s, .missed key s.past.length)
  | .missed key since => (s, .read key since (source.view s.data (source.subject key)))
  | .read key since value => (s.set key value, .answered key (s.during since) value)
  | .answered key moments value => (s, .answered key moments value)
  | .writing committed [] => (s, .writing committed [])
  | .writing committed (step :: rest) =>
    (step.act source s, .writing (committed || step.isCommit) rest)

abbrev System (δ : Type u) (γ : Type v) (κ : Type w) (α : Type x) (μ : Type y) :=
  CallSystem (Shared δ κ α) (Point δ γ κ α μ)

def step (s : System δ γ κ α μ) (turn : Nat × Unit) : System δ γ κ α μ :=
  advance (fun _ _ => false) (next source) s turn

def Agrees (s : System δ γ κ α μ) : Prop :=
  ∀ key moments value, Point.answered key moments value ∈ s.calls →
    ∃ data ∈ moments, value = source.view data (source.subject key)

/-- The condition on the step of a caller at the given point: a key that is cached is not asked
for while a writer has still to clear it, and a change is committed only when no reader holds a
view on its subject and the writer will clear whatever is cached on it. -/
def CarefulAt (s : System δ γ κ α μ) : Point δ γ κ α μ → Prop
  | .asking key => (s.shared.get key).isSome = true →
      ∀ point ∈ s.calls, point.owes source key = false
  | .writing _ (.commit change :: rest) =>
      (∀ point ∈ s.calls, point.holds source (source.touched change) = false) ∧
      ∀ entry ∈ s.shared.entries, source.subject entry.1 = source.touched change →
        rest.any (Step.forgets source entry.1) = true
  | .writing _ _ => True
  | .missed _ _ => True
  | .read _ _ _ => True
  | .answered _ _ _ => True

def Careful (s : System δ γ κ α μ) (turn : Nat × Unit) : Prop :=
  ∀ point, s.calls[turn.1]? = some point → CarefulAt source s point

instance decidableCarefulAt (s : System δ γ κ α μ) :
    ∀ point, Decidable (CarefulAt source s point)
  | .asking .. | .writing _ (.commit _ :: _) => by dsimp only [CarefulAt]; infer_instance
  | .writing _ [] | .writing _ (.forget _ :: _) | .writing _ (.forgetAll _ :: _) | .missed ..
  | .read .. | .answered .. => .isTrue trivial

instance decidableCareful (s : System δ γ κ α μ) (turn : Nat × Unit) :
    Decidable (Careful source s turn) :=
  match here : s.calls[turn.1]? with
  | none => .isTrue fun point there => by
      rw [here] at there
      cases there
  | some point => decidable_of_iff (CarefulAt source s point)
      ⟨fun h other there => by
        rw [here] at there
        exact Option.some.inj there ▸ h, fun h => h point here⟩

/-- A key is up to date, or some writer has still to clear it; readers hold present views. -/
structure Sound (s : System δ γ κ α μ) : Prop where
  current : ∀ entry ∈ s.shared.entries,
    entry.2 = source.view s.shared.data (source.subject entry.1) ∨
      ∃ point ∈ s.calls, point.owes source entry.1 = true
  held : ∀ key since value, Point.read key since value ∈ s.calls →
    value = source.view s.shared.data (source.subject key)
  agrees : Agrees source s

variable {source} {s : System δ γ κ α μ} {i : Nat} {p q : Point δ γ κ α μ}

theorem sound_of_fresh (empty : s.shared.entries = [])
    (fresh : ∀ point ∈ s.calls, point.fresh = true) : Sound source s where
  current := by
    rw [empty]
    intro entry member
    cases member
  held := by
    intro key since value member
    cases fresh _ member
  agrees := by
    intro key moments value member
    cases fresh _ member

theorem owed_set {key : κ} (here : s.calls[i]? = some p)
    (keep : p.owes source key = true → q.owes source key = true)
    (owed : ∃ point ∈ s.calls, point.owes source key = true) :
    ∃ point ∈ s.calls.set i q, point.owes source key = true := by
  obtain ⟨point, member, owes⟩ := owed
  obtain ⟨j, there⟩ := List.mem_iff_getElem?.mp member
  by_cases same : j = i
  · subst same
    obtain rfl := Option.some.inj (here.symm.trans there)
    have inside : j < s.calls.length := (List.getElem?_eq_some_iff.mp here).1
    exact ⟨q, List.mem_set inside q, keep owes⟩
  · have stays : (s.calls.set i q)[j]? = some point :=
      (getElem?_set_iff here).mpr (.inr ⟨same, there⟩)
    exact ⟨point, List.mem_of_getElem? stays, owes⟩

theorem mem_of_get {shared : Shared δ κ α} {key : κ} {value : α}
    (found : shared.get key = some value) : (key, value) ∈ shared.entries := by
  obtain ⟨⟨other, kept⟩, entry, rfl⟩ := Option.map_eq_some_iff.mp found
  have same := List.find?_some entry
  obtain rfl : other = key := of_decide_eq_true same
  exact List.mem_of_find?_eq_some entry

theorem agrees_set {shared : Shared δ κ α} (sound : Sound source s)
    (fresh : ∀ key moments value, q = .answered key moments value →
      ∃ data ∈ moments, value = source.view data (source.subject key)) :
    Agrees source ⟨shared, s.calls.set i q⟩ := by
  intro key moments value member
  rcases List.mem_or_eq_of_mem_set member with old | new
  · exact sound.agrees key moments value old
  · exact fresh key moments value new.symm

theorem sound_of_same (sound : Sound source s) (here : s.calls[i]? = some p)
    (keep : ∀ key, p.owes source key = true → q.owes source key = true)
    (held : ∀ key since value, q = .read key since value →
      value = source.view s.shared.data (source.subject key))
    (fresh : ∀ key moments value, q = .answered key moments value →
      ∃ data ∈ moments, value = source.view data (source.subject key)) :
    Sound source ⟨s.shared, s.calls.set i q⟩ where
  current := by
    intro entry member
    rcases sound.current entry member with same | owed
    · exact .inl same
    · exact .inr (owed_set here (keep entry.1) owed)
  held := by
    intro key since value member
    rcases List.mem_or_eq_of_mem_set member with old | new
    · exact sound.held key since value old
    · exact held key since value new.symm
  agrees := agrees_set sound fresh

theorem answer_of_get (lawful : source.Lawful) (sound : Sound source s) {key : κ} {value : α}
    (free : ∀ point ∈ s.calls, point.owes source key = false)
    (found : s.shared.get key = some value) :
    source.restore value = source.view s.shared.data (source.subject key) := by
  rcases sound.current _ (mem_of_get found) with same | ⟨point, member, owes⟩
  · dsimp only at same
    rw [same, lawful.restore_view]
  · rw [free point member] at owes
    cases owes

theorem sound_store (sound : Sound source s) {key : κ} {since : Nat} {value : α}
    (here : s.calls[i]? = some (.read key since value)) :
    Sound source ⟨s.shared.set key value,
      s.calls.set i (.answered key (s.shared.during since) value)⟩ where
  current := by
    intro entry member
    rcases List.mem_cons.mp member with rfl | kept
    · exact .inl (sound.held key since value (List.mem_of_getElem? here))
    · rcases sound.current entry (List.mem_of_mem_filter kept) with same | owed
      · exact .inl same
      · exact .inr (owed_set here (fun owes => by cases owes) owed)
  held := by
    intro other start held member
    rcases List.mem_or_eq_of_mem_set member with old | new
    · exact sound.held other start held old
    · cases new
  agrees := by
    apply agrees_set sound
    intro other moments answer same
    obtain ⟨rfl, rfl, rfl⟩ := Point.answered.inj same
    have present := sound.held key since value (List.mem_of_getElem? here)
    exact ⟨s.shared.data, s.shared.data_mem_during since, present⟩

theorem sound_clear (sound : Sound source s) {clearing : Step γ κ μ} {committed : Bool}
    {rest : List (Step γ κ μ)} (here : s.calls[i]? = some (.writing committed (clearing :: rest)))
    (kept : κ → Bool)
    (acts : clearing.act source s.shared =
      { s.shared with entries := s.shared.entries.filter fun entry => kept entry.1 })
    (only : ∀ key, kept key = true → clearing.forgets source key = false) :
    Sound source ⟨clearing.act source s.shared,
      s.calls.set i (.writing (committed || clearing.isCommit) rest)⟩ where
  current := by
    rw [acts]
    intro entry member
    obtain ⟨old, keep⟩ := List.mem_filter.mp member
    rcases sound.current entry old with same | owed
    · exact .inl same
    · refine .inr (owed_set here ?_ owed)
      intro owes
      cases committed with
      | false => cases owes
      | true =>
        change (clearing.forgets source entry.1 || rest.any (Step.forgets source entry.1)) = true
          at owes
        rw [only entry.1 keep] at owes
        exact owes
  held := by
    rw [acts]
    intro key since value member
    rcases List.mem_or_eq_of_mem_set member with old | new
    · exact sound.held key since value old
    · cases new
  agrees := by
    apply agrees_set sound
    intro key moments value same
    cases same

theorem sound_commit (lawful : source.Lawful) (sound : Sound source s) {change : μ}
    {committed : Bool} {rest : List (Step γ κ μ)}
    (here : s.calls[i]? = some (.writing committed (.commit change :: rest)))
    (careful : CarefulAt source s (.writing committed (.commit change :: rest))) :
    Sound source ⟨(Step.commit change).act source s.shared,
      s.calls.set i (.writing (committed || (Step.commit change : Step γ κ μ).isCommit) rest)⟩ where
  current := by
    intro entry member
    have marked : (committed || (Step.commit change : Step γ κ μ).isCommit) = true :=
      Bool.or_true committed
    rw [marked]
    by_cases touched : source.subject entry.1 = source.touched change
    · right
      have inside : i < s.calls.length := (List.getElem?_eq_some_iff.mp here).1
      exact ⟨_, List.mem_set inside _, careful.2 entry member touched⟩
    · rcases sound.current entry member with same | owed
      · left
        rw [same]
        exact (lawful.view_apply change s.shared.data _ touched).symm
      · refine .inr (owed_set here ?_ owed)
        intro owes
        cases committed with
        | false => cases owes
        | true => exact owes
  held := by
    intro key since value member
    rcases List.mem_or_eq_of_mem_set member with old | new
    · have apart : source.subject key ≠ source.touched change := by
        intro same
        have free := careful.1 _ old
        exact absurd same (of_decide_eq_false free)
      rw [sound.held key since value old]
      exact (lawful.view_apply change s.shared.data _ apart).symm
    · cases new
  agrees := by
    apply agrees_set sound
    intro key moments value same
    cases same

theorem sound_step (lawful : source.Lawful) (turn : Nat × Unit) (sound : Sound source s)
    (careful : Careful source s turn) : Sound source (step source s turn) := by
  unfold step
  rcases advance_cases (fun _ _ => false) (next source) s turn with same | ⟨p, here, _, moved⟩
  · rw [same]
    exact sound
  rw [moved]
  have here_ := careful p here
  cases p with
  | asking key =>
    rw [next]
    cases found : s.shared.get key with
    | none =>
      exact sound_of_same sound here (fun _ owes => by cases owes)
        (fun _ _ _ same => by cases same) (fun _ _ _ same => by cases same)
    | some =>
      have free := here_ (by rw [found]; rfl)
      refine sound_of_same sound here (fun _ owes => by cases owes)
        (fun _ _ _ same => by cases same) ?_
      intro other moments answer same
      obtain ⟨rfl, rfl, rfl⟩ := Point.answered.inj same
      exact ⟨_, List.mem_singleton_self _, answer_of_get lawful sound free found⟩
  | missed =>
    refine sound_of_same sound here (fun _ owes => by cases owes) ?_
      (fun _ _ _ same => by cases same)
    intro other start value same
    obtain ⟨rfl, rfl, rfl⟩ := Point.read.inj same
    rfl
  | read => exact sound_store sound here
  | answered key moments value =>
    refine sound_of_same sound here (fun _ owes => by cases owes)
      (fun _ _ _ same => by cases same) ?_
    intro other others answer same
    obtain ⟨rfl, rfl, rfl⟩ := Point.answered.inj same
    exact sound.agrees key moments value (List.mem_of_getElem? here)
  | writing committed rest =>
    cases rest with
    | nil =>
      exact sound_of_same sound here (fun _ owes => owes) (fun _ _ _ same => by cases same)
        (fun _ _ _ same => by cases same)
    | cons first =>
      cases first with
      | commit => exact sound_commit lawful sound here here_
      | forget key =>
        exact sound_clear sound here (fun other => decide (other ≠ key)) rfl
          (fun other keep => decide_eq_false (of_decide_eq_true keep))
      | forgetAll subject =>
        exact sound_clear sound here (fun other => decide (source.subject other ≠ subject)) rfl
          (fun other keep => decide_eq_false (of_decide_eq_true keep))

theorem agrees_of_careful (lawful : source.Lawful) {turns : List (Nat × Unit)}
    (start : Sound source s) (careful : Guarded (Careful source) (step source) s turns) :
    ∀ t ∈ trace (step source) s turns, Agrees source t := by
  intro t reached
  have keep : ∀ (s : System δ γ κ α μ) turn, Sound source s → Careful source s turn →
      Sound source (step source s turn) :=
    fun _ turn sound holds => sound_step lawful turn sound holds
  exact (invariant_of_guarded keep start careful t reached).agrees

end AverQel.Foundation.ReadThrough
