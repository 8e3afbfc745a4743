/- digest: Message lists in which every opening is answered at once, and answers kept by key. -/
import Mathlib.Data.List.Nodup
import Mathlib.Data.List.Lookmap
import Mathlib.Data.List.Perm.Basic

namespace AverQel.Foundation.Obligations

universe u v w
variable {μ : Type u} {κ : Type v} {ν : Type w}

/-- What a message owes or pays: an opening owes one answer for each of its keys. -/
inductive Effect (κ : Type v) (ν : Type w) where
  | neutral
  | opens (keys : List κ)
  | settles (key : κ) (value : ν)
  deriving DecidableEq

section Settled

variable (effect : μ → Effect κ ν)

/-- Every opening is followed at once by its answers, each once and in any order, and nothing
else is an answer. The ledger lists, opening by opening, which value answers which key. -/
inductive Settled : List (List (κ × ν)) → List μ → Prop where
  | nil : Settled [] []
  | neutral {ledger : List (List (κ × ν))} {m : μ} {ms : List μ} :
      effect m = .neutral → Settled ledger ms → Settled ledger (m :: ms)
  | exchange {owed paid : List (κ × ν)} {ledger : List (List (κ × ν))} {m : μ}
      {answers ms : List μ} :
      effect m = .opens (owed.map Prod.fst) →
      answers.map effect = paid.map (fun entry => .settles entry.1 entry.2) →
      owed.Perm paid → Settled ledger ms → Settled (owed :: ledger) (m :: (answers ++ ms))

variable {effect}

variable {ledger : List (List (κ × ν))}

theorem Settled.cons_neutral_iff {m : μ} {ms : List μ} (plain : effect m = .neutral) :
    Settled effect ledger (m :: ms) ↔ Settled effect ledger ms := by
  constructor
  · intro settled
    cases settled with
    | neutral _ rest => exact rest
    | exchange opens => rw [plain] at opens; cases opens
  · exact Settled.neutral plain

theorem Settled.not_cons_settles {m : μ} {ms : List μ} {key : κ} {value : ν}
    (pays : effect m = .settles key value) : ¬ Settled effect ledger (m :: ms) := by
  intro settled
  cases settled with
  | neutral plain => rw [plain] at pays; cases pays
  | exchange opens => rw [opens] at pays; cases pays

theorem Settled.cons_opens_iff {owed : List (κ × ν)} {m : μ} {keys : List κ} {answers ms : List μ}
    (opens : effect m = .opens keys) (count : answers.length = owed.length) :
    Settled effect (owed :: ledger) (m :: (answers ++ ms)) ↔
      keys = owed.map Prod.fst ∧
        (∃ paid, answers.map effect = paid.map (fun entry => .settles entry.1 entry.2) ∧
          owed.Perm paid) ∧ Settled effect ledger ms := by
  constructor
  · intro settled
    generalize shape : m :: (answers ++ ms) = messages at settled
    cases settled with
    | neutral plain =>
      cases shape
      rw [plain] at opens
      cases opens
    | @exchange _ paid _ m' answers' ms' opens' pays agree rest =>
      obtain ⟨rfl, tail⟩ := List.cons.inj shape
      have same : answers.length = answers'.length := by
        rw [count, agree.length_eq]
        simpa using (congrArg List.length pays).symm
      obtain ⟨rfl, rfl⟩ := List.append_inj tail same
      rw [opens] at opens'
      exact ⟨Effect.opens.inj opens', ⟨paid, pays, agree⟩, rest⟩
  · rintro ⟨rfl, ⟨paid, pays, agree⟩, rest⟩
    exact Settled.exchange opens pays agree rest

theorem Settled.append_iff {ledger more : List (List (κ × ν))} {ms ms' : List μ}
    (settled : Settled effect ledger ms) :
    Settled effect (ledger ++ more) (ms ++ ms') ↔ Settled effect more ms' := by
  induction settled with
  | nil => exact Iff.rfl
  | neutral plain _ ih => exact (Settled.cons_neutral_iff plain).trans ih
  | @exchange owed paid ledger m answers ms opens pays agree _ ih =>
    have count : answers.length = owed.length := by
      rw [agree.length_eq]
      simpa using congrArg List.length pays
    have unfolded : Settled effect (owed :: (ledger ++ more)) (m :: (answers ++ (ms ++ ms'))) ↔ _ :=
      Settled.cons_opens_iff opens count
    rw [List.cons_append, List.cons_append, List.append_assoc, unfolded, ih]
    exact ⟨fun parts => parts.2.2, fun rest => ⟨rfl, ⟨paid, pays, agree⟩, rest⟩⟩

theorem pays_injective {owed paid : List (κ × ν)}
    (same : owed.map (fun entry => Effect.settles entry.1 entry.2) =
      paid.map (fun entry => Effect.settles entry.1 entry.2)) : owed = paid := by
  refine List.map_injective_iff.mpr ?_ same
  rintro ⟨key, value⟩ ⟨key', value'⟩ equal
  cases equal
  rfl

theorem settles_of_mem {paid : List (κ × ν)} {answers : List μ} {answer : μ}
    (pays : answers.map effect = paid.map (fun entry => .settles entry.1 entry.2))
    (member : answer ∈ answers) : ∃ key value, effect answer = .settles key value := by
  have listed : effect answer ∈ answers.map effect := List.mem_map_of_mem member
  rw [pays, List.mem_map] at listed
  obtain ⟨entry, _, pay⟩ := listed
  exact ⟨entry.1, entry.2, pay.symm⟩

theorem Settled.filter {ms : List μ} (p : μ → Bool)
    (drops : ∀ m, p m = false → effect m = .neutral) (settled : Settled effect ledger ms) :
    Settled effect ledger (ms.filter p) := by
  induction settled with
  | nil => exact Settled.nil
  | @neutral ledger m ms plain _ ih =>
    by_cases kept : p m = true
    · rw [List.filter_cons_of_pos kept]
      exact Settled.neutral plain ih
    · rw [List.filter_cons_of_neg kept]
      exact ih
  | @exchange owed paid ledger m answers ms opens pays agree _ ih =>
    have keeps : ∀ other, effect other ≠ .neutral → p other = true := by
      intro other busy
      by_contra dropped
      exact busy (drops other (by simpa using dropped))
    have head : p m = true := keeps m (by simp [opens])
    have all : answers.filter p = answers := by
      rw [List.filter_eq_self]
      intro answer member
      obtain ⟨key, value, pay⟩ := settles_of_mem pays member
      exact keeps answer (by simp [pay])
    rw [List.filter_cons_of_pos head, List.filter_append, all]
    exact Settled.exchange opens pays agree ih

end Settled

section Exchange

variable {effect : μ → Effect κ ν}

theorem settled_nil_iff {paid : List (κ × ν)} {answers : List μ}
    (pays : answers.map effect = paid.map (fun entry => .settles entry.1 entry.2)) :
    Settled effect [] answers ↔ paid = [] := by
  cases answers with
  | nil =>
    have empty : paid = [] := List.map_eq_nil_iff.mp pays.symm
    exact ⟨fun _ => empty, fun _ => Settled.nil⟩
  | cons =>
    obtain ⟨key, value, pay⟩ := settles_of_mem pays List.mem_cons_self
    constructor
    · intro settled
      exact absurd settled (Settled.not_cons_settles pay)
    · rintro rfl
      cases pays

theorem settled_exchange_iff {owed paid : List (κ × ν)} {m : μ} {answers : List μ}
    (opens : effect m = .opens (owed.map Prod.fst))
    (pays : answers.map effect = paid.map (fun entry => .settles entry.1 entry.2)) :
    Settled effect [owed] (m :: answers) ↔ owed.Perm paid := by
  constructor
  · intro settled
    generalize shape : m :: answers = messages at settled
    cases settled with
    | neutral plain =>
      cases shape
      rw [plain] at opens
      cases opens
    | @exchange _ paid' _ m' first rest opens' pays' agree settled =>
      obtain ⟨rfl, rfl⟩ := List.cons.inj shape
      cases rest with
      | nil =>
        rw [List.append_nil, pays'] at pays
        rwa [← pays_injective pays]
      | cons extra =>
        obtain ⟨key, value, pay⟩ := settles_of_mem pays
          (List.mem_append_right first (List.mem_cons_self (a := extra)))
        exact absurd settled (Settled.not_cons_settles pay)
  · intro agree
    have whole := Settled.exchange opens pays agree Settled.nil
    rwa [List.append_nil] at whole

end Exchange

variable [DecidableEq κ]

def collected (entries : List (κ × ν)) : List (κ × ν) :=
  entries.filterMap (fun entry => (entries.reverse.lookup entry.1).map (entry.1, ·))

theorem lookup_reverse_of_nodup {entries : List (κ × ν)} (keys : (entries.map Prod.fst).Nodup)
    {entry : κ × ν} (member : entry ∈ entries) :
    entries.reverse.lookup entry.1 = some entry.2 := by
  obtain ⟨before, after, rfl⟩ := List.append_of_mem member
  have apart : ∀ other ∈ after, other.1 ≠ entry.1 := by
    intro other later same
    rw [List.map_append, List.map_cons, List.nodup_append, List.nodup_cons] at keys
    exact keys.2.1.1 (same ▸ List.mem_map_of_mem later)
  rw [List.lookup_eq_some_iff]
  refine ⟨after.reverse, before.reverse, by simp, ?_⟩
  intro other member'
  have different := apart other (List.mem_reverse.mp member')
  simpa using fun same => different same.symm

theorem collected_of_nodup {entries : List (κ × ν)} (keys : (entries.map Prod.fst).Nodup) :
    collected entries = entries := by
  have own : ∀ entry ∈ entries,
      (entries.reverse.lookup entry.1).map (entry.1, ·) = some entry := by
    intro entry member
    rw [lookup_reverse_of_nodup keys member]
    rfl
  exact (List.filterMap_congr own).trans List.filterMap_some

theorem keys_nodup_of_collected {entries : List (κ × ν)} (nodup : (collected entries).Nodup) :
    (entries.map Prod.fst).Nodup := by
  rw [List.Nodup, List.pairwise_map]
  refine (List.pairwise_filterMap.mp nodup).imp_of_mem ?_
  intro entry other member _ differ same
  obtain ⟨value, kept⟩ : ∃ value, entries.reverse.lookup entry.1 = some value := by
    rw [← Option.isSome_iff_exists, List.lookup_isSome_iff]
    exact ⟨entry, List.mem_reverse.mpr member, beq_self_eq_true _⟩
  exact differ (entry.1, value) (by rw [kept]; rfl) (entry.1, value)
    (by rw [← same, kept]; rfl) rfl

theorem collected_perm_iff {entries : List (κ × ν)}
    (values : (entries.map Prod.snd).Nodup) :
    (entries.Perm (collected entries)) ↔ (entries.map Prod.fst).Nodup := by
  constructor
  · intro same
    exact keys_nodup_of_collected (same.nodup_iff.mp values.of_map)
  · intro keys
    rw [collected_of_nodup keys]

theorem length_collected (entries : List (κ × ν)) :
    (collected entries).length = entries.length := by
  rw [collected, List.length_filterMap_eq_countP, List.countP_eq_length]
  intro entry member
  rw [Option.isSome_map, List.lookup_isSome_iff]
  exact ⟨entry, List.mem_reverse.mpr member, beq_self_eq_true _⟩

theorem filter_perm_collected_iff {entries : List (κ × ν)} (keep : κ → Bool)
    (values : (entries.map Prod.snd).Nodup) :
    (entries.filter (fun entry => keep entry.1)).Perm (collected entries) ↔
      (entries.map Prod.fst).Nodup ∧ ∀ key ∈ entries.map Prod.fst, keep key = true := by
  constructor
  · intro same
    have all : ∀ entry ∈ entries, keep entry.1 = true := by
      apply List.length_filter_eq_length_iff.mp
      rw [same.length_eq, length_collected]
    rw [List.filter_eq_self.mpr all, collected_perm_iff values] at same
    exact ⟨same, List.forall_mem_map.mpr all⟩
  · rintro ⟨keys, all⟩
    have whole : entries.filter (fun entry => keep entry.1) = entries :=
      List.filter_eq_self.mpr fun entry member => all entry.1 (List.mem_map_of_mem member)
    rw [whole]
    exact (collected_perm_iff values).mpr keys

end AverQel.Foundation.Obligations
