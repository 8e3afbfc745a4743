/- digest: Row lists with a unique key, their updates, and the choice of one extreme row. -/
import Mathlib.Data.List.MinMax
import Mathlib.Data.List.Nodup

namespace AverQel.Foundation

universe u v w

section UniqueKeys

variable {α : Type u} {κ : Type v} (key : α → κ) {items : List α}

theorem position_unique (distinct : (items.map key).Nodup) {i j : Nat} {a b : α}
    (here : items[i]? = some a) (there : items[j]? = some b) (same : key a = key b) : i = j := by
  have left : (items.map key)[i]? = some (key a) := by simp [here]
  have right : (items.map key)[j]? = some (key a) := by simp [there, same]
  have bound : i < (items.map key).length := (List.getElem?_eq_some_iff.mp left).1
  exact (List.getElem?_inj bound distinct).mp (left.trans right.symm)

theorem set_eq_map [DecidableEq κ] (distinct : (items.map key).Nodup) {i : Nat} {a : α}
    (at_ : items[i]? = some a) (f : α → α) :
    items.set i (f a) = items.map fun b => if key b = key a then f b else b := by
  apply List.ext_getElem?
  intro j
  rw [List.getElem?_set, List.getElem?_map]
  by_cases here : i = j
  · subst here
    have bound : i < items.length := (List.getElem?_eq_some_iff.mp at_).1
    have same : items[i] = a := (List.getElem?_eq_some_iff.mp at_).2
    simp [bound, same]
  · rw [if_neg here]
    cases other : items[j]? with
    | none => rfl
    | some b =>
      have apart : key b ≠ key a := fun same =>
        here (position_unique key distinct at_ other same.symm)
      simp [apart]

end UniqueKeys

structure Table (α : Type u) {κ : Type v} (key : α → κ) where
  rows : List α
  keys_nodup : (rows.map key).Nodup

namespace Table

variable {α : Type u} {κ : Type v} {key : α → κ}

@[ext] theorem ext {t t' : Table α key} (h : t.rows = t'.rows) : t = t' := by
  cases t
  cases t'
  cases h
  rfl

def empty : Table α key := ⟨[], List.nodup_nil⟩

def single (a : α) : Table α key := ⟨[a], List.nodup_singleton (key a)⟩

def mapRows (t : Table α key) (f : α → α) (hf : ∀ a, key (f a) = key a) : Table α key where
  rows := t.rows.map f
  keys_nodup := by
    have same : (t.rows.map f).map key = t.rows.map key := by simp [hf]
    rw [same]
    exact t.keys_nodup

def filter (t : Table α key) (p : α → Bool) : Table α key where
  rows := t.rows.filter p
  keys_nodup := t.keys_nodup.sublist (List.filter_sublist.map key)

section Lookup

variable [DecidableEq κ]

def find? (t : Table α key) (k : κ) : Option α :=
  t.rows.find? (fun a => decide (key a = k))

/-- Rewrite the row with key `k`, if there is one. -/
def modify (t : Table α key) (k : κ) (f : α → α) (hf : ∀ a, key (f a) = key a) :
    Table α key :=
  t.mapRows (fun a => if key a = k then f a else a) (fun a => by split <;> simp [hf])

/-- Append a row; `none` is the violated unique constraint. -/
def insert? (t : Table α key) (a : α) : Option (Table α key) :=
  if fresh : key a ∈ t.rows.map key then none
  else some
    { rows := t.rows ++ [a]
      keys_nodup := by
        rw [List.map_append, List.map_singleton]
        exact t.keys_nodup.append (List.nodup_singleton _) (by simpa using fresh) }

end Lookup

theorem eq_of_key_eq (t : Table α key) {a b : α} (ha : a ∈ t.rows) (hb : b ∈ t.rows)
    (h : key a = key b) : a = b :=
  List.inj_on_of_nodup_map t.keys_nodup ha hb h

variable {t : Table α key} {f : α → α}

@[simp] theorem mem_mapRows {hf : ∀ a, key (f a) = key a} {b : α} :
    b ∈ (t.mapRows f hf).rows ↔ ∃ a ∈ t.rows, f a = b :=
  List.mem_map

@[simp] theorem mem_filter {p : α → Bool} {a : α} :
    a ∈ (t.filter p).rows ↔ a ∈ t.rows ∧ p a :=
  List.mem_filter

theorem mapRows_eq_self {hf : ∀ a, key (f a) = key a} (same : ∀ a ∈ t.rows, f a = a) :
    t.mapRows f hf = t := by
  ext1
  exact (List.map_congr_left same).trans (List.map_id' t.rows)

section LookupLaws

variable [DecidableEq κ]

theorem find?_eq_some_iff {k : κ} {a : α} :
    t.find? k = some a ↔ a ∈ t.rows ∧ key a = k := by
  constructor
  · intro found
    exact ⟨List.mem_of_find?_eq_some found, by simpa using List.find?_some found⟩
  · rintro ⟨member, rfl⟩
    cases found : t.find? (key a) with
    | none =>
      have missing := List.find?_eq_none.mp found a member
      simp at missing
    | some b =>
      have hb : b ∈ t.rows := List.mem_of_find?_eq_some found
      have same : key b = key a := by simpa using List.find?_some found
      rw [t.eq_of_key_eq hb member same]

theorem find?_eq_none_iff {k : κ} :
    t.find? k = none ↔ ∀ a ∈ t.rows, key a ≠ k := by
  simp [find?]

@[simp] theorem find?_mapRows (t : Table α key) (f : α → α) (hf : ∀ a, key (f a) = key a)
    (k : κ) : (t.mapRows f hf).find? k = (t.find? k).map f := by
  simp only [find?, mapRows, List.find?_map, Function.comp_def, hf]

theorem mem_modify {k : κ} {hf : ∀ a, key (f a) = key a} {b : α} : b ∈ (t.modify k f hf).rows ↔
      ∃ a ∈ t.rows, (if key a = k then f a else a) = b :=
  mem_mapRows

theorem find?_modify (t : Table α key) (k : κ) (f : α → α) (hf : ∀ a, key (f a) = key a)
    (j : κ) : (t.modify k f hf).find? j =
      if j = k then (t.find? j).map f else t.find? j := by
  rw [modify, find?_mapRows]
  cases found : t.find? j with
  | none => simp
  | some a =>
    obtain ⟨_, rfl⟩ := find?_eq_some_iff.mp found
    by_cases same : key a = k <;> simp [same]

theorem rows_of_insert? {t t' : Table α key} {a : α} (h : t.insert? a = some t') :
    t'.rows = t.rows ++ [a] := by
  unfold insert? at h
  split at h
  · cases h
  · cases h
    rfl

theorem mem_of_insert? {t t' : Table α key} {a b : α} (h : t.insert? a = some t') :
    b ∈ t'.rows ↔ b ∈ t.rows ∨ b = a := by
  simp [rows_of_insert? h]

theorem find?_of_insert? {t t' : Table α key} {a : α} (h : t.insert? a = some t') (k : κ) :
    t'.find? k = if k = key a then some a else t.find? k := by
  by_cases new : k = key a
  · rw [if_pos new]
    exact find?_eq_some_iff.mpr ⟨(mem_of_insert? h).mpr (Or.inr rfl), new.symm⟩
  · rw [if_neg new]
    ext b
    simp only [find?_eq_some_iff, mem_of_insert? h]
    constructor
    · rintro ⟨old | rfl, same⟩
      · exact ⟨old, same⟩
      · exact absurd same.symm new
    · rintro ⟨old, same⟩
      exact ⟨Or.inl old, same⟩

theorem rows_of_foldlM_insert? {t t' : Table α key} {added : List α}
    (h : added.foldlM Table.insert? t = some t') : t'.rows = t.rows ++ added := by
  induction added generalizing t with
  | nil =>
    obtain rfl : t = t' := by simpa using h
    simp
  | cons a rest ih =>
    rw [List.foldlM_cons] at h
    obtain ⟨mid, first, later⟩ := Option.bind_eq_some_iff.mp h
    rw [ih later, rows_of_insert? first, List.append_assoc, List.singleton_append]

theorem insert?_of_fresh {a : α} (fresh : key a ∉ t.rows.map key) :
    ∃ t', t.insert? a = some t' ∧ t'.rows = t.rows ++ [a] := by
  rw [insert?, dif_neg fresh]
  exact ⟨_, rfl, rfl⟩

theorem isSome_foldlM_insert? {added : List α}
    (distinct : (t.rows.map key ++ added.map key).Nodup) :
    (added.foldlM Table.insert? t).isSome := by
  induction added generalizing t with
  | nil => rfl
  | cons a rest ih =>
    have fresh : key a ∉ t.rows.map key := fun taken =>
      (List.nodup_append.mp distinct).2.2 _ taken _ List.mem_cons_self rfl
    obtain ⟨t', inserted, rows⟩ := insert?_of_fresh fresh
    rw [List.foldlM_cons, inserted]
    apply ih
    rw [rows, List.map_append, List.append_assoc]
    exact distinct

theorem insert?_mapRows (t : Table α key) (f : α → α) (hf : ∀ a, key (f a) = key a) (a : α) :
    (t.mapRows f hf).insert? (f a) = (t.insert? a).map fun after => after.mapRows f hf := by
  have keys : (t.rows.map f).map key = t.rows.map key := by
    rw [List.map_map]
    exact List.map_congr_left fun b _ => hf b
  by_cases taken : key a ∈ t.rows.map key
  · have mapped : key (f a) ∈ (t.mapRows f hf).rows.map key := by
      show key (f a) ∈ (t.rows.map f).map key
      rwa [keys, hf]
    rw [insert?, insert?, dif_pos taken, dif_pos mapped]
    rfl
  · have mapped : key (f a) ∉ (t.mapRows f hf).rows.map key := by
      show key (f a) ∉ (t.rows.map f).map key
      rwa [keys, hf]
    rw [insert?, insert?, dif_neg taken, dif_neg mapped, Option.map_some]
    congr 1
    ext1
    show t.rows.map f ++ [f a] = (t.rows ++ [a]).map f
    rw [List.map_append, List.map_singleton]

theorem fresh_of_insert? {t t' : Table α key} {a b : α} (h : t.insert? a = some t')
    (hb : b ∈ t.rows) : key b ≠ key a := by
  unfold insert? at h
  split at h
  · cases h
  · rename_i fresh
    intro same
    exact fresh (same ▸ List.mem_map_of_mem hb)

end LookupLaws

theorem countP_key [DecidableEq κ] (t : Table α key) {a : α} (member : a ∈ t.rows) :
    t.rows.countP (fun b => decide (key b = key a)) = 1 := by
  have once := List.count_eq_one_of_mem t.keys_nodup (List.mem_map_of_mem member)
  rw [← once, List.count, List.countP_map]
  rfl

def AtMostOne (t : Table α key) (p : α → Bool) : Prop :=
  ∀ a ∈ t.rows, ∀ b ∈ t.rows, p a → p b → key a = key b

theorem atMostOne_iff_length_filter (t : Table α key) (p : α → Bool) :
    t.AtMostOne p ↔ (t.rows.filter p).length ≤ 1 := by
  have nodup : (t.rows.filter p).Nodup := t.keys_nodup.of_map.filter p
  constructor
  · intro one
    rcases shape : t.rows.filter p with _ | ⟨a, _ | ⟨b, rest⟩⟩
    · simp
    · simp
    · have ha : a ∈ t.rows.filter p := by simp [shape]
      have hb : b ∈ t.rows.filter p := by simp [shape]
      rw [List.mem_filter] at ha hb
      have same := t.eq_of_key_eq ha.1 hb.1 (one a ha.1 b hb.1 ha.2 hb.2)
      rw [shape, same] at nodup
      simp at nodup
  · intro short a ha b hb pa pb
    have hfa : a ∈ t.rows.filter p := List.mem_filter.mpr ⟨ha, pa⟩
    have hfb : b ∈ t.rows.filter p := List.mem_filter.mpr ⟨hb, pb⟩
    rcases shape : t.rows.filter p with _ | ⟨c, _ | ⟨d, rest⟩⟩
    · simp [shape] at hfa
    · rw [shape, List.mem_singleton] at hfa hfb
      rw [hfa, hfb]
    · simp [shape] at short

end Table

variable {α : Type u} {β : Type v} [LinearOrder β]

def maxBy (f : α → β) (rows : List α) : Option α := rows.argmax f

def minBy (f : α → β) (rows : List α) : Option α := rows.argmin f

theorem maxBy_map {γ : Type w} (f : α → β) (g : γ → α) (rows : List γ) :
    maxBy f (rows.map g) = (maxBy (fun row => f (g row)) rows).map g := by
  induction rows with
  | nil => rfl
  | cons row rows ih =>
    simp only [maxBy, List.map_cons, List.argmax_cons] at ih ⊢
    rw [ih]
    cases rows.argmax fun row => f (g row) with
    | none => rfl
    | some best => by_cases smaller : f (g row) < f (g best) <;> simp [smaller]

theorem mem_of_maxBy {f : α → β} {rows : List α} {a : α} (h : maxBy f rows = some a) : a ∈ rows :=
  List.argmax_mem h

theorem mem_of_minBy {f : α → β} {rows : List α} {a : α} (h : minBy f rows = some a) : a ∈ rows :=
  List.argmin_mem h

theorem le_foldl_max (values : List β) (start : β) :
    start ≤ values.foldl max start ∧ ∀ b ∈ values, b ≤ values.foldl max start := by
  induction values generalizing start with
  | nil =>
    refine ⟨le_refl start, ?_⟩
    intro b member
    exact absurd member List.not_mem_nil
  | cons a values ih =>
    obtain ⟨above, all⟩ := ih (max start a)
    rw [List.foldl_cons]
    refine ⟨le_trans (le_max_left start a) above, ?_⟩
    intro b member
    rcases List.mem_cons.mp member with rfl | later
    · exact le_trans (le_max_right start b) above
    · exact all b later

end AverQel.Foundation
