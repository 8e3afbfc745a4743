/- digest: Reading a list in pages with the key of the last row as the cursor, and what gets lost. -/
import Mathlib.Data.List.Sort

namespace AverQel.Foundation.Paging

universe u v w
variable {α : Type u} {τ : Type v}

structure Page (α : Type u) (τ : Type v) where
  rows : List α
  next : Option τ

/-- A reader asks for page after page with the cursors it gets, until there are no more rows. -/
inductive Walk (request : Nat → Option τ → Page α τ) : Nat → Option τ → List (List α) → Prop
  | last {n : Nat} {cursor : Option τ} (ended : (request n cursor).next = none) :
    Walk request n cursor [(request n cursor).rows]
  | more {n : Nat} {cursor : Option τ} {following : τ} {pages : List (List α)}
    (goesOn : (request n cursor).next = some following)
    (rest : Walk request (n + 1) (some following) pages) :
    Walk request n cursor ((request n cursor).rows :: pages)

/-- The same for an endpoint that reads and may write a state, and that may refuse. -/
inductive Reads {σ : Type w} (ask : Nat → σ → Option τ → Option (σ × Page α τ)) :
    Nat → σ → Option τ → List (List α) → Prop
  | last {n : Nat} {s s' : σ} {cursor : Option τ} {rows : List α}
    (answered : ask n s cursor = some (s', ⟨rows, none⟩)) : Reads ask n s cursor [rows]
  | more {n : Nat} {s s' : σ} {cursor : Option τ} {following : τ} {rows : List α}
    {pages : List (List α)} (answered : ask n s cursor = some (s', ⟨rows, some following⟩))
    (rest : Reads ask (n + 1) s' (some following) pages) : Reads ask n s cursor (rows :: pages)

theorem Walk.reads {σ : Type w} {ask : Nat → σ → Option τ → Option (σ × Page α τ)} {s : σ}
    {request : Nat → Option τ → Page α τ} {f : List α → List α}
    (answers : ∀ n cursor,
      ask n s cursor = some (s, ⟨f (request n cursor).rows, (request n cursor).next⟩))
    {n : Nat} {cursor : Option τ} {pages : List (List α)} (walk : Walk request n cursor pages) :
    Reads ask n s cursor (pages.map f) := by
  induction walk with
  | @last n cursor ended => exact .last (by rw [answers, ended])
  | @more n cursor following pages goesOn rest ih => exact .more (by rw [answers, goesOn]) ih

variable [LinearOrder τ] (time : α → τ)

def earlier (cursor : Option τ) (rows : List α) : List α :=
  rows.filter fun row => cursor.all fun bound => time row < bound

/-- The page that a reader gets who asks for `limit` rows, when up to one more was fetched. -/
def page (limit : Nat) (fetched : List α) : Page α τ :=
  if limit < fetched.length then
    ⟨fetched.dropLast, fetched.dropLast.getLast?.map time⟩
  else ⟨fetched, none⟩

def times (rows : List α) : List τ := (rows.map time).insertionSort (· ≥ ·)

def NoTieAtBoundary (limit : Nat) (keys : List τ) : Prop :=
  ∀ j, 0 < j → ∀ key ∈ keys[j * limit - 1]?, keys[j * limit]? ≠ some key

/-- How a request lists the rows that it selects: all of them, latest first. Rows with one key may
come in another order in every request, as far as `precedes` allows. -/
structure Listing (precedes : α → α → Prop) where
  arrange : Nat → List α → List α
  perm : ∀ n rows, (arrange n rows).Perm rows
  ordered : ∀ n rows, (arrange n rows).Pairwise precedes
  latestFirst : ∀ a b, precedes a b → time b ≤ time a
  precedes_of_lt : ∀ a b, time b < time a → precedes a b

/-- A request that fetches one row more than the page, and never more than `cap` rows. -/
def Listing.request {time : α → τ} {precedes : α → α → Prop} (listing : Listing time precedes)
    (cap limit : Nat) (rows : List α) (n : Nat) (cursor : Option τ) : Page α τ :=
  page time limit ((listing.arrange n (earlier time cursor rows)).take (min (limit + 1) cap))

section Times

variable {time}

theorem times_eq {rows listed : List α} (perm : listed.Perm rows)
    (sorted : listed.Pairwise fun a b => time b ≤ time a) : times time rows = listed.map time := by
  have left : (times time rows).Pairwise (· ≥ ·) := List.pairwise_insertionSort _ _
  have right : (listed.map time).Pairwise (· ≥ ·) := List.pairwise_map.mpr sorted
  have same : (times time rows).Perm (listed.map time) :=
    (List.perm_insertionSort _ _).trans (perm.map time).symm
  exact same.eq_of_pairwise (fun a b _ _ below above => le_antisymm above below) left right

omit [LinearOrder τ] in
theorem noTieAtBoundary_iff {limit : Nat} (keys : List τ) (positive : 0 < limit) :
    NoTieAtBoundary limit keys ↔
      (∀ key ∈ keys[limit - 1]?, keys[limit]? ≠ some key) ∧
        NoTieAtBoundary limit (keys.drop limit) := by
  constructor
  · intro free
    refine ⟨by simpa using free 1 Nat.one_pos, fun j later key found => ?_⟩
    have here := free (j + 1) (Nat.succ_pos j) key
    rw [List.getElem?_drop] at found ⊢
    have step : (j + 1) * limit = j * limit + limit := Nat.succ_mul j limit
    have reaches : limit ≤ j * limit := Nat.le_mul_of_pos_left limit later
    have before : limit + (j * limit - 1) = (j + 1) * limit - 1 := by omega
    have after : limit + j * limit = (j + 1) * limit := by omega
    rw [before] at found
    rw [after]
    exact here found
  · rintro ⟨first, rest⟩ j later key found
    obtain ⟨j, rfl⟩ : ∃ k, j = k + 1 := ⟨j - 1, by omega⟩
    cases j with
    | zero => simpa using first key (by simpa using found)
    | succ j =>
      have here := rest (j + 1) (Nat.succ_pos j) key
      rw [List.getElem?_drop, List.getElem?_drop] at here
      have step : (j + 1 + 1) * limit = (j + 1) * limit + limit := Nat.succ_mul (j + 1) limit
      have reaches : limit ≤ (j + 1) * limit := Nat.le_mul_of_pos_left limit (Nat.succ_pos j)
      have before : limit + ((j + 1) * limit - 1) = (j + 1 + 1) * limit - 1 := by omega
      have after : limit + (j + 1) * limit = (j + 1 + 1) * limit := by omega
      rw [before, after] at here
      exact here found

end Times

def Complete (cap limit : Nat) (rows : List α) : Prop :=
  if limit < cap then NoTieAtBoundary limit (times time rows) else rows.length ≤ cap

variable {time} {precedes : α → α → Prop} (listing : Listing time precedes)
variable {cap limit : Nat} {rows : List α}

variable {front : List α}

theorem page_above {last : α} {tail : List α}
    (ordered : (front ++ [last] ++ tail).Pairwise fun a b => time b ≤ time a) :
    ∀ row ∈ front ++ [last], time last ≤ time row := by
  intro row member
  rcases List.mem_append.mp member with inside | same
  · have pairs := (List.pairwise_append.mp (List.pairwise_append.mp ordered).1).2.2
    exact pairs row inside last (List.mem_singleton_self last)
  · rw [List.mem_singleton.mp same]

theorem tied_eq_nil_iff {last next : α} {rest : List α}
    (ordered : (front ++ [last] ++ next :: rest).Pairwise fun a b => time b ≤ time a) :
    (next :: rest).filter (fun row => !decide (time row < time last)) = [] ↔
      time next < time last := by
  rw [List.filter_eq_nil_iff]
  constructor
  · intro free
    simpa using free next List.mem_cons_self
  · intro before row member
    have behind : time row ≤ time next := by
      rcases List.mem_cons.mp member with rfl | later
      · exact le_refl _
      · have tail := (List.pairwise_append.mp ordered).2.1
        exact (List.pairwise_cons.mp tail).1 row later
    simpa using behind.trans_lt before

theorem earlier_of_page {n : Nat} {cursor : Option τ} {last : α} {tail : List α}
    (listed : listing.arrange n (earlier time cursor rows) = (front ++ [last]) ++ tail) :
    (earlier time (some (time last)) rows).Perm
      (tail.filter fun row => time row < time last) := by
  have perm := listing.perm n (earlier time cursor rows)
  have ordered := listing.ordered n (earlier time cursor rows)
  rw [listed] at perm ordered
  have selected : cursor.all (fun bound => time last < bound) = true := by
    have member := perm.mem_iff.mp
      (List.mem_append_left tail (List.mem_append_right front (List.mem_singleton_self last)))
    exact (List.mem_filter.mp member).2
  have within : earlier time (some (time last)) rows =
      (earlier time cursor rows).filter fun row => time row < time last := by
    unfold earlier
    rw [List.filter_filter]
    apply List.filter_congr
    intro row _
    cases cursor with
    | none => simp
    | some bound =>
      have below : time last < bound := by simpa using selected
      by_cases before : time row < time last
      · simp [before, before.trans below]
      · simp [before]
  have none_of_page : (front ++ [last]).filter (fun row => time row < time last) = [] :=
    List.filter_eq_nil_iff.mpr fun row member => by
      simpa using page_above (ordered.imp (listing.latestFirst _ _)) row member
  rw [within]
  have kept := (perm.filter fun row => decide (time row < time last)).symm
  rwa [List.filter_append, none_of_page, List.nil_append] at kept

omit [LinearOrder τ] in
theorem exists_boundary {L : List α} (positive : 0 < limit) (more : limit < L.length) :
    ∃ front last next rest, L = front ++ [last] ++ next :: rest ∧ front.length + 1 = limit := by
  have some : L.take limit ≠ [] := by
    apply List.ne_nil_of_length_pos
    rw [List.length_take]
    omega
  have left : L.drop limit ≠ [] := by
    apply List.ne_nil_of_length_pos
    rw [List.length_drop]
    omega
  obtain ⟨next, rest, tail⟩ := List.exists_cons_of_ne_nil left
  refine ⟨(L.take limit).dropLast, (L.take limit).getLast some, next, rest, ?_, ?_⟩
  · rw [List.dropLast_append_getLast, ← tail, List.take_append_drop]
  · rw [List.length_dropLast, List.length_take]
    omega

/-- The walk from a cursor on: its rows and the lost ones are the rows before the cursor. -/
theorem exists_walk (positive : 0 < limit) (capped : limit ≤ cap) (n : Nat) (cursor : Option τ) :
    ∃ pages lost, Walk (listing.request cap limit rows) n cursor pages ∧
      (pages.flatten ++ lost).Perm (earlier time cursor rows) ∧
      pages.flatten.Pairwise precedes ∧
      (lost = [] ↔ Complete time cap limit (earlier time cursor rows)) := by
  induction bound : (earlier time cursor rows).length using Nat.strongRecOn
    generalizing n cursor with
  | ind size ih =>
    have perm := listing.perm n (earlier time cursor rows)
    have ordered := listing.ordered n (earlier time cursor rows)
    generalize listed : listing.arrange n (earlier time cursor rows) = L at perm ordered
    have request : listing.request cap limit rows n cursor =
        page time limit (L.take (min (limit + 1) cap)) := by
      rw [Listing.request, listed]
    have latest := ordered.imp (listing.latestFirst _ _)
    have keys := times_eq perm latest
    by_cases below : limit < cap
    · rw [Nat.min_eq_left below] at request
      by_cases more : limit < L.length
      · obtain ⟨front, last, next, rest, rfl, size⟩ := exists_boundary positive more
        have fetched : (front ++ [last] ++ next :: rest).take (limit + 1) =
            front ++ [last] ++ [next] := by
          have whole : (front ++ [last]).length = limit := by simpa using size
          rw [List.take_append, whole, List.take_of_length_le (by omega)]
          simp
        rw [fetched, page, if_pos (by simp; omega), List.dropLast_concat,
          List.getLast?_concat] at request
        have following := earlier_of_page listing listed
        have shorter : (earlier time (some (time last)) rows).length <
            (front ++ [last] ++ next :: rest).length := by
          have kept := List.length_filter_le (fun row => decide (time row < time last))
            (next :: rest)
          have same := following.length_eq
          simp only [List.length_append, List.length_cons] at kept same ⊢
          omega
        obtain ⟨pages, lost, walk, found, inOrder, complete⟩ :=
          ih _ (bound ▸ perm.length_eq ▸ shorter) (n + 1) (some (time last)) rfl
        have goesOn : (listing.request cap limit rows n cursor).next = some (time last) := by
          rw [request]
          rfl
        have walk' : Walk (listing.request cap limit rows) n cursor
            ((listing.request cap limit rows n cursor).rows :: pages) := .more goesOn walk
        rw [request] at walk'
        refine ⟨(front ++ [last]) :: pages,
          lost ++ (next :: rest).filter (fun row => !decide (time row < time last)), walk', ?_, ?_, ?_⟩
        · refine List.Perm.trans ?_ perm
          rw [List.flatten_cons, List.append_assoc]
          apply List.Perm.append_left
          rw [← List.append_assoc]
          refine ((found.trans following).append_right _).trans ?_
          exact List.filter_append_perm (fun row => decide (time row < time last)) (next :: rest)
        · rw [List.flatten_cons]
          refine List.pairwise_append.mpr ⟨(List.pairwise_append.mp ordered).1, inOrder, ?_⟩
          intro a early b late
          have before : time b < time last := by
            have member := following.mem_iff.mp (found.mem_iff.mp (List.mem_append_left lost late))
            simpa using (List.mem_filter.mp member).2
          exact listing.precedes_of_lt _ _ (before.trans_le (page_above latest a early))
        · rw [List.append_eq_nil_iff, complete, tied_eq_nil_iff latest]
          simp only [Complete, if_pos below, keys]
          have boundary : (∀ key ∈ ((front ++ [last] ++ next :: rest).map time)[limit - 1]?,
              ((front ++ [last] ++ next :: rest).map time)[limit]? ≠ some key) ↔
              time next < time last := by
            have behind := (List.pairwise_append.mp latest).2.2 last (by simp) next (by simp)
            subst size
            simp [lt_iff_le_and_ne, behind]
          have after : ((front ++ [last] ++ next :: rest).map time).drop limit =
              (next :: rest).map time := by
            subst size
            simp [List.drop_append]
          have split := noTieAtBoundary_iff ((front ++ [last] ++ next :: rest).map time) positive
          rw [split, boundary, after, and_comm]
          apply and_congr_right
          intro before
          have nothing := (tied_eq_nil_iff latest).mpr before
          have kept : (next :: rest).filter (fun row => time row < time last) = next :: rest := by
            refine List.filter_eq_self.mpr fun row member => ?_
            simpa using List.filter_eq_nil_iff.mp nothing row member
          rw [kept] at following
          rw [times_eq following.symm (List.pairwise_append.mp latest).2.1]
      · have all : L.take (limit + 1) = L := List.take_of_length_le (by omega)
        rw [all, page, if_neg more] at request
        refine ⟨[L], [], ?_, by simpa using perm, by simpa using ordered, ?_⟩
        · have last : Walk (listing.request cap limit rows) n cursor
              [(listing.request cap limit rows n cursor).rows] := .last (by rw [request])
          rwa [request] at last
        · simp only [Complete, if_pos below, keys, true_iff]
          intro j later key _
          have reaches : limit ≤ j * limit := Nat.le_mul_of_pos_left limit later
          rw [List.getElem?_eq_none (by rw [List.length_map]; omega)]
          exact (Option.some_ne_none key).symm
    · have whole : cap = limit := by omega
      subst whole
      rw [Nat.min_eq_right (Nat.le_succ cap), page,
        if_neg (by rw [List.length_take]; omega)] at request
      refine ⟨[L.take cap], L.drop cap, ?_, ?_, ?_, ?_⟩
      · have last : Walk (listing.request cap cap rows) n cursor
            [(listing.request cap cap rows n cursor).rows] := .last (by rw [request])
        rwa [request] at last
      · simpa using perm
      · simpa using ordered.sublist (List.take_sublist cap L)
      · simp only [Complete, if_neg below, List.drop_eq_nil_iff, perm.length_eq]

variable (rows) in
theorem walk_complete_iff (positive : 0 < limit) (capped : limit ≤ cap) :
    ∃ pages, Walk (listing.request cap limit rows) 0 none pages ∧
      pages.flatten.Pairwise precedes ∧
      (pages.flatten.Perm rows ↔ Complete time cap limit rows) := by
  obtain ⟨pages, lost, walk, perm, ordered, complete⟩ :=
    exists_walk listing positive capped 0 none
  have all : earlier time none rows = rows := List.filter_eq_self.mpr fun _ _ => rfl
  rw [all] at perm complete
  refine ⟨pages, walk, ordered, ?_⟩
  rw [← complete]
  constructor
  · intro whole
    have lengths := perm.length_eq
    rw [List.length_append, whole.length_eq] at lengths
    exact List.length_eq_zero_iff.mp (by omega)
  · rintro rfl
    simpa using perm

end AverQel.Foundation.Paging
