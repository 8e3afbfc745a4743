/- digest: The pages of a CSV file: what the three exits of the endpoint give, and when they agree. -/
import AverQel.Foundation.Slices
import AverQel.Library.ImmutableVersions

namespace AverQel.Library

open Foundation Slices AverQel.System

abbrev CsvRow := List String

/-- `WorkspaceCsvPageSchema` -/
structure CsvPage where
  columns : CsvRow
  rows : List CsvRow
  (offset limit : Nat)
  hasMore : Bool

/-- What the endpoint reads through other code. -/
structure CsvEnvironment (Bytes Profile : Type) where
  /-- The `dataset_profile` of the metadata, when it is an object. -/
  datasetProfile : WorkspaceFile → Option Profile
  status : Profile → String
  /-- `DatasetDerivativeService.query` with a limit and an offset: columns, rows and `has_more`. -/
  query : Profile → Nat → Nat → CsvRow × List (List (Option String)) × Bool
  /-- The rows of `csv.reader` for a delimiter. -/
  reader : Char → Bytes → List CsvRow

def skipRows : Nat → List CsvRow → Option (List CsvRow)
  | 0, rest => some rest
  | _ + 1, [] => none
  | offset + 1, _ :: rest => skipRows offset rest

def readRows : Nat → List CsvRow → List CsvRow × Option (List CsvRow)
  | 0, rest => ([], some rest)
  | _ + 1, [] => ([], none)
  | limit + 1, row :: rest => ((row.take 50) :: (readRows limit rest).1, (readRows limit rest).2)

def pageOf (table : List CsvRow) (offset limit : Nat) : CsvPage :=
  let columns := table.headD []
  match skipRows offset table.tail with
  | none => ⟨columns, [], offset, limit, false⟩
  | some rest =>
    match readRows limit rest with
    | (rows, none) => ⟨columns, rows, offset, limit, false⟩
    | (rows, some left) => ⟨columns.take 50, rows, offset, limit, left.head?.isSome⟩

namespace LibraryState

variable {Bytes Profile : Type} (csv : CsvEnvironment Bytes Profile)
  (env : LibraryEnvironment Bytes) (lib : LibraryState Bytes) (request : LibraryRequest)

def readWorkspaceCsvPage (fileId : Uuid) (offset limit : Nat) : Except ApiError CsvPage := do
  lib.requireConversation request
  let file ← lib.ownedFile request fileId
  ensure (file.contentType ∈ ["text/csv", "text/x-csv", "text/tab-separated-values"])
    ⟨"INVALID_REQUEST", "The selected file is not a CSV table.", 422⟩
  match (csv.datasetProfile file).filter fun profile => csv.status profile = "ready" with
  | some profile =>
    let (columns, rows, hasMore) := csv.query profile limit offset
    return ⟨columns, rows.map fun row => row.map fun value => value.getD "", offset, limit, hasMore⟩
  | none =>
    let delimiter := if file.contentType = "text/tab-separated-values" then '\t' else ','
    let payload ← lib.libraryFilePayload env file
    return pageOf (csv.reader delimiter payload) offset limit

end LibraryState

theorem skipRows_eq (offset : Nat) (data : List CsvRow) :
    skipRows offset data = if offset ≤ data.length then some (data.drop offset) else none := by
  induction offset generalizing data with
  | zero => simp [skipRows]
  | succ offset ih =>
    cases data with
    | nil => simp [skipRows]
    | cons => simp [skipRows, ih]

theorem readRows_eq (limit : Nat) (data : List CsvRow) :
    readRows limit data = ((data.take limit).map (List.take 50),
      if limit ≤ data.length then some (data.drop limit) else none) := by
  induction limit generalizing data with
  | zero => simp [readRows]
  | succ limit ih =>
    cases data with
    | nil => simp [readRows]
    | cons => simp [readRows, ih]

variable (table : List CsvRow) (limit k : Nat)

theorem pageOf_eq : pageOf table (k * limit) limit =
    { columns := if (k + 1) * limit ≤ table.tail.length then (table.headD []).take 50
        else table.headD []
      rows := (slice limit k table.tail).map (List.take 50)
      offset := k * limit
      limit := limit
      hasMore := decide ((k + 1) * limit < table.tail.length) } := by
  have next : (k + 1) * limit = k * limit + limit := Nat.succ_mul k limit
  unfold pageOf slice
  rw [skipRows_eq]
  by_cases inside : k * limit ≤ table.tail.length
  · rw [if_pos inside]
    dsimp only
    rw [readRows_eq, List.length_drop]
    by_cases full : limit ≤ table.tail.length - k * limit
    · have fits : (k + 1) * limit ≤ table.tail.length := by omega
      simp only [if_pos full, if_pos fits, List.drop_drop, List.head?_drop]
      congr 1
      rw [Bool.eq_iff_iff, decide_eq_true_iff, next]
      simp
      omega
    · have short : ¬ (k + 1) * limit ≤ table.tail.length := by omega
      simp only [if_neg full, if_neg short]
      congr 1
      exact (decide_eq_false fun more => short (Nat.le_of_lt more)).symm
  · have short : ¬ (k + 1) * limit ≤ table.tail.length := by omega
    rw [if_neg inside, if_neg short, List.drop_eq_nil_of_le (by omega)]
    dsimp only
    congr 1
    · rw [List.take_nil, List.map_nil]
    · exact (decide_eq_false fun more => short (Nat.le_of_lt more)).symm

/-- The first `count` pages hold the rows in order, tell whether more follow, and agree on the
columns. -/
structure Paged (table : List CsvRow) (limit count : Nat) (pages : Nat → CsvPage) : Prop where
  rows : (List.range count).flatMap (fun k => (pages k).rows) =
    (table.tail.take (count * limit)).map (List.take 50)
  hasMore : ∀ k < count, (pages k).hasMore = true ↔ (k + 1) * limit < table.tail.length
  columns : ∀ k < count, (pages k).columns = (pages 0).columns

theorem paged_pageOf_iff (count : Nat) :
    Paged table limit count (fun k => pageOf table (k * limit) limit) ↔
      (table.headD []).length ≤ 50 ∨ table.tail.length < limit ∨
        count * limit ≤ table.tail.length := by
  have rows : (List.range count).flatMap (fun k => (pageOf table (k * limit) limit).rows) =
      (table.tail.take (count * limit)).map (List.take 50) := by
    simp only [pageOf_eq]
    rw [← flatMap_slice_range, List.map_flatMap]
  have hasMore : ∀ k < count, (pageOf table (k * limit) limit).hasMore = true ↔
      (k + 1) * limit < table.tail.length := by
    intro k _
    rw [pageOf_eq]
    exact decide_eq_true_iff
  constructor
  · intro paged
    by_contra neither
    push Not at neither
    obtain ⟨wide, full, past⟩ := neither
    have counted : 0 < count := by
      rcases Nat.eq_zero_or_pos count with rfl | positive
      · rw [Nat.zero_mul] at past
        omega
      · exact positive
    -- The last page is short and the first one is full.
    have last := paged.columns (count - 1) (by omega)
    simp only [pageOf_eq, Nat.sub_add_cancel counted, Nat.zero_add, Nat.one_mul] at last
    rw [if_neg (by omega), if_pos full] at last
    have lengths := congrArg List.length last
    rw [List.length_take] at lengths
    omega
  · intro narrow
    refine ⟨rows, hasMore, fun k before => ?_⟩
    simp only [pageOf_eq, Nat.zero_add, Nat.one_mul]
    rcases narrow with few | short | whole
    · rw [List.take_of_length_le few, ite_self, ite_self]
    · have later : limit ≤ (k + 1) * limit := Nat.le_mul_of_pos_left limit (Nat.succ_pos k)
      rw [if_neg (by omega), if_neg (by omega)]
    · have here : (k + 1) * limit ≤ count * limit := Nat.mul_le_mul_right limit before
      have first : limit ≤ (k + 1) * limit := Nat.le_mul_of_pos_left limit (Nat.succ_pos k)
      rw [if_pos (by omega), if_pos (by omega)]

variable {Bytes Profile : Type} {csv : CsvEnvironment Bytes Profile}
  {env : LibraryEnvironment Bytes} {lib : LibraryState Bytes} {request : LibraryRequest}

/-- The endpoint reads the rows of the file itself: there is no ready derivative. -/
structure ReadsTable (csv : CsvEnvironment Bytes Profile) (env : LibraryEnvironment Bytes)
    (lib : LibraryState Bytes) (request : LibraryRequest) (fileId : Uuid) (file : WorkspaceFile)
    (payload : Bytes) : Prop where
  conversation : lib.requireConversation request = .ok ()
  owned : lib.ownedFile request fileId = .ok file
  kind : file.contentType ∈ ["text/csv", "text/x-csv", "text/tab-separated-values"]
  unready : ∀ profile ∈ csv.datasetProfile file, csv.status profile ≠ "ready"
  read : lib.libraryFilePayload env file = .ok payload

def tableOf (csv : CsvEnvironment Bytes Profile) (file : WorkspaceFile) (payload : Bytes) :
    List CsvRow :=
  csv.reader (if file.contentType = "text/tab-separated-values" then '\t' else ',') payload

variable {fileId : Uuid} {file : WorkspaceFile} {payload : Bytes}

theorem readWorkspaceCsvPage_of_readsTable (reads : ReadsTable csv env lib request fileId file payload)
    (offset limit : Nat) : lib.readWorkspaceCsvPage csv env request fileId offset limit =
      .ok (pageOf (tableOf csv file payload) offset limit) := by
  have unready : (csv.datasetProfile file).filter (fun profile => csv.status profile = "ready") =
      none := by
    rw [Option.filter_eq_none_iff]
    intro profile found
    simpa using reads.unready profile found
  unfold LibraryState.readWorkspaceCsvPage
  rw [reads.conversation, reads.owned]
  dsimp only [bind, Except.bind]
  rw [ensure, if_pos reads.kind, unready]
  dsimp only
  rw [reads.read]
  rfl

/-- The endpoint answers the first `count` pages, and they fit together. -/
def PagesAgree (csv : CsvEnvironment Bytes Profile) (env : LibraryEnvironment Bytes)
    (lib : LibraryState Bytes) (request : LibraryRequest) (fileId : Uuid) (table : List CsvRow)
    (limit count : Nat) : Prop :=
  ∃ pages : Nat → CsvPage,
    (∀ k, lib.readWorkspaceCsvPage csv env request fileId (k * limit) limit = .ok (pages k)) ∧
      Paged table limit count pages

theorem pagesAgree_iff_paged (reads : ReadsTable csv env lib request fileId file payload)
    (limit count : Nat) :
    PagesAgree csv env lib request fileId (tableOf csv file payload) limit count ↔
      Paged (tableOf csv file payload) limit count
        (fun k => pageOf (tableOf csv file payload) (k * limit) limit) := by
  have answers := fun k => readWorkspaceCsvPage_of_readsTable reads (k * limit) limit
  constructor
  · rintro ⟨pages, answered, paged⟩
    have same : pages = fun k => pageOf (tableOf csv file payload) (k * limit) limit :=
      funext fun k => Except.ok.inj ((answered k).symm.trans (answers k))
    exact same ▸ paged
  · intro paged
    exact ⟨_, answers, paged⟩

/-- The pages of a wide table agree while none of them is short, or all are. -/
theorem readWorkspaceCsvPage_agree_iff
    (reads : ReadsTable csv env lib request fileId file payload) (limit count : Nat) :
    PagesAgree csv env lib request fileId (tableOf csv file payload) limit count ↔
      ((tableOf csv file payload).headD []).length ≤ 50 ∨
        (tableOf csv file payload).tail.length < limit ∨
          count * limit ≤ (tableOf csv file payload).tail.length :=
  (pagesAgree_iff_paged reads limit count).trans (paged_pageOf_iff _ limit count)

def plainCsv : CsvEnvironment String Unit where
  datasetProfile _ := none
  status _ := ""
  query _ _ _ := ([], [], false)
  reader delimiter payload :=
    (payload.toList.splitOn '\n').map fun line => (line.splitOn delimiter).map String.ofList

def wideTable : WorkspaceFile :=
  ⟨3, 1, 1, 1, none, "wide", "text/csv", String.ofList (List.replicate 50 ',' ++ ['\n', 'x']),
    "manual", 52, none, none, 1, false⟩

def wideLibrary : LibraryState String :=
  ⟨[⟨1, 1, 1, "deepspace"⟩], [], .single wideTable, .empty, fun _ => none⟩

theorem readsTable_wide : ReadsTable plainCsv History.textEnvironment wideLibrary History.owner 3
    wideTable wideTable.content :=
  ⟨rfl, rfl, by decide, fun _ found => absurd found (by simp [plainCsv]), rfl⟩

theorem wide_table_columns : ¬ PagesAgree plainCsv History.textEnvironment wideLibrary
    History.owner 3 (tableOf plainCsv wideTable wideTable.content) 1 2 := by
  rw [pagesAgree_iff_paged readsTable_wide, paged_pageOf_iff]
  decide

theorem readWorkspaceCsvPage_agree_first : PagesAgree plainCsv History.textEnvironment wideLibrary
    History.owner 3 (tableOf plainCsv wideTable wideTable.content) 1 1 :=
  (readWorkspaceCsvPage_agree_iff readsTable_wide 1 1).mpr (by decide)

end AverQel.Library
