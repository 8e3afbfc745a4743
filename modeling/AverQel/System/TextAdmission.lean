/- digest: Writes that replace text: estimated bytes, measured characters, and their admission. -/
import AverQel.Providers.StreamParsing
import AverQel.System.StorageQuota

namespace AverQel.System

open Foundation
open Auth (Lower)
open Providers (Json Fields)

/-- How `json.dumps` separates items and whether it escapes what is not ASCII. -/
structure JsonFormat where
  ensureAscii : Bool
  (itemSeparator keySeparator : List Char)

/-- What `estimate_bytes` asks for. -/
def compactJson : JsonFormat := ⟨false, [','], [':']⟩

def storedJson : JsonFormat := ⟨true, [',', ' '], [':', ' ']⟩

def hexDigit (n : Nat) : Char := Char.ofNat (if n < 10 then 48 + n else 87 + n)

def escapeUnit (n : Nat) : List Char :=
  ['\\', 'u', hexDigit (n / 4096 % 16), hexDigit (n / 256 % 16), hexDigit (n / 16 % 16),
    hexDigit (n % 16)]

def escapeChar (format : JsonFormat) (c : Char) : List Char :=
  let n := c.toNat
  if n = 34 then ['\\', '\x22']
  else if n = 92 then ['\\', '\\']
  else if n = 10 then ['\\', 'n']
  else if n = 13 then ['\\', 'r']
  else if n = 9 then ['\\', 't']
  else if n = 12 then ['\\', 'f']
  else if n = 8 then ['\\', 'b']
  else if n < 32 then escapeUnit n
  else if format.ensureAscii ∧ 126 < n then
    if n < 65536 then escapeUnit n
    else escapeUnit (55296 + (n - 65536) / 1024) ++ escapeUnit (56320 + (n - 65536) % 1024)
  else [c]

def quote (format : JsonFormat) (text : List Char) : List Char :=
  '\x22' :: (text.flatMap (escapeChar format) ++ ['\x22'])

mutual

/-- `json.dumps` -/
def dumps (format : JsonFormat) : Json → List Char
  | .null => ['n', 'u', 'l', 'l']
  | .bool true => ['t', 'r', 'u', 'e']
  | .bool false => ['f', 'a', 'l', 's', 'e']
  | .number literal => literal.toList
  | .string text => quote format text
  | .array items => '[' :: (dumpItems format items ++ [']'])
  | .object fields => '\x7b' :: (dumpFields format fields ++ ['\x7d'])

def dumpItems (format : JsonFormat) : List Json → List Char
  | [] => []
  | [item] => dumps format item
  | item :: next :: rest =>
    dumps format item ++ format.itemSeparator ++ dumpItems format (next :: rest)

def dumpFields (format : JsonFormat) : List (String × Json) → List Char
  | [] => []
  | [(name, value)] => quote format name.toList ++ format.keySeparator ++ dumps format value
  | (name, value) :: next :: rest =>
    quote format name.toList ++ format.keySeparator ++ dumps format value ++
      format.itemSeparator ++ dumpFields format (next :: rest)

end

inductive Stored where
  | missing
  | text (content : String)
  | json (value : Json)

def Stored.column : Stored → List Char
  | .missing => []
  | .text content => content.toList
  | .json value => dumps storedJson value

/-- `coalesce(length(column), 0)`: characters. -/
def Stored.length (value : Stored) : Nat := value.column.length

/-- The part of one value in `estimate_bytes`: bytes in UTF-8. -/
def Stored.estimate : Stored → Nat
  | .missing => 0
  | .text content => content.utf8ByteSize
  | .json value => (String.ofList (dumps compactJson value)).utf8ByteSize

def estimateBytes (values : List Stored) : Nat := total Stored.estimate values

/-- What `_text_metric` counts for one row. -/
def measure (columns : List Stored) : Nat := total Stored.length columns

def jsonStrings (texts : List String) : Json := .array (texts.map fun text => .string text.toList)

/-- The text columns of a queued turn. -/
structure TurnText where
  prompt : String
  (rolesJson permissionsJson attachmentFileIdsJson : List String)
  error : Option String

def optional (text : Option String) : Stored := text.elim .missing .text

def TurnText.estimated (turn : TurnText) : List Stored :=
  [.text turn.prompt, .json (jsonStrings turn.rolesJson), .json (jsonStrings turn.permissionsJson),
    .json (jsonStrings turn.attachmentFileIdsJson)]

def TurnText.metered (turn : TurnText) : List Stored :=
  [.text turn.prompt, optional turn.error, .json (jsonStrings turn.rolesJson),
    .json (jsonStrings turn.permissionsJson)]

structure RunText where
  checkpoint : Fields
  lastError : Option String

def RunText.columns (run : RunText) : List Stored :=
  [.json (.object run.checkpoint), optional run.lastError]

/-- The text columns of a task. -/
structure TaskText where
  (id content activeForm : String)
  metadata : Fields

def TaskText.estimated (task : TaskText) : List Stored :=
  [.text task.content, .text task.activeForm]

def TaskText.metered (task : TaskText) : List Stored :=
  [.text task.content, .text task.activeForm, .json (.object task.metadata)]

def maxTasks : Nat := 40
def maxTaskText : Nat := 1000

/-- One task of a plan, with its texts as the model gave them; a missing text is empty. -/
structure PlannedTask where
  (id content activeForm : String)
  dependencies : List String
  (successCriteria verification : Option String)
  evidence : Option (List String)

namespace PlannedTask

def bounded (text : String) : String := Text.truncate maxTaskText (Text.strip text)

def requestedId (raw : PlannedTask) : String := Text.truncate 120 raw.id

/-- The values that `replace_tasks` estimates for the task. -/
def estimated (raw : PlannedTask) : List Stored :=
  [.text (bounded raw.content),
    .text (bounded (if raw.activeForm = "" then raw.content else raw.activeForm))]

def storedActiveForm (raw : PlannedTask) : String :=
  bounded (if raw.activeForm = "" then bounded raw.content else raw.activeForm)

end PlannedTask

/-- `metadata[name] = value` -/
def setField (name : String) (value : Json) : Fields → Fields
  | [] => [(name, value)]
  | (other, old) :: rest =>
    if other = name then (name, value) :: rest else (other, old) :: setField name value rest

theorem lookup_cons_if (other key : String) (value : Json) (rest : Fields) :
    List.lookup other ((key, value) :: rest) =
      if other = key then some value else List.lookup other rest := by
  by_cases same : other = key
  · simp [same]
  · have apart : (other == key) = false := by simpa using same
    rw [List.lookup_cons, apart, if_neg same]

theorem lookup_setField (name other : String) (value : Json) (metadata : Fields) :
    (setField name value metadata).lookup other =
      if other = name then some value else metadata.lookup other := by
  induction metadata with
  | nil => exact lookup_cons_if other name value []
  | cons field rest ih =>
    obtain ⟨key, old⟩ := field
    by_cases here : key = name
    · subst here
      rw [setField, if_pos rfl, lookup_cons_if, lookup_cons_if]
      split_ifs <;> rfl
    · rw [setField, if_neg here, lookup_cons_if, lookup_cons_if, ih]
      by_cases same : other = key
      · have apart : other ≠ name := fun same' => here (same.symm.trans same')
        rw [if_pos same, if_neg apart, if_pos same]
      · rw [if_neg same, if_neg same]

/-- `requested_id_map`: the row of a requested id, or the UUID made for it. -/
def requestedIdMap (existing : List TaskText) (newIds : Nat → String) (plan : List PlannedTask)
    (requested : String) : Option String :=
  (plan.zipIdx.find? fun entry => entry.1.requestedId = requested ∧ requested ≠ "").map
    fun entry =>
      if existing.any (fun task => task.id = requested) then requested else newIds entry.2

/-- The metadata that a planned task leaves on its row. -/
def plannedMetadata (resolve : String → Option String) (raw : PlannedTask) (metadata : Fields) :
    Fields :=
  let kept := (raw.dependencies.filter fun item => Text.strip item ≠ "").map fun item =>
    (resolve item).getD item
  let withDependencies :=
    setField "dependencies" (jsonStrings (kept.take maxTasks)) metadata
  let withCriteria := raw.successCriteria.elim withDependencies fun text =>
    setField "success_criteria" (.string (PlannedTask.bounded text).toList) withDependencies
  let withVerification := raw.verification.elim withCriteria fun text =>
    setField "verification" (.string (PlannedTask.bounded text).toList) withCriteria
  raw.evidence.elim withVerification fun items =>
    setField "evidence" (jsonStrings ((items.take 10).map (Text.truncate 1000))) withVerification

/-- The row of an existing task after the plan, or the task as it is. -/
def plannedRow (resolve : String → Option String) (plan : List PlannedTask) (task : TaskText) :
    TaskText :=
  match plan.find? fun raw => raw.requestedId = task.id ∧ task.id ≠ "" with
  | none => task
  | some raw =>
    { task with
      content := PlannedTask.bounded raw.content
      activeForm := raw.storedActiveForm
      metadata := plannedMetadata resolve raw task.metadata }

/-- The rows that the plan adds. -/
def addedRows (existing : List TaskText) (newIds : Nat → String) (plan : List PlannedTask)
    (resolve : String → Option String) : List TaskText :=
  (plan.zipIdx.filter fun entry =>
      !existing.any fun task => task.id = entry.1.requestedId ∧ task.id ≠ "").map fun entry =>
    { id := newIds entry.2
      content := PlannedTask.bounded entry.1.content
      activeForm := entry.1.storedActiveForm
      metadata := plannedMetadata resolve entry.1 [] }

/-- The rows of a thread after `replace_tasks`, from its validated plan: a task that the plan leaves
out is marked deleted and keeps its text. `none` when the plan has an empty or a repeated task. -/
def replaceTasks (existing : List TaskText) (newIds : Nat → String) (plan : List PlannedTask) :
    Option (List TaskText) :=
  let requested := (plan.map PlannedTask.requestedId).filter fun id => id ≠ ""
  if plan.length ≤ maxTasks ∧ requested.Nodup ∧
      ∀ raw ∈ plan, PlannedTask.bounded raw.content ≠ "" then
    let resolve := requestedIdMap existing newIds plan
    some (existing.map (plannedRow resolve plan) ++ addedRows existing newIds plan resolve)
  else none

/-- The writes that replace metered text. -/
inductive TextWrite where
  /-- `update_queued_prompt` -/
  | queuedPrompt (turn : TurnText) (prompt : String)
  /-- `update_checkpoint`; a missing argument keeps its column. -/
  | checkpoint (run : RunText) (checkpoint : Option Fields) (lastError : Option String)
  /-- `replace_tasks` on the tasks of a thread. -/
  | tasks (existing : List TaskText) (newIds : Nat → String) (plan : List PlannedTask)

namespace TextWrite

/-- The `replacing_bytes` of the write. -/
def replacing : TextWrite → Nat
  | queuedPrompt turn _ => estimateBytes turn.estimated
  | checkpoint run _ _ => estimateBytes run.columns
  | tasks existing _ _ => total (fun task => estimateBytes task.estimated) existing

/-- The `additional_bytes` of the write. -/
def additional : TextWrite → Nat
  | queuedPrompt turn prompt =>
    estimateBytes { turn with prompt := Text.truncate 4000 prompt }.estimated
  | checkpoint run fields lastError =>
    estimateBytes { run with
      checkpoint := fields.getD run.checkpoint
      lastError := lastError.or run.lastError }.columns
  | tasks _ _ plan => total (fun raw => estimateBytes raw.estimated) plan

/-- What `usage` measures of the rows before the write. -/
def meteredBefore : TextWrite → Nat
  | queuedPrompt turn _ => measure turn.metered
  | checkpoint run _ _ => measure run.columns
  | tasks existing _ _ => total (fun task => measure task.metered) existing

/-- What `usage` measures of the rows after the write. -/
def meteredAfter : TextWrite → Nat
  | queuedPrompt turn prompt => measure { turn with prompt := Text.truncate 4000 prompt }.metered
  | checkpoint run fields lastError =>
    measure { run with
      checkpoint := fields.getD run.checkpoint
      lastError := (lastError.map (Text.truncate 2000)).or run.lastError }.columns
  | tasks existing newIds plan =>
    total (fun task => measure task.metered) ((replaceTasks existing newIds plan).getD existing)

variable (lower : Lower) (write : TextWrite)

def owner (userId : Uuid) (stored : Finset String) : QuotaRoles := ⟨∅, some userId, stored⟩

/-- Wherever the usage is within the allocation and the write is admitted, the usage after the
write is within the allocation. `elsewhere` is what the other rows of the tenant measure. -/
def Sound : Prop :=
  ∀ (allocation : Option StorageAllocation) (userId : Uuid) (stored : Finset String)
    (elsewhere : Nat) (now : Time),
    let plan := (owner userId stored).plan lower
    elsewhere + write.meteredBefore ≤ (ensureAllocation allocation plan).allocatedBytes →
      (∃ admission, ensureCapacity allocation (elsewhere + write.meteredBefore) plan
        (some userId) write.additional write.replacing now = .ok admission) →
        elsewhere + write.meteredAfter ≤ (ensureAllocation allocation plan).allocatedBytes

end TextWrite

/-- A replacing write is admitted soundly exactly when its measured characters do not grow, or grow
by no more than its estimated bytes. -/
theorem text_write_sound_iff (lower : Lower) (write : TextWrite) :
    write.Sound lower ↔
      write.meteredAfter ≤ write.meteredBefore ∨
        write.meteredAfter + write.replacing ≤ write.additional + write.meteredBefore := by
  constructor
  · intro sound
    by_contra grows
    have larger : write.meteredBefore < write.meteredAfter := by omega
    have faster : write.additional + write.meteredBefore <
        write.meteredAfter + write.replacing := by omega
    -- the rest of the tenant measures what the write claims to replace, and the plan is just full
    let allocated := max (write.replacing + write.meteredBefore)
      (write.additional + write.meteredBefore)
    let row : StorageAllocation := ⟨"admin", allocated, 0, none⟩
    let who : QuotaRoles := TextWrite.owner 0 ∅
    have kept : ensureAllocation (some row) (who.plan lower) = row := rfl
    have within : write.replacing + write.meteredBefore ≤ allocated := Nat.le_max_left _ _
    have room : write.replacing + write.meteredBefore - (write.replacing : Int).toNat +
        (write.additional : Int).toNat ≤
        (ensureAllocation (some row) (who.plan lower)).allocatedBytes := by
      have fits : write.additional + write.meteredBefore ≤ allocated := Nat.le_max_right _ _
      rw [kept, Int.toNat_natCast, Int.toNat_natCast]
      show _ ≤ allocated
      omega
    have admitted : ∃ admission, ensureCapacity (some row)
        (write.replacing + write.meteredBefore) (who.plan lower) who.userId write.additional
        write.replacing 0 = .ok admission := ensureCapacity_ok_iff.mpr room
    have after := sound (some row) 0 ∅ write.replacing 0 within admitted
    have full : write.replacing + write.meteredAfter ≤ allocated := after
    have bound : allocated < write.replacing + write.meteredAfter := by
      refine max_lt ?_ ?_
      · omega
      · omega
    omega
  · intro grows allocation userId stored elsewhere now plan within admitted
    have room := ensureCapacity_ok_iff.mp admitted
    rw [Int.toNat_natCast, Int.toNat_natCast] at room
    rcases grows with shrinks | slower
    · omega
    · omega

def plainPrompt : TextWrite := .queuedPrompt ⟨"é", [], [], [], none⟩ "ab"

/-- On a full free plan the replacement is admitted and measures one character too much. -/
theorem plain_text_replaces_accented :
    ¬ ∀ (lower : Lower) (write : TextWrite), write.Sound lower := by
  intro always
  have sound := always id plainPrompt
  have within : 500 * bytesPerMb - plainPrompt.meteredBefore + plainPrompt.meteredBefore ≤
      (ensureAllocation none (QuotaRoles.plan id (TextWrite.owner 0 ∅))).allocatedBytes := by
    decide +kernel
  have admitted : ∃ admission,
      ensureCapacity none (500 * bytesPerMb - plainPrompt.meteredBefore + plainPrompt.meteredBefore)
        (QuotaRoles.plan id (TextWrite.owner 0 ∅)) (some 0) plainPrompt.additional
        plainPrompt.replacing 0 = .ok admission := by
    refine ensureCapacity_ok_iff.mpr ?_
    decide +kernel
  have after := sound none 0 ∅ _ 0 within admitted
  have exceeded : ¬ 500 * bytesPerMb - plainPrompt.meteredBefore + plainPrompt.meteredAfter ≤
      (ensureAllocation none (QuotaRoles.plan id (TextWrite.owner 0 ∅))).allocatedBytes := by
    decide +kernel
  exact exceeded after

end AverQel.System
