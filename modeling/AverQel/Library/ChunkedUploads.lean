/- digest: Parallel chunk PUTs of one file: what they record, and the payload that is joined. -/
import AverQel.Library.UploadSessions

namespace AverQel.Library

open Foundation Transition

def UploadCall.SendsSlice (file : List UInt8) : UploadCall → Prop
  | chunk request => ∀ i < Slices.count libraryUploadChunkSize file.length,
      request.index = (i : Int) → request.body = Slices.slice libraryUploadChunkSize i file
  | complete => True
  | cancel | finalize => False

/-- A row of a session for the file whose chunks are among the known ones and add up. -/
structure LibraryUpload.Tallies (upload : LibraryUpload) (file : List UInt8) (known : List Nat) :
    Prop where
  chunkSize : upload.chunkSize = libraryUploadChunkSize
  expectedSize : upload.expectedSize = file.length
  totalChunks : upload.totalChunks = Slices.count libraryUploadChunkSize file.length
  sorted : upload.receivedChunks.Pairwise (· < ·)
  known : ∀ i ∈ upload.receivedChunks, i ∈ known
  bytes : upload.bytesReceived = total upload.expectedLength upload.receivedChunks

namespace LibraryUpload

variable {upload copy : LibraryUpload} {file : List UInt8} {known : List Nat} {index : Nat}

theorem libraryUploadChunkSize_pos : 0 < libraryUploadChunkSize := by decide

theorem admitChunk_ok {request : ChunkRequest} (ok : upload.admitChunk request = .ok index) :
    request.index = (index : Int) ∧ index < upload.totalChunks := by
  rw [admitChunk] at ok
  split at ok
  · cases ok
  split at ok
  · cases ok
  rename_i inside
  have found : request.index.toNat = index := by
    split at ok
    · cases ok
    · split at ok
      · cases ok
      · exact Except.ok.inj ok
    · exact Except.ok.inj ok
  omega

theorem mem_recorded {i : Nat} :
    i ∈ (copy.recorded index).receivedChunks ↔ i = index ∨ i ∈ copy.receivedChunks := by
  show i ∈ ((index :: copy.receivedChunks).dedup).insertionSort (· ≤ ·) ↔ _
  rw [List.mem_insertionSort, List.mem_dedup, List.mem_cons]

theorem sorted_recorded : (copy.recorded index).receivedChunks.Pairwise (· < ·) := by
  have perm := List.perm_insertionSort (· ≤ ·) (index :: copy.receivedChunks).dedup
  have distinct := perm.nodup_iff.mpr (List.nodup_dedup _)
  have ordered := List.pairwise_insertionSort (· ≤ ·) (index :: copy.receivedChunks).dedup
  exact (ordered.and distinct).imp fun both => Nat.lt_of_le_of_ne both.1 both.2

theorem recorded_of_mem (tallies : copy.Tallies file known) (again : index ∈ copy.receivedChunks) :
    (copy.recorded index).receivedChunks = copy.receivedChunks := by
  refine List.Perm.eq_of_pairwise' sorted_recorded tallies.sorted ?_
  refine (List.perm_ext_iff_of_nodup (sorted_recorded.imp Nat.ne_of_lt)
    (tallies.sorted.imp Nat.ne_of_lt)).mpr fun i => ?_
  rw [mem_recorded]
  exact ⟨fun found => found.elim (fun same => same ▸ again) id, .inr⟩

theorem bytes_recorded (tallies : copy.Tallies file known) (new : index ∉ copy.receivedChunks) :
    (copy.recorded index).bytesReceived = copy.expectedLength index + copy.bytesReceived := by
  have distinct : (index :: copy.receivedChunks).Nodup :=
    List.nodup_cons.mpr ⟨new, tallies.sorted.imp Nat.ne_of_lt⟩
  have perm := List.perm_insertionSort (· ≤ ·) (index :: copy.receivedChunks).dedup
  rw [distinct.dedup] at perm
  have sums := total_perm copy.expectedLength perm
  rw [total_cons, ← tallies.bytes] at sums
  rw [← sums, ← distinct.dedup]
  rfl

theorem tallies_mono {more : List Nat} (tallies : copy.Tallies file known)
    (grown : ∀ i ∈ known, i ∈ more) : copy.Tallies file more :=
  { tallies with known := fun i member => grown i (tallies.known i member) }

theorem tallies_recorded (tallies : copy.Tallies file known) :
    (copy.recorded index).Tallies file (index :: known) where
  chunkSize := tallies.chunkSize
  expectedSize := tallies.expectedSize
  totalChunks := tallies.totalChunks
  sorted := sorted_recorded
  known i member := by
    rcases mem_recorded.mp member with rfl | old
    · exact List.mem_cons_self
    · exact List.mem_cons_of_mem index (tallies.known i old)
  bytes := rfl

theorem flush_recorded (tallies : copy.Tallies file known)
    (inside : index < Slices.count libraryUploadChunkSize file.length) (row : LibraryUpload) :
    (index ∈ copy.receivedChunks ∧
        (flush copy (copy.recorded index) row).receivedChunks = row.receivedChunks ∧
        (flush copy (copy.recorded index) row).bytesReceived = row.bytesReceived) ∨
      (index ∉ copy.receivedChunks ∧
        (flush copy (copy.recorded index) row).receivedChunks =
          (copy.recorded index).receivedChunks ∧
        (flush copy (copy.recorded index) row).bytesReceived =
          (copy.recorded index).bytesReceived) := by
  by_cases again : index ∈ copy.receivedChunks
  · have same := recorded_of_mem tallies again
    have sums : (copy.recorded index).bytesReceived = copy.bytesReceived := by
      rw [tallies.bytes, ← same]
      rfl
    exact .inl ⟨again, if_pos same, if_pos sums⟩
  · have grows := bytes_recorded tallies again
    have positive := Slices.size_pos libraryUploadChunkSize_pos inside
    have size : copy.expectedLength index = Slices.size libraryUploadChunkSize file.length index := by
      rw [expectedLength, tallies.chunkSize, tallies.expectedSize]
    refine .inr ⟨again, if_neg fun same => ?_, if_neg fun same => ?_⟩
    · have member : index ∈ (copy.recorded index).receivedChunks := mem_recorded.mpr (.inl rfl)
      rw [same] at member
      exact again member
    · omega

theorem tallies_flush {read written row : LibraryUpload} (tallies : row.Tallies file known)
    (received : written.receivedChunks = read.receivedChunks)
    (bytes : written.bytesReceived = read.bytesReceived) :
    (flush read written row).Tallies file known where
  chunkSize := tallies.chunkSize
  expectedSize := tallies.expectedSize
  totalChunks := tallies.totalChunks
  sorted := by
    rw [show (flush read written row).receivedChunks = row.receivedChunks from if_pos received]
    exact tallies.sorted
  known := by
    rw [show (flush read written row).receivedChunks = row.receivedChunks from if_pos received]
    exact tallies.known
  bytes := by
    rw [show (flush read written row).receivedChunks = row.receivedChunks from if_pos received,
      show (flush read written row).bytesReceived = row.bytesReceived from if_pos bytes]
    exact tallies.bytes

theorem tallies_flush_recorded {row : LibraryUpload} (tallies : copy.Tallies file known)
    (inside : index < Slices.count libraryUploadChunkSize file.length)
    (current : row.Tallies file known) :
    (flush copy (copy.recorded index) row).Tallies file (index :: known) := by
  have written : (copy.recorded index).Tallies file (index :: known) := tallies_recorded tallies
  have sizes : (flush copy (copy.recorded index) row).expectedLength =
      (copy.recorded index).expectedLength := by
    funext i
    show Slices.size row.chunkSize row.expectedSize i = Slices.size copy.chunkSize copy.expectedSize i
    rw [current.chunkSize, current.expectedSize, tallies.chunkSize, tallies.expectedSize]
  rcases flush_recorded tallies inside row with ⟨_, received, bytes⟩ | ⟨_, received, bytes⟩
  · have older := tallies_mono current fun i member => List.mem_cons_of_mem index member
    refine ⟨current.chunkSize, current.expectedSize, current.totalChunks, ?_, ?_, ?_⟩
    · rw [received]
      exact older.sorted
    · rw [received]
      exact older.known
    · rw [received, bytes]
      exact older.bytes
  · refine ⟨current.chunkSize, current.expectedSize, current.totalChunks, ?_, ?_, ?_⟩
    · rw [received]
      exact written.sorted
    · rw [received]
      exact written.known
    · rw [received, bytes, sizes]
      exact written.bytes

theorem admitComplete_iff (tallies : upload.Tallies file known)
    (below : ∀ i ∈ known, i < Slices.count libraryUploadChunkSize file.length)
    (completed : upload.status ≠ .completed) (cancelled : upload.status ≠ .cancelled) :
    upload.admitComplete = .ok () ↔ ∀ i < upload.totalChunks, i ∈ upload.receivedChunks := by
  have distinct : upload.receivedChunks.Nodup := tallies.sorted.imp Nat.ne_of_lt
  have sizes : upload.expectedLength = Slices.size libraryUploadChunkSize file.length := by
    funext i
    rw [expectedLength, tallies.chunkSize, tallies.expectedSize]
  rw [admitComplete, if_neg completed, if_neg cancelled, ensure_eq_ok_iff, tallies.totalChunks,
    tallies.expectedSize, tallies.bytes, sizes]
  exact Slices.complete_iff libraryUploadChunkSize_pos distinct
    fun i member => below i (tallies.known i member)

end LibraryUpload

theorem assemble_of_forall {chunks : Nat → Option (List UInt8)} {slices : Nat → List UInt8} {n : Nat}
    (stored : ∀ i < n, chunks i = some (slices i)) :
    assemble chunks n = some ((List.range n).flatMap slices) := by
  have joined : ∀ indices : List Nat, (∀ i ∈ indices, chunks i = some (slices i)) →
      indices.mapM chunks = some (indices.map slices) := by
    intro indices all
    induction indices with
    | nil => rfl
    | cons i rest ih =>
      have tail := ih fun j member => all j (List.mem_cons_of_mem i member)
      rw [List.mapM_cons, all i List.mem_cons_self, tail]
      rfl
  rw [assemble, joined _ fun i member => stored i (List.mem_range.mp member)]
  rfl

/-- What a call has of the file at its point; only chunk PUTs and completions are under way. -/
def UploadPoint.Sends (file : List UInt8) (h : UploadHistory) : UploadPoint → Prop
  | .chunkCalled request => (UploadCall.chunk request).SendsSlice file
  | .receiving copy index body => copy.Tallies file h.acknowledged ∧
      index < Slices.count libraryUploadChunkSize file.length ∧
      body = Slices.slice libraryUploadChunkSize index file
  | .recording copy index => copy.Tallies file h.acknowledged ∧
      index < Slices.count libraryUploadChunkSize file.length ∧
      h.chunks index = some (Slices.slice libraryUploadChunkSize index file)
  | .completeCalled | .queueing _ | .delaying _ | .unqueueing _ | .returned | .raised _ => True
  | _ => False

namespace UploadHistory

variable {h h' : UploadHistory} {file : List UInt8} {turn : UploadTurn} {p : UploadPoint}

/-- The bookkeeping of an upload: acknowledged chunks stay recorded, with the bytes of the recorded
ones, `complete` is accepted when all are acknowledged, and then the worker joins the file. -/
structure Assembles (h : UploadHistory) (file : List UInt8) : Prop where
  recorded : ∀ i ∈ h.acknowledged, i ∈ h.row.receivedChunks
  bytes : h.row.bytesReceived = total h.row.expectedLength h.row.receivedChunks
  accepted : h.row.admitComplete = .ok () ↔ ∀ i < h.row.totalChunks, i ∈ h.acknowledged
  joined : h.row.admitComplete = .ok () → ∃ payload,
    assemble h.chunks h.row.totalChunks = some payload ∧
      payload.length = h.row.expectedSize ∧ payload = file

def RecordsAll (h : UploadHistory) : UploadPoint → Prop
  | .recording copy index => index ∈ copy.receivedChunks ∨
      ∀ i ∈ h.row.receivedChunks, i = index ∨ i ∈ copy.receivedChunks
  | _ => True

/-- The row adds up, and the acknowledged chunks are stored. -/
structure Holds (h : UploadHistory) (file : List UInt8) : Prop where
  row : h.row.Tallies file h.acknowledged
  completed : h.row.status ≠ .completed
  cancelled : h.row.status ≠ .cancelled
  stored : ∀ i ∈ h.acknowledged, i < Slices.count libraryUploadChunkSize file.length ∧
    h.chunks i = some (Slices.slice libraryUploadChunkSize i file)

structure Grows (h h' : UploadHistory) (file : List UInt8) : Prop where
  acknowledged : ∀ i ∈ h.acknowledged, i ∈ h'.acknowledged
  chunks : ∀ i, h.chunks i = some (Slices.slice libraryUploadChunkSize i file) →
    h'.chunks i = some (Slices.slice libraryUploadChunkSize i file)

theorem Grows.refl (h : UploadHistory) (file : List UInt8) : Grows h h file :=
  ⟨fun _ member => member, fun _ stored => stored⟩

theorem sends_mono (grows : Grows h h' file) (sends : p.Sends file h) : p.Sends file h' := by
  cases p with
  | receiving =>
    exact ⟨LibraryUpload.tallies_mono sends.1 grows.acknowledged, sends.2⟩
  | recording copy index =>
    exact ⟨LibraryUpload.tallies_mono sends.1 grows.acknowledged, sends.2.1,
      grows.chunks index sends.2.2⟩
  | _ => exact sends

theorem assembles_iff (holds : h.Holds file) :
    h.Assembles file ↔ ∀ i ∈ h.acknowledged, i ∈ h.row.receivedChunks := by
  refine ⟨Assembles.recorded, fun recorded => ?_⟩
  have accepted : h.row.admitComplete = .ok () ↔ ∀ i < h.row.totalChunks, i ∈ h.acknowledged := by
    rw [LibraryUpload.admitComplete_iff holds.row (fun i member => (holds.stored i member).1)
      holds.completed holds.cancelled]
    exact ⟨fun all i inside => holds.row.known i (all i inside),
      fun all i inside => recorded i (all i inside)⟩
  refine ⟨recorded, holds.row.bytes, accepted, fun ok => ⟨file, ?_, holds.row.expectedSize.symm, rfl⟩⟩
  have all := accepted.mp ok
  rw [assemble_of_forall fun i inside => (holds.stored i (all i inside)).2, holds.row.totalChunks,
    Slices.flatMap_slice LibraryUpload.libraryUploadChunkSize_pos]

/-- A step keeps what holds, and its call sends what it did. -/
structure Kept (h : UploadHistory) (file : List UInt8) (after : UploadHistory × UploadPoint) :
    Prop where
  holds : after.1.Holds file
  grows : Grows h after.1 file
  sends : after.2.Sends file after.1

theorem Kept.same (holds : h.Holds file) {new : UploadPoint} (sends : new.Sends file h) :
    Kept h file (h, new) := ⟨holds, .refl h file, sends⟩

theorem receivedChunks_commit (read written : LibraryUpload)
    (same : written.receivedChunks = read.receivedChunks) :
    (h.commit read written).row.receivedChunks = h.row.receivedChunks := if_pos same

theorem holds_commit (holds : h.Holds file) (read written : LibraryUpload)
    (received : written.receivedChunks = read.receivedChunks)
    (bytes : written.bytesReceived = read.bytesReceived) (completed : written.status ≠ .completed)
    (cancelled : written.status ≠ .cancelled) : (h.commit read written).Holds file where
  row := LibraryUpload.tallies_flush holds.row received bytes
  completed := by
    show (if _ then _ else _) ≠ UploadStatus.completed
    split
    · exact holds.completed
    · exact completed
  cancelled := by
    show (if _ then _ else _) ≠ UploadStatus.cancelled
    split
    · exact holds.cancelled
    · exact cancelled
  stored := holds.stored

theorem kept_storeChunk (holds : h.Holds file) {copy : LibraryUpload} {index : Nat} {body : List UInt8}
    (tallies : copy.Tallies file h.acknowledged)
    (inside : index < Slices.count libraryUploadChunkSize file.length)
    (slice : body = Slices.slice libraryUploadChunkSize index file) :
    Kept h file (h.storeChunk index body, .recording copy index) := by
  have own : (h.storeChunk index body).chunks index =
      some (Slices.slice libraryUploadChunkSize index file) :=
    (Function.update_self index _ _).trans (congrArg some slice)
  have chunks : ∀ i, h.chunks i = some (Slices.slice libraryUploadChunkSize i file) →
      (h.storeChunk index body).chunks i = some (Slices.slice libraryUploadChunkSize i file) := by
    intro i stored
    by_cases same : i = index
    · subst same
      exact own
    · exact (Function.update_of_ne same _ _).trans stored
  refine ⟨⟨holds.row, holds.completed, holds.cancelled, fun i member => ?_⟩, ⟨fun _ old => old, chunks⟩,
    tallies, inside, own⟩
  obtain ⟨below, stored⟩ := holds.stored i member
  exact ⟨below, chunks i stored⟩

theorem kept_recordChunk (holds : h.Holds file) {copy : LibraryUpload} {index : Nat}
    (tallies : copy.Tallies file h.acknowledged)
    (inside : index < Slices.count libraryUploadChunkSize file.length)
    (stored : h.chunks index = some (Slices.slice libraryUploadChunkSize index file)) :
    Kept h file (h.recordChunk copy index, .returned) := by
  have status : (h.recordChunk copy index).row.status = h.row.status ∨
      (h.recordChunk copy index).row.status = .uploading := by
    show (if _ then _ else _) = _ ∨ (if _ then _ else _) = UploadStatus.uploading
    split
    · exact .inl rfl
    · exact .inr rfl
  refine ⟨⟨LibraryUpload.tallies_flush_recorded tallies inside holds.row, ?_, ?_, ?_⟩,
    ⟨fun i old => List.mem_cons_of_mem index old, fun _ found => found⟩, trivial⟩
  · rcases status with same | same <;> rw [same]
    · exact holds.completed
    · exact fun is => by cases is
  · rcases status with same | same <;> rw [same]
    · exact holds.cancelled
    · exact fun is => by cases is
  · intro i member
    rcases List.mem_cons.mp member with rfl | old
    · exact ⟨inside, stored⟩
    · exact holds.stored i old

theorem kept_next (holds : h.Holds file) (sends : p.Sends file h) :
    Kept h file (next turn h p) := by
  cases p with
  | chunkCalled request =>
    simp only [next]
    split
    · exact .same holds trivial
    · rename_i index admitted
      obtain ⟨same, inside⟩ := LibraryUpload.admitChunk_ok admitted
      rw [holds.row.totalChunks] at inside
      exact .same holds ⟨holds.row, inside, sends index inside same⟩
  | receiving =>
    obtain ⟨tallies, inside, slice⟩ := sends
    simp only [next]
    split
    · exact .same holds trivial
    split
    · exact .same holds trivial
    · exact kept_storeChunk holds tallies inside slice
  | recording => exact kept_recordChunk holds sends.1 sends.2.1 sends.2.2
  | completeCalled =>
    simp only [next]
    split
    · exact .same holds trivial
    · refine .same holds ?_
      show UploadPoint.Sends file h (if _ then _ else _)
      split <;> trivial
  | queueing copy =>
    have written := holds_commit holds copy copy.queued rfl rfl (fun is => by cases is)
      (fun is => by cases is)
    exact ⟨written, ⟨fun _ old => old, fun _ old => old⟩, trivial⟩
  | delaying =>
    simp only [next]
    split
    · exact .same holds trivial
    · exact ⟨⟨holds.row, holds.completed, holds.cancelled, holds.stored⟩,
        ⟨fun _ old => old, fun _ old => old⟩, trivial⟩
  | unqueueing copy =>
    have written := holds_commit holds copy copy.unqueued rfl rfl (fun is => by cases is)
      (fun is => by cases is)
    exact ⟨written, ⟨fun _ old => old, fun _ old => old⟩, trivial⟩
  | returned | raised => exact .same holds trivial
  | _ => exact sends.elim

theorem recorded_recordChunk_iff (holds : h.Holds file) {copy : LibraryUpload} {index : Nat}
    (recorded : ∀ i ∈ h.acknowledged, i ∈ h.row.receivedChunks)
    (tallies : copy.Tallies file h.acknowledged)
    (inside : index < Slices.count libraryUploadChunkSize file.length) :
    (∀ i ∈ (h.recordChunk copy index).acknowledged,
        i ∈ (h.recordChunk copy index).row.receivedChunks) ↔
      h.RecordsAll (.recording copy index) := by
  show (∀ i ∈ index :: h.acknowledged,
    i ∈ (LibraryUpload.flush copy (copy.recorded index) h.row).receivedChunks) ↔ _
  rcases LibraryUpload.flush_recorded tallies inside h.row with ⟨again, received, _⟩ | ⟨new, received, _⟩
  · rw [received]
    refine iff_of_true (fun i member => ?_) (.inl again)
    rcases List.mem_cons.mp member with rfl | old
    · exact recorded i (tallies.known i again)
    · exact recorded i old
  · rw [received]
    constructor
    · intro all
      refine .inr fun i member => LibraryUpload.mem_recorded.mp (all i ?_)
      exact List.mem_cons_of_mem index (holds.row.known i member)
    · intro spared i member
      have others := spared.resolve_left new
      rcases List.mem_cons.mp member with rfl | old
      · exact LibraryUpload.mem_recorded.mpr (.inl rfl)
      · exact LibraryUpload.mem_recorded.mpr (others i (recorded i old))

theorem assembles_next_iff (holds : h.Holds file) (sends : p.Sends file h)
    (assembles : h.Assembles file) : (next turn h p).1.Assembles file ↔ h.RecordsAll p := by
  have kept : Kept h file (next turn h p) := kept_next holds sends
  rw [assembles_iff kept.holds]
  have recorded := assembles.recorded
  cases p with
  | recording => exact recorded_recordChunk_iff holds recorded sends.1 sends.2.1
  | chunkCalled | completeCalled | delaying =>
    refine iff_of_true ?_ trivial
    simp only [next]
    split <;> exact recorded
  | receiving =>
    refine iff_of_true ?_ trivial
    simp only [next]
    split
    · exact recorded
    split <;> exact recorded
  | queueing copy =>
    refine iff_of_true ?_ trivial
    have same := receivedChunks_commit (h := h) copy copy.queued rfl
    exact fun i member => same ▸ recorded i member
  | unqueueing copy =>
    refine iff_of_true ?_ trivial
    have same := receivedChunks_commit (h := h) copy copy.unqueued rfl
    exact fun i member => same ▸ recorded i member
  | returned | raised => exact iff_of_true recorded trivial
  | _ => exact sends.elim

end UploadHistory

namespace UploadSystem

variable {s : UploadSystem} {turn : Nat × UploadTurn} {file : List UInt8}

def RecordsAllTurn (s : UploadSystem) (turn : Nat × UploadTurn) : Prop :=
  ∀ p ∈ s.calls[turn.1]?, s.shared.RecordsAll p

structure Receives (s : UploadSystem) (file : List UInt8) : Prop where
  holds : s.shared.Holds file
  sends : ∀ p ∈ s.calls, p.Sends file s.shared

theorem receives_step (receives : s.Receives file) : (s.step turn).Receives file := by
  cases here : s.calls[turn.1]? with
  | none =>
    rw [step, Interleaving.advance_of_none _ _ here]
    exact receives
  | some p =>
    have kept : UploadHistory.Kept s.shared file (UploadHistory.next turn.2 s.shared p) :=
      UploadHistory.kept_next receives.holds (receives.sends p (List.mem_of_getElem? here))
    rw [step_of_some here]
    refine ⟨kept.holds, fun other member => ?_⟩
    rcases List.mem_or_eq_of_mem_set member with old | rfl
    · exact UploadHistory.sends_mono kept.grows (receives.sends other old)
    · exact kept.sends

theorem assembles_step_iff (receives : s.Receives file) (assembles : s.shared.Assembles file) :
    (s.step turn).shared.Assembles file ↔ s.RecordsAllTurn turn := by
  cases here : s.calls[turn.1]? with
  | none =>
    rw [step, Interleaving.advance_of_none _ _ here]
    refine iff_of_true assembles fun p at_ => ?_
    rw [here] at at_
    cases at_
  | some p =>
    rw [step_of_some here, RecordsAllTurn, here, UploadHistory.assembles_next_iff receives.holds
      (receives.sends p (List.mem_of_getElem? here)) assembles]
    constructor
    · rintro spares _ ⟨⟩
      exact spares
    · intro all
      exact all p rfl

theorem tallies_newUpload (filename : String) (renameOnConflict : Bool) (file : List UInt8)
    (known : List Nat) : (newUpload filename renameOnConflict file.length).Tallies file known :=
  ⟨rfl, rfl, rfl, .nil, fun _ none_ => absurd none_ List.not_mem_nil, rfl⟩

theorem receives_start (filename : String) (renameOnConflict : Bool) {calls : List UploadCall}
    (sends : ∀ call ∈ calls, call.SendsSlice file) :
    (start (newUpload filename renameOnConflict file.length) calls).Receives file := by
  refine ⟨⟨tallies_newUpload filename renameOnConflict file [], fun is => ?_, fun is => ?_,
    fun _ none_ => absurd none_ List.not_mem_nil⟩, fun p member => ?_⟩
  · cases is
  · cases is
  · obtain ⟨call, sent, rfl⟩ := List.mem_map.mp member
    have slice := sends call sent
    cases call with
    | chunk => exact slice
    | complete => trivial
    | cancel | finalize => exact slice.elim

/-- The states of an upload assemble the file exactly when, at each commit of a chunk PUT, either
the call has read its chunk as recorded, or no chunk of another call was recorded since it read. -/
theorem chunked_upload_assembles_iff (file : List UInt8) (filename : String)
    (renameOnConflict : Bool) {calls : List UploadCall}
    (sends : ∀ call ∈ calls, call.SendsSlice file) (turns : List (Nat × UploadTurn)) :
    (∀ s ∈ trace step (start (newUpload filename renameOnConflict file.length) calls) turns,
        s.shared.Assembles file) ↔
      Guarded RecordsAllTurn step
        (start (newUpload filename renameOnConflict file.length) calls) turns := by
  have receives := receives_start filename renameOnConflict sends
  refine forall_trace_iff_guarded (I := fun s : UploadSystem => s.Receives file)
    (fun s turn kept => receives_step kept)
    (fun s turn kept assembles => assembles_step_iff kept assembles) receives ?_
  exact (UploadHistory.assembles_iff receives.holds).mpr fun _ none_ => absurd none_ List.not_mem_nil

instance (h : UploadHistory) : ∀ p : UploadPoint, Decidable (h.RecordsAll p)
  | .recording .. => inferInstanceAs (Decidable (_ ∨ _))
  | .chunkCalled _ | .receiving .. | .completeCalled | .queueing _ | .delaying _ | .unqueueing _
  | .cancelCalled | .cancelling _ | .finalizeCalled | .assembling _ | .naming .. | .publishing ..
  | .enqueueing | .exhausting | .cleaning _ | .returned | .raised _ => .isTrue trivial

instance (s : UploadSystem) (turn : Nat × UploadTurn) : Decidable (s.RecordsAllTurn turn) :=
  inferInstanceAs (Decidable (∀ p ∈ s.calls[turn.1]?, _))

/-- A file of one byte: its chunk, twice at once, and the completion. -/
theorem one_byte_file_assembles :
    Guarded RecordsAllTurn step
        (start (newUpload "note.md" false 1) [.chunk ⟨0, some (some 1), [65]⟩, .chunk ⟨0, none, [65]⟩,
          .complete]) ([0, 1, 0, 1, 0, 1, 2, 2, 2].map fun i => (i, quietTurn)) ∧
      ∀ s ∈ trace step
          (start (newUpload "note.md" false 1) [.chunk ⟨0, some (some 1), [65]⟩,
            .chunk ⟨0, none, [65]⟩, .complete])
          ([0, 1, 0, 1, 0, 1, 2, 2, 2].map fun i => (i, quietTurn)), s.shared.Assembles [65] :=
  have guarded : Guarded RecordsAllTurn step
      (start (newUpload "note.md" false 1) [.chunk ⟨0, some (some 1), [65]⟩,
        .chunk ⟨0, none, [65]⟩, .complete])
      ([0, 1, 0, 1, 0, 1, 2, 2, 2].map fun i => (i, quietTurn)) := by decide +kernel
  have sends : ∀ call ∈ [UploadCall.chunk ⟨0, some (some 1), [65]⟩, .chunk ⟨0, none, [65]⟩,
      .complete], call.SendsSlice [65] := by
    have slice : Slices.slice libraryUploadChunkSize 0 ([65] : List UInt8) = [65] := by
      rw [Slices.slice, Nat.zero_mul, List.drop_zero]
      exact List.take_of_length_le (by decide)
    intro call member
    rcases List.mem_cons.mp member with rfl | member
    · intro i _ same
      have zero : i = 0 := Int.ofNat_eq_zero.mp same.symm
      rw [zero, slice]
    rcases List.mem_cons.mp member with rfl | member
    · intro i _ same
      have zero : i = 0 := Int.ofNat_eq_zero.mp same.symm
      rw [zero, slice]
    · rw [List.mem_singleton.mp member]
      trivial
  ⟨guarded, (chunked_upload_assembles_iff [65] "note.md" false sends _).mpr guarded⟩

variable {calls : List UploadPoint}

theorem step_chunkCalled (h : UploadHistory) {i index : Nat} {request : ChunkRequest}
    {turn : UploadTurn} (here : calls[i]? = some (.chunkCalled request))
    (admitted : h.row.admitChunk request = .ok index) :
    step ⟨h, calls⟩ (i, turn) = ⟨h, calls.set i (.receiving h.row index request.body)⟩ := by
  rw [step_of_some here]
  simp only [UploadHistory.next, admitted]

theorem step_receiving (h : UploadHistory) {i index : Nat} {copy : LibraryUpload}
    {body : List UInt8} {turn : UploadTurn} (here : calls[i]? = some (.receiving copy index body))
    (fits : copy.checkBody index body = .ok ()) (answers : turn.fails = false) :
    step ⟨h, calls⟩ (i, turn) = ⟨h.storeChunk index body, calls.set i (.recording copy index)⟩ := by
  rw [step_of_some here]
  simp only [UploadHistory.next, fits, answers, Bool.false_eq_true, if_false]

theorem step_recording (h : UploadHistory) {i index : Nat} {copy : LibraryUpload}
    {turn : UploadTurn} (here : calls[i]? = some (.recording copy index)) :
    step ⟨h, calls⟩ (i, turn) = ⟨h.recordChunk copy index, calls.set i .returned⟩ := by
  rw [step_of_some here]
  rfl

theorem checkBody_slice {copy : LibraryUpload} {file : List UInt8} {known : List Nat} {i : Nat}
    (tallies : copy.Tallies file known) :
    copy.checkBody i (Slices.slice libraryUploadChunkSize i file) = .ok () := by
  have length := Slices.length_slice libraryUploadChunkSize i file
  have expected : copy.expectedLength i = Slices.size libraryUploadChunkSize file.length i := by
    rw [LibraryUpload.expectedLength, tallies.chunkSize, tallies.expectedSize]
  refine bind_eq_ok_iff.mpr ⟨(), ensure_eq_ok_iff.mpr ?_, ensure_eq_ok_iff.mpr ?_⟩
  · rw [length, tallies.chunkSize]
    exact Nat.min_le_left _ _
  · rw [length, expected]

def bothChunks (file : List UInt8) : List UploadCall :=
  [.chunk ⟨0, none, Slices.slice libraryUploadChunkSize 0 file⟩,
    .chunk ⟨1, none, Slices.slice libraryUploadChunkSize 1 file⟩]

def overlapping : List (Nat × UploadTurn) := [0, 1, 0, 1, 0, 1].map fun i => (i, quietTurn)

theorem shared_overlapping {upload : LibraryUpload} {first second : List UInt8}
    (admitted₀ : upload.admitChunk ⟨0, none, first⟩ = .ok 0)
    (admitted₁ : upload.admitChunk ⟨1, none, second⟩ = .ok 1)
    (fits₀ : upload.checkBody 0 first = .ok ()) (fits₁ : upload.checkBody 1 second = .ok ()) :
    (run step (start upload [.chunk ⟨0, none, first⟩, .chunk ⟨1, none, second⟩])
        overlapping).shared =
      UploadHistory.recordChunk
        (UploadHistory.recordChunk
          (UploadHistory.storeChunk
            (UploadHistory.storeChunk ⟨upload, fun _ => none, [], [], false, none, none⟩ 0 first)
            1 second) upload 0) upload 1 := by
  let h : UploadHistory := ⟨upload, fun _ => none, [], [], false, none, none⟩
  simp only [overlapping, start, List.map_cons, List.map_nil, run, UploadCall.point]
  rw [step_chunkCalled h rfl admitted₀, step_chunkCalled h rfl admitted₁,
    step_receiving h rfl fits₀ rfl, step_receiving (h.storeChunk 0 first) rfl fits₁ rfl,
    step_recording ((h.storeChunk 0 first).storeChunk 1 second) rfl,
    step_recording (((h.storeChunk 0 first).storeChunk 1 second).recordChunk upload 0) rfl]

theorem first_chunk_lost {upload : LibraryUpload} {file : List UInt8}
    (tallies : upload.Tallies file []) (open_ : upload.status = .pending)
    (two : Slices.count libraryUploadChunkSize file.length = 2) :
    0 ∈ (run step (start upload (bothChunks file)) overlapping).shared.acknowledged ∧
      0 ∉ (run step (start upload (bothChunks file)) overlapping).shared.row.receivedChunks := by
  have total : upload.totalChunks = 2 := tallies.totalChunks.trans two
  have admitted : ∀ i : Nat, i < 2 → ∀ body, upload.admitChunk ⟨(i : Int), none, body⟩ = .ok i := by
    intro i inside body
    have numbered : ¬ ((i : Int) < 0 ∨ ((2 : Nat) : Int) ≤ (i : Int)) := by omega
    rw [LibraryUpload.admitChunk, open_, total, if_neg (by decide), if_neg numbered]
    exact congrArg Except.ok (Int.toNat_natCast i)
  have last := shared_overlapping (admitted 0 (by omega) _) (admitted 1 (by omega) _)
    (checkBody_slice tallies) (checkBody_slice tallies)
  have new : ∀ i : Nat, i ∉ upload.receivedChunks :=
    fun i member => List.not_mem_nil (tallies.known i member)
  rw [bothChunks, last]
  refine ⟨List.mem_cons_of_mem 1 List.mem_cons_self, fun kept => ?_⟩
  have inside : 1 < Slices.count libraryUploadChunkSize file.length := by omega
  rcases LibraryUpload.flush_recorded tallies inside
    (LibraryUpload.flush upload (upload.recorded 0) upload) with ⟨again, _⟩ | ⟨_, received, _⟩
  · exact new 1 again
  · have written : 0 ∈ (upload.recorded 1).receivedChunks := received ▸ kept
    rcases LibraryUpload.mem_recorded.mp written with other | old
    · cases other
    · exact new 0 old

def twoChunkFile : List UInt8 := List.replicate (libraryUploadChunkSize + 1) 65

theorem parallel_puts_lose_chunk :
    (∀ call ∈ bothChunks twoChunkFile, call.SendsSlice twoChunkFile) ∧
      ∃ s ∈ trace step (start (newUpload "note.md" false twoChunkFile.length)
          (bothChunks twoChunkFile)) overlapping,
        0 ∈ s.shared.acknowledged ∧ 0 ∉ s.shared.row.receivedChunks ∧
          ¬ s.shared.Assembles twoChunkFile := by
  have two : Slices.count libraryUploadChunkSize twoChunkFile.length = 2 := by
    rw [twoChunkFile, List.length_replicate]
    decide +kernel
  have lost := first_chunk_lost (tallies_newUpload "note.md" false twoChunkFile []) rfl two
  refine ⟨fun call member => ?_, _, run_mem_trace _ _ _, lost.1, lost.2, fun assembles => ?_⟩
  · rcases List.mem_cons.mp member with rfl | member
    · intro i _ same
      have zero : i = 0 := Int.ofNat_eq_zero.mp same.symm
      rw [zero]
    · rw [List.mem_singleton.mp member]
      intro i _ same
      have one : i = 1 := Int.ofNat.inj same.symm
      rw [one]
  · exact lost.2 (assembles.recorded 0 lost.1)

end UploadSystem

end AverQel.Library
