/- digest: Uploads under every interleaving: one document for a hash, and one chain of versions. -/
import AverQel.Ingestion.DocumentUploads

namespace AverQel.Ingestion.Uploads

open Foundation Transition Interleaving
open AverQel.System (ObjectKey ObjectStore objectKey)

/-- The same request under the same key. -/
structure UploadRequest.Repeats (r r' : UploadRequest) : Prop where
  idempotencyKey : r.idempotencyKey = r'.idempotencyKey
  filename : r.filename = r'.filename
  contentType : r.contentType = r'.contentType
  payload : r.payload = r'.payload

variable (service : UploadService)

def FollowsParent (documents : List Document) (d : Document) : Prop :=
  match d.parentDocumentId with
  | none => d.version = 1
  | some parentId => ∃ parent ∈ documents,
      parent.id = parentId ∧ parent.filename = d.filename ∧ parent.version + 1 = d.version

structure Consistent (s : UploadSystem) : Prop where
  sameDocument : ∀ p ∈ s.calls, ∀ q ∈ s.calls, p.request.Repeats q.request →
    ∀ a ∈ p.result, ∀ b ∈ q.result, a = b
  oneDocument : ∀ p ∈ s.calls, ∀ q ∈ s.calls, p.request.Repeats q.request →
    ∀ a ∈ p.created, ∀ b ∈ q.created, a = b
  oneForHash :
    ((s.shared.documents.filter fun d => d.isDeleted = false).map Document.sha256Hash).Nodup
  versions : (s.shared.documents.map fun d => (d.filename, d.version)).Nodup
  parents : ∀ d ∈ s.shared.documents, FollowsParent s.shared.documents d
  /-- An object that no committed document has is that of a call that is still under way. -/
  objects : ∀ key, (s.shared.objects key).isSome →
    (∃ d ∈ s.shared.documents, d.storageObjectKey = key) ∨ ∃ p ∈ s.calls, p.storing = some key

/-- A record that is replayed is of a document with the digest of the payload; a call that has
stored its object goes on to its commit, with no key taken; and no document has the digest when it
commits. -/
def CarefulAt (s : UploadStore) (turn : UploadTurn) : UploadPoint → Prop
  | .arrived r => ∀ key ∈ s.getKey r.idempotencyKey,
      key.requestFingerprint = service.fingerprint r →
      ∀ d ∈ s.documents, d.id = key.resourceId → d.sha256Hash = service.sha256 r.payload
  | .stored r document => turn.fails = none ∧
      s.clashes document (newJob service turn document)
        (newKey service r document (newJob service turn document)) = false
  | .inserted _ document _ _ => turn.fails = none ∧
      ∀ d ∈ s.documents, d.sha256Hash ≠ document.sha256Hash
  | .replayMissed _ => True
  | .hashMissed _ => True
  | .locked _ => True
  | .versioned _ _ _ _ => True
  | .committed _ _ => True
  | .returned _ _ _ => True
  | .failed _ _ _ => True

instance decidableCarefulAt (s : UploadStore) (turn : UploadTurn) :
    ∀ p, Decidable (CarefulAt service s turn p)
  | .arrived .. | .stored .. | .inserted .. => by dsimp only [CarefulAt]; infer_instance
  | .replayMissed _ | .hashMissed _ | .locked _ | .versioned .. | .committed .. | .returned ..
  | .failed .. => .isTrue trivial

def Careful (s : UploadSystem) (turn : Nat × UploadTurn) : Prop :=
  ∀ point ∈ s.calls[turn.1]?, CarefulAt service s.shared turn.2 point

instance decidableCareful (s : UploadSystem) (turn : Nat × UploadTurn) :
    Decidable (Careful service s turn) := by
  delta Careful
  infer_instance

def Committed (s : UploadStore) (r : UploadRequest) (id : Uuid) : Prop :=
  ∃ d ∈ s.documents, d.id = id ∧ d.sha256Hash = service.sha256 r.payload

def Follows (s : UploadStore) (filename : String) (parentId : Option Uuid) (version : Nat) : Prop :=
  match s.getLatestByFilename service.userId filename with
  | none => parentId = none ∧ version = 1
  | some latest => parentId = some latest.id ∧ version = latest.version + 1

def IsNext (s : UploadStore) (r : UploadRequest) (document : Document) : Prop :=
  ∃ documentId parentId version, Follows service s (pathName r.filename) parentId version ∧
    document = newDocument service r documentId parentId version

/-- What a call that has come to the point knows of the committed rows. -/
def Fits (s : UploadStore) : UploadPoint → Prop
  | .versioned r _ parentId version => Follows service s (pathName r.filename) parentId version
  | .stored r document => IsNext service s r document
  | .inserted r document _ key => IsNext service s r document ∧ key.resourceId = document.id ∧
      key.responseBody.documentId = document.id
  | .committed r result => Committed service s r result.documentId
  | .returned r _ created => ∀ id ∈ created, Committed service s r id
  | .failed r _ created => ∀ id ∈ created, Committed service s r id
  | .arrived _ => True
  | .replayMissed _ => True
  | .hashMissed _ => True
  | .locked _ => True

/-- What every run keeps. -/
structure Held (s : UploadSystem) : Prop where
  exclusive : s.Exclusive excludes
  own : ∀ d ∈ s.shared.documents, d.isDeleted = false ∧ d.uploadedByUserId = service.userId
  versions : (s.shared.documents.map fun d => (d.filename, d.version)).Nodup
  parents : ∀ d ∈ s.shared.documents, FollowsParent s.shared.documents d
  keys : ∀ key ∈ s.shared.keys, key.responseBody.documentId = key.resourceId ∧
    ∃ d ∈ s.shared.documents, d.id = key.resourceId
  fits : ∀ p ∈ s.calls, Fits service s.shared p

variable {service} {s s' : UploadStore} {p : UploadPoint} {turn : UploadTurn}

theorem follows_congr (same : s'.documents = s.documents) {filename : String}
    {parentId : Option Uuid} {version : Nat} :
    Follows service s' filename parentId version ↔ Follows service s filename parentId version := by
  unfold Follows UploadStore.getLatestByFilename
  rw [same]

theorem fits_congr (same : s'.documents = s.documents) : Fits service s' p ↔ Fits service s p := by
  cases p with
  | arrived | replayMissed | hashMissed | locked => exact Iff.rfl
  | versioned => exact follows_congr same
  | stored | inserted => simp only [Fits, IsNext, follows_congr same]
  | committed | returned | failed => simp only [Fits, Committed, same]

theorem committed_commit {r : UploadRequest} {id : Uuid} (held : Committed service s r id)
    (document : Document) (job : IngestionJob) (key : IdempotencyKey) :
    Committed service (s.commit document job key) r id := by
  obtain ⟨d, there, rest⟩ := held
  exact ⟨d, List.mem_append_left _ there, rest⟩

theorem fits_commit (fits : Fits service s p) (free : p.holdsLock = false) (document : Document)
    (job : IngestionJob) (key : IdempotencyKey) :
    Fits service (s.commit document job key) p := by
  cases p with
  | arrived | replayMissed | hashMissed | locked => trivial
  | versioned | stored | inserted => cases free
  | committed => exact committed_commit fits document job key
  | returned | failed => exact fun id same => committed_commit (fits id same) document job key

variable (service) in
/-- A turn goes on with its request, and writes when it stores the object and when it commits. -/
theorem next_cases (turn : UploadTurn) (s : UploadStore) (p : UploadPoint) :
    (next service turn s p).2.request = p.request ∧
      ((next service turn s p).1 = s ∨
        (∃ r document, (next service turn s p).2 = .stored r document ∧
          (next service turn s p).1 =
            { s with objects := s.objects.put document.storageObjectKey r.payload }) ∨
        ∃ r document job key, p = .inserted r document job key ∧ turn.fails = none ∧
          next service turn s p = (s.commit document job key, .committed r key.responseBody)) := by
  cases p with
  | versioned =>
    simp only [next]
    split
    · exact ⟨rfl, .inl rfl⟩
    · exact ⟨rfl, .inr (.inl ⟨_, _, rfl, rfl⟩)⟩
  | inserted r document job key =>
    simp only [next]
    split
    · exact ⟨rfl, .inl rfl⟩
    · exact ⟨rfl, .inr (.inr ⟨r, document, job, key, rfl, ‹_›, rfl⟩)⟩
  | _ =>
    dsimp only [next]
    repeat' split
    all_goals exact ⟨rfl, .inl rfl⟩

variable (service) in
theorem rows_next (turn : UploadTurn) (s : UploadStore) (p : UploadPoint) :
    ((next service turn s p).1.documents = s.documents ∧ (next service turn s p).1.keys = s.keys) ∨
      ∃ r document job key, p = .inserted r document job key ∧ turn.fails = none ∧
        next service turn s p = (s.commit document job key, .committed r key.responseBody) := by
  rcases (next_cases service turn s p).2 with same | ⟨r, document, _, stored⟩ | commits
  · rw [same]
    exact .inl ⟨rfl, rfl⟩
  · rw [stored]
    exact .inl ⟨rfl, rfl⟩
  · exact .inr commits

theorem follows_latest (turn : UploadTurn) (s : UploadStore) (r : UploadRequest) :
    Fits service (next service turn s (.locked r)).1 (next service turn s (.locked r)).2 := by
  simp only [next]
  cases turn.fails with
  | some => exact fun id none_created => absurd none_created (Option.not_mem_none id)
  | none =>
    dsimp only
    cases latest : s.getLatestByFilename service.userId (pathName r.filename) with
    | none | some =>
      simp only [Fits, Follows, latest]
      exact ⟨trivial, trivial⟩

theorem fits_next (fits : Fits service s p) :
    Fits service (next service turn s p).1 (next service turn s p).2 := by
  have nothing {r : UploadRequest} : ∀ id ∈ (none : Option Uuid), Committed service s r id :=
    fun id none_created => absurd none_created (Option.not_mem_none id)
  cases p with
  | arrived =>
    simp only [next]
    split
    · exact nothing
    · split_ifs
      · exact nothing
      · split
        · trivial
        · split_ifs <;> exact nothing
  | replayMissed =>
    simp only [next]
    split
    · exact nothing
    · split
      · trivial
      · exact nothing
      · exact nothing
  | hashMissed =>
    simp only [next]
    split
    · exact nothing
    · trivial
  | locked r => exact follows_latest turn s r
  | versioned r documentId parentId version =>
    simp only [next]
    split
    · exact nothing
    · exact ⟨documentId, parentId, version, (follows_congr rfl).mpr fits, rfl⟩
  | stored =>
    simp only [next]
    split
    · exact nothing
    · split_ifs
      · exact nothing
      · exact ⟨fits, rfl, rfl⟩
  | inserted r =>
    simp only [next]
    split
    · exact nothing
    · obtain ⟨⟨documentId, parentId, version, _, rfl⟩, _, same⟩ := fits
      refine ⟨newDocument service r documentId parentId version, ?_, same.symm, rfl⟩
      exact List.mem_append_right _ (List.mem_singleton_self _)
  | committed r result =>
    have own : ∀ id ∈ some result.documentId, Committed service s r id := by
      rintro id ⟨⟩
      exact fits
    simp only [next]
    split <;> exact own
  | returned | failed => exact fits

theorem follows_newDocument (own : ∀ d ∈ s.documents, d.isDeleted = false ∧
      d.uploadedByUserId = service.userId) {r : UploadRequest} {document : Document}
    (isNext : IsNext service s r document) :
    FollowsParent s.documents document ∧
      ∀ d ∈ s.documents, d.filename = document.filename → d.version < document.version := by
  obtain ⟨documentId, parentId, version, follows, rfl⟩ := isNext
  have candidate (d : Document) (there : d ∈ s.documents)
      (same : d.filename = pathName r.filename) :
      d ∈ s.documents.filter fun d => d.filename = pathName r.filename ∧ d.isDeleted = false ∧
        d.uploadedByUserId = service.userId := by
    rw [List.mem_filter]
    exact ⟨there, decide_eq_true ⟨same, own d there⟩⟩
  unfold Follows at follows
  cases latest : s.getLatestByFilename service.userId (pathName r.filename) with
  | none =>
    rw [latest] at follows
    obtain ⟨rfl, rfl⟩ := follows
    refine ⟨rfl, fun d there same => ?_⟩
    have nobody := List.argmax_eq_none.mp latest
    have listed := candidate d there same
    rw [nobody] at listed
    exact absurd listed List.not_mem_nil
  | some newest =>
    rw [latest] at follows
    obtain ⟨rfl, rfl⟩ := follows
    have chosen := List.mem_filter.mp (mem_of_maxBy latest)
    have named : newest.filename = pathName r.filename := (of_decide_eq_true chosen.2).1
    refine ⟨⟨newest, chosen.1, rfl, named, rfl⟩, fun d there same => ?_⟩
    have greatest : d.version ≤ newest.version :=
      List.le_of_mem_argmax (candidate d there same) latest
    exact Nat.lt_succ_of_le greatest

theorem followsParent_append {documents : List Document} {d : Document}
    (follows : FollowsParent documents d) (added : List Document) :
    FollowsParent (documents ++ added) d := by
  unfold FollowsParent at follows ⊢
  cases parent : d.parentDocumentId with
  | none =>
    rw [parent] at follows
    exact follows
  | some =>
    rw [parent] at follows
    obtain ⟨p, there, rest⟩ := follows
    exact ⟨p, List.mem_append_left _ there, rest⟩

variable {service : UploadService} {s : UploadSystem}

theorem excludes_symm (p q : UploadPoint) : excludes p q = excludes q p := Bool.and_comm _ _

theorem free_of_exclusive (exclusive : s.Exclusive excludes) {i j : Nat} {p q : UploadPoint}
    (distinct : j ≠ i) (here : s.calls[i]? = some p) (there : s.calls[j]? = some q)
    (holds : p.holdsLock = true) : q.holdsLock = false := by
  have apart := exclusive j i q p distinct there here
  unfold excludes at apart
  rw [holds, Bool.and_true] at apart
  exact apart

theorem step_cases (service : UploadService) (s : UploadSystem) (turn : Nat × UploadTurn) :
    step service s turn = s ∨ ∃ point, s.calls[turn.1]? = some point ∧
      step service s turn = ⟨(next service turn.2 s.shared point).1,
        s.calls.set turn.1 (next service turn.2 s.shared point).2⟩ := by
  rcases advance_cases excludes (next service) s turn with same | ⟨point, here, _, moved⟩
  · exact .inl same
  · exact .inr ⟨point, here, moved⟩

theorem held_step (s : UploadSystem) (turn : Nat × UploadTurn) (held : Held service s) :
    Held service (step service s turn) := by
  have exclusive := exclusive_advance excludes (next service) excludes_symm held.exclusive turn
  rcases step_cases service s turn with same | ⟨point, here, moved⟩
  · rw [same]
    exact held
  have fitting : Fits service (next service turn.2 s.shared point).1
      (next service turn.2 s.shared point).2 :=
    fits_next (held.fits point (List.mem_of_getElem? here))
  rcases rows_next service turn.2 s.shared point with ⟨documents, keys⟩ |
    ⟨r, document, job, key, rfl, _, commits⟩
  · -- The rows are as they were, and so is what the other calls know of them.
    rw [show advance excludes (next service) s turn = step service s turn from rfl] at exclusive
    rw [moved] at exclusive ⊢
    refine ⟨exclusive, ?_, ?_, ?_, ?_, ?_⟩
    · rw [documents]
      exact held.own
    · rw [documents]
      exact held.versions
    · rw [documents]
      exact held.parents
    · rw [documents, keys]
      exact held.keys
    · intro p member
      obtain ⟨j, there⟩ := List.mem_iff_getElem?.mp member
      rcases (getElem?_set_iff here).mp there with ⟨_, rfl⟩ | ⟨_, old⟩
      · exact fitting
      · exact (fits_congr documents).mpr (held.fits p (List.mem_of_getElem? old))
  · obtain ⟨isNext, resource, body⟩ := held.fits _ (List.mem_of_getElem? here)
    obtain ⟨parent, newest⟩ := follows_newDocument held.own isNext
    rw [show advance excludes (next service) s turn = step service s turn from rfl] at exclusive
    rw [commits] at fitting
    rw [moved, commits] at exclusive ⊢
    refine ⟨exclusive, ?_, ?_, ?_, ?_, ?_⟩
    · intro d there
      rcases List.mem_append.mp there with old | new
      · exact held.own d old
      · obtain ⟨_, _, _, _, rfl⟩ := isNext
        rw [List.mem_singleton.mp new]
        exact ⟨rfl, rfl⟩
    · rw [UploadStore.commit, List.map_append]
      refine held.versions.append (List.nodup_singleton _) ?_
      intro pair old new
      obtain ⟨d, there, rfl⟩ := List.mem_map.mp old
      have same := Prod.mk.inj (List.mem_singleton.mp new)
      exact absurd same.2 (Nat.ne_of_lt (newest d there same.1))
    · intro d there
      rcases List.mem_append.mp there with old | new
      · exact followsParent_append (held.parents d old) _
      · rw [List.mem_singleton.mp new]
        exact followsParent_append parent _
    · intro other there
      rcases List.mem_append.mp there with old | new
      · obtain ⟨same, d, listed, rest⟩ := held.keys other old
        exact ⟨same, d, List.mem_append_left _ listed, rest⟩
      · rw [List.mem_singleton.mp new]
        refine ⟨body.trans resource.symm, document, ?_, resource.symm⟩
        exact List.mem_append_right _ (List.mem_singleton_self _)
    · intro p member
      obtain ⟨j, there⟩ := List.mem_iff_getElem?.mp member
      rcases (getElem?_set_iff here).mp there with ⟨_, rfl⟩ | ⟨other, old⟩
      · exact fitting
      · have free := free_of_exclusive held.exclusive other here old rfl
        exact fits_commit (held.fits p (List.mem_of_getElem? old)) free document job key

/-- What careful turns keep. -/
structure Kept (service : UploadService) (s : UploadSystem) : Prop where
  hashes : (s.shared.documents.map Document.sha256Hash).Nodup
  results : ∀ p ∈ s.calls, ∀ id ∈ p.result, Committed service s.shared p.request id
  objects : ∀ key, (s.shared.objects key).isSome →
    (∃ d ∈ s.shared.documents, d.storageObjectKey = key) ∨ ∃ p ∈ s.calls, p.storing = some key

theorem mem_documents_next (turn : UploadTurn) {s : UploadStore} (p : UploadPoint) {d : Document}
    (there : d ∈ s.documents) : d ∈ (next service turn s p).1.documents := by
  rcases rows_next service turn s p with ⟨documents, _⟩ | ⟨_, _, _, _, _, _, commits⟩
  · rwa [documents]
  · rw [commits]
    exact List.mem_append_left _ there

theorem committed_of_result {turn : UploadTurn} {s : UploadStore} {p : UploadPoint}
    (keys : ∀ key ∈ s.keys, key.responseBody.documentId = key.resourceId ∧
      ∃ d ∈ s.documents, d.id = key.resourceId)
    (fits : Fits service s p) (careful : CarefulAt service s turn p)
    (results : ∀ id ∈ p.result, Committed service s p.request id) :
    ∀ id ∈ (next service turn s p).2.result,
      Committed service (next service turn s p).1 p.request id := by
  have nothing {s : UploadStore} {r : UploadRequest} :
      ∀ id ∈ (none : Option Uuid), Committed service s r id :=
    fun id none_returned => absurd none_returned (Option.not_mem_none id)
  cases p with
  | arrived r =>
    simp only [next]
    split
    · exact nothing
    · split_ifs
      · exact nothing
      · cases found : s.getKey r.idempotencyKey with
        | none => exact nothing
        | some key =>
          dsimp only
          split_ifs with other
          · exact nothing
          · rintro id ⟨⟩
            obtain ⟨body, d, there, same⟩ := keys key (List.mem_of_find?_eq_some found)
            have digest := careful key found (not_not.mp other) d there same
            exact ⟨d, there, same.trans body.symm, digest⟩
  | replayMissed r =>
    simp only [next]
    split
    · exact nothing
    · cases found : s.byHash service.userId (service.sha256 r.payload) with
      | nil => exact nothing
      | cons existing rest =>
        cases rest with
        | nil =>
          rintro id ⟨⟩
          have listed : existing ∈ s.byHash service.userId (service.sha256 r.payload) := by
            rw [found]
            exact List.mem_singleton_self existing
          obtain ⟨there, matching⟩ := List.mem_filter.mp listed
          exact ⟨existing, there, rfl, (of_decide_eq_true matching).1⟩
        | cons => exact nothing
  | hashMissed | versioned | inserted =>
    simp only [next]
    split <;> exact nothing
  | locked =>
    simp only [next]
    split
    · exact nothing
    · split <;> exact nothing
  | stored =>
    simp only [next]
    split
    · exact nothing
    · split_ifs <;> exact nothing
  | committed =>
    simp only [next]
    split
    · exact nothing
    · rintro id ⟨⟩
      exact fits
  | returned | failed => exact results

theorem objects_next (turn : UploadTurn) (s : UploadStore) (p : UploadPoint) (key : ObjectKey)
    (there : ((next service turn s p).1.objects key).isSome) :
    (s.objects key).isSome ∨ (next service turn s p).2.storing = some key := by
  rcases (next_cases service turn s p).2 with same | ⟨r, document, point, stored⟩ |
    ⟨_, _, _, _, _, _, commits⟩
  · rw [same] at there
    exact .inl there
  · by_cases own : key = document.storageObjectKey
    · rw [point, own]
      exact .inr rfl
    · rw [stored] at there
      rw [← ObjectStore.put_of_ne s.objects r.payload own]
      exact .inl there
  · rw [commits] at there
    exact .inl there

theorem storing_next {turn : UploadTurn} {s : UploadStore} {p : UploadPoint} {key : ObjectKey}
    (careful : CarefulAt service s turn p) (storing : p.storing = some key) :
    (next service turn s p).2.storing = some key ∨
      ∃ d ∈ (next service turn s p).1.documents, d.storageObjectKey = key := by
  cases p with
  | stored =>
    left
    simp only [next, careful.1, careful.2]
    exact storing
  | inserted r document =>
    right
    simp only [next, careful.1]
    refine ⟨document, List.mem_append_right _ (List.mem_singleton_self _), ?_⟩
    exact Option.some.inj storing
  | arrived | replayMissed | hashMissed | locked | versioned | committed | returned | failed =>
    cases storing

theorem kept_step (s : UploadSystem) (turn : Nat × UploadTurn)
    (inv : Held service s ∧ Kept service s) (careful : Careful service s turn) :
    Held service (step service s turn) ∧ Kept service (step service s turn) := by
  obtain ⟨held, kept⟩ := inv
  refine ⟨held_step s turn held, ?_⟩
  rcases step_cases service s turn with same | ⟨point, here, moved⟩
  · rw [same]
    exact kept
  have at_point := careful point here
  have inside := List.mem_of_getElem? here
  rw [moved]
  constructor
  · rcases rows_next service turn.2 s.shared point with ⟨documents, _⟩ |
      ⟨r, document, job, key, rfl, _, commits⟩
    · rw [documents]
      exact kept.hashes
    · rw [commits]
      simp only [UploadStore.commit, List.map_append]
      refine kept.hashes.append (List.nodup_singleton _) ?_
      intro digest old new
      obtain ⟨d, there, rfl⟩ := List.mem_map.mp old
      exact at_point.2 d there (List.mem_singleton.mp new)
  · intro p member id returned
    obtain ⟨j, there⟩ := List.mem_iff_getElem?.mp member
    rcases (getElem?_set_iff here).mp there with ⟨_, rfl⟩ | ⟨_, old⟩
    · rw [(next_cases service turn.2 s.shared point).1]
      exact committed_of_result held.keys (held.fits point inside) at_point
        (kept.results point inside) id returned
    · obtain ⟨d, listed, rest⟩ := kept.results p (List.mem_of_getElem? old) id returned
      exact ⟨d, mem_documents_next turn.2 point listed, rest⟩
  · intro key there
    have moves : (next service turn.2 s.shared point).2 ∈
        s.calls.set turn.1 (next service turn.2 s.shared point).2 :=
      List.mem_set (List.getElem?_eq_some_iff.mp here).1 _
    rcases objects_next turn.2 s.shared point key there with before | fresh
    · rcases kept.objects key before with ⟨d, listed, same⟩ | ⟨p, member, storing⟩
      · exact .inl ⟨d, mem_documents_next turn.2 point listed, same⟩
      · obtain ⟨j, at_j⟩ := List.mem_iff_getElem?.mp member
        by_cases mine : j = turn.1
        · obtain rfl := Option.some.inj ((mine ▸ at_j).symm.trans here)
          rcases storing_next at_point storing with still | done
          · exact .inr ⟨_, moves, still⟩
          · exact .inl done
        · have stays : (s.calls.set turn.1 (next service turn.2 s.shared point).2)[j]? = some p :=
            (getElem?_set_iff here).mpr (.inr ⟨mine, at_j⟩)
          exact .inr ⟨p, List.mem_of_getElem? stays, storing⟩
    · exact .inr ⟨_, moves, fresh⟩

theorem start_of (service : UploadService) (requests : List UploadRequest) :
    Held service (startOf requests) ∧ Kept service (startOf requests) := by
  have arrived {p : UploadPoint} (member : p ∈ (startOf requests).calls) : ∃ r, p = .arrived r := by
    obtain ⟨r, _, rfl⟩ := List.mem_map.mp member
    exact ⟨r, rfl⟩
  constructor
  · refine ⟨?_, ?_, List.nodup_nil, ?_, ?_, ?_⟩
    · intro i j p q _ here _
      obtain ⟨r, rfl⟩ := arrived (List.mem_of_getElem? here)
      rfl
    · exact fun d member => absurd member List.not_mem_nil
    · exact fun d member => absurd member List.not_mem_nil
    · exact fun key member => absurd member List.not_mem_nil
    · intro p member
      obtain ⟨r, rfl⟩ := arrived member
      trivial
  · refine ⟨List.nodup_nil, ?_, ?_⟩
    · intro p member id returned
      obtain ⟨r, rfl⟩ := arrived member
      cases returned
    · intro key there
      cases there

theorem id_of_committed (hashes : (s.shared.documents.map Document.sha256Hash).Nodup)
    {r r' : UploadRequest} (repeats : r.Repeats r') {a b : Uuid}
    (first : Committed service s.shared r a) (second : Committed service s.shared r' b) : a = b := by
  obtain ⟨d, there, rfl, digest⟩ := first
  obtain ⟨d', there', rfl, digest'⟩ := second
  have same : d.sha256Hash = d'.sha256Hash := by
    rw [digest, digest', repeats.payload]
  rw [List.inj_on_of_nodup_map hashes there there' same]

theorem committed_of_created {store : UploadStore} {p : UploadPoint} (fits : Fits service store p) :
    ∀ id ∈ p.created, Committed service store p.request id := by
  intro id created
  cases p with
  | committed =>
    cases created
    exact fits
  | returned | failed => exact fits id created
  | arrived | replayMissed | hashMissed | locked | versioned | stored | inserted => cases created

theorem consistent_of_kept (held : Held service s) (kept : Kept service s) : Consistent s where
  sameDocument := fun p pIn q qIn repeats a aIn b bIn =>
    id_of_committed kept.hashes repeats (kept.results p pIn a aIn) (kept.results q qIn b bIn)
  oneDocument := fun p pIn q qIn repeats a aIn b bIn =>
    id_of_committed kept.hashes repeats (committed_of_created (held.fits p pIn) a aIn)
      (committed_of_created (held.fits q qIn) b bIn)
  oneForHash := kept.hashes.sublist (List.filter_sublist.map _)
  versions := held.versions
  parents := held.parents
  objects := kept.objects

structure UploadStore.Chained (store : UploadStore) : Prop where
  versions : (store.documents.map fun d => (d.filename, d.version)).Nodup
  parents : ∀ d ∈ store.documents, FollowsParent store.documents d
  keys : ∀ key ∈ store.keys, key.responseBody.documentId = key.resourceId ∧
    ∃ d ∈ store.documents, d.id = key.resourceId

/-- In every run whose turns are careful, uploads of one request return one document, no two
documents have one digest, the versions of every file form a chain, and no object is left over. -/
theorem consistent_of_careful (service : UploadService) (requests : List UploadRequest)
    (turns : List (Nat × UploadTurn))
    (careful : Guarded (Careful service) (step service) (startOf requests) turns) :
    ∀ s ∈ trace (step service) (startOf requests) turns, Consistent s := by
  have kept := invariant_of_guarded kept_step (start_of service requests) careful
  intro s visited
  obtain ⟨held, keeps⟩ := kept s visited
  exact consistent_of_kept held keeps

/-- A service whose digests are the texts themselves. -/
def plainService : UploadService where
  tenantId := 7001
  userId := 7002
  valid := fun _ => true
  sha256 := fun payload => String.ofList (payload.map fun byte => Char.ofNat byte.toNat)
  computeFingerprint := fun digest filename contentType _ => digest ++ filename ++ contentType
  bucket := "documents"
  ingestionMaxAttempts := 3

def report (idempotencyKey : String) : UploadRequest :=
  ⟨idempotencyKey, "reports/q1.txt", "text/plain", [104, 105], none⟩

def goOn (documentId : Uuid) : UploadTurn := ⟨documentId, documentId + 100, 1, none⟩

def orderly : List (Nat × UploadTurn) :=
  List.replicate 8 (0, goOn 7010) ++ [(1, goOn 7011), (2, goOn 7012), (2, goOn 7012)]

theorem consistent_of_careful_orderly :
    Guarded (Careful plainService) (step plainService)
        (startOf [report "a", report "a", report "b"]) orderly ∧
      ∀ s ∈ trace (step plainService) (startOf [report "a", report "a", report "b"]) orderly,
        Consistent s := by
  have careful : Guarded (Careful plainService) (step plainService)
      (startOf [report "a", report "a", report "b"]) orderly := by
    decide +kernel
  exact ⟨careful,
    consistent_of_careful plainService [report "a", report "a", report "b"] orderly careful⟩

def bothMiss : List (Nat × UploadTurn) :=
  [(0, goOn 7010), (0, goOn 7010), (1, goOn 7011), (1, goOn 7011)] ++
    List.replicate 6 (0, goOn 7010) ++ List.replicate 6 (1, goOn 7011)

/-- Both create a document. -/
theorem not_consistent_bothMiss :
    ¬∀ s ∈ trace (step plainService) (startOf [report "a", report "b"]) bothMiss, Consistent s := by
  intro consistent
  have last := (consistent _ (run_mem_trace _ _ _)).oneForHash
  exact absurd last (by decide +kernel)

end AverQel.Ingestion.Uploads
