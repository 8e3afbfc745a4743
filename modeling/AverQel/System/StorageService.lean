/- digest: The object store: safe names, keys, and a map from keys to bytes. -/
import AverQel.Base
import AverQel.Foundation.Text
import Mathlib.Logic.Function.Basic

namespace AverQel.System

open Foundation

/-- The characters that `_FILENAME_SAFE_PATTERN` lets through. -/
def isSafeChar (c : Char) : Bool := c.isAlphanum || c == '.' || c == '_' || c == '-'

def replaceUnsafe : List Char → List Char
  | [] => []
  | c :: rest =>
    if isSafeChar c then c :: replaceUnsafe rest
    else if rest.head?.any (fun next => !isSafeChar next) then replaceUnsafe rest
    else '_' :: replaceUnsafe rest

/-- `_safe_filename` -/
def safeFilename (filename : String) : String :=
  let slashed := (Text.strip filename).toList.map (fun c => if c = '\\' then '/' else c)
  let last := slashed.rtakeWhile (fun c => c ≠ '/')
  String.ofList (replaceUnsafe (if last = [] then "file".toList else last))

/-- `{tenant_id}/{document_id}/{safe_filename}`: none of the parts contains a slash. -/
structure ObjectKey where
  (tenantId documentId : Uuid)
  safeName : String
  deriving DecidableEq

def objectKey (tenantId documentId : Uuid) (filename : String) : ObjectKey :=
  ⟨tenantId, documentId, safeFilename filename⟩

abbrev ObjectStore (Bytes : Type) := ObjectKey → Option Bytes

namespace ObjectStore

variable {Bytes : Type}

def put (store : ObjectStore Bytes) (key : ObjectKey) (payload : Bytes) : ObjectStore Bytes :=
  Function.update store key (some payload)

def delete (store : ObjectStore Bytes) (key : ObjectKey) : ObjectStore Bytes :=
  Function.update store key none

@[simp] theorem put_self (store : ObjectStore Bytes) (key : ObjectKey) (payload : Bytes) :
    store.put key payload key = some payload :=
  Function.update_self _ _ _

theorem put_of_ne (store : ObjectStore Bytes) {key other : ObjectKey} (payload : Bytes)
    (differ : other ≠ key) : store.put key payload other = store other :=
  Function.update_of_ne differ _ _

theorem delete_of_ne (store : ObjectStore Bytes) {key other : ObjectKey} (differ : other ≠ key) :
    store.delete key other = store other :=
  Function.update_of_ne differ _ _

end ObjectStore

/-- What comes of a deletion: the object is deleted, the client library reports an error, or
something else is raised, such as by a service without an endpoint. -/
inductive DeleteOutcome where
  | deleted
  | refused
  | raised (error : String)
  deriving DecidableEq

/-- `StorageService.delete_object`, and the text of the error that it raises. -/
def deleteObject {Bytes : Type} (store : ObjectStore Bytes) (key : ObjectKey)
    (raiseOnError : Bool) : DeleteOutcome → ObjectStore Bytes × Option String
  | .deleted => (store.delete key, none)
  | .refused =>
    (store, if raiseOnError then some "Unable to delete document from object storage." else none)
  | .raised error => (store, some error)

end AverQel.System
