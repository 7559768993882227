/-
Writing the store file.

Every repository call persists the store with one write of the whole file, to a temporary file that
is synced and then renamed over the old one. A failed write leaves the old file in place, so an
attempt to persist is described by how it ends.
-/
import Qid.Core.Basic

namespace Qid.Storage

/-- The stage of `write_store_content_locked` that failed, with the text of the
system error. -/
inductive WriteFault where
  | writeTemp (e : String)
  | openTemp (e : String)
  | fsyncTemp (e : String)
  | rename (e : String)
  deriving DecidableEq

def WriteFault.error : WriteFault → QidError
  | .writeTemp e => .internal ("failed to write temp store file: " ++ e)
  | .openTemp e => .internal ("failed to open temp file for fsync: " ++ e)
  | .fsyncTemp e => .internal ("failed to fsync temp store file: " ++ e)
  | .rename e => .internal ("failed to rename store file: " ++ e)

inductive Persist where
  | done
  | unserializable (e : String)
  | failed (fault : WriteFault)
  deriving DecidableEq

def Persist.result : Persist → QidResult Unit
  | .done => .ok ()
  | .unserializable e => .error (.internal ("failed to serialize store: " ++ e))
  | .failed fault => .error fault.error

theorem WriteFault.error_eq_failed (fault : WriteFault) :
    ∃ rest : List Char, fault.error = .internal (String.ofList ('f' :: rest)) := by
  have hfailed : ∀ (rest : List Char) (e : String),
      ∃ rest', String.ofList ('f' :: rest) ++ e = String.ofList ('f' :: rest') := fun rest e =>
    ⟨rest ++ e.toList, by rw [← List.cons_append, String.ofList_append, String.ofList_toList]⟩
  cases fault with
  | writeTemp e =>
    exact (hfailed "ailed to write temp store file: ".toList e).imp fun _ => congrArg _
  | openTemp e =>
    exact (hfailed "ailed to open temp file for fsync: ".toList e).imp fun _ => congrArg _
  | fsyncTemp e =>
    exact (hfailed "ailed to fsync temp store file: ".toList e).imp fun _ => congrArg _
  | rename e => exact (hfailed "ailed to rename store file: ".toList e).imp fun _ => congrArg _

end Qid.Storage
