import Decommission.Json.Value
import Decommission.Program.Server
import Decommission.Teardown.Service

/-!
Services whose answers are written down beforehand as JSON documents. Each call takes the next answer,
whatever it asks for; closing a store takes none. Stores are named by account.
-/
namespace Decommission.Simulation

inductive WrittenAnswer where
  | value (v : Json)
  | failure (f : Failure)

/-- The answers that are left, and the calls made. -/
structure Rehearsal where
  answers : List WrittenAnswer
  calls : List (Teardown.Call String)

def statusOfJson? (v : Json) : Option OperationStatus :=
  v.text?.bind fun s =>
    if s = "InProgress" then some .inProgress
    else if s = "Succeeded" then some .succeeded
    else if s = "Failed" then some .failed
    else none

def deletionOfJson? (v : Json) : Option Deletion :=
  match v with
  | .text (some s) =>
    if s = "AlreadyAbsent" then some .alreadyAbsent
    else if s = "Deleted" then some .deleted
    else none
  | .object [(some key, .text (some uri))] => if key = "pending" then some (.pending uri) else none
  | _ => none

def boolOfJson? : Json → Option Bool
  | .bool b => some b
  | _ => none

/-- The result of a call to the control plane that a document writes. -/
def resultOfJson? : (call : ControlPlane.Call) → Json → Option (ControlPlane.Result call)
  | .getMachine .. => Json.nullable Machine.ofJson?
  | .getNetworkCard .. => Json.nullable NetworkCard.ofJson?
  | .getStorageKeys .. => Json.nullable StorageKeys.ofJson?
  | .list .. => Json.listOf Json.text?
  | .delete .. => deletionOfJson?
  | .deleteGroup .. => deletionOfJson?
  | .operationStatus .. => statusOfJson?

/-- The next answer as a value, and the state after it. -/
def Rehearsal.take {α : Type} (r : Rehearsal) (read : Json → Option α) :
    Except Failure α × Rehearsal :=
  match r.answers with
  | [] => (.error (.of (.plain "script exhausted")), r)
  | .failure f :: rest => (.error f, { r with answers := rest })
  | .value v :: rest =>
    (match read v with
      | some a => .ok a
      | none => .error (.of (.plain "bad answer")), { r with answers := rest })

def Rehearsal.answer (r : Rehearsal) :
    (call : Teardown.Call String) → Teardown.Answer String call × Rehearsal
  | .plane call => r.take (resultOfJson? call)
  | .blob (.openStore account _) => r.take fun _ => some account
  | .blob (.deleteContainer ..) => r.take boolOfJson?
  | .blob (.customImageExists _) => r.take boolOfJson?
  | .blob (.close _) => ((), r)

/-- The state with a call at the end of its log. -/
def Rehearsal.record (r : Rehearsal) (call : Teardown.Call String) : Rehearsal :=
  { r with calls := r.calls ++ [call] }

def Rehearsal.server : Server (Teardown.Service String) Rehearsal where
  serve _ call r :=
    let (answer, r) := (r.record call).answer call
    ((0, answer), r)
  draw := Server.noDraw

end Decommission.Simulation
