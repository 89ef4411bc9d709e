import Decommission.CommandLine
import Decommission.Teardown.OverHttp

/-! What the program does for a command, what it prints, and its exit code. -/
namespace Decommission.CommandLine

structure Report where
  exit : Nat
  out : String := ""
  err : String := ""
  deriving DecidableEq, Repr

def name : String := "armsweep"

def version : String := "0.1.0"

def usage : String :=
  "Tear down Azure Resource Manager virtual machines and their resources\n\n" ++
  "Usage: armsweep [OPTIONS] <COMMAND>\n\n" ++
  "Commands:\n" ++
  "  destroy <ID>                    Destroy a VM and the resources it owns\n" ++
  "  delete-group-if-empty <REGION>  Delete the region's resource group if nothing tracked is left\n" ++
  "  encode <REGION> <ID>            Print the slash-encoded id of a VM\n" ++
  "  help                            Print this message\n\n" ++
  "Options:\n" ++
  "      --subscription-id <ID>      Subscription owning the resource groups\n" ++
  "      --access-token <TOKEN>      Bearer token for the management endpoint\n" ++
  "      --endpoint <URL>            ARM management endpoint\n" ++
  "      --group-prefix <PREFIX>     Resource groups are named after this and their region\n" ++
  "      --delete-timeout <SECONDS>  Seconds to wait for each deletion to complete\n" ++
  "  -h, --help                      Print help\n" ++
  "  -V, --version                   Print version\n"

namespace Report

/-- The outermost message, each cause below it, and what can be done about it. -/
def errorText (messages : List String) (suggestion : Option String) : String :=
  "\n\x1b[1;31mError:\x1b[0m " ++ messages.headD "" ++ "\n" ++
    String.join (messages.tail.map fun m => "  \x1b[33mCaused by:\x1b[0m " ++ m ++ "\n") ++
    (match suggestion with
      | some s => "\n\x1b[36mHint:\x1b[0m " ++ s ++ "\n"
      | none => "")

/-- What the failure says of a text that could not be read comes last. -/
def ofFailure (f : Failure) : Report :=
  { exit := 2, err := errorText (f.messages ++ f.cause.detail?.toList) f.suggestion? }

def ofTeardown (e : Teardown.Error) : Report :=
  let detail := e.failure?.bind fun f => f.cause.detail?
  { exit := 2,
    err := errorText (e.messages ++ detail.toList) (e.service?.bind ServiceError.suggestion?) }

/-- The exit code tells whether the machine is gone. -/
def ofRemoval : Except Teardown.Error Bool → Report
  | .ok true => { exit := 0 }
  | .ok false => { exit := 1 }
  | .error e => ofTeardown e

/-- A group that is kept is no error. -/
def ofGroupCheck : Except Teardown.Error Bool → Report
  | .ok _ => { exit := 0 }
  | .error e => ofTeardown e

def ofEncoding (region name : String) : Report :=
  match MachineId.ofParts region name with
  | .ok id => { exit := 0, out := id.encode ++ "\n" }
  | .error e => { exit := 2, err := errorText [e.message] none }

end Report

def missingCredentials : String :=
  "ARM credentials missing: set --subscription-id/AZURE_SUBSCRIPTION_ID and " ++
    "--access-token/AZURE_ACCESS_TOKEN"

/-- Goes on with the services that the options describe. -/
def withServices (o : Options) (go : Teardown.Services → Task Http.Transport Report) :
    Task Http.Transport Report :=
  match ControlPlane.Connection.ofSettings o.connection with
  | .error f => .done (.ofFailure (f.inContext missingCredentials))
  | .ok connection => go (.ofConnection connection Defaults.blobSuffix)

/-- Carries a command out over HTTP. -/
def perform (o : Options) : Command → Task Http.Transport Report
  | .encode region name => .done (.ofEncoding region name)
  | .destroy id => withServices o fun services =>
    (services.perform (Teardown.removeMachine o.teardown id)).bind fun result =>
      .done (.ofRemoval result)
  | .deleteGroupIfEmpty region => withServices o fun services =>
    let group := Teardown.groupName o.teardown.groupPrefix region
    (services.perform (Teardown.deleteGroupIfEmpty o.teardown.wait group)).bind fun result =>
      .done (.ofGroupCheck result)

/-- Answers the arguments in an environment. -/
def respond (environment : String → Option String) (arguments : List String) :
    Task Http.Transport Report :=
  match read arguments with
  | .run options command =>
    perform ((Options.ofEnvironment environment).overriddenBy options) command
  | .help => .done { exit := 0, out := usage }
  | .version => .done { exit := 0, out := name ++ " " ++ version ++ "\n" }
  | .misuse => .done { exit := 2, err := "error: the arguments are not understood\n\n" ++ usage }

end Decommission.CommandLine
