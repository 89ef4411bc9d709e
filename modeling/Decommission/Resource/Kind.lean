/-! The kinds of resources that a virtual machine owns, and their names in management requests. -/
namespace Decommission

inductive ResourceKind where
  | virtualMachine
  | networkInterface
  | publicAddress
  | storageAccount
  deriving DecidableEq, Repr

namespace ResourceKind

/-- The kinds that keep a resource group alive, in the order in which they are looked for. -/
def tracked : List ResourceKind :=
  [.virtualMachine, .storageAccount, .networkInterface, .publicAddress]

def label : ResourceKind → String
  | .virtualMachine => "virtual_machine"
  | .networkInterface => "network_interface"
  | .publicAddress => "public_ip_address"
  | .storageAccount => "storage_account"

/-- The path segments of the kind below its resource group. -/
def providerPath : ResourceKind → String
  | .virtualMachine => "Microsoft.Compute/virtualMachines"
  | .networkInterface => "Microsoft.Network/networkInterfaces"
  | .publicAddress => "Microsoft.Network/publicIPAddresses"
  | .storageAccount => "Microsoft.Storage/storageAccounts"

/-- The version of the management interface that requests about the kind name. -/
def apiVersion : ResourceKind → String
  | .storageAccount => "2015-06-15"
  | _ => "2016-03-30"

end ResourceKind

/-- The version that requests about resource groups name. -/
def groupApiVersion : String := "2015-01-01"

end Decommission
