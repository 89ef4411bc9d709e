import Decommission.Resource.Kind
import Decommission.Text.Segment

/-! The addresses of resources in management requests. -/
namespace Decommission.ControlPlane

/-- The endpoint without slashes at its end, and the subscription below it. -/
structure Root where
  endpoint : String
  subscription : String
  deriving DecidableEq, Repr

namespace Root

def ofEndpoint (endpoint subscription : String) : Root :=
  ⟨String.ofList (Text.dropEnd '/' endpoint.toList), subscription⟩

def groupPath (r : Root) (group : String) : String :=
  r.endpoint ++ "/subscriptions/" ++ r.subscription ++ "/resourceGroups/" ++ group

def collectionPath (r : Root) (kind : ResourceKind) (group : String) : String :=
  r.groupPath group ++ "/providers/" ++ kind.providerPath

def resourcePath (r : Root) (kind : ResourceKind) (group name : String) : String :=
  r.collectionPath kind group ++ "/" ++ name

/-- An address with the version of the interface as its query. -/
def versioned (path version : String) : String := path ++ "?api-version=" ++ version

def groupUrl (r : Root) (group : String) : String := versioned (r.groupPath group) groupApiVersion

def collectionUrl (r : Root) (kind : ResourceKind) (group : String) : String :=
  versioned (r.collectionPath kind group) kind.apiVersion

def resourceUrl (r : Root) (kind : ResourceKind) (group name : String) : String :=
  versioned (r.resourcePath kind group name) kind.apiVersion

def keysUrl (r : Root) (group account : String) : String :=
  versioned (r.resourcePath .storageAccount group account ++ "/listKeys")
    ResourceKind.storageAccount.apiVersion

end Root

end Decommission.ControlPlane
