import Decommission.Backoff

/-! The values that hold where nothing else is asked for. -/
namespace Decommission.Defaults

def endpoint : String := "https://management.azure.com"

def blobSuffix : String := "blob.core.windows.net"

/-- Resource groups are named after this text and their region. -/
def groupPrefix : String := "armsweep"

/-- The container that holds the disks of machines. -/
def diskContainer : String := "vhds"

/-- The container that holds captured images. -/
def imageContainer : String := "system"

/-- What the names of images captured by users start with. -/
def customImagePath : String := "Microsoft.Compute/Images/custom"

def deleteTimeoutSeconds : Nat := 600

def requestAttempts : Nat := 5

def lockAttempts : Nat := 5

def lockDelayMillis : Nat := 1000

def requestTimeout : Duration := .seconds 60

/-- The retries of requests to the services. -/
def requestRetry : RetryPolicy := .exponential requestAttempts (.millis 500) (.seconds 10)

/-- The retries of locking a machine. -/
def lockRetry : RetryPolicy := .fixed lockAttempts (.millis lockDelayMillis)

end Decommission.Defaults
