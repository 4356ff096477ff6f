/-!
# Errors (`s2_client_error.hpp`, `chunk_extern.h`)
-/

namespace SasLibclient

/-- An error of the library or of the MySQL client. Code 0 is "no error". -/
structure S2ClientError where
  errorCode : UInt32
  errorMessage : String
  deriving DecidableEq, Repr

def S2ClientError.none : S2ClientError := ⟨0, ""⟩

def s2cErrorInvArg : UInt32 := 1
def s2cErrorUnsDataType : UInt32 := 2
def s2cErrorUnknownFailure : UInt32 := 3
def s2cErrorMemoryAllocation : UInt32 := 4
def s2cErrorReaderFailed : UInt32 := 5
def s2cErrorBadConnection : UInt32 := 6

end SasLibclient
