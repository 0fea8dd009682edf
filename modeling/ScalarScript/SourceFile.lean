import ScalarScript.Text.Utf8

/-!
# `ScalarScript.SourceFile`: program texts in files

A program file is read as a whole and decoded as UTF-8. What reading
the file system gave is a value here, so that what becomes of it is a
function.
-/

set_option autoImplicit false

namespace ScalarScript

/-- What a path leads to. -/
inductive FileContent where
  | missing
  /-- Something is there that cannot be read, for the reason given. -/
  | unreadable (reason : String)
  | bytes (data : List UInt8)
  deriving DecidableEq, Repr

/-- A directory cannot be read as a file. -/
def FileContent.directory : FileContent :=
  .unreadable "Is a directory (os error 21)"

/-- Why a file gives no program text. -/
inductive SourceError where
  | fileNotFound (path : String)
  | invalidEncoding (path : String) (fault : Text.Utf8.Fault)
  | unreadable (path reason : String)
  deriving DecidableEq, Repr

/-- The message of the error. -/
def SourceError.message : SourceError → String
  | fileNotFound path => "File '" ++ path ++ "' could not be found"
  | invalidEncoding path fault =>
    "File '" ++ path ++ "' is not UTF-8 encoded text: " ++ fault.text
  | unreadable path reason => "File '" ++ path ++ "' could not be read: " ++ reason

/-- The text of the file that a path leads to. -/
def FileContent.text (path : String) : FileContent → Except SourceError String
  | missing => .error (.fileNotFound path)
  | unreadable reason => .error (.unreadable path reason)
  | bytes data =>
    match Text.Utf8.decode data with
    | .ok text => .ok text
    | .error fault => .error (.invalidEncoding path fault)

end ScalarScript
