import ImportRepair.Text.Quoted
import ImportRepair.Text.Utf8

/-!
# Errors of the file system

Each system error has a number, a description and the paths that it is about.
-/

namespace ImportRepair

/-- The system's reasons to refuse an operation. -/
inductive ErrorCode
  | missing
  | busy
  | exists_
  | notDirectory
  | isDirectory
  | nameTooLong
  | linkLoop
deriving DecidableEq, Repr

namespace ErrorCode

/-- The number of the error. -/
def number : ErrorCode → Nat
  | .missing => 2
  | .busy => 16
  | .exists_ => 17
  | .notDirectory => 20
  | .isDirectory => 21
  | .nameTooLong => 36
  | .linkLoop => 40

/-- The description of the error. -/
def description : ErrorCode → Text
  | .missing => "No such file or directory"
  | .busy => "Device or resource busy"
  | .exists_ => "File exists"
  | .notDirectory => "Not a directory"
  | .isDirectory => "Is a directory"
  | .nameTooLong => "File name too long"
  | .linkLoop => "Too many levels of symbolic links"

/-- Whether a question about a file answers "no" in place of this error. -/
def isQuiet : ErrorCode → Bool
  | .missing | .notDirectory | .linkLoop => true
  | _ => false

end ErrorCode

/-- A failed operation on files. -/
inductive OsError
  /-- The system refuses an operation on a path. -/
  | onPath (code : ErrorCode) (path : Text)
  /-- The system refuses to rename one path to another. -/
  | onRename (code : ErrorCode) (source target : Text)
  /-- No name for a temporary file is free. -/
  | noFreeName
  /-- A file cannot be created for lack of permission. -/
  | denied (reason : Text)
  /-- The device reports a failure in its own words. -/
  | device (reason : Text)
deriving DecidableEq, Repr

/-- The wording of the error. -/
def OsError.message : OsError → Text
  | .onPath code path =>
    "[Errno " ++ Text.ofNat code.number ++ "] " ++ code.description ++ ": " ++ path.quoted
  | .onRename code source target =>
    "[Errno " ++ Text.ofNat code.number ++ "] " ++ code.description ++ ": " ++ source.quoted ++
      " -> " ++ target.quoted
  | .noFreeName => "[Errno 17] No usable temporary file name found"
  | .denied reason => reason
  | .device reason => reason

/-- Why an operation on a file given by a path fails. -/
inductive FileError
  /-- The system refuses it. -/
  | system (e : OsError)
  /-- The path holds the null character. -/
  | nullInPath
  /-- The path holds code points that no file name can hold. -/
  | unencodable (e : Utf8.EncodeError)
  /-- The bytes of the file are no text. -/
  | undecodable (e : Utf8.DecodeError)
deriving DecidableEq, Repr

/-- The wording of the error. -/
def FileError.message : FileError → Text
  | .system e => e.message
  | .nullInPath => "embedded null byte"
  | .unencodable e => e.message
  | .undecodable e => e.message

end ImportRepair
