import ImportRepair.Text.Basic

/-!
# Outcomes

What became of one file for one import line.
-/

namespace ImportRepair.Patch

/-- The outcome for a file. -/
inductive Status
  /-- The line was put in. -/
  | patched
  /-- The line would be put in, but nothing is written in a trial run. -/
  | wouldPatch
  /-- The file holds the line already. -/
  | alreadyPresent
  /-- The file has no place for the line. -/
  | noAnchor
  /-- The file does not exist or may not be written. -/
  | unwritable
  /-- The new text cannot be written as bytes. -/
  | encodeFailed
  /-- Reading or writing failed. -/
  | failed
deriving DecidableEq, Repr

namespace Status

/-- All outcomes. -/
def all : List Status :=
  [.patched, .wouldPatch, .alreadyPresent, .noAnchor, .unwritable, .encodeFailed, .failed]

/-- The name of an outcome. -/
def name : Status → Text
  | .patched => "patched"
  | .wouldPatch => "would_patch"
  | .alreadyPresent => "already_present"
  | .noAnchor => "no_anchor"
  | .unwritable => "unwritable"
  | .encodeFailed => "encode_failed"
  | .failed => "failed"

/-- The outcome with a name. -/
def ofName? (name : Text) : Option Status := all.find? (·.name = name)

/-- Whether an outcome is a failure: files that are left out on purpose are none. -/
def isFailure (s : Status) : Bool := s = .failed

end Status

/-- The outcome for one file, with the message that tells it. -/
structure Result where
  path : Text
  module : Text
  status : Status
  message : Text
deriving DecidableEq, Repr

end ImportRepair.Patch
