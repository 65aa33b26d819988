import ImportRepair.Text.Classes
import ImportRepair.World

/-!
# Finding the module of a type

A chain of mappings is asked first, in order, and then the user, as often as it takes to get an
answer that is not blank.
-/

namespace ImportRepair

/-- The modules of types, each type once. -/
abbrev Mapping := List (Text × Text)

/-- Where modules come from: mappings in their order, and then questions, if any are allowed. -/
structure Resolver where
  mappings : List Mapping
  interactive : Bool

namespace Resolver

/-- The question for a type. -/
def question (type : Text) : Text := "What module is " ++ type ++ " located in?"

/-- What one answer settles. -/
inductive Reply
  | module (name : Text)
  | endOfInput
  | blank
deriving DecidableEq, Repr

/-- Asks once for the module of a type. -/
def askOnce (type : Text) (pathCount : Nat) : Job Reply := do
  match ← ask (question type) with
  | none =>
    note .warning .questions ("Input ended while resolving the module for " ++ type)
    return .endOfInput
  | some answer =>
    let module := Text.strip answer
    if module.isEmpty then
      display (.message .warning "A module name is required.")
      return .blank
    note .debug .questions ("Resolved " ++ type ++ " -> " ++ module ++ " for " ++
      Text.ofNat pathCount ++ " file(s)")
    return .module module

/-- Asks for the module of a type until an answer is not blank, at most `retries` times more. -/
def askWithin (type : Text) (pathCount : Nat) : (retries : Nat) → Job (Option Text)
  | 0 => do
    match ← askOnce type pathCount with
    | .module name => return some name
    | _ => return none
  | retries + 1 => do
    match ← askOnce type pathCount with
    | .module name => return some name
    | .endOfInput => return none
    | .blank => askWithin type pathCount retries

/-- Asks for the module of a type. Every blank answer uses up one of the answers to come, and the
end of input is an answer too, so the questions end. -/
def askModule (type : Text) (pathCount : Nat) : Job (Option Text) := do
  askWithin type pathCount (← get).answers.length

/-- The module that a mapping has for a type. An empty one does not count. -/
def mapped? (mapping : Mapping) (type : Text) : Option Text :=
  (mapping.lookup type).filter fun module => !module.isEmpty

/-- The module of a type by the rest of a chain of mappings. -/
def resolveBy (interactive : Bool) (type : Text)
    (pathCount : Nat) : List Mapping → Job (Option Text)
  | [] => if interactive then askModule type pathCount else throw .noResolver
  | mapping :: rest => do
    match mapped? mapping type with
    | some module =>
      note .info .mapping ("Using mapped module " ++ module ++ " for " ++ type)
      return some module
    | none =>
      if rest.isEmpty && !interactive then
        note .warning .mapping ("No module mapped for " ++ type)
        return none
      resolveBy interactive type pathCount rest

/-- The module of a type that is missing in a number of files; none if nobody knows it. -/
def resolve (resolver : Resolver) (type : Text) (pathCount : Nat) : Job (Option Text) :=
  resolveBy resolver.interactive type pathCount resolver.mappings

end Resolver

end ImportRepair
