import Mathlib.Data.List.Infix
import MacpControlPlane.Lib.Js

/-!
# Thrown values (`runtime/grpc-helpers.ts`)

What `macpErrorCodeOf` reads of a thrown value, what a `catch` of the program reads besides, and the message with which
`handleExecuteError` of `runs/run-executor.service.ts` fails a run.
-/

namespace MacpControlPlane

open Js

/-- A thrown value, with what `macpErrorCodeOf` reads of it. -/
inductive Thrown where
  /-- An `AppException`: `metadata.macpErrorCode`, where that is a string. -/
  | appException (macpErrorCode : Option String)
  /-- Anything else: the first `macp-error-code` of its gRPC metadata, where it has such metadata. -/
  | raw (trailer : Option String)
  deriving DecidableEq, Repr

def readMacpErrorCode (trailer : Option String) : Option String :=
  (trailer.map trim).filter (· ≠ "")

def macpErrorCodeOf : Thrown → Option String
  | .appException code => code
  | .raw trailer => readMacpErrorCode trailer

/-- A caught value: the message of an `Error`, or the text of anything else, and the gRPC code. -/
structure Caught where
  isError : Bool := true
  message : String
  code : Option Nat := none
  thrown : Thrown := .raw none
  deriving DecidableEq, Repr

namespace RunExecutor

/-- `code === name || (code === undefined && msg.includes(name))`; the name may have other spellings in the message. -/
def hasCode (error : Caught) (name : String) (others : List String := []) : Bool :=
  macpErrorCodeOf error.thrown = some name ||
    (macpErrorCodeOf error.thrown = none &&
      (name :: others).any fun text => decide (text.toList <:+: error.message.toList))

/-- The message of the error that `handleExecuteError` fails the run with. -/
def failureMessage (error : Caught) : String :=
  if !error.isError then error.message
  else if hasCode error "UNKNOWN_POLICY_VERSION" then "Unknown policy version: " ++ error.message
  else if hasCode error "POLICY_DENIED" then "Policy denied: " ++ error.message
  else if hasCode error "INVALID_POLICY_DEFINITION" then "Invalid policy definition: " ++ error.message
  else if hasCode error "SESSION_ALREADY_EXISTS" ["SessionAlreadyExists"] then
    "Session already exists: " ++ error.message
  else error.message

end RunExecutor

end MacpControlPlane
