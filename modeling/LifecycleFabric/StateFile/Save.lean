import LifecycleFabric.Lib.AtomicReplace
import LifecycleFabric.StateFile.Sections

/-!
# Saving and loading the state file

A save writes a temporary and renames it over the state file. Where the rename fails it
removes the state file and tries again. A load reads the whole file before it decodes it.
What the file system answers is given with each call.
-/

namespace LifecycleFabric.StateFile

open ByteCodec AtomicReplace

/-- How the file system answers the calls of a save. -/
structure SaveAnswers where
  /-- Why the directory of the state file cannot be created. -/
  directoryError : Option Text := none
  opened : Bool := true
  /-- The sizes of the pieces in which the temporary is written, up to the last. -/
  pieceSizes : List ℕ := []
  /-- Whether all of it is written and flushed. -/
  flushed : Bool := true
  renamed : Bool := true
  /-- Whether the state file is removed for a second attempt. -/
  removed : Bool := true
  /-- Why the second attempt fails. -/
  retryError : Option Text := none
  /-- Whether the temporary is removed after it. -/
  cleaned : Bool := true
  deriving DecidableEq

/-- What a save does to the disk, in order, and what it returns. -/
structure SaveRun where
  effects : List (DiskEffect UInt8) := []
  result : Except StateStoreFault Unit := .ok ()

/-- The effect of a call that succeeds. -/
def effectIf (succeeds : Bool) (effect : DiskEffect UInt8) : List (DiskEffect UInt8) :=
  if succeeds then [effect] else []

/-- Rename the temporary over the state file. -/
def replaceFile (answers : SaveAnswers) : SaveRun :=
  if answers.renamed then { effects := [.rename] }
  else
    let removing := effectIf answers.removed .removeDestination
    match answers.retryError with
    | none => { effects := removing ++ [.rename] }
    | some message =>
      { effects := removing ++ effectIf answers.cleaned .removeTemporary
        result :=
          .error ⟨.atomicReplaceFailed, text "atomic replacement failed: " ++ message⟩ }

/-- Save a durable state. -/
def saveDurableState (limits : DecodeLimits) (d : DurableState) (answers : SaveAnswers) :
    SaveRun :=
  match serializeDurableState limits d with
  | .error fault => { result := .error fault }
  | .ok bytes =>
    match answers.directoryError with
    | some message =>
      { result := .error ⟨.ioError, text "cannot create state directory: " ++ message⟩ }
    | none =>
      if !answers.opened then
        { result := .error ⟨.ioError, text "cannot open temporary state file"⟩ }
      else
        let written := writing answers.pieceSizes bytes answers.flushed
        if !answers.flushed then
          { effects := written
            result := .error ⟨.ioError, text "temporary state file write failed"⟩ }
        else
          let replacing := replaceFile answers
          { replacing with effects := written ++ replacing.effects }

/-- How the file system answers the calls of a load. -/
structure LoadAnswers where
  opened : Bool := true
  sized : Bool := true
  /-- Whether the whole file is read. -/
  whole : Bool := true
  deriving DecidableEq

/-- Load a durable state from what the state file holds, if there is one. -/
def loadDurableState (limits : DecodeLimits) (file : Option Bytes) (answers : LoadAnswers) :
    Except Refusal DurableState :=
  match file with
  | none => .error (.framing ⟨.ioError, text "cannot open state file"⟩)
  | some bytes =>
    if !answers.opened then .error (.framing ⟨.ioError, text "cannot open state file"⟩)
    else if !answers.sized then .error (.framing ⟨.ioError, text "cannot size state file"⟩)
    else if bytes.length = 0 then .error (.framing ⟨.truncated, text "state file is empty"⟩)
    else if sizeWord (limits.maxPayloadBytes + kHeaderSize + kTrailerSize) < bytes.length then
      .error (.framing ⟨.boundsExceeded, text "state file exceeds the decode bound"⟩)
    else if !answers.whole then
      .error (.framing ⟨.truncated, text "state file could not be read completely"⟩)
    else deserializeDurableState limits (some bytes)

/-- Whether a load failed before it read anything. -/
def Refusal.unread : Refusal → Bool
  | .framing fault => decide (fault.status = .ioError)
  | .content => false

end LifecycleFabric.StateFile
