import NoCapKVM.Discovery.Announce
import NoCapKVM.Text.Hex
import NoCapKVM.Text.Lines

/-! `discovery/identity.cpp`: the id of this device and its last role, each in a file. -/
namespace NoCapKVM.Discovery

open Text

/-- The two files, as far as they are there. -/
structure IdentityFiles where
  deviceId : Option (List Char) := none
  lastRole : Option (List Char) := none

/-- A file that cannot be opened for writing stays as it is. -/
def rewriteFile (saved : Bool) (text : List Char) (file : Option (List Char)) : Option (List Char) :=
  if saved then some text else file

/-- From two draws of the random device. -/
def generateDeviceId (high low : UInt64) : UInt64 :=
  (high <<< 32) ^^^ low

/-- `in >> std::hex >> id` -/
def readDeviceId (file : List Char) : Option UInt64 :=
  (IStream.hexUInt64 ⟨file, false⟩).1

/-- `out << std::hex << id` -/
def writeDeviceId (id : UInt64) : List Char :=
  (OStream.hex {}).uint64 id |>.text

/-- The id, and the file that is left. -/
def getOrCreateDeviceId (generated : UInt64) (saved : Bool) (file : Option (List Char)) : UInt64 × Option (List Char) :=
  match file.bind readDeviceId with
  | some id => (id, file)
  | none => (generated, rewriteFile saved (writeDeviceId generated) file)

theorem readDeviceId_writeDeviceId (id : UInt64) : readDeviceId (writeDeviceId id) = some id := by
  have hRead := @IStream.hexUInt64_before [] [] id (by simp) (by simp)
  rw [List.nil_append, List.append_nil] at hRead
  exact congrArg Prod.fst hRead

theorem getOrCreateDeviceId_found {file : Option (List Char)} {id : UInt64} (h : file.bind readDeviceId = some id)
    (generated : UInt64) (saved : Bool) : getOrCreateDeviceId generated saved file = (id, file) := by
  rw [getOrCreateDeviceId, h]

/-- The file holds the id, if it could be written. -/
theorem getOrCreateDeviceId_kept (generated : UInt64) (file : Option (List Char)) :
    (getOrCreateDeviceId generated true file).2.bind readDeviceId = some (getOrCreateDeviceId generated true file).1 := by
  cases hFile : file.bind readDeviceId with
  | some id =>
      rw [getOrCreateDeviceId_found hFile]
      exact hFile
  | none =>
      rw [getOrCreateDeviceId, hFile]
      exact readDeviceId_writeDeviceId generated

/-- A file that is not there reads as a failed stream. -/
def getLastRole (file : Option (List Char)) : Option Role :=
  match (IStream.int ⟨file.getD [], file.isNone⟩).1 with
  | some 0 => some .master
  | some 1 => some .slave
  | _ => none

/-- `static_cast<int>(role)` -/
def roleValue : Role → Int32
  | .master => 0
  | .slave => 1

def saveLastRole (role : Role) (saved : Bool) (file : Option (List Char)) : Option (List Char) :=
  rewriteFile saved (OStream.int32 {} (roleValue role)).text file

theorem getLastRole_saveLastRole (role : Role) (file : Option (List Char)) :
    getLastRole (saveLastRole role true file) = some role := by
  cases role <;> rfl

end NoCapKVM.Discovery
