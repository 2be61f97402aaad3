/-
  ReliableSender.Files
  ────────────────────
  **FILES, AND WHY ONE CANNOT BE READ.**

  A system tells its faults by number, and each of them has its wording.  A
  file comes as the octets in it or as such a fault, so that what a program does
  about its files can be told without a disk.
-/
namespace ReliableSender

/-- Why a file has no text. -/
inductive FileFault where
  | notFound
  | notAllowed
  /-- A name on the way to the file does not name a folder. -/
  | notFolder
  /-- The path names a folder. -/
  | isFolder
  | nameTooLong
  /-- The octets are not UTF-8. -/
  | notText
  | other (report : String)
  deriving DecidableEq, Repr

namespace FileFault

/-- The wording of a fault of a file. -/
def message : FileFault → String
  | notFound => "No such file or directory (os error 2)"
  | notAllowed => "Permission denied (os error 13)"
  | notFolder => "Not a directory (os error 20)"
  | isFolder => "Is a directory (os error 21)"
  | nameTooLong => "File name too long (os error 36)"
  | notText => "stream did not contain valid UTF-8"
  | other report => report

/-- The fault that a system gives a number. -/
def ofNumber? : Nat → Option FileFault
  | 2 => some notFound
  | 13 => some notAllowed
  | 20 => some notFolder
  | 21 => some isFolder
  | 36 => some nameTooLong
  | _ => none

end FileFault

end ReliableSender
