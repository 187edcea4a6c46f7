import Filehost.Database.Uploads

namespace Filehost.Upload

open Filehost.Database

/-! # Slugs -/

/-- `Path::file_name`: the last component, unless it is `..`. -/
def fileName (path : List Char) : Option (List Char) :=
  match ((path.splitOn '/').filter fun part => part ≠ [] && part ≠ ['.']).getLast? with
  | none => none
  | some ['.', '.'] => none
  | some name => some name

/-- What stands before and after the last dot of a file name; a dot that only
leads is part of the stem. -/
def splitAtLastDot (name : List Char) : List Char × Option (List Char) :=
  let after := (name.reverse.takeWhile (· ≠ '.')).reverse
  let before := (name.reverse.dropWhile (· ≠ '.')).tail.reverse
  if name.contains '.' && before ≠ [] then (before, some after) else (name, none)

def fileStem (path : List Char) : Option (List Char) :=
  (fileName path).map fun name => (splitAtLastDot name).1

def extension (path : List Char) : Option (List Char) :=
  (fileName path).bind fun name => (splitAtLastDot name).2

/-- The settings of an upload, and `char::is_alphanumeric`. -/
structure SlugSettings where
  autoFileExt : Bool
  maxExtLen : Nat
  isAlphanumeric : Char → Bool

def sanitizeFilenameStem (settings : SlugSettings) (name : List Char) : List Char :=
  ((fileStem name).getD []).map fun char =>
    if settings.isAlphanumeric char || char = '.' || char = '_' || char = '-' then char else '_'

def byteLength (text : List Char) : Nat := text.foldr (fun char length => char.utf8Size + length) 0

def usableExtension (settings : SlugSettings) (text : List Char) : Bool :=
  text ≠ [] && byteLength text ≤ settings.maxExtLen

def buildSlug (settings : SlugSettings) (originalName : List Char)
    (contentTypeSubtype : Option (List Char)) (keepName : Bool) (id : List Char) : List Char :=
  let stem := sanitizeFilenameStem settings originalName
  let base := if keepName && stem ≠ [] then stem ++ '_' :: id else id
  let ext := ((extension originalName).filter (usableExtension settings)).or
    (if settings.autoFileExt then contentTypeSubtype.filter (usableExtension settings) else none)
  match ext with
  | some ext => base ++ '.' :: ext
  | none => base

def drawable (length : Nat) (draw : List Char) : Bool :=
  draw.length = length && draw.all fun char => char.isAlphanum

def maxSlugAttempts : Nat := 3

structure SlugRequest where
  originalName : List Char
  ctSubtype : Option (List Char)
  keepName : Bool

def SlugRequest.candidate (request : SlugRequest) (settings : SlugSettings) (draw : List Char) :
    List Char :=
  buildSlug settings request.originalName request.ctSubtype request.keepName draw

/-- The length of the next random string, and how many of that length failed. -/
def nextAttempt (idLen attempt : Nat) : Nat × Nat :=
  if attempt + 1 = maxSlugAttempts then (idLen + 1, 0) else (idLen, attempt + 1)

/-- The loop of `allocate_unique_slug` over the strings it draws, `none` where
the availability check itself fails.  It has not answered when the list ends. -/
def allocateUniqueSlug (collation : Collation) (settings : SlugSettings) (table : Uploads)
    (request : SlugRequest) :
    Nat → Nat → List (Option (List Char)) → Option (Except Unit (List Char))
  | _, _, [] => none
  | _, _, none :: _ => some (.error ())
  | idLen, attempt, some draw :: draws =>
      let candidate := request.candidate settings draw
      if table.isSlugTaken collation candidate then
        let (idLen, attempt) := nextAttempt idLen attempt
        allocateUniqueSlug collation settings table request idLen attempt draws
      else some (.ok candidate)

end Filehost.Upload
